import MiniRtc.Rtp.Datagram
import MiniRtc.Rtp.PacketAv1
import MiniRtc.Rtp.PacketH264

/-!
# Packets of the sender

`RtpPacketToSend` of `rtp_packet_to_send.cpp`. `buildRtxPacket` puts the original sequence number
in front of the payload of a media packet and writes the header anew. The SSRC and the payload
type are those that the caller set before.

`build_rtx_datagram` says what it makes of a datagram, and the last section that the packets of
both packetizers are datagrams.
-/

namespace MiniRtc

/-- `RtpPacketMediaType`. -/
inductive RtpPacketMediaType where
  | audio
  | video
  | retransmission
  | forwardErrorCorrection
  | padding
  deriving DecidableEq

/-- `RtpPacketToSend::OriginalType`. -/
inductive OriginalType where
  | audio
  | video
  deriving DecidableEq

/-- `RtpPacketToSend`. -/
structure RtpPacketToSend extends RtpPacket where
  packetType : Option RtpPacketMediaType := none
  originalPacketType : Option OriginalType := none
  originalSsrc : Option (BitVec 32) := none
  retransmittedSequenceNumber : Option (BitVec 16) := none
  isFirstPacketOfFrame : Bool := false
  isKeyFrame : Bool := false
  fecProtectPacket : Bool := false
  deriving DecidableEq

namespace RtpPacketToSend

/-- `set_packet_type` remembers the type that the packet had before. -/
def setPacketType (p : RtpPacketToSend) (type : RtpPacketMediaType) : RtpPacketToSend :=
  { p with
    originalPacketType :=
      match p.packetType with
      | some .audio => some .audio
      | some .video => some .video
      | _ => p.originalPacketType
    packetType := some type }

/-- The header that `BuildRtxPacket` writes from the fields of the packet. -/
def rtxHeader (p : RtpPacketToSend) : List Byte :=
  [(p.version <<< 6) ||| ((BitVec.ofBool p.hasPadding).setWidth 8 <<< 5) |||
      ((BitVec.ofBool p.hasExtension).setWidth 8 <<< 4) ||| BitVec.ofNat 8 p.csrcs.length,
    ((BitVec.ofBool p.marker).setWidth 8 <<< 7) ||| p.payloadType] ++
    bytesOfUint16 p.sequenceNumber ++ bytesOfUint32 p.timestamp ++ bytesOfUint32 p.ssrc ++
    p.csrcs.flatMap bytesOfUint32

/-- `BuildRtxPacket`. The result of `Build` is not looked at. -/
def buildRtxPacket (p : RtpPacketToSend) : RtpPacketToSend × Bool :=
  match p.retransmittedSequenceNumber with
  | none => (p, false)
  | some original =>
      let extensionOffset := kFixedHeaderSize + p.csrcs.length * 4
      let q := { p with payloadType := payloadTypeRtx }
      if p.hasExtension ∧
          (extensionOffset > p.payloadOffset ∨ p.payloadOffset > p.buffer.length) then (q, false)
      else
        let extension :=
          if p.hasExtension then (p.buffer.take p.payloadOffset).drop extensionOffset else []
        let frame := p.rtxHeader ++ extension ++ bytesOfUint16 original ++ p.payload
        ({ q with toRtpPacket := (q.toRtpPacket.build frame).1 }, true)

/-- The retransmission that `ReSendPacket` makes of a stored packet. -/
def encapsulate (rtxSsrc : BitVec 32) (stored : RtpPacketToSend) : Option RtpPacketToSend :=
  let packet :=
    { stored with
      ssrc := rtxSsrc
      payloadType := payloadTypeRtx
      retransmittedSequenceNumber := some stored.sequenceNumber
      originalSsrc := some stored.ssrc }
  let built := packet.buildRtxPacket
  if built.2 then some built.1 else none

end RtpPacketToSend

namespace Datagram

/-- The retransmission of a datagram: its sequence number stands in front of the payload. -/
def rtx (d : Datagram) (rtxSsrc : BitVec 32) : Datagram :=
  { d with
    payloadType := payloadTypeRtx
    ssrc := rtxSsrc
    body := bytesOfUint16 d.sequenceNumber ++ d.body
    typeFits := by decide }

/-- The bytes of the packet behind the fixed header are the extension block. -/
theorem extension_of_buffer (d : Datagram) :
    (d.packet.buffer.take d.packet.payloadOffset).drop kFixedHeaderSize = d.extensionBytes := by
  have htake : d.packet.buffer.take d.packet.payloadOffset = d.front := by
    simp [packet, bytes]
  rw [htake, front]
  exact List.drop_left' (header_bytes_length ..)

/-- `BuildRtxPacket` on a packet whose type and SSRC were set before. -/
theorem build_rtx_packet (d : Datagram) (rtxSsrc : BitVec 32) {p : RtpPacketToSend}
    (hp : p.toRtpPacket = { d.packet with ssrc := rtxSsrc, payloadType := payloadTypeRtx })
    (hsequence : p.retransmittedSequenceNumber = some d.sequenceNumber) :
    p.buildRtxPacket = ({ p with toRtpPacket := (d.rtx rtxSsrc).packet }, true) := by
  have hcsrcs : kFixedHeaderSize + p.csrcs.length * 4 = kFixedHeaderSize := by
    simp [hp, packet]
  have hroom : ¬ (p.hasExtension = true ∧ (kFixedHeaderSize > p.payloadOffset ∨
      p.payloadOffset > p.buffer.length)) := by
    simp [hp, packet, front_length, bytes]
  have hheader : p.rtxHeader = headerBytes false d.sendTime.isSome d.marker payloadTypeRtx
      d.sequenceNumber d.timestamp rtxSsrc := by
    simp [RtpPacketToSend.rtxHeader, hp, packet, headerBytes]
  have hextension : (if p.hasExtension then (p.buffer.take p.payloadOffset).drop kFixedHeaderSize
      else []) = d.extensionBytes := by
    rw [← d.extension_of_buffer]
    cases hsent : d.sendTime with
    | none => simp [hp, packet, hsent, front_length, extensionBytes]
    | some sent => simp [hp, packet, hsent]
  have hpayload : p.payload = d.body := by
    rw [hp, ← d.packet_payload]
    rfl
  have hbuild : ({ p with payloadType := payloadTypeRtx } : RtpPacketToSend).toRtpPacket.build
      (d.rtx rtxSsrc).bytes = ((d.rtx rtxSsrc).packet, true) := by
    refine build_bytes _ _ fun hnone => ?_
    have hsent : d.sendTime = none := hnone
    simp [hp, packet, hsent]
  have hframe : p.rtxHeader ++ d.extensionBytes ++ bytesOfUint16 d.sequenceNumber ++ d.body =
      (d.rtx rtxSsrc).bytes := by
    simp [hheader, rtx, bytes, front, extensionBytes]
  simp only [RtpPacketToSend.buildRtxPacket, hsequence, hcsrcs, hextension, hpayload, hframe]
  rw [if_neg hroom, hbuild]

/-- The retransmission of a stored datagram. -/
theorem encapsulate_packet (d : Datagram) (rtxSsrc : BitVec 32) {stored : RtpPacketToSend}
    (hstored : stored.toRtpPacket = d.packet) :
    ∃ retransmission, stored.encapsulate rtxSsrc = some retransmission ∧
      retransmission.toRtpPacket = (d.rtx rtxSsrc).packet := by
  have hsequence : stored.sequenceNumber = d.sequenceNumber := by
    rw [hstored]
    rfl
  have hbuilt := d.build_rtx_packet rtxSsrc
    (p := { stored with
      ssrc := rtxSsrc
      payloadType := payloadTypeRtx
      retransmittedSequenceNumber := some stored.sequenceNumber
      originalSsrc := some stored.ssrc })
    (by rw [← hstored]) (by rw [hsequence])
  refine ⟨{ stored with
    toRtpPacket := (d.rtx rtxSsrc).packet
    retransmittedSequenceNumber := some stored.sequenceNumber
    originalSsrc := some stored.ssrc }, ?_, rfl⟩
  simp only [RtpPacketToSend.encapsulate, hbuilt, if_true]

/-! ## The packets of the packetizers -/

/-- A datagram of a packetizer. The send time is not written yet. -/
theorem packet_bytes_eq (extensionId : Option ExtensionId) (marker : Bool) {payloadType : Byte}
    (htype : payloadType.getLsbD 7 = false) (sequenceNumber : BitVec 16)
    (timestamp ssrc : BitVec 32) (body : List Byte) :
    packetBytes extensionId marker payloadType sequenceNumber timestamp ssrc body =
      bytes { sendTime := extensionId.map fun id => (id, 0), marker, payloadType, sequenceNumber,
              timestamp, ssrc, body, typeFits := htype } := by
  cases extensionId with
  | none => rfl
  | some id => rfl

end Datagram

/-- A packet of a packetizer, with the given type, time and SSRC. -/
def IsMediaPacket (payloadType : Byte) (timestamp ssrc : BitVec 32) (p : RtpPacket) : Prop :=
  ∃ d : Datagram, p = d.packet ∧ d.payloadType = payloadType ∧ d.timestamp = timestamp ∧
    d.ssrc = ssrc

/-- The packets of an H.264 frame. -/
theorem RtpPacketizerH264.build_media {s : RtpPacketizerH264} {payload : List Byte}
    {rtpTimestamp : BitVec 32} {p : RtpPacket} (hp : p ∈ (s.build payload rtpTimestamp).2) :
    IsMediaPacket payloadTypeH264 rtpTimestamp s.ssrc p := by
  have hdatagram : ∀ (marker : Bool) (sequenceNumber : BitVec 16) (body : List Byte) (q : RtpPacket),
      RtpPacket.ofBuffer (packetBytes s.absSendTimeExtId marker payloadTypeH264 sequenceNumber
        rtpTimestamp s.ssrc body) = some q →
      IsMediaPacket payloadTypeH264 rtpTimestamp s.ssrc q := by
    intro marker sequenceNumber body q hq
    rw [Datagram.packet_bytes_eq _ _ (by decide), Datagram.of_buffer_bytes] at hq
    exact ⟨_, (Option.some.inj hq).symm, rfl, rfl, rfl⟩
  unfold build at hp
  split_ifs at hp
  · exact hdatagram _ _ _ p (Option.mem_toList.mp hp)
  · obtain ⟨index, -, hindex⟩ := List.mem_filterMap.mp hp
    exact hdatagram _ _ _ p hindex

/-- The packets of an AV1 frame. -/
theorem RtpPacketizerAv1.build_media {s : RtpPacketizerAv1} {payload : List Byte}
    {rtpTimestamp : BitVec 32} {p : RtpPacket} (hp : p ∈ (s.build payload rtpTimestamp).2) :
    IsMediaPacket payloadTypeAv1 rtpTimestamp s.ssrc p := by
  obtain ⟨k, hk, rfl⟩ := List.mem_mapIdx.mp hp
  rw [pieceBytes, Datagram.packet_bytes_eq _ _ (by decide),
    Datagram.build_bytes _ _ fun _ => ⟨rfl, rfl⟩]
  exact ⟨_, rfl, rfl, rfl, rfl⟩

end MiniRtc

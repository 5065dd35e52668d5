import MiniRtc.Rtp.PacketHistory
import MiniRtc.Video.Receiver

/-!
# Retransmissions

A media packet goes to the pacer, which gives it the next sequence number of its SSRC, and gets its
send time right before the wire. The packet history keeps it in this form. When the receiver asks
for it, `ReSendPacket` makes a retransmission of the stored packet, which takes the same way under
another SSRC, and the receiver restores the media packet from it.

The main result is `rtx_round_trip`: the restored packet is the stored one up to its send time.
-/

namespace MiniRtc

/-- The last changes before the wire: `PacedSender::SendPacket` gives the packet a sequence number,
and its callback the send time, when the extension was negotiated. -/
def RtpPacket.transmit (p : RtpPacket) (sequenceNumber : BitVec 16)
    (sendTime : Option (Byte × BitVec 32)) : RtpPacket :=
  let p := p.updateSequenceNumber sequenceNumber
  match sendTime with
  | none => p
  | some (extensionId, absSendTime) => (p.updateAbsoluteSendTimestamp extensionId absSendTime).1

/-- A packet that a packetizer built for a frame. -/
inductive BuiltForFrame : Byte → BitVec 32 → RtpPacket → Prop
  | h264 (s : RtpPacketizerH264) (payload : List Byte) (rtpTimestamp : BitVec 32) {p : RtpPacket}
      (hp : p ∈ (s.build payload rtpTimestamp).2) : BuiltForFrame payloadTypeH264 s.ssrc p
  | av1 (s : RtpPacketizerAv1) (payload : List Byte) (rtpTimestamp : BitVec 32) {p : RtpPacket}
      (hp : p ∈ (s.build payload rtpTimestamp).2) : BuiltForFrame payloadTypeAv1 s.ssrc p

/-- Two packets are the same up to the three bytes of the send time. -/
structure SameButSendTime (p q : RtpPacket) : Prop where
  sequenceNumber : q.sequenceNumber = p.sequenceNumber
  timestamp : q.timestamp = p.timestamp
  marker : q.marker = p.marker
  payloadType : q.payloadType = p.payloadType
  ssrc : q.ssrc = p.ssrc
  csrcs : q.csrcs = p.csrcs
  payload : q.payload = p.payload
  size : q.size = p.size
  elsewhere : ∀ i, (p.hasExtension = true → i < 17 ∨ 20 ≤ i) →
    byteAt q.buffer i = byteAt p.buffer i

namespace Datagram

/-- On its way to the wire a packet gets another sequence number and another send time. -/
theorem transmit_packet (d : Datagram) (sequenceNumber : BitVec 16)
    (sendTime : Option (Byte × BitVec 32)) :
    ∃ sent, d.packet.transmit sequenceNumber sendTime =
        { d with sequenceNumber, sendTime := sent }.packet ∧
      sent.map Prod.fst = d.sendTime.map Prod.fst := by
  simp only [RtpPacket.transmit, update_sequence_number]
  cases sendTime with
  | none => exact ⟨d.sendTime, rfl, rfl⟩
  | some sendTime =>
      exact update_absolute_send_timestamp { d with sequenceNumber } sendTime.1 sendTime.2

/-- The packets of the packetizers are datagrams. -/
theorem of_built_for_frame {payloadType : Byte} {ssrc : BitVec 32} {p : RtpPacket}
    (h : BuiltForFrame payloadType ssrc p) :
    ∃ d : Datagram, p = d.packet ∧ d.payloadType = payloadType ∧ d.ssrc = ssrc ∧
      (payloadType = payloadTypeH264 ∨ payloadType = payloadTypeAv1) := by
  cases h with
  | h264 s payload rtpTimestamp hp =>
      obtain ⟨d, hd, htype, -, hssrc⟩ := RtpPacketizerH264.build_media hp
      exact ⟨d, hd, htype, hssrc, Or.inl rfl⟩
  | av1 s payload rtpTimestamp hp =>
      obtain ⟨d, hd, htype, -, hssrc⟩ := RtpPacketizerAv1.build_media hp
      exact ⟨d, hd, htype, hssrc, Or.inr rfl⟩

/-- The marker survives the change of the payload type. -/
theorem marker_byte (marker : Bool) (payloadType : Byte) :
    ((((BitVec.ofBool marker).setWidth 8 <<< 7) ||| payloadTypeRtx) &&& 0x80) ||| payloadType =
      ((BitVec.ofBool marker).setWidth 8 <<< 7) ||| payloadType := by
  cases marker
  · rw [show (((BitVec.ofBool false).setWidth 8 <<< 7) ||| payloadTypeRtx) &&& 0x80 =
      (BitVec.ofBool false).setWidth 8 <<< 7 by decide]
  · rw [show (((BitVec.ofBool true).setWidth 8 <<< 7) ||| payloadTypeRtx) &&& 0x80 =
      (BitVec.ofBool true).setWidth 8 <<< 7 by decide]

/-- The receiver restores the datagram from its retransmission. -/
theorem restore_rtx (d : Datagram) (rtxSsrc : BitVec 32) (sequenceNumber : BitVec 16)
    (sent : Option (ExtensionId × BitVec 24)) {s : RtpVideoReceiver}
    (hssrc : s.remoteSsrc = d.ssrc) (hzero : d.ssrc ≠ 0) (htype : s.mediaPayloadType = d.payloadType)
    (hmedia : d.payloadType ≠ payloadTypeUndefined ∧ d.payloadType ≠ payloadTypeRtx) :
    s.restoreMediaPacketFromRtx { d.rtx rtxSsrc with sequenceNumber, sendTime := sent }.packet =
      some { d with sendTime := sent }.packet := by
  set e : Datagram := { d.rtx rtxSsrc with sequenceNumber, sendTime := sent } with he
  have hpayload : e.packet.payload = bytesOfUint16 d.sequenceNumber ++ d.body := e.packet_payload
  have haccepted : ¬ (e.packet.payloadType ≠ payloadTypeRtx ∨ e.packet.payloadSize < 2 ∨
      e.packet.payloadOffset < kFixedHeaderSize ∨ s.remoteSsrc = 0 ∨
      s.mediaPayloadType = payloadTypeUndefined ∨ s.mediaPayloadType = payloadTypeRtx) := by
    have hsize : e.packet.payloadSize = 2 + d.body.length := by
      simp [packet, he, rtx, bytesOfUint16]
      omega
    have hoffset : e.packet.payloadOffset = kFixedHeaderSize + e.extensionBytes.length :=
      e.front_length
    rintro (hrtx | hshort | hheader | hnone | hundefined | hrtx)
    · exact hrtx rfl
    · omega
    · omega
    · exact hzero (hssrc ▸ hnone)
    · exact hmedia.1 (htype ▸ hundefined)
    · exact hmedia.2 (htype ▸ hrtx)
  have hmediaBuffer : e.packet.buffer.take e.packet.payloadOffset ++ e.packet.payload.drop 2 ++
      e.packet.buffer.drop (e.packet.size - e.packet.paddingSize) = e.front ++ d.body := by
    rw [hpayload]
    simp [packet, bytes, bytesOfUint16]
  have hmarker : (byteAt (e.front ++ d.body) 1 &&& (0x80 : Byte)) ||| d.payloadType =
      ((BitVec.ofBool d.marker).setWidth 8 <<< 7) ||| d.payloadType :=
    marker_byte d.marker d.payloadType
  have hrestored : byteAt (e.front ++ d.body) 0 ::
      ((byteAt (e.front ++ d.body) 1 &&& 0x80) ||| s.mediaPayloadType) ::
      (bytesOfUint16 d.sequenceNumber ++ d.body).take 2 ++ ((e.front ++ d.body).drop 4).take 4 ++
      bytesOfUint32 s.remoteSsrc ++ (e.front ++ d.body).drop 12 =
        { d with sendTime := sent }.bytes := by
    rw [hssrc, htype, hmarker]
    rfl
  rw [RtpVideoReceiver.restoreMediaPacketFromRtx, if_neg haccepted]
  simp only [hmediaBuffer]
  rw [hpayload, hrestored, of_buffer_bytes]

/-- Bytes in front of the middle part and behind it do not depend on it. -/
theorem byte_at_append_middle {front first second rest : List Byte} {i : Nat}
    (hlen : first.length = second.length)
    (hi : i < front.length ∨ front.length + second.length ≤ i) :
    byteAt (front ++ first ++ rest) i = byteAt (front ++ second ++ rest) i := by
  simp only [byteAt, List.getD_eq_getElem?_getD]
  rcases hi with hbefore | hbehind
  · rw [List.append_assoc, List.append_assoc, List.getElem?_append_left hbefore,
      List.getElem?_append_left hbefore]
  · have hfirst : (front ++ first).length ≤ i := by
      rw [List.length_append, hlen]
      exact hbehind
    have hsecond : (front ++ second).length ≤ i := by
      rw [List.length_append]
      exact hbehind
    rw [List.getElem?_append_right hfirst, List.getElem?_append_right hsecond,
      List.length_append, List.length_append, hlen]

/-- Two datagrams that differ in their send times. -/
theorem same_but_send_time (d : Datagram) {sent : Option (ExtensionId × BitVec 24)}
    (hid : sent.map Prod.fst = d.sendTime.map Prod.fst) :
    SameButSendTime d.packet { d with sendTime := sent }.packet := by
  have hbytes : { d with sendTime := sent }.bytes.length = d.bytes.length ∧
      ∀ i, (d.sendTime.isSome = true → i < 17 ∨ 20 ≤ i) →
        byteAt { d with sendTime := sent }.bytes i = byteAt d.bytes i := by
    cases hold : d.sendTime with
    | none =>
        have hnone : sent = none := by simpa [hold] using hid
        subst hnone
        rw [← hold]
        exact ⟨rfl, fun _ _ => rfl⟩
    | some old =>
        obtain ⟨id, t⟩ := old
        obtain ⟨⟨id', t'⟩, rfl, rfl⟩ : ∃ new, sent = some new ∧ new.1 = id := by
          simpa [hold] using hid
        rw [bytes_eq_send_time d hold, bytes_eq_send_time _ rfl]
        refine ⟨by simp [bytesOfSendTime], fun i hi => ?_⟩
        refine byte_at_append_middle rfl ?_
        rw [List.length_append, header_bytes_length]
        exact hi rfl
  have hpayload : { d with sendTime := sent }.packet.payload = d.packet.payload := by
    rw [packet_payload, packet_payload]
  exact ⟨rfl, rfl, rfl, rfl, rfl, rfl, hpayload, hbytes.1, hbytes.2⟩

end Datagram

namespace RtpPacketHistory

/-- The RTX round trip: every media packet in the history can be retransmitted, and whatever
sequence number and send time the retransmission gets on its way, the receiver restores the media
packet from it, up to the send time. -/
theorem rtx_round_trip (payloadType : Byte) (ssrc : BitVec 32) (hzero : ssrc ≠ 0)
    (actions : List (ℤ × Op))
    (hsent : ∀ now p time, (now, .putRtpPacket p time) ∈ actions → p.payloadType = payloadType →
      ∃ built sequenceNumber sendTime, BuiltForFrame payloadType ssrc built ∧
        p.toRtpPacket = built.transmit sequenceNumber sendTime)
    (stored : RtpPacketToSend) (hstored : (actions.foldl step {}).Holds stored)
    (hmedia : stored.payloadType = payloadType) (rtxSsrc : BitVec 32) {s : RtpVideoReceiver}
    (hssrc : s.remoteSsrc = ssrc) (htype : s.mediaPayloadType = payloadType) :
    ∃ retransmission, stored.encapsulate rtxSsrc = some retransmission ∧
      ∀ sequenceNumber sendTime, ∃ received restored,
        RtpPacket.ofBuffer (retransmission.transmit sequenceNumber sendTime).buffer =
          some received ∧
        s.restoreMediaPacketFromRtx received = some restored ∧
        SameButSendTime stored.toRtpPacket restored := by
  obtain ⟨⟨now, op⟩, hmem, time, hput⟩ := holds_run hstored
  have hop : op = .putRtpPacket stored time := hput
  subst hop
  obtain ⟨built, number, firstTime, hbuilt, hfirst⟩ := hsent now stored time hmem hmedia
  obtain ⟨d, rfl, hdtype, hdssrc, hcodec⟩ := Datagram.of_built_for_frame hbuilt
  obtain ⟨old, hold, -⟩ := d.transmit_packet number firstTime
  -- the datagram of the stored packet
  set e : Datagram := { d with sequenceNumber := number, sendTime := old } with he
  have hpacket : stored.toRtpPacket = e.packet := hfirst.trans hold
  obtain ⟨retransmission, hsome, hrtx⟩ := e.encapsulate_packet rtxSsrc hpacket
  refine ⟨retransmission, hsome, fun sequenceNumber sendTime => ?_⟩
  obtain ⟨sent, htransmit, hid⟩ := (e.rtx rtxSsrc).transmit_packet sequenceNumber sendTime
  refine ⟨_, { e with sendTime := sent }.packet, ?_, e.restore_rtx rtxSsrc sequenceNumber sent
    (hssrc.trans hdssrc.symm) (hdssrc ▸ hzero) (htype.trans hdtype.symm) ?_, ?_⟩
  · rw [hrtx, htransmit]
    exact Datagram.of_buffer_bytes _
  · show d.payloadType ≠ payloadTypeUndefined ∧ d.payloadType ≠ payloadTypeRtx
    rw [hdtype]
    rcases hcodec with hcodec | hcodec <;> rw [hcodec] <;> decide
  · rw [hpacket]
    exact e.same_but_send_time hid

/-- A packetizer with the send time switched on. -/
def timedPacketizer : RtpPacketizerH264 where
  absSendTimeExtId := some ⟨3, by decide⟩
  ssrc := 7

/-- Its packet of a frame. -/
def timedPacket : RtpPacket :=
  (Datagram.packet
    { sendTime := some (⟨3, by decide⟩, 0)
      marker := true
      payloadType := payloadTypeH264
      sequenceNumber := 1
      timestamp := 9000
      ssrc := 7
      body := RtpPacketizerH264.naluBody [0x65, 1]
      typeFits := by decide })

/-- The packet as it was sent, with number 11. -/
def timedStored : RtpPacketToSend :=
  { toRtpPacket := timedPacket.transmit 11 (some (3, 0x123456)) }

/-- The stored packet comes back from a retransmission with number 40. -/
theorem timed_packet_restored : ∃ retransmission received restored,
    timedStored.encapsulate 8 = some retransmission ∧
      RtpPacket.ofBuffer (retransmission.transmit 40 (some (3, 0x654321))).buffer = some received ∧
      RtpVideoReceiver.restoreMediaPacketFromRtx (.ofMediaConfig 7 8 payloadTypeH264) received =
        some restored ∧
      SameButSendTime timedStored.toRtpPacket restored ∧ timedStored.sequenceNumber = 11 := by
  have hbuilt : timedPacket ∈ (timedPacketizer.build [0x65, 1] 9000).2 := by decide +kernel
  obtain ⟨retransmission, hsome, hrestored⟩ :=
    rtx_round_trip payloadTypeH264 7 (by decide)
      [(0, .putRtpPacket timedStored 0)]
      (by
        intro now p time hmem _
        obtain ⟨rfl, hput⟩ := Prod.mk.inj (List.mem_singleton.mp hmem)
        obtain ⟨rfl, rfl⟩ := Op.putRtpPacket.inj hput
        exact ⟨timedPacket, 11, some (3, 0x123456), .h264 timedPacketizer [0x65, 1] 9000 hbuilt, rfl⟩)
      timedStored ⟨{ packet := some timedStored }, by decide +kernel, rfl⟩ (by decide +kernel) 8
      (s := .ofMediaConfig 7 8 payloadTypeH264) rfl rfl
  obtain ⟨received, restored, hparsed, hmedia, hsame⟩ := hrestored 40 (some (3, 0x654321))
  exact ⟨retransmission, received, restored, hsome, hparsed, hmedia, hsame, by decide +kernel⟩

end RtpPacketHistory

end MiniRtc

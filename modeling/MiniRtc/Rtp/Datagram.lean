import Mathlib.Data.List.Basic
import MiniRtc.Rtp.Packet

/-!
# Datagrams of the sender

A `Datagram` holds the values that a packetizer writes: the header fields, the send time if the
extension is switched on, and the payload. `bytes` is what goes over the wire and `packet` is
the `RtpPacket` with all its fields. The functions of `rtp_packet.h` that change a packet in place
keep buffer and fields in step, so that each of them is a change of one value of the datagram.
-/

namespace MiniRtc

/-- The values of a datagram without padding and without contributing sources. -/
structure Datagram where
  sendTime : Option (ExtensionId × BitVec 24) := none
  marker : Bool
  payloadType : Byte
  sequenceNumber : BitVec 16
  timestamp : BitVec 32
  ssrc : BitVec 32
  body : List Byte
  /-- The type shares its byte with the marker. -/
  typeFits : payloadType.getLsbD 7 = false

/-- The three bytes of a send time. -/
def bytesOfSendTime (t : BitVec 24) : List Byte :=
  [t.extractLsb' 16 8, t.extractLsb' 8 8, t.extractLsb' 0 8]

namespace Datagram

/-- The extension block, which is empty when the extension is switched off. -/
def extensionBytes (d : Datagram) : List Byte :=
  match d.sendTime with
  | none => []
  | some (id, t) =>
      sendTimeExtension id (t.extractLsb' 16 8) (t.extractLsb' 8 8) (t.extractLsb' 0 8)

/-- Everything in front of the payload. -/
def front (d : Datagram) : List Byte :=
  headerBytes false d.sendTime.isSome d.marker d.payloadType d.sequenceNumber d.timestamp d.ssrc ++
    d.extensionBytes

/-- The flags, and the marker with the payload type. -/
def firstBytes (d : Datagram) : List Byte :=
  [(kRtpVersion <<< 6) ||| ((BitVec.ofBool false).setWidth 8 <<< 5) |||
      ((BitVec.ofBool d.sendTime.isSome).setWidth 8 <<< 4),
    ((BitVec.ofBool d.marker).setWidth 8 <<< 7) ||| d.payloadType]

/-- The datagram on the wire. -/
def bytes (d : Datagram) : List Byte :=
  d.front ++ d.body

/-- The packet that `Build` makes of the datagram. -/
def packet (d : Datagram) : RtpPacket where
  version := kRtpVersion
  hasExtension := d.sendTime.isSome
  marker := d.marker
  payloadType := d.payloadType
  sequenceNumber := d.sequenceNumber
  timestamp := d.timestamp
  ssrc := d.ssrc
  extensionProfile := if d.sendTime.isSome then kOneByteExtensionProfileId else 0
  extensionLen := if d.sendTime.isSome then 1 else 0
  extensions := d.sendTime.toList.map fun sent =>
    { id := sent.1.val, len := 3, dataOffset := kFixedHeaderSize + 5, data := bytesOfSendTime sent.2 }
  payloadOffset := d.front.length
  payloadSize := d.body.length
  buffer := d.bytes
  size := d.bytes.length

/-- The fixed header has twelve bytes. -/
theorem header_bytes_length (hasPadding hasExtension marker : Bool) (payloadType : Byte)
    (sequenceNumber : BitVec 16) (timestamp ssrc : BitVec 32) :
    (headerBytes hasPadding hasExtension marker payloadType sequenceNumber timestamp ssrc).length =
      kFixedHeaderSize := by
  simp [headerBytes, bytesOfUint16, bytesOfUint32, kFixedHeaderSize]

/-- The header, field by field. -/
theorem bytes_eq (d : Datagram) :
    d.bytes = d.firstBytes ++ bytesOfUint16 d.sequenceNumber ++
      (bytesOfUint32 d.timestamp ++ bytesOfUint32 d.ssrc ++ d.extensionBytes ++ d.body) := by
  simp only [bytes, front, headerBytes, firstBytes, List.append_assoc]

/-- The header is at the front. -/
theorem front_length (d : Datagram) :
    d.front.length = kFixedHeaderSize + d.extensionBytes.length := by
  rw [front, List.length_append, header_bytes_length]

/-- The fields of a packet after `Parse` has read the fixed header of a datagram. -/
def afterHeader (d : Datagram) (p : RtpPacket) : RtpPacket :=
  { p with
    version := kRtpVersion
    hasPadding := false
    hasExtension := d.sendTime.isSome
    csrcCount := 0
    marker := d.marker
    payloadType := d.payloadType
    sequenceNumber := d.sequenceNumber
    timestamp := d.timestamp
    ssrc := d.ssrc
    csrcs := []
    extensions := []
    payloadOffset := kFixedHeaderSize }

/-- The extension block adds what the packet of a datagram says about it. -/
theorem parse_extension_bytes (d : Datagram) (p : RtpPacket)
    (hold : d.sendTime = none → p.extensionProfile = 0 ∧ p.extensionLen = 0) :
    (d.afterHeader p).parseExtensionBlock (byteAt d.bytes) d.bytes.length =
      ({ d.packet with
          payloadSize := p.payloadSize
          paddingSize := p.paddingSize
          buffer := p.buffer
          size := p.size }, true) := by
  cases hsent : d.sendTime with
  | none =>
      obtain ⟨hprofile, hlen⟩ := hold hsent
      simp [RtpPacket.parseExtensionBlock, afterHeader, packet, front_length, extensionBytes, hsent,
        hprofile, hlen]
  | some sent =>
      obtain ⟨id, t⟩ := sent
      have hblock : d.extensionBytes =
          sendTimeExtension id (t.extractLsb' 16 8) (t.extractLsb' 8 8) (t.extractLsb' 0 8) := by
        simp [extensionBytes, hsent]
      have hparse := parse_extension_block (p := d.afterHeader p) (by simp [afterHeader, hsent]) rfl
        id (t.extractLsb' 16 8) (t.extractLsb' 8 8) (t.extractLsb' 0 8)
        (headerBytes false d.sendTime.isSome d.marker d.payloadType d.sequenceNumber d.timestamp
          d.ssrc) d.body (header_bytes_length ..).symm
      rw [← hblock] at hparse
      refine hparse.trans ?_
      rw [header_bytes_length]
      simp [afterHeader, packet, front_length, hblock, sendTimeExtension, hsent, bytesOfSendTime]

/-- `Build` reads all values of a datagram, whatever the packet was before. Only the extension
header of an older packet survives when there is no new one. -/
theorem build_bytes (d : Datagram) (p : RtpPacket)
    (hold : d.sendTime = none → p.extensionProfile = 0 ∧ p.extensionLen = 0) :
    p.build d.bytes = (d.packet, true) := by
  have hfixed : p.parseFixedHeader (byteAt d.bytes) d.bytes.length = (d.afterHeader p, true) := by
    have h := parse_fixed_header p false d.sendTime.isSome d.marker d.typeFits d.sequenceNumber
      d.timestamp d.ssrc (d.extensionBytes ++ d.body)
    rw [← List.append_assoc] at h
    exact h
  have hpayload : ({ d.packet with
      payloadSize := p.payloadSize
      paddingSize := p.paddingSize
      buffer := p.buffer
      size := p.size } : RtpPacket).parsePayload (byteAt d.bytes) d.bytes.length =
        ({ d.packet with buffer := p.buffer, size := p.size }, true) := by
    simp [RtpPacket.parsePayload, packet, bytes]
  have hparse : p.parse (byteAt d.bytes) d.bytes.length =
      ({ d.packet with buffer := p.buffer, size := p.size }, true) := by
    rw [RtpPacket.parse, hfixed, ← hpayload]
    simp only [Bool.not_true, Bool.false_eq_true, if_false, d.parse_extension_bytes p hold]
  simp [RtpPacket.build, hparse, packet]

/-- The bytes of a datagram parse. -/
theorem of_buffer_bytes (d : Datagram) : RtpPacket.ofBuffer d.bytes = some d.packet := by
  rw [RtpPacket.ofBuffer, d.build_bytes {} fun _ => ⟨rfl, rfl⟩]
  rfl

/-- The payload of the packet is the body. -/
theorem packet_payload (d : Datagram) : d.packet.payload = d.body := by
  simp [RtpPacket.payload, packet, bytes]

end Datagram

/-! ## Changes in place -/

/-- Other bytes in the place of those from an offset on. -/
def overwrite (buffer : List Byte) (offset : Nat) (data : List Byte) : List Byte :=
  buffer.take offset ++ data ++ buffer.drop (offset + data.length)

/-- Overwriting the middle part. -/
theorem overwrite_append {front middle rest data : List Byte} {offset : Nat}
    (hoffset : front.length = offset) (hlen : data.length = middle.length) :
    overwrite (front ++ middle ++ rest) offset data = front ++ data ++ rest := by
  subst hoffset
  have hdrop : (front ++ middle ++ rest).drop (front.length + data.length) = rest := by
    rw [hlen, ← List.length_append, List.drop_left]
  have htake : (front ++ middle ++ rest).take front.length = front := by
    rw [List.append_assoc, List.take_left]
  rw [overwrite, hdrop, htake]

namespace RtpPacket

/-- `UpdateSequenceNumber`, in the buffer and in the field. -/
def updateSequenceNumber (p : RtpPacket) (sequenceNumber : BitVec 16) : RtpPacket :=
  if p.buffer.length ≥ 4 then
    { p with buffer := overwrite p.buffer 2 (bytesOfUint16 sequenceNumber), sequenceNumber }
  else p

/-- `UpdateAbsoluteSendTimestamp`: the first extension with the id and three bytes inside the
buffer is overwritten. -/
def updateAbsoluteSendTimestamp (p : RtpPacket) (extensionId : Byte) (absSendTime : BitVec 32) :
    RtpPacket × Bool :=
  if p.extensionProfile ≠ kOneByteExtensionProfileId then (p, false)
  else
    let isSendTime := fun extension : Extension =>
      decide (extension.id = extensionId ∧ extension.len = 3 ∧
        extension.dataOffset + 3 ≤ p.buffer.length)
    match p.extensions.find? isSendTime with
    | none => (p, false)
    | some extension =>
        let data := bytesOfSendTime (absSendTime.setWidth 24)
        ({ p with
            buffer := overwrite p.buffer extension.dataOffset data
            extensions := p.extensions.replaceF fun extension =>
              if isSendTime extension then some { extension with data } else none }, true)

end RtpPacket

namespace Datagram

/-- Rewriting the sequence number of a packet. -/
theorem update_sequence_number (d : Datagram) (sequenceNumber : BitVec 16) :
    d.packet.updateSequenceNumber sequenceNumber = { d with sequenceNumber }.packet := by
  have hlen : d.bytes.length ≥ 4 := by
    rw [bytes_eq]
    simp [firstBytes, bytesOfUint16]
  have hnew : overwrite d.bytes 2 (bytesOfUint16 sequenceNumber) =
      { d with sequenceNumber }.bytes := by
    rw [bytes_eq, bytes_eq]
    exact overwrite_append rfl rfl
  have hsize : { d with sequenceNumber }.bytes.length = d.bytes.length := by
    simp [bytes_eq, firstBytes, bytesOfUint16, extensionBytes]
  have hfront : { d with sequenceNumber }.front.length = d.front.length := by
    simp [front_length, extensionBytes]
  rw [RtpPacket.updateSequenceNumber, if_pos (show d.packet.buffer.length ≥ 4 from hlen)]
  simp only [packet, hnew, hsize, hfront]

/-- A datagram with a send time, up to its three bytes. -/
theorem bytes_eq_send_time (d : Datagram) {id : ExtensionId} {t : BitVec 24}
    (hsent : d.sendTime = some (id, t)) :
    d.bytes = headerBytes false true d.marker d.payloadType d.sequenceNumber d.timestamp d.ssrc ++
      ([0xBE, 0xDE, 0, 1, (id.val <<< 4) ||| 2] : List Byte) ++ bytesOfSendTime t ++ d.body := by
  simp [bytes, front, extensionBytes, hsent, sendTimeExtension, bytesOfSendTime]

/-- Writing the send time changes nothing else in the packet, and nothing at all when the packet
has no extension with this id. -/
theorem update_absolute_send_timestamp (d : Datagram) (extensionId : Byte)
    (absSendTime : BitVec 32) :
    ∃ sendTime, (d.packet.updateAbsoluteSendTimestamp extensionId absSendTime).1 =
        { d with sendTime }.packet ∧
      sendTime.map Prod.fst = d.sendTime.map Prod.fst := by
  cases hsent : d.sendTime with
  | none =>
      refine ⟨none, ?_, rfl⟩
      have hprofile : d.packet.extensionProfile ≠ kOneByteExtensionProfileId := by
        simp [packet, hsent, kOneByteExtensionProfileId]
      rw [RtpPacket.updateAbsoluteSendTimestamp, if_pos hprofile, ← hsent]
  | some sent =>
      obtain ⟨id, t⟩ := sent
      have hprofile : d.packet.extensionProfile = kOneByteExtensionProfileId := by
        simp [packet, hsent]
      have hextensions : d.packet.extensions =
          [{ id := id.val
             len := 3
             dataOffset := kFixedHeaderSize + 5
             data := bytesOfSendTime t }] := by
        simp [packet, hsent]
      have hroom : kFixedHeaderSize + 5 + 3 ≤ d.packet.buffer.length := by
        show _ ≤ d.bytes.length
        rw [bytes_eq_send_time d hsent]
        simp only [List.length_append, header_bytes_length, List.length_cons, List.length_nil,
          bytesOfSendTime]
        omega
      by_cases hid : id.val = extensionId
      · refine ⟨some (id, absSendTime.setWidth 24), ?_, rfl⟩
        have hnew : overwrite d.bytes (kFixedHeaderSize + 5)
            (bytesOfSendTime (absSendTime.setWidth 24)) =
              { d with sendTime := some (id, absSendTime.setWidth 24) }.bytes := by
          rw [bytes_eq_send_time d hsent, bytes_eq_send_time _ rfl]
          exact overwrite_append (by rw [List.length_append, header_bytes_length]; rfl) rfl
        have hsize : { d with sendTime := some (id, absSendTime.setWidth 24) }.bytes.length =
            d.bytes.length := by
          rw [bytes_eq_send_time d hsent, bytes_eq_send_time _ rfl]
          simp [bytesOfSendTime, headerBytes]
        have hfront : { d with sendTime := some (id, absSendTime.setWidth 24) }.front.length =
            d.front.length := by
          simp [front_length, extensionBytes, hsent, sendTimeExtension]
        have hfound : d.packet.updateAbsoluteSendTimestamp extensionId absSendTime =
            ({ d.packet with
                buffer := overwrite d.packet.buffer (kFixedHeaderSize + 5)
                  (bytesOfSendTime (absSendTime.setWidth 24))
                extensions :=
                  [{ id := id.val
                     len := 3
                     dataOffset := kFixedHeaderSize + 5
                     data := bytesOfSendTime (absSendTime.setWidth 24) }] }, true) := by
          simp [RtpPacket.updateAbsoluteSendTimestamp, hprofile, hextensions, hid, hroom]
        rw [hfound, show d.packet.buffer = d.bytes from rfl, hnew]
        simp [packet, hsent, hsize, hfront]
      · refine ⟨some (id, t), ?_, rfl⟩
        rw [← hsent]
        simp [RtpPacket.updateAbsoluteSendTimestamp, hprofile, hextensions, hid]

end Datagram

end MiniRtc

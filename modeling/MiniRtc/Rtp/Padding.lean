import MiniRtc.Rtp.PacketH264
import MiniRtc.Rtp.PacketParsing

/-!
# Padding packets

`RtpPacketizerH264::BuildPadding`: when the link is probed and there is nothing to send, the size
that is asked for is cut into packets of at most 1150 bytes. Each has the payload type below that of
the media, zeros as its payload, and one byte of padding.

`padding_packet_parses` says what the parser reads from one packet, and `build_padding_step` how one
turn of the loop goes on. The packets make up the size exactly (`padding_exact`).
-/

namespace MiniRtc

namespace RtpPacketizerH264

/-! ## The function of the source -/

/-- `kRtpPaddingSize`. -/
def kRtpPaddingSize : Byte := 1

/-- The frame of one turn of `BuildPadding`: zeros behind the header, and the count of the padding
in the place of the last byte. -/
def paddingFrame (s : RtpPacketizerH264) (rtpTimestamp : BitVec 32) (packetDataSize : Nat) :
    List Byte :=
  (headerBytes true s.absSendTimeExtId.isSome false (payloadTypeH264 - 1) s.sequenceNumber
    rtpTimestamp s.ssrc ++ absoluteSendTimeExtension s.absSendTimeExtId ++
      List.replicate packetDataSize 0).dropLast ++ [kRtpPaddingSize]

/-- The loop of `BuildPadding`. -/
def buildPadding (s : RtpPacketizerH264) (remainingSize : Nat) (rtpTimestamp : BitVec 32) :
    RtpPacketizerH264 × List RtpPacket :=
  if 0 < remainingSize then
    let packetDataSize := min remainingSize maxNaluLen
    let s := { s with sequenceNumber := s.sequenceNumber + 1 }
    let rest := s.buildPadding (remainingSize - packetDataSize) rtpTimestamp
    (rest.1, (RtpPacket.ofBuffer (s.paddingFrame rtpTimestamp packetDataSize)).toList ++ rest.2)
  else (s, [])
termination_by remainingSize
decreasing_by
  have hpos : 0 < maxNaluLen := by decide
  omega

/-! ## One packet -/

/-- What a packet of padding is: its bytes parse, they have the type below that of the media and no
marker, and all but the last byte behind the header are zeros. -/
structure IsPadding (p : RtpPacket) (sequenceNumber : BitVec 16) (timestamp ssrc : BitVec 32)
    (size : Nat) : Prop where
  parses : RtpPacket.ofBuffer p.buffer = some p
  payloadType : p.payloadType = payloadTypeH264 - 1
  marker : p.marker = false
  hasPadding : p.hasPadding = true
  paddingSize : p.paddingSize = 1
  sequenceNumber : p.sequenceNumber = sequenceNumber
  timestamp : p.timestamp = timestamp
  ssrc : p.ssrc = ssrc
  payload : p.payload = List.replicate (size - 1) 0
  total : p.payloadSize + p.paddingSize = size

/-- With something behind the header, the last byte of it is the count of the padding. -/
theorem padding_frame_eq (s : RtpPacketizerH264) (rtpTimestamp : BitVec 32) {size : Nat}
    (hsize : 0 < size) :
    s.paddingFrame rtpTimestamp size =
      headerBytes true s.absSendTimeExtId.isSome false (payloadTypeH264 - 1) s.sequenceNumber
        rtpTimestamp s.ssrc ++ absoluteSendTimeExtension s.absSendTimeExtId ++
          (List.replicate (size - 1) 0 ++ [kRtpPaddingSize]) := by
  obtain ⟨n, rfl⟩ : ∃ n, size = n + 1 := ⟨size - 1, by omega⟩
  unfold paddingFrame
  rw [List.replicate_succ', ← List.append_assoc, List.dropLast_concat, Nat.add_sub_cancel,
    List.append_assoc]

/-- After the header and the extension block, the zeros are payload and the last byte is the
padding. -/
theorem is_padding_of_parts {front : List Byte} {fixed extended : RtpPacket} {size : Nat}
    (hsize : 0 < size)
    (hfixed : RtpPacket.parseFixedHeader {}
      (byteAt (front ++ (List.replicate (size - 1) 0 ++ [kRtpPaddingSize])))
      (front ++ (List.replicate (size - 1) 0 ++ [kRtpPaddingSize])).length = (fixed, true))
    (hext : fixed.parseExtensionBlock
      (byteAt (front ++ (List.replicate (size - 1) 0 ++ [kRtpPaddingSize])))
      (front ++ (List.replicate (size - 1) 0 ++ [kRtpPaddingSize])).length = (extended, true))
    (hpad : extended.hasPadding = true) (hoffset : extended.payloadOffset = front.length)
    (htype : extended.payloadType = payloadTypeH264 - 1) (hmarker : extended.marker = false) :
    ∃ p, RtpPacket.ofBuffer (front ++ (List.replicate (size - 1) 0 ++ [kRtpPaddingSize])) = some p ∧
      IsPadding p extended.sequenceNumber extended.timestamp extended.ssrc size := by
  generalize hbuffer : front ++ (List.replicate (size - 1) 0 ++ [kRtpPaddingSize]) = buffer at *
  have hlength : buffer.length = front.length + size := by
    rw [← hbuffer]
    simp
    omega
  have hlast : byteAt buffer (buffer.length - 1) = kRtpPaddingSize := by
    rw [← hbuffer, ← List.append_assoc, byteAt, List.getD_eq_getElem?_getD]
    simp
  have hcount : extended.paddingOf (byteAt buffer) buffer.length = 1 := by
    unfold RtpPacket.paddingOf
    rw [if_pos ⟨hpad, by omega⟩, hlast]
    rfl
  have hpayload : extended.parsePayload (byteAt buffer) buffer.length =
      (extended.finished (byteAt buffer) buffer.length, true) :=
    RtpPacket.parse_payload_iff.mpr ⟨by omega, rfl⟩
  have hparse : RtpPacket.parse {} (byteAt buffer) buffer.length =
      (extended.finished (byteAt buffer) buffer.length, true) := by
    rw [RtpPacket.parse, hfixed, ← hpayload]
    simp only [Bool.not_true, Bool.false_eq_true, if_false, hext]
  have hbuilt : RtpPacket.ofBuffer buffer =
      some { extended.finished (byteAt buffer) buffer.length with
        buffer
        size := buffer.length } := by
    rw [RtpPacket.ofBuffer, RtpPacket.build, hparse]
    rfl
  refine ⟨_, hbuilt, hbuilt, htype, hmarker, ?_, hcount, rfl, rfl, rfl, ?_, ?_⟩
  · show (extended.hasPadding && _) = true
    rw [hpad, hcount]
    simp
  · show (buffer.drop extended.payloadOffset).take (buffer.length - extended.payloadOffset -
      extended.paddingOf (byteAt buffer) buffer.length) = _
    rw [hcount, hoffset, hlength, Nat.add_sub_cancel_left, ← hbuffer, List.drop_left]
    exact List.take_left' (by simp)
  · show buffer.length - extended.payloadOffset -
      extended.paddingOf (byteAt buffer) buffer.length +
        extended.paddingOf (byteAt buffer) buffer.length = size
    rw [hcount]
    omega

/-- The frame of every turn parses. -/
theorem padding_packet_parses (s : RtpPacketizerH264) (rtpTimestamp : BitVec 32) {size : Nat}
    (hsize : 0 < size) :
    ∃ p, RtpPacket.ofBuffer (s.paddingFrame rtpTimestamp size) = some p ∧
      IsPadding p s.sequenceNumber rtpTimestamp s.ssrc size := by
  have hfixed := parse_fixed_header {} true s.absSendTimeExtId.isSome false
    (show (payloadTypeH264 - 1).getLsbD 7 = false by decide) s.sequenceNumber rtpTimestamp s.ssrc
    (absoluteSendTimeExtension s.absSendTimeExtId ++
      (List.replicate (size - 1) 0 ++ [kRtpPaddingSize]))
  have hheader : (headerBytes true s.absSendTimeExtId.isSome false (payloadTypeH264 - 1)
      s.sequenceNumber rtpTimestamp s.ssrc).length = 12 := by
    simp [headerBytes, bytesOfUint16, bytesOfUint32]
  rw [padding_frame_eq s rtpTimestamp hsize]
  rw [← List.append_assoc] at hfixed
  cases hid : s.absSendTimeExtId with
  | none =>
      rw [hid] at hfixed hheader
      exact is_padding_of_parts hsize hfixed rfl rfl (by rw [List.length_append, hheader]; rfl)
        rfl rfl
  | some id =>
      rw [hid] at hfixed hheader
      exact is_padding_of_parts hsize hfixed
        (parse_extension_block rfl rfl id 0 0 0 _ _ hheader.symm) rfl
        (by rw [List.length_append]; rfl) rfl rfl

/-! ## The loop -/

/-- Nothing to pad. -/
theorem build_padding_zero (s : RtpPacketizerH264) (rtpTimestamp : BitVec 32) :
    s.buildPadding 0 rtpTimestamp = (s, []) := by
  rw [buildPadding, if_neg (Nat.lt_irrefl 0)]

/-- One turn of the loop makes one packet. -/
theorem build_padding_step (s : RtpPacketizerH264) {remainingSize : Nat}
    (rtpTimestamp : BitVec 32) (hmore : 0 < remainingSize) :
    ∃ p, IsPadding p (s.sequenceNumber + 1) rtpTimestamp s.ssrc (min remainingSize maxNaluLen) ∧
      s.buildPadding remainingSize rtpTimestamp =
        (let rest := buildPadding { s with sequenceNumber := s.sequenceNumber + 1 }
          (remainingSize - min remainingSize maxNaluLen) rtpTimestamp
        (rest.1, p :: rest.2)) := by
  have hsize : 0 < min remainingSize maxNaluLen := Nat.lt_min.mpr ⟨hmore, by decide⟩
  obtain ⟨p, hparses, hpadding⟩ := padding_packet_parses
    { s with sequenceNumber := s.sequenceNumber + 1 } rtpTimestamp hsize
  refine ⟨p, hpadding, ?_⟩
  rw [buildPadding, if_pos hmore]
  simp only [hparses]
  rfl

/-- What the loop has done when it ends: the packets fill the size, each is padding with the next
sequence number, and the packetizer has the last one. -/
structure Pads (s : RtpPacketizerH264) (rtpTimestamp : BitVec 32) (payloadSize : Nat)
    (built : RtpPacketizerH264 × List RtpPacket) : Prop where
  total : (built.2.map fun p => p.payloadSize + p.paddingSize).sum = payloadSize
  packets : ∀ i p, built.2[i]? = some p → ∃ size, 0 < size ∧ size ≤ maxNaluLen ∧
    IsPadding p (s.sequenceNumber + 1 + BitVec.ofNat 16 i) rtpTimestamp s.ssrc size
  packetizer : built.1 = { s with
    sequenceNumber := s.sequenceNumber + BitVec.ofNat 16 built.2.length }

/-- A packet before packets that fill the rest. -/
theorem pads_cons {s : RtpPacketizerH264} {rtpTimestamp : BitVec 32} {size rest : Nat}
    {p : RtpPacket} {built : RtpPacketizerH264 × List RtpPacket} (hpos : 0 < size)
    (hfits : size ≤ maxNaluLen)
    (hp : IsPadding p (s.sequenceNumber + 1) rtpTimestamp s.ssrc size)
    (hrest : Pads { s with sequenceNumber := s.sequenceNumber + 1 } rtpTimestamp rest built) :
    Pads s rtpTimestamp (size + rest) (built.1, p :: built.2) where
  total := by
    show p.payloadSize + p.paddingSize + _ = _
    rw [hp.total]
    exact congrArg (size + ·) hrest.total
  packets i q hq := by
    cases i with
    | zero =>
        obtain rfl : p = q := Option.some.inj hq
        refine ⟨size, hpos, hfits, ?_⟩
        rw [BitVec.ofNat_eq_ofNat, BitVec.add_zero]
        exact hp
    | succ i =>
        have hnext : s.sequenceNumber + 1 + BitVec.ofNat 16 (i + 1) =
            s.sequenceNumber + 1 + 1 + BitVec.ofNat 16 i := by
          rw [Nat.add_comm i 1, BitVec.ofNat_add, ← BitVec.add_assoc]
          rfl
        rw [hnext]
        exact hrest.packets i q hq
  packetizer := by
    have hcount : s.sequenceNumber + BitVec.ofNat 16 (built.2.length + 1) =
        s.sequenceNumber + 1 + BitVec.ofNat 16 built.2.length := by
      rw [Nat.add_comm, BitVec.ofNat_add, ← BitVec.add_assoc]
      rfl
    show built.1 = { s with
      sequenceNumber := s.sequenceNumber + BitVec.ofNat 16 (built.2.length + 1) }
    rw [hcount, hrest.packetizer]

/-- The loop ends with packets that fill the size. -/
theorem build_padding_pads (payloadSize : Nat) (s : RtpPacketizerH264)
    (rtpTimestamp : BitVec 32) :
    Pads s rtpTimestamp payloadSize (s.buildPadding payloadSize rtpTimestamp) := by
  induction payloadSize using Nat.strong_induction_on generalizing s with
  | _ payloadSize ih =>
      obtain rfl | hmore := Nat.eq_zero_or_pos payloadSize
      · rw [build_padding_zero]
        exact ⟨rfl, fun i p hp => (nomatch hp), by simp⟩
      · obtain ⟨p, hp, hstep⟩ := s.build_padding_step rtpTimestamp hmore
        have hpos : 0 < min payloadSize maxNaluLen := Nat.lt_min.mpr ⟨hmore, by decide⟩
        have hparts : payloadSize = min payloadSize maxNaluLen +
            (payloadSize - min payloadSize maxNaluLen) := by omega
        rw [hstep]
        nth_rewrite 1 [hparts]
        exact pads_cons hpos (Nat.min_le_right _ _) hp (ih _ (by omega) _)

/-- The packets add up to the size that was asked for, each is padding of 1 to 1150 bytes, and they
are numbered from the number of the packetizer on, which ends with the number of the last one. -/
theorem padding_exact (s : RtpPacketizerH264) (payloadSize : Nat) (rtpTimestamp : BitVec 32) :
    ((s.buildPadding payloadSize rtpTimestamp).2.map fun p =>
        p.payloadSize + p.paddingSize).sum = payloadSize ∧
      (∀ i p, (s.buildPadding payloadSize rtpTimestamp).2[i]? = some p →
        RtpPacket.ofBuffer p.buffer = some p ∧ p.payloadType = payloadTypeH264 - 1 ∧
          p.hasPadding = true ∧ p.paddingSize = 1 ∧ p.marker = false ∧
          1 ≤ p.payloadSize + p.paddingSize ∧ p.payloadSize + p.paddingSize ≤ 1150 ∧
          p.sequenceNumber = s.sequenceNumber + 1 + BitVec.ofNat 16 i) ∧
      (s.buildPadding payloadSize rtpTimestamp).1 = { s with
        sequenceNumber := s.sequenceNumber +
          BitVec.ofNat 16 (s.buildPadding payloadSize rtpTimestamp).2.length } := by
  have hpads := build_padding_pads payloadSize s rtpTimestamp
  refine ⟨hpads.total, ?_, hpads.packetizer⟩
  intro i p hp
  obtain ⟨size, hpos, hfits, hpadding⟩ := hpads.packets i p hp
  have hbounds : 1 ≤ p.payloadSize + p.paddingSize ∧ p.payloadSize + p.paddingSize ≤ 1150 := by
    rw [hpadding.total]
    exact ⟨hpos, hfits⟩
  exact ⟨hpadding.parses, hpadding.payloadType, hpadding.hasPadding, hpadding.paddingSize,
    hpadding.marker, hbounds.1, hbounds.2, hpadding.sequenceNumber⟩

end RtpPacketizerH264

end MiniRtc

import MiniRtc.Rtp.Packet

/-!
# Generic packets

`RtpPacketizerGeneric` of `rtp_packetizer_generic.cpp`, which cuts the messages of a data channel,
and `SendData` of `data_channel_send.cpp`. Every packet takes its payload from the start of the
message, since the source pointer is never moved on.

`packet_carries` says what the packets hold. The main result, `round_trips_iff`, says that the
payloads make up the message exactly when the message repeats its first 1150 bytes.
-/

namespace MiniRtc

/-- `RtpPacketizerGeneric`. The payload types in use are 7-bit numbers. -/
structure RtpPacketizerGeneric where
  absSendTimeExtId : Option ExtensionId := none
  payloadType : Byte
  sequenceNumber : BitVec 16 := 0
  ssrc : BitVec 32
  payloadType_lt : payloadType.getLsbD 7 = false

/-- `PAYLOAD_TYPE::DATA`. -/
def payloadTypeData : Byte := 120

namespace RtpPacketizerGeneric

/-- The number of packets of a message. -/
def packetNum (payloadSize : Nat) : Nat :=
  payloadSize / maxNaluLen + if payloadSize % maxNaluLen ≠ 0 then 1 else 0

/-- The bytes that one round of the loop copies behind the header. -/
def packetBody (payload : List Byte) (payloadSize index : Nat) : List Byte :=
  let lastPacketSize := payloadSize % maxNaluLen
  if index = packetNum payloadSize - 1 ∧ lastPacketSize > 0 then payload.take lastPacketSize
  else payload.take maxNaluLen

/-- One round of the loop. The result of `Build` is not looked at. -/
def packet (s : RtpPacketizerGeneric) (payload : List Byte) (payloadSize : Nat)
    (rtpTimestamp : BitVec 32) (index : Nat) : RtpPacket :=
  (RtpPacket.build {} (packetBytes s.absSendTimeExtId (index = packetNum payloadSize - 1)
    s.payloadType (s.sequenceNumber + 1 + BitVec.ofNat 16 index) rtpTimestamp s.ssrc
    (packetBody payload payloadSize index))).1

/-- `Build`. The size is the `uint32_t` that the caller passes along with the pointer. -/
def build (s : RtpPacketizerGeneric) (payload : List Byte) (payloadSize : BitVec 32)
    (rtpTimestamp : BitVec 32) : RtpPacketizerGeneric × List RtpPacket :=
  let packetNum := packetNum payloadSize.toNat
  ({ s with sequenceNumber := s.sequenceNumber + BitVec.ofNat 16 packetNum },
    (List.range packetNum).map (s.packet payload payloadSize.toNat rtpTimestamp))

/-- `DataChannelSend::SendData`: the packets handed to the data sender. The `size_t` of the message
becomes a `uint32_t`. -/
def sendData (s : RtpPacketizerGeneric) (data : List Byte) :
    RtpPacketizerGeneric × List RtpPacket :=
  s.build data (BitVec.ofNat 32 data.length) 0

/-! ## What the packets hold -/

/-- The packets of a message carry its bytes, and no more than a packet can hold. -/
structure RoundTrips (s : RtpPacketizerGeneric) (message : List Byte)
    (packets : List RtpPacket) : Prop where
  payload : (packets.map RtpPacket.payload).flatten = message
  size : ∀ p ∈ packets, p.payload.length = p.payloadSize ∧
    1 ≤ p.payloadSize ∧ p.payloadSize ≤ maxNaluLen
  marker : ∀ index p, packets[index]? = some p → (p.marker = true ↔ index + 1 = packets.length)
  sequenceNumber : ∀ index p, packets[index]? = some p →
    p.sequenceNumber = s.sequenceNumber + 1 + BitVec.ofNat 16 index

/-- Every byte of the message is the one at its place within the first packet. -/
def RepeatsFirstPacket (message : List Byte) : Prop :=
  ∀ index, index < message.length → message[index]? = message[index % maxNaluLen]?

/-- A packet parses, and carries the bytes of its round. -/
theorem packet_carries (s : RtpPacketizerGeneric) (payload : List Byte) (payloadSize : Nat)
    (rtpTimestamp : BitVec 32) (index : Nat) :
    Carries (s.packet payload payloadSize rtpTimestamp index)
      (index = packetNum payloadSize - 1) s.payloadType
      (s.sequenceNumber + 1 + BitVec.ofNat 16 index) rtpTimestamp s.ssrc
      (packetBody payload payloadSize index) := by
  obtain ⟨p, hp, hcarries⟩ := build_packet s.absSendTimeExtId (index = packetNum payloadSize - 1)
    s.payloadType_lt (s.sequenceNumber + 1 + BitVec.ofNat 16 index) rtpTimestamp s.ssrc
    (packetBody payload payloadSize index)
  have heq : s.packet payload payloadSize rtpTimestamp index = p := by
    unfold packet
    rw [build_of_buffer hp]
  rw [heq]
  exact hcarries

/-- The packets cover the message, and the last one starts within it. -/
theorem packet_num_bounds (payloadSize : Nat) :
    payloadSize ≤ packetNum payloadSize * maxNaluLen ∧
      ∀ index, index < packetNum payloadSize → index * maxNaluLen < payloadSize := by
  unfold packetNum maxNaluLen
  refine ⟨by split_ifs <;> omega, fun index hindex => ?_⟩
  split_ifs at hindex <;> omega

/-- The bytes of a round are as many as the message still has from its place on. -/
theorem packet_body_eq (message : List Byte) {index : Nat}
    (hindex : index < packetNum message.length) :
    packetBody message message.length index =
      message.take ((message.drop (index * maxNaluLen)).take maxNaluLen).length := by
  have hmod := Nat.div_add_mod message.length maxNaluLen
  have hlt : message.length % maxNaluLen < maxNaluLen := Nat.mod_lt _ (by decide)
  have hstart := (packet_num_bounds message.length).2 index hindex
  simp only [List.length_take, List.length_drop]
  unfold packetBody packetNum maxNaluLen at *
  by_cases hlast : index = message.length / 1150 ∧ message.length % 1150 > 0
  · rw [if_pos (by split_ifs <;> omega)]
    congr 1
    omega
  · rw [if_neg (by split_ifs at hindex ⊢ <;> omega)]
    congr 1
    split_ifs at hindex <;> omega

/-- The rounds copy as many bytes as the pieces of the message have. -/
theorem bodies_lengths (message : List Byte) :
    ((List.range (packetNum message.length)).map
        (packetBody message message.length)).map List.length =
      ((List.range (packetNum message.length)).map fun index =>
        (message.drop (index * maxNaluLen)).take maxNaluLen).map List.length := by
  rw [List.map_map, List.map_map]
  refine List.map_congr_left fun index hindex => ?_
  show (packetBody message message.length index).length = _
  rw [packet_body_eq message (List.mem_range.mp hindex)]
  simp

/-- The pieces of 1150 bytes make up the message. -/
theorem pieces_flatten (message : List Byte) :
    ((List.range (packetNum message.length)).map fun index =>
      (message.drop (index * maxNaluLen)).take maxNaluLen).flatten = message := by
  rw [flatten_chunks, List.take_of_length_le (packet_num_bounds _).1]

/-- The payloads make up the message when every round copies the bytes at its place. -/
theorem bodies_flatten_iff (message : List Byte) :
    ((List.range (packetNum message.length)).map (packetBody message message.length)).flatten =
        message ↔
      ∀ index < packetNum message.length, packetBody message message.length index =
        (message.drop (index * maxNaluLen)).take maxNaluLen := by
  constructor
  · intro h
    have heq := List.eq_iff_flatten_eq.mpr
      ⟨h.trans (pieces_flatten message).symm, bodies_lengths message⟩
    intro index hindex
    exact List.map_inj_left.mp heq index (List.mem_range.mpr hindex)
  · intro h
    rw [List.map_congr_left fun index hindex => h index (List.mem_range.mp hindex)]
    exact pieces_flatten message

/-- Copying from the start is copying from the right place just when the message repeats. -/
theorem bodies_eq_iff (message : List Byte) :
    (∀ index < packetNum message.length, packetBody message message.length index =
        (message.drop (index * maxNaluLen)).take maxNaluLen) ↔ RepeatsFirstPacket message := by
  obtain ⟨hcover, hstart⟩ := packet_num_bounds message.length
  have hsplit : ∀ place : Nat, maxNaluLen * (place / maxNaluLen) + place % maxNaluLen = place :=
    fun place => Nat.div_add_mod place maxNaluLen
  have hlt : ∀ place : Nat, place % maxNaluLen < maxNaluLen :=
    fun place => Nat.mod_lt _ (by decide)
  constructor
  · intro h place hplace
    have hindex : place / maxNaluLen < packetNum message.length :=
      Nat.div_lt_of_lt_mul (by rw [Nat.mul_comm]; omega)
    have hbody := h _ hindex
    rw [packet_body_eq message hindex] at hbody
    have hget := congrArg (·[place % maxNaluLen]?) hbody
    have hrest : place % maxNaluLen < message.length - place / maxNaluLen * maxNaluLen := by
      have := hsplit place
      rw [Nat.mul_comm] at this
      omega
    simp only [List.getElem?_take, List.length_take, List.length_drop, List.getElem?_drop] at hget
    rw [if_pos (by have := hlt place; omega), if_pos (hlt place), Nat.mul_comm, hsplit] at hget
    exact hget.symm
  · intro h index hindex
    rw [packet_body_eq message hindex]
    refine List.ext_getElem? fun place => ?_
    simp only [List.getElem?_take, List.length_take, List.length_drop, List.getElem?_drop]
    by_cases hplace : place < maxNaluLen ∧ index * maxNaluLen + place < message.length
    · rw [if_pos (by omega), if_pos hplace.1, h _ hplace.2]
      have : (index * maxNaluLen + place) % maxNaluLen = place := by
        rw [Nat.add_comm, Nat.add_mul_mod_self_right, Nat.mod_eq_of_lt hplace.1]
      rw [this]
    · rw [if_neg (by omega)]
      split_ifs with hsmall
      · rw [List.getElem?_eq_none (by omega)]
      · rfl

/-- Only as many bytes as the size says are looked at. -/
theorem packet_body_take (payload : List Byte) {payloadSize index : Nat}
    (hindex : index < packetNum payloadSize) :
    packetBody (payload.take payloadSize) payloadSize index =
      packetBody payload payloadSize index := by
  have hlt : payloadSize % maxNaluLen < maxNaluLen := Nat.mod_lt _ (by decide)
  have hle : payloadSize % maxNaluLen ≤ payloadSize := Nat.mod_le _ _
  unfold packetBody
  simp only
  split_ifs with hlast
  · rw [List.take_take, Nat.min_eq_left hle]
  · rw [List.take_take, Nat.min_eq_left]
    unfold packetNum maxNaluLen at *
    split_ifs at hindex hlast <;> omega

/-- The payloads of the packets are the bytes that the rounds copy. -/
theorem build_payloads (s : RtpPacketizerGeneric) (payload : List Byte)
    (payloadSize rtpTimestamp : BitVec 32) :
    (s.build payload payloadSize rtpTimestamp).2.map RtpPacket.payload =
      (List.range (packetNum payloadSize.toNat)).map
        (packetBody (payload.take payloadSize.toNat) payloadSize.toNat) := by
  unfold build
  rw [List.map_map]
  refine List.map_congr_left fun index hindex => ?_
  show (s.packet payload payloadSize.toNat rtpTimestamp index).payload = _
  rw [(s.packet_carries payload payloadSize.toNat rtpTimestamp index).payload,
    packet_body_take payload (List.mem_range.mp hindex)]

/-- A packet of the result is the one of its round. -/
theorem build_get {s : RtpPacketizerGeneric} {payload : List Byte}
    {payloadSize rtpTimestamp : BitVec 32} {index : Nat} {p : RtpPacket}
    (h : (s.build payload payloadSize rtpTimestamp).2[index]? = some p) :
    index < packetNum payloadSize.toNat ∧
      p = s.packet payload payloadSize.toNat rtpTimestamp index := by
  simp only [build, List.getElem?_map, Option.map_eq_some_iff] at h
  obtain ⟨round, hround, hp⟩ := h
  obtain ⟨hlt, hround⟩ := List.getElem?_eq_some_iff.mp hround
  rw [List.getElem_range] at hround
  rw [List.length_range] at hlt
  exact ⟨hlt, by rw [hround, hp]⟩

/-- Marker, numbers and sizes are right for every message; what remains is the payload. -/
theorem round_trips_of_payload (s : RtpPacketizerGeneric) (message : List Byte)
    (payloadSize rtpTimestamp : BitVec 32) (hsize : payloadSize.toNat ≤ message.length) :
    RoundTrips s message (s.build message payloadSize rtpTimestamp).2 ↔
      ((s.build message payloadSize rtpTimestamp).2.map RtpPacket.payload).flatten = message := by
  constructor
  · exact RoundTrips.payload
  · intro h
    refine ⟨h, ?_, ?_, ?_⟩
    · intro p hp
      obtain ⟨index, hget⟩ := List.getElem?_of_mem hp
      obtain ⟨hindex, rfl⟩ := build_get hget
      have hcarries := s.packet_carries message payloadSize.toNat rtpTimestamp index
      rw [hcarries.payload, hcarries.payloadSize]
      have hlength : (message.take payloadSize.toNat).length = payloadSize.toNat := by
        rw [List.length_take, Nat.min_eq_left hsize]
      have hbody := packet_body_eq (message.take payloadSize.toNat) (by rwa [hlength])
      rw [hlength, packet_body_take message hindex] at hbody
      have hstart := (packet_num_bounds payloadSize.toNat).2 index hindex
      rw [hbody]
      simp only [List.length_take, List.length_drop]
      unfold maxNaluLen at *
      exact ⟨trivial, by omega, by omega⟩
    · intro index p hp
      obtain ⟨hindex, rfl⟩ := build_get hp
      rw [(s.packet_carries message payloadSize.toNat rtpTimestamp index).marker]
      unfold build
      rw [List.length_map, List.length_range]
      show decide _ = true ↔ _
      rw [decide_eq_true_eq]
      omega
    · intro index p hp
      obtain ⟨hindex, rfl⟩ := build_get hp
      exact (s.packet_carries message payloadSize.toNat rtpTimestamp index).sequenceNumber

/-- The packets carry as many bytes as the size says. -/
theorem payloads_length (s : RtpPacketizerGeneric) (message : List Byte)
    (payloadSize rtpTimestamp : BitVec 32) (hsize : payloadSize.toNat ≤ message.length) :
    ((s.build message payloadSize rtpTimestamp).2.map RtpPacket.payload).flatten.length =
      payloadSize.toNat := by
  have hlength : (message.take payloadSize.toNat).length = payloadSize.toNat := by
    rw [List.length_take, Nat.min_eq_left hsize]
  have hlengths := bodies_lengths (message.take payloadSize.toNat)
  have hpieces := pieces_flatten (message.take payloadSize.toNat)
  rw [hlength] at hlengths hpieces
  rw [build_payloads, List.length_flatten, hlengths, ← List.length_flatten, hpieces, hlength]

/-- The round trip works just for the messages that repeat their first packet. -/
theorem round_trips_repeats (s : RtpPacketizerGeneric) (message : List Byte)
    (rtpTimestamp : BitVec 32) (hlength : message.length < 2 ^ 32) :
    RoundTrips s message (s.build message (BitVec.ofNat 32 message.length) rtpTimestamp).2 ↔
      RepeatsFirstPacket message := by
  have hsize : (BitVec.ofNat 32 message.length).toNat = message.length := by
    rw [BitVec.toNat_ofNat, Nat.mod_eq_of_lt hlength]
  rw [s.round_trips_of_payload message _ rtpTimestamp (by omega), build_payloads, hsize,
    List.take_length, bodies_flatten_iff, bodies_eq_iff]

/-- Every message that fits into one packet repeats it. -/
theorem repeats_of_short {message : List Byte} (h : message.length ≤ maxNaluLen) :
    RepeatsFirstPacket message := by
  intro index hindex
  rw [Nat.mod_eq_of_lt (by omega)]

/-- A message is recovered from its packets just when a `uint32_t` can hold its length and it
repeats its first packet. -/
theorem round_trips_iff (s : RtpPacketizerGeneric) (message : List Byte)
    (rtpTimestamp : BitVec 32) :
    (RoundTrips s message (s.build message (BitVec.ofNat 32 message.length) rtpTimestamp).2 ↔
        message.length < 2 ^ 32 ∧ RepeatsFirstPacket message) ∧
      (RoundTrips s message (s.sendData message).2 ↔
        message.length < 2 ^ 32 ∧ RepeatsFirstPacket message) := by
  have hall : ∀ rtpTimestamp : BitVec 32,
      RoundTrips s message (s.build message (BitVec.ofNat 32 message.length) rtpTimestamp).2 ↔
        message.length < 2 ^ 32 ∧ RepeatsFirstPacket message := by
    intro rtpTimestamp
    by_cases hlength : message.length < 2 ^ 32
    · rw [s.round_trips_repeats message rtpTimestamp hlength]
      exact (and_iff_right hlength).symm
    · -- The conversion to `uint32_t` has cut the size, so that bytes are missing.
      refine ⟨fun h => ?_, fun h => absurd h.1 hlength⟩
      have hle : (BitVec.ofNat 32 message.length).toNat ≤ message.length := by
        rw [BitVec.toNat_ofNat]
        exact Nat.mod_le _ _
      have hcut := s.payloads_length message _ rtpTimestamp hle
      rw [h.payload] at hcut
      have := (BitVec.ofNat 32 message.length).isLt
      omega
  exact ⟨hall rtpTimestamp, hall 0⟩

/-- The message whose last byte is the first one of a second packet. -/
def oneByteMore : List Byte :=
  List.replicate maxNaluLen 0 ++ [1]

/-- The second packet repeats the first byte of the message instead of carrying its last one. -/
theorem second_packet_repeats_first :
    ¬ ∀ (s : RtpPacketizerGeneric) (message : List Byte) (rtpTimestamp : BitVec 32),
      message.length < 2 ^ 32 →
        RoundTrips s message (s.build message (BitVec.ofNat 32 message.length) rtpTimestamp).2 := by
  intro h
  have hlength : oneByteMore.length = maxNaluLen + 1 := by
    rw [oneByteMore, List.length_append, List.length_replicate]
    rfl
  have hshort : maxNaluLen + 1 < 2 ^ 32 := by decide
  have htrip := h { payloadType := payloadTypeData, ssrc := 7, payloadType_lt := rfl } oneByteMore
    0 (by omega)
  rw [round_trips_repeats _ _ _ (by omega)] at htrip
  have hlast := htrip maxNaluLen (by omega)
  have hend : oneByteMore[maxNaluLen]? = some 1 := by
    rw [oneByteMore, List.getElem?_append_right (by rw [List.length_replicate]),
      List.length_replicate, Nat.sub_self]
    rfl
  have hstart : oneByteMore[0]? = some 0 := by
    rw [oneByteMore, List.getElem?_append_left (by rw [List.length_replicate]; decide),
      List.getElem?_replicate, if_pos (by decide)]
  rw [Nat.mod_self, hend, hstart] at hlast
  exact absurd (Option.some.inj hlast) (by decide)

end RtpPacketizerGeneric

end MiniRtc

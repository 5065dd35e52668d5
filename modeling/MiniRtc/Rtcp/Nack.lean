import MiniRtc.Rtcp.CommonHeader
import MiniRtc.Rtcp.PackedNack

/-!
# Negative acknowledgements on the wire

`Nack` of `nack.cpp` with the parts of `RtcpPacket` and `RtpFeedback` that it uses, and `RtcpSender`,
which collects packets in one buffer. `Create` writes at the current position of a buffer, and it
sends the buffer whenever no further item fits, so one NACK may be spread over several datagrams.

`create_items_eq` says what the datagrams of the loop are, and `parse_create_block` what is read
from the packet of some of the items.
-/

namespace MiniRtc

open Wire

/-- The bytes of a buffer before the current position. -/
structure RtcpBuffer (maxLength : Nat) where
  bytes : List Byte
  fits : bytes.length ≤ maxLength

/-- The buffer at its first byte. -/
def RtcpBuffer.empty {maxLength : Nat} : RtcpBuffer maxLength :=
  ⟨[], Nat.zero_le _⟩

namespace RtcpPacket

/-- `kHeaderLength`. -/
def kHeaderLength : Nat := 4

/-- `CreateHeader`, which writes 16 bits of the length whatever it is. -/
def createHeader (countOrFormat : Nat) (packetType : Byte) (length : Nat) (padding : Bool) :
    List Byte :=
  let paddingBit : Byte := if padding then 1 <<< 5 else 0
  [(2 : Byte) <<< 6 ||| paddingBit ||| BitVec.ofNat 8 countOrFormat, packetType] ++
    bytesOfUint16 (BitVec.ofNat 16 length)

/-- `OnBufferFull`: the datagram for the callback and the buffer from then on. -/
def onBufferFull {maxLength : Nat} (packet : RtcpBuffer maxLength) :
    Option (RtcpBuffer maxLength × RtcpBuffer maxLength) :=
  if packet.bytes = [] then none else some (packet, RtcpBuffer.empty)

end RtcpPacket

/-- `Nack`, with the SSRCs of its base classes. -/
structure Nack where
  senderSsrc : BitVec 32 := 0
  mediaSsrc : BitVec 32 := 0
  packed : List PackedNack := []
  packetIds : List (BitVec 16) := []
  deriving DecidableEq

namespace Nack

open PackedNack RtcpPacket

/-- `RtpFeedback::kPacketType`. -/
def kPacketType : Byte := 205

/-- `kFeedbackMessageType`. -/
def kFeedbackMessageType : Nat := 1

/-- `RtpFeedback::kCommonFeedbackLength`. -/
def kCommonFeedbackLength : Nat := 8

/-- `kNackItemLength`. -/
def kNackItemLength : Nat := 4

/-- `kNackHeaderLength`. -/
def kNackHeaderLength : Nat := kHeaderLength + kCommonFeedbackLength

/-- `SetPacketIds`. `Pack` adds to the items that are there. -/
def setPacketIds (s : Nack) (nackList : List (BitVec 16)) : Nack :=
  { s with packetIds := nackList, packed := s.packed ++ pack nackList }

/-- The bytes of an item. -/
def itemBytes (item : PackedNack) : List Byte :=
  bytesOfUint16 item.firstPid ++ bytesOfUint16 item.bitmask

/-- `CreateCommonFeedback`. -/
def createCommonFeedback (s : Nack) : List Byte :=
  bytesOfUint32 s.senderSsrc ++ bytesOfUint32 s.mediaSsrc

/-- One round of `Create` behind the check for room: the packet of some of the items. -/
def createBlock (s : Nack) (items : List PackedNack) : List Byte :=
  let payloadSizeBytes := kCommonFeedbackLength + items.length * kNackItemLength
  createHeader kFeedbackMessageType kPacketType (payloadSizeBytes / 4) false ++
    createCommonFeedback s ++ items.flatMap itemBytes

theorem create_block_length (s : Nack) (items : List PackedNack) :
    (s.createBlock items).length = kNackHeaderLength + items.length * kNackItemLength := by
  simp [createBlock, createHeader, createCommonFeedback, itemBytes, kNackHeaderLength,
    kHeaderLength, kCommonFeedbackLength, kNackItemLength, List.length_flatMap]
  omega

/-- The number of items that one round of `Create` writes. -/
def numNackFields (bytesLeftInBuffer itemsLeft : Nat) : Nat :=
  min ((bytesLeftInBuffer - kNackHeaderLength) / kNackItemLength) itemsLeft

/-- With room for an item, one round fills no more than the room, and leaves no item or no room
for one. -/
theorem num_nack_fields_room {room : Nat} (left : Nat)
    (h : ¬ room < kNackHeaderLength + kNackItemLength) :
    kNackHeaderLength + numNackFields room left * kNackItemLength ≤ room ∧
      numNackFields room left ≤ left ∧ (0 < left → 0 < numNackFields room left) ∧
      (numNackFields room left < left →
        room < kNackHeaderLength + numNackFields room left * kNackItemLength + 4) := by
  simp only [numNackFields, kNackHeaderLength, kHeaderLength, kCommonFeedbackLength,
    kNackItemLength] at h ⊢
  omega

/-- The loop of `Create` over the items that are left: what it returns, the datagrams for the
callback, and the buffer in the end. -/
def createItems (s : Nack) {maxLength : Nat} (items : List PackedNack)
    (packet : RtcpBuffer maxLength) :
    Bool × List (RtcpBuffer maxLength) × RtcpBuffer maxLength :=
  if hitems : items = [] then (true, [], packet)
  else
    let bytesLeftInBuffer := maxLength - packet.bytes.length
    if hfull : bytesLeftInBuffer < kNackHeaderLength + kNackItemLength then
      match hflush : onBufferFull packet with
      | none => (false, [], packet)
      | some (datagram, fresh) =>
          let (created, datagrams, last) := createItems s items fresh
          (created, datagram :: datagrams, last)
    else
      let fields := numNackFields bytesLeftInBuffer items.length
      createItems s (items.drop fields)
        { bytes := packet.bytes ++ s.createBlock (items.take fields)
          fits := by
            obtain ⟨hroom, hleft, -⟩ := num_nack_fields_room items.length hfull
            have hfits := packet.fits
            rw [List.length_append, create_block_length, List.length_take_of_le hleft]
            omega }
termination_by (items.length, packet.bytes.length)
decreasing_by
  · unfold onBufferFull at hflush
    split_ifs at hflush with hempty
    obtain ⟨rfl, rfl⟩ := Prod.mk.inj (Option.some.inj hflush)
    exact Prod.Lex.right _ (List.length_pos_of_ne_nil hempty)
  · have hpos := List.length_pos_of_ne_nil hitems
    obtain ⟨-, -, hsome, -⟩ := num_nack_fields_room items.length hfull
    refine Prod.Lex.left _ _ ?_
    rw [List.length_drop]
    exact Nat.sub_lt hpos (hsome hpos)

/-- `Create`. -/
def create (s : Nack) {maxLength : Nat} (packet : RtcpBuffer maxLength) :
    Bool × List (RtcpBuffer maxLength) × RtcpBuffer maxLength :=
  createItems s s.packed packet

/-- The loop of `Parse` over the items. -/
def readItems : Nat → List Byte → Option (List PackedNack × List Byte)
  | 0, nextNack => some ([], nextNack)
  | count + 1, nextNack => do
      let (firstPid, nextNack) ← takeUint16 nextNack
      let (bitmask, nextNack) ← takeUint16 nextNack
      let (items, nextNack) ← readItems count nextNack
      some (⟨firstPid, bitmask⟩ :: items, nextNack)

/-- `Parse`. -/
def parse (s : Nack) (packet : RtcpCommonHeader) : Option (Bool × Nack) :=
  if packet.payloadSize < kCommonFeedbackLength + kNackItemLength then some (false, s)
  else do
    let nackItems := (packet.payloadSize - kCommonFeedbackLength) / kNackItemLength
    let (senderSsrc, p) ← takeUint32 packet.payload
    let (mediaSsrc, nextNack) ← takeUint32 p
    let (packed, _) ← readItems nackItems nextNack
    some (true, { senderSsrc, mediaSsrc, packed, packetIds := unpack packed })

end Nack

/-- `RtcpSender`, with the datagrams that the callback got. -/
structure RtcpSender (maxPacketSize : Nat) where
  callback : Option (List Byte → ℤ)
  buffer : RtcpBuffer maxPacketSize
  pendingSendSuccessful : Bool
  sent : List (List Byte)

namespace RtcpSender

variable {maxPacketSize : Nat}

/-- `SendBuffer`. -/
def sendBuffer (s : RtcpSender maxPacketSize) (packet : RtcpBuffer maxPacketSize) :
    RtcpSender maxPacketSize :=
  match s.callback with
  | none => { s with pendingSendSuccessful := false }
  | some callback =>
      { s with
        pendingSendSuccessful := s.pendingSendSuccessful && !decide (callback packet.bytes < 0)
        sent := s.sent ++ [packet.bytes] }

/-- `AppendPacket` for a NACK. -/
def appendPacket (s : RtcpSender maxPacketSize) (packet : Nack) : RtcpSender maxPacketSize :=
  let (created, datagrams, buffer) := packet.create s.buffer
  let s := datagrams.foldl sendBuffer s
  { s with buffer, pendingSendSuccessful := s.pendingSendSuccessful && created }

/-- `Send`. -/
def send (s : RtcpSender maxPacketSize) : Bool × RtcpSender maxPacketSize :=
  let s := if s.buffer.bytes.length > 0 then { s.sendBuffer s.buffer with buffer := RtcpBuffer.empty }
    else s
  (s.pendingSendSuccessful, { s with pendingSendSuccessful := true })

end RtcpSender

/-! ## The datagrams of a NACK -/

/-- The datagrams of packets that follow what a buffer holds. The first one stands in the same
datagram where there is room for an item. -/
def datagramsOf (maxLength : Nat) (held : List Byte) : List (List Byte) → List (List Byte)
  | [] => [held]
  | first :: rest =>
      if maxLength < held.length + 16 then held :: first :: rest else (held ++ first) :: rest

namespace Nack

open PackedNack RtcpPacket

/-- The loop spreads the items over packets, in their order, and each packet has some. -/
theorem create_items_eq (s : Nack) {maxLength : Nat} (hmax : 16 ≤ maxLength)
    (items : List PackedNack) (packet : RtcpBuffer maxLength) :
    ∃ (chunks : List (List PackedNack)) (datagrams : List (RtcpBuffer maxLength))
      (last : RtcpBuffer maxLength), s.createItems items packet = (true, datagrams, last) ∧
      chunks.flatten = items ∧ (∀ chunk ∈ chunks, chunk ≠ []) ∧
      (datagrams ++ [last]).map RtcpBuffer.bytes =
        datagramsOf maxLength packet.bytes (chunks.map s.createBlock) := by
  induction items, packet using createItems.induct s with
  | case1 packet =>
      refine ⟨[], [], packet, ?_, rfl, List.forall_mem_nil _, rfl⟩
      rw [createItems, dif_pos rfl]
  | case2 items packet hitems bytesLeft hfull hflush =>
      -- an empty buffer has room for an item
      unfold onBufferFull at hflush
      split_ifs at hflush with hempty
      simp only [bytesLeft, hempty, List.length_nil, kNackHeaderLength, kHeaderLength,
        kCommonFeedbackLength, kNackItemLength] at hfull
      omega
  | case3 items packet hitems bytesLeft hfull datagram fresh hflush _ _ _ _ ih =>
      obtain ⟨chunks, datagrams, last, hcreate, hflatten, hsome, hdatagrams⟩ := ih
      have hstep : s.createItems items packet = (true, datagram :: datagrams, last) := by
        rw [createItems, dif_neg hitems]
        dsimp only
        rw [dif_pos hfull]
        split
        · next hnone => exact absurd (hnone.symm.trans hflush) (by simp)
        · next datagram' fresh' hsome =>
            obtain ⟨rfl, rfl⟩ := Prod.mk.inj (Option.some.inj (hsome.symm.trans hflush))
            rw [hcreate]
      unfold onBufferFull at hflush
      split_ifs at hflush with hempty
      obtain ⟨rfl, rfl⟩ := Prod.mk.inj (Option.some.inj hflush)
      refine ⟨chunks, packet :: datagrams, last, hstep, hflatten, hsome, ?_⟩
      have hlong : maxLength < packet.bytes.length + 16 := by
        have hfits := packet.fits
        simp only [bytesLeft, kNackHeaderLength, kHeaderLength, kCommonFeedbackLength,
          kNackItemLength] at hfull
        omega
      have hchunks : chunks ≠ [] := by
        rintro rfl
        exact hitems hflatten.symm
      obtain ⟨first, rest, rfl⟩ := List.exists_cons_of_ne_nil hchunks
      rw [List.cons_append, List.map_cons, hdatagrams]
      show packet.bytes :: datagramsOf maxLength [] (s.createBlock first :: _) =
        datagramsOf maxLength packet.bytes (s.createBlock first :: _)
      rw [datagramsOf, datagramsOf, if_pos hlong,
        if_neg (show ¬ maxLength < ([] : List Byte).length + 16 from Nat.not_lt.mpr hmax)]
      rfl
  | case4 items packet hitems bytesLeft hfull fields ih =>
      obtain ⟨chunks, datagrams, last, hcreate, hflatten, hsome, hdatagrams⟩ := ih
      obtain ⟨hroom, hleft, hpos, hmore⟩ := num_nack_fields_room items.length hfull
      have htake : items.take fields ≠ [] := by
        have hitems' := List.length_pos_of_ne_nil hitems
        refine List.ne_nil_of_length_pos ?_
        rw [List.length_take_of_le hleft]
        exact hpos hitems'
      refine ⟨items.take fields :: chunks, datagrams, last, ?_, ?_, ?_, ?_⟩
      · rw [createItems, dif_neg hitems]
        dsimp only
        rw [dif_neg hfull]
        exact hcreate
      · rw [List.flatten_cons, hflatten, List.take_append_drop]
      · exact List.forall_mem_cons.mpr ⟨htake, hsome⟩
      · have hshort : ¬ maxLength < packet.bytes.length + 16 := by
          simp only [bytesLeft, kNackHeaderLength, kHeaderLength, kCommonFeedbackLength,
            kNackItemLength] at hfull
          omega
        rw [hdatagrams, List.map_cons, datagramsOf.eq_2, if_neg hshort]
        match chunks, hflatten with
        | [], _ => rfl
        | next :: rest, hflatten =>
            -- items are left, so the buffer is full
            have hfields : fields < items.length := by
              by_contra hall
              rw [List.drop_eq_nil_of_le (Nat.le_of_not_lt hall)] at hflatten
              exact hsome next List.mem_cons_self (List.append_eq_nil_iff.mp hflatten).1
            have hlong : maxLength <
                (packet.bytes ++ s.createBlock (items.take fields)).length + 16 := by
              have hfits := packet.fits
              have hmore' := hmore hfields
              rw [List.length_append, create_block_length, List.length_take_of_le hleft]
              omega
            rw [List.map_cons, datagramsOf, if_pos hlong]

/-! ## The packet of some items -/

/-- The packet that one round of `Create` writes. -/
def block (s : Nack) (items : List PackedNack) (h : items.length ≤ 2 ^ 15) : RtcpBlock where
  packetType := kPacketType
  countOrFormat := BitVec.ofNat 5 kFeedbackMessageType
  payload := createCommonFeedback s ++ items.flatMap itemBytes
  padding := []
  aligned := by
    simp [createCommonFeedback, itemBytes, List.length_flatMap]
  fits := by
    simp [createCommonFeedback, itemBytes, List.length_flatMap]
    omega
  counted := RtcpBlock.counted_nil

theorem block_payload_length (s : Nack) {items : List PackedNack} (h : items.length ≤ 2 ^ 15) :
    (s.block items h).payload.length = kCommonFeedbackLength + items.length * kNackItemLength := by
  simp [block, createCommonFeedback, itemBytes, List.length_flatMap, kCommonFeedbackLength,
    kNackItemLength]
  omega

theorem create_block_eq (s : Nack) {items : List PackedNack} (h : items.length ≤ 2 ^ 15) :
    s.createBlock items = (s.block items h).bytes := by
  have hwords : (s.block items h).words =
      BitVec.ofNat 16 ((kCommonFeedbackLength + items.length * kNackItemLength) / 4) := by
    rw [RtcpBlock.words, block_payload_length]
    rfl
  rw [RtcpBlock.bytes, hwords]
  simp [createBlock, createHeader, block, RtcpBlock.firstByte, kFeedbackMessageType]

theorem read_items_bytes (items : List PackedNack) (rest : List Byte) :
    readItems items.length (items.flatMap itemBytes ++ rest) = some (items, rest) := by
  induction items with
  | nil => rfl
  | cons item items ih =>
      rw [List.flatMap_cons, List.append_assoc, List.length_cons, readItems]
      simp only [itemBytes, List.append_assoc, take_uint16_bytes, Option.bind_eq_bind,
        Option.bind_some] at ih ⊢
      rw [ih]
      rfl

theorem item_bytes_length (item : PackedNack) : (itemBytes item).length = kNackItemLength :=
  rfl

/-- Every part of a buffer with the length of an item is one. -/
theorem exists_item {p : List Byte} (h : kNackItemLength ≤ p.length) :
    ∃ (item : PackedNack) (rest : List Byte), p = itemBytes item ++ rest := by
  simp only [kNackItemLength] at h
  obtain ⟨firstPid, p, rfl⟩ := exists_uint16_bytes (p := p) (by omega)
  rw [List.length_append, bytes_of_uint16_length] at h
  obtain ⟨bitmask, p, rfl⟩ := exists_uint16_bytes (p := p) (by omega)
  exact ⟨⟨firstPid, bitmask⟩, p, by rw [itemBytes, List.append_assoc]⟩

/-- As many items as fit are read from a payload, whatever the parser held before. -/
theorem parse_payload (t : Nack) {packet : RtcpCommonHeader} {senderSsrc mediaSsrc : BitVec 32}
    {items : List PackedNack} {rest : List Byte} (hitems : items ≠ [])
    (hpayload : packet.payload = bytesOfUint32 senderSsrc ++ (bytesOfUint32 mediaSsrc ++
      (items.flatMap itemBytes ++ rest)))
    (hsize : kCommonFeedbackLength + items.length * kNackItemLength ≤ packet.payloadSize)
    (hmore : packet.payloadSize <
      kCommonFeedbackLength + items.length * kNackItemLength + kNackItemLength) :
    t.parse packet = some (true, ⟨senderSsrc, mediaSsrc, items, unpack items⟩) := by
  have hpos := List.length_pos_of_ne_nil hitems
  simp only [kCommonFeedbackLength, kNackItemLength] at hsize hmore
  have hcount : (packet.payloadSize - kCommonFeedbackLength) / kNackItemLength =
      items.length := by
    simp only [kCommonFeedbackLength, kNackItemLength]
    omega
  have hlong : ¬ packet.payloadSize < kCommonFeedbackLength + kNackItemLength := by
    simp only [kCommonFeedbackLength, kNackItemLength]
    omega
  unfold parse
  simp only [hlong, if_false, hcount, hpayload, take_uint32_bytes, Option.bind_eq_bind,
    Option.bind_some, read_items_bytes]

/-- The items of a packet are read from it. -/
theorem parse_create_block (s t : Nack) {items : List PackedNack} (hitems : items ≠ [])
    (h : items.length ≤ 2 ^ 15) (rest : List Byte) :
    t.parse ((s.block items h).header rest) =
      some (true, ⟨s.senderSsrc, s.mediaSsrc, items, unpack items⟩) := by
  have hsize : ((s.block items h).header rest).payloadSize =
      kCommonFeedbackLength + items.length * kNackItemLength := s.block_payload_length h
  have hpayload : ((s.block items h).header rest).payload =
      bytesOfUint32 s.senderSsrc ++ (bytesOfUint32 s.mediaSsrc ++
        (items.flatMap itemBytes ++ rest)) := by
    simp [RtcpBlock.header, block, createCommonFeedback]
  refine t.parse_payload hitems hpayload hsize.ge ?_
  rw [hsize]
  exact Nat.lt_add_of_pos_right (by decide)

end Nack

namespace RtcpSender

variable {maxPacketSize : Nat}

theorem send_buffers (callback : List Byte → ℤ) (datagrams : List (RtcpBuffer maxPacketSize)) :
    ∀ s : RtcpSender maxPacketSize, s.callback = some callback →
      (datagrams.foldl sendBuffer s).callback = some callback ∧
        (datagrams.foldl sendBuffer s).sent = s.sent ++ datagrams.map RtcpBuffer.bytes := by
  induction datagrams with
  | nil => exact fun s hcallback => ⟨hcallback, (List.append_nil _).symm⟩
  | cons datagram datagrams ih =>
      intro s hcallback
      have hone : (s.sendBuffer datagram).callback = some callback ∧
          (s.sendBuffer datagram).sent = s.sent ++ [datagram.bytes] := by
        unfold sendBuffer
        rw [hcallback]
        exact ⟨rfl, rfl⟩
      obtain ⟨hkept, hsent⟩ := ih (s.sendBuffer datagram) hone.1
      refine ⟨hkept, ?_⟩
      rw [List.foldl_cons, hsent, hone.2, List.append_assoc]
      rfl

/-- With a callback, the datagrams of a NACK and the buffer behind them are sent. -/
theorem send_append_packet (s : RtcpSender maxPacketSize) {callback : List Byte → ℤ}
    {packet : Nack} {datagrams : List (RtcpBuffer maxPacketSize)}
    {last : RtcpBuffer maxPacketSize} (hcallback : s.callback = some callback)
    (hcreate : packet.create s.buffer = (true, datagrams, last)) (hlast : last.bytes ≠ []) :
    ((s.appendPacket packet).send).2.sent =
      s.sent ++ (datagrams ++ [last]).map RtcpBuffer.bytes := by
  obtain ⟨hkept, hsent⟩ := send_buffers callback datagrams s hcallback
  have hpos : last.bytes.length > 0 := List.length_pos_of_ne_nil hlast
  unfold appendPacket
  rw [hcreate]
  simp only [send, hpos, if_true, sendBuffer, hkept, hsent, List.map_append, List.append_assoc]
  rfl

end RtcpSender

/-! ## The round trip -/

/-- What was received: the header and the items of a packet. -/
def ReadAs (packet : List Byte) (nack : Nack) : Prop :=
  ∃ header, RtcpCommonHeader.parse packet packet.length = some (some header) ∧
    header.packetType = Nack.kPacketType ∧
    header.countOrFormat = BitVec.ofNat 8 Nack.kFeedbackMessageType ∧
    header.packetSize = packet.length ∧ ∀ t : Nack, t.parse header = some (true, nack)

namespace Nack

open PackedNack

theorem read_as_create_block (s : Nack) {items : List PackedNack} (hitems : items ≠ [])
    (h : items.length ≤ 2 ^ 15) :
    ReadAs (s.createBlock items) ⟨s.senderSsrc, s.mediaSsrc, items, unpack items⟩ := by
  have hparse := parse_block (s.block items h) []
  have hlength := (s.block items h).bytes_length
  rw [create_block_eq s h]
  rw [List.append_nil] at hparse
  exact ⟨_, hparse, rfl, rfl, hlength.symm, fun t => s.parse_create_block t hitems h []⟩

/-- Items that fit in one round are in one packet. -/
theorem create_items_fit (s : Nack) {maxLength : Nat} {items : List PackedNack}
    (packet : RtcpBuffer maxLength) (hitems : items ≠ [])
    (hfit : packet.bytes.length + kNackHeaderLength + items.length * kNackItemLength ≤
      maxLength) :
    (s.createItems items packet).2.1 = [] := by
  have hpos := List.length_pos_of_ne_nil hitems
  have hall : numNackFields (maxLength - packet.bytes.length) items.length = items.length := by
    simp only [numNackFields, kNackHeaderLength, RtcpPacket.kHeaderLength, kCommonFeedbackLength,
      kNackItemLength] at hfit ⊢
    omega
  have hroom : ¬ maxLength - packet.bytes.length < kNackHeaderLength + kNackItemLength := by
    simp only [kNackHeaderLength, RtcpPacket.kHeaderLength, kCommonFeedbackLength,
      kNackItemLength] at hfit ⊢
    omega
  rw [createItems, dif_neg hitems]
  dsimp only
  rw [dif_neg hroom, createItems, dif_pos]
  rw [hall]
  exact List.drop_length

end Nack

open PackedNack

/-- A datagram of a NACK is not empty. -/
theorem datagrams_of_ne_nil {maxLength : Nat} (hmax : 16 ≤ maxLength) {held : List Byte}
    {packets : List (List Byte)} (hpackets : packets ≠ []) (hsome : ∀ p ∈ packets, p ≠ []) :
    ∀ datagram ∈ datagramsOf maxLength held packets, datagram ≠ [] := by
  obtain ⟨first, rest, rfl⟩ := List.exists_cons_of_ne_nil hpackets
  obtain ⟨hfirst, hrest⟩ := List.forall_mem_cons.mp hsome
  unfold datagramsOf
  split_ifs with hfull
  · refine List.forall_mem_cons.mpr ⟨?_, hsome⟩
    rintro rfl
    exact absurd hfull (Nat.not_lt.mpr hmax)
  · refine List.forall_mem_cons.mpr ⟨?_, hrest⟩
    exact fun hnil => hfirst (List.append_eq_nil_iff.mp hnil).2

/-- `SendNack` without the sending. -/
def nackOf (senderSsrc mediaSsrc : BitVec 32) (ids : List (BitVec 16)) : Nack :=
  ({ senderSsrc, mediaSsrc } : Nack).setPacketIds ids

/-- Packet ids in the order of a request are written to packets that follow what the buffer holds,
and the ids that are read from these packets are the ids of the request in their order. -/
theorem nack_round_trip {maxLength : Nat} (hmax : 16 ≤ maxLength)
    (senderSsrc mediaSsrc : BitVec 32) (ids : List (BitVec 16)) (hids : ids ≠ [])
    (hordered : OldestFirst ids) (packet : RtcpBuffer maxLength) :
    ∃ (packets : List (List Byte)) (nacks : List Nack)
      (datagrams : List (RtcpBuffer maxLength)) (last : RtcpBuffer maxLength),
      (nackOf senderSsrc mediaSsrc ids).create packet = (true, datagrams, last) ∧
      (datagrams ++ [last]).map RtcpBuffer.bytes = datagramsOf maxLength packet.bytes packets ∧
      List.Forall₂ ReadAs packets nacks ∧ nacks.flatMap Nack.packetIds = ids ∧
      (∀ nack ∈ nacks, nack.senderSsrc = senderSsrc ∧ nack.mediaSsrc = mediaSsrc) ∧
      (∀ datagram ∈ datagramsOf maxLength packet.bytes packets, datagram.length ≤ maxLength) ∧
      (∀ s : RtcpSender maxLength, s.buffer = packet → s.callback ≠ none →
        ((s.appendPacket (nackOf senderSsrc mediaSsrc ids)).send).2.sent =
          s.sent ++ datagramsOf maxLength packet.bytes packets) ∧
      (ids.length ≤ 256 → packet.bytes = [] → 1200 ≤ maxLength →
        ∃ datagram, packets = [datagram] ∧ datagram.length ≤ 1200) := by
  have hpacked : (nackOf senderSsrc mediaSsrc ids).packed = pack ids := List.nil_append _
  have hlength : (pack ids).length ≤ ids.length := pack_length_le ids
  obtain ⟨chunks, datagrams, last, hcreate, hflatten, hsome, hdatagrams⟩ :=
    Nack.create_items_eq (nackOf senderSsrc mediaSsrc ids) hmax (pack ids) packet
  have hcreate' : (nackOf senderSsrc mediaSsrc ids).create packet = (true, datagrams, last) := by
    rw [Nack.create, hpacked, hcreate]
  have hchunks : chunks ≠ [] := by
    rintro rfl
    exact pack_ne_nil hids hflatten.symm
  -- Ids in the order of a request are few enough for the length field of a packet.
  have hfew : ∀ chunk ∈ chunks, chunk.length ≤ 2 ^ 15 := by
    intro chunk hchunk
    have hpart : chunk.length ≤ (pack ids).length := by
      rw [← hflatten]
      exact (List.sublist_flatten_of_mem hchunk).length_le
    exact (hpart.trans hlength).trans hordered.length_le
  have hnonempty : ∀ datagram ∈ datagramsOf maxLength packet.bytes
      (chunks.map (nackOf senderSsrc mediaSsrc ids).createBlock), datagram ≠ [] := by
    refine datagrams_of_ne_nil hmax (by simpa using hchunks) fun p hp => ?_
    obtain ⟨chunk, hchunk, rfl⟩ := List.mem_map.mp hp
    refine List.ne_nil_of_length_pos ?_
    rw [Nack.create_block_length]
    exact Nat.lt_of_lt_of_le (by decide) (Nat.le_add_right _ _)
  refine ⟨chunks.map (nackOf senderSsrc mediaSsrc ids).createBlock,
    chunks.map fun chunk => ⟨senderSsrc, mediaSsrc, chunk, unpack chunk⟩, datagrams, last,
    hcreate', hdatagrams, ?_, ?_, ?_, ?_, ?_, ?_⟩
  · rw [List.forall₂_map_left_iff, List.forall₂_map_right_iff, List.forall₂_same]
    exact fun chunk hchunk => Nack.read_as_create_block _ (hsome chunk hchunk) (hfew chunk hchunk)
  · rw [List.flatMap_map]
    show chunks.flatMap unpack = ids
    rw [← unpack_pack ids hordered, ← hflatten]
    unfold unpack
    rw [List.flatten_eq_flatMap, List.flatMap_assoc]
    rfl
  · intro nack hnack
    obtain ⟨chunk, -, rfl⟩ := List.mem_map.mp hnack
    exact ⟨rfl, rfl⟩
  · intro datagram hdatagram
    rw [← hdatagrams] at hdatagram
    obtain ⟨buffer, -, rfl⟩ := List.mem_map.mp hdatagram
    exact buffer.fits
  · intro s hbuffer hcallback
    obtain ⟨callback, hcallback⟩ := Option.ne_none_iff_exists'.mp hcallback
    have hlast : last.bytes ≠ [] := by
      refine hnonempty last.bytes ?_
      rw [← hdatagrams]
      exact List.mem_map_of_mem (List.mem_append_right _ List.mem_cons_self)
    rw [RtcpSender.send_append_packet s hcallback (hbuffer ▸ hcreate') hlast, hdatagrams]
  · -- At most 256 items fit into one packet of 1200 bytes, and no datagram is sent on the way.
    intro hmany hempty hlarge
    have hone : datagrams = [] := by
      have hfit := Nack.create_items_fit (nackOf senderSsrc mediaSsrc ids) packet
        (pack_ne_nil hids) (by
          simp only [hempty, List.length_nil, Nack.kNackHeaderLength, RtcpPacket.kHeaderLength,
            Nack.kCommonFeedbackLength, Nack.kNackItemLength]
          omega)
      rw [hcreate] at hfit
      exact hfit
    obtain ⟨chunk, rest, rfl⟩ := List.exists_cons_of_ne_nil hchunks
    rw [hone, hempty, List.map_cons, datagramsOf, if_neg (by simpa using hmax)] at hdatagrams
    obtain ⟨-, hrest⟩ := List.cons.inj hdatagrams
    refine ⟨(nackOf senderSsrc mediaSsrc ids).createBlock chunk, ?_, ?_⟩
    · rw [List.map_cons, ← hrest]
      rfl
    · have hpart : chunk.length ≤ (pack ids).length := by
        rw [← hflatten]
        exact (List.sublist_flatten_of_mem List.mem_cons_self).length_le
      rw [Nack.create_block_length]
      simp only [Nack.kNackHeaderLength, RtcpPacket.kHeaderLength, Nack.kCommonFeedbackLength,
        Nack.kNackItemLength]
      omega

/-- Three losses around the wrap, in a buffer with room for one item. -/
theorem nack_round_trip_wrap :
    ∃ (packets : List (List Byte)) (nacks : List Nack), List.Forall₂ ReadAs packets nacks ∧
      nacks.flatMap Nack.packetIds = [65530, 2, 40] := by
  obtain ⟨packets, nacks, -, -, -, -, hread, hall, -⟩ :=
    nack_round_trip (by decide) 1 2 [65530, 2, 40] (by decide)
      (by unfold OldestFirst; decide) (RtcpBuffer.empty : RtcpBuffer 16)
  exact ⟨packets, nacks, hread, hall⟩

end MiniRtc

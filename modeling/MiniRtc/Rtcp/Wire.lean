import MiniRtc.Rtp.Packet

/-!
# Reading numbers from a buffer

The parsers of the RTCP packets read numbers in network byte order through a pointer. A pointer is
the part of the buffer that starts at it, so a read gives the number and the pointer behind it, and
`none` where the buffer has ended: a parser that gives `none` has read outside of its buffer.
-/

namespace MiniRtc.Wire

variable {p rest : List Byte}

/-- Read one byte. -/
def takeUint8 : List Byte → Option (Byte × List Byte)
  | a :: rest => some (a, rest)
  | _ => none

/-- `ByteReader<uint16_t>::ReadBigEndian`. -/
def takeUint16 : List Byte → Option (BitVec 16 × List Byte)
  | a :: b :: rest => some (a ++ b, rest)
  | _ => none

/-- Read three bytes. -/
def takeUint24 : List Byte → Option (BitVec 24 × List Byte)
  | a :: b :: c :: rest => some (a ++ b ++ c, rest)
  | _ => none

/-- `ByteReader<uint32_t>::ReadBigEndian`. -/
def takeUint32 : List Byte → Option (BitVec 32 × List Byte)
  | a :: b :: c :: d :: rest => some (a ++ b ++ c ++ d, rest)
  | _ => none

/-- The three bytes of a 24-bit number in network byte order. -/
def bytesOfUint24 (x : BitVec 24) : List Byte :=
  [x.extractLsb' 16 8, x.extractLsb' 8 8, x.extractLsb' 0 8]

/-! ## What was written is read -/

@[simp] theorem take_uint8_cons (a : Byte) : takeUint8 (a :: rest) = some (a, rest) :=
  rfl

@[simp] theorem take_uint16_bytes (x : BitVec 16) :
    takeUint16 (bytesOfUint16 x ++ rest) = some (x, rest) := by
  show some (_, rest) = some (x, rest)
  rw [append_bytes_of_uint16]

@[simp] theorem take_uint24_bytes (x : BitVec 24) :
    takeUint24 (bytesOfUint24 x ++ rest) = some (x, rest) := by
  have hhigh : x.extractLsb' 16 8 ++ x.extractLsb' 8 8 = x.extractLsb' 8 (8 + 8) :=
    BitVec.extractLsb'_append_extractLsb'_eq_extractLsb' (by decide)
  have hall : x.extractLsb' 8 (8 + 8) ++ x.extractLsb' 0 8 = x.extractLsb' 0 (8 + 8 + 8) :=
    BitVec.extractLsb'_append_extractLsb'_eq_extractLsb' (by decide)
  show some (_, rest) = some (x, rest)
  rw [hhigh, hall]
  exact congrArg (fun y => some (y, rest)) BitVec.extractLsb'_eq_self

@[simp] theorem take_uint32_bytes (x : BitVec 32) :
    takeUint32 (bytesOfUint32 x ++ rest) = some (x, rest) := by
  show some (_, rest) = some (x, rest)
  rw [append_bytes_of_uint32]

@[simp] theorem bytes_of_uint16_length (x : BitVec 16) : (bytesOfUint16 x).length = 2 :=
  rfl

@[simp] theorem bytes_of_uint24_length (x : BitVec 24) : (bytesOfUint24 x).length = 3 :=
  rfl

@[simp] theorem bytes_of_uint32_length (x : BitVec 32) : (bytesOfUint32 x).length = 4 :=
  rfl

/-! ## Every byte string is the bytes of a number -/

/-- The bytes of two bytes put together. -/
theorem bytes_of_append (a b : Byte) : bytesOfUint16 (a ++ b) = [a, b] := by
  have hhigh : (a ++ b).extractLsb' 8 8 = a := BitVec.extractLsb'_append_eq_left
  have hlow : (a ++ b).extractLsb' 0 8 = b := BitVec.extractLsb'_append_eq_right
  rw [bytesOfUint16, hhigh, hlow]

/-- The part of two numbers put together above the second one. -/
theorem extract_append_high {w w' : Nat} (x : BitVec w) (y : BitVec w') (start len : Nat) :
    (x ++ y).extractLsb' (start + w') len = x.extractLsb' start len := by
  rw [BitVec.extractLsb'_append_eq_of_le (Nat.le_add_left w' start), Nat.add_sub_cancel]

theorem exists_uint16_bytes (h : 2 ≤ p.length) : ∃ x rest, p = bytesOfUint16 x ++ rest := by
  match p, h with
  | a :: b :: rest, _ => exact ⟨a ++ b, rest, by rw [bytes_of_append]; rfl⟩

theorem exists_uint24_bytes (h : 3 ≤ p.length) : ∃ x rest, p = bytesOfUint24 x ++ rest := by
  match p, h with
  | a :: b :: c :: rest, _ =>
      refine ⟨a ++ b ++ c, rest, ?_⟩
      have ha : (a ++ b ++ c).extractLsb' 16 8 = a :=
        (extract_append_high (a ++ b) c 8 8).trans BitVec.extractLsb'_append_eq_left
      have hb : (a ++ b ++ c).extractLsb' 8 8 = b :=
        (extract_append_high (a ++ b) c 0 8).trans BitVec.extractLsb'_append_eq_right
      have hc : (a ++ b ++ c).extractLsb' 0 8 = c := BitVec.extractLsb'_append_eq_right
      rw [bytesOfUint24, ha, hb, hc]
      rfl

theorem exists_uint32_bytes (h : 4 ≤ p.length) : ∃ x rest, p = bytesOfUint32 x ++ rest := by
  match p, h with
  | a :: b :: c :: d :: rest, _ =>
      refine ⟨a ++ b ++ c ++ d, rest, ?_⟩
      have ha : (a ++ b ++ c ++ d).extractLsb' 24 8 = a :=
        ((extract_append_high (a ++ b ++ c) d 16 8).trans
          (extract_append_high (a ++ b) c 8 8)).trans BitVec.extractLsb'_append_eq_left
      have hb : (a ++ b ++ c ++ d).extractLsb' 16 8 = b :=
        ((extract_append_high (a ++ b ++ c) d 8 8).trans
          (extract_append_high (a ++ b) c 0 8)).trans BitVec.extractLsb'_append_eq_right
      have hc : (a ++ b ++ c ++ d).extractLsb' 8 8 = c :=
        (extract_append_high (a ++ b ++ c) d 0 8).trans BitVec.extractLsb'_append_eq_right
      have hd : (a ++ b ++ c ++ d).extractLsb' 0 8 = d := BitVec.extractLsb'_append_eq_right
      rw [bytesOfUint32, ha, hb, hc, hd]
      rfl

/-- A buffer that is long enough for items of one size starts with as many of them, when one item
can be taken from each part of that size. -/
theorem exists_items {Item : Type} {itemBytes : Item → List Byte} {size : Nat}
    (hitem : ∀ p : List Byte, size ≤ p.length → ∃ item rest, p = itemBytes item ++ rest)
    (hsize : ∀ item, (itemBytes item).length = size) (count : Nat) :
    ∀ p : List Byte, count * size ≤ p.length →
      ∃ (items : List Item) (rest : List Byte), p = items.flatMap itemBytes ++ rest ∧
        items.length = count := by
  induction count with
  | zero => exact fun p _ => ⟨[], p, rfl, rfl⟩
  | succ count ih =>
      intro p hlong
      rw [Nat.succ_mul] at hlong
      obtain ⟨item, rest, rfl⟩ := hitem p (by omega)
      rw [List.length_append, hsize] at hlong
      obtain ⟨items, rest', rfl, hcount⟩ := ih rest (by omega)
      exact ⟨item :: items, rest', by rw [List.flatMap_cons, List.append_assoc], by simp [hcount]⟩

end MiniRtc.Wire

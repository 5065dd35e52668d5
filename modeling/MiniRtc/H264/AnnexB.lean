import MiniRtc.H264.BitstreamParser

/-!
# NAL units in a byte stream

A byte stream in the format of Annex B: each NAL unit stands after a start code of three or four bytes,
and the bytes of its payload are written so that no start code occurs in them. `find_nalu_indices_eq`
and `parse_rbsp_escape` take both apart again.
-/

namespace MiniRtc.H264

/-- The payload after some zeros have been written: two zeros are not followed by a byte up to `3`, nor
does the payload end with a zero. -/
def escapeFrom : Nat → List Byte → List Byte
  | zeros, [] => if zeros = 0 then [] else [3]
  | zeros, byte :: rest =>
      if zeros = 2 ∧ byte.toNat ≤ 3 then
        3 :: byte :: escapeFrom (if byte = 0 then 1 else 0) rest
      else byte :: escapeFrom (if byte = 0 then zeros + 1 else 0) rest

/-- The payload with emulation prevention. -/
def escape (rbsp : List Byte) : List Byte :=
  escapeFrom 0 rbsp

structure NalUnit where
  longStartCode : Bool
  nalRefIdc : Fin 4
  nalUnitType : Fin 32
  type_ne : nalUnitType ≠ 0
  rbsp : List Byte

namespace NalUnit

variable (unit : NalUnit)

def header : Byte :=
  BitVec.ofNat 8 (unit.nalRefIdc * 32 + unit.nalUnitType)

/-- The bytes between two start codes. -/
def payload : List Byte :=
  unit.header :: escape unit.rbsp

def startCode (long : Bool) : List Byte :=
  if long then [0, 0, 0, 1] else [0, 0, 1]

def bytes : List Byte :=
  startCode unit.longStartCode ++ unit.payload

end NalUnit

/-- The bytes of all NAL units. -/
def byteStream (units : List NalUnit) : List Byte :=
  units.flatMap NalUnit.bytes

/-! ## Emulation prevention -/

/-- No start code begins in the bytes, nor where they are followed by one. -/
def Clean : List Byte → Prop
  | [] => True
  | byte :: rest =>
      (byte = 0 → ∃ next later, rest = next :: later ∧
        (next = 0 → ∃ third last, later = third :: last ∧ third ≠ 0 ∧ third ≠ 1)) ∧ Clean rest

theorem clean_cons {byte : Byte} {rest : List Byte} (hbyte : byte ≠ 0) (hrest : Clean rest) :
    Clean (byte :: rest) :=
  ⟨fun hzero => absurd hzero hbyte, hrest⟩

/-- A byte that is not small is none of those that are escaped. -/
theorem large_byte_ne {byte small : Byte} (h : ¬ byte.toNat ≤ 3) (hsmall : small.toNat ≤ 3) :
    byte ≠ small := by
  rintro rfl
  exact h hsmall

/-- Two zeros before a byte that is none. -/
theorem clean_two_zeros {byte : Byte} {rest : List Byte} (hzero : byte ≠ 0) (hone : byte ≠ 1)
    (hrest : Clean rest) : Clean (0 :: 0 :: byte :: rest) :=
  ⟨fun _ => ⟨0, byte :: rest, rfl, fun _ => ⟨byte, rest, rfl, hzero, hone⟩⟩,
    fun _ => ⟨byte, rest, rfl, fun h => absurd h hzero⟩, clean_cons hzero hrest⟩

theorem clean_one_zero {byte : Byte} {rest : List Byte} (hzero : byte ≠ 0) (hrest : Clean rest) :
    Clean (0 :: byte :: rest) :=
  ⟨fun _ => ⟨byte, rest, rfl, fun h => absurd h hzero⟩, clean_cons hzero hrest⟩

/-- No start code begins in an escaped payload, with the zeros before it. -/
theorem clean_escape_from {zeros : Nat} (hzeros : zeros ≤ 2) (rbsp : List Byte) :
    Clean (List.replicate zeros 0 ++ escapeFrom zeros rbsp) := by
  induction rbsp generalizing zeros with
  | nil =>
      match zeros with
      | 0 => trivial
      | 1 => exact clean_one_zero (by decide) trivial
      | 2 => exact clean_two_zeros (by decide) (by decide) trivial
  | cons byte rest ih =>
      have hafter : byte ≠ 0 → Clean (byte :: escapeFrom 0 rest) := fun hbyte =>
        clean_cons hbyte (ih (Nat.zero_le 2))
      unfold escapeFrom
      by_cases hbyte : byte = 0
      · subst hbyte
        by_cases hescaped : zeros = 2 ∧ (0 : Byte).toNat ≤ 3
        · -- the inserted byte ends the run of zeros, and this zero starts the next one
          rw [if_pos hescaped, if_pos rfl, hescaped.1]
          exact clean_two_zeros (by decide) (by decide) (ih one_le_two)
        · rw [if_neg hescaped, if_pos rfl]
          have hless : zeros < 2 := by
            by_contra hmany
            exact hescaped ⟨by omega, by decide⟩
          have hrest := ih (Nat.succ_le_of_lt hless)
          rw [List.replicate_succ', List.append_assoc] at hrest
          exact hrest
      · simp only [if_neg hbyte]
        split_ifs with hescaped
        · rw [hescaped.1]
          exact clean_two_zeros (by decide) (by decide) (hafter hbyte)
        · match zeros with
          | 0 => exact hafter hbyte
          | 1 => exact clean_one_zero hbyte (ih (Nat.zero_le 2))
          | 2 =>
              have hlarge : ¬ byte.toNat ≤ 3 := fun hsmall => hescaped ⟨rfl, hsmall⟩
              exact clean_two_zeros hbyte (large_byte_ne hlarge (by decide)) (ih (Nat.zero_le 2))

/-! ## What is read of a payload -/

theorem parse_rbsp_cons {byte : Byte} {rest : List Byte} (hbyte : byte ≠ 0) :
    parseRbsp (byte :: rest) = byte :: parseRbsp rest := by
  conv_lhs => unfold parseRbsp
  split
  · next h => exact absurd (List.cons.inj h).1 hbyte
  · next h => rw [(List.cons.inj h).1, (List.cons.inj h).2]
  · next h => cases h

/-- A zero that is not the first of an escape. -/
theorem parse_rbsp_zero {next : Byte} {rest : List Byte}
    (h : ¬ ∃ later, next :: rest = 0 :: 3 :: later) :
    parseRbsp (0 :: next :: rest) = 0 :: parseRbsp (next :: rest) := by
  conv_lhs => unfold parseRbsp
  split
  · next later heq => exact absurd ⟨later, (List.cons.inj heq).2⟩ h
  · next heq => rw [← (List.cons.inj heq).1, ← (List.cons.inj heq).2]
  · next heq => cases heq

/-- What was written is read, with at most the byte that ends a payload. -/
theorem parse_rbsp_escape_from {zeros : Nat} (hzeros : zeros ≤ 2) (rbsp : List Byte) :
    ∃ tail, parseRbsp (List.replicate zeros 0 ++ escapeFrom zeros rbsp) =
      List.replicate zeros 0 ++ (rbsp ++ tail) := by
  induction rbsp generalizing zeros with
  | nil =>
      match zeros with
      | 0 => exact ⟨[], rfl⟩
      | 1 => exact ⟨[3], rfl⟩
      | 2 => exact ⟨[], rfl⟩
  | cons byte rest ih =>
      unfold escapeFrom
      by_cases hbyte : byte = 0
      · subst hbyte
        by_cases hescaped : zeros = 2 ∧ (0 : Byte).toNat ≤ 3
        · rw [if_pos hescaped, if_pos rfl]
          obtain ⟨tail, htail⟩ := ih one_le_two
          rw [hescaped.1]
          exact ⟨tail, congrArg (fun bytes => 0 :: 0 :: bytes) htail⟩
        · rw [if_neg hescaped, if_pos rfl]
          have hless : zeros < 2 := by
            by_contra hmany
            exact hescaped ⟨by omega, by decide⟩
          obtain ⟨tail, htail⟩ := ih (Nat.succ_le_of_lt hless)
          rw [List.replicate_succ', List.append_assoc, List.append_assoc] at htail
          exact ⟨tail, htail⟩
      · obtain ⟨tail, htail⟩ := ih (Nat.zero_le 2)
        have hafter : parseRbsp (byte :: escapeFrom 0 rest) = byte :: (rest ++ tail) := by
          rw [parse_rbsp_cons hbyte]
          exact congrArg (fun bytes => byte :: bytes) htail
        have hone : parseRbsp (0 :: byte :: escapeFrom 0 rest) = 0 :: byte :: (rest ++ tail) := by
          rw [parse_rbsp_zero (fun ⟨later, h⟩ => hbyte (List.cons.inj h).1), hafter]
        refine ⟨tail, ?_⟩
        simp only [if_neg hbyte]
        split_ifs with hescaped
        · rw [hescaped.1]
          exact congrArg (fun bytes => 0 :: 0 :: bytes) hafter
        · match zeros with
          | 0 => exact hafter
          | 1 => exact hone
          | 2 =>
              have hlarge : ¬ byte.toNat ≤ 3 := fun hsmall => hescaped ⟨rfl, hsmall⟩
              have hthree : byte ≠ 3 := large_byte_ne hlarge (by decide)
              show parseRbsp (0 :: 0 :: byte :: escapeFrom 0 rest) = 0 :: 0 :: byte :: (rest ++ tail)
              rw [parse_rbsp_zero (fun ⟨later, h⟩ =>
                hthree (List.cons.inj (List.cons.inj h).2).1), hone]

theorem parse_rbsp_escape (rbsp : List Byte) : ∃ tail, parseRbsp (escape rbsp) = rbsp ++ tail :=
  parse_rbsp_escape_from (Nat.zero_le 2) rbsp

/-! ## Start codes -/

theorem find_start_code_cons {byte : Byte} {rest : List Byte}
    (hshort : ¬ ∃ later, byte :: rest = 0 :: 0 :: 1 :: later)
    (hlong : ¬ ∃ later, byte :: rest = 0 :: 0 :: 0 :: 1 :: later) :
    findStartCode (byte :: rest) =
      (findStartCode rest).map fun found => (byte :: found.1, found.2) := by
  conv_lhs => unfold findStartCode
  split
  · next later heq => exact absurd ⟨later, heq⟩ hlong
  · next later heq => exact absurd ⟨later, heq⟩ hshort
  · next heq => rw [(List.cons.inj heq).1, (List.cons.inj heq).2]
  · next heq => cases heq

theorem find_start_code_start (long : Bool) (rest : List Byte) :
    findStartCode (NalUnit.startCode long ++ rest) = some ([], rest) := by
  cases long <;> rfl

/-- A clean payload is what stands before the next start code. -/
theorem find_start_code_clean {payload : List Byte} (hclean : Clean payload) (long : Bool)
    (rest : List Byte) :
    findStartCode (payload ++ (NalUnit.startCode long ++ rest)) = some (payload, rest) := by
  induction payload with
  | nil => exact find_start_code_start long rest
  | cons byte payload ih =>
      obtain ⟨hbyte, hrest⟩ := hclean
      rw [List.cons_append, find_start_code_cons, ih hrest]
      · rfl
      · rintro ⟨later, heq⟩
        obtain ⟨hzero, heq⟩ := List.cons.inj heq
        obtain ⟨next, after, rfl, hnext⟩ := hbyte hzero
        obtain ⟨hzero, heq⟩ := List.cons.inj heq
        obtain ⟨third, last, rfl, -, hthird⟩ := hnext hzero
        exact hthird (List.cons.inj heq).1
      · rintro ⟨later, heq⟩
        obtain ⟨hzero, heq⟩ := List.cons.inj heq
        obtain ⟨next, after, rfl, hnext⟩ := hbyte hzero
        obtain ⟨hzero, heq⟩ := List.cons.inj heq
        obtain ⟨third, last, rfl, hthird, -⟩ := hnext hzero
        exact hthird (List.cons.inj heq).1

/-- There is no start code in a clean payload. -/
theorem find_start_code_none {payload : List Byte} (hclean : Clean payload) :
    findStartCode payload = none := by
  induction payload with
  | nil => rfl
  | cons byte payload ih =>
      obtain ⟨hbyte, hrest⟩ := hclean
      rw [find_start_code_cons, ih hrest]
      · rfl
      · rintro ⟨later, heq⟩
        obtain ⟨hzero, heq⟩ := List.cons.inj heq
        obtain ⟨next, after, rfl, hnext⟩ := hbyte hzero
        obtain ⟨hzero, heq⟩ := List.cons.inj heq
        obtain ⟨third, last, rfl, -, hthird⟩ := hnext hzero
        exact hthird (List.cons.inj heq).1
      · rintro ⟨later, heq⟩
        obtain ⟨hzero, heq⟩ := List.cons.inj heq
        obtain ⟨next, after, rfl, hnext⟩ := hbyte hzero
        obtain ⟨hzero, heq⟩ := List.cons.inj heq
        obtain ⟨third, last, rfl, hthird, -⟩ := hnext hzero
        exact hthird (List.cons.inj heq).1

namespace NalUnit

theorem header_ne (unit : NalUnit) : unit.header ≠ 0 := by
  have hall : ∀ (idc : Fin 4) (type : Fin 32), type ≠ 0 → BitVec.ofNat 8 (idc * 32 + type) ≠ 0 := by
    decide
  exact hall unit.nalRefIdc unit.nalUnitType unit.type_ne

theorem payload_clean (unit : NalUnit) : Clean unit.payload :=
  clean_cons unit.header_ne (clean_escape_from (Nat.zero_le 2) unit.rbsp)

end NalUnit

/-- The units after a first one. -/
theorem nalu_payloads_eq {fuel : Nat} (unit : NalUnit) {units : List NalUnit}
    (hfuel : units.length < fuel) :
    naluPayloads fuel (unit.payload ++ byteStream units) =
      (unit :: units).map NalUnit.payload := by
  have hsome : unit.payload ≠ [] := List.cons_ne_nil _ _
  induction units generalizing fuel unit with
  | nil =>
      obtain ⟨fuel, rfl⟩ : ∃ n, fuel = n + 1 := ⟨fuel - 1, by rw [List.length_nil] at hfuel; omega⟩
      show naluPayloads (fuel + 1) (unit.payload ++ []) = _
      unfold naluPayloads
      rw [List.append_nil, find_start_code_none unit.payload_clean]
      exact if_neg hsome
  | cons next units ih =>
      obtain ⟨fuel, rfl⟩ : ∃ n, fuel = n + 1 := ⟨fuel - 1, by rw [List.length_cons] at hfuel; omega⟩
      have hstream : unit.payload ++ byteStream (next :: units) = unit.payload ++
          (NalUnit.startCode next.longStartCode ++ (next.payload ++ byteStream units)) := by
        show unit.payload ++ (NalUnit.startCode _ ++ next.payload ++ byteStream units) = _
        rw [List.append_assoc (NalUnit.startCode _)]
      unfold naluPayloads
      rw [hstream, find_start_code_clean unit.payload_clean]
      simp only [if_neg hsome]
      rw [ih next (Nat.lt_of_succ_lt_succ hfuel) (List.cons_ne_nil _ _)]
      rfl

/-- The parser finds the NAL units of a byte stream. -/
theorem find_nalu_indices_eq (units : List NalUnit) :
    findNaluIndices (byteStream units) = units.map NalUnit.payload := by
  cases units with
  | nil => rfl
  | cons unit units =>
      have hstream : byteStream (unit :: units) = NalUnit.startCode unit.longStartCode ++
          (unit.payload ++ byteStream units) := List.append_assoc _ _ _
      have hcount : units.length ≤ (byteStream units).length := by
        clear hstream
        induction units with
        | nil => exact Nat.zero_le _
        | cons next units ih =>
            show _ ≤ (next.bytes ++ byteStream units).length
            have hbytes : 0 < next.bytes.length := by
              unfold NalUnit.bytes NalUnit.payload
              rw [List.length_append, List.length_cons]
              omega
            rw [List.length_cons, List.length_append]
            omega
      unfold findNaluIndices
      rw [hstream, find_start_code_start]
      refine nalu_payloads_eq unit ?_
      rw [List.length_append, List.length_append]
      show units.length < _ + ((escape unit.rbsp).length + 1 + _)
      omega

end MiniRtc.H264

import MiniRtc.Rtp.Packet

/-!
# OBU streams

`ParseObus` of `obu_parser.cpp` and `ReadUVarint` of `byte_buffer.cpp`. The parser cuts an AV1 frame
into OBUs and writes each of them again, from its header, its extension header, its size field and
its data. The size field is taken back from the bytes before the data, as many as the length
that `ReadUVarint` reports.

A `SizedObu` is an OBU as the AV1 bitstream has it, and `SizedObu.written` is what the parser makes
of it: an OBU without data gets a size field of a single zero byte. The main result,
`parse_obus_stream`, says so for size fields of at most eight bytes, the bound up to which the
length that `ReadUVarint` reports is right.
-/

namespace MiniRtc

/-! ## The parser -/

/-- The loop of `ReadUVarint` from bit `i` on: the value, the reported length of the field and the
bytes after it. -/
def readUVarintFrom : Nat → Nat → Nat → List Byte → Option (Nat × Nat × List Byte)
  | 0, _, _, _ => none
  | _ + 1, _, _, [] => none
  | rounds + 1, i, v, byte :: rest =>
      let v := (v ||| ((byte.toNat &&& 0x7F) <<< i)) % 2 ^ 64
      if byte.toNat < 0x80 then some (v, i / 8 + (if i % 8 ≠ 0 then 1 else 0) + 1, rest)
      else readUVarintFrom rounds (i + 7) v rest

/-- `ReadUVarint`, which reads at most ten bytes. -/
def readUVarint (bytes : List Byte) : Option (Nat × Nat × List Byte) :=
  readUVarintFrom 10 0 0 bytes

/-- `Obu`. -/
structure Obu where
  header : Byte
  payload : List Byte
  size : Nat
  deriving DecidableEq

/-- `ObuHasExtension`. -/
def obuHasExtension (header : Byte) : Bool :=
  header.getLsbD 2

/-- `ObuHasSize`. -/
def obuHasSize (header : Byte) : Bool :=
  header.getLsbD 1

/-- The extension header of an OBU, if it has one, and what follows. -/
def readExtensionHeader (header : Byte) (bytes : List Byte) : Option (List Byte × List Byte) :=
  if obuHasExtension header then
    match bytes with
    | [] => none
    | extensionHeader :: rest => some ([extensionHeader], rest)
  else some ([], bytes)

/-- The size field and the data of an OBU as the parser writes them again, and what follows. An
empty OBU gets one byte. -/
def readSizedData (bytes : List Byte) : Option (List Byte × List Byte) :=
  match readUVarint bytes with
  | none => none
  | some (size, sizeLen, data) =>
      if size > data.length then none
      else
        let field := bytes.take (bytes.length - data.length)
        let payload :=
          if size = 0 then [0] else field.drop (field.length - sizeLen) ++ data.take size
        some (payload, data.drop size)

/-- One round of `ParseObus`: the first OBU and the bytes after it. An OBU without a size field
extends to the end. -/
def parseObu : List Byte → Option (Obu × List Byte)
  | [] => none
  | header :: bytes =>
      match readExtensionHeader header bytes with
      | none => none
      | some (extension, bytes) =>
          let content := if obuHasSize header then readSizedData bytes else some (bytes, [])
          match content with
          | none => none
          | some (payload, rest) =>
              some
                ({ header
                   payload := header :: (extension ++ payload)
                   size := 1 + extension.length + payload.length }, rest)

/-- The loop of `ParseObus`. Every round takes at least one byte. -/
def parseObusFrom : Nat → List Byte → Option (List Obu)
  | _, [] => some []
  | 0, _ :: _ => none
  | rounds + 1, bytes =>
      match parseObu bytes with
      | none => none
      | some (obu, rest) => (parseObusFrom rounds rest).map fun obus => obu :: obus

/-- `ParseObus`, which returns nothing for malformed input. -/
def parseObus (payload : List Byte) : List Obu :=
  (parseObusFrom payload.length payload).getD []

/-! ## OBU streams -/

/-- `field` is a LEB128 encoding of `value`: seven bits a byte, the lowest first, with the high bit
set in all bytes but the last. -/
inductive Leb128 : List Byte → Nat → Prop where
  | last {byte : Byte} (h : byte.toNat < 128) : Leb128 [byte] byte.toNat
  | more {byte : Byte} {rest : List Byte} {value : Nat} (h : 128 ≤ byte.toNat)
      (hrest : Leb128 rest value) : Leb128 (byte :: rest) (byte.toNat - 128 + 128 * value)

/-- An OBU with a size field. -/
structure SizedObu where
  header : Byte
  extension : List Byte
  sizeField : List Byte
  data : List Byte
  hasSize : obuHasSize header = true
  hasExtension : extension.length = if obuHasExtension header then 1 else 0
  sizeFieldValue : Leb128 sizeField data.length

/-- The bytes of an OBU. -/
def SizedObu.bytes (obu : SizedObu) : List Byte :=
  obu.header :: (obu.extension ++ (obu.sizeField ++ obu.data))

/-- The bytes of an OBU as the parser writes them again. -/
def SizedObu.written (obu : SizedObu) : List Byte :=
  obu.header :: (obu.extension ++ if obu.data = [] then [0] else obu.sizeField ++ obu.data)

/-- Only the size field of an OBU without data can change. -/
theorem SizedObu.written_eq {obu : SizedObu} (h : obu.data = [] → obu.sizeField = [0]) :
    obu.written = obu.bytes := by
  unfold written bytes
  split_ifs with hdata
  · simp [hdata, h hdata]
  · rfl

/-- The next seven bits go above the bits read so far, and eight bytes fit into 64 bits. -/
theorem or_shifted_byte {read v : Nat} (byte : Byte) (hv : v < 128 ^ read) (hread : read < 8) :
    (v ||| ((byte.toNat &&& 0x7F) <<< (7 * read))) % 2 ^ 64 =
        v + 128 ^ read * (byte.toNat % 128) ∧
      v + 128 ^ read * (byte.toNat % 128) < 128 ^ (read + 1) := by
  have hpow : (128 : Nat) ^ read = 2 ^ (7 * read) := by
    rw [show (128 : Nat) = 2 ^ 7 by decide, ← pow_mul]
  have hmask : byte.toNat &&& 0x7F = byte.toNat % 128 :=
    Nat.and_two_pow_sub_one_eq_mod byte.toNat 7
  have hor : v ||| ((byte.toNat &&& 0x7F) <<< (7 * read)) =
      v + 128 ^ read * (byte.toNat % 128) := by
    rw [hmask, Nat.shiftLeft_eq, Nat.mul_comm, hpow, Nat.or_comm,
      ← Nat.two_pow_add_eq_or_of_lt (hpow ▸ hv), Nat.add_comm]
  have hbits : byte.toNat % 128 + 1 ≤ 128 := Nat.mod_lt _ (by decide)
  have hnext : v + 128 ^ read * (byte.toNat % 128) < 128 ^ (read + 1) := by
    have hmul : 128 ^ read * (byte.toNat % 128 + 1) ≤ 128 ^ read * 128 :=
      Nat.mul_le_mul_left _ hbits
    rw [pow_succ]
    rw [Nat.mul_add] at hmul
    omega
  have hword : (128 : Nat) ^ (read + 1) ≤ 2 ^ 64 := by
    calc (128 : Nat) ^ (read + 1) ≤ 128 ^ 8 := Nat.pow_le_pow_right (by decide) (by omega)
      _ ≤ 2 ^ 64 := by decide
  exact ⟨by rw [hor, Nat.mod_eq_of_lt (by omega)], hnext⟩

/-- Reading a field of at most eight bytes from bit `7 * read` on gives its value, the number of
bytes up to its end, and what follows. -/
theorem read_uvarint_from_leb128 {field : List Byte} {value : Nat} (h : Leb128 field value)
    (read v rounds : Nat) (rest : List Byte) (hv : v < 128 ^ read)
    (hshort : read + field.length ≤ 8) (hrounds : field.length ≤ rounds) :
    readUVarintFrom rounds (7 * read) v (field ++ rest) =
      some (v + 128 ^ read * value, read + field.length, rest) := by
  induction h generalizing read v rounds with
  | @last byte hlast =>
      simp only [List.length_singleton] at hshort hrounds ⊢
      obtain ⟨rounds, rfl⟩ : ∃ n, rounds = n + 1 := ⟨rounds - 1, by omega⟩
      obtain ⟨hor, -⟩ := or_shifted_byte byte hv (by omega)
      -- seven bits a byte, counted in eighths: right up to bit 49
      have hlen : 7 * read / 8 + (if 7 * read % 8 ≠ 0 then 1 else 0) + 1 = read + 1 := by
        split_ifs <;> omega
      simp only [List.singleton_append, readUVarintFrom, hor, Nat.mod_eq_of_lt hlast]
      rw [if_pos hlast, hlen]
  | @more byte tail value hbyte htail ih =>
      simp only [List.length_cons] at hshort hrounds ⊢
      obtain ⟨rounds, rfl⟩ : ∃ n, rounds = n + 1 := ⟨rounds - 1, by omega⟩
      obtain ⟨hor, hnext⟩ := or_shifted_byte byte hv (by omega)
      have hval : byte.toNat % 128 = byte.toNat - 128 := by
        have := byte.isLt
        omega
      simp only [List.cons_append, readUVarintFrom, hor]
      rw [if_neg (by omega), show 7 * read + 7 = 7 * (read + 1) by ring,
        ih (read + 1) _ rounds hnext (by omega) (by omega), hval]
      have hvalue : v + 128 ^ read * (byte.toNat - 128) + 128 ^ (read + 1) * value =
          v + 128 ^ read * (byte.toNat - 128 + 128 * value) := by ring
      rw [hvalue, Nat.add_right_comm, Nat.add_assoc read]

/-- The parser reads the size field and the data of an OBU. -/
theorem read_sized_data_short {obu : SizedObu} (h : obu.sizeField.length ≤ 8)
    (rest : List Byte) :
    readSizedData (obu.sizeField ++ (obu.data ++ rest)) =
      some (if obu.data = [] then [0] else obu.sizeField ++ obu.data, rest) := by
  have hread : readUVarint (obu.sizeField ++ (obu.data ++ rest)) =
      some (obu.data.length, obu.sizeField.length, obu.data ++ rest) := by
    have hfield := read_uvarint_from_leb128 obu.sizeFieldValue 0 0 10 (obu.data ++ rest) (by simp)
      (by omega) (by omega)
    simpa [readUVarint] using hfield
  have hroom : ¬ obu.data.length > (obu.data ++ rest).length := by simp
  have hsub : (obu.sizeField ++ (obu.data ++ rest)).length - (obu.data ++ rest).length =
      obu.sizeField.length := by simp
  simp only [readSizedData, hread, hroom, if_false, hsub, List.take_left, Nat.sub_self,
    List.drop_zero, List.drop_left, List.length_eq_zero_iff]

/-- The parser takes one OBU and writes it again. -/
theorem parse_obu_short {obu : SizedObu} (h : obu.sizeField.length ≤ 8) (rest : List Byte) :
    parseObu (obu.bytes ++ rest) =
      some ({ header := obu.header, payload := obu.written, size := obu.written.length }, rest) := by
  have hdata := read_sized_data_short h rest
  have hext : readExtensionHeader obu.header
      (obu.extension ++ (obu.sizeField ++ (obu.data ++ rest))) =
        some (obu.extension, obu.sizeField ++ (obu.data ++ rest)) := by
    have hlen := obu.hasExtension
    unfold readExtensionHeader
    split_ifs at hlen ⊢ with hflag
    · obtain ⟨e, he⟩ := List.length_eq_one_iff.mp hlen
      simp [he]
    · simp [List.eq_nil_of_length_eq_zero hlen]
  have hsize : 1 + obu.extension.length +
      (if obu.data = [] then [0] else obu.sizeField ++ obu.data).length = obu.written.length := by
    simp only [SizedObu.written, List.length_cons, List.length_append]
    omega
  simp only [SizedObu.bytes, List.cons_append, List.append_assoc, parseObu, hext, obu.hasSize,
    if_true, hdata, hsize]
  rfl

/-- The parser takes a stream of OBUs apart. -/
theorem parse_obus_stream (obus : List SizedObu) (h : ∀ obu ∈ obus, obu.sizeField.length ≤ 8) :
    parseObus (obus.flatMap SizedObu.bytes) =
      obus.map fun obu =>
        { header := obu.header, payload := obu.written, size := obu.written.length } := by
  have hfrom : ∀ rounds, (obus.flatMap SizedObu.bytes).length ≤ rounds →
      parseObusFrom rounds (obus.flatMap SizedObu.bytes) =
        some (obus.map fun obu =>
          { header := obu.header, payload := obu.written, size := obu.written.length }) := by
    induction obus with
    | nil => exact fun rounds _ => by cases rounds <;> rfl
    | cons obu rest ih =>
        intro rounds hrounds
        have hpos : 0 < obu.bytes.length := by simp [SizedObu.bytes]
        rw [List.flatMap_cons, List.length_append] at hrounds
        obtain ⟨rounds, rfl⟩ : ∃ n, rounds = n + 1 := ⟨rounds - 1, by omega⟩
        have hparse := parse_obu_short (h obu List.mem_cons_self) (rest.flatMap SizedObu.bytes)
        have hrest := ih (fun o ho => h o (List.mem_cons_of_mem _ ho)) rounds (by omega)
        rw [List.flatMap_cons]
        have hcons : ∃ b bs, obu.bytes ++ rest.flatMap SizedObu.bytes = b :: bs := ⟨_, _, rfl⟩
        obtain ⟨b, bs, hcons⟩ := hcons
        rw [hcons] at hparse ⊢
        simp only [parseObusFrom, hparse, hrest, Option.map_some, List.map_cons]
  rw [parseObus, hfrom _ le_rfl]
  rfl

end MiniRtc

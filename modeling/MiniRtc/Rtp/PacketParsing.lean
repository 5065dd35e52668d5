import MiniRtc.Rtp.Datagram

/-!
# What is parsed of a datagram

`Parse` step by step: the elements of an extension block (`Elements`), and what a packet is after the
fixed header, after the extension block and after the payload. `parse_iff` says which datagrams are
accepted and what of them is kept. The parts of an accepted datagram follow one another and cover it
(`Partitions`).

The functions that change a packet in place keep its fields and its buffer in step: a packet that
is `Held` by its buffer stays so, and every packet that parses the buffer gets the same fields.
-/

namespace MiniRtc

namespace RtpPacket

variable {p q : RtpPacket} {read read' : Nat → Byte} {size : Nat}

/-! ## The elements of an extension block -/

/-- The element whose first byte stands at an offset. -/
def elementAt (read : Nat → Byte) (offset : Nat) : Extension :=
  let len := (read offset &&& 0x0F).toNat + 1
  { id := read offset >>> 4
    len
    dataOffset := offset + 1
    data := (List.range len).map fun i => read (offset + 1 + i) }

/-- The elements from an offset on, and whether all of them fit. -/
inductive Elements (read : Nat → Byte) (extensionEnd : Nat) : Nat → List Extension → Bool → Prop
  | ended {offset} (h : extensionEnd ≤ offset) : Elements read extensionEnd offset [] true
  | padding {offset elements fits} (h : offset < extensionEnd) (hid : read offset >>> 4 = 0)
      (hrest : Elements read extensionEnd (offset + 1) elements fits) :
      Elements read extensionEnd offset elements fits
  | stop {offset} (h : offset < extensionEnd) (hid : read offset >>> 4 = 15) :
      Elements read extensionEnd offset [] true
  | cut {offset} (h : offset < extensionEnd) (hid : read offset >>> 4 ≠ 0)
      (hstop : read offset >>> 4 ≠ 15)
      (hcut : extensionEnd < offset + 1 + (elementAt read offset).len) :
      Elements read extensionEnd offset [] false
  | element {offset elements fits} (h : offset < extensionEnd) (hid : read offset >>> 4 ≠ 0)
      (hstop : read offset >>> 4 ≠ 15)
      (hfits : offset + 1 + (elementAt read offset).len ≤ extensionEnd)
      (hrest : Elements read extensionEnd (offset + 1 + (elementAt read offset).len) elements
        fits) :
      Elements read extensionEnd offset (elementAt read offset :: elements) fits

section Elements

variable {extensionEnd offset fuel : Nat} {elements found : List Extension} {fits : Bool}

/-- The loop finds the elements, when it has a round for each byte. -/
theorem loop_of_elements (h : Elements read extensionEnd offset elements fits) :
    ∀ fuel, extensionEnd - offset ≤ fuel → ∀ found,
      parseOneByteExtensions read extensionEnd fuel offset found = (found ++ elements, fits) := by
  induction h with
  | ended h =>
      intro fuel _ found
      rw [List.append_nil]
      cases fuel with
      | zero => rfl
      | succ fuel => exact if_neg (Nat.not_lt.mpr h)
  | padding h hid _ ih =>
      intro fuel hfuel found
      obtain ⟨fuel, rfl⟩ : ∃ rest, fuel = rest + 1 := ⟨fuel - 1, by omega⟩
      rw [parseOneByteExtensions, if_pos h]
      simp only [hid, if_true]
      exact ih fuel (by omega) found
  | stop h hid =>
      intro fuel hfuel found
      obtain ⟨fuel, rfl⟩ : ∃ rest, fuel = rest + 1 := ⟨fuel - 1, by omega⟩
      rw [parseOneByteExtensions, if_pos h, List.append_nil]
      simp only [hid, if_true]
      exact if_neg (by decide)
  | cut h hid hstop hcut =>
      intro fuel hfuel found
      obtain ⟨fuel, rfl⟩ : ∃ rest, fuel = rest + 1 := ⟨fuel - 1, by omega⟩
      rw [parseOneByteExtensions, if_pos h, List.append_nil]
      simp only [hid, hstop, if_false]
      exact if_pos hcut
  | element h hid hstop hfits _ ih =>
      intro fuel hfuel found
      obtain ⟨fuel, rfl⟩ : ∃ rest, fuel = rest + 1 := ⟨fuel - 1, by omega⟩
      rw [parseOneByteExtensions, if_pos h]
      simp only [hid, hstop, if_false]
      refine ((if_neg (Nat.not_lt.mpr hfits)).trans (ih fuel (by omega) _)).trans ?_
      rw [List.append_assoc]
      rfl

/-- There always are some. -/
theorem exists_elements (read : Nat → Byte) (extensionEnd : Nat) :
    ∀ fuel offset, extensionEnd - offset ≤ fuel →
      ∃ elements fits, Elements read extensionEnd offset elements fits := by
  intro fuel
  induction fuel with
  | zero => exact fun offset hfuel => ⟨[], true, .ended (by omega)⟩
  | succ fuel ih =>
      intro offset hfuel
      by_cases h : offset < extensionEnd
      · by_cases hid : read offset >>> 4 = 0
        · obtain ⟨elements, fits, hrest⟩ := ih (offset + 1) (by omega)
          exact ⟨elements, fits, .padding h hid hrest⟩
        · by_cases hstop : read offset >>> 4 = 15
          · exact ⟨[], true, .stop h hstop⟩
          · by_cases hfits : offset + 1 + (elementAt read offset).len ≤ extensionEnd
            · obtain ⟨elements, fits, hrest⟩ :=
                ih (offset + 1 + (elementAt read offset).len) (by omega)
              exact ⟨_, fits, .element h hid hstop hfits hrest⟩
            · exact ⟨[], false, .cut h hid hstop (Nat.not_le.mp hfits)⟩
      · exact ⟨[], true, .ended (Nat.not_lt.mp h)⟩

/-- The elements stand behind the offset, inside the block, and have the bytes of the datagram. -/
theorem elements_inside (h : Elements read extensionEnd offset elements fits) :
    ∀ e ∈ elements, offset < e.dataOffset ∧ e.dataOffset + e.len ≤ extensionEnd ∧
      e.data = (List.range e.len).map fun i => read (e.dataOffset + i) := by
  induction h with
  | ended => exact fun e he => by cases he
  | padding _ _ _ ih =>
      intro e he
      obtain ⟨hbehind, hinside⟩ := ih e he
      exact ⟨by omega, hinside⟩
  | stop => exact fun e he => by cases he
  | cut => exact fun e he => by cases he
  | element h hid hstop hfits _ ih =>
      intro e he
      rcases List.mem_cons.mp he with rfl | hrest
      · exact ⟨Nat.lt_succ_self _, hfits, rfl⟩
      · obtain ⟨hbehind, hinside⟩ := ih e hrest
        exact ⟨by omega, hinside⟩

/-- Only the bytes of the element are read. -/
theorem element_at_congr (hread : ∀ i, offset ≤ i →
    i < offset + 1 + (elementAt read offset).len → read' i = read i) :
    elementAt read' offset = elementAt read offset := by
  have hlen : (elementAt read offset).len = (read offset &&& 0x0F).toNat + 1 := rfl
  have hfirst : read' offset = read offset := hread offset (le_refl _) (by omega)
  unfold elementAt
  rw [hfirst]
  refine congrArg (Extension.mk _ _ _) (List.map_congr_left fun i hi => ?_)
  have hbelow := List.mem_range.mp hi
  exact hread _ (by omega) (by omega)

/-- Only the bytes of the block are read. -/
theorem elements_congr (h : Elements read extensionEnd offset elements fits)
    (hread : ∀ i, offset ≤ i → i < extensionEnd → read' i = read i) :
    Elements read' extensionEnd offset elements fits := by
  induction h with
  | ended h => exact .ended h
  | padding h hid _ ih =>
      exact .padding h (by rw [hread _ (le_refl _) h, hid])
        (ih fun i hi => hread i (by omega))
  | stop h hid => exact .stop h (by rw [hread _ (le_refl _) h, hid])
  | cut h hid hstop hcut =>
      rename_i offset
      have hfirst : read' offset = read offset := hread offset (le_refl _) h
      refine .cut h (by rw [hfirst]; exact hid) (by rw [hfirst]; exact hstop) ?_
      show extensionEnd < offset + 1 + ((read' offset &&& 0x0F).toNat + 1)
      rw [hfirst]
      exact hcut
  | element h hid hstop hfits _ ih =>
      rename_i offset elements fits _
      have hfirst : read' offset = read offset := hread offset (le_refl _) h
      have hsame : elementAt read' offset = elementAt read offset :=
        element_at_congr fun i hi hend => hread i hi (by omega)
      rw [← hsame]
      refine .element h (by rw [hfirst]; exact hid) (by rw [hfirst]; exact hstop)
        (by rw [hsame]; exact hfits) ?_
      rw [hsame]
      exact ih fun i hi => hread i (by omega)

/-- Other bytes in the data of the first chosen element change the data of this element only. -/
theorem elements_replace {chosen : Extension → Bool} {e : Extension} {data : List Byte}
    (h : Elements read extensionEnd offset elements fits) (hfind : elements.find? chosen = some e)
    (hread : ∀ i, i < e.dataOffset ∨ e.dataOffset + e.len ≤ i → read' i = read i)
    (hdata : ((List.range e.len).map fun i => read' (e.dataOffset + i)) = data) :
    Elements read' extensionEnd offset
      (elements.replaceF fun e => if chosen e then some { e with data } else none) fits := by
  induction h with
  | ended => cases hfind
  | padding h hid hrest ih =>
      rename_i offset elements fits
      have hbehind := (elements_inside hrest e (List.mem_of_find?_eq_some hfind)).1
      exact .padding h (by rw [hread offset (Or.inl (by omega)), hid]) (ih hfind)
  | stop => cases hfind
  | cut => cases hfind
  | element h hid hstop hfits hrest ih =>
      rename_i offset elements fits
      by_cases hchosen : chosen (elementAt read offset) = true
      · -- this is the element that is overwritten
        rw [List.find?_cons_of_pos hchosen] at hfind
        obtain rfl : elementAt read offset = e := Option.some.inj hfind
        have hfirst : read' offset = read offset := hread offset (Or.inl (Nat.lt_succ_self _))
        have hsame : { elementAt read offset with data } = elementAt read' offset := by
          rw [← hdata]
          unfold elementAt
          simp only [hfirst]
        simp only [List.replaceF_cons, hchosen, if_true]
        rw [hsame]
        have hlen : (elementAt read' offset).len = (elementAt read offset).len := by
          rw [← hsame]
        refine .element h (by rw [hfirst]; exact hid) (by rw [hfirst]; exact hstop)
          (by rw [hlen]; exact hfits) ?_
        rw [hlen]
        exact elements_congr hrest fun i hi _ => hread i (Or.inr hi)
      · have hrestfind : elements.find? chosen = some e := by
          rwa [List.find?_cons_of_neg hchosen] at hfind
        have hbehind := (elements_inside hrest e (List.mem_of_find?_eq_some hrestfind)).1
        have hfirst : read' offset = read offset := hread offset (Or.inl (by omega))
        have hsame : elementAt read' offset = elementAt read offset :=
          element_at_congr fun i _ hend => hread i (Or.inl (by omega))
        simp only [List.replaceF_cons, hchosen, Bool.false_eq_true, if_false]
        rw [← hsame]
        refine .element h (by rw [hfirst]; exact hid) (by rw [hfirst]; exact hstop)
          (by rw [hsame]; exact hfits) ?_
        rw [hsame]
        exact ih hrestfind

end Elements

/-! ## The steps of a parse -/

/-- The datagram has a header of the version and all contributing sources that it announces. -/
structure HasFixedHeader (read : Nat → Byte) (size : Nat) : Prop where
  version : (read 0 >>> 6) &&& 0x03 = kRtpVersion
  fits : kFixedHeaderSize + (read 0 &&& 0x0f).toNat * 4 ≤ size

/-- A packet after the fixed header and the contributing sources. -/
def fixed (p : RtpPacket) (read : Nat → Byte) : RtpPacket :=
  { p with
    version := (read 0 >>> 6) &&& 0x03
    hasPadding := (read 0).getLsbD 5
    hasExtension := (read 0).getLsbD 4
    csrcCount := (read 0 &&& 0x0f).toNat
    marker := (read 1).getLsbD 7
    payloadType := read 1 &&& 0x7f
    sequenceNumber := readUint16 read 2
    timestamp := readUint32 read 4
    ssrc := readUint32 read 8
    csrcs := (List.range (read 0 &&& 0x0f).toNat).map fun i =>
      readUint32 read (kFixedHeaderSize + i * 4)
    extensions := []
    payloadOffset := kFixedHeaderSize + (read 0 &&& 0x0f).toNat * 4 }

theorem csrc_count_le (first : Byte) : (first &&& 0x0f).toNat ≤ kMaxRtpCsrcSize := by
  revert first
  decide

/-- The fixed header is accepted when it is there. -/
theorem parse_fixed_header_iff :
    p.parseFixedHeader read size = (q, true) ↔ HasFixedHeader read size ∧ p.fixed read = q := by
  have hcount : ¬ (read 0 &&& 0x0f).toNat > kMaxRtpCsrcSize := Nat.not_lt.mpr (csrc_count_le _)
  unfold parseFixedHeader
  by_cases hlong : size < kFixedHeaderSize
  · rw [if_pos hlong]
    refine iff_of_false (by simp) fun h => ?_
    have hfits := h.1.fits
    omega
  · rw [if_neg hlong]
    by_cases hversion : (read 0 >>> 6) &&& 0x03 = kRtpVersion
    · simp only [hversion, ne_eq, not_true_eq_false, if_false, hcount]
      by_cases hfits : kFixedHeaderSize + (read 0 &&& 0x0f).toNat * 4 ≤ size
      · rw [if_neg (Nat.not_lt.mpr hfits)]
        constructor
        · intro h
          refine ⟨⟨hversion, hfits⟩, ?_⟩
          rw [← (Prod.mk.inj h).1, fixed, hversion]
        · intro h
          rw [← h.2, fixed, hversion]
      · rw [if_pos (Nat.not_le.mp hfits)]
        exact iff_of_false (by simp) fun h => hfits h.1.fits
    · simp only [ne_eq, hversion, not_false_eq_true, if_true]
      exact iff_of_false (by simp) fun h => hversion h.1.version

/-- The words of the extension block that starts behind the contributing sources. -/
def extensionWords (p : RtpPacket) (read : Nat → Byte) : Nat :=
  (readUint16 read (p.payloadOffset + 2)).toNat

/-- The datagram has the whole extension block, with these elements. -/
def HasExtensionBlock (p : RtpPacket) (read : Nat → Byte) (size : Nat)
    (elements : List Extension) : Prop :=
  if p.hasExtension then
    p.payloadOffset + 4 + p.extensionWords read * 4 ≤ size ∧
      if readUint16 read p.payloadOffset = kOneByteExtensionProfileId then
        Elements read (p.payloadOffset + 4 + p.extensionWords read * 4) (p.payloadOffset + 4)
          elements true
      else elements = []
  else elements = []

/-- A packet after the extension block. -/
def extended (p : RtpPacket) (read : Nat → Byte) (elements : List Extension) : RtpPacket :=
  if p.hasExtension then
    { p with
      extensionProfile := readUint16 read p.payloadOffset
      extensionLen := readUint16 read (p.payloadOffset + 2)
      extensions := elements
      payloadOffset := p.payloadOffset + 4 + p.extensionWords read * 4 }
  else p

/-- The extension block is accepted when it is there. -/
theorem parse_extension_block_iff (hnone : p.extensions = []) :
    p.parseExtensionBlock read size = (q, true) ↔
      ∃ elements, p.HasExtensionBlock read size elements ∧ p.extended read elements = q := by
  unfold parseExtensionBlock HasExtensionBlock extended
  cases hext : p.hasExtension with
  | false => simp
  | true =>
      simp only [Bool.not_true, Bool.false_eq_true, if_false, if_true]
      by_cases hprofile : p.payloadOffset + 4 > size
      · rw [if_pos hprofile]
        refine iff_of_false (by simp) fun h => ?_
        obtain ⟨-, ⟨hfits, -⟩, -⟩ := h
        omega
      · rw [if_neg hprofile]
        unfold extensionWords
        by_cases hfits : p.payloadOffset + 4 +
            (readUint16 read (p.payloadOffset + 2)).toNat * 4 ≤ size
        · rw [if_neg (Nat.not_lt.mpr hfits)]
          by_cases hone : readUint16 read p.payloadOffset = kOneByteExtensionProfileId
          · obtain ⟨elements, fits, helements⟩ := exists_elements read
              (p.payloadOffset + 4 + (readUint16 read (p.payloadOffset + 2)).toNat * 4)
              ((readUint16 read (p.payloadOffset + 2)).toNat * 4) (p.payloadOffset + 4) (by omega)
            have hloop := loop_of_elements helements _
              (by omega : _ ≤ (readUint16 read (p.payloadOffset + 2)).toNat * 4) []
            rw [List.nil_append] at hloop
            simp only [hone, if_true, hnone, hloop]
            cases fits with
            | true =>
                simp only [Bool.not_true, Bool.false_eq_true, if_false]
                constructor
                · intro h
                  exact ⟨elements, ⟨hfits, helements⟩, (Prod.mk.inj h).1⟩
                · intro h
                  obtain ⟨others, ⟨-, hothers⟩, hq⟩ := h
                  have hsame := loop_of_elements hothers _
                    (by omega : _ ≤ (readUint16 read (p.payloadOffset + 2)).toNat * 4) []
                  rw [hloop, List.nil_append] at hsame
                  rw [← hq, (Prod.mk.inj hsame).1]
            | false =>
                refine iff_of_false (by simp) fun h => ?_
                obtain ⟨others, ⟨-, hothers⟩, -⟩ := h
                have hsame := loop_of_elements hothers _
                  (by omega : _ ≤ (readUint16 read (p.payloadOffset + 2)).toNat * 4) []
                rw [hloop] at hsame
                cases (Prod.mk.inj hsame).2
          · simp only [hone, if_false, hnone, Bool.not_true, Bool.false_eq_true]
            constructor
            · intro h
              exact ⟨[], ⟨hfits, rfl⟩, (Prod.mk.inj h).1⟩
            · intro h
              obtain ⟨others, ⟨-, hothers⟩, hq⟩ := h
              rw [← hq, hothers]
        · rw [if_pos (Nat.not_le.mp hfits)]
          refine iff_of_false (by simp) fun h => ?_
          obtain ⟨-, ⟨hblock, -⟩, -⟩ := h
          exact hfits hblock

/-- The padding that the last byte counts. -/
def paddingOf (p : RtpPacket) (read : Nat → Byte) (size : Nat) : Nat :=
  if p.hasPadding ∧ p.payloadOffset < size then (read (size - 1)).toNat else 0

/-- A packet after padding and payload. -/
def finished (p : RtpPacket) (read : Nat → Byte) (size : Nat) : RtpPacket :=
  { p with
    hasPadding := p.hasPadding && !decide (p.payloadOffset < size ∧ p.paddingOf read size = 0)
    paddingSize := p.paddingOf read size
    payloadSize := size - p.payloadOffset - p.paddingOf read size }

/-- Padding and payload are accepted when the padding is there. -/
theorem parse_payload_iff :
    p.parsePayload read size = (q, true) ↔
      p.payloadOffset + p.paddingOf read size ≤ size ∧ p.finished read size = q := by
  have hpadded : (if p.hasPadding ∧ p.payloadOffset < size then
      if (read (size - 1)).toNat = 0 then
        { p with paddingSize := (read (size - 1)).toNat, hasPadding := false }
      else { p with paddingSize := (read (size - 1)).toNat }
    else { p with paddingSize := 0 }) =
      { p with
        hasPadding := p.hasPadding && !decide (p.payloadOffset < size ∧ p.paddingOf read size = 0)
        paddingSize := p.paddingOf read size } := by
    unfold paddingOf
    cases hpad : p.hasPadding with
    | false => simp
    | true =>
        by_cases hroom : p.payloadOffset < size
        · by_cases hzero : (read (size - 1)).toNat = 0
          · simp [hroom, hzero]
          · simp [hroom, hzero]
        · simp [hroom]
  unfold parsePayload
  simp only
  rw [hpadded]
  by_cases hfits : p.payloadOffset + p.paddingOf read size ≤ size
  · rw [if_neg (Nat.not_lt.mpr hfits)]
    constructor
    · exact fun h => ⟨hfits, (Prod.mk.inj h).1⟩
    · exact fun h => by rw [← h.2]; rfl
  · rw [if_pos (Nat.not_le.mp hfits)]
    exact iff_of_false (by simp) fun h => hfits h.1

/-- A packet after a whole datagram. -/
def parsed (p : RtpPacket) (read : Nat → Byte) (size : Nat) (elements : List Extension) :
    RtpPacket :=
  ((p.fixed read).extended read elements).finished read size

/-- The parts of a datagram that `Parse` accepts. -/
structure Accepts (p : RtpPacket) (read : Nat → Byte) (size : Nat) (elements : List Extension) :
    Prop where
  fixedHeader : HasFixedHeader read size
  extensionBlock : (p.fixed read).HasExtensionBlock read size elements
  padding : ((p.fixed read).extended read elements).payloadOffset +
    ((p.fixed read).extended read elements).paddingOf read size ≤ size

/-- `Parse` accepts what has all its parts. -/
theorem parse_iff :
    p.parse read size = (q, true) ↔
      ∃ elements, Accepts p read size elements ∧ p.parsed read size elements = q := by
  unfold parse
  constructor
  · intro h
    simp only at h
    split_ifs at h with hfixed hblock
    · cases (Prod.mk.inj h).2
    · cases (Prod.mk.inj h).2
    · have hheader := parse_fixed_header_iff.mp
        (Prod.ext rfl (by simpa using hfixed) : p.parseFixedHeader read size =
          ((p.parseFixedHeader read size).1, true))
      rw [← hheader.2] at hblock h
      obtain ⟨elements, hhas, hextended⟩ := (parse_extension_block_iff rfl).mp
        (Prod.ext rfl (by simpa using hblock) : (p.fixed read).parseExtensionBlock read size =
          (((p.fixed read).parseExtensionBlock read size).1, true))
      rw [← hextended] at h
      obtain ⟨hfits, hq⟩ := parse_payload_iff.mp h
      exact ⟨elements, ⟨hheader.1, hhas, hfits⟩, hq⟩
  · intro h
    obtain ⟨elements, haccepts, hq⟩ := h
    rw [parse_fixed_header_iff.mpr ⟨haccepts.fixedHeader, rfl⟩]
    simp only [Bool.not_true, Bool.false_eq_true, if_false]
    rw [(parse_extension_block_iff rfl).mpr ⟨elements, haccepts.extensionBlock, rfl⟩]
    simp only [Bool.not_true, Bool.false_eq_true, if_false]
    exact parse_payload_iff.mpr ⟨haccepts.padding, hq⟩

/-! ## Reading inside the datagram -/

theorem read_uint16_congr {offset : Nat} (hread : ∀ i < size, read' i = read i)
    (hroom : offset + 2 ≤ size) : readUint16 read' offset = readUint16 read offset := by
  unfold readUint16
  rw [hread _ (by omega), hread _ (by omega)]

theorem read_uint32_congr {offset : Nat} (hread : ∀ i < size, read' i = read i)
    (hroom : offset + 4 ≤ size) : readUint32 read' offset = readUint32 read offset := by
  unfold readUint32
  rw [hread _ (by omega), hread _ (by omega), hread _ (by omega), hread _ (by omega)]

/-- The fixed header is read inside the datagram. -/
theorem fixed_header_congr (hread : ∀ i < size, read' i = read i) :
    p.parseFixedHeader read' size = p.parseFixedHeader read size := by
  unfold parseFixedHeader
  by_cases hlong : size < kFixedHeaderSize
  · rw [if_pos hlong, if_pos hlong]
  · rw [if_neg hlong, if_neg hlong]
    have hsize : 12 ≤ size := Nat.not_lt.mp hlong
    have hseq : readUint16 read' 2 = readUint16 read 2 := read_uint16_congr hread (by omega)
    have htime : readUint32 read' 4 = readUint32 read 4 := read_uint32_congr hread (by omega)
    have hssrc : readUint32 read' 8 = readUint32 read 8 := read_uint32_congr hread (by omega)
    simp only [hread 0 (by omega), hread 1 (by omega), hseq, htime, hssrc]
    by_cases hfits : kFixedHeaderSize + (read 0 &&& 0x0f).toNat * 4 > size
    · simp only [hfits, if_true]
    · have hcsrcs : ((List.range (read 0 &&& 0x0f).toNat).map fun i =>
          readUint32 read' (kFixedHeaderSize + i * 4)) =
          (List.range (read 0 &&& 0x0f).toNat).map fun i =>
            readUint32 read (kFixedHeaderSize + i * 4) := by
        refine List.map_congr_left fun i hi => read_uint32_congr hread ?_
        have hcount := List.mem_range.mp hi
        omega
      simp only [hfits, if_false, hcsrcs]

/-- So is the extension block. -/
theorem extension_block_congr (hread : ∀ i < size, read' i = read i) :
    p.parseExtensionBlock read' size = p.parseExtensionBlock read size := by
  unfold parseExtensionBlock
  cases p.hasExtension with
  | false => rfl
  | true =>
      simp only [Bool.not_true, Bool.false_eq_true, if_false]
      by_cases hprofile : p.payloadOffset + 4 > size
      · rw [if_pos hprofile, if_pos hprofile]
      · have hid : readUint16 read' p.payloadOffset = readUint16 read p.payloadOffset :=
          read_uint16_congr hread (by omega)
        have hlen : readUint16 read' (p.payloadOffset + 2) =
            readUint16 read (p.payloadOffset + 2) := read_uint16_congr hread (by omega)
        simp only [hprofile, if_false, hid, hlen]
        by_cases hfits : p.payloadOffset + 4 +
            (readUint16 read (p.payloadOffset + 2)).toNat * 4 > size
        · simp only [hfits, if_true]
        · obtain ⟨elements, fits, helements⟩ := exists_elements read
            (p.payloadOffset + 4 + (readUint16 read (p.payloadOffset + 2)).toNat * 4)
            ((readUint16 read (p.payloadOffset + 2)).toNat * 4) (p.payloadOffset + 4) (by omega)
          have hloop := loop_of_elements helements _
            (by omega : _ ≤ (readUint16 read (p.payloadOffset + 2)).toNat * 4) p.extensions
          have hloop' := loop_of_elements
            (elements_congr helements fun i _ hi => hread i (by omega)) _
            (by omega : _ ≤ (readUint16 read (p.payloadOffset + 2)).toNat * 4) p.extensions
          simp only [hfits, if_false, hloop, hloop']

/-- `Parse` reads inside the datagram only, whether it succeeds or not. -/
theorem parse_congr (hread : ∀ i < size, read' i = read i) :
    p.parse read' size = p.parse read size := by
  unfold parse
  simp only [fixed_header_congr hread, extension_block_congr hread]
  split_ifs
  · rfl
  · rfl
  · unfold parsePayload
    by_cases hempty : size = 0
    · simp [hempty]
    · rw [hread (size - 1) (by omega)]

/-! ## The parts of a datagram -/

/-- Header, contributing sources, extension block, payload and padding follow one another and cover
the buffer, and the elements of the block are bytes of the buffer inside the block. -/
structure Partitions (q : RtpPacket) (buffer : List Byte) : Prop where
  csrcs : q.csrcs.length = q.csrcCount
  offset : q.payloadOffset = kFixedHeaderSize + 4 * q.csrcCount +
    if q.hasExtension then 4 + 4 * q.extensionLen.toNat else 0
  cover : q.payloadOffset + q.payloadSize + q.paddingSize = buffer.length
  inside : ∀ e ∈ q.extensions, q.hasExtension = true ∧
    kFixedHeaderSize + 4 * q.csrcCount + 4 ≤ e.dataOffset ∧
      e.dataOffset + e.len ≤ q.payloadOffset
  bytes : ∀ e ∈ q.extensions, e.data = (buffer.drop e.dataOffset).take e.len

/-- The bytes of a buffer from an offset on, as they are read one by one. -/
theorem map_byte_at {buffer : List Byte} {offset n : Nat} (h : offset + n ≤ buffer.length) :
    ((List.range n).map fun i => byteAt buffer (offset + i)) = (buffer.drop offset).take n := by
  refine List.ext_getElem (by simp; omega) fun i hi _ => ?_
  rw [List.length_map, List.length_range] at hi
  rw [List.getElem_map, List.getElem_range, List.getElem_take, List.getElem_drop, byteAt,
    List.getD_eq_getElem?_getD, List.getElem?_eq_getElem (by omega), Option.getD_some]

/-- An accepted datagram is the sum of its parts. -/
theorem partitions_of_parse {buffer : List Byte}
    (h : p.parse (byteAt buffer) buffer.length = (q, true)) : q.Partitions buffer := by
  obtain ⟨elements, haccepts, rfl⟩ := parse_iff.mp h
  have hblock := haccepts.extensionBlock
  have hpadding := haccepts.padding
  have hcount : (p.fixed (byteAt buffer)).csrcs.length = (p.fixed (byteAt buffer)).csrcCount := by
    simp [fixed]
  have hoffset : (p.fixed (byteAt buffer)).payloadOffset =
      kFixedHeaderSize + (p.fixed (byteAt buffer)).csrcCount * 4 := rfl
  have hnone : (p.fixed (byteAt buffer)).extensions = [] := rfl
  unfold parsed
  generalize p.fixed (byteAt buffer) = r at *
  unfold HasExtensionBlock at hblock
  unfold extended at hpadding ⊢
  by_cases hext : r.hasExtension
  · rw [if_pos hext] at hblock hpadding ⊢
    obtain ⟨hfits, helements⟩ := hblock
    have hinside : ∀ e ∈ elements, r.payloadOffset + 4 < e.dataOffset ∧
        e.dataOffset + e.len ≤ r.payloadOffset + 4 + r.extensionWords (byteAt buffer) * 4 ∧
          e.data = (List.range e.len).map fun i => byteAt buffer (e.dataOffset + i) := by
      split_ifs at helements with hone
      · exact elements_inside helements
      · rw [helements]
        exact fun e he => by cases he
    refine ⟨hcount, ?_, ?_, fun e he => ?_, fun e he => ?_⟩
    · show r.payloadOffset + 4 + r.extensionWords (byteAt buffer) * 4 =
        kFixedHeaderSize + 4 * r.csrcCount +
          if r.hasExtension then 4 + 4 * r.extensionWords (byteAt buffer) else 0
      rw [if_pos hext]
      omega
    · show _ + (buffer.length - _ - _) + _ = buffer.length
      simp only [finished] at hpadding ⊢
      omega
    · obtain ⟨hbehind, hend, -⟩ := hinside e he
      refine ⟨hext, ?_, hend⟩
      show kFixedHeaderSize + 4 * r.csrcCount + 4 ≤ e.dataOffset
      omega
    · obtain ⟨-, hend, hdata⟩ := hinside e he
      rw [hdata]
      exact map_byte_at (by omega)
  · rw [if_neg hext] at hblock hpadding ⊢
    refine ⟨hcount, ?_, ?_, fun e he => ?_, fun e he => ?_⟩
    · show r.payloadOffset = kFixedHeaderSize + 4 * r.csrcCount +
        if r.hasExtension then 4 + 4 * r.extensionLen.toNat else 0
      rw [if_neg hext]
      omega
    · simp only [finished] at hpadding ⊢
      omega
    · have hin : e ∈ r.extensions := he
      rw [hnone] at hin
      cases hin
    · have hin : e ∈ r.extensions := he
      rw [hnone] at hin
      cases hin

/-! ## Overwritten bytes -/

section Overwrite

variable {buffer data : List Byte} {offset : Nat}

theorem overwrite_length (hroom : offset + data.length ≤ buffer.length) :
    (overwrite buffer offset data).length = buffer.length := by
  unfold overwrite
  rw [List.length_append, List.length_append, List.length_take, List.length_drop]
  omega

/-- Outside of the new bytes the buffer is the old one. -/
theorem byte_at_overwrite (hroom : offset + data.length ≤ buffer.length) {i : Nat}
    (hout : i < offset ∨ offset + data.length ≤ i) :
    byteAt (overwrite buffer offset data) i = byteAt buffer i := by
  have htake : (buffer.take offset).length = offset := by
    rw [List.length_take]
    omega
  unfold byteAt overwrite
  rw [List.getD_eq_getElem?_getD, List.getD_eq_getElem?_getD]
  rcases hout with hleft | hright
  · rw [List.append_assoc, List.getElem?_append_left (by omega), List.getElem?_take_of_lt hleft]
  · have hlen : (buffer.take offset ++ data).length = offset + data.length := by
      rw [List.length_append, htake]
    rw [List.getElem?_append_right (by omega), List.getElem?_drop, hlen,
      show offset + data.length + (i - (offset + data.length)) = i by omega]

/-- The new bytes are read from their place. -/
theorem map_byte_at_overwrite (hroom : offset + data.length ≤ buffer.length) :
    ((List.range data.length).map fun i => byteAt (overwrite buffer offset data) (offset + i)) =
      data := by
  rw [map_byte_at (by rw [overwrite_length hroom]; exact hroom)]
  have htake : (buffer.take offset).length = offset := by
    rw [List.length_take]
    omega
  unfold overwrite
  rw [List.append_assoc, List.drop_left' htake, List.take_left]

end Overwrite

/-! ## Changes in place -/

/-- A packet of which the buffer has no extension block keeps what another one has of it. -/
def keeping (p q : RtpPacket) : RtpPacket :=
  { p with
    extensionProfile := if p.hasExtension then p.extensionProfile else q.extensionProfile
    extensionLen := if p.hasExtension then p.extensionLen else q.extensionLen }

@[simp] theorem keeping_self (p : RtpPacket) : p.keeping p = p := by
  unfold keeping
  rw [ite_self, ite_self]

/-- The fields of the packet are what `Parse` reads from its buffer. -/
structure Held (p : RtpPacket) : Prop where
  size : p.size = p.buffer.length
  parse : p.parse (byteAt p.buffer) p.buffer.length = (p, true)

/-- What is accepted does not depend on the packet that reads it. -/
theorem accepts_any {elements : List Extension} (h : Accepts p read size elements)
    (q : RtpPacket) : Accepts q read size elements := by
  refine ⟨h.fixedHeader, h.extensionBlock, ?_⟩
  have hpadding := h.padding
  unfold extended at hpadding ⊢
  by_cases hext : (read 0).getLsbD 4
  · rw [if_pos (show (p.fixed read).hasExtension = true from hext)] at hpadding
    rw [if_pos (show (q.fixed read).hasExtension = true from hext)]
    exact hpadding
  · rw [if_neg (show ¬ (p.fixed read).hasExtension = true from hext)] at hpadding
    rw [if_neg (show ¬ (q.fixed read).hasExtension = true from hext)]
    exact hpadding

/-- Any packet reads the same fields, up to what no extension block overwrites. -/
theorem parsed_any (p q : RtpPacket) (elements : List Extension) :
    q.parsed read size elements =
      { (p.parsed read size elements).keeping q with buffer := q.buffer, size := q.size } := by
  unfold parsed extended keeping
  by_cases hext : (read 0).getLsbD 4
  · rw [if_pos (show (p.fixed read).hasExtension = true from hext),
      if_pos (show (q.fixed read).hasExtension = true from hext)]
    simp [finished, fixed, hext, paddingOf, extensionWords]
  · rw [if_neg (show ¬ (p.fixed read).hasExtension = true from hext),
      if_neg (show ¬ (q.fixed read).hasExtension = true from hext)]
    simp only [finished, fixed, hext, paddingOf, Bool.false_eq_true, if_false]

/-- A built packet holds what it has parsed. -/
theorem held_of_build {buffer : List Byte} (h : p.build buffer = (q, true)) :
    q.Held ∧ q.buffer = buffer := by
  unfold build at h
  simp only at h
  split_ifs at h with hfail
  · cases (Prod.mk.inj h).2
  · have hq := (Prod.mk.inj h).1
    have hparse : p.parse (byteAt buffer) buffer.length =
        ((p.parse (byteAt buffer) buffer.length).1, true) :=
      Prod.ext rfl (by simpa using hfail)
    obtain ⟨elements, haccepts, hparsed⟩ := parse_iff.mp hparse
    have hbuffer : q.buffer = buffer := by rw [← hq]
    have hsize : q.size = buffer.length := by rw [← hq]
    refine ⟨⟨by rw [hsize, hbuffer], ?_⟩, hbuffer⟩
    rw [hbuffer]
    refine parse_iff.mpr ⟨elements, accepts_any haccepts q, ?_⟩
    rw [parsed_any p q, hparsed, ← hq]
    simp [keeping]

/-- All packets that parse the buffer get the fields of a packet that holds them. -/
theorem build_of_held (h : p.Held) (q : RtpPacket) : q.build p.buffer = (p.keeping q, true) := by
  obtain ⟨elements, haccepts, hparsed⟩ := parse_iff.mp h.parse
  have hparse := parse_iff.mpr ⟨elements, accepts_any haccepts q, rfl⟩
  unfold build
  simp only [hparse, Bool.not_true, Bool.false_eq_true, if_false]
  rw [parsed_any p q, hparsed, ← h.size]
  rfl

/-- A packet still holds what its buffer says after a change of the sequence number, of the data of
elements or of both. -/
theorem held_of_change (h : p.Held) {buffer : List Byte} {sequenceNumber : BitVec 16}
    {elements : List Extension} (hlen : buffer.length = p.buffer.length)
    (hhead : ∀ i < 2, byteAt buffer i = byteAt p.buffer i)
    (hseq : readUint16 (byteAt buffer) 2 = sequenceNumber)
    (hrest : ∀ i, 4 ≤ i → (i < kFixedHeaderSize + 4 * p.csrcCount +
        (if p.hasExtension then 4 else 0) ∨ p.payloadOffset ≤ i) →
      byteAt buffer i = byteAt p.buffer i)
    (hnone : p.extensions = [] → elements = [])
    (hsome : ∀ extensionEnd offset, kFixedHeaderSize + 4 * p.csrcCount + 4 ≤ offset →
      Elements (byteAt p.buffer) extensionEnd offset p.extensions true →
        Elements (byteAt buffer) extensionEnd offset elements true) :
    ({ p with buffer, sequenceNumber, extensions := elements } : RtpPacket).Held := by
  obtain ⟨before, haccepts, hparsed⟩ := parse_iff.mp h.parse
  have h0 : byteAt buffer 0 = byteAt p.buffer 0 := hhead 0 (by decide)
  have h1 : byteAt buffer 1 = byteAt p.buffer 1 := hhead 1 (by decide)
  have hcount : p.csrcCount = (byteAt p.buffer 0 &&& 0x0f).toNat :=
    (congrArg csrcCount hparsed.symm).trans (by unfold parsed extended; split <;> rfl)
  have hextension : p.hasExtension = (byteAt p.buffer 0).getLsbD 4 :=
    (congrArg hasExtension hparsed.symm).trans (by unfold parsed extended; split <;> rfl)
  have hoffset : p.payloadOffset =
      ((p.fixed (byteAt p.buffer)).extended (byteAt p.buffer) before).payloadOffset :=
    (congrArg payloadOffset hparsed.symm).trans rfl
  -- The numbers of the header are the same in both buffers, apart from the sequence number.
  have hword : ∀ i, 4 ≤ i → i + 2 ≤ kFixedHeaderSize + 4 * p.csrcCount +
      (if p.hasExtension then 4 else 0) →
        readUint16 (byteAt buffer) i = readUint16 (byteAt p.buffer) i := by
    intro i hi hend
    unfold readUint16
    rw [hrest i hi (Or.inl (by omega)), hrest (i + 1) (by omega) (Or.inl (by omega))]
  have hlong : ∀ i, 4 ≤ i → i + 4 ≤ kFixedHeaderSize + 4 * p.csrcCount →
      readUint32 (byteAt buffer) i = readUint32 (byteAt p.buffer) i := by
    intro i hi hend
    unfold readUint32
    rw [hrest i hi (Or.inl (by omega)), hrest (i + 1) (by omega) (Or.inl (by omega)),
      hrest (i + 2) (by omega) (Or.inl (by omega)), hrest (i + 3) (by omega) (Or.inl (by omega))]
  have hcsrcs : ((List.range (byteAt p.buffer 0 &&& 0x0f).toNat).map fun i =>
      readUint32 (byteAt buffer) (kFixedHeaderSize + i * 4)) =
      (List.range (byteAt p.buffer 0 &&& 0x0f).toNat).map fun i =>
        readUint32 (byteAt p.buffer) (kFixedHeaderSize + i * 4) := by
    refine List.map_congr_left fun i hi => hlong _ (by unfold kFixedHeaderSize; omega) ?_
    have hbelow := List.mem_range.mp hi
    omega
  have hfixed : ({ p with buffer, sequenceNumber, extensions := elements } : RtpPacket).fixed
      (byteAt buffer) = { p.fixed (byteAt p.buffer) with buffer, sequenceNumber } := by
    unfold fixed
    rw [h0, h1, hseq, hlong 4 (le_refl _) (by unfold kFixedHeaderSize; omega),
      hlong 8 (by decide) (by unfold kFixedHeaderSize; omega), hcsrcs]
  have hstart : (p.fixed (byteAt p.buffer)).payloadOffset =
      kFixedHeaderSize + 4 * p.csrcCount := by
    rw [hcount, Nat.mul_comm]
    rfl
  have hbefore : before = p.extensions := by
    have hextensions := congrArg extensions hparsed
    have hblock := haccepts.extensionBlock
    unfold HasExtensionBlock at hblock
    unfold parsed extended at hextensions
    by_cases hext : (p.fixed (byteAt p.buffer)).hasExtension
    · rwa [if_pos hext] at hextensions
    · rw [if_neg hext] at hextensions hblock
      rw [hblock, ← hextensions]
      rfl
  -- So are the profile and the length of the extension block.
  have hannounced : (p.fixed (byteAt p.buffer)).hasExtension = true →
      readUint16 (byteAt buffer) (p.fixed (byteAt p.buffer)).payloadOffset =
          readUint16 (byteAt p.buffer) (p.fixed (byteAt p.buffer)).payloadOffset ∧
        readUint16 (byteAt buffer) ((p.fixed (byteAt p.buffer)).payloadOffset + 2) =
          readUint16 (byteAt p.buffer) ((p.fixed (byteAt p.buffer)).payloadOffset + 2) := by
    intro hext
    have hroom : p.hasExtension = true := hextension.trans hext
    rw [hstart]
    exact ⟨hword _ (by unfold kFixedHeaderSize; omega) (by rw [if_pos hroom]; omega),
      hword _ (by unfold kFixedHeaderSize; omega) (by rw [if_pos hroom])⟩
  have hextended : ({ p.fixed (byteAt p.buffer) with buffer, sequenceNumber } :
      RtpPacket).extended (byteAt buffer) elements =
        { (p.fixed (byteAt p.buffer)).extended (byteAt p.buffer) before with
          buffer, sequenceNumber, extensions := elements } := by
    unfold extended
    by_cases hext : (p.fixed (byteAt p.buffer)).hasExtension
    · obtain ⟨hprofile, hwords⟩ := hannounced hext
      unfold extensionWords
      rw [if_pos (show ({ p.fixed (byteAt p.buffer) with buffer, sequenceNumber } :
        RtpPacket).hasExtension = true from hext), if_pos hext, hprofile, hwords]
    · have hempty : elements = [] := by
        refine hnone (hbefore.symm.trans ?_)
        have hblock := haccepts.extensionBlock
        unfold HasExtensionBlock at hblock
        rwa [if_neg hext] at hblock
      rw [if_neg (show ¬ ({ p.fixed (byteAt p.buffer) with buffer, sequenceNumber } :
        RtpPacket).hasExtension = true from hext), if_neg hext, hempty]
      rfl
  have hblock : ({ p.fixed (byteAt p.buffer) with buffer, sequenceNumber } :
      RtpPacket).HasExtensionBlock (byteAt buffer) buffer.length elements := by
    have hold := haccepts.extensionBlock
    rw [hbefore] at hold
    unfold HasExtensionBlock at hold ⊢
    by_cases hext : (p.fixed (byteAt p.buffer)).hasExtension
    · obtain ⟨hprofile, hwords⟩ := hannounced hext
      rw [if_pos hext] at hold
      rw [if_pos (show ({ p.fixed (byteAt p.buffer) with buffer, sequenceNumber } :
        RtpPacket).hasExtension = true from hext)]
      unfold extensionWords at hold ⊢
      rw [hprofile, hwords, hlen]
      refine ⟨hold.1, ?_⟩
      have helements := hold.2
      split_ifs at helements ⊢ with hone
      · exact hsome _ _ (by rw [hstart]) helements
      · exact hnone helements
    · rw [if_neg hext] at hold
      rw [if_neg (show ¬ ({ p.fixed (byteAt p.buffer) with buffer, sequenceNumber } :
        RtpPacket).hasExtension = true from hext)]
      exact hnone hold
  -- The last byte, which gives the padding, is behind the header.
  have hpadded : ({ (p.fixed (byteAt p.buffer)).extended (byteAt p.buffer) before with
      buffer, sequenceNumber, extensions := elements } : RtpPacket).paddingOf (byteAt buffer)
        buffer.length =
      ((p.fixed (byteAt p.buffer)).extended (byteAt p.buffer) before).paddingOf (byteAt p.buffer)
        p.buffer.length := by
    have hbehind : kFixedHeaderSize ≤ p.payloadOffset := by
      rw [(partitions_of_parse h.parse).offset]
      omega
    unfold paddingOf
    rw [hlen]
    refine ite_congr rfl (fun hlast => ?_) fun _ => rfl
    have hroom : p.payloadOffset < p.buffer.length := hoffset ▸ hlast.2
    unfold kFixedHeaderSize at hbehind
    rw [hrest (p.buffer.length - 1) (by omega) (Or.inr (by omega))]
  refine ⟨h.size.trans hlen.symm, parse_iff.mpr ⟨elements, ⟨?_, ?_, ?_⟩, ?_⟩⟩
  · exact ⟨by rw [h0]; exact haccepts.fixedHeader.version, by
      rw [h0, hlen]; exact haccepts.fixedHeader.fits⟩
  · rw [hfixed]
    exact hblock
  · rw [hfixed, hextended, hpadded, hlen]
    exact haccepts.padding
  · unfold parsed
    rw [hfixed, hextended]
    unfold finished
    rw [hpadded, hlen]
    exact congrArg (fun q : RtpPacket => { q with buffer, sequenceNumber, extensions := elements })
      hparsed

/-- The sequence number that a packet holds is the one in its buffer. -/
theorem sequence_number_of_held (h : p.Held) :
    readUint16 (byteAt p.buffer) 2 = p.sequenceNumber := by
  obtain ⟨elements, -, hparsed⟩ := parse_iff.mp h.parse
  refine Eq.trans ?_ (congrArg sequenceNumber hparsed)
  unfold parsed extended
  split <;> rfl

/-- A packet holds at least a fixed header. -/
theorem fixed_header_of_held (h : p.Held) : kFixedHeaderSize ≤ p.buffer.length := by
  obtain ⟨elements, haccepts, -⟩ := parse_iff.mp h.parse
  have hfits := haccepts.fixedHeader.fits
  omega

/-- `UpdateSequenceNumber` writes the field and its two bytes. -/
theorem held_update_sequence_number (h : p.Held) (sequenceNumber : BitVec 16) :
    (p.updateSequenceNumber sequenceNumber).Held := by
  have hlong := fixed_header_of_held h
  unfold kFixedHeaderSize at hlong
  have hroom : 2 + (bytesOfUint16 sequenceNumber).length ≤ p.buffer.length := by
    show 2 + 2 ≤ _
    omega
  have hsame : ∀ i, i < 2 ∨ 4 ≤ i →
      byteAt (overwrite p.buffer 2 (bytesOfUint16 sequenceNumber)) i = byteAt p.buffer i :=
    fun i hi => byte_at_overwrite hroom hi
  unfold updateSequenceNumber
  rw [if_pos (by omega)]
  refine held_of_change h (overwrite_length hroom) (fun i hi => hsame i (Or.inl hi)) ?_
    (fun i hi _ => hsame i (Or.inr hi)) id fun extensionEnd offset hstart helements => ?_
  · have hbytes := map_byte_at_overwrite hroom
    have hhigh := congrArg (fun bytes => byteAt bytes 0) hbytes
    have hlow := congrArg (fun bytes => byteAt bytes 1) hbytes
    refine (congrArg₂ (fun a b : Byte => (a ++ b : BitVec 16)) hhigh hlow).trans ?_
    exact append_bytes_of_uint16 sequenceNumber
  · exact elements_congr helements fun i hi _ => hsame i (Or.inr (by omega))

/-- `UpdateAbsoluteSendTimestamp` writes the data of an extension and its bytes. -/
theorem held_update_absolute_send_timestamp (h : p.Held) (extensionId : Byte)
    (absSendTime : BitVec 32) : (p.updateAbsoluteSendTimestamp extensionId absSendTime).1.Held := by
  unfold updateAbsoluteSendTimestamp
  by_cases hprofile : p.extensionProfile = kOneByteExtensionProfileId
  · rw [if_neg (not_not.mpr hprofile)]
    simp only
    split
    · exact h
    · rename_i e hfind
      have hchosen : e.id = extensionId ∧ e.len = 3 ∧ e.dataOffset + 3 ≤ p.buffer.length := by
        simpa using List.find?_some hfind
      obtain ⟨hext, hbehind, hend⟩ :=
        (partitions_of_parse h.parse).inside e (List.mem_of_find?_eq_some hfind)
      have hroom : e.dataOffset + (bytesOfSendTime (absSendTime.setWidth 24)).length ≤
          p.buffer.length := hchosen.2.2
      have hsame : ∀ i, i < e.dataOffset ∨ e.dataOffset + e.len ≤ i →
          byteAt (overwrite p.buffer e.dataOffset (bytesOfSendTime (absSendTime.setWidth 24))) i =
            byteAt p.buffer i := by
        intro i hi
        rw [hchosen.2.1] at hi
        exact byte_at_overwrite hroom hi
      have hfront : 12 ≤ e.dataOffset := by
        unfold kFixedHeaderSize at hbehind
        omega
      refine held_of_change h (overwrite_length hroom) (fun i hi => hsame i (Or.inl (by omega))) ?_
        (fun i _ hi => hsame i ?_) (fun hnone => ?_)
        fun extensionEnd offset _ helements => ?_
      · rw [← sequence_number_of_held h]
        unfold readUint16
        rw [hsame _ (Or.inl (by omega)), hsame _ (Or.inl (by omega))]
      · rw [if_pos hext] at hi
        omega
      · rw [hnone] at hfind
        cases hfind
      · refine elements_replace helements hfind hsame ?_
        rw [hchosen.2.1]
        exact map_byte_at_overwrite hroom
  · rw [if_pos hprofile]
    exact h

/-- The calls that change a packet in place. -/
inductive Update
  | sequenceNumber (sequenceNumber : BitVec 16)
  | absoluteSendTimestamp (extensionId : Byte) (absSendTime : BitVec 32)

/-- A packet after such a call. -/
def update (p : RtpPacket) : Update → RtpPacket
  | .sequenceNumber sequenceNumber => p.updateSequenceNumber sequenceNumber
  | .absoluteSendTimestamp extensionId absSendTime =>
      (p.updateAbsoluteSendTimestamp extensionId absSendTime).1

/-- Every call leaves a packet that its buffer holds. -/
theorem held_update (h : p.Held) (update : Update) : (p.update update).Held := by
  cases update with
  | sequenceNumber sequenceNumber => exact held_update_sequence_number h sequenceNumber
  | absoluteSendTimestamp extensionId absSendTime =>
      exact held_update_absolute_send_timestamp h extensionId absSendTime

/-- And so do all of them. -/
theorem held_updates (h : p.Held) (updates : List Update) : (updates.foldl update p).Held := by
  induction updates generalizing p with
  | nil => exact h
  | cons update updates ih => exact ih (held_update h update)

/-- Nothing of another packet is kept when there is a block or both say the same about it. -/
theorem keeping_eq_iff : q.keeping p = q ↔ (q.hasExtension = false →
    q.extensionProfile = p.extensionProfile ∧ q.extensionLen = p.extensionLen) := by
  unfold keeping
  by_cases hext : q.hasExtension = true
  · rw [if_pos hext, if_pos hext]
    exact iff_of_true rfl fun hnone => absurd (hnone.symm.trans hext) Bool.false_ne_true
  · rw [if_neg hext, if_neg hext]
    constructor
    · intro h _
      exact ⟨(congrArg extensionProfile h).symm, (congrArg extensionLen h).symm⟩
    · intro h
      obtain ⟨hprofile, hlen⟩ := h (Bool.eq_false_iff.mpr hext)
      rw [← hprofile, ← hlen]

/-- A change in place does not touch the header of the extension block. -/
theorem update_block_header (p : RtpPacket) (update : Update) :
    (p.update update).hasExtension = p.hasExtension ∧
      (p.update update).extensionProfile = p.extensionProfile ∧
        (p.update update).extensionLen = p.extensionLen := by
  cases update with
  | sequenceNumber sequenceNumber =>
      show (p.updateSequenceNumber sequenceNumber).hasExtension = _ ∧
        (p.updateSequenceNumber sequenceNumber).extensionProfile = _ ∧
          (p.updateSequenceNumber sequenceNumber).extensionLen = _
      unfold updateSequenceNumber
      split <;> exact ⟨rfl, rfl, rfl⟩
  | absoluteSendTimestamp extensionId absSendTime =>
      show (p.updateAbsoluteSendTimestamp extensionId absSendTime).1.hasExtension = _ ∧
        (p.updateAbsoluteSendTimestamp extensionId absSendTime).1.extensionProfile = _ ∧
          (p.updateAbsoluteSendTimestamp extensionId absSendTime).1.extensionLen = _
      unfold updateAbsoluteSendTimestamp
      split
      · exact ⟨rfl, rfl, rfl⟩
      · simp only
        split <;> exact ⟨rfl, rfl, rfl⟩

/-- What was not kept at first is not kept after the changes. -/
theorem keeping_updates (h : q.keeping p = q) (updates : List Update) :
    (updates.foldl update q).keeping p = updates.foldl update q := by
  induction updates generalizing q with
  | nil => exact h
  | cons u updates ih =>
      obtain ⟨hext, hprofile, hlen⟩ := update_block_header q u
      refine ih (keeping_eq_iff.mpr ?_)
      rw [hext, hprofile, hlen]
      exact keeping_eq_iff.mp h

/-- `Parse` ends, since the loop needs one round for each byte of the block, and reads inside the
buffer only. The parts of a parsed buffer partition it, and a packet that was built and then changed
in place is what parsing its buffer again gives. -/
theorem parse_partitions_and_agrees (p : RtpPacket) (buffer : List Byte) :
    (∀ read extensionEnd offset fuel found, extensionEnd - offset ≤ fuel →
      parseOneByteExtensions read extensionEnd fuel offset found =
        parseOneByteExtensions read extensionEnd (extensionEnd - offset) offset found) ∧
    (∀ read, (∀ i < buffer.length, read i = byteAt buffer i) →
      p.parse read buffer.length = p.parse (byteAt buffer) buffer.length) ∧
    (∀ q, p.parse (byteAt buffer) buffer.length = (q, true) → q.Partitions buffer) ∧
    ∀ q, p.build buffer = (q, true) → q.Partitions q.buffer ∧ q.buffer = buffer ∧
      ∀ updates : List Update,
        p.build (updates.foldl update q).buffer = (updates.foldl update q, true) ∧
        ∀ r : RtpPacket, r.build (updates.foldl update q).buffer =
          ((updates.foldl update q).keeping r, true) := by
  refine ⟨?_, fun read hread => parse_congr hread, fun q hparse => partitions_of_parse hparse, ?_⟩
  · intro read extensionEnd offset fuel found hfuel
    obtain ⟨elements, fits, helements⟩ :=
      exists_elements read extensionEnd _ offset (le_refl _)
    rw [loop_of_elements helements fuel hfuel, loop_of_elements helements _ (le_refl _)]
  · intro q hbuild
    obtain ⟨hheld, hbuffer⟩ := held_of_build hbuild
    have hkept : q.keeping p = q := by
      have hagain := build_of_held hheld p
      rw [hbuffer, hbuild] at hagain
      exact (Prod.mk.inj hagain).1.symm
    refine ⟨partitions_of_parse hheld.parse, hbuffer, fun updates => ?_⟩
    have hheld' := held_updates hheld updates
    refine ⟨?_, build_of_held hheld'⟩
    rw [build_of_held hheld' p, keeping_updates hkept updates]

/-- Two contributing sources, a block with padding and two elements, and three bytes of padding:
after two changes in place a new packet reads the changed fields. -/
theorem parse_agrees_after_updates :
    let buffer : List Byte := [0xB2, 0xE0, 0, 7, 0, 0, 0, 9, 0, 0, 0, 1, 0, 0, 0, 2, 0, 0, 0, 3,
      0xBE, 0xDE, 0, 2, 0, 0x10, 0xAA, 0x32, 1, 2, 3, 0, 0x55, 0x66, 0, 0, 3]
    let q := (({} : RtpPacket).build buffer).1
    let q' := (q.update (.sequenceNumber 0x1234)).update (.absoluteSendTimestamp 3 0x040506)
    q.Partitions q.buffer ∧ ({} : RtpPacket).build q'.buffer = (q', true) ∧
      q'.sequenceNumber = 0x1234 ∧ q'.extensions.map (·.data) = [[0xAA], [4, 5, 6]] := by
  intro buffer q q'
  have hbuild : ({} : RtpPacket).build buffer = (q, true) := by decide
  obtain ⟨hparts, -, hagain⟩ := (parse_partitions_and_agrees {} buffer).2.2.2 q hbuild
  exact ⟨hparts, (hagain [.sequenceNumber 0x1234, .absoluteSendTimestamp 3 0x040506]).1,
    by decide, by decide⟩

end RtpPacket

end MiniRtc

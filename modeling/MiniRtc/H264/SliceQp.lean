import MiniRtc.H264.AnnexB
import MiniRtc.H264.SyntaxReading
import MiniRtc.Foundation.Run

/-!
# The quantizer of the last slice

For an access unit of parameter sets and slices the parser gets the quantizer of the last slice, when
the initial quantizer is in the range of eight bits. For any other bytes the quantizer is that of the
last slice which was parsed, as long as no other picture parameter set follows the slice.
-/

namespace MiniRtc.H264

open BitReader H264BitstreamParser

/-! ## Access units -/

/-- The payload of a NAL unit that begins with these bits. -/
structure Carrier (bits : List Bool) where
  longStartCode : Bool
  rbsp : List Byte
  carries : bits <+: bitsOfBytes rbsp

/-- A slice, and the payload that carries it. -/
abbrev CarriedSlice {sps : Sps} (pps : Pps sps) :=
  (slice : Slice pps) × Carrier slice.elements.flatten

/-- An access unit: the parameter sets, and one or more slices that refer to them. -/
structure AccessUnit where
  sps : Sps
  pps : Pps sps
  spsRefIdc : Fin 4
  ppsRefIdc : Fin 4
  spsCarrier : Carrier sps.elements.flatten
  ppsCarrier : Carrier pps.elements.flatten
  slices : List (CarriedSlice pps)
  last : CarriedSlice pps

namespace AccessUnit

variable (au : AccessUnit)

def spsUnit : NalUnit :=
  ⟨au.spsCarrier.longStartCode, au.spsRefIdc, 7, by decide, au.spsCarrier.rbsp⟩

def ppsUnit : NalUnit :=
  ⟨au.ppsCarrier.longStartCode, au.ppsRefIdc, 8, by decide, au.ppsCarrier.rbsp⟩

def sliceUnit {sps : Sps} {pps : Pps sps} (s : CarriedSlice pps) : NalUnit :=
  ⟨s.2.longStartCode, s.1.nalRefIdc, if s.1.isIdr then 5 else 1, by split_ifs <;> decide, s.2.rbsp⟩

/-- The access unit in the format of Annex B. -/
def bytes : List Byte :=
  byteStream (au.spsUnit :: au.ppsUnit :: (au.slices ++ [au.last]).map sliceUnit)

/-- `SliceQPY` of the last slice. -/
def qp : ℤ :=
  26 + au.pps.picInitQpMinus26 + au.last.1.sliceQpDelta

end AccessUnit

theorem nalu_type_header (unit : NalUnit) : naluType unit.header = unit.nalUnitType := by
  have hall : ∀ (idc : Fin 4) (type : Fin 32),
      naluType (BitVec.ofNat 8 (idc * 32 + type)) = type := by
    decide
  exact hall unit.nalRefIdc unit.nalUnitType

theorem nal_ref_idc_header (unit : NalUnit) : nalRefIdc unit.header = unit.nalRefIdc := by
  have hall : ∀ (idc : Fin 4) (type : Fin 32),
      nalRefIdc (BitVec.ofNat 8 (idc * 32 + type)) = idc := by
    decide
  exact hall unit.nalRefIdc unit.nalUnitType

/-- What is read of an escaped payload. -/
theorem carrier_bits {bits : List Bool} (carrier : Carrier bits) :
    ∃ later, bitsOfBytes (parseRbsp (escape carrier.rbsp)) = bits ++ later := by
  obtain ⟨rest, hrest⟩ := carrier.carries
  obtain ⟨tail, htail⟩ := parse_rbsp_escape carrier.rbsp
  refine ⟨rest ++ bitsOfBytes tail, ?_⟩
  rw [htail, ← List.append_assoc, hrest]
  exact List.flatMap_append

theorem yields_carrier {α : Type} {p : BitReader α} {bits : List Bool} {result : Option α}
    (carrier : Carrier bits) (h : Yields p bits result) :
    (p (bitsOfBytes (parseRbsp (escape carrier.rbsp)))).map Prod.fst = result := by
  obtain ⟨later, hlater⟩ := carrier_bits carrier
  rw [hlater, h later]
  cases result <;> rfl

namespace AccessUnit

variable {au : AccessUnit} {p : H264BitstreamParser}

theorem parse_sps_unit (au : AccessUnit) (p : H264BitstreamParser) :
    p.parseNalu au.spsUnit.payload = { p with sps := some au.sps.state } := by
  have hsps : parseSps (escape au.spsCarrier.rbsp) = some au.sps.state :=
    yields_carrier au.spsCarrier (reads_sps au.sps)
  have htype : naluType au.spsUnit.header = kNaluSps := nalu_type_header au.spsUnit
  show p.parseNalu (au.spsUnit.header :: escape au.spsCarrier.rbsp) = _
  rw [parse_nalu_cons, if_pos htype, hsps]

theorem parse_pps_unit (au : AccessUnit) (p : H264BitstreamParser) :
    p.parseNalu au.ppsUnit.payload =
      { p with pps := if -26 ≤ au.pps.picInitQpMinus26 then some au.pps.state else none } := by
  have hpps : parsePps (escape au.ppsCarrier.rbsp) =
      if -26 ≤ au.pps.picInitQpMinus26 then some au.pps.state else none :=
    yields_carrier au.ppsCarrier (yields_pps au.pps)
  have htype : naluType au.ppsUnit.header = kNaluPps := nalu_type_header au.ppsUnit
  have hother : naluType au.ppsUnit.header ≠ kNaluSps := by
    rw [htype]
    decide
  show p.parseNalu (au.ppsUnit.header :: escape au.ppsCarrier.rbsp) = _
  rw [parse_nalu_cons, if_neg hother, if_pos htype, hpps]

/-- The parser handles the NAL unit of a slice as one. -/
theorem parse_slice_unit {sps : Sps} {pps : Pps sps} (s : CarriedSlice pps) :
    p.parseNalu (sliceUnit s).payload = (p.parseSlice (sliceUnit s).payload).1 := by
  have htype : naluType (sliceUnit s).header = s.1.nalUnitType := by
    rw [nalu_type_header]
    show ((if s.1.isIdr then 5 else 1 : Fin 32)).val = if s.1.isIdr then 5 else 1
    cases s.1.isIdr <;> rfl
  have hslice : isSlice (sliceUnit s).header = true := by
    unfold isSlice
    rw [htype]
    unfold Slice.nalUnitType
    cases s.1.isIdr <;> decide
  have hsps : naluType (sliceUnit s).header ≠ kNaluSps := by
    rw [htype]
    unfold Slice.nalUnitType
    cases s.1.isIdr <;> decide
  have hpps : naluType (sliceUnit s).header ≠ kNaluPps := by
    rw [htype]
    unfold Slice.nalUnitType
    cases s.1.isIdr <;> decide
  show p.parseNalu ((sliceUnit s).header :: escape (sliceUnit s).rbsp) = _
  rw [parse_nalu_cons, if_neg hsps, if_neg hpps, if_pos hslice]
  rfl

/-- The payload of a slice has a byte after its header. -/
theorem slice_escape_ne {sps : Sps} {pps : Pps sps} (s : CarriedSlice pps) :
    escape s.2.rbsp ≠ [] := by
  intro hnil
  obtain ⟨later, hbits⟩ := carrier_bits s.2
  rw [hnil] at hbits
  have hempty : s.1.elements.flatten = [] := (List.append_eq_nil_iff.mp hbits.symm).1
  exact unsigned_golomb_ne_nil _ (List.append_eq_nil_iff.mp hempty).1

/-- A slice of the access unit is parsed up to its quantizer. -/
theorem parse_slice_delta {sps : Sps} {pps : Pps sps} (s : CarriedSlice pps)
    (hsps : p.sps = some sps.state) (hpps : p.pps = some pps.state)
    (hdelta : s.1.sliceQpDelta.val.natAbs ≤ 51) :
    (p.parseSlice (sliceUnit s).payload).1 =
      { p with lastSliceQpDelta := some s.1.sliceQpDelta.val } := by
  obtain ⟨byte, rest, hescape⟩ := List.exists_cons_of_ne_nil (slice_escape_ne s)
  obtain ⟨later, hlater⟩ := carrier_bits s.2
  have htype : naluType (sliceUnit s).header = s.1.nalUnitType := by
    rw [nalu_type_header]
    show ((if s.1.isIdr then 5 else 1 : Fin 32)).val = if s.1.isIdr then 5 else 1
    cases s.1.isIdr <;> rfl
  have hbits : bitsOfBytes (parseRbsp (sliceUnit s).payload) =
      (bitsOf 8 (sliceUnit s).header.toNat :: s.1.elements).flatten ++ later := by
    show bitsOfBytes (parseRbsp ((sliceUnit s).header :: escape s.2.rbsp)) = _
    rw [parse_rbsp_cons (sliceUnit s).header_ne, List.flatten_cons, List.append_assoc, ← hlater]
    rfl
  have hread := reads_slice s.1 (bitsOf 8 (sliceUnit s).header.toNat) (bits_of_length 8 _) hdelta
    later
  rw [← hbits, ← htype] at hread
  have hidc : nalRefIdc (sliceUnit s).header = s.1.nalRefIdc := nal_ref_idc_header _
  rw [← hidc] at hread
  have hpayload : (sliceUnit s).payload = (sliceUnit s).header :: byte :: rest :=
    congrArg (fun bytes => (sliceUnit s).header :: bytes) hescape
  unfold parseSlice
  rw [hsps, hpps]
  rw [hpayload] at hread ⊢
  simp only
  rw [hread]
  rfl

/-- The slices of an access unit, of which the last one decides. -/
theorem fold_slices {sps : Sps} {pps : Pps sps} (slices : List (CarriedSlice pps))
    (hsps : p.sps = some sps.state) (hpps : p.pps = some pps.state) :
    let after := (slices.map fun s => (sliceUnit s).payload).foldl parseNalu p
    after.sps = some sps.state ∧ after.pps = some pps.state := by
  induction slices generalizing p with
  | nil => exact ⟨hsps, hpps⟩
  | cons s slices ih =>
      obtain ⟨hsame, hsame'⟩ := parse_slice_sets (p := p) (sliceUnit s).payload
      refine ih ?_ ?_
      · rw [parse_slice_unit, hsame, hsps]
      · rw [parse_slice_unit, hsame', hpps]

/-- Without a picture parameter set the slices are ignored. -/
theorem fold_slices_without {sps : Sps} {pps : Pps sps} (slices : List (CarriedSlice pps))
    (hpps : p.pps = none) :
    (slices.map fun s => (sliceUnit s).payload).foldl parseNalu p = p := by
  induction slices with
  | nil => rfl
  | cons s slices ih =>
      rw [List.map_cons, List.foldl_cons, parse_slice_unit, parse_slice_without hpps, ih]

/-- The NAL units of an access unit. -/
theorem parse_bytes (au : AccessUnit) (p : H264BitstreamParser) :
    p.parseBitstream au.bytes =
      ((au.slices ++ [au.last]).map fun s => (sliceUnit s).payload).foldl parseNalu
        { sps := some au.sps.state
          pps := if -26 ≤ au.pps.picInitQpMinus26 then some au.pps.state else none
          lastSliceQpDelta := none } := by
  unfold parseBitstream bytes
  rw [find_nalu_indices_eq, List.map_cons, List.map_cons, List.foldl_cons, List.foldl_cons,
    parse_sps_unit, parse_pps_unit, List.map_map]
  rfl

/-- The quantizer of an access unit is found when the initial one is in the range of eight bits. -/
theorem last_slice_qp_iff (au : AccessUnit) (p : H264BitstreamParser)
    (hqp : 0 ≤ au.qp ∧ au.qp ≤ 51) :
    (p.parseBitstream au.bytes).getLastSliceQp = some au.qp ↔ -26 ≤ au.pps.picInitQpMinus26 := by
  rw [parse_bytes]
  by_cases hinit : -26 ≤ au.pps.picInitQpMinus26
  · rw [if_pos hinit, List.map_append, List.foldl_append]
    refine iff_of_true ?_ hinit
    obtain ⟨hsps, hpps⟩ := fold_slices (p := ⟨some au.sps.state, some au.pps.state, none⟩) au.slices
      rfl rfl
    generalize (au.slices.map fun s => (sliceUnit s).payload).foldl parseNalu _ = before at *
    have hdelta : au.last.1.sliceQpDelta.val.natAbs ≤ 51 := by
      have hmax := au.pps.init_qp_range.2
      unfold AccessUnit.qp at hqp
      omega
    show ((before.parseNalu (sliceUnit au.last).payload).getLastSliceQp) = some au.qp
    rw [parse_slice_unit, parse_slice_delta au.last hsps hpps hdelta]
    unfold getLastSliceQp
    rw [hpps]
    refine if_neg ?_
    show ¬ (au.qp < 0 ∨ au.qp > 51)
    omega
  · rw [if_neg hinit, fold_slices_without _ rfl]
    refine iff_of_false ?_ hinit
    intro hnone
    cases hnone

end AccessUnit

/-! ## Any bytes -/

/-- A parser, with the picture parameter set and the difference of the last slice that was parsed. -/
structure ParserHistory where
  parser : H264BitstreamParser := {}
  lastSlice : Option (PpsState × ℤ) := none

namespace ParserHistory

variable (h : ParserHistory)

/-- The NAL unit is a slice that is parsed. -/
def parsesSlice (nalu : List Byte) : Bool :=
  match nalu with
  | [] => false
  | header :: data => isSlice header && (h.parser.parseSlice (header :: data)).2

/-- `ParseNalu`. -/
def parseNalu (nalu : List Byte) : ParserHistory where
  parser := h.parser.parseNalu nalu
  lastSlice :=
    match h.parsesSlice nalu, h.parser.pps, (h.parser.parseNalu nalu).lastSliceQpDelta with
    | true, some pps, some sliceQpDelta => some (pps, sliceQpDelta)
    | _, _, _ => h.lastSlice

/-- The start of `ParseBitstream`. -/
def start : ParserHistory :=
  { h with parser := { h.parser with lastSliceQpDelta := none } }

/-- `ParseBitstream`. -/
def parseBitstream (bitstream : List Byte) : ParserHistory :=
  (findNaluIndices bitstream).foldl parseNalu h.start

/-- The quantizer is that of the last slice that was parsed. -/
def QpOfLastSlice : Prop :=
  ∀ qp, h.parser.getLastSliceQp = some qp →
    ∃ pps sliceQpDelta, h.lastSlice = some (pps, sliceQpDelta) ∧
      qp = 26 + pps.picInitQpMinus26 + sliceQpDelta

/-- A picture parameter set that follows a slice in its buffer has the initial quantizer of the
slice. -/
def KeepsInitQp (nalu : List Byte) : Prop :=
  h.parser.lastSliceQpDelta ≠ none →
    match nalu with
    | [] => True
    | header :: data => naluType header = kNaluPps → ∀ new ∈ parsePps data, ∀ used ∈ h.lastSlice,
        new.picInitQpMinus26 = used.1.picInitQpMinus26

instance (nalu : List Byte) : Decidable (h.KeepsInitQp nalu) := by
  cases nalu <;> unfold KeepsInitQp <;> infer_instance

/-- All parameter sets of a buffer do. -/
def BufferKeepsInitQp (bitstream : List Byte) : Prop :=
  Run.Along parseNalu KeepsInitQp h.start (findNaluIndices bitstream)

instance (bitstream : List Byte) : Decidable (h.BufferKeepsInitQp bitstream) :=
  inferInstanceAs (Decidable (Run.Along _ _ _ _))

/-- The difference is that of the last slice, and the initial quantizer has stayed the same since. -/
def Consistent : Prop :=
  ∀ sliceQpDelta, h.parser.lastSliceQpDelta = some sliceQpDelta →
    ∃ used, h.lastSlice = some (used, sliceQpDelta) ∧
      ∀ pps, h.parser.pps = some pps → pps.picInitQpMinus26 = used.picInitQpMinus26

variable {h}

/-- A buffer starts without a difference. -/
theorem consistent_start : h.start.Consistent := fun _ hnone => by cases hnone

/-- A NAL unit that is not parsed as a slice leaves the last one. -/
theorem parse_nalu_other {nalu : List Byte} (hother : h.parsesSlice nalu = false) :
    (h.parseNalu nalu).lastSlice = h.lastSlice := by
  unfold parseNalu
  rw [hother]

/-- What does not touch the difference and the picture parameter set keeps them consistent. -/
theorem consistent_of_same {h' : ParserHistory} (hc : h.Consistent)
    (hdelta : h'.parser.lastSliceQpDelta = h.parser.lastSliceQpDelta)
    (hpps : h'.parser.pps = h.parser.pps) (hlast : h'.lastSlice = h.lastSlice) :
    h'.Consistent := by
  unfold Consistent
  rw [hdelta, hpps, hlast]
  exact hc

/-- A slice that is parsed becomes the last one, and any other slice leaves no difference or is
ignored. -/
theorem consistent_slice (hc : h.Consistent) {header : Byte} {data : List Byte}
    (hslice : isSlice header = true) : (h.parseNalu (header :: data)).Consistent := by
  obtain ⟨hsps, hpps⟩ := is_slice_ne hslice
  have hparser : (h.parseNalu (header :: data)).parser =
      (h.parser.parseSlice (header :: data)).1 := by
    show h.parser.parseNalu (header :: data) = _
    rw [parse_nalu_cons, if_neg hsps, if_neg hpps, if_pos hslice]
  have hparses : h.parsesSlice (header :: data) = (h.parser.parseSlice (header :: data)).2 := by
    show (isSlice header && _) = _
    rw [hslice, Bool.true_and]
  rcases parse_slice_cases h.parser (header :: data) with
    ⟨pps, sliceQpDelta, hset, hparsed⟩ | hcleared | hignored
  · rw [hparsed] at hparser hparses
    have hlast : (h.parseNalu (header :: data)).lastSlice = some (pps, sliceQpDelta) := by
      have hdelta : (h.parser.parseNalu (header :: data)).lastSliceQpDelta = some sliceQpDelta :=
        congrArg H264BitstreamParser.lastSliceQpDelta hparser
      unfold parseNalu
      rw [hparses, hset, hdelta]
    intro delta hdelta
    rw [hparser] at hdelta
    obtain rfl := Option.some.inj hdelta
    refine ⟨pps, hlast, fun current hcurrent => ?_⟩
    rw [hparser] at hcurrent
    rw [Option.some.inj (hcurrent.symm.trans hset)]
  · rw [hcleared] at hparser
    intro delta hdelta
    rw [hparser] at hdelta
    cases hdelta
  · rw [hignored] at hparser hparses
    exact consistent_of_same hc (by rw [hparser]) (by rw [hparser]) (parse_nalu_other hparses)

theorem consistent_step (hc : h.Consistent) {nalu : List Byte} (hkeeps : h.KeepsInitQp nalu) :
    (h.parseNalu nalu).Consistent := by
  cases nalu with
  | nil => exact consistent_of_same hc rfl rfl (parse_nalu_other rfl)
  | cons header data =>
      by_cases hslice : isSlice header = true
      · exact consistent_slice hc hslice
      · have hother : (h.parseNalu (header :: data)).lastSlice = h.lastSlice := by
          refine parse_nalu_other ?_
          show (isSlice header && _) = false
          rw [Bool.eq_false_iff.mpr hslice, Bool.false_and]
        have hparser : (h.parseNalu (header :: data)).parser = h.parser.parseNalu (header :: data) :=
          rfl
        rw [parse_nalu_cons, if_neg hslice] at hparser
        split_ifs at hparser with hsps hpps
        · exact consistent_of_same hc (by rw [hparser]) (by rw [hparser]) hother
        · -- the new parameter set has the initial quantizer of the slice before it
          intro delta hdelta
          rw [hparser] at hdelta
          have hbefore : h.parser.lastSliceQpDelta = some delta := hdelta
          obtain ⟨used, hused, -⟩ := hc delta hbefore
          refine ⟨used, hother.trans hused, fun new hnew => ?_⟩
          rw [hparser] at hnew
          have hsome : h.parser.lastSliceQpDelta ≠ none := by
            rw [hbefore]
            exact Option.some_ne_none delta
          exact hkeeps hsome hpps new hnew _ hused
        · exact consistent_of_same hc (by rw [hparser]) (by rw [hparser]) hother

/-- A consistent history returns the quantizer of the last slice. -/
theorem qp_of_consistent (hc : h.Consistent) : h.QpOfLastSlice := by
  intro qp hqp
  unfold getLastSliceQp at hqp
  cases hpps : h.parser.pps with
  | none =>
      rw [hpps] at hqp
      cases hqp
  | some pps =>
      cases hdelta : h.parser.lastSliceQpDelta with
      | none =>
          rw [hpps, hdelta] at hqp
          cases hqp
      | some sliceQpDelta =>
          rw [hpps, hdelta] at hqp
          simp only at hqp
          split_ifs at hqp with hrange
          obtain ⟨used, hused, hsame⟩ := hc sliceQpDelta hdelta
          refine ⟨used, sliceQpDelta, hused, ?_⟩
          rw [← hsame pps hpps, ← Option.some.inj hqp]

/-- The parser of a history is the parser. -/
theorem parser_after_buffer (bitstream : List Byte) :
    (h.parseBitstream bitstream).parser = h.parser.parseBitstream bitstream := by
  have hfold : ∀ (nalus : List (List Byte)) (h : ParserHistory),
      (nalus.foldl parseNalu h).parser = nalus.foldl H264BitstreamParser.parseNalu h.parser := by
    intro nalus
    induction nalus with
    | nil => exact fun _ => rfl
    | cons nalu nalus ih => exact fun h => ih (h.parseNalu nalu)
  exact hfold _ _

/-- Buffers in which no picture parameter set with another initial quantizer follows a slice keep a
history consistent. -/
theorem consistent_buffers {buffers : List (List Byte)}
    (hkeeps : Run.Along parseBitstream BufferKeepsInitQp {} buffers) :
    (buffers.foldl parseBitstream {}).Consistent := by
  refine hkeeps.invariant (fun h bitstream _ hbuffer => ?_) fun _ hnone => (by cases hnone)
  exact Run.Along.invariant hbuffer (fun _ _ hc hkeep => consistent_step hc hkeep) consistent_start

/-- The quantizer of an access unit is found exactly when its initial quantizer is in the range of
eight bits. The quantizer after any buffers is that of the last slice that was parsed, when no picture
parameter set with another initial quantizer follows a slice in its buffer. -/
theorem last_slice_qp (au : AccessUnit) (p : H264BitstreamParser) (buffers : List (List Byte)) :
    (0 ≤ au.qp ∧ au.qp ≤ 51 →
      ((p.parseBitstream au.bytes).getLastSliceQp = some au.qp ↔
        -26 ≤ au.pps.picInitQpMinus26)) ∧
      (Run.Along parseBitstream BufferKeepsInitQp {} buffers →
        (buffers.foldl parseBitstream {}).QpOfLastSlice) := by
  constructor
  · intro hqp
    exact AccessUnit.last_slice_qp_iff au p hqp
  · intro hkeeps
    exact qp_of_consistent (consistent_buffers hkeeps)

/-! ## Two access units -/

/-- A sequence parameter set of the baseline profile. -/
def baselineSps : Sps where
  profileIdc := 66
  profile_ne := by decide
  constraintSetFlags := 0
  levelIdc := 30
  id := 0
  chromaInfo := ⟨1, false, 0, 0, false, false, fun _ => none⟩
  log2MaxFrameNumMinus4 := 0
  picOrderCntType := 2
  log2MaxPicOrderCntLsbMinus4 := 0
  deltaPicOrderAlwaysZeroFlag := false
  offsetForNonRefPic := ⟨0, by decide⟩
  offsetForTopToBottomField := ⟨0, by decide⟩
  numRefFramesInPicOrderCntCycle := 0
  offsetForRefFrame := fun _ => ⟨0, by decide⟩
  maxNumRefFrames := ⟨1, by decide⟩
  gapsInFrameNumValueAllowedFlag := false
  picWidthInMbsMinus1 := ⟨0, by decide⟩
  picHeightInMapUnitsMinus1 := ⟨0, by decide⟩
  frameMbsOnlyFlag := true

/-- A picture parameter set without anything special. -/
def plainPps : Pps baselineSps where
  id := 0
  entropyCodingModeFlag := false
  bottomFieldPicOrderInFramePresentFlag := false
  sliceGroups := ⟨0, 0, fun _ => ⟨0, by decide⟩, fun _ => ⟨0, by decide⟩, fun _ => ⟨0, by decide⟩,
    false, ⟨0, by decide⟩, ⟨0, by decide⟩, fun _ => 0⟩
  numRefIdxL0DefaultActiveMinus1 := 0
  numRefIdxL1DefaultActiveMinus1 := 0
  weightedPredFlag := false
  weightedBipredIdc := 0
  picInitQpMinus26 := 0
  init_qp_range := by decide
  picInitQsMinus26 := ⟨0, by decide⟩
  chromaQpIndexOffset := ⟨0, by decide⟩
  deblockingFilterControlPresentFlag := false
  constrainedIntraPredFlag := false
  redundantPicCntPresentFlag := false

/-- A slice of an IDR picture. -/
def idrSlice : Slice plainPps where
  isIdr := true
  nalRefIdc := 3
  firstMbInSlice := ⟨0, by decide⟩
  sliceType := 7
  colourPlaneId := 0
  frameNum := 0
  fieldPicFlag := false
  bottomFieldFlag := false
  idrPicId := ⟨0, by decide⟩
  picOrderCntLsb := 0
  deltaPicOrderCntBottom := ⟨0, by decide⟩
  deltaPicOrderCnt0 := ⟨0, by decide⟩
  deltaPicOrderCnt1 := ⟨0, by decide⟩
  redundantPicCnt := ⟨0, by decide⟩
  directSpatialMvPredFlag := false
  numRefIdxActiveOverrideFlag := false
  numRefIdxL0ActiveMinus1 := 0
  numRefIdxL1ActiveMinus1 := 0
  modificationsL0 := none
  modificationsL1 := none
  lumaLog2WeightDenom := ⟨0, by decide⟩
  chromaLog2WeightDenom := ⟨0, by decide⟩
  weightsL0 := fun _ => ⟨none, none⟩
  weightsL1 := fun _ => ⟨none, none⟩
  noOutputOfPriorPicsFlag := false
  longTermReferenceFlag := false
  adaptiveMarking := none
  cabacInitIdc := ⟨0, by decide⟩
  sliceQpDelta := ⟨4, by decide⟩

/-- An access unit of one slice. -/
def idrUnit : AccessUnit where
  sps := baselineSps
  pps := plainPps
  spsRefIdc := 3
  ppsRefIdc := 3
  spsCarrier := ⟨true, [0x42, 0x00, 0x1e, 0xda, 0x79], by decide +kernel⟩
  ppsCarrier := ⟨true, [0xce, 0x38, 0x80], by decide +kernel⟩
  slices := []
  last := ⟨idrSlice, ⟨false, [0x88, 0x84, 0x11], by decide +kernel⟩⟩

/-- The quantizer of a single access unit, also as that of any buffer. -/
theorem last_slice_qp_of_idr_unit :
    (H264BitstreamParser.parseBitstream {} idrUnit.bytes).getLastSliceQp = some 30 ∧
      QpOfLastSlice ([idrUnit.bytes].foldl parseBitstream {}) := by
  have hkeeps : Run.Along parseBitstream BufferKeepsInitQp {} [idrUnit.bytes] := by
    decide +kernel
  obtain ⟨hunit, hbuffers⟩ := last_slice_qp idrUnit {} [idrUnit.bytes]
  exact ⟨(hunit (by decide)).mpr (by decide), hbuffers hkeeps⟩

/-- The start of a second access unit: a picture parameter set with another initial quantizer. -/
def nextPps : List Byte :=
  [0, 0, 1, 0x68, 0x53, 0x80, 0xae, 0x20]

/-- The slice has the quantizer `30`, and the parser gives `20`. -/
theorem last_slice_qp_of_next_unit :
    ¬ ∀ buffers : List (List Byte), QpOfLastSlice (buffers.foldl parseBitstream {}) := by
  intro hall
  have hqp : ([idrUnit.bytes ++ nextPps].foldl parseBitstream {}).parser.getLastSliceQp =
      some 20 := by
    decide +kernel
  have hlast : ([idrUnit.bytes ++ nextPps].foldl parseBitstream {}).lastSlice =
      some (plainPps.state, 4) := by
    decide +kernel
  obtain ⟨pps, sliceQpDelta, hslice, hvalue⟩ := hall [idrUnit.bytes ++ nextPps] 20 hqp
  obtain ⟨rfl, rfl⟩ := Prod.mk.inj (Option.some.inj (hlast.symm.trans hslice))
  exact absurd hvalue (by decide)

end ParserHistory

end MiniRtc.H264

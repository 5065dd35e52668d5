import MiniRtc.H264.Syntax
import MiniRtc.H264.BitstreamParser
import Mathlib.Tactic.Ring
import Mathlib.Tactic.IntervalCases

/-!
# What is written is read

Each reader of the parser gets from the bits of its syntax elements what the parser has to remember of
them. The proofs go through the elements in their order, with one rule for each element and one for
each check.
-/

namespace MiniRtc.H264

open BitReader

variable {sps : Sps} {pps : Pps sps} {slice : Slice pps} {α : Type} {p : BitReader α}
  {bits : List Bool} {a : α}

/-! ## Elements -/

theorem reads_bits {n v : Nat} (hcount : n ≤ 32) (hv : v < 2 ^ n) :
    Reads (readBits n) (bitsOf n v) v := by
  have htake : Reads (take n) (bitsOf n v) (bitsOf n v) := by
    have h := reads_take (bitsOf n v)
    rw [bits_of_length] at h
    exact h
  have hread : Reads (take n >>= fun bits => pure (number bits)) [bitsOf n v].flatten
      (number (bitsOf n v)) :=
    htake.bind (reads_end _)
  rw [number_bits_of hv, List.flatten_cons, List.flatten_nil, List.append_nil] at hread
  exact yields_check hcount hread

theorem reads_bit (b : Bool) : Reads readBit [b] b := by
  cases b with
  | false => exact (reads_bits (n := 1) (v := 0) (by decide) (by decide)).map
  | true => exact (reads_bits (n := 1) (v := 1) (by decide) (by decide)).map

theorem reads_skip {n : Nat} (h : bits.length = n) : Reads (skipBits n) bits () :=
  (h ▸ reads_take bits).map

theorem reads_skip_bit (b : Bool) : Reads (skipBits 1) [b] () :=
  reads_skip rfl

theorem reads_skip_two (b b' : Bool) : Reads (skipBits 2) [b, b'] () :=
  reads_skip rfl

/-- A value that is read and forgotten. -/
theorem reads_void (h : Reads p bits a) : Reads ((fun _ => ()) <$> p) bits () :=
  h.map

theorem reads_leading_zeros {zeros allowed : Nat} (h : zeros < allowed) :
    Reads (readLeadingZeros allowed) (List.replicate zeros false ++ [true]) zeros := by
  induction zeros generalizing allowed with
  | zero =>
      obtain ⟨allowed, rfl⟩ : ∃ n, allowed = n + 1 := ⟨allowed - 1, by omega⟩
      exact (reads_bit true).append (reads_pure 0)
  | succ zeros ih =>
      obtain ⟨allowed, rfl⟩ : ∃ n, allowed = n + 1 := ⟨allowed - 1, by omega⟩
      exact (reads_bit false).append (ih (Nat.lt_of_succ_lt_succ h)).map

theorem reads_unsigned {n : Nat} (h : n < 2 ^ 32 - 1) :
    Reads readUnsignedGolomb (unsignedGolomb n) n := by
  have hzeros : Nat.log 2 (n + 1) < 32 := Nat.log_lt_of_lt_pow (Nat.succ_ne_zero n) (by omega)
  have hlow : 2 ^ Nat.log 2 (n + 1) ≤ n + 1 := Nat.pow_log_le_self 2 (Nat.succ_ne_zero n)
  have hhigh : n + 1 < 2 ^ (Nat.log 2 (n + 1) + 1) := Nat.lt_pow_succ_log_self (by decide) _
  unfold unsignedGolomb
  simp only
  generalize Nat.log 2 (n + 1) = zeros at hzeros hlow hhigh ⊢
  rw [Nat.pow_succ] at hhigh
  have hsuffix : Reads (readIf (zeros > 0) (readBits zeros) 0)
      (bitsOf zeros (n + 1 - 2 ^ zeros)) (n + 1 - 2 ^ zeros) := by
    have hread := reads_bits (n := zeros) (v := n + 1 - 2 ^ zeros) (by omega) (by omega)
    cases zeros with
    | zero =>
        have hzero : n = 0 := by omega
        rw [hzero]
        exact reads_pure 0
    | succ zeros => exact hread
  have hcode : 2 ^ zeros - 1 + (n + 1 - 2 ^ zeros) = n := by
    have := Nat.one_le_two_pow (n := zeros)
    omega
  rw [List.append_cons, ← List.append_nil (bitsOf _ _)]
  refine (reads_leading_zeros hzeros).append (hsuffix.append ?_)
  simp only [hcode]
  exact yields_check (by omega) (reads_pure n)

theorem reads_signed {v : ℤ} (h : -2 ^ 31 < v ∧ v < 2 ^ 31) :
    Reads readSignedGolomb (signedGolomb v) v := by
  obtain ⟨hlow, hhigh⟩ := h
  unfold signedGolomb
  generalize hcode : (if v > 0 then (2 * v - 1).toNat else (-2 * v).toNat) = codeNum
  have hrange : codeNum < 2 ^ 32 - 1 := by
    rw [← hcode]
    split_ifs <;> omega
  -- an odd code is a positive value, and an even one is not
  have hvalue : (if codeNum % 2 = 1 then (((codeNum + 1) / 2 : Nat) : ℤ)
      else -(((codeNum + 1) / 2 : Nat) : ℤ)) = v := by
    rw [← hcode]
    by_cases hpos : v > 0
    · rw [if_pos hpos, if_pos (by omega)]
      omega
    · rw [if_neg hpos, if_neg (by omega)]
      omega
  rw [← List.append_nil (unsignedGolomb codeNum)]
  refine (reads_unsigned hrange).append ?_
  simp only [hvalue]
  exact yields_check (by omega) (reads_pure v)

theorem reads_ue (n : Unsigned) : Reads readUnsignedGolomb (unsignedGolomb n) n :=
  reads_unsigned n.2

theorem reads_se (v : Signed) : Reads readSignedGolomb (signedGolomb v) v :=
  reads_signed v.2

theorem reads_fin {k : Nat} (n : Fin k) (hk : k ≤ 256) :
    Reads readUnsignedGolomb (unsignedGolomb n) n :=
  reads_unsigned (by omega)

/-- An element that is there when the reader expects it, and the value that the reader has then. -/
theorem reads_cond {c c' : Bool} {default v : α} (hc : c = c') (h : Reads p bits a)
    (hv : (if c' then a else default) = v) :
    Reads (readIf c p default) (present c' bits) v := by
  rw [hc, ← hv]
  exact Reads.cond fun _ => h

/-- An element that is forgotten, and that may be read differently where it is not there. -/
theorem reads_present_of {p : BitReader Unit} {c c' : Bool} (hc : c = c')
    (h : c' = true → Reads p bits ()) : Reads (readIf c p ()) (present c' bits) () := by
  have hread : Reads (readIf c' p ()) (present c' bits) (if c' then () else ()) := Reads.cond h
  rw [hc]
  exact hread

theorem reads_present {p : BitReader Unit} {c c' : Bool} (hc : c = c') (h : Reads p bits ()) :
    Reads (readIf c p ()) (present c' bits) () :=
  reads_present_of hc fun _ => h

/-- An element that the reader does not expect. -/
theorem yields_absent {p : BitReader Unit} {f : Unit → BitReader α} {c : Bool} {result : Option α}
    (hc : c = false) (hf : Yields (f ()) bits result) : Yields (readIf c p () >>= f) bits result := by
  rw [hc]
  exact (reads_pure ()).append hf

theorem reads_flagged {β : Type} {p : BitReader Unit} {bits : β → List Bool}
    (h : ∀ b, Reads p (bits b) ()) (o : Option β) :
    Reads (readFlagged p) (flagged bits o) () := by
  cases o with
  | none => exact (reads_bit false).append (reads_pure ())
  | some b => exact (reads_bit true).append (h b)

/-! ## Sequence parameter sets -/

theorem reads_scaling_list (i : Nat) (deltaScale : Nat → DeltaScale) :
    Reads (readScalingList i) (scalingList i deltaScale) () := by
  refine reads_void (reads_loop (scales deltaScale) _ fun j _ => ?_)
  have hdelta : Reads readSignedGolomb (signedGolomb (deltaScale j)) (deltaScale j) :=
    reads_signed (by have := (deltaScale j).2; omega)
  have hscale : Reads (do
      let delta ← readSignedGolomb
      guard (-128 ≤ delta ∧ delta ≤ 127)
      pure (((scales deltaScale j).1 + delta + 256) % 256)) (signedGolomb (deltaScale j))
      (((scales deltaScale j).1 + deltaScale j + 256) % 256) := by
    rw [← List.append_nil (signedGolomb _)]
    exact hdelta.append (yields_check (deltaScale j).2 (reads_pure _))
  rw [← List.append_nil (present _ _)]
  refine (reads_cond rfl hscale rfl).append ?_
  simp only [decide_eq_true_eq]
  exact reads_pure _

theorem reads_chroma_info (info : ChromaInfo) :
    Reads readHighProfile info.elements.flatten (info.chromaFormatIdc.val,
      decide (info.chromaFormatIdc.val = 3) && info.separateColourPlaneFlag) := by
  refine (reads_fin info.chromaFormatIdc (by decide)).bind ?_
  refine yields_check (by omega) ?_
  refine (reads_cond rfl (reads_bit info.separateColourPlaneFlag) rfl).bind ?_
  refine (reads_fin info.bitDepthLumaMinus8 (by decide)).bind ?_
  refine (reads_fin info.bitDepthChromaMinus8 (by decide)).bind ?_
  refine (reads_skip_bit _).bind ?_
  refine (reads_bit info.seqScalingMatrixPresentFlag).bind ?_
  refine (reads_present rfl (reads_loop (fun _ => ()) _ fun i _ =>
    reads_flagged (reads_scaling_list i) (info.scalingLists i))).bind ?_
  cases decide (info.chromaFormatIdc.val = 3) with
  | false => exact reads_end _
  | true => exact reads_end _

theorem reads_pic_order_offsets (sps : Sps) :
    Reads readPicOrderOffsets sps.picOrderOffsets.flatten sps.deltaPicOrderAlwaysZeroFlag := by
  refine (reads_bit sps.deltaPicOrderAlwaysZeroFlag).bind ?_
  refine (reads_se sps.offsetForNonRefPic).bind ?_
  refine (reads_se sps.offsetForTopToBottomField).bind ?_
  refine (reads_fin sps.numRefFramesInPicOrderCntCycle (by decide)).bind ?_
  refine yields_check (Nat.le_of_lt_succ sps.numRefFramesInPicOrderCntCycle.isLt) ?_
  refine (reads_loop (fun _ => ()) _ fun i _ => reads_void (reads_se (sps.offsetForRefFrame i))).bind ?_
  exact reads_end _

theorem reads_log2 (n : Fin 13) : Reads readLog2 (unsignedGolomb n) (n + 4) := by
  rw [← List.append_nil (unsignedGolomb _)]
  refine (reads_fin n (by decide)).append ?_
  exact yields_check (Nat.le_of_lt_succ n.isLt) (reads_pure _)

/-- The parser knows all profiles with information about chroma that a sequence parameter set has. -/
theorem is_high_profile_eq (sps : Sps) :
    isHighProfile sps.profileIdc = hasChromaInfo sps.profileIdc := by
  have hall : ∀ profile : Fin 256, profile.val ≠ 135 →
      isHighProfile profile = hasChromaInfo profile := by
    decide +kernel
  exact hall sps.profileIdc sps.profile_ne

/-- What the parser remembers of a sequence parameter set. -/
def Sps.state (sps : Sps) : SpsState where
  id := sps.id
  chromaFormatIdc := if hasChromaInfo sps.profileIdc then sps.chromaInfo.chromaFormatIdc else 1
  separateColourPlaneFlag := sps.separateColourPlane
  log2MaxFrameNum := sps.log2MaxFrameNumMinus4 + 4
  picOrderCntType := sps.picOrderCntType
  log2MaxPicOrderCntLsb :=
    if sps.picOrderCntType.val = 0 then sps.log2MaxPicOrderCntLsbMinus4 + 4 else 4
  deltaPicOrderAlwaysZeroFlag :=
    if sps.picOrderCntType.val = 1 then sps.deltaPicOrderAlwaysZeroFlag else false
  frameMbsOnlyFlag := sps.frameMbsOnlyFlag

theorem reads_sps (sps : Sps) : Reads readSps sps.elements.flatten sps.state := by
  refine (reads_bits (n := 8) (by decide) sps.profileIdc.isLt).bind ?_
  refine (reads_skip (n := 16) (by simp)).bind ?_
  refine (reads_fin sps.id (by decide)).bind ?_
  refine yields_check (Nat.le_of_lt_succ sps.id.isLt) ?_
  refine (reads_cond (is_high_profile_eq sps) (reads_chroma_info sps.chromaInfo) rfl).bind ?_
  refine (reads_log2 sps.log2MaxFrameNumMinus4).bind ?_
  refine (reads_fin sps.picOrderCntType (by decide)).bind ?_
  refine yields_check (Nat.le_of_lt_succ sps.picOrderCntType.isLt) ?_
  refine (reads_cond rfl (reads_log2 sps.log2MaxPicOrderCntLsbMinus4) rfl).bind ?_
  refine (reads_cond rfl (reads_pic_order_offsets sps) rfl).bind ?_
  refine (reads_ue sps.maxNumRefFrames).bind ?_
  refine (reads_skip_bit _).bind ?_
  refine (reads_ue sps.picWidthInMbsMinus1).bind ?_
  refine (reads_ue sps.picHeightInMapUnitsMinus1).bind ?_
  refine (reads_bit sps.frameMbsOnlyFlag).bind ?_
  simp only [decide_eq_true_eq]
  unfold Sps.state Sps.separateColourPlane
  cases hasChromaInfo sps.profileIdc with
  | false => exact reads_end _
  | true => exact reads_end _

/-! ## Picture parameter sets -/

theorem ceil_log2_groups (groups : Fin 8) :
    ceilLog2 (groups + 1) = Nat.clog 2 (groups + 1) := by
  have hall : ∀ n : Fin 8, ceilLog2 (n + 1) = Nat.clog 2 (n + 1) := by
    decide +kernel
  exact hall groups

/-- Elements of one size take as many bits as there are of them. -/
theorem flat_map_bits_length (n width : Nat) (value : Nat → Nat) :
    ((List.range n).flatMap fun i => bitsOf width (value i)).length = n * width := by
  rw [List.length_flatMap]
  simp

theorem reads_slice_groups (groups : SliceGroups) :
    Reads (readSliceGroups groups.numSliceGroupsMinus1) groups.mapElements.flatten () := by
  have hids := flat_map_bits_length (groups.picSizeInMapUnitsMinus1 + 1)
    (Nat.clog 2 (groups.numSliceGroupsMinus1 + 1)) groups.sliceGroupId
  refine (reads_fin groups.sliceGroupMapType (by decide)).bind ?_
  refine yields_check (Nat.le_of_lt_succ groups.sliceGroupMapType.isLt) ?_
  refine (reads_present rfl (reads_loop (fun _ => ()) _ fun i _ =>
    reads_void (reads_ue (groups.runLengthMinus1 i)))).bind ?_
  refine (reads_present rfl (reads_loop (fun _ => ()) _ fun i _ =>
    (reads_ue (groups.topLeft i)).bind (reads_void (reads_ue (groups.bottomRight i))).last)).bind ?_
  refine (reads_present rfl ((reads_skip_bit _).bind
    (reads_void (reads_ue groups.sliceGroupChangeRateMinus1)).last)).bind ?_
  refine (reads_present rfl ?_).last
  refine (reads_ue groups.picSizeInMapUnitsMinus1).bind ?_
  refine (reads_skip ?_).last
  rw [hids, ceil_log2_groups]

/-- What the parser remembers of a picture parameter set. -/
def Pps.state (pps : Pps sps) : PpsState where
  id := pps.id
  spsId := sps.id
  entropyCodingModeFlag := pps.entropyCodingModeFlag
  bottomFieldPicOrderInFramePresentFlag := pps.bottomFieldPicOrderInFramePresentFlag
  numRefIdxL0DefaultActiveMinus1 := pps.numRefIdxL0DefaultActiveMinus1
  numRefIdxL1DefaultActiveMinus1 := pps.numRefIdxL1DefaultActiveMinus1
  weightedPredFlag := pps.weightedPredFlag
  weightedBipredIdc := pps.weightedBipredIdc
  picInitQpMinus26 := pps.picInitQpMinus26
  redundantPicCntPresentFlag := pps.redundantPicCntPresentFlag

/-- A picture parameter set is read when its initial quantizer is in the range of eight bits. -/
theorem yields_pps (pps : Pps sps) :
    Yields readPps pps.elements.flatten
      (if -26 ≤ pps.picInitQpMinus26 then some pps.state else none) := by
  have hinit : -2 ^ 31 < pps.picInitQpMinus26 ∧ pps.picInitQpMinus26 < 2 ^ 31 := by
    have hoffset : sps.qpBdOffset ≤ 36 := by
      unfold Sps.qpBdOffset
      split_ifs <;> omega
    have := pps.init_qp_range
    omega
  refine (reads_fin pps.id (by decide)).bind ?_
  refine (reads_fin sps.id (by decide)).bind ?_
  refine yields_check (Nat.le_of_lt_succ pps.id.isLt) ?_
  refine yields_check (Nat.le_of_lt_succ sps.id.isLt) ?_
  refine (reads_bit pps.entropyCodingModeFlag).bind ?_
  refine (reads_bit pps.bottomFieldPicOrderInFramePresentFlag).bind ?_
  refine (reads_fin pps.sliceGroups.numSliceGroupsMinus1 (by decide)).bind ?_
  refine yields_check (Nat.le_of_lt_succ pps.sliceGroups.numSliceGroupsMinus1.isLt) ?_
  refine (reads_present rfl (reads_slice_groups pps.sliceGroups)).bind ?_
  refine (reads_fin pps.numRefIdxL0DefaultActiveMinus1 (by decide)).bind ?_
  refine (reads_fin pps.numRefIdxL1DefaultActiveMinus1 (by decide)).bind ?_
  refine yields_check (Nat.le_of_lt_succ pps.numRefIdxL0DefaultActiveMinus1.isLt) ?_
  refine yields_check (Nat.le_of_lt_succ pps.numRefIdxL1DefaultActiveMinus1.isLt) ?_
  refine (reads_bit pps.weightedPredFlag).bind ?_
  refine (reads_bits (n := 2) (by decide) pps.weightedBipredIdc.isLt).bind ?_
  refine (reads_signed hinit).bind ?_
  have hguard : (-26 ≤ pps.picInitQpMinus26 ∧ pps.picInitQpMinus26 ≤ 25) ↔
      -26 ≤ pps.picInitQpMinus26 :=
    and_iff_left pps.init_qp_range.2
  rw [← if_congr hguard rfl rfl]
  refine yields_guard fun _ => ?_
  refine (reads_se pps.picInitQsMinus26).bind ?_
  refine (reads_se pps.chromaQpIndexOffset).bind ?_
  refine (reads_skip_two _ _).bind ?_
  refine (reads_bit pps.redundantPicCntPresentFlag).bind ?_
  exact reads_end _

/-! ## Slice headers -/

theorem unsigned_golomb_ne_nil (n : Nat) : unsignedGolomb n ≠ [] := by
  unfold unsignedGolomb
  simp

theorem reads_modification (modification : Modification) :
    Reads readModification modification.bits true := by
  refine (reads_fin modification.modificationOfPicNumsIdc (by decide)).bind ?_
  refine (reads_present rfl (reads_void (reads_ue modification.absDiffPicNumMinus1))).bind ?_
  refine (reads_present rfl (reads_void (reads_ue modification.longTermPicNum))).bind ?_
  refine yields_check (by omega) ?_
  have hcontinue : decide (modification.modificationOfPicNumsIdc.val ≠ 3) = true :=
    decide_eq_true (by omega)
  rw [hcontinue]
  exact reads_end true

theorem reads_last_modification : Reads readModification (unsignedGolomb 3) false := by
  rw [← List.append_nil (unsignedGolomb 3)]
  refine (reads_unsigned (by decide)).append ?_
  exact yields_absent rfl (yields_absent rfl (yields_check (by decide) (reads_pure false)))

theorem reads_ref_pic_list_modification (modifications : Option (List Modification)) :
    Reads readRefPicListModification (refPicListModification modifications) () := by
  refine reads_flagged (fun modifications => ?_) modifications
  refine reads_do_while reads_last_modification (fun modification _ =>
    reads_modification modification) fun modification => ?_
  exact List.append_ne_nil_of_left_ne_nil (unsigned_golomb_ne_nil _) _

theorem reads_marking (marking : Marking) : Reads readMarking marking.bits true := by
  refine (reads_fin marking.operation (by decide)).bind ?_
  refine yields_check (by omega) ?_
  refine (reads_present rfl (reads_void (reads_ue marking.differenceOfPicNumsMinus1))).bind ?_
  refine (reads_present rfl (reads_void (reads_ue marking.longTermPicNum))).bind ?_
  refine (reads_present rfl (reads_void (reads_ue marking.longTermFrameIdx))).bind ?_
  refine (reads_present rfl (reads_void (reads_ue marking.maxLongTermFrameIdxPlus1))).bind ?_
  have hcontinue : decide (marking.operation.val ≠ 0) = true :=
    decide_eq_true marking.operation_ne
  rw [hcontinue]
  exact reads_end true

theorem reads_last_marking : Reads readMarking (unsignedGolomb 0) false := by
  rw [← List.append_nil (unsignedGolomb 0)]
  refine (reads_unsigned (by decide)).append (yields_check (by decide) ?_)
  exact yields_absent rfl (yields_absent rfl (yields_absent rfl (yields_absent rfl
    (reads_pure false))))

theorem reads_adaptive_marking (operations : Option (List Marking)) :
    Reads (readFlagged (doWhile readMarking)) (adaptiveRefPicMarking operations) () := by
  refine reads_flagged (fun operations => ?_) operations
  refine reads_do_while reads_last_marking (fun marking _ => reads_marking marking) fun marking => ?_
  exact List.append_ne_nil_of_left_ne_nil (unsigned_golomb_ne_nil _) _

theorem reads_weight (weight : Signed × Signed) : Reads readWeight (weightBits weight) () :=
  (reads_se weight.1).bind (reads_void (reads_se weight.2)).last

theorem reads_weight_table (maxIndex : Nat) (weights : Nat → Weights) :
    Reads (skipWeightTable sps.state maxIndex)
      ((List.range (maxIndex + 1)).flatMap fun i => (weights i).bits sps.chromaArrayType) () := by
  refine reads_loop (fun _ => ()) _ fun i _ => ?_
  refine (reads_flagged reads_weight (weights i).luma).bind ?_
  refine (reads_present rfl ?_).last
  exact reads_flagged (fun weight => reads_loop (fun _ => ()) 2 fun component _ =>
    reads_weight (weight component)) (weights i).chroma

theorem reads_pred_weight_table (slice : Slice pps) :
    Reads (readPredWeightTable sps.state (slice.sliceType % 5) slice.maxIndexL0 slice.maxIndexL1)
      slice.weightElements.flatten () := by
  refine (reads_ue slice.lumaLog2WeightDenom).bind ?_
  refine (reads_present rfl (reads_void (reads_ue slice.chromaLog2WeightDenom))).bind ?_
  refine (reads_weight_table slice.maxIndexL0 slice.weightsL0).bind ?_
  exact (reads_present rfl (reads_weight_table slice.maxIndexL1 slice.weightsL1)).last

theorem reads_dec_ref_pic_marking (slice : Slice pps) :
    Reads (readDecRefPicMarking slice.isIdr) slice.markingElements.flatten () := by
  refine (reads_present rfl (reads_skip_two _ _)).bind ?_
  exact (reads_present rfl (reads_adaptive_marking slice.adaptiveMarking)).last

theorem reads_pic_order (slice : Slice pps) :
    Reads (readPicOrder sps.state pps.state slice.isField) slice.picOrderElements.flatten () := by
  have hoffsets : (decide (sps.picOrderCntType.val = 1) &&
      !sps.state.deltaPicOrderAlwaysZeroFlag) =
      (decide (sps.picOrderCntType.val = 1) && !sps.deltaPicOrderAlwaysZeroFlag) := by
    unfold Sps.state
    by_cases htype : sps.picOrderCntType.val = 1
    · simp only [htype, if_true]
    · simp only [htype, decide_false, Bool.false_and]
  refine (reads_present_of rfl fun htype => ?_).bind ?_
  · refine reads_skip ?_
    rw [bits_of_length]
    exact (if_pos (of_decide_eq_true htype)).symm
  refine (reads_present rfl (reads_void (reads_se slice.deltaPicOrderCntBottom))).bind ?_
  refine (reads_present hoffsets (reads_void (reads_se slice.deltaPicOrderCnt0))).bind ?_
  refine (reads_present ?_ (reads_void (reads_se slice.deltaPicOrderCnt1))).last
  exact congrArg (fun c => c && pps.bottomFieldPicOrderInFramePresentFlag && !slice.isField) hoffsets

/-- A number of references that is in the range of the parser. -/
theorem reads_reference_index (n : Fin 32) :
    Reads (do
      let numRefIdx ← readUnsignedGolomb
      guard (numRefIdx ≤ kMaxReferenceIndex)
      pure numRefIdx) (unsignedGolomb n) n := by
  rw [← List.append_nil (unsignedGolomb _)]
  refine (reads_fin n (by decide)).append ?_
  exact yields_check (Nat.le_of_lt_succ n.isLt) (reads_pure n.val)

theorem reads_num_ref_idx (slice : Slice pps) :
    Reads (readNumRefIdx pps.state (slice.sliceType % 5)) slice.numRefIdxElements.flatten
      (slice.maxIndexL0, slice.maxIndexL1) := by
  have hpredicted : decide (slice.sliceType.val % 5 = kSliceP ∨ slice.sliceType.val % 5 = kSliceB ∨
      slice.sliceType.val % 5 = kSliceSp) = (slice.isP || slice.isB || slice.isSp) := by
    unfold Slice.isP Slice.isB Slice.isSp kSliceP kSliceB kSliceSp
    simp only [Bool.decide_or, Bool.or_assoc]
  have hoverrides : (if slice.isP || slice.isB || slice.isSp then slice.numRefIdxActiveOverrideFlag
      else false) = slice.overrides := by
    unfold Slice.overrides
    cases slice.isP || slice.isB || slice.isSp <;> rfl
  refine (reads_cond hpredicted (reads_bit slice.numRefIdxActiveOverrideFlag) hoverrides).bind ?_
  refine (reads_cond rfl (reads_reference_index slice.numRefIdxL0ActiveMinus1) rfl).bind ?_
  refine (reads_cond rfl (reads_reference_index slice.numRefIdxL1ActiveMinus1) rfl).bind ?_
  exact reads_end _

/-- A slice without prediction from other pictures. -/
theorem intra_iff (slice : Slice pps) :
    decide (slice.sliceType.val % 5 ≠ kSliceI ∧ slice.sliceType.val % 5 ≠ kSliceSi) =
      (!slice.isI && !slice.isSi) := by
  unfold Slice.isI Slice.isSi kSliceI kSliceSi
  simp only [Bool.decide_and, decide_not]

/-- `nal_unit_type` of a slice. -/
def Slice.nalUnitType (slice : Slice pps) : Nat :=
  if slice.isIdr then 5 else 1

/-- The difference of the quantizer is read from a slice that refers to the parameter sets. -/
theorem reads_slice (slice : Slice pps) (header : List Bool) (hheader : header.length = 8)
    (hdelta : slice.sliceQpDelta.val.natAbs ≤ 51) :
    Reads (readSlice sps.state pps.state slice.nalUnitType slice.nalRefIdc)
      (header :: slice.elements).flatten slice.sliceQpDelta.val := by
  have hidr : decide (slice.nalUnitType = kNaluIdr) = slice.isIdr := by
    unfold Slice.nalUnitType
    cases slice.isIdr <;> rfl
  have hother : ¬ (slice.nalUnitType = 20 ∨ slice.nalUnitType = 21) := by
    unfold Slice.nalUnitType
    split_ifs <;> decide
  have hweights : hasPredWeightTable pps.state (slice.sliceType.val % 5) =
      ((pps.weightedPredFlag && (slice.isP || slice.isSp)) ||
        (decide (pps.weightedBipredIdc.val = 1) && slice.isB)) := by
    unfold hasPredWeightTable Slice.isP Slice.isSp Slice.isB kSliceP kSliceSp kSliceB
    simp only [Bool.decide_or]
    rfl
  have hfield : (if !sps.frameMbsOnlyFlag then slice.fieldPicFlag else false) = slice.isField := by
    unfold Slice.isField
    cases sps.frameMbsOnlyFlag <;> rfl
  have hmarking : Reads (readDecRefPicMarking (slice.nalUnitType = kNaluIdr))
      slice.markingElements.flatten () := by
    rw [hidr]
    exact reads_dec_ref_pic_marking slice
  refine (reads_skip hheader).bind ?_
  refine (reads_ue slice.firstMbInSlice).bind ?_
  refine (reads_fin slice.sliceType (by decide)).bind ?_
  refine (reads_fin pps.id (by decide)).bind ?_
  refine yields_check rfl (yields_check rfl ?_)
  refine (reads_present rfl (reads_skip (bits_of_length 2 _))).bind ?_
  refine (reads_skip (bits_of_length _ _)).bind ?_
  refine (reads_cond rfl (reads_bit slice.fieldPicFlag) hfield).bind ?_
  refine (reads_present rfl (reads_skip_bit _)).bind ?_
  refine (reads_present hidr (reads_void (reads_ue slice.idrPicId))).bind ?_
  refine (reads_pic_order slice).bind ?_
  refine (reads_present rfl (reads_void (reads_ue slice.redundantPicCnt))).bind ?_
  refine (reads_present rfl (reads_skip_bit _)).bind ?_
  refine (reads_num_ref_idx slice).bind ?_
  refine yields_check hother ?_
  refine (reads_present (intra_iff slice)
    (reads_ref_pic_list_modification slice.modificationsL0)).bind ?_
  refine (reads_present rfl (reads_ref_pic_list_modification slice.modificationsL1)).bind ?_
  refine (reads_present hweights (reads_pred_weight_table slice)).bind ?_
  refine (reads_present rfl hmarking).bind ?_
  refine (reads_present ?_ (reads_void (reads_ue slice.cabacInitIdc))).bind ?_
  · rw [intra_iff slice, Bool.and_assoc]
    rfl
  refine (reads_se slice.sliceQpDelta).bind ?_
  exact yields_check hdelta (reads_end _)

end MiniRtc.H264

import MiniRtc.Foundation.BitReader
import Mathlib.Data.Nat.Log
import Mathlib.Algebra.Group.Int.Defs
import Mathlib.Data.Int.Order.Basic

/-!
# The syntax of parameter sets and slice headers

Parameter sets and slice headers as H.264 defines them, each with the bits of its syntax elements in
their order. The elements that a condition of the syntax leaves out have values here all the same,
which are not written. What follows the last element that is written here is left open.
-/

namespace MiniRtc.H264

open BitReader

/-- The values of `ue(v)`. -/
abbrev Unsigned :=
  { n : Nat // n < 2 ^ 32 - 1 }

/-- The values of `se(v)`. -/
abbrev Signed :=
  { v : ℤ // -2 ^ 31 < v ∧ v < 2 ^ 31 }

/-- `ue(v)`: as many zeros as bits follow the first one. -/
def unsignedGolomb (codeNum : Nat) : List Bool :=
  let zeros := Nat.log 2 (codeNum + 1)
  List.replicate zeros false ++ true :: bitsOf zeros (codeNum + 1 - 2 ^ zeros)

/-- `se(v)`. -/
def signedGolomb (v : ℤ) : List Bool :=
  unsignedGolomb (if v > 0 then (2 * v - 1).toNat else (-2 * v).toNat)

/-- A flag, and what it announces. -/
def flagged {α : Type} (bits : α → List Bool) : Option α → List Bool
  | none => [false]
  | some a => true :: bits a

/-! ## Sequence parameter sets -/

/-- The profiles with information about chroma. -/
def hasChromaInfo (profileIdc : Nat) : Bool :=
  [100, 110, 122, 244, 44, 83, 86, 118, 128, 138, 139, 134, 135].contains profileIdc

/-- `delta_scale`. -/
abbrev DeltaScale :=
  { v : ℤ // -128 ≤ v ∧ v ≤ 127 }

/-- `lastScale` and `nextScale` before the entry `j` of a scaling list. -/
def scales (deltaScale : Nat → DeltaScale) : Nat → ℤ × ℤ
  | 0 => (8, 8)
  | j + 1 =>
      let before := scales deltaScale j
      let nextScale := if before.2 ≠ 0 then (before.1 + deltaScale j + 256) % 256 else before.2
      (if nextScale ≠ 0 then nextScale else before.1, nextScale)

/-- `scaling_list`, for the list `i`. -/
def scalingList (i : Nat) (deltaScale : Nat → DeltaScale) : List Bool :=
  (List.range (if i < 6 then 16 else 64)).flatMap fun j =>
    present ((scales deltaScale j).2 ≠ 0) (signedGolomb (deltaScale j))

structure ChromaInfo where
  chromaFormatIdc : Fin 4
  separateColourPlaneFlag : Bool
  bitDepthLumaMinus8 : Fin 7
  bitDepthChromaMinus8 : Fin 7
  qpprimeYZeroTransformBypassFlag : Bool
  seqScalingMatrixPresentFlag : Bool
  scalingLists : Nat → Option (Nat → DeltaScale)

namespace ChromaInfo

variable (info : ChromaInfo)

def elements : List (List Bool) :=
  [unsignedGolomb info.chromaFormatIdc,
    present (info.chromaFormatIdc.val = 3) [info.separateColourPlaneFlag],
    unsignedGolomb info.bitDepthLumaMinus8,
    unsignedGolomb info.bitDepthChromaMinus8,
    [info.qpprimeYZeroTransformBypassFlag],
    [info.seqScalingMatrixPresentFlag],
    present info.seqScalingMatrixPresentFlag
      ((List.range (if info.chromaFormatIdc.val = 3 then 12 else 8)).flatMap fun i =>
        flagged (scalingList i) (info.scalingLists i))]

end ChromaInfo

/-- A sequence parameter set. The profile `135` is that of subset parameter sets only, which are
other NAL units. -/
structure Sps where
  profileIdc : Fin 256
  profile_ne : profileIdc.val ≠ 135
  constraintSetFlags : Nat
  levelIdc : Nat
  id : Fin 32
  chromaInfo : ChromaInfo
  log2MaxFrameNumMinus4 : Fin 13
  picOrderCntType : Fin 3
  log2MaxPicOrderCntLsbMinus4 : Fin 13
  deltaPicOrderAlwaysZeroFlag : Bool
  offsetForNonRefPic : Signed
  offsetForTopToBottomField : Signed
  numRefFramesInPicOrderCntCycle : Fin 256
  offsetForRefFrame : Nat → Signed
  maxNumRefFrames : Unsigned
  gapsInFrameNumValueAllowedFlag : Bool
  picWidthInMbsMinus1 : Unsigned
  picHeightInMapUnitsMinus1 : Unsigned
  frameMbsOnlyFlag : Bool

namespace Sps

variable (sps : Sps)

def picOrderOffsets : List (List Bool) :=
  [[sps.deltaPicOrderAlwaysZeroFlag],
    signedGolomb sps.offsetForNonRefPic,
    signedGolomb sps.offsetForTopToBottomField,
    unsignedGolomb sps.numRefFramesInPicOrderCntCycle,
    (List.range sps.numRefFramesInPicOrderCntCycle).flatMap fun i =>
      signedGolomb (sps.offsetForRefFrame i)]

/-- `seq_parameter_set_data`. -/
def elements : List (List Bool) :=
  [bitsOf 8 sps.profileIdc,
    bitsOf 8 sps.constraintSetFlags ++ bitsOf 8 sps.levelIdc,
    unsignedGolomb sps.id,
    present (hasChromaInfo sps.profileIdc) sps.chromaInfo.elements.flatten,
    unsignedGolomb sps.log2MaxFrameNumMinus4,
    unsignedGolomb sps.picOrderCntType,
    present (sps.picOrderCntType.val = 0) (unsignedGolomb sps.log2MaxPicOrderCntLsbMinus4),
    present (sps.picOrderCntType.val = 1) sps.picOrderOffsets.flatten,
    unsignedGolomb sps.maxNumRefFrames,
    [sps.gapsInFrameNumValueAllowedFlag],
    unsignedGolomb sps.picWidthInMbsMinus1,
    unsignedGolomb sps.picHeightInMapUnitsMinus1,
    [sps.frameMbsOnlyFlag]]

/-- `separate_colour_plane_flag`, which is not set without information about chroma. -/
def separateColourPlane : Bool :=
  hasChromaInfo sps.profileIdc && sps.chromaInfo.chromaFormatIdc.val = 3 &&
    sps.chromaInfo.separateColourPlaneFlag

/-- `ChromaArrayType`. The format is `1` without information about it. -/
def chromaArrayType : Nat :=
  if sps.separateColourPlane then 0
  else if hasChromaInfo sps.profileIdc then sps.chromaInfo.chromaFormatIdc
  else 1

/-- `QpBdOffsetY`. -/
def qpBdOffset : Nat :=
  if hasChromaInfo sps.profileIdc then 6 * sps.chromaInfo.bitDepthLumaMinus8.val else 0

end Sps

/-! ## Picture parameter sets -/

/-- The slice groups of a picture. -/
structure SliceGroups where
  numSliceGroupsMinus1 : Fin 8
  sliceGroupMapType : Fin 7
  runLengthMinus1 : Nat → Unsigned
  topLeft : Nat → Unsigned
  bottomRight : Nat → Unsigned
  sliceGroupChangeDirectionFlag : Bool
  sliceGroupChangeRateMinus1 : Unsigned
  picSizeInMapUnitsMinus1 : Unsigned
  sliceGroupId : Nat → Nat

namespace SliceGroups

variable (groups : SliceGroups)

def mapElements : List (List Bool) :=
  [unsignedGolomb groups.sliceGroupMapType,
    present (groups.sliceGroupMapType.val = 0)
      ((List.range (groups.numSliceGroupsMinus1 + 1)).flatMap fun i =>
        unsignedGolomb (groups.runLengthMinus1 i)),
    present (groups.sliceGroupMapType.val = 2)
      ((List.range groups.numSliceGroupsMinus1).flatMap fun i =>
        [unsignedGolomb (groups.topLeft i), unsignedGolomb (groups.bottomRight i)].flatten),
    present (3 ≤ groups.sliceGroupMapType.val ∧ groups.sliceGroupMapType.val ≤ 5)
      [[groups.sliceGroupChangeDirectionFlag],
        unsignedGolomb groups.sliceGroupChangeRateMinus1].flatten,
    present (groups.sliceGroupMapType.val = 6)
      [unsignedGolomb groups.picSizeInMapUnitsMinus1,
        (List.range (groups.picSizeInMapUnitsMinus1 + 1)).flatMap fun i =>
          bitsOf (Nat.clog 2 (groups.numSliceGroupsMinus1 + 1)) (groups.sliceGroupId i)].flatten]

end SliceGroups

/-- A picture parameter set for a sequence. -/
structure Pps (sps : Sps) where
  id : Fin 256
  entropyCodingModeFlag : Bool
  bottomFieldPicOrderInFramePresentFlag : Bool
  sliceGroups : SliceGroups
  numRefIdxL0DefaultActiveMinus1 : Fin 32
  numRefIdxL1DefaultActiveMinus1 : Fin 32
  weightedPredFlag : Bool
  weightedBipredIdc : Fin 4
  picInitQpMinus26 : ℤ
  init_qp_range : -(26 + (sps.qpBdOffset : ℤ)) ≤ picInitQpMinus26 ∧ picInitQpMinus26 ≤ 25
  picInitQsMinus26 : Signed
  chromaQpIndexOffset : Signed
  deblockingFilterControlPresentFlag : Bool
  constrainedIntraPredFlag : Bool
  redundantPicCntPresentFlag : Bool

namespace Pps

variable {sps : Sps} (pps : Pps sps)

/-- `pic_parameter_set_rbsp`, up to `redundant_pic_cnt_present_flag`. -/
def elements : List (List Bool) :=
  [unsignedGolomb pps.id,
    unsignedGolomb sps.id,
    [pps.entropyCodingModeFlag],
    [pps.bottomFieldPicOrderInFramePresentFlag],
    unsignedGolomb pps.sliceGroups.numSliceGroupsMinus1,
    present (pps.sliceGroups.numSliceGroupsMinus1.val > 0) pps.sliceGroups.mapElements.flatten,
    unsignedGolomb pps.numRefIdxL0DefaultActiveMinus1,
    unsignedGolomb pps.numRefIdxL1DefaultActiveMinus1,
    [pps.weightedPredFlag],
    bitsOf 2 pps.weightedBipredIdc,
    signedGolomb pps.picInitQpMinus26,
    signedGolomb pps.picInitQsMinus26,
    signedGolomb pps.chromaQpIndexOffset,
    [pps.deblockingFilterControlPresentFlag, pps.constrainedIntraPredFlag],
    [pps.redundantPicCntPresentFlag]]

end Pps

/-! ## Slice headers -/

/-- A modification of a reference list: `modification_of_pic_nums_idc`, which does not end the list,
and the values that may follow it. -/
structure Modification where
  modificationOfPicNumsIdc : Fin 3
  absDiffPicNumMinus1 : Unsigned
  longTermPicNum : Unsigned

/-- An operation of reference marking: `memory_management_control_operation`, which does not end the
list, and the values that may follow it. -/
structure Marking where
  operation : Fin 7
  operation_ne : operation.val ≠ 0
  differenceOfPicNumsMinus1 : Unsigned
  longTermPicNum : Unsigned
  longTermFrameIdx : Unsigned
  maxLongTermFrameIdxPlus1 : Unsigned

/-- The weights and offsets for one reference. -/
structure Weights where
  luma : Option (Signed × Signed)
  chroma : Option (Nat → Signed × Signed)

/-- A slice of a picture. The first field tells an IDR picture, of which the NAL units have a type of
their own. -/
structure Slice {sps : Sps} (pps : Pps sps) where
  isIdr : Bool
  nalRefIdc : Fin 4
  firstMbInSlice : Unsigned
  sliceType : Fin 10
  colourPlaneId : Nat
  frameNum : Nat
  fieldPicFlag : Bool
  bottomFieldFlag : Bool
  idrPicId : Unsigned
  picOrderCntLsb : Nat
  deltaPicOrderCntBottom : Signed
  deltaPicOrderCnt0 : Signed
  deltaPicOrderCnt1 : Signed
  redundantPicCnt : Unsigned
  directSpatialMvPredFlag : Bool
  numRefIdxActiveOverrideFlag : Bool
  numRefIdxL0ActiveMinus1 : Fin 32
  numRefIdxL1ActiveMinus1 : Fin 32
  modificationsL0 : Option (List Modification)
  modificationsL1 : Option (List Modification)
  lumaLog2WeightDenom : Unsigned
  chromaLog2WeightDenom : Unsigned
  weightsL0 : Nat → Weights
  weightsL1 : Nat → Weights
  noOutputOfPriorPicsFlag : Bool
  longTermReferenceFlag : Bool
  adaptiveMarking : Option (List Marking)
  cabacInitIdc : Unsigned
  sliceQpDelta : Signed

def Modification.bits (modification : Modification) : List Bool :=
  [unsignedGolomb modification.modificationOfPicNumsIdc,
    present (modification.modificationOfPicNumsIdc.val = 0 ∨
      modification.modificationOfPicNumsIdc.val = 1)
      (unsignedGolomb modification.absDiffPicNumMinus1),
    present (modification.modificationOfPicNumsIdc.val = 2)
      (unsignedGolomb modification.longTermPicNum)].flatten

/-- The modifications of one reference list, with their flag and the value that ends them. -/
def refPicListModification : Option (List Modification) → List Bool :=
  flagged fun modifications => modifications.flatMap Modification.bits ++ unsignedGolomb 3

def Marking.bits (marking : Marking) : List Bool :=
  [unsignedGolomb marking.operation,
    present (marking.operation.val = 1 ∨ marking.operation.val = 3)
      (unsignedGolomb marking.differenceOfPicNumsMinus1),
    present (marking.operation.val = 2) (unsignedGolomb marking.longTermPicNum),
    present (marking.operation.val = 3 ∨ marking.operation.val = 6)
      (unsignedGolomb marking.longTermFrameIdx),
    present (marking.operation.val = 4)
      (unsignedGolomb marking.maxLongTermFrameIdxPlus1)].flatten

/-- The operations of adaptive reference marking, with their flag and the value that ends them. -/
def adaptiveRefPicMarking : Option (List Marking) → List Bool :=
  flagged fun operations => operations.flatMap Marking.bits ++ unsignedGolomb 0

def weightBits (weight : Signed × Signed) : List Bool :=
  [signedGolomb weight.1, signedGolomb weight.2].flatten

/-- The weights for one reference, of which those for chroma may be left out. -/
def Weights.bits (weights : Weights) (chromaArrayType : Nat) : List Bool :=
  [flagged weightBits weights.luma,
    present (chromaArrayType ≠ 0) (flagged (fun weight => (List.range 2).flatMap fun component =>
      weightBits (weight component)) weights.chroma)].flatten

namespace Slice

variable {sps : Sps} {pps : Pps sps} (slice : Slice pps)

def isP : Bool := slice.sliceType.val % 5 = 0
def isB : Bool := slice.sliceType.val % 5 = 1
def isI : Bool := slice.sliceType.val % 5 = 2
def isSp : Bool := slice.sliceType.val % 5 = 3
def isSi : Bool := slice.sliceType.val % 5 = 4

/-- A field of a picture, for which the sequence has to allow fields. -/
def isField : Bool :=
  !sps.frameMbsOnlyFlag && slice.fieldPicFlag

/-- The slice has other numbers of references than the picture. -/
def overrides : Bool :=
  (slice.isP || slice.isB || slice.isSp) && slice.numRefIdxActiveOverrideFlag

def maxIndexL0 : Nat :=
  if slice.overrides then slice.numRefIdxL0ActiveMinus1 else pps.numRefIdxL0DefaultActiveMinus1

def maxIndexL1 : Nat :=
  if slice.overrides && slice.isB then slice.numRefIdxL1ActiveMinus1
  else pps.numRefIdxL1DefaultActiveMinus1

def picOrderElements : List (List Bool) :=
  [present (sps.picOrderCntType.val = 0)
      (bitsOf (sps.log2MaxPicOrderCntLsbMinus4 + 4) slice.picOrderCntLsb),
    present (sps.picOrderCntType.val = 0 && pps.bottomFieldPicOrderInFramePresentFlag &&
      !slice.isField) (signedGolomb slice.deltaPicOrderCntBottom),
    present (sps.picOrderCntType.val = 1 && !sps.deltaPicOrderAlwaysZeroFlag)
      (signedGolomb slice.deltaPicOrderCnt0),
    present (sps.picOrderCntType.val = 1 && !sps.deltaPicOrderAlwaysZeroFlag &&
      pps.bottomFieldPicOrderInFramePresentFlag && !slice.isField)
      (signedGolomb slice.deltaPicOrderCnt1)]

def numRefIdxElements : List (List Bool) :=
  [present (slice.isP || slice.isB || slice.isSp) [slice.numRefIdxActiveOverrideFlag],
    present slice.overrides (unsignedGolomb slice.numRefIdxL0ActiveMinus1),
    present (slice.overrides && slice.isB) (unsignedGolomb slice.numRefIdxL1ActiveMinus1)]

/-- `pred_weight_table`. -/
def weightElements : List (List Bool) :=
  [unsignedGolomb slice.lumaLog2WeightDenom,
    present (sps.chromaArrayType ≠ 0) (unsignedGolomb slice.chromaLog2WeightDenom),
    (List.range (slice.maxIndexL0 + 1)).flatMap fun i =>
      (slice.weightsL0 i).bits sps.chromaArrayType,
    present slice.isB ((List.range (slice.maxIndexL1 + 1)).flatMap fun i =>
      (slice.weightsL1 i).bits sps.chromaArrayType)]

/-- `dec_ref_pic_marking`. -/
def markingElements : List (List Bool) :=
  [present slice.isIdr [slice.noOutputOfPriorPicsFlag, slice.longTermReferenceFlag],
    present (!slice.isIdr) (adaptiveRefPicMarking slice.adaptiveMarking)]

/-- `slice_header`, up to `slice_qp_delta`. -/
def elements : List (List Bool) :=
  [unsignedGolomb slice.firstMbInSlice,
    unsignedGolomb slice.sliceType,
    unsignedGolomb pps.id,
    present sps.separateColourPlane (bitsOf 2 slice.colourPlaneId),
    bitsOf (sps.log2MaxFrameNumMinus4 + 4) slice.frameNum,
    present (!sps.frameMbsOnlyFlag) [slice.fieldPicFlag],
    present slice.isField [slice.bottomFieldFlag],
    present slice.isIdr (unsignedGolomb slice.idrPicId),
    slice.picOrderElements.flatten,
    present pps.redundantPicCntPresentFlag (unsignedGolomb slice.redundantPicCnt),
    present slice.isB [slice.directSpatialMvPredFlag],
    slice.numRefIdxElements.flatten,
    present (!slice.isI && !slice.isSi) (refPicListModification slice.modificationsL0),
    present slice.isB (refPicListModification slice.modificationsL1),
    present ((pps.weightedPredFlag && (slice.isP || slice.isSp)) ||
      (pps.weightedBipredIdc.val = 1 && slice.isB)) slice.weightElements.flatten,
    present (slice.nalRefIdc.val ≠ 0) slice.markingElements.flatten,
    present (pps.entropyCodingModeFlag && !slice.isI && !slice.isSi)
      (unsignedGolomb slice.cabacInitIdc),
    signedGolomb slice.sliceQpDelta]

end Slice

end MiniRtc.H264

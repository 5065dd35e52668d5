import MiniRtc.Foundation.BitReader
import MiniRtc.Rtp.Packet

/-!
# The H.264 bitstream parser

`H264BitstreamParser` reads the parameter sets and the slice headers of an encoded frame, to get the
quantizer of its last slice. All reads fail at the end of the data, and every failed read ends the
parsing of a NAL unit, so the parsers are readers that give `none`.

The conditions that stand between two reads in the source are readers that read nothing.
-/

namespace MiniRtc.H264

open BitReader

def kNaluSlice : Nat := 1
def kNaluIdr : Nat := 5
def kNaluSps : Nat := 7
def kNaluPps : Nat := 8

def kSliceP : Nat := 0
def kSliceB : Nat := 1
def kSliceI : Nat := 2
def kSliceSp : Nat := 3
def kSliceSi : Nat := 4

def kMaxSpsId : Nat := 31
def kMaxPpsId : Nat := 255
def kMaxReferenceIndex : Nat := 31
def kMaxLog2Minus4 : Nat := 12
def kMaxPicOrderCycleLength : Nat := 255
def kMinPicInitQpMinus26 : ℤ := -26
def kMaxPicInitQpMinus26 : ℤ := 25
def kMaxAbsQpDelta : Nat := 51
def kMinQp : ℤ := 0
def kMaxQp : ℤ := 51

/-! ## BitReader -/

/-- The bits of the data. -/
def bitsOfBytes (data : List Byte) : List Bool :=
  data.flatMap fun byte => bitsOf 8 byte.toNat

def readBits (count : Nat) : BitReader Nat := do
  guard (count ≤ 32)
  let bits ← take count
  pure (number bits)

def readBit : BitReader Bool :=
  (fun bit => decide (bit ≠ 0)) <$> readBits 1

def skipBits (count : Nat) : BitReader Unit :=
  (fun _ => ()) <$> take count

/-- The zeros before the first one, of which there may be less than `allowed`. -/
def readLeadingZeros : Nat → BitReader Nat
  | 0 => failure
  | allowed + 1 => do
      let bit ← readBit
      if bit then pure 0 else (fun zeros => zeros + 1) <$> readLeadingZeros allowed

def readUnsignedGolomb : BitReader Nat := do
  let leadingZeros ← readLeadingZeros 32
  let suffix ← readIf (leadingZeros > 0) (readBits leadingZeros) 0
  let codeNum := 2 ^ leadingZeros - 1 + suffix
  guard (codeNum ≤ 2 ^ 32 - 1)
  pure codeNum

def readSignedGolomb : BitReader ℤ := do
  let codeNum ← readUnsignedGolomb
  let magnitude : ℤ := ((codeNum + 1) / 2 : Nat)
  let signedValue := if codeNum % 2 = 1 then magnitude else -magnitude
  guard (-2 ^ 31 ≤ signedValue ∧ signedValue ≤ 2 ^ 31 - 1)
  pure signedValue

/-- A flag, and what it announces. -/
def readFlagged (p : BitReader Unit) : BitReader Unit := do
  let flag ← readBit
  readIf flag p ()

/-! ## NAL units -/

/-- `FindStartCode`: what stands before the first start code, and what stands after it. -/
def findStartCode : List Byte → Option (List Byte × List Byte)
  | 0 :: 0 :: 0 :: 1 :: rest => some ([], rest)
  | 0 :: 0 :: 1 :: rest => some ([], rest)
  | byte :: rest => (findStartCode rest).map fun found => (byte :: found.1, found.2)
  | [] => none

/-- The payloads after a start code. -/
def naluPayloads : Nat → List Byte → List (List Byte)
  | 0, _ => []
  | fuel + 1, data =>
      match findStartCode data with
      | none => if data = [] then [] else [data]
      | some (payload, rest) =>
          (if payload = [] then [] else [payload]) ++ naluPayloads fuel rest

/-- `FindNaluIndices`, with the payloads instead of their offsets. Each start code has three bytes at
least. -/
def findNaluIndices (data : List Byte) : List (List Byte) :=
  match findStartCode data with
  | none => []
  | some (_, rest) => naluPayloads data.length rest

/-- `ParseRbsp`. -/
def parseRbsp : List Byte → List Byte
  | 0 :: 0 :: 3 :: rest => 0 :: 0 :: parseRbsp rest
  | byte :: rest => byte :: parseRbsp rest
  | [] => []

def isHighProfile (profileIdc : Nat) : Bool :=
  [44, 83, 86, 100, 110, 118, 122, 128, 134, 138, 139, 244].contains profileIdc

/-- `CeilLog2`, which shifts a limit up until it reaches the value. -/
def ceilLog2 (value : Nat) : Nat :=
  ((List.range 32).find? fun bits => decide (value ≤ 2 ^ bits)).getD 32

/-! ## Parameter sets -/

structure SpsState where
  id : Nat
  chromaFormatIdc : Nat
  separateColourPlaneFlag : Bool
  log2MaxFrameNum : Nat
  picOrderCntType : Nat
  log2MaxPicOrderCntLsb : Nat
  deltaPicOrderAlwaysZeroFlag : Bool
  frameMbsOnlyFlag : Bool
  deriving DecidableEq

structure PpsState where
  id : Nat
  spsId : Nat
  entropyCodingModeFlag : Bool
  bottomFieldPicOrderInFramePresentFlag : Bool
  numRefIdxL0DefaultActiveMinus1 : Nat
  numRefIdxL1DefaultActiveMinus1 : Nat
  weightedPredFlag : Bool
  weightedBipredIdc : Nat
  picInitQpMinus26 : ℤ
  redundantPicCntPresentFlag : Bool
  deriving DecidableEq

/-- The scale before the current one and the next one. -/
def readScale (scales : ℤ × ℤ) : BitReader (ℤ × ℤ) := do
  let nextScale ← readIf (scales.2 ≠ 0) (do
    let deltaScale ← readSignedGolomb
    guard (-128 ≤ deltaScale ∧ deltaScale ≤ 127)
    pure ((scales.1 + deltaScale + 256) % 256)) scales.2
  pure (if nextScale ≠ 0 then nextScale else scales.1, nextScale)

def readScalingList (i : Nat) : BitReader Unit :=
  (fun _ => ()) <$> loop (if i < 6 then 16 else 64) (8, 8) fun _ scales => readScale scales

/-- The elements of a high profile, with the two that are remembered. -/
def readHighProfile : BitReader (Nat × Bool) := do
  let chromaFormatIdc ← readUnsignedGolomb
  guard (chromaFormatIdc ≤ 3)
  let separateColourPlaneFlag ← readIf (chromaFormatIdc = 3) readBit false
  let _ ← readUnsignedGolomb
  let _ ← readUnsignedGolomb
  skipBits 1
  let scalingMatrixPresent ← readBit
  readIf scalingMatrixPresent (loop (if chromaFormatIdc = 3 then 12 else 8) () fun i _ =>
    readFlagged (readScalingList i)) ()
  pure (chromaFormatIdc, separateColourPlaneFlag)

/-- The elements of a picture order count that is derived from the frame number and offsets, with
the flag that is remembered. -/
def readPicOrderOffsets : BitReader Bool := do
  let deltaPicOrderAlwaysZeroFlag ← readBit
  let _ ← readSignedGolomb
  let _ ← readSignedGolomb
  let cycleLength ← readUnsignedGolomb
  guard (cycleLength ≤ kMaxPicOrderCycleLength)
  loop cycleLength () fun _ _ => (fun _ => ()) <$> readSignedGolomb
  pure deltaPicOrderAlwaysZeroFlag

/-- An exponent that is written without its least value `4`. -/
def readLog2 : BitReader Nat := do
  let log2Minus4 ← readUnsignedGolomb
  guard (log2Minus4 ≤ kMaxLog2Minus4)
  pure (log2Minus4 + 4)

def readSps : BitReader SpsState := do
  let profileIdc ← readBits 8
  skipBits 16
  let id ← readUnsignedGolomb
  guard (id ≤ kMaxSpsId)
  let high ← readIf (isHighProfile profileIdc) readHighProfile (1, false)
  let log2MaxFrameNum ← readLog2
  let picOrderCntType ← readUnsignedGolomb
  guard (picOrderCntType ≤ 2)
  let log2MaxPicOrderCntLsb ← readIf (picOrderCntType = 0) readLog2 4
  let deltaPicOrderAlwaysZeroFlag ← readIf (picOrderCntType = 1) readPicOrderOffsets false
  let _ ← readUnsignedGolomb
  skipBits 1
  let _ ← readUnsignedGolomb
  let _ ← readUnsignedGolomb
  let frameMbsOnlyFlag ← readBit
  pure {
    id
    chromaFormatIdc := high.1
    separateColourPlaneFlag := high.2
    log2MaxFrameNum
    picOrderCntType
    log2MaxPicOrderCntLsb
    deltaPicOrderAlwaysZeroFlag
    frameMbsOnlyFlag }

/-- `ParseSps`. -/
def parseSps (data : List Byte) : Option SpsState :=
  (readSps (bitsOfBytes (parseRbsp data))).map Prod.fst

/-- The elements of slice groups, of which there is one more than `groups`. -/
def readSliceGroups (groups : Nat) : BitReader Unit := do
  let mapType ← readUnsignedGolomb
  guard (mapType ≤ 6)
  readIf (mapType = 0) (loop (groups + 1) () fun _ _ => (fun _ => ()) <$> readUnsignedGolomb) ()
  readIf (mapType = 2) (loop groups () fun _ _ => do
    let _ ← readUnsignedGolomb
    (fun _ => ()) <$> readUnsignedGolomb) ()
  readIf (3 ≤ mapType ∧ mapType ≤ 5) (do
    skipBits 1
    (fun _ => ()) <$> readUnsignedGolomb) ()
  readIf (mapType = 6) (do
    let picSizeInMapUnitsMinus1 ← readUnsignedGolomb
    skipBits ((picSizeInMapUnitsMinus1 + 1) * ceilLog2 (groups + 1))) ()

def readPps : BitReader PpsState := do
  let id ← readUnsignedGolomb
  let spsId ← readUnsignedGolomb
  guard (id ≤ kMaxPpsId)
  guard (spsId ≤ kMaxSpsId)
  let entropyCodingModeFlag ← readBit
  let bottomFieldPicOrderInFramePresentFlag ← readBit
  let numSliceGroupsMinus1 ← readUnsignedGolomb
  guard (numSliceGroupsMinus1 ≤ 7)
  readIf (numSliceGroupsMinus1 > 0) (readSliceGroups numSliceGroupsMinus1) ()
  let numRefIdxL0DefaultActiveMinus1 ← readUnsignedGolomb
  let numRefIdxL1DefaultActiveMinus1 ← readUnsignedGolomb
  guard (numRefIdxL0DefaultActiveMinus1 ≤ kMaxReferenceIndex)
  guard (numRefIdxL1DefaultActiveMinus1 ≤ kMaxReferenceIndex)
  let weightedPredFlag ← readBit
  let weightedBipredIdc ← readBits 2
  let picInitQpMinus26 ← readSignedGolomb
  guard (kMinPicInitQpMinus26 ≤ picInitQpMinus26 ∧ picInitQpMinus26 ≤ kMaxPicInitQpMinus26)
  let _ ← readSignedGolomb
  let _ ← readSignedGolomb
  skipBits 2
  let redundantPicCntPresentFlag ← readBit
  pure {
    id
    spsId
    entropyCodingModeFlag
    bottomFieldPicOrderInFramePresentFlag
    numRefIdxL0DefaultActiveMinus1
    numRefIdxL1DefaultActiveMinus1
    weightedPredFlag
    weightedBipredIdc
    picInitQpMinus26
    redundantPicCntPresentFlag }

/-- `ParsePps`. -/
def parsePps (data : List Byte) : Option PpsState :=
  (readPps (bitsOfBytes (parseRbsp data))).map Prod.fst

/-! ## Slices -/

section Slice

variable (sps : SpsState) (pps : PpsState)

/-- One pass of the loop over the modifications of a reference list. -/
def readModification : BitReader Bool := do
  let modificationIdc ← readUnsignedGolomb
  readIf (modificationIdc = 0 ∨ modificationIdc = 1) ((fun _ => ()) <$> readUnsignedGolomb) ()
  readIf (modificationIdc = 2) ((fun _ => ()) <$> readUnsignedGolomb) ()
  guard (modificationIdc ≤ 3)
  pure (decide (modificationIdc ≠ 3))

/-- The modifications of a reference list. -/
def readRefPicListModification : BitReader Unit :=
  readFlagged (doWhile readModification)

def chromaArrayType : Nat :=
  if sps.separateColourPlaneFlag then 0 else sps.chromaFormatIdc

/-- A weight with its offset. -/
def readWeight : BitReader Unit := do
  let _ ← readSignedGolomb
  (fun _ => ()) <$> readSignedGolomb

/-- `skip_weight_table`. -/
def skipWeightTable (maxIndex : Nat) : BitReader Unit :=
  loop (maxIndex + 1) () fun _ _ => do
    readFlagged readWeight
    readIf (chromaArrayType sps ≠ 0) (readFlagged (loop 2 () fun _ _ => readWeight)) ()

/-- The weights of a slice. -/
def readPredWeightTable (sliceType maxIndexL0 maxIndexL1 : Nat) : BitReader Unit := do
  let _ ← readUnsignedGolomb
  readIf (chromaArrayType sps ≠ 0) ((fun _ => ()) <$> readUnsignedGolomb) ()
  skipWeightTable sps maxIndexL0
  readIf (sliceType = kSliceB) (skipWeightTable sps maxIndexL1) ()

/-- One pass of the loop over the operations of reference marking. -/
def readMarking : BitReader Bool := do
  let operation ← readUnsignedGolomb
  guard (operation ≤ 6)
  readIf (operation = 1 ∨ operation = 3) ((fun _ => ()) <$> readUnsignedGolomb) ()
  readIf (operation = 2) ((fun _ => ()) <$> readUnsignedGolomb) ()
  readIf (operation = 3 ∨ operation = 6) ((fun _ => ()) <$> readUnsignedGolomb) ()
  readIf (operation = 4) ((fun _ => ()) <$> readUnsignedGolomb) ()
  pure (decide (operation ≠ 0))

/-- The reference marking of a slice. -/
def readDecRefPicMarking (isIdr : Bool) : BitReader Unit := do
  readIf isIdr (skipBits 2) ()
  readIf (!isIdr) (readFlagged (doWhile readMarking)) ()

/-- The elements of a slice header that place the picture. -/
def readPicOrder (fieldPicFlag : Bool) : BitReader Unit := do
  readIf (sps.picOrderCntType = 0) (skipBits sps.log2MaxPicOrderCntLsb) ()
  readIf (sps.picOrderCntType = 0 && pps.bottomFieldPicOrderInFramePresentFlag && !fieldPicFlag)
    ((fun _ => ()) <$> readSignedGolomb) ()
  readIf (sps.picOrderCntType = 1 && !sps.deltaPicOrderAlwaysZeroFlag)
    ((fun _ => ()) <$> readSignedGolomb) ()
  readIf (sps.picOrderCntType = 1 && !sps.deltaPicOrderAlwaysZeroFlag &&
    pps.bottomFieldPicOrderInFramePresentFlag && !fieldPicFlag)
    ((fun _ => ()) <$> readSignedGolomb) ()

/-- The sizes of the reference lists, which a slice may override. -/
def readNumRefIdx (sliceType : Nat) : BitReader (Nat × Nat) := do
  let overrideFlag ← readIf (sliceType = kSliceP ∨ sliceType = kSliceB ∨ sliceType = kSliceSp)
    readBit false
  let numRefIdxL0 ← readIf overrideFlag (do
    let numRefIdx ← readUnsignedGolomb
    guard (numRefIdx ≤ kMaxReferenceIndex)
    pure numRefIdx) pps.numRefIdxL0DefaultActiveMinus1
  let numRefIdxL1 ← readIf (overrideFlag && sliceType = kSliceB) (do
    let numRefIdx ← readUnsignedGolomb
    guard (numRefIdx ≤ kMaxReferenceIndex)
    pure numRefIdx) pps.numRefIdxL1DefaultActiveMinus1
  pure (numRefIdxL0, numRefIdxL1)

def hasPredWeightTable (sliceType : Nat) : Bool :=
  (pps.weightedPredFlag && (sliceType = kSliceP ∨ sliceType = kSliceSp)) ||
    (pps.weightedBipredIdc = 1 && sliceType = kSliceB)

/-- The slice header up to the difference of the quantizer. -/
def readSlice (naluType nalRefIdc : Nat) : BitReader ℤ := do
  skipBits 8
  let _ ← readUnsignedGolomb
  let sliceType ← readUnsignedGolomb
  let ppsId ← readUnsignedGolomb
  guard (ppsId = pps.id)
  guard (pps.spsId = sps.id)
  let sliceType := sliceType % 5
  readIf sps.separateColourPlaneFlag (skipBits 2) ()
  skipBits sps.log2MaxFrameNum
  let fieldPicFlag ← readIf (!sps.frameMbsOnlyFlag) readBit false
  readIf fieldPicFlag (skipBits 1) ()
  readIf (naluType = kNaluIdr) ((fun _ => ()) <$> readUnsignedGolomb) ()
  readPicOrder sps pps fieldPicFlag
  readIf pps.redundantPicCntPresentFlag ((fun _ => ()) <$> readUnsignedGolomb) ()
  readIf (sliceType = kSliceB) (skipBits 1) ()
  let numRefIdx ← readNumRefIdx pps sliceType
  guard (¬ (naluType = 20 ∨ naluType = 21))
  readIf (sliceType ≠ kSliceI ∧ sliceType ≠ kSliceSi) readRefPicListModification ()
  readIf (sliceType = kSliceB) readRefPicListModification ()
  readIf (hasPredWeightTable pps sliceType)
    (readPredWeightTable sps sliceType numRefIdx.1 numRefIdx.2) ()
  readIf (nalRefIdc ≠ 0) (readDecRefPicMarking (naluType = kNaluIdr)) ()
  readIf (pps.entropyCodingModeFlag && (sliceType ≠ kSliceI ∧ sliceType ≠ kSliceSi))
    ((fun _ => ()) <$> readUnsignedGolomb) ()
  let sliceQpDelta ← readSignedGolomb
  guard (sliceQpDelta.natAbs ≤ kMaxAbsQpDelta)
  pure sliceQpDelta

end Slice

/-! ## The parser -/

structure H264BitstreamParser where
  sps : Option SpsState := none
  pps : Option PpsState := none
  lastSliceQpDelta : Option ℤ := none
  deriving DecidableEq

namespace H264BitstreamParser

variable (p : H264BitstreamParser)

/-- `nalu[0] & kNaluTypeMask`. -/
def naluType (header : Byte) : Nat :=
  header.toNat % 32

/-- `(data[0] >> 5) & 0x03`. -/
def nalRefIdc (header : Byte) : Nat :=
  header.toNat / 32 % 4

/-- `ParseSlice`, and whether it ends with `kOk`. -/
def parseSlice (nalu : List Byte) : H264BitstreamParser × Bool :=
  match p.sps, p.pps, nalu with
  | some sps, some pps, header :: _ :: _ =>
      match readSlice sps pps (naluType header) (nalRefIdc header)
          (bitsOfBytes (parseRbsp nalu)) with
      | none => ({ p with lastSliceQpDelta := none }, false)
      | some (sliceQpDelta, _) => ({ p with lastSliceQpDelta := some sliceQpDelta }, true)
  | _, _, _ => (p, false)

/-- The types of the NAL units that `ParseNalu` parses as slices. -/
def isSlice (header : Byte) : Bool :=
  naluType header = kNaluSlice ∨ naluType header = kNaluIdr

/-- `ParseNalu`. -/
def parseNalu : List Byte → H264BitstreamParser
  | [] => p
  | header :: data =>
      if naluType header = kNaluSps then { p with sps := parseSps data }
      else if naluType header = kNaluPps then { p with pps := parsePps data }
      else if isSlice header then (p.parseSlice (header :: data)).1
      else p

/-- `ParseBitstream`. -/
def parseBitstream (bitstream : List Byte) : H264BitstreamParser :=
  (findNaluIndices bitstream).foldl parseNalu { p with lastSliceQpDelta := none }

/-- `GetLastSliceQp`. -/
def getLastSliceQp : Option ℤ :=
  match p.pps, p.lastSliceQpDelta with
  | some pps, some sliceQpDelta =>
      let qp := 26 + pps.picInitQpMinus26 + sliceQpDelta
      if qp < kMinQp ∨ qp > kMaxQp then none else some qp
  | _, _ => none

/-! ## What a NAL unit can do -/

variable {p}

theorem parse_nalu_cons (p : H264BitstreamParser) (header : Byte) (data : List Byte) :
    p.parseNalu (header :: data) =
      if naluType header = kNaluSps then { p with sps := parseSps data }
      else if naluType header = kNaluPps then { p with pps := parsePps data }
      else if isSlice header then (p.parseSlice (header :: data)).1
      else p :=
  rfl

/-- A slice is parsed, or it clears the difference, or it is ignored. -/
theorem parse_slice_cases (p : H264BitstreamParser) (nalu : List Byte) :
    (∃ pps sliceQpDelta, p.pps = some pps ∧
      p.parseSlice nalu = ({ p with lastSliceQpDelta := some sliceQpDelta }, true)) ∨
      p.parseSlice nalu = ({ p with lastSliceQpDelta := none }, false) ∨
        p.parseSlice nalu = (p, false) := by
  unfold parseSlice
  split
  · next sps pps header second rest _ hpps =>
      split
      · exact Or.inr (Or.inl rfl)
      · next sliceQpDelta later _ => exact Or.inl ⟨pps, sliceQpDelta, hpps, rfl⟩
  · exact Or.inr (Or.inr rfl)

/-- A slice does not change the parameter sets. -/
theorem parse_slice_sets (nalu : List Byte) :
    (p.parseSlice nalu).1.sps = p.sps ∧ (p.parseSlice nalu).1.pps = p.pps := by
  rcases parse_slice_cases p nalu with ⟨pps, sliceQpDelta, -, hparsed⟩ | hcleared | hignored
  · rw [hparsed]
    exact ⟨rfl, rfl⟩
  · rw [hcleared]
    exact ⟨rfl, rfl⟩
  · rw [hignored]
    exact ⟨rfl, rfl⟩

/-- A slice without a picture parameter set is ignored. -/
theorem parse_slice_without (hpps : p.pps = none) (nalu : List Byte) : (p.parseSlice nalu).1 = p := by
  unfold parseSlice
  rw [hpps]
  cases p.sps <;> rfl

/-- A slice is not a parameter set. -/
theorem is_slice_ne {header : Byte} (hslice : isSlice header = true) :
    naluType header ≠ kNaluSps ∧ naluType header ≠ kNaluPps := by
  unfold isSlice at hslice
  constructor
  · intro htype
    rw [htype] at hslice
    exact absurd hslice (by decide)
  · intro htype
    rw [htype] at hslice
    exact absurd hslice (by decide)

end H264BitstreamParser

end MiniRtc.H264

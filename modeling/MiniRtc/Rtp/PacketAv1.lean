import MiniRtc.Rtp.Obu

/-!
# AV1 packets

`RtpPacketizerAv1` of `rtp_packetizer_av1.cpp` and `RtpPacketAv1` of `rtp_packet_av1.cpp`. Every OBU
gets packets of its own, as many as it needs for pieces of 1150 bytes, and an aggregation header
in front of each piece says whether the frame starts or ends there.

`pieces_from_get` says which pieces are marked as the first and the last one, `pieces_flatten` that
the pieces make up the OBUs, and `av1_packet_header_info` what the receiver reads from a packet.
-/

namespace MiniRtc

/-! ## The receiver's view -/

/-- `RtpPacketAv1`. -/
structure RtpPacketAv1 extends RtpPacket where
  z : Byte := 0
  y : Byte := 0
  w : Byte := 0
  n : Byte := 0
  deriving DecidableEq

namespace RtpPacketAv1

/-- `GetFrameHeaderInfo` on a packet that was just built. -/
def getFrameHeaderInfo (p : RtpPacket) : Option RtpPacketAv1 :=
  if p.payloadSize < 1 then none
  else
    let aggrHeader := byteAt p.payload 0
    some
      { p.addOffsetToPayload 1 with
        z := aggrHeader >>> 7
        y := (aggrHeader >>> 6) &&& 0x01
        w := (aggrHeader >>> 4) &&& 0x03
        n := (aggrHeader >>> 3) &&& 0x01 }

/-- `Av1FrameStart`. -/
def av1FrameStart (p : RtpPacketAv1) : Bool :=
  if p.z = 0 ∧ p.y = 0 ∧ p.w = 1 then true
  else if p.z = 0 ∧ p.y = 1 ∧ p.w = 1 then true
  else false

/-- `Av1FrameEnd`. -/
def av1FrameEnd (p : RtpPacketAv1) : Bool :=
  if p.z = 0 ∧ p.y = 0 ∧ p.w = 1 then true
  else if p.z = 1 ∧ p.y = 0 ∧ p.w = 1 then true
  else false

/-- `IsKeyFrame`. -/
def isKeyFrame (p : RtpPacketAv1) : Bool :=
  p.n = 1

end RtpPacketAv1

/-! ## The sender -/

/-- `RtpPacketizerAv1`. -/
structure RtpPacketizerAv1 where
  absSendTimeExtId : Option ExtensionId := none
  sequenceNumber : BitVec 16 := 0
  ssrc : BitVec 32 := 0
  currentFrameIsKeyFrame : Bool := false

/-- The byte of `SetAv1AggrHeader`, for one element. -/
def av1AggrHeader (z y n : Bool) : Byte :=
  (if z then 1 <<< 7 else 0) ||| (if y then 1 <<< 6 else 0) ||| (1 <<< 4) |||
    (if n then 1 <<< 3 else 0)

namespace RtpPacketizerAv1

/-- The pieces of one OBU. The last one may be shorter. -/
def obuPieces (obu : Obu) : List (List Byte) :=
  if obu.size ≤ maxNaluLen then [obu.payload]
  else
    let packetNum := (obu.size + maxNaluLen - 1) / maxNaluLen
    (List.range packetNum).map fun j =>
      let offset := j * maxNaluLen
      let size := if j = packetNum - 1 then obu.size - offset else maxNaluLen
      (obu.payload.drop offset).take size

/-- A piece, with whether it is the first and whether it is the last one of the frame. -/
structure Piece where
  isFirst : Bool
  isLast : Bool
  bytes : List Byte

/-- The pieces of the OBUs from number `i` on, of `total` OBUs. -/
def piecesFrom (i total : Nat) : List Obu → List Piece
  | [] => []
  | obu :: rest =>
      (obuPieces obu).mapIdx (fun j bytes =>
        { isFirst := i = 0 ∧ j = 0
          isLast := i = total - 1 ∧ j = (obuPieces obu).length - 1
          bytes }) ++
        piecesFrom (i + 1) total rest

/-- The datagram of a piece with the given sequence number. -/
def pieceBytes (s : RtpPacketizerAv1) (rtpTimestamp : BitVec 32) (sequenceNumber : BitVec 16)
    (piece : Piece) : List Byte :=
  packetBytes s.absSendTimeExtId piece.isLast payloadTypeAv1 sequenceNumber rtpTimestamp s.ssrc
    (av1AggrHeader (!piece.isFirst) (!piece.isLast) (s.currentFrameIsKeyFrame && piece.isFirst) ::
      piece.bytes)

/-- `Build`. Every packet has the next sequence number. -/
def build (s : RtpPacketizerAv1) (payload : List Byte) (rtpTimestamp : BitVec 32) :
    RtpPacketizerAv1 × List RtpPacket :=
  let obus := parseObus payload
  let pieces := piecesFrom 0 obus.length obus
  ({ s with sequenceNumber := s.sequenceNumber + BitVec.ofNat 16 pieces.length },
    pieces.mapIdx fun k piece =>
      (RtpPacket.build {} (s.pieceBytes rtpTimestamp (s.sequenceNumber + 1 + BitVec.ofNat 16 k)
        piece)).1)

/-- Every OBU has at least one piece. -/
theorem obu_pieces_ne_nil (obu : Obu) : obuPieces obu ≠ [] := by
  unfold obuPieces
  split_ifs with h
  · simp
  · have hpos : 0 < (obu.size + maxNaluLen - 1) / maxNaluLen :=
      Nat.div_pos (by unfold maxNaluLen at *; omega) (by decide)
    simp only [ne_eq, List.map_eq_nil_iff, List.range_eq_nil]
    omega

/-- The pieces of an OBU make up its payload. -/
theorem obu_pieces_flatten {obu : Obu} (h : obu.size = obu.payload.length) :
    (obuPieces obu).flatten = obu.payload := by
  unfold obuPieces
  split_ifs with hsmall
  · simp
  · rw [h]
    have hpos : 0 < maxNaluLen := by decide
    have hcover : obu.payload.length ≤
        (obu.payload.length + maxNaluLen - 1) / maxNaluLen * maxNaluLen := by
      have hdiv := Nat.div_add_mod (obu.payload.length + maxNaluLen - 1) maxNaluLen
      have hmod := Nat.mod_lt (obu.payload.length + maxNaluLen - 1) hpos
      rw [Nat.mul_comm] at hdiv
      omega
    -- the last piece is what is left, which is at most 1150 bytes
    have hpiece : ∀ j ∈ List.range ((obu.payload.length + maxNaluLen - 1) / maxNaluLen),
        (obu.payload.drop (j * maxNaluLen)).take
          (if j = (obu.payload.length + maxNaluLen - 1) / maxNaluLen - 1 then
            obu.payload.length - j * maxNaluLen else maxNaluLen) =
        (obu.payload.drop (j * maxNaluLen)).take maxNaluLen := by
      intro j hj
      have hlt := List.mem_range.mp hj
      split_ifs with hlast
      · have hle : obu.payload.length ≤ j * maxNaluLen + maxNaluLen := by
          rw [← Nat.succ_mul]
          rwa [show j.succ = (obu.payload.length + maxNaluLen - 1) / maxNaluLen by omega]
        rw [← List.length_drop, List.take_length, List.take_of_length_le]
        rw [List.length_drop]
        omega
      · rfl
    simp only
    rw [List.map_congr_left hpiece, flatten_chunks, List.take_of_length_le hcover]

/-- The pieces of a frame are numbered through: only number 0 is the first one and only the last
number is the last one. -/
theorem pieces_from_get (i total : Nat) (obus : List Obu) (htotal : i + obus.length = total) :
    ∀ k (hk : k < (piecesFrom i total obus).length),
      (piecesFrom i total obus)[k].isFirst = decide (i = 0 ∧ k = 0) ∧
      (piecesFrom i total obus)[k].isLast =
        decide (k = (piecesFrom i total obus).length - 1) := by
  induction obus generalizing i with
  | nil => intro k hk; simp [piecesFrom] at hk
  | cons obu rest ih =>
      intro k hk
      have hne := List.length_pos_iff.mpr (obu_pieces_ne_nil obu)
      have htail := ih (i + 1) (by simp at htotal; omega)
      simp only [List.length_cons] at htotal
      have hlen : (piecesFrom i total (obu :: rest)).length =
          (obuPieces obu).length + (piecesFrom (i + 1) total rest).length := by
        simp [piecesFrom]
      -- a frame with further OBUs has further pieces
      have hrest : rest = [] ∨ 0 < (piecesFrom (i + 1) total rest).length := by
        cases rest with
        | nil => exact Or.inl rfl
        | cons next others =>
            right
            have := List.length_pos_iff.mpr (obu_pieces_ne_nil next)
            simp only [piecesFrom, List.length_append, List.length_mapIdx]
            omega
      by_cases hhead : k < (obuPieces obu).length
      · have hget : (piecesFrom i total (obu :: rest))[k] =
            { isFirst := i = 0 ∧ k = 0
              isLast := i = total - 1 ∧ k = (obuPieces obu).length - 1
              bytes := (obuPieces obu)[k] } := by
          simp [piecesFrom, List.getElem_append_left, hhead]
        rw [hget, hlen]
        refine ⟨rfl, decide_eq_decide.mpr ?_⟩
        rcases hrest with hnil | hpos
        · subst hnil
          simp only [List.length_nil, piecesFrom] at htotal ⊢
          omega
        · have hlong : rest ≠ [] := by
            rintro rfl
            simp [piecesFrom] at hpos
          have := List.length_pos_iff.mpr hlong
          omega
      · have hk' : k - (obuPieces obu).length < (piecesFrom (i + 1) total rest).length := by omega
        have hget : (piecesFrom i total (obu :: rest))[k] =
            (piecesFrom (i + 1) total rest)[k - (obuPieces obu).length] := by
          simp only [piecesFrom]
          rw [List.getElem_append_right (by simpa using hhead)]
          simp
        obtain ⟨hfirst, hlast⟩ := htail _ hk'
        rw [hget, hfirst, hlast, hlen]
        constructor
        · refine decide_eq_decide.mpr ?_
          omega
        · refine decide_eq_decide.mpr ?_
          omega

/-- The pieces of a frame make up its OBUs. -/
theorem pieces_flatten (i total : Nat) (obus : List Obu)
    (h : ∀ obu ∈ obus, obu.size = obu.payload.length) :
    ((piecesFrom i total obus).map Piece.bytes).flatten = obus.flatMap Obu.payload := by
  induction obus generalizing i with
  | nil => rfl
  | cons obu rest ih =>
      have hhead : ((obuPieces obu).mapIdx (fun j bytes =>
          ({ isFirst := i = 0 ∧ j = 0
             isLast := i = total - 1 ∧ j = (obuPieces obu).length - 1
             bytes } : Piece))).map Piece.bytes = obuPieces obu :=
        List.ext_getElem (by simp) fun j _ _ => by simp
      rw [piecesFrom, List.map_append, List.flatten_append, hhead,
        obu_pieces_flatten (h obu List.mem_cons_self), List.flatMap_cons,
        ih (i + 1) fun o ho => h o (List.mem_cons_of_mem _ ho)]

end RtpPacketizerAv1

/-- The receiver finds a piece behind its aggregation header, and reads from it whether it is the
first, whether it is the last one, and whether the frame is a key frame. -/
theorem av1_packet_header_info {p : RtpPacket} {sequenceNumber : BitVec 16}
    {timestamp ssrc : BitVec 32} {marker isFirst isLast key : Bool} {bytes : List Byte}
    (h : Carries p marker payloadTypeAv1 sequenceNumber timestamp ssrc
      (av1AggrHeader (!isFirst) (!isLast) key :: bytes)) :
    ∃ q, RtpPacketAv1.getFrameHeaderInfo p = some q ∧ q.timestamp = timestamp ∧
      q.sequenceNumber = sequenceNumber ∧ q.payload = bytes ∧ q.av1FrameStart = isFirst ∧
      q.av1FrameEnd = isLast ∧ q.isKeyFrame = key ∧ (q.z = 0 ↔ isFirst = true) ∧
      (q.y = 0 ↔ isLast = true) := by
  have hsize : ¬ p.payloadSize < 1 := by
    rw [h.payloadSize]
    simp
  have hbyte : byteAt p.payload 0 = av1AggrHeader (!isFirst) (!isLast) key := by
    rw [h.payload]
    rfl
  refine ⟨_, by
    simp only [RtpPacketAv1.getFrameHeaderInfo, hsize, if_false, hbyte]
    rfl, h.timestamp, h.sequenceNumber, ?_, ?_, ?_, ?_, ?_, ?_⟩
  · rw [RtpPacket.payload_add_offset, h.payload]
    rfl
  all_goals
    simp only [RtpPacketAv1.av1FrameStart, RtpPacketAv1.av1FrameEnd, RtpPacketAv1.isKeyFrame]
    clear h hsize hbyte
    cases isFirst <;> cases isLast <;> cases key <;> first | rfl | decide

end MiniRtc

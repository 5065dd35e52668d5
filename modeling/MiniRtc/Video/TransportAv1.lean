import MiniRtc.Video.FrameCollector

/-!
# Transport of AV1 frames

`RtpPacketizerAv1` takes the OBUs of a frame apart and puts each into packets of its own, and
`ProcessAv1RtpPacket` puts the packets of a timestamp together again. The result of the module,
`av1_transport_exact`, is about packets in any order and with any repetition. A stream of more than
4096 packets is never complete, and the size field of an OBU without data is written again
as one byte: `av1_transport_changes_streams`.
-/

namespace MiniRtc

open Circle Collector

namespace FrameAssembly

/-- A datagram on its way to `ProcessAv1RtpPacket`. -/
def receiveAv1 (s : FrameAssembly) (arrival : ℤ × List Byte) : FrameAssembly :=
  match (RtpPacket.ofBuffer arrival.2).bind RtpPacketAv1.getFrameHeaderInfo with
  | none => s
  | some p => s.processAv1RtpPacket arrival.1 p

/-- The members of the receiver that AV1 uses. -/
def av1Collector (s : FrameAssembly) : Collector RtpPacketAv1 :=
  s.collector s.incompleteAv1FrameList

end FrameAssembly

/-! ## One packet at the receiver -/

/-- The packet in the buffer is the piece `i` of a frame with this key frame flag. -/
def Av1Fragment (key : Bool) (f : SentFrame) (i : Nat) (p : RtpPacketAv1) : Prop :=
  p.timestamp = f.timestamp ∧ f.pieces[i]? = some p.payload ∧ (i = 0 → p.isKeyFrame = key)

/-- The bytes of the frame and its key frame flag, when it is not too long. -/
def WholeStream (key : Bool) (f : SentFrame) (frame : ReceivedFrame) (isKeyframe : Bool) : Prop :=
  f.pieces.length ≤ kMaxPacketsPerFrame ∧ frame.data = f.pieces.flatten ∧ isKeyframe = key

/-- What the receiver reads from the packet of piece `i`. -/
structure ReadsAv1Piece (key : Bool) (f : SentFrame) (i : Nat) (p : RtpPacketAv1) : Prop where
  fragment : Av1Fragment key f i p
  sequenceNumber : p.sequenceNumber = f.number i
  isStart : p.av1FrameStart = decide (i = 0)
  isEnd : p.av1FrameEnd = decide (i = f.pieces.length - 1)
  z : p.z = 0 ↔ i = 0
  y : p.y = 0 ↔ i = f.pieces.length - 1

namespace FrameAssembly

section Receive

variable {s : FrameAssembly} {frames : List SentFrame} {f : SentFrame} {i : Nat}
  {p : RtpPacketAv1} {now : ℤ} {key : Bool}

/-- The pieces in a row make up the stream, and the first one has the key frame flag. -/
theorem gathered_stream (hpos : 0 < f.pieces.length)
    (hall : (s.collector s.incompleteAv1FrameList).AllPresent (Av1Fragment key) f) :
    (s.incompleteAv1FrameList f.first).any RtpPacketAv1.isKeyFrame = key ∧
      Slots.gather s.incompleteAv1FrameList (fun p => p.payload) f.first f.pieces.length =
        f.pieces.flatten := by
  obtain ⟨first, hfirst, -, -, hkey⟩ := hall.slots 0 hpos
  rw [SentFrame.number_zero] at hfirst
  simp only [collector] at hfirst
  refine ⟨by simp [hfirst, hkey rfl], Slots.gather_eq fun j hj => ?_⟩
  obtain ⟨q, hq, -, hpayload, -⟩ := hall.slots j hj
  exact ⟨q, hq, by simpa [hj] using hpayload.symm⟩

/-- A piece waits for the others or completes its frame. -/
theorem process_av1_receives (hd : Distinct frames) (hf : f ∈ frames) (hi : i < f.pieces.length)
    (hsound : Sound (Av1Fragment key) (WholeStream key) frames s.av1Collector)
    (hread : ReadsAv1Piece key f i p) :
    Receives (Av1Fragment key) (WholeStream key) s.av1Collector f i
      (s.processAv1RtpPacket now p).av1Collector := by
  have htime : p.timestamp = f.timestamp := hread.fragment.1
  simp only [processAv1RtpPacket, checkIsAv1FrameCompleted]
  set marked := (({ s with
      incompleteAv1FrameList :=
        Function.update s.incompleteAv1FrameList p.sequenceNumber
          (some p) } : FrameAssembly).trackPendingFramePacket now p.timestamp
            p.sequenceNumber).setFrameMarkers p.timestamp p.sequenceNumber p.av1FrameStart
              p.av1FrameEnd with hmarked
  have hview : marked.collector marked.incompleteAv1FrameList =
      s.av1Collector.stored f i p marked.pendingFrames := by
    simp only [hmarked, setFrameMarkers, hread.isStart, hread.isEnd, htime, hread.sequenceNumber,
      decide_eq_true_eq]
    rfl
  have hkept : ∀ g, CompleteIn s.av1Collector.pending g → CompleteIn marked.pendingFrames g :=
    fun g hg => track_kept hg
  have hinherited : ∀ entry ∈ marked.pendingFrames, entry.2.isComplete = true →
      Inherited s.av1Collector.pending entry :=
    fun entry hentry hcomplete => track_inherited hentry hcomplete
  rw [htime]
  rcases stored_receives hd hf hi (fun g j q hq => hq.1) hsound hread.fragment hview hkept
    hinherited with ⟨hnone, hwaiting⟩ | ⟨hsome, hshort, hall⟩
  · simp only [hnone]
    exact hwaiting
  · obtain ⟨hkey, hgather⟩ := gathered_stream (hd.nonempty f hf) hall
    simp only [hsome, popCompleteAv1Frame, hkey, hgather]
    set popped := ({ marked with
      incompleteAv1FrameList := Slots.vacate marked.incompleteAv1FrameList f.first
        f.pieces.length } : FrameAssembly).createReceivedFrame now f.pieces.flatten f.timestamp
          with hpopped
    have hfound : popped.1.pendingFrame? f.timestamp ≠ none := by
      have hself : popped.1.pendingFrame? p.timestamp = some _ := pending_frame_set_self
      rw [← htime, hself]
      simp
    set committed := (popped.1.clearFrameMarkers f.timestamp).commitPendingFrame now f.timestamp
      popped.2 key f.last true with hcommitted
    have hslots : committed.incompleteAv1FrameList =
        Slots.vacate marked.incompleteAv1FrameList f.first f.pieces.length := by
      obtain ⟨pendingFrames, hsame⟩ := commit_pending_only (popped.1.clearFrameMarkers f.timestamp)
        now f.timestamp popped.2 key f.last true
      rw [hcommitted, hsame]
      rfl
    have hcommit : committed.av1Collector = committed.collector
        (Slots.vacate marked.incompleteAv1FrameList f.first f.pieces.length) := by
      rw [av1Collector, hslots]
    rw [hcommit]
    exact committed_receives (s := popped.1) hread.fragment hview hkept hinherited hfound
      ⟨hshort, rfl, rfl⟩ f.last

end Receive

end FrameAssembly

/-! ## The packets of the sender -/

namespace RtpPacketizerAv1

/-- The pieces of a stream. -/
def pieces (payload : List Byte) : List Piece :=
  piecesFrom 0 (parseObus payload).length (parseObus payload)

/-- Number 0 is the first piece and the last number the last one. -/
theorem pieces_get {payload : List Byte} {k : Nat} (hk : k < (pieces payload).length) :
    (pieces payload)[k].isFirst = decide (k = 0) ∧
      (pieces payload)[k].isLast = decide (k = (pieces payload).length - 1) := by
  obtain ⟨hfirst, hlast⟩ := pieces_from_get 0 _ (parseObus payload) (Nat.zero_add _) k hk
  simp only [true_and] at hfirst
  exact ⟨hfirst, hlast⟩

/-- A frame as the packetizer sends it. -/
def sentFrame (s : RtpPacketizerAv1) (payload : List Byte) (rtpTimestamp : BitVec 32) :
    SentFrame :=
  { timestamp := rtpTimestamp
    first := s.sequenceNumber + 1
    pieces := (pieces payload).map Piece.bytes }

/-- The packet is the one that was built for piece `i`. -/
def SentAv1Piece (key : Bool) (f : SentFrame) (i : Nat) (p : RtpPacket) : Prop :=
  p.marker = decide (i = f.pieces.length - 1) ∧
    ∃ q, (RtpPacket.ofBuffer p.buffer).bind RtpPacketAv1.getFrameHeaderInfo = some q ∧
      ReadsAv1Piece key f i q

section

variable (s : RtpPacketizerAv1) (payload : List Byte) (rtpTimestamp : BitVec 32)

theorem build_length :
    (s.build payload rtpTimestamp).2.length =
      (s.sentFrame payload rtpTimestamp).pieces.length := by
  simp [build, sentFrame, pieces]

/-- `Build` makes one packet for every piece. -/
theorem build_pieces {k : Nat} (hk : k < (s.sentFrame payload rtpTimestamp).pieces.length) :
    ∃ p, (s.build payload rtpTimestamp).2[k]? = some p ∧
      SentAv1Piece s.currentFrameIsKeyFrame (s.sentFrame payload rtpTimestamp) k p := by
  have htype : payloadTypeAv1.getLsbD 7 = false := by decide
  have hk' : k < (pieces payload).length := by simpa [sentFrame] using hk
  obtain ⟨hisFirst, hlast⟩ := pieces_get hk'
  set piece := (pieces payload)[k] with hpiece
  obtain ⟨p, hp, hcarries⟩ := build_packet s.absSendTimeExtId piece.isLast htype
    (s.sequenceNumber + 1 + BitVec.ofNat 16 k) rtpTimestamp s.ssrc
    (av1AggrHeader (!piece.isFirst) (!piece.isLast) (s.currentFrameIsKeyFrame && piece.isFirst) ::
      piece.bytes)
  obtain ⟨q, hq, hqtime, hqseq, hqpayload, hqstart, hqend, hqkey, hqz, hqy⟩ :=
    av1_packet_header_info hcarries
  have hisLast : piece.isLast =
      decide (k = (s.sentFrame payload rtpTimestamp).pieces.length - 1) := by
    rw [hlast, sentFrame, List.length_map]
  refine ⟨p, ?_, hcarries.marker.trans hisLast, q, ?_, ⟨hqtime, ?_, ?_⟩, hqseq,
    hqstart.trans hisFirst, hqend.trans hisLast, ?_, ?_⟩
  · have hbuilt : (RtpPacket.build {} (s.pieceBytes rtpTimestamp
        (s.sequenceNumber + 1 + BitVec.ofNat 16 k) piece)).1 = p :=
      congrArg Prod.fst (build_of_buffer hp)
    rw [← hbuilt]
    simp only [build, List.getElem?_mapIdx]
    rw [show piecesFrom 0 (parseObus payload).length (parseObus payload) = pieces payload from rfl,
      List.getElem?_eq_getElem hk']
    rfl
  · rw [of_buffer_buffer hp, hp]
    exact hq
  · rw [hqpayload]
    simp [sentFrame, hk', hpiece]
  · intro hzero
    rw [hqkey, hisFirst]
    simp [hzero]
  · rw [hqz, hisFirst]
    simp
  · rw [hqy, hisLast]
    simp

/-- Every packet belongs to a piece. -/
theorem piece_of_mem_build {p : RtpPacket} (hp : p ∈ (s.build payload rtpTimestamp).2) :
    ∃ k < (s.sentFrame payload rtpTimestamp).pieces.length,
      SentAv1Piece s.currentFrameIsKeyFrame (s.sentFrame payload rtpTimestamp) k p := by
  obtain ⟨k, hk, rfl⟩ := List.mem_iff_getElem.mp hp
  rw [build_length] at hk
  obtain ⟨p, hget, hpiece⟩ := build_pieces s payload rtpTimestamp hk
  rw [List.getElem?_eq_getElem (by rw [build_length]; exact hk)] at hget
  exact ⟨k, hk, Option.some.inj hget ▸ hpiece⟩

/-- One frame in at most half of the sequence numbers. -/
theorem sent_frame_distinct (hpos : 0 < (s.sentFrame payload rtpTimestamp).pieces.length)
    (hle : (s.sentFrame payload rtpTimestamp).pieces.length ≤ 2 ^ 15) :
    Distinct [s.sentFrame payload rtpTimestamp] := by
  change Distinct (SentFrame.inSequence (s.sequenceNumber + 1)
    [(rtpTimestamp, (s.sentFrame payload rtpTimestamp).pieces)])
  refine in_sequence_distinct ?_ (by simp) ?_
  · simpa [packetTotal] using hle
  · simpa using List.ne_nil_of_length_pos hpos

end

section Stream

variable (s : RtpPacketizerAv1) {obus : List SizedObu}
  (hfield : ∀ obu ∈ obus, obu.sizeField.length ≤ 8) (rtpTimestamp : BitVec 32)

include hfield

/-- The pieces of a stream make up its OBUs as the parser writes them. -/
theorem sent_frame_flatten :
    (s.sentFrame (obus.flatMap SizedObu.bytes) rtpTimestamp).pieces.flatten =
      obus.flatMap SizedObu.written := by
  have hsizes : ∀ obu ∈ parseObus (obus.flatMap SizedObu.bytes),
      obu.size = obu.payload.length := by
    rw [parse_obus_stream obus hfield]
    intro obu hobu
    obtain ⟨sized, -, rfl⟩ := List.mem_map.mp hobu
    rfl
  rw [sentFrame, pieces, pieces_flatten 0 _ _ hsizes, parse_obus_stream obus hfield,
    List.flatMap_map]

/-- A stream with an OBU has a piece. -/
theorem sent_frame_pos (hne : obus ≠ []) :
    0 < (s.sentFrame (obus.flatMap SizedObu.bytes) rtpTimestamp).pieces.length := by
  cases obus with
  | nil => exact absurd rfl hne
  | cons obu rest =>
      have hpos := List.length_pos_iff.mpr (obu_pieces_ne_nil
        { header := obu.header, payload := obu.written, size := obu.written.length })
      simp only [sentFrame, pieces, List.length_map, parse_obus_stream _ hfield, List.map_cons,
        piecesFrom, List.length_append, List.length_mapIdx]
      omega

/-- Small OBUs need one packet each. -/
theorem sent_frame_length_small (hsmall : ∀ obu ∈ obus, obu.written.length ≤ maxNaluLen) :
    (s.sentFrame (obus.flatMap SizedObu.bytes) rtpTimestamp).pieces.length = obus.length := by
  have hpieces : ∀ (i total : Nat) (small : List Obu), (∀ obu ∈ small, obu.size ≤ maxNaluLen) →
      (piecesFrom i total small).length = small.length := by
    intro i total small h
    induction small generalizing i with
    | nil => rfl
    | cons obu rest ih =>
        have hone : obuPieces obu = [obu.payload] := by
          simp [obuPieces, h obu List.mem_cons_self]
        rw [piecesFrom, List.length_append, List.length_mapIdx, hone,
          ih (i + 1) fun o ho => h o (List.mem_cons_of_mem _ ho)]
        simp [Nat.add_comm]
  rw [sentFrame, List.length_map, pieces, parse_obus_stream obus hfield, hpieces, List.length_map]
  intro obu hobu
  obtain ⟨sized, hsized, rfl⟩ := List.mem_map.mp hobu
  exact hsmall sized hsized

end Stream

end RtpPacketizerAv1

/-! ## Runs -/

namespace FrameAssembly

section Run

variable {s : RtpPacketizerAv1} {payload : List Byte} {rtpTimestamp : BitVec 32}

/-- The datagram of piece `j` arrives. -/
def Av1Arrives (key : Bool) (arrival : ℤ × List Byte) (f : SentFrame) (j : Nat) : Prop :=
  ∃ p, p.buffer = arrival.2 ∧ RtpPacketizerAv1.SentAv1Piece key f j p

/-- Every arrival is a step of the collector. -/
theorem receive_av1_follows (hd : Distinct [s.sentFrame payload rtpTimestamp])
    {arrival : ℤ × List Byte}
    (hsent : ∃ p ∈ (s.build payload rtpTimestamp).2, p.buffer = arrival.2) :
    Follows (Av1Fragment s.currentFrameIsKeyFrame) (WholeStream s.currentFrameIsKeyFrame)
      (fun p : RtpPacketAv1 => p.timestamp) [s.sentFrame payload rtpTimestamp] receiveAv1
      av1Collector (Av1Arrives s.currentFrameIsKeyFrame) (fun _ _ => False) arrival := by
  intro state hsound
  obtain ⟨p, hp, hbuffer⟩ := hsent
  obtain ⟨i, hi, -, q, hread, hreads⟩ := s.piece_of_mem_build payload rtpTimestamp hp
  have hmem : s.sentFrame payload rtpTimestamp ∈ [s.sentFrame payload rtpTimestamp] :=
    List.mem_singleton_self _
  refine Or.inl ⟨_, hmem, i, hi, ?_, ?_⟩
  · rintro g hg j hj ⟨p', hbuffer', -, q', hread', hreads'⟩
    -- the same datagram is read alike, so the sequence numbers agree
    rw [hbuffer', ← hbuffer, hread] at hread'
    obtain rfl := Option.some.inj hread'
    obtain ⟨rfl, rfl⟩ := hd.number _ hmem g hg i hi j hj
      (hreads.sequenceNumber.symm.trans hreads'.sequenceNumber)
    exact ⟨rfl, rfl⟩
  · simp only [receiveAv1, ← hbuffer, hread]
    exact process_av1_receives hd hmem hi hsound hreads

/-- In every run, a complete frame is the stream that was sent. -/
theorem receive_av1_sound (hd : Distinct [s.sentFrame payload rtpTimestamp])
    {arrivals : List (ℤ × List Byte)}
    (hsent : ∀ arrival ∈ arrivals,
      ∃ p ∈ (s.build payload rtpTimestamp).2, p.buffer = arrival.2) :
    Sound (Av1Fragment s.currentFrameIsKeyFrame) (WholeStream s.currentFrameIsKeyFrame)
      [s.sentFrame payload rtpTimestamp] (arrivals.foldl receiveAv1 {}).av1Collector := by
  refine run_sound (fun arrival harrival => receive_av1_follows hd (hsent arrival harrival)) ?_
  exact ⟨by simp [av1Collector, collector], by simp [av1Collector, collector],
    by simp [av1Collector, collector], by simp [av1Collector, collector]⟩

/-- The only pending frame, if there is one, has this timestamp. -/
def SinglePending (timestamp : BitVec 32) (s : FrameAssembly) : Prop :=
  s.pendingFrames = [] ∨ ∃ pendingFrame, s.pendingFrames = [(timestamp, pendingFrame)]

theorem set_single {timestamp : BitVec 32} {s : FrameAssembly} (h : SinglePending timestamp s)
    (pendingFrame : PendingFrame) :
    (s.setPendingFrame timestamp pendingFrame).pendingFrames = [(timestamp, pendingFrame)] := by
  rcases h with hnil | ⟨old, hold⟩
  · simp [setPendingFrame, hnil, OrderedMap.insertOrAssign, OrderedMap.tailAfter,
      OrderedMap.lowerBound]
  · simp [setPendingFrame, hold, OrderedMap.insertOrAssign, OrderedMap.tailAfter,
      OrderedMap.lowerBound, rtp_timestamp_irrefl]

/-- Packets of one timestamp leave one pending frame. -/
theorem process_av1_single {timestamp : BitVec 32} {s : FrameAssembly}
    (h : SinglePending timestamp s) {now : ℤ} {p : RtpPacketAv1} (hp : p.timestamp = timestamp) :
    SinglePending timestamp (s.processAv1RtpPacket now p) := by
  subst hp
  simp only [processAv1RtpPacket, checkIsAv1FrameCompleted]
  set marked := (({ s with
      incompleteAv1FrameList :=
        Function.update s.incompleteAv1FrameList p.sequenceNumber
          (some p) } : FrameAssembly).trackPendingFramePacket now p.timestamp
            p.sequenceNumber).setFrameMarkers p.timestamp p.sequenceNumber p.av1FrameStart
              p.av1FrameEnd with hmarked
  have htracked : SinglePending p.timestamp marked := Or.inr ⟨_, set_single h _⟩
  cases marked.completeRange marked.incompleteAv1FrameList (fun q => q.timestamp) p.timestamp with
  | none => exact htracked
  | some range =>
      simp only [popCompleteAv1Frame]
      set cleared := FrameAssembly.clearFrameMarkers _ p.timestamp with hcleared
      have hsingle : SinglePending p.timestamp cleared := htracked
      set frame := (createReceivedFrame _ now _ p.timestamp).2
      rcases commit_pending_frame_eq cleared now p.timestamp frame
        ((marked.incompleteAv1FrameList range.1).any RtpPacketAv1.isKeyFrame) range.2.1 true with
        ⟨-, -, hsame⟩ | ⟨arrivalTime, hset⟩
      · rw [hsame]
        exact hsingle
      · rw [hset]
        exact Or.inr ⟨_, set_single hsingle _⟩

/-- Arrivals of one frame leave one pending frame. -/
theorem receive_av1_single {arrivals : List (ℤ × List Byte)}
    (hsent : ∀ arrival ∈ arrivals,
      ∃ p ∈ (s.build payload rtpTimestamp).2, p.buffer = arrival.2) {state : FrameAssembly}
    (h : SinglePending rtpTimestamp state) :
    SinglePending rtpTimestamp (arrivals.foldl receiveAv1 state) := by
  induction arrivals generalizing state with
  | nil => exact h
  | cons arrival rest ih =>
      refine ih (fun other hother => hsent other (List.mem_cons_of_mem _ hother)) ?_
      obtain ⟨p, hp, hbuffer⟩ := hsent arrival List.mem_cons_self
      obtain ⟨i, -, -, q, hread, hreads⟩ := s.piece_of_mem_build payload rtpTimestamp hp
      simp only [receiveAv1, ← hbuffer, hread]
      exact process_av1_single h hreads.fragment.1

/-- A frame of more than 4096 packets is never complete. -/
theorem long_frame_never_complete {arrivals : List (ℤ × List Byte)}
    (hlong : kMaxPacketsPerFrame < (s.build payload rtpTimestamp).2.length)
    (hle : (s.build payload rtpTimestamp).2.length ≤ 2 ^ 15)
    (hsent : ∀ arrival ∈ arrivals,
      ∃ p ∈ (s.build payload rtpTimestamp).2, p.buffer = arrival.2)
    {entry : BitVec 32 × PendingFrame}
    (hentry : entry ∈ (arrivals.foldl receiveAv1 {}).pendingFrames) :
    entry.2.isComplete = false := by
  rw [s.build_length] at hlong hle
  have hd := s.sent_frame_distinct payload rtpTimestamp (by omega) hle
  by_contra hcomplete
  obtain ⟨f, hf, -, frame, -, hshort, -⟩ :=
    (receive_av1_sound hd hsent).complete entry hentry (by simpa using hcomplete)
  obtain rfl := List.mem_singleton.mp hf
  omega

end Run

/-- Transport of AV1 frames is exact, in whatever order and how often the packets arrive: a stream
of at most 4096 packets gives one complete frame with the bytes of the stream, in which an OBU
without data has a size field of one byte, and with the key frame flag of the packetizer.
The first packet alone has Z = 0, and the last one alone has Y = 0 and the marker. -/
theorem av1_transport_exact (s : RtpPacketizerAv1) (obus : List SizedObu) (hne : obus ≠ [])
    (hfield : ∀ obu ∈ obus, obu.sizeField.length ≤ 8) (rtpTimestamp : BitVec 32)
    (hshort : (s.build (obus.flatMap SizedObu.bytes) rtpTimestamp).2.length ≤ kMaxPacketsPerFrame)
    (arrivals : List (ℤ × List Byte))
    (hsent : ∀ arrival ∈ arrivals,
      ∃ p ∈ (s.build (obus.flatMap SizedObu.bytes) rtpTimestamp).2, p.buffer = arrival.2)
    (hall : ∀ p ∈ (s.build (obus.flatMap SizedObu.bytes) rtpTimestamp).2,
      ∃ arrival ∈ arrivals, arrival.2 = p.buffer) :
    (∃ pendingFrame frame,
      (arrivals.foldl receiveAv1 {}).pendingFrames = [(rtpTimestamp, pendingFrame)] ∧
      pendingFrame.isComplete = true ∧ pendingFrame.frame = some frame ∧
      frame.data = obus.flatMap SizedObu.written ∧
      pendingFrame.isKeyframe = s.currentFrameIsKeyFrame) ∧
    ∀ k p, (s.build (obus.flatMap SizedObu.bytes) rtpTimestamp).2[k]? = some p →
      ∃ q, (RtpPacket.ofBuffer p.buffer).bind RtpPacketAv1.getFrameHeaderInfo = some q ∧
        (q.z = 0 ↔ k = 0) ∧
        (q.y = 0 ↔ k = (s.build (obus.flatMap SizedObu.bytes) rtpTimestamp).2.length - 1) ∧
        (p.marker = true ↔
          k = (s.build (obus.flatMap SizedObu.bytes) rtpTimestamp).2.length - 1) := by
  set payload := obus.flatMap SizedObu.bytes with hpayload
  have hpos : 0 < (s.sentFrame payload rtpTimestamp).pieces.length :=
    s.sent_frame_pos hfield rtpTimestamp hne
  rw [s.build_length] at hshort
  have hd := s.sent_frame_distinct payload rtpTimestamp hpos
    (Nat.le_trans hshort (by decide))
  have hmem : s.sentFrame payload rtpTimestamp ∈ [s.sentFrame payload rtpTimestamp] :=
    List.mem_singleton_self _
  constructor
  · have harrived : ∀ j < (s.sentFrame payload rtpTimestamp).pieces.length,
        ∃ arrival ∈ arrivals, Av1Arrives s.currentFrameIsKeyFrame arrival
          (s.sentFrame payload rtpTimestamp) j := by
      intro j hj
      obtain ⟨p, hget, hpiece⟩ := s.build_pieces payload rtpTimestamp hj
      obtain ⟨arrival, harrival, hbuffer⟩ := hall p (List.mem_of_getElem? hget)
      exact ⟨arrival, harrival, p, hbuffer.symm, hpiece⟩
    have hsound := receive_av1_sound hd hsent
    obtain ⟨entry, hentry, hkey, hcomplete⟩ := run_complete hd (fun g j q hq => hq.1)
      (fun arrival harrival => receive_av1_follows hd (hsent arrival harrival)) hmem hshort
      (fun _ _ => id) harrived
      (receive_av1_sound hd (by simp : ∀ arrival ∈ [], _))
    obtain ⟨f, hf, -, frame, hframe, -, hdata, hflag⟩ := hsound.complete entry hentry hcomplete
    obtain rfl := List.mem_singleton.mp hf
    -- the complete frame is the only pending one
    have hsingle : SinglePending rtpTimestamp (arrivals.foldl receiveAv1 {}) :=
      receive_av1_single hsent (Or.inl rfl)
    rcases hsingle with hnil | ⟨pendingFrame, hone⟩
    · simp only [av1Collector, collector, List.foldl_nil, hnil] at hentry
      exact absurd hentry List.not_mem_nil
    · simp only [av1Collector, collector, List.foldl_nil, hone] at hentry
      obtain rfl := List.mem_singleton.mp hentry
      exact ⟨pendingFrame, frame, hone, hcomplete, hframe,
        hdata.trans (s.sent_frame_flatten hfield rtpTimestamp), hflag⟩
  · intro k p hget
    have hk : k < (s.sentFrame payload rtpTimestamp).pieces.length := by
      rw [← s.build_length]
      exact (List.getElem?_eq_some_iff.mp hget).1
    obtain ⟨p', hget', hmarker, q, hread, hreads⟩ := s.build_pieces payload rtpTimestamp hk
    obtain rfl := Option.some.inj (hget.symm.trans hget')
    rw [s.build_length]
    exact ⟨q, hread, hreads.z, hreads.y, by rw [hmarker, decide_eq_true_eq]⟩

/-- A temporal delimiter, which has no data. -/
def delimiterObu : SizedObu :=
  { header := 0x12
    extension := []
    sizeField := [0]
    data := []
    hasSize := by decide
    hasExtension := by decide
    sizeFieldValue := Leb128.last (by decide) }

/-- A frame with an extension header and a size field that is longer than needed. -/
def extendedObu : SizedObu :=
  { header := 0x36
    extension := [0x20]
    sizeField := [0x82, 0x00]
    data := [0xAA, 0xBB]
    hasSize := by decide
    hasExtension := by decide
    sizeFieldValue := Leb128.more (by decide) (Leb128.last (by decide)) }

/-- The packets of a stream, each of which arrives once. -/
def arrivalsOf (s : RtpPacketizerAv1) (payload : List Byte) : List (ℤ × List Byte) :=
  (s.build payload 3000).2.map fun p => (1000, p.buffer)

theorem extended_stream_arrives :
    ∃ pendingFrame frame,
      ((arrivalsOf { currentFrameIsKeyFrame := true }
        ([delimiterObu, extendedObu].flatMap SizedObu.bytes)).reverse.foldl receiveAv1
          {}).pendingFrames = [(3000, pendingFrame)] ∧
      pendingFrame.isComplete = true ∧ pendingFrame.frame = some frame ∧
      frame.data = [0x12, 0x00, 0x36, 0x20, 0x82, 0x00, 0xAA, 0xBB] ∧
      pendingFrame.isKeyframe = true := by
  refine (av1_transport_exact { currentFrameIsKeyFrame := true } [delimiterObu, extendedObu]
    (by simp) (by decide) 3000 (by decide +kernel) _ ?_ ?_).1
  · intro arrival harrival
    obtain ⟨p, hp, rfl⟩ := List.mem_map.mp (List.mem_reverse.mp harrival)
    exact ⟨p, hp, rfl⟩
  · exact fun p hp => ⟨_, List.mem_reverse.mpr (List.mem_map_of_mem hp), rfl⟩

/-- A size of zero that is written in two bytes arrives in one, and a stream of 4097 temporal
delimiters never arrives. -/
theorem av1_transport_changes_streams :
    (parseObus [0x12, 0x80, 0x00] = [⟨0x12, [0x12, 0x00], 2⟩] ∧
      ((arrivalsOf {} [0x12, 0x80, 0x00]).foldl receiveAv1 {}).pendingFrames.map
        (fun entry => entry.2.frame.map ReceivedFrame.data) = [some [0x12, 0x00]]) ∧
    ∀ entry ∈ ((arrivalsOf {} ((List.replicate 4097 delimiterObu).flatMap
      SizedObu.bytes)).foldl receiveAv1 {}).pendingFrames, entry.2.isComplete = false := by
  refine ⟨by decide +kernel, fun entry hentry => ?_⟩
  have hlength : (RtpPacketizerAv1.build {} ((List.replicate 4097 delimiterObu).flatMap
      SizedObu.bytes) 3000).2.length = 4097 := by
    rw [RtpPacketizerAv1.build_length, RtpPacketizerAv1.sent_frame_length_small,
      List.length_replicate]
    · intro obu hobu
      rw [List.eq_of_mem_replicate hobu]
      decide
    · intro obu hobu
      rw [List.eq_of_mem_replicate hobu]
      decide
  refine long_frame_never_complete (by rw [hlength]; decide) (by rw [hlength]; decide) ?_ hentry
  intro arrival harrival
  obtain ⟨p, hp, rfl⟩ := List.mem_map.mp harrival
  exact ⟨p, hp, rfl⟩

end FrameAssembly

end MiniRtc

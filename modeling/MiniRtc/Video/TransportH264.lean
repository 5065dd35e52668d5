import MiniRtc.Video.FrameCollector

/-!
# Transport of H.264 frames

One `RtpPacketizerH264` cuts frames into packets, the network loses, repeats and reorders them, and
`ProcessH264RtpPacket` puts the frames together again. `packet_is_piece` says what the receiver
reads from each packet that the sender builds and `process_h264_receives` what a piece does to the
receiver, whatever is there already. The result of the module, `h264_transport_exact`, is about
every run: what is complete is right, and what arrived is complete.
-/

namespace MiniRtc

open Circle Collector

/-- A frame that is handed to a packetizer, with the send time extension in use then. -/
structure FrameToSend where
  absSendTimeExtId : Option Byte := none
  payload : List Byte
  rtpTimestamp : BitVec 32

/-- What happens to a receiver: a datagram arrives, or a pending frame and the buffers of a
timestamp are cleared, as `Process` does it. -/
inductive TransportEvent where
  | receive (now : ℤ) (datagram : List Byte)
  | erase (entry : BitVec 32 × PendingFrame)
  | drop (timestamp : BitVec 32)

/-- The timestamp that an event takes something away from. -/
def TransportEvent.removed : TransportEvent → Option (BitVec 32)
  | receive _ _ => none
  | erase entry => some entry.1
  | drop timestamp => some timestamp

namespace FrameAssembly

/-- A datagram on its way to `ProcessH264RtpPacket`. -/
def receiveH264 (s : FrameAssembly) (now : ℤ) (datagram : List Byte) : FrameAssembly :=
  match (RtpPacket.ofBuffer datagram).bind RtpPacketH264.getFrameHeaderInfo with
  | none => s
  | some p => s.processH264RtpPacket now p

/-- The receiver after an event. -/
def transportH264 (s : FrameAssembly) : TransportEvent → FrameAssembly
  | .receive now datagram => s.receiveH264 now datagram
  | .erase entry => { s with pendingFrames := s.pendingFrames.erase entry }
  | .drop timestamp => s.dropFrameAssembly timestamp

/-- The members of the receiver that H.264 uses. -/
def h264Collector (s : FrameAssembly) : Collector RtpPacketH264 :=
  s.collector s.incompleteH264FrameList

end FrameAssembly

namespace RtpPacketizerH264

/-- Choose the send time extension and build the packets of one frame. -/
def buildFrame (s : RtpPacketizerH264) (frame : FrameToSend) :
    RtpPacketizerH264 × List RtpPacket :=
  { s with absSendTimeExtId := setAbsoluteSendTimeExtensionId frame.absSendTimeExtId }.build
    frame.payload frame.rtpTimestamp

/-- The packets of frames that are built one after the other. -/
def buildAll (s : RtpPacketizerH264) : List FrameToSend → List RtpPacket
  | [] => []
  | frame :: rest => (s.buildFrame frame).2 ++ (s.buildFrame frame).1.buildAll rest

/-- The pieces of a payload. -/
def pieces (payload : List Byte) : List (List Byte) :=
  if payload.length ≤ maxNaluLen then [payload]
  else (List.range (packetNum payload)).map (fragment payload)

/-- The frames as they are sent one after the other. -/
def sentFrames (s : RtpPacketizerH264) (frames : List FrameToSend) : List SentFrame :=
  SentFrame.inSequence (s.sequenceNumber + 1)
    (frames.map fun frame => (frame.rtpTimestamp, pieces frame.payload))

end RtpPacketizerH264

/-! ## One packet at the receiver -/

/-- The packet in the buffer is the piece `i` of the frame. -/
def FuaFragment (f : SentFrame) (i : Nat) (p : RtpPacketH264) : Prop :=
  p.timestamp = f.timestamp ∧ f.pieces[i]? = some p.payload

/-- The bytes of the frame behind a header byte. -/
def WholeFrame (f : SentFrame) (frame : ReceivedFrame) (_ : Bool) : Prop :=
  ∃ header, frame.data = header :: f.pieces.flatten

/-- What the receiver reads from the packet of piece `i`. -/
structure ReadsPiece (f : SentFrame) (i : Nat) (p : RtpPacketH264) : Prop where
  timestamp : p.timestamp = f.timestamp
  sequenceNumber : p.sequenceNumber = f.number i
  payload : f.pieces[i]? = some p.payload
  kind : (f.pieces.length = 1 ∧ p.nalUnitType = nalUnitTypeNalu) ∨
    (p.nalUnitType = nalUnitTypeFuA ∧ p.fuStart = decide (i = 0) ∧
      p.fuEnd = decide (i = f.pieces.length - 1))

namespace FrameAssembly

section Receive

variable {s : FrameAssembly} {frames : List SentFrame} {f : SentFrame} {i : Nat}
  {p : RtpPacketH264} {now : ℤ}

/-- A single packet completes its frame. -/
theorem process_nalu_receives (hread : ReadsPiece f i p) (hi : i < f.pieces.length)
    (hone : f.pieces.length = 1) (htype : p.nalUnitType = nalUnitTypeNalu) :
    Receives FuaFragment WholeFrame s.h264Collector f i
      (s.processH264RtpPacket now p).h264Collector := by
  have hpieces : f.pieces.flatten = p.payload := by
    obtain ⟨piece, hpiece⟩ := List.length_eq_one_iff.mp hone
    have hget := hread.payload
    obtain rfl : i = 0 := by omega
    simp only [hpiece, List.getElem?_cons_zero, Option.some.injEq] at hget
    simp [hpiece, hget]
  simp only [processH264RtpPacket, htype, if_true]
  set created := s.createReceivedFrame now
    (fuIndicatorByte p.forbiddenBit p.nalReferenceIdc nalUnitTypeNalu :: p.payload) p.timestamp
    with hcreated
  set committed := created.1.commitPendingFrame now p.timestamp created.2
    (isH264KeyFrame created.2.data) p.sequenceNumber false with hcommitted
  have hfound : false = true → created.1.pendingFrame? p.timestamp ≠ none := by simp
  have hview : committed.h264Collector =
      { s.h264Collector with pending := committed.pendingFrames } := by
    obtain ⟨pendingFrames, hsame⟩ := commit_pending_only created.1 now p.timestamp created.2
      (isH264KeyFrame created.2.data) p.sequenceNumber false
    rw [hcommitted, hsame]
    rfl
  rw [hview]
  refine Receives.direct _ ?_ ?_ ?_
  · exact fun g hg => commit_kept hfound g (Or.inl hg)
  · exact commit_kept hfound f (Or.inr hread.timestamp.symm)
  · intro entry hentry hcomplete
    rcases commit_inherited hfound hentry hcomplete with hold | ⟨htime, hframe, -⟩
    · exact Or.inl hold
    · refine Or.inr ⟨htime.trans hread.timestamp, created.2, hframe, ?_⟩
      exact ⟨_, by rw [hpieces]; rfl⟩

/-- The fragments in a row make up the payload, and the first one is there. -/
theorem gathered_whole (hpos : 0 < f.pieces.length)
    (hall : (s.collector s.incompleteH264FrameList).AllPresent FuaFragment f) :
    (∃ first, s.incompleteH264FrameList f.first = some first) ∧
      Slots.gather s.incompleteH264FrameList (fun p => p.payload) f.first f.pieces.length =
        f.pieces.flatten := by
  obtain ⟨first, hfirst, -⟩ := hall.slots 0 hpos
  rw [SentFrame.number_zero] at hfirst
  refine ⟨⟨first, hfirst⟩, Slots.gather_eq fun j hj => ?_⟩
  obtain ⟨q, hq, -, hpayload⟩ := hall.slots j hj
  exact ⟨q, hq, by simpa [hj] using hpayload.symm⟩

/-- A fragment waits for the others or completes its frame. -/
theorem process_fua_receives (hd : Distinct frames) (hf : f ∈ frames) (hi : i < f.pieces.length)
    (hsound : Sound FuaFragment WholeFrame frames s.h264Collector) (hread : ReadsPiece f i p)
    (htype : p.nalUnitType = nalUnitTypeFuA) (hstart : p.fuStart = decide (i = 0))
    (hend : p.fuEnd = decide (i = f.pieces.length - 1)) :
    Receives FuaFragment WholeFrame s.h264Collector f i
      (s.processH264RtpPacket now p).h264Collector := by
  have hfragment : FuaFragment f i p := ⟨hread.timestamp, hread.payload⟩
  have hother : nalUnitTypeFuA ≠ nalUnitTypeNalu := by decide
  simp only [processH264RtpPacket, htype, hother, if_false, if_true, checkIsH264FrameCompleted]
  set marked := (({ s with
      incompleteH264FrameList :=
        Function.update s.incompleteH264FrameList p.sequenceNumber
          (some p) } : FrameAssembly).trackPendingFramePacket now p.timestamp
            p.sequenceNumber).setFrameMarkers p.timestamp p.sequenceNumber p.fuStart p.fuEnd
    with hmarked
  have hview : marked.collector marked.incompleteH264FrameList =
      s.h264Collector.stored f i p marked.pendingFrames := by
    simp only [hmarked, setFrameMarkers, hstart, hend, hread.timestamp, hread.sequenceNumber,
      decide_eq_true_eq]
    rfl
  have hkept : ∀ g, CompleteIn s.h264Collector.pending g → CompleteIn marked.pendingFrames g :=
    fun g hg => track_kept hg
  have hinherited : ∀ entry ∈ marked.pendingFrames, entry.2.isComplete = true →
      Inherited s.h264Collector.pending entry :=
    fun entry hentry hcomplete => track_inherited hentry hcomplete
  rw [hread.timestamp]
  rcases stored_receives hd hf hi (fun g j q hq => hq.1) hsound hfragment hview hkept hinherited
    with ⟨hnone, hwaiting⟩ | ⟨hsome, -, hall⟩
  · simp only [hnone]
    exact hwaiting
  · obtain ⟨⟨first, hfirst⟩, hgather⟩ := gathered_whole (hd.nonempty f hf) hall
    simp only [hsome, popCompleteFrame, hfirst, hgather]
    set popped := ({ marked with
      incompleteH264FrameList := Slots.vacate marked.incompleteH264FrameList f.first
        f.pieces.length } : FrameAssembly).createReceivedFrame now
          ([fuIndicatorByte first.forbiddenBit first.nalReferenceIdc first.fuNalUnitType] ++
            f.pieces.flatten) f.timestamp with hpopped
    have hfound : popped.1.pendingFrame? f.timestamp ≠ none := by
      have hself : popped.1.pendingFrame? p.timestamp = some _ := pending_frame_set_self
      rw [← hread.timestamp, hself]
      simp
    set committed := (popped.1.clearFrameMarkers f.timestamp).commitPendingFrame now f.timestamp
      popped.2 (isH264KeyFrame popped.2.data) f.last true with hcommitted
    have hslots : committed.incompleteH264FrameList =
        Slots.vacate marked.incompleteH264FrameList f.first f.pieces.length := by
      obtain ⟨pendingFrames, hsame⟩ := commit_pending_only (popped.1.clearFrameMarkers f.timestamp)
        now f.timestamp popped.2 (isH264KeyFrame popped.2.data) f.last true
      rw [hcommitted, hsame]
      rfl
    have hcommit : committed.h264Collector = committed.collector
        (Slots.vacate marked.incompleteH264FrameList f.first f.pieces.length) := by
      rw [h264Collector, hslots]
    rw [hcommit]
    exact committed_receives (s := popped.1) hfragment hview hkept hinherited hfound
      ⟨_, rfl⟩ f.last

end Receive

end FrameAssembly

/-! ## The packets of the sender -/

/-- The packet is the one that was built for piece `i`. -/
def SentPiece (f : SentFrame) (i : Nat) (p : RtpPacket) : Prop :=
  p.timestamp = f.timestamp ∧
    ∃ q, (RtpPacket.ofBuffer p.buffer).bind RtpPacketH264.getFrameHeaderInfo = some q ∧
      ReadsPiece f i q

/-- A list of packets that were built one for each index. -/
theorem filter_map_range {build : Nat → Option RtpPacket} {Q : Nat → RtpPacket → Prop} {n : Nat}
    (h : ∀ i < n, ∃ p, build i = some p ∧ Q i p) :
    ((List.range n).filterMap build).length = n ∧
      ∀ i < n, ∃ p, ((List.range n).filterMap build)[i]? = some p ∧ Q i p := by
  induction n with
  | zero => simp
  | succ n ih =>
      obtain ⟨hlength, hget⟩ := ih fun i hi => h i (by omega)
      obtain ⟨p, hp, hq⟩ := h n (by omega)
      simp only [List.range_succ, List.filterMap_append, List.filterMap_cons, hp,
        List.filterMap_nil]
      refine ⟨by simp [hlength], fun i hi => ?_⟩
      rcases Nat.lt_or_ge i n with hlt | hge
      · rw [List.getElem?_append_left (by omega)]
        exact hget i hlt
      · obtain rfl : i = n := by omega
        rw [List.getElem?_append_right (by omega), hlength]
        exact ⟨p, by simp, hq⟩

namespace RtpPacketizerH264

/-- The pieces make up the payload. -/
theorem pieces_flatten (payload : List Byte) : (pieces payload).flatten = payload := by
  unfold pieces
  split_ifs
  · simp
  · exact fragments_flatten payload

theorem pieces_ne_nil (payload : List Byte) : pieces payload ≠ [] := by
  unfold pieces
  split_ifs with hshort
  · simp
  · have := two_le_packet_num (Nat.lt_of_not_le hshort)
    simp only [ne_eq, List.map_eq_nil_iff, List.range_eq_nil]
    omega

/-- `Build` makes one packet for every piece, with the next sequence numbers. -/
theorem build_pieces (s : RtpPacketizerH264) (payload : List Byte) (timestamp : BitVec 32) :
    let f : SentFrame := ⟨timestamp, s.sequenceNumber + 1, pieces payload⟩
    (s.build payload timestamp).1.sequenceNumber =
        s.sequenceNumber + BitVec.ofNat 16 (pieces payload).length ∧
      (s.build payload timestamp).2.length = (pieces payload).length ∧
      ∀ i < (pieces payload).length,
        ∃ p, (s.build payload timestamp).2[i]? = some p ∧ SentPiece f i p := by
  intro f
  have htype : payloadTypeH264.getLsbD 7 = false := by decide
  unfold build
  split_ifs with hshort
  · -- a single packet
    have hpieces : pieces payload = [payload] := by simp [pieces, hshort]
    obtain ⟨p, hp, hcarries⟩ := build_packet s.absSendTimeExtId true htype (s.sequenceNumber + 1)
      timestamp s.ssrc (naluBody payload)
    obtain ⟨q, hq, hqtime, hqseq, hqtype, hqpayload⟩ := nalu_packet_header_info hcarries
    simp only [buildNalu, hp, hpieces, Option.toList_some, List.length_singleton, true_and]
    refine ⟨rfl, fun i hi => ?_⟩
    obtain rfl : i = 0 := by omega
    refine ⟨p, rfl, hcarries.timestamp, q, ?_, hqtime, ?_, ?_, ?_⟩
    · rw [of_buffer_buffer hp, hp]
      exact hq
    · simpa [f] using hqseq
    · simp [f, hpieces, hqpayload]
    · exact Or.inl ⟨by simp [f, hpieces], hqtype⟩
  · -- the fragments
    have hpieces : pieces payload = (List.range (packetNum payload)).map (fragment payload) := by
      simp [pieces, hshort]
    have hlength : (pieces payload).length = packetNum payload := by simp [hpieces]
    have hbuilt : ∀ i < packetNum payload, ∃ p,
        RtpPacket.ofBuffer (packetBytes s.absSendTimeExtId (i = packetNum payload - 1)
          payloadTypeH264 (s.sequenceNumber + 1 + BitVec.ofNat 16 i) timestamp s.ssrc
          (fuaBody payload i)) = some p ∧ SentPiece f i p := by
      intro i hi
      obtain ⟨p, hp, hcarries⟩ := build_packet s.absSendTimeExtId (i = packetNum payload - 1) htype
        (s.sequenceNumber + 1 + BitVec.ofNat 16 i) timestamp s.ssrc (fuaBody payload i)
      obtain ⟨q, hq, hqtime, hqseq, hqtype, hqstart, hqend, hqpayload⟩ :=
        fua_packet_header_info hcarries
      refine ⟨p, hp, hcarries.timestamp, q, ?_, hqtime, hqseq, ?_, ?_⟩
      · rw [of_buffer_buffer hp, hp]
        exact hq
      · simp [f, hpieces, hi, hqpayload]
      · exact Or.inr ⟨hqtype, hqstart, by simpa [f, hlength] using hqend⟩
    obtain ⟨hcount, hget⟩ := filter_map_range hbuilt
    simp only [buildFua, hlength]
    exact ⟨trivial, hcount, hget⟩

theorem build_frame_pieces (s : RtpPacketizerH264) (frame : FrameToSend) :
    let f : SentFrame := ⟨frame.rtpTimestamp, s.sequenceNumber + 1, pieces frame.payload⟩
    (s.buildFrame frame).1.sequenceNumber =
        s.sequenceNumber + BitVec.ofNat 16 (pieces frame.payload).length ∧
      (s.buildFrame frame).2.length = (pieces frame.payload).length ∧
      ∀ i < (pieces frame.payload).length,
        ∃ p, (s.buildFrame frame).2[i]? = some p ∧ SentPiece f i p :=
  build_pieces _ frame.payload frame.rtpTimestamp

/-- The packets of frames in a row are the pieces of the frames in sequence. -/
theorem build_all_pieces (s : RtpPacketizerH264) (frames : List FrameToSend) :
    (s.buildAll frames).length =
        packetTotal (frames.map fun frame => (frame.rtpTimestamp, pieces frame.payload)) ∧
      (∀ p ∈ s.buildAll frames, ∃ f ∈ s.sentFrames frames, ∃ i < f.pieces.length,
        SentPiece f i p) ∧
      (∀ f ∈ s.sentFrames frames, ∀ i < f.pieces.length, ∃ p ∈ s.buildAll frames,
        SentPiece f i p) := by
  induction frames generalizing s with
  | nil => simp [buildAll, sentFrames, SentFrame.inSequence, packetTotal]
  | cons frame rest ih =>
      obtain ⟨hnext, hlength, hget⟩ := s.build_frame_pieces frame
      obtain ⟨ihlength, ihsent, ihall⟩ := ih (s.buildFrame frame).1
      have hframes : s.sentFrames (frame :: rest) =
          ⟨frame.rtpTimestamp, s.sequenceNumber + 1, pieces frame.payload⟩ ::
            (s.buildFrame frame).1.sentFrames rest := by
        simp only [sentFrames, List.map_cons, SentFrame.inSequence, hnext]
        rw [add_right_comm]
      simp only [buildAll, hframes]
      refine ⟨?_, ?_, ?_⟩
      · rw [List.length_append, hlength, ihlength]
        simp [packetTotal]
      · intro p hp
        rcases List.mem_append.mp hp with hhead | htail
        · obtain ⟨i, hi, rfl⟩ := List.mem_iff_getElem.mp hhead
          obtain ⟨p, hp, hpiece⟩ := hget i (by omega)
          obtain rfl := Option.some.inj ((List.getElem?_eq_getElem hi).symm.trans hp)
          exact ⟨_, List.mem_cons_self, i, by simpa [hlength] using hi, hpiece⟩
        · obtain ⟨f, hf, i, hi, hpiece⟩ := ihsent p htail
          exact ⟨f, List.mem_cons_of_mem _ hf, i, hi, hpiece⟩
      · intro f hf i hi
        rcases List.mem_cons.mp hf with rfl | htail
        · obtain ⟨p, hp, hpiece⟩ := hget i hi
          exact ⟨p, List.mem_append_left _ (List.mem_of_getElem? hp), hpiece⟩
        · obtain ⟨p, hp, hpiece⟩ := ihall f htail i hi
          exact ⟨p, List.mem_append_right _ hp, hpiece⟩

/-- A frame that was sent is one of the frames in sequence. -/
theorem mem_sent_frames {s : RtpPacketizerH264} {frames : List FrameToSend}
    {content : BitVec 32 × List (List Byte)} :
    (∃ f ∈ s.sentFrames frames, (f.timestamp, f.pieces) = content) ↔
      ∃ frame ∈ frames, (frame.rtpTimestamp, pieces frame.payload) = content := by
  have hcontent := content_in_sequence (s.sequenceNumber + 1)
    (frames.map fun frame => (frame.rtpTimestamp, pieces frame.payload))
  rw [← List.mem_map, sentFrames, hcontent, List.mem_map]

/-- At least one packet for every piece of a frame has its timestamp. -/
theorem pieces_length_le {s : RtpPacketizerH264} {frames : List FrameToSend} {frame : FrameToSend}
    (h : frame ∈ frames) :
    (pieces frame.payload).length ≤
      ((s.buildAll frames).filter fun p => p.timestamp = frame.rtpTimestamp).length := by
  induction frames generalizing s with
  | nil => simp at h
  | cons head rest ih =>
      rw [buildAll, List.filter_append, List.length_append]
      rcases List.mem_cons.mp h with rfl | htail
      · obtain ⟨-, hlength, hget⟩ := s.build_frame_pieces frame
        have hall : ∀ p ∈ (s.buildFrame frame).2, decide (p.timestamp = frame.rtpTimestamp) := by
          intro p hp
          obtain ⟨i, hi, rfl⟩ := List.mem_iff_getElem.mp hp
          obtain ⟨p, hp, htime, -⟩ := hget i (by omega)
          obtain rfl := Option.some.inj ((List.getElem?_eq_getElem hi).symm.trans hp)
          simpa using htime
        rw [List.filter_eq_self.mpr hall, hlength]
        omega
      · exact Nat.le_trans (ih htail) (Nat.le_add_left _ _)

theorem sent_frames_distinct {s : RtpPacketizerH264} {frames : List FrameToSend}
    (htimes : (frames.map FrameToSend.rtpTimestamp).Nodup)
    (hwindow : (s.buildAll frames).length ≤ 2 ^ 15) : Distinct (s.sentFrames frames) := by
  rw [(s.build_all_pieces frames).1] at hwindow
  refine in_sequence_distinct hwindow ?_ ?_
  · rw [List.map_map]
    exact htimes
  · intro content hcontent
    obtain ⟨frame, -, rfl⟩ := List.mem_map.mp hcontent
    exact pieces_ne_nil frame.payload

end RtpPacketizerH264

/-! ## Runs -/

/-- Two pieces that are read alike are the same piece. -/
theorem sent_piece_unique {frames : List SentFrame} (hd : Distinct frames) {f g : SentFrame}
    (hf : f ∈ frames) (hg : g ∈ frames) {i j : Nat} (hi : i < f.pieces.length)
    (hj : j < g.pieces.length) {p q : RtpPacket} (hbuffer : p.buffer = q.buffer)
    (hp : SentPiece f i p) (hq : SentPiece g j q) : f = g ∧ i = j := by
  obtain ⟨-, read, hread, hpiece⟩ := hp
  obtain ⟨-, read', hread', hpiece'⟩ := hq
  rw [hbuffer, hread'] at hread
  obtain rfl := Option.some.inj hread
  exact hd.number f hf g hg i hi j hj (hpiece.sequenceNumber.symm.trans hpiece'.sequenceNumber)

/-- A datagram of piece `j` arrives. -/
def Arrives (e : TransportEvent) (f : SentFrame) (j : Nat) : Prop :=
  ∃ now p, e = .receive now p.buffer ∧ SentPiece f j p

namespace FrameAssembly

/-- Erasing a pending frame takes away nothing of other timestamps. -/
theorem erase_removed (s : FrameAssembly) (entry : BitVec 32 × PendingFrame) :
    Removed (fun p : RtpPacketH264 => p.timestamp) entry.1 s.h264Collector
      (s.transportH264 (.erase entry)).h264Collector := by
  refine ⟨fun _ => Or.inl rfl, fun _ => Or.inl rfl, fun _ => Or.inl rfl, ?_, ?_⟩
  · exact fun other hother => List.mem_of_mem_erase hother
  · intro other hother hne
    exact (List.mem_erase_of_ne fun heq => hne (congrArg Prod.fst heq)).mpr hother

/-- Dropping the buffers of a timestamp takes away nothing of others. -/
theorem drop_removed (s : FrameAssembly) (timestamp : BitVec 32) :
    Removed (fun p : RtpPacketH264 => p.timestamp) timestamp s.h264Collector
      (s.transportH264 (.drop timestamp)).h264Collector := by
  have hmarker : ∀ (markers : BitVec 32 → Option (BitVec 16)) (t : BitVec 32),
      Function.update markers timestamp none t = markers t ∨
        (Function.update markers timestamp none t = none ∧ t = timestamp) := by
    intro markers t
    by_cases heq : t = timestamp
    · exact Or.inr ⟨by rw [heq, Function.update_self], heq⟩
    · exact Or.inl (Function.update_of_ne heq _ _)
  refine ⟨fun x => ?_, hmarker _, hmarker _, fun _ h => h, fun _ h _ => h⟩
  change (s.incompleteH264FrameList x).filter _ = s.incompleteH264FrameList x ∨
    ((s.incompleteH264FrameList x).filter _ = none ∧ ∃ p, s.incompleteH264FrameList x = some p ∧ _)
  cases hslot : s.incompleteH264FrameList x with
  | none => simp
  | some p =>
      by_cases htime : p.timestamp = timestamp
      · exact Or.inr ⟨by simp [htime], p, rfl, htime⟩
      · exact Or.inl (by simp [htime])

/-- Every event of the transport is a step of the collector. -/
theorem transport_follows {s : RtpPacketizerH264} {frames : List FrameToSend}
    (hd : Distinct (s.sentFrames frames)) {e : TransportEvent}
    (hsent : ∀ now datagram, e = .receive now datagram →
      ∃ p ∈ s.buildAll frames, p.buffer = datagram) :
    Follows FuaFragment WholeFrame (fun p : RtpPacketH264 => p.timestamp) (s.sentFrames frames)
      transportH264 h264Collector Arrives (fun e t => e.removed = some t) e := by
  intro state hsound
  cases e with
  | receive now datagram =>
      obtain ⟨p, hp, rfl⟩ := hsent now datagram rfl
      obtain ⟨f, hf, i, hi, hpiece⟩ := (s.build_all_pieces frames).2.1 p hp
      refine Or.inl ⟨f, hf, i, hi, ?_, ?_⟩
      · rintro g hg j hj ⟨now', q, heq, hq⟩
        obtain ⟨-, hbuffer⟩ := TransportEvent.receive.inj heq
        obtain ⟨rfl, rfl⟩ := sent_piece_unique hd hf hg hi hj hbuffer hpiece hq
        exact ⟨rfl, rfl⟩
      · obtain ⟨-, q, hread, hreads⟩ := hpiece
        simp only [transportH264, receiveH264, hread]
        rcases hreads.kind with ⟨hone, htype⟩ | ⟨htype, hstart, hend⟩
        · exact process_nalu_receives hreads hi hone htype
        · exact process_fua_receives hd hf hi hsound hreads htype hstart hend
  | erase entry =>
      refine Or.inr ⟨entry.1, rfl, ?_, state.erase_removed entry⟩
      rintro g j ⟨now, p, heq, -⟩
      cases heq
  | drop timestamp =>
      refine Or.inr ⟨timestamp, rfl, ?_, state.drop_removed timestamp⟩
      rintro g j ⟨now, p, heq, -⟩
      cases heq

/-- Transport of H.264 frames is exact, whatever the network does to the packets: a frame that is
complete is a header byte and the payload that was sent with its timestamp, and a frame of at
most 4096 packets is complete once all of them arrived, unless it was removed. -/
theorem h264_transport_exact (s : RtpPacketizerH264) (frames : List FrameToSend)
    (htimes : (frames.map FrameToSend.rtpTimestamp).Nodup)
    (hwindow : (s.buildAll frames).length ≤ 2 ^ 15) (events : List TransportEvent)
    (hsent : ∀ now datagram, .receive now datagram ∈ events →
      ∃ p ∈ s.buildAll frames, p.buffer = datagram) :
    (∀ entry ∈ (events.foldl transportH264 {}).pendingFrames, entry.2.isComplete = true →
      ∃ frame ∈ frames, frame.rtpTimestamp = entry.1 ∧
        ∃ received header, entry.2.frame = some received ∧
          received.data = header :: frame.payload) ∧
    (∀ frame ∈ frames,
      ((s.buildAll frames).filter fun p => p.timestamp = frame.rtpTimestamp).length ≤
        kMaxPacketsPerFrame →
      (∀ p ∈ s.buildAll frames, p.timestamp = frame.rtpTimestamp →
        ∃ now, .receive now p.buffer ∈ events) →
      (∀ e ∈ events, e.removed ≠ some frame.rtpTimestamp) →
      ∃ entry ∈ (events.foldl transportH264 {}).pendingFrames,
        entry.1 = frame.rtpTimestamp ∧ entry.2.isComplete = true) := by
  have hd := RtpPacketizerH264.sent_frames_distinct htimes hwindow
  have hfollows : ∀ e ∈ events, Follows FuaFragment WholeFrame
      (fun p : RtpPacketH264 => p.timestamp) (s.sentFrames frames) transportH264 h264Collector
      Arrives (fun e t => e.removed = some t) e :=
    fun e he => transport_follows hd fun now datagram heq => hsent now datagram (heq ▸ he)
  have hinit : Sound FuaFragment WholeFrame (s.sentFrames frames)
      ({} : FrameAssembly).h264Collector :=
    ⟨by simp [h264Collector, collector], by simp [h264Collector, collector],
      by simp [h264Collector, collector], by simp [h264Collector, collector]⟩
  constructor
  · intro entry hentry hcomplete
    obtain ⟨f, hf, htime, received, hreceived, header, hdata⟩ :=
      (run_sound hfollows hinit).complete entry hentry hcomplete
    obtain ⟨frame, hframe, heq⟩ := RtpPacketizerH264.mem_sent_frames.mp ⟨f, hf, rfl⟩
    obtain ⟨htime', hpieces⟩ := Prod.mk.inj heq
    refine ⟨frame, hframe, htime'.trans htime, received, header, hreceived, ?_⟩
    rw [hdata, ← hpieces, RtpPacketizerH264.pieces_flatten]
  · intro frame hframe hshort hall hkept
    obtain ⟨f, hf, heq⟩ := RtpPacketizerH264.mem_sent_frames.mpr ⟨frame, hframe, rfl⟩
    obtain ⟨htime, hpieces⟩ := Prod.mk.inj heq
    have hlength : f.pieces.length ≤ kMaxPacketsPerFrame := by
      rw [hpieces]
      exact Nat.le_trans (RtpPacketizerH264.pieces_length_le hframe) hshort
    have harrived : ∀ j < f.pieces.length, ∃ e ∈ events, Arrives e f j := by
      intro j hj
      obtain ⟨p, hp, hpiece⟩ := (s.build_all_pieces frames).2.2 f hf j hj
      obtain ⟨now, hnow⟩ := hall p hp (hpiece.1.trans htime)
      exact ⟨_, hnow, now, p, rfl, hpiece⟩
    obtain ⟨entry, hentry, hkey, hcomplete⟩ := run_complete hd (fun g j q hq => hq.1) hfollows hf
      hlength (fun e he => htime ▸ hkept e he) harrived hinit
    exact ⟨entry, hentry, hkey.trans htime, hcomplete⟩

/-- Two frames, of two fragments and of a single packet. The sequence numbers wrap. -/
def repeatedFrames : List FrameToSend :=
  [⟨some 3, List.replicate 1200 7, 3000⟩, ⟨none, [8, 9], 6000⟩]

/-- Their packets. -/
def repeatedPackets : List RtpPacket :=
  RtpPacketizerH264.buildAll { sequenceNumber := 65534 } repeatedFrames

/-- The packets arrive in reverse order and then once more. -/
def repeatedEvents : List TransportEvent :=
  (repeatedPackets.reverse ++ repeatedPackets).map fun p => .receive 1000 p.buffer

/-- Both frames are complete in the end. -/
theorem repeated_frames_complete :
    (∃ entry ∈ (repeatedEvents.foldl transportH264 {}).pendingFrames,
      entry.1 = 3000 ∧ entry.2.isComplete = true) ∧
    ∃ entry ∈ (repeatedEvents.foldl transportH264 {}).pendingFrames,
      entry.1 = 6000 ∧ entry.2.isComplete = true := by
  have hsent : ∀ now datagram, .receive now datagram ∈ repeatedEvents →
      ∃ p ∈ repeatedPackets, p.buffer = datagram := by
    intro now datagram hmem
    obtain ⟨p, hp, heq⟩ := List.mem_map.mp hmem
    exact ⟨p, by simpa using hp, (TransportEvent.receive.inj heq).2⟩
  have hexact := h264_transport_exact { sequenceNumber := 65534 } repeatedFrames (by decide)
    (by decide +kernel) repeatedEvents hsent
  have hcomplete : ∀ frame ∈ repeatedFrames,
      ∃ entry ∈ (repeatedEvents.foldl transportH264 {}).pendingFrames,
        entry.1 = frame.rtpTimestamp ∧ entry.2.isComplete = true := by
    intro frame hframe
    refine hexact.2 frame hframe ?_ ?_ ?_
    · refine Nat.le_trans (List.length_filter_le _ _) ?_
      show repeatedPackets.length ≤ kMaxPacketsPerFrame
      decide +kernel
    · exact fun p hp _ => ⟨1000, List.mem_map.mpr ⟨p, List.mem_append_right _ hp, rfl⟩⟩
    · intro e he
      obtain ⟨p, -, rfl⟩ := List.mem_map.mp he
      simp [TransportEvent.removed]
  exact ⟨hcomplete ⟨some 3, List.replicate 1200 7, 3000⟩ List.mem_cons_self,
    hcomplete ⟨none, [8, 9], 6000⟩ (List.mem_cons_of_mem _ List.mem_cons_self)⟩

end FrameAssembly

end MiniRtc

import MiniRtc.Video.Reassembly

/-!
# The assembly of frames as a collector

`FrameAssembly.collector` is the view of the members that one codec uses. `complete_range_cases`
says that the receiver finds a complete range exactly when all pieces of the frame are there, and
`track_inherited` and `commit_inherited` say what the two ways to write a pending frame do to the
complete ones. Every transport step of the receiver is then one of the steps of the collector.
-/

namespace MiniRtc

open Circle Collector

namespace FrameAssembly

variable {P : Type}

/-- The members of the receiver that one codec uses. -/
def collector (s : FrameAssembly) (slots : BitVec 16 → Option P) : Collector P :=
  { slots
    starts := s.fuaStartSequenceNumbers
    ends := s.fuaEndSequenceNumbers
    pending := s.pendingFrames }

/-- The markers give the number of packets of a frame, unless it is too long. -/
theorem frame_packet_count_eq {f : SentFrame} (hpos : 0 < f.pieces.length)
    (hle : f.pieces.length ≤ 2 ^ 15) :
    framePacketCount f.first f.last =
      if f.pieces.length ≤ kMaxPacketsPerFrame then f.pieces.length else 0 := by
  have hdistance : (f.last - f.first).toNat = f.pieces.length - 1 := by
    have hlt : f.pieces.length - 1 < 2 ^ 16 := by omega
    exact fwd_add_of_nat hlt
  have hcount : (f.last - f.first).toNat + 1 = f.pieces.length := by omega
  simp only [framePacketCount, hcount]

section Range

variable {fragment : SentFrame → Nat → P → Prop}
  {good : SentFrame → ReceivedFrame → Bool → Prop} {frames : List SentFrame}
  {timestampOf : P → BitVec 32} {s : FrameAssembly} {slots : BitVec 16 → Option P}
  {f : SentFrame}

/-- The range that the markers of a frame give is the frame's. -/
theorem get_frame_sequence_range_cases (hd : Distinct frames) (hf : f ∈ frames)
    (h : Sound fragment good frames (s.collector slots)) :
    (s.getFrameSequenceRange f.timestamp = some (f.first, f.last, f.pieces.length) ∧
      f.pieces.length ≤ kMaxPacketsPerFrame ∧
      s.fuaStartSequenceNumbers f.timestamp = some f.first ∧
      s.fuaEndSequenceNumbers f.timestamp = some f.last) ∨
    (s.getFrameSequenceRange f.timestamp = none ∧
      (f.pieces.length ≤ kMaxPacketsPerFrame →
        ¬ (s.fuaStartSequenceNumbers f.timestamp = some f.first ∧
          s.fuaEndSequenceNumbers f.timestamp = some f.last))) := by
  cases hstart : s.fuaStartSequenceNumbers f.timestamp with
  | none => exact Or.inr ⟨by simp [getFrameSequenceRange, hstart], by simp⟩
  | some start =>
      cases hfinish : s.fuaEndSequenceNumbers f.timestamp with
      | none => exact Or.inr ⟨by simp [getFrameSequenceRange, hstart, hfinish], by simp⟩
      | some finish =>
          obtain ⟨g, hg, hgt, rfl⟩ := h.starts f.timestamp start hstart
          obtain ⟨g', hg', hgt', rfl⟩ := h.ends f.timestamp finish hfinish
          obtain rfl := hd.timestamp g hg f hf hgt
          obtain rfl := hd.timestamp g' hg' g hg hgt'
          have hcount := frame_packet_count_eq (hd.nonempty _ hg) (hd.length_le _ hg)
          have hpos := hd.nonempty _ hg
          by_cases hshort : g'.pieces.length ≤ kMaxPacketsPerFrame
          · rw [if_pos hshort] at hcount
            left
            simp only [getFrameSequenceRange, hstart, hfinish, hcount,
              if_neg (by omega : ¬ g'.pieces.length = 0), hshort, and_self]
          · rw [if_neg hshort] at hcount
            right
            simp [getFrameSequenceRange, hstart, hfinish, hcount, hshort]

/-- The receiver finds a complete range exactly when the frame is short enough and all its pieces
are there. -/
theorem complete_range_cases (hd : Distinct frames) (hf : f ∈ frames)
    (htime : ∀ g i p, fragment g i p → timestampOf p = g.timestamp)
    (h : Sound fragment good frames (s.collector slots)) :
    (s.completeRange slots timestampOf f.timestamp = some (f.first, f.last, f.pieces.length) ∧
      f.pieces.length ≤ kMaxPacketsPerFrame ∧ (s.collector slots).AllPresent fragment f) ∨
    (s.completeRange slots timestampOf f.timestamp = none ∧
      (f.pieces.length ≤ kMaxPacketsPerFrame →
        ¬ (s.collector slots).AllPresent fragment f)) := by
  rcases get_frame_sequence_range_cases hd hf h with
    ⟨hrange, hshort, hstart, hfinish⟩ | ⟨hrange, hnot⟩
  · by_cases hcovered : Slots.covered slots (fun p => timestampOf p = f.timestamp) f.first
        f.pieces.length = true
    · left
      refine ⟨by simp [completeRange, hrange, hcovered], hshort, hstart, hfinish,
        fun i hi => ?_⟩
      obtain ⟨p, hp, -⟩ := Slots.covered_iff.mp hcovered i hi
      -- the slot holds a piece that was sent under its number, so it is this one
      obtain ⟨g, hg, j, hj, hnumber, hfragment⟩ := h.slots _ p hp
      obtain ⟨rfl, rfl⟩ := hd.number f hf g hg i hi j hj hnumber
      exact ⟨p, hp, hfragment⟩
    · right
      refine ⟨by simp [completeRange, hrange, hcovered], fun _ hall => hcovered ?_⟩
      refine Slots.covered_iff.mpr fun i hi => ?_
      obtain ⟨p, hp, hfragment⟩ := hall.slots i hi
      exact ⟨p, hp, by simpa using htime f i p hfragment⟩
  · exact Or.inr ⟨by simp [completeRange, hrange],
      fun hshort hall => hnot hshort ⟨hall.start, hall.finish⟩⟩

end Range

/-! ## Writing pending frames -/

section Pending

variable {s : FrameAssembly} {timestamp : BitVec 32} {now : ℤ} {sequenceNumber : BitVec 16}

/-- A frame that is complete stays complete under another one with its timestamp. -/
theorem set_kept {pendingFrame : PendingFrame}
    (hcomplete : ∀ old, s.pendingFrame? timestamp = some old → old.isComplete = true →
      pendingFrame.isComplete = true) {g : SentFrame} (h : CompleteIn s.pendingFrames g) :
    CompleteIn (s.setPendingFrame timestamp pendingFrame).pendingFrames g := by
  obtain ⟨entry, hentry, hkey, hold⟩ := h
  have hor : entry ∈ (s.setPendingFrame timestamp pendingFrame).pendingFrames ∨
      (entry.1 = timestamp ∧ s.pendingFrame? timestamp = some entry.2) := mem_set_or hentry
  rcases hor with hmem | ⟨htime, hfound⟩
  · exact ⟨entry, hmem, hkey, hold⟩
  · exact ⟨_, mem_set_self, htime.symm.trans hkey, hcomplete _ hfound hold⟩

/-- A packet keeps complete frames complete. -/
theorem track_kept {g : SentFrame} (h : CompleteIn s.pendingFrames g) :
    CompleteIn (s.trackPendingFramePacket now timestamp sequenceNumber).pendingFrames g := by
  refine set_kept (fun old hold hcomplete => ?_) h
  obtain ⟨arrivalTime, last, htracked⟩ :=
    tracked_frame_eq now sequenceNumber ((s.pendingFrame? timestamp).getD {})
  rw [htracked, hold]
  exact hcomplete

/-- A packet by itself makes no frame complete. -/
theorem track_inherited {entry : BitVec 32 × PendingFrame}
    (hentry : entry ∈ (s.trackPendingFramePacket now timestamp sequenceNumber).pendingFrames)
    (hcomplete : entry.2.isComplete = true) : Inherited s.pendingFrames entry := by
  rcases mem_of_mem_set hentry with rfl | hold
  · obtain ⟨arrivalTime, last, htracked⟩ :=
      tracked_frame_eq now sequenceNumber ((s.pendingFrame? timestamp).getD {})
    simp only [htracked] at hcomplete ⊢
    cases hfind : s.pendingFrame? timestamp with
    | none => simp [hfind] at hcomplete
    | some found =>
        simp only [hfind, Option.getD_some] at hcomplete ⊢
        exact ⟨(timestamp, found), mem_of_pending_frame hfind, rfl, hcomplete, rfl, rfl⟩
  · exact ⟨entry, hold, rfl, hcomplete, rfl, rfl⟩

variable {frame : ReceivedFrame} {isKeyframe : Bool} {endSequenceNumber : BitVec 16}
  {require : Bool}

/-- What a commit does to the pending frames. An entry that is required is there. -/
theorem commit_cases (hfound : require = true → s.pendingFrame? timestamp ≠ none) :
    ∃ arrivalTime,
      s.commitPendingFrame now timestamp frame isKeyframe endSequenceNumber require =
        s.setPendingFrame timestamp
          { frame := some frame
            isComplete := true
            arrivalTime
            isKeyframe
            lastSequenceNumber := some endSequenceNumber } := by
  rcases commit_pending_frame_eq s now timestamp frame isKeyframe endSequenceNumber require with
    ⟨hnone, hrequire, -⟩ | hset
  · exact absurd hnone (hfound hrequire)
  · exact hset

/-- After a commit the frame is complete, and so is every frame that was. -/
theorem commit_kept (hfound : require = true → s.pendingFrame? timestamp ≠ none) (g : SentFrame)
    (h : CompleteIn s.pendingFrames g ∨ g.timestamp = timestamp) :
    CompleteIn (s.commitPendingFrame now timestamp frame isKeyframe endSequenceNumber
      require).pendingFrames g := by
  obtain ⟨arrivalTime, hset⟩ := commit_cases hfound
  rw [hset]
  rcases h with hold | rfl
  · exact set_kept (fun _ _ _ => rfl) hold
  · exact ⟨_, mem_set_self, rfl, rfl⟩

/-- After a commit a complete frame is the committed one, or it was complete before. -/
theorem commit_inherited (hfound : require = true → s.pendingFrame? timestamp ≠ none)
    {entry : BitVec 32 × PendingFrame}
    (hentry : entry ∈ (s.commitPendingFrame now timestamp frame isKeyframe endSequenceNumber
      require).pendingFrames) (hcomplete : entry.2.isComplete = true) :
    Inherited s.pendingFrames entry ∨
      (entry.1 = timestamp ∧ entry.2.frame = some frame ∧ entry.2.isKeyframe = isKeyframe) := by
  obtain ⟨arrivalTime, hset⟩ := commit_cases hfound
  rw [hset] at hentry
  rcases mem_of_mem_set hentry with rfl | hold
  · exact Or.inr ⟨rfl, rfl, rfl⟩
  · exact Or.inl ⟨entry, hold, rfl, hcomplete, rfl, rfl⟩

/-- What was inherited from inherited frames is inherited. -/
theorem inherited_trans {first second : List (BitVec 32 × PendingFrame)}
    {entry : BitVec 32 × PendingFrame} (h : Inherited second entry)
    (hfirst : ∀ old ∈ second, old.2.isComplete = true → Inherited first old) :
    Inherited first entry := by
  obtain ⟨old, hold, hkey, hcomplete, hframe, hkeyframe⟩ := h
  obtain ⟨oldest, holdest, hkey', hcomplete', hframe', hkeyframe'⟩ := hfirst old hold hcomplete
  exact ⟨oldest, holdest, hkey'.trans hkey, hcomplete', hframe'.trans hframe,
    hkeyframe'.trans hkeyframe⟩

end Pending

/-! ## The two outcomes of an arrival -/

section Receive

variable {fragment : SentFrame → Nat → P → Prop}
  {good : SentFrame → ReceivedFrame → Bool → Prop} {frames : List SentFrame}
  {timestampOf : P → BitVec 32} {c : Collector P} {s : FrameAssembly}
  {slots : BitVec 16 → Option P} {f : SentFrame} {i : Nat} {p : P}

/-- Once a piece and its markers are stored, its frame is still waiting or all its pieces are
there. -/
theorem stored_receives (hd : Distinct frames) (hf : f ∈ frames) (hi : i < f.pieces.length)
    (htime : ∀ g i p, fragment g i p → timestampOf p = g.timestamp)
    (hsound : Sound fragment good frames c) (hfragment : fragment f i p)
    (hview : s.collector slots = c.stored f i p s.pendingFrames)
    (hkept : ∀ g, CompleteIn c.pending g → CompleteIn s.pendingFrames g)
    (hinherited : ∀ entry ∈ s.pendingFrames, entry.2.isComplete = true →
      Inherited c.pending entry) :
    (s.completeRange slots timestampOf f.timestamp = none ∧
      Receives fragment good c f i (s.collector slots)) ∨
    (s.completeRange slots timestampOf f.timestamp = some (f.first, f.last, f.pieces.length) ∧
      f.pieces.length ≤ kMaxPacketsPerFrame ∧ (s.collector slots).AllPresent fragment f) := by
  have hstored : Sound fragment good frames (s.collector slots) := by
    rw [hview]
    exact stored_sound hsound hf hi hfragment fun entry hentry hcomplete =>
      (hinherited entry hentry hcomplete).right hsound
  rcases complete_range_cases hd hf htime hstored with hall | ⟨hnone, hmissing⟩
  · exact Or.inr hall
  · refine Or.inl ⟨hnone, ?_⟩
    rw [hview] at hmissing ⊢
    exact Receives.waiting p _ hfragment hkept hinherited hmissing

/-- The frame that is put together from all pieces is stored as complete. -/
theorem committed_receives (hfragment : fragment f i p)
    (hview : s.collector slots = c.stored f i p s.pendingFrames)
    (hkept : ∀ g, CompleteIn c.pending g → CompleteIn s.pendingFrames g)
    (hinherited : ∀ entry ∈ s.pendingFrames, entry.2.isComplete = true →
      Inherited c.pending entry)
    (hfound : s.pendingFrame? f.timestamp ≠ none) {now : ℤ} {frame : ReceivedFrame}
    {isKeyframe : Bool} (hgood : good f frame isKeyframe) (endSequenceNumber : BitVec 16) :
    Receives fragment good c f i
      (((s.clearFrameMarkers f.timestamp).commitPendingFrame now f.timestamp frame isKeyframe
        endSequenceNumber true).collector (Slots.vacate slots f.first f.pieces.length)) := by
  have hfound' : true = true →
      (s.clearFrameMarkers f.timestamp).pendingFrame? f.timestamp ≠ none := fun _ => hfound
  set committed := (s.clearFrameMarkers f.timestamp).commitPendingFrame now f.timestamp frame
    isKeyframe endSequenceNumber true with hcommitted
  have hmarkers : committed.fuaStartSequenceNumbers =
        Function.update s.fuaStartSequenceNumbers f.timestamp none ∧
      committed.fuaEndSequenceNumbers =
        Function.update s.fuaEndSequenceNumbers f.timestamp none := by
    obtain ⟨arrivalTime, hset⟩ := commit_cases hfound'
    rw [hcommitted, hset]
    exact ⟨rfl, rfl⟩
  have hslots : slots = (c.stored f i p committed.pendingFrames).slots :=
    congrArg Collector.slots hview
  have hstarts : s.fuaStartSequenceNumbers = (c.stored f i p committed.pendingFrames).starts :=
    congrArg Collector.starts hview
  have hends : s.fuaEndSequenceNumbers = (c.stored f i p committed.pendingFrames).ends :=
    congrArg Collector.ends hview
  rw [collector, hmarkers.1, hmarkers.2, hslots, hstarts, hends]
  refine Receives.complete p _ hfragment ?_ ?_ ?_
  · exact fun g hg => commit_kept hfound' g (Or.inl (hkept g hg))
  · exact commit_kept hfound' f (Or.inr rfl)
  · intro entry hentry hcomplete
    rcases commit_inherited hfound' hentry hcomplete with hold | ⟨htime, hframe, hkey⟩
    · exact Or.inl (inherited_trans hold hinherited)
    · exact Or.inr ⟨htime, frame, hframe, hkey ▸ hgood⟩

end Receive

end FrameAssembly

end MiniRtc

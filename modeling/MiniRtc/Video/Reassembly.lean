import MiniRtc.Video.FrameAssembly

/-!
# Reassembly of frames that were cut into packets

The sender's view of a stream is a list of `SentFrame`s, whose pieces have consecutive sequence
numbers. A `Collector` is what the receiver keeps for one codec. `Receives` says what the arrival of
a piece does to it, whatever arrived before: either the frame is not there yet, or all its pieces
are, and then they are taken out and a complete frame is stored. A frame of one piece may also be
stored at once. `Removed` says what may be lost when a frame is given up or handed over.

Both codecs satisfy `Receives`, and the results about any order of arrival with losses and
duplicates are proved from it: what is stored as complete is right (`Sound`), and a frame of which
every piece arrived is complete (`Progress`).
-/

namespace MiniRtc

open Circle

/-- A frame as it was sent: its pieces have the sequence numbers `first, first + 1, …`. -/
structure SentFrame where
  timestamp : BitVec 32
  first : BitVec 16
  pieces : List (List Byte)

/-- The sequence number of a piece. -/
def SentFrame.number (f : SentFrame) (i : Nat) : BitVec 16 :=
  f.first + BitVec.ofNat 16 i

@[simp] theorem SentFrame.number_zero (f : SentFrame) : f.number 0 = f.first := by
  simp [SentFrame.number]

/-- The sequence number of the last piece. -/
def SentFrame.last (f : SentFrame) : BitVec 16 :=
  f.number (f.pieces.length - 1)

/-- No timestamp and no sequence number is used twice. -/
structure Distinct (frames : List SentFrame) : Prop where
  nonempty : ∀ f ∈ frames, 0 < f.pieces.length
  length_le : ∀ f ∈ frames, f.pieces.length ≤ 2 ^ 15
  timestamp : ∀ f ∈ frames, ∀ g ∈ frames, f.timestamp = g.timestamp → f = g
  number : ∀ f ∈ frames, ∀ g ∈ frames, ∀ i < f.pieces.length, ∀ j < g.pieces.length,
    f.number i = g.number j → f = g ∧ i = j

/-! ## Frames that are sent one after the other -/

/-- Frames with these timestamps and pieces, the first of which has the sequence number `first`. -/
def SentFrame.inSequence (first : BitVec 16) :
    List (BitVec 32 × List (List Byte)) → List SentFrame
  | [] => []
  | (timestamp, pieces) :: rest =>
      { timestamp, first, pieces } :: inSequence (first + BitVec.ofNat 16 pieces.length) rest

/-- How many packets they take. -/
def packetTotal (content : List (BitVec 32 × List (List Byte))) : Nat :=
  (content.map fun frame => frame.2.length).sum

/-- The numbers of a frame count on from the first one. -/
theorem number_of_mem_in_sequence {first : BitVec 16}
    {content : List (BitVec 32 × List (List Byte))} {f : SentFrame}
    (h : f ∈ SentFrame.inSequence first content) :
    ∃ n, n + f.pieces.length ≤ packetTotal content ∧
      ∀ i, f.number i = first + BitVec.ofNat 16 (n + i) := by
  induction content generalizing first with
  | nil => simp [SentFrame.inSequence] at h
  | cons frame rest ih =>
      obtain ⟨timestamp, pieces⟩ := frame
      simp only [packetTotal, List.map_cons, List.sum_cons] at ih ⊢
      rcases List.mem_cons.mp h with rfl | htail
      · exact ⟨0, by simp, fun i => by simp [SentFrame.number]⟩
      · obtain ⟨n, hle, hnumber⟩ := ih htail
        refine ⟨pieces.length + n, by omega, fun i => ?_⟩
        rw [hnumber, BitVec.add_assoc, ← BitVec.ofNat_add, Nat.add_assoc]

/-- Numbers less than a turn apart are different. -/
theorem add_of_nat_inj {first : BitVec 16} {m n : Nat} (hm : m < 2 ^ 16) (hn : n < 2 ^ 16)
    (h : first + BitVec.ofNat 16 m = first + BitVec.ofNat 16 n) : m = n := by
  have hdistance := congrArg (fwd first) h
  rwa [fwd_add_of_nat hm, fwd_add_of_nat hn] at hdistance

/-- No sequence number is used twice. -/
theorem number_inj_in_sequence {first : BitVec 16}
    {content : List (BitVec 32 × List (List Byte))} (hcount : packetTotal content ≤ 2 ^ 15)
    {f g : SentFrame} (hf : f ∈ SentFrame.inSequence first content)
    (hg : g ∈ SentFrame.inSequence first content) {i j : Nat} (hi : i < f.pieces.length)
    (hj : j < g.pieces.length) (h : f.number i = g.number j) : f = g ∧ i = j := by
  induction content generalizing first with
  | nil => simp [SentFrame.inSequence] at hf
  | cons frame rest ih =>
      obtain ⟨timestamp, pieces⟩ := frame
      have htotal : packetTotal ((timestamp, pieces) :: rest) =
          pieces.length + packetTotal rest := by
        simp [packetTotal]
      -- a frame of the rest has larger numbers than the head
      have hapart : ∀ e ∈ SentFrame.inSequence (first + BitVec.ofNat 16 pieces.length) rest,
          ∀ m < pieces.length, ∀ k < e.pieces.length,
            first + BitVec.ofNat 16 m ≠ e.number k := by
        intro e he m hm k hk heq
        obtain ⟨n, hle, hnumber⟩ := number_of_mem_in_sequence he
        rw [hnumber, BitVec.add_assoc, ← BitVec.ofNat_add] at heq
        have := add_of_nat_inj (by omega) (by omega) heq
        omega
      rcases List.mem_cons.mp hf with rfl | hf'
      · rcases List.mem_cons.mp hg with rfl | hg'
        · exact ⟨rfl, add_of_nat_inj (by simp only at hi; omega) (by simp only at hj; omega) h⟩
        · exact absurd h (hapart g hg' i hi j hj)
      · rcases List.mem_cons.mp hg with rfl | hg'
        · exact absurd h.symm (hapart f hf' j hj i hi)
        · exact ih (by omega) hf' hg'

theorem content_in_sequence (first : BitVec 16)
    (content : List (BitVec 32 × List (List Byte))) :
    (SentFrame.inSequence first content).map (fun f => (f.timestamp, f.pieces)) = content := by
  induction content generalizing first with
  | nil => rfl
  | cons frame rest ih => simp [SentFrame.inSequence, ih]

/-- Frames in sequence are distinct when they take at most half of the sequence numbers. -/
theorem in_sequence_distinct {first : BitVec 16}
    {content : List (BitVec 32 × List (List Byte))} (hcount : packetTotal content ≤ 2 ^ 15)
    (hnodup : (content.map Prod.fst).Nodup) (hne : ∀ frame ∈ content, frame.2 ≠ []) :
    Distinct (SentFrame.inSequence first content) where
  nonempty := by
    intro f hf
    have hmem : (f.timestamp, f.pieces) ∈ content := by
      rw [← content_in_sequence first content]
      exact List.mem_map_of_mem hf
    exact List.length_pos_of_ne_nil (hne _ hmem)
  length_le := by
    intro f hf
    obtain ⟨n, hle, -⟩ := number_of_mem_in_sequence hf
    omega
  timestamp := by
    intro f hf g hg heq
    rw [← content_in_sequence first content, List.map_map] at hnodup
    exact List.inj_on_of_nodup_map hnodup hf hg heq
  number := fun f hf g hg i hi j hj heq => number_inj_in_sequence hcount hf hg hi hj heq

/-- What the receiver keeps of one codec. -/
structure Collector (P : Type) where
  slots : BitVec 16 → Option P
  starts : BitVec 32 → Option (BitVec 16)
  ends : BitVec 32 → Option (BitVec 16)
  pending : List (BitVec 32 × PendingFrame)

namespace Collector

variable {P : Type}

/-- The frame is among the complete pending frames. -/
def CompleteIn (pending : List (BitVec 32 × PendingFrame)) (f : SentFrame) : Prop :=
  ∃ entry ∈ pending, entry.1 = f.timestamp ∧ entry.2.isComplete = true

/-- A complete pending frame comes from a complete pending frame with the same bytes. -/
def Inherited (pending : List (BitVec 32 × PendingFrame)) (entry : BitVec 32 × PendingFrame) :
    Prop :=
  ∃ old ∈ pending, old.1 = entry.1 ∧ old.2.isComplete = true ∧ old.2.frame = entry.2.frame ∧
    old.2.isKeyframe = entry.2.isKeyframe

/-- Markers and pieces of the frame are all there. -/
structure AllPresent (fragment : SentFrame → Nat → P → Prop) (c : Collector P) (f : SentFrame) :
    Prop where
  start : c.starts f.timestamp = some f.first
  finish : c.ends f.timestamp = some f.last
  slots : ∀ i < f.pieces.length, ∃ p, c.slots (f.number i) = some p ∧ fragment f i p

section

variable (fragment : SentFrame → Nat → P → Prop)
  (good : SentFrame → ReceivedFrame → Bool → Prop)

/-- The collector with one more piece and the markers that it carries. -/
def stored (c : Collector P) (f : SentFrame) (i : Nat) (p : P)
    (pending : List (BitVec 32 × PendingFrame)) : Collector P :=
  { slots := Function.update c.slots (f.number i) (some p)
    starts := if i = 0 then Function.update c.starts f.timestamp (some (f.number i)) else c.starts
    ends :=
      if i = f.pieces.length - 1 then Function.update c.ends f.timestamp (some (f.number i))
      else c.ends
    pending }

/-- The arrival of piece `i` of the frame `f`. -/
inductive Receives (c : Collector P) (f : SentFrame) (i : Nat) : Collector P → Prop where
  | waiting (p : P) (pending) (hfragment : fragment f i p)
      (hkept : ∀ g, CompleteIn c.pending g → CompleteIn pending g)
      (hinherited : ∀ entry ∈ pending, entry.2.isComplete = true → Inherited c.pending entry)
      (hmissing : f.pieces.length ≤ kMaxPacketsPerFrame →
        ¬ (c.stored f i p pending).AllPresent fragment f) :
      Receives c f i (c.stored f i p pending)
  | complete (p : P) (pending) (hfragment : fragment f i p)
      (hkept : ∀ g, CompleteIn c.pending g → CompleteIn pending g)
      (hcomplete : CompleteIn pending f)
      (hinherited : ∀ entry ∈ pending, entry.2.isComplete = true →
        Inherited c.pending entry ∨
          (entry.1 = f.timestamp ∧
            ∃ frame, entry.2.frame = some frame ∧ good f frame entry.2.isKeyframe)) :
      Receives c f i
        { slots := Slots.vacate (c.stored f i p pending).slots f.first f.pieces.length
          starts := Function.update (c.stored f i p pending).starts f.timestamp none
          ends := Function.update (c.stored f i p pending).ends f.timestamp none
          pending }
  | direct (pending)
      (hkept : ∀ g, CompleteIn c.pending g → CompleteIn pending g)
      (hcomplete : CompleteIn pending f)
      (hinherited : ∀ entry ∈ pending, entry.2.isComplete = true →
        Inherited c.pending entry ∨
          (entry.1 = f.timestamp ∧
            ∃ frame, entry.2.frame = some frame ∧ good f frame entry.2.isKeyframe)) :
      Receives c f i { c with pending }

/-- Some of what belongs to a timestamp was taken away, and nothing else. -/
structure Removed (timestampOf : P → BitVec 32) (timestamp : BitVec 32) (c c' : Collector P) :
    Prop where
  slots : ∀ x, c'.slots x = c.slots x ∨
    (c'.slots x = none ∧ ∃ p, c.slots x = some p ∧ timestampOf p = timestamp)
  starts : ∀ t, c'.starts t = c.starts t ∨ (c'.starts t = none ∧ t = timestamp)
  ends : ∀ t, c'.ends t = c.ends t ∨ (c'.ends t = none ∧ t = timestamp)
  subset : ∀ entry ∈ c'.pending, entry ∈ c.pending
  kept : ∀ entry ∈ c.pending, entry.1 ≠ timestamp → entry ∈ c'.pending

variable (frames : List SentFrame)

/-- Everything in the collector was sent, and the complete frames are right. -/
structure Sound (c : Collector P) : Prop where
  slots : ∀ x p, c.slots x = some p →
    ∃ f ∈ frames, ∃ i < f.pieces.length, x = f.number i ∧ fragment f i p
  starts : ∀ t x, c.starts t = some x → ∃ f ∈ frames, f.timestamp = t ∧ x = f.first
  ends : ∀ t x, c.ends t = some x → ∃ f ∈ frames, f.timestamp = t ∧ x = f.last
  complete : ∀ entry ∈ c.pending, entry.2.isComplete = true →
    ∃ f ∈ frames, f.timestamp = entry.1 ∧
      ∃ frame, entry.2.frame = some frame ∧ good f frame entry.2.isKeyframe

/-- The pieces of the frame that arrived are still there, and one is missing. -/
structure Collecting (c : Collector P) (f : SentFrame) (arrived : Nat → Prop) : Prop where
  missing : ∃ i < f.pieces.length, ¬ arrived i
  start : arrived 0 → c.starts f.timestamp = some f.first
  finish : arrived (f.pieces.length - 1) → c.ends f.timestamp = some f.last
  slots : ∀ i < f.pieces.length, arrived i → ∃ p, c.slots (f.number i) = some p ∧ fragment f i p

/-- The frame is complete, or it is being collected. -/
def Progress (c : Collector P) (f : SentFrame) (arrived : Nat → Prop) : Prop :=
  CompleteIn c.pending f ∨ Collecting fragment c f arrived

end

section Step

variable {fragment : SentFrame → Nat → P → Prop}
  {good : SentFrame → ReceivedFrame → Bool → Prop} {frames : List SentFrame} {c c' : Collector P}
  {f : SentFrame} {i : Nat}

/-- A new piece keeps what is stored right. -/
theorem stored_sound (h : Sound fragment good frames c) (hf : f ∈ frames)
    (hi : i < f.pieces.length) {p : P} (hfragment : fragment f i p)
    {pending : List (BitVec 32 × PendingFrame)}
    (hcomplete : ∀ entry ∈ pending, entry.2.isComplete = true →
      ∃ g ∈ frames, g.timestamp = entry.1 ∧
        ∃ frame, entry.2.frame = some frame ∧ good g frame entry.2.isKeyframe) :
    Sound fragment good frames (c.stored f i p pending) := by
  refine ⟨?_, ?_, ?_, hcomplete⟩
  · intro x q hx
    simp only [stored, Function.update_apply] at hx
    split_ifs at hx with heq
    · obtain rfl := Option.some.inj hx
      exact ⟨f, hf, i, hi, heq, hfragment⟩
    · exact h.slots x q hx
  · intro t x hx
    simp only [stored] at hx
    split_ifs at hx with hzero
    · rw [Function.update_apply] at hx
      split_ifs at hx with heq
      · refine ⟨f, hf, heq.symm, ?_⟩
        rw [← Option.some.inj hx, hzero, SentFrame.number_zero]
      · exact h.starts t x hx
    · exact h.starts t x hx
  · intro t x hx
    simp only [stored] at hx
    split_ifs at hx with hlast
    · rw [Function.update_apply] at hx
      split_ifs at hx with heq
      · refine ⟨f, hf, heq.symm, ?_⟩
        rw [← Option.some.inj hx, hlast, SentFrame.last]
      · exact h.ends t x hx
    · exact h.ends t x hx

/-- What is inherited is right. -/
theorem Inherited.right (h : Sound fragment good frames c) {entry : BitVec 32 × PendingFrame}
    (hentry : Inherited c.pending entry) :
    ∃ g ∈ frames, g.timestamp = entry.1 ∧
      ∃ frame, entry.2.frame = some frame ∧ good g frame entry.2.isKeyframe := by
  obtain ⟨old, hold, htime, hcomplete, hframe, hkey⟩ := hentry
  obtain ⟨g, hg, hgt, frame, hgf, hgood⟩ := h.complete old hold hcomplete
  exact ⟨g, hg, hgt.trans htime, frame, hframe ▸ hgf, hkey ▸ hgood⟩

/-- The arrival of a piece keeps everything right. -/
theorem receives_sound (h : Sound fragment good frames c) (hf : f ∈ frames)
    (hi : i < f.pieces.length) (hstep : Receives fragment good c f i c') :
    Sound fragment good frames c' := by
  cases hstep with
  | waiting p pending hfragment _ hinherited _ =>
      exact stored_sound h hf hi hfragment fun entry hentry hcomplete =>
        (hinherited entry hentry hcomplete).right h
  | complete p pending hfragment _ _ hinherited =>
      have hstored : Sound fragment good frames (c.stored f i p pending) := by
        refine stored_sound h hf hi hfragment fun entry hentry hc => ?_
        rcases hinherited entry hentry hc with hold | ⟨htime, hgood⟩
        · exact hold.right h
        · exact ⟨f, hf, htime.symm, hgood⟩
      refine ⟨fun x q hx => hstored.slots x q (Slots.vacate_eq_some hx), ?_, ?_, hstored.complete⟩
      · intro t x hx
        simp only [Function.update_apply] at hx
        split_ifs at hx
        exact hstored.starts t x hx
      · intro t x hx
        simp only [Function.update_apply] at hx
        split_ifs at hx
        exact hstored.ends t x hx
  | direct pending _ _ hinherited =>
      refine ⟨h.slots, h.starts, h.ends, fun entry hentry hc => ?_⟩
      rcases hinherited entry hentry hc with hold | ⟨htime, hgood⟩
      · exact hold.right h
      · exact ⟨f, hf, htime.symm, hgood⟩

/-- A new piece of another frame changes nothing for a frame that is being collected. -/
theorem stored_collecting_of_ne (hd : Distinct frames) (hf : f ∈ frames)
    (hi : i < f.pieces.length) {g : SentFrame} (hg : g ∈ frames) (hne : f ≠ g) {p : P}
    {pending : List (BitVec 32 × PendingFrame)} {arrived : Nat → Prop}
    (h : Collecting fragment c g arrived) :
    Collecting fragment (c.stored f i p pending) g arrived := by
  have htime : g.timestamp ≠ f.timestamp := fun heq => hne (hd.timestamp f hf g hg heq.symm)
  refine ⟨h.missing, ?_, ?_, ?_⟩
  · intro harrived
    simp only [stored]
    split_ifs
    · rw [Function.update_of_ne htime]
      exact h.start harrived
    · exact h.start harrived
  · intro harrived
    simp only [stored]
    split_ifs
    · rw [Function.update_of_ne htime]
      exact h.finish harrived
    · exact h.finish harrived
  · intro j hj harrived
    have hnumber : g.number j ≠ f.number i := fun heq =>
      hne (hd.number f hf g hg i hi j hj heq.symm).1
    simp only [stored, Function.update_of_ne hnumber]
    exact h.slots j hj harrived

/-- The pieces of a frame that arrived are still there after one more of them. -/
theorem stored_collecting_self (hd : Distinct frames) (hf : f ∈ frames) (hi : i < f.pieces.length)
    {p : P} (hfragment : fragment f i p) {pending : List (BitVec 32 × PendingFrame)}
    {arrived : Nat → Prop} (h : Collecting fragment c f arrived)
    (hmissing : ¬ (c.stored f i p pending).AllPresent fragment f) :
    Collecting fragment (c.stored f i p pending) f fun j => arrived j ∨ j = i := by
  have hstart : (arrived 0 ∨ 0 = i) →
      (c.stored f i p pending).starts f.timestamp = some f.first := by
    intro harrived
    simp only [stored]
    split_ifs with hzero
    · simp [hzero]
    · exact h.start (harrived.resolve_right fun heq => hzero heq.symm)
  have hfinish : (arrived (f.pieces.length - 1) ∨ f.pieces.length - 1 = i) →
      (c.stored f i p pending).ends f.timestamp = some f.last := by
    intro harrived
    simp only [stored]
    split_ifs with hlast
    · simp [hlast, SentFrame.last]
    · exact h.finish (harrived.resolve_right fun heq => hlast heq.symm)
  have hslots : ∀ j < f.pieces.length, (arrived j ∨ j = i) →
      ∃ q, (c.stored f i p pending).slots (f.number j) = some q ∧ fragment f j q := by
    intro j hj harrived
    by_cases heq : j = i
    · subst heq
      exact ⟨p, by simp [stored], hfragment⟩
    · have hnumber : f.number j ≠ f.number i := fun hn =>
        heq (hd.number f hf f hf j hj i hi hn).2
      simp only [stored, Function.update_of_ne hnumber]
      exact h.slots j hj (harrived.resolve_right heq)
  refine ⟨?_, hstart, hfinish, hslots⟩
  -- when every piece arrived, all of them are present
  by_contra hall
  push Not at hall
  have hpos : f.pieces.length - 1 < f.pieces.length := by omega
  exact hmissing ⟨hstart (hall 0 (by omega)), hfinish (hall _ hpos),
    fun j hj => hslots j hj (hall j hj)⟩

/-- The arrival of a piece brings every frame of at most 4096 packets forward. -/
theorem receives_progress (hd : Distinct frames) (hf : f ∈ frames) (hi : i < f.pieces.length)
    (hstep : Receives fragment good c f i c') {g : SentFrame} (hg : g ∈ frames)
    (hshort : g.pieces.length ≤ kMaxPacketsPerFrame) {arrived : Nat → Prop}
    (h : Progress fragment c g arrived) :
    Progress fragment c' g fun j => arrived j ∨ (f = g ∧ j = i) := by
  by_cases hsame : f = g
  · subst hsame
    have harrived : (fun j => arrived j ∨ (f = f ∧ j = i)) = fun j => arrived j ∨ j = i := by
      simp
    rw [harrived]
    cases hstep with
    | waiting p pending hfragment hkept _ hmissing =>
        rcases h with hcomplete | hcollecting
        · exact Or.inl (hkept f hcomplete)
        · exact Or.inr (stored_collecting_self hd hf hi hfragment hcollecting (hmissing hshort))
    | complete p pending _ _ hcomplete _ => exact Or.inl hcomplete
    | direct pending _ hcomplete _ => exact Or.inl hcomplete
  · have harrived : (fun j => arrived j ∨ (f = g ∧ j = i)) = arrived := by
      simp [hsame]
    rw [harrived]
    cases hstep with
    | waiting p pending _ hkept _ _ =>
        rcases h with hcomplete | hcollecting
        · exact Or.inl (hkept g hcomplete)
        · exact Or.inr (stored_collecting_of_ne hd hf hi hg hsame hcollecting)
    | complete p pending _ hkept _ _ =>
        rcases h with hcomplete | hcollecting
        · exact Or.inl (hkept g hcomplete)
        · right
          have hstored : Collecting fragment (c.stored f i p pending) g arrived :=
            stored_collecting_of_ne hd hf hi hg hsame hcollecting
          have htime : g.timestamp ≠ f.timestamp := fun heq =>
            hsame (hd.timestamp f hf g hg heq.symm)
          refine ⟨hstored.missing, ?_, ?_, ?_⟩
          · intro harr
            simp only [Function.update_of_ne htime]
            exact hstored.start harr
          · intro harr
            simp only [Function.update_of_ne htime]
            exact hstored.finish harr
          · intro j hj harr
            have hout : g.number j ∉ Slots.numbers f.first f.pieces.length := by
              intro hin
              obtain ⟨k, hk, hnumber⟩ := Slots.mem_numbers.mp hin
              exact hsame (hd.number f hf g hg k hk j hj hnumber.symm).1
            simp only [Slots.vacate_of_not_mem hout]
            exact hstored.slots j hj harr
    | direct pending hkept _ _ =>
        rcases h with hcomplete | hcollecting
        · exact Or.inl (hkept g hcomplete)
        · exact Or.inr ⟨hcollecting.missing, hcollecting.start, hcollecting.finish,
            hcollecting.slots⟩

/-- Taking something away keeps everything right. -/
theorem removed_sound {timestampOf : P → BitVec 32} {timestamp : BitVec 32}
    (h : Sound fragment good frames c) (hstep : Removed timestampOf timestamp c c') :
    Sound fragment good frames c' := by
  refine ⟨?_, ?_, ?_, fun entry hentry => h.complete entry (hstep.subset entry hentry)⟩
  · intro x p hx
    rcases hstep.slots x with heq | ⟨hnone, -⟩
    · exact h.slots x p (heq ▸ hx)
    · exact absurd (hnone.symm.trans hx) (by simp)
  · intro t x hx
    rcases hstep.starts t with heq | ⟨hnone, -⟩
    · exact h.starts t x (heq ▸ hx)
    · exact absurd (hnone.symm.trans hx) (by simp)
  · intro t x hx
    rcases hstep.ends t with heq | ⟨hnone, -⟩
    · exact h.ends t x (heq ▸ hx)
    · exact absurd (hnone.symm.trans hx) (by simp)

/-- Taking something away throws no other frame back. -/
theorem removed_progress {timestampOf : P → BitVec 32} {timestamp : BitVec 32}
    (htime : ∀ f i p, fragment f i p → timestampOf p = f.timestamp)
    (hstep : Removed timestampOf timestamp c c') (hne : f.timestamp ≠ timestamp)
    {arrived : Nat → Prop} (h : Progress fragment c f arrived) :
    Progress fragment c' f arrived := by
  rcases h with ⟨entry, hentry, hkey, hcomplete⟩ | hcollecting
  · exact Or.inl ⟨entry, hstep.kept entry hentry (hkey ▸ hne), hkey, hcomplete⟩
  · have hstart : c'.starts f.timestamp = c.starts f.timestamp :=
      (hstep.starts f.timestamp).resolve_right fun hother => hne hother.2
    have hfinish : c'.ends f.timestamp = c.ends f.timestamp :=
      (hstep.ends f.timestamp).resolve_right fun hother => hne hother.2
    refine Or.inr ⟨hcollecting.missing, ?_, ?_, ?_⟩
    · exact fun harrived => hstart.trans (hcollecting.start harrived)
    · exact fun harrived => hfinish.trans (hcollecting.finish harrived)
    · intro j hj harrived
      obtain ⟨p, hp, hfragment⟩ := hcollecting.slots j hj harrived
      have hslot : c'.slots (f.number j) = c.slots (f.number j) := by
        refine (hstep.slots (f.number j)).resolve_right ?_
        rintro ⟨-, q, hq, hqt⟩
        obtain rfl : p = q := Option.some.inj (hp.symm.trans hq)
        exact hne ((htime f j p hfragment).symm.trans hqt)
      exact ⟨p, hslot.trans hp, hfragment⟩

end Step

/-! ## Runs -/

section Run

variable {σ E : Type} {step : σ → E → σ} {view : σ → Collector P}
  {arrives : E → SentFrame → Nat → Prop} {removes : E → BitVec 32 → Prop}
  {fragment : SentFrame → Nat → P → Prop} {good : SentFrame → ReceivedFrame → Bool → Prop}
  {timestampOf : P → BitVec 32} {frames : List SentFrame}

/-- An event of a system with a collector is the arrival of a piece, or it takes away something of
one timestamp. -/
def Follows (fragment : SentFrame → Nat → P → Prop)
    (good : SentFrame → ReceivedFrame → Bool → Prop) (timestampOf : P → BitVec 32)
    (frames : List SentFrame) (step : σ → E → σ) (view : σ → Collector P)
    (arrives : E → SentFrame → Nat → Prop) (removes : E → BitVec 32 → Prop) (e : E) : Prop :=
  ∀ s, Sound fragment good frames (view s) →
    (∃ f ∈ frames, ∃ i < f.pieces.length,
      (∀ g ∈ frames, ∀ j < g.pieces.length, arrives e g j → f = g ∧ j = i) ∧
        Receives fragment good (view s) f i (view (step s e))) ∨
    (∃ t, removes e t ∧ (∀ g j, ¬ arrives e g j) ∧
      Removed timestampOf t (view s) (view (step s e)))

/-- In every run, what is stored as complete is right. -/
theorem run_sound {events : List E}
    (hevents : ∀ e ∈ events,
      Follows fragment good timestampOf frames step view arrives removes e) {s : σ}
    (hs : Sound fragment good frames (view s)) :
    Sound fragment good frames (view (events.foldl step s)) := by
  induction events generalizing s with
  | nil => exact hs
  | cons e rest ih =>
      refine ih (fun e' he' => hevents e' (List.mem_cons_of_mem e he')) ?_
      rcases hevents e List.mem_cons_self s hs with ⟨f, hf, i, hi, -, hreceives⟩ | ⟨t, -, -, hremoved⟩
      · exact receives_sound hs hf hi hreceives
      · exact removed_sound hs hremoved

/-- Fewer arrivals are asked for. -/
theorem Progress.mono {c : Collector P} {f : SentFrame} {arrived arrived' : Nat → Prop}
    (h : Progress fragment c f arrived)
    (himp : ∀ j < f.pieces.length, arrived' j → arrived j) :
    Progress fragment c f arrived' := by
  rcases h with hcomplete | ⟨⟨k, hk, hmissing⟩, hstart, hfinish, hslots⟩
  · exact Or.inl hcomplete
  · exact Or.inr ⟨⟨k, hk, fun h => hmissing (himp k hk h)⟩,
      fun h => hstart (himp 0 (by omega) h), fun h => hfinish (himp _ (by omega) h),
      fun j hj h => hslots j hj (himp j hj h)⟩

/-- In every run that takes nothing of a frame away, the frame makes progress with each of its
pieces that arrives. -/
theorem run_progress (hd : Distinct frames)
    (htime : ∀ f i p, fragment f i p → timestampOf p = f.timestamp) {events : List E}
    (hevents : ∀ e ∈ events,
      Follows fragment good timestampOf frames step view arrives removes e) {g : SentFrame}
    (hg : g ∈ frames) (hshort : g.pieces.length ≤ kMaxPacketsPerFrame)
    (hkept : ∀ e ∈ events, ¬ removes e g.timestamp) {s : σ}
    (hs : Sound fragment good frames (view s)) {arrived : Nat → Prop}
    (h : Progress fragment (view s) g arrived) :
    Progress fragment (view (events.foldl step s)) g fun j =>
      arrived j ∨ ∃ e ∈ events, arrives e g j := by
  induction events generalizing s arrived with
  | nil => simpa using h
  | cons e rest ih =>
      have hrest := fun e' he' => hevents e' (List.mem_cons_of_mem e he')
      have hkept' := fun e' he' => hkept e' (List.mem_cons_of_mem e he')
      rcases hevents e List.mem_cons_self s hs with
        ⟨f, hf, i, hi, honly, hreceives⟩ | ⟨t, ht, hnone, hremoved⟩
      · refine (ih hrest hkept' (receives_sound hs hf hi hreceives)
          (receives_progress hd hf hi hreceives hg hshort h)).mono ?_
        rintro j hj (hold | ⟨e', he', harrives⟩)
        · exact Or.inl (Or.inl hold)
        · rcases List.mem_cons.mp he' with rfl | htail
          · exact Or.inl (Or.inr (honly g hg j hj harrives))
          · exact Or.inr ⟨e', htail, harrives⟩
      · have hne : g.timestamp ≠ t := by
          rintro rfl
          exact hkept e List.mem_cons_self ht
        refine (ih hrest hkept' (removed_sound hs hremoved)
          (removed_progress htime hremoved hne h)).mono ?_
        rintro j - (hold | ⟨e', he', harrives⟩)
        · exact Or.inl hold
        · rcases List.mem_cons.mp he' with rfl | htail
          · exact absurd harrives (hnone g j)
          · exact Or.inr ⟨e', htail, harrives⟩

/-- A frame is complete at the end of a run in which all its pieces arrive and nothing of it is
taken away. -/
theorem run_complete (hd : Distinct frames)
    (htime : ∀ f i p, fragment f i p → timestampOf p = f.timestamp) {events : List E}
    (hevents : ∀ e ∈ events,
      Follows fragment good timestampOf frames step view arrives removes e) {g : SentFrame}
    (hg : g ∈ frames) (hshort : g.pieces.length ≤ kMaxPacketsPerFrame)
    (hkept : ∀ e ∈ events, ¬ removes e g.timestamp)
    (hall : ∀ j < g.pieces.length, ∃ e ∈ events, arrives e g j) {s : σ}
    (hs : Sound fragment good frames (view s)) :
    CompleteIn (view (events.foldl step s)).pending g := by
  have hstart : Progress fragment (view s) g fun _ => False :=
    Or.inr ⟨⟨0, hd.nonempty g hg, id⟩, False.elim, False.elim, fun _ _ => False.elim⟩
  rcases run_progress hd htime hevents hg hshort hkept hs hstart with
    hcomplete | ⟨⟨k, hk, hmissing⟩, -, -, -⟩
  · exact hcomplete
  · exact absurd (Or.inr (hall k hk)) hmissing

end Run

end Collector

end MiniRtc

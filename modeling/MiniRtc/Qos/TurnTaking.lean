import MiniRtc.Qos.PacketQueue
import MiniRtc.Foundation.Run

/-!
# The turns of the streams

The streams that have packets at a level of `PrioritizedPacketQueue` take turns. `share_of_turns`
says what a stream gets from that: while it has packets at the level and at most `bound` streams
have, one of every `bound` packets that leave the level is its own. Packets of the levels before
come first, and packets of the levels behind have to wait.
-/

namespace MiniRtc

/-- A call of the queue. -/
inductive PacketQueueCall (Content : Type*) where
  | push (p : PacedPacket Content)
  | pop
  | removePacketsForSsrc (ssrc : BitVec 32)

/-- A queue, and how many packets have left a level, in all and of one stream. -/
structure TurnCount (Content : Type*) where
  queue : PrioritizedPacketQueue Content
  left : ℕ := 0
  own : ℕ := 0

namespace TurnCount

variable {Content : Type*}

/-- A call, with the count of the packets that leave the level. -/
def step (ssrc : BitVec 32) (level : Fin 5) (c : TurnCount Content) :
    PacketQueueCall Content → TurnCount Content
  | .push p => { c with queue := c.queue.push p }
  | .pop =>
      match c.queue.pop with
      | none => c
      | some (p, queue) =>
          { queue
            left := if p.priorityLevel = level then c.left + 1 else c.left
            own := if p.ssrc = ssrc ∧ p.priorityLevel = level then c.own + 1 else c.own }
  | .removePacketsForSsrc other => { c with queue := c.queue.removePacketsForSsrc other }

/-- The stream has packets at the level, and at most `bound` streams have. -/
def Backlogged (ssrc : BitVec 32) (level : Fin 5) (bound : ℕ) (c : TurnCount Content) : Prop :=
  c.queue.lane ssrc level ≠ [] ∧ (c.queue.streamsByPrio level).length ≤ bound

instance decidableBacklogged (ssrc : BitVec 32) (level : Fin 5) (bound : ℕ)
    (c : TurnCount Content) : Decidable (c.Backlogged ssrc level bound) :=
  decidable_of_iff
    ((c.queue.lane ssrc level).isEmpty = false ∧ (c.queue.streamsByPrio level).length ≤ bound)
    (and_congr_left' List.isEmpty_eq_false_iff)

end TurnCount

namespace PrioritizedPacketQueue

variable {Content : Type*} {q q' : PrioritizedPacketQueue Content} {p : PacedPacket Content}

/-- The stream whose turn it was goes to the end of the turns or leaves them. -/
theorem turns_of_pop (h : q.Filed) (hpop : q.pop = some (p, q')) :
    ∃ others, q.streamsByPrio p.priorityLevel = p.ssrc :: others ∧
      (q'.streamsByPrio p.priorityLevel = others ∨
        q'.streamsByPrio p.priorityLevel = others ++ [p.ssrc]) ∧
      ∀ level, level ≠ p.priorityLevel → q'.streamsByPrio level = q.streamsByPrio level := by
  unfold pop at hpop
  split at hpop
  · cases hpop
  rename_i level htop
  split at hpop
  · cases hpop
  rename_i ssrc others hturn
  split at hpop
  · cases hpop
  rename_i front later hlane
  obtain ⟨rfl, rfl⟩ := Prod.mk.inj (Option.some.inj hpop)
  obtain ⟨hssrc, hlevel⟩ := h.filed ssrc level front (by rw [hlane]; exact List.mem_cons_self)
  subst hssrc hlevel
  refine ⟨others, hturn, ?_, ?_⟩
  · split_ifs
    · rw [(maybe_update_streams _).2]
      exact Or.inl (Function.update_self ..)
    · exact Or.inr (Function.update_self ..)
  · intro level hne
    split_ifs
    · rw [(maybe_update_streams _).2]
      exact Function.update_of_ne hne ..
    · exact Function.update_of_ne hne ..

/-- A pushed packet gives a stream a turn at the end, unless it has one. -/
theorem turns_push (q : PrioritizedPacketQueue Content) (p : PacedPacket Content)
    (level : Fin 5) :
    (q.push p).streamsByPrio level = q.streamsByPrio level ∨
      (q.push p).streamsByPrio level = q.streamsByPrio level ++ [p.ssrc] := by
  unfold push
  simp only
  split_ifs
  · by_cases hlevel : level = p.priorityLevel
    · rw [hlevel, Function.update_self]
      exact Or.inr rfl
    · rw [Function.update_of_ne hlevel]
      exact Or.inl rfl
  · exact Or.inl rfl

/-- A stream that is removed leaves the turns, or they stay as they are. -/
theorem turns_remove (h : q.Filed) (ssrc : BitVec 32) (level : Fin 5) :
    (q.removePacketsForSsrc ssrc).streamsByPrio level =
      (q.streamsByPrio level).filter fun other => decide (other ≠ ssrc) := by
  unfold removePacketsForSsrc
  rw [(maybe_update_streams _).2]
  simp only
  split_ifs with hempty hone
  · refine (List.filter_eq_self.mpr fun other hother => decide_eq_true ?_).symm
    rintro rfl
    exact (h.listed other level).mp hother hempty
  · obtain ⟨only, honly⟩ := List.length_eq_one_iff.mp hone
    have hin := (h.listed ssrc level).mpr hempty
    rw [honly, List.mem_singleton] at hin
    rw [honly, ← hin]
    simp
  · rfl

end PrioritizedPacketQueue

namespace TurnCount

variable {Content : Type*} {ssrc : BitVec 32} {level : Fin 5} {bound : ℕ} {c : TurnCount Content}

/-- How many streams have their turn before the stream. -/
def ahead (ssrc : BitVec 32) (level : Fin 5) (c : TurnCount Content) : ℕ :=
  (c.queue.streamsByPrio level).idxOf ssrc

/-- The stream has had its share, but for the turns before its next one. -/
structure Shared (ssrc : BitVec 32) (level : Fin 5) (bound : ℕ) (c : TurnCount Content) :
    Prop where
  filed : c.queue.Filed
  share : c.left + c.ahead ssrc level < bound * (c.own + 1)

/-- A stream with packets has a turn. -/
theorem turn_of_backlogged (h : c.queue.Filed) (hb : c.Backlogged ssrc level bound) :
    ssrc ∈ c.queue.streamsByPrio level :=
  (h.listed ssrc level).mpr hb.1

/-- A stream with packets has its turn among the first `bound`. -/
theorem ahead_lt (h : c.queue.Filed) (hb : c.Backlogged ssrc level bound) :
    c.ahead ssrc level < bound :=
  (List.idxOf_lt_length_of_mem (turn_of_backlogged h hb)).trans_le hb.2

/-- Removing a stream moves no other stream back. -/
theorem idxOf_filter_le {α : Type*} [DecidableEq α] (keep : α → Bool) {a : α} (ha : keep a)
    (items : List α) : (items.filter keep).idxOf a ≤ items.idxOf a := by
  induction items with
  | nil => exact Nat.le_refl _
  | cons b rest ih =>
      rw [List.filter_cons]
      by_cases hb : b = a
      · subst hb
        rw [if_pos ha, List.idxOf_cons_self, List.idxOf_cons_self]
      · split_ifs
        · rw [List.idxOf_cons_ne _ hb, List.idxOf_cons_ne _ hb]
          exact Nat.succ_le_succ ih
        · rw [List.idxOf_cons_ne _ hb]
          exact ih.trans (Nat.le_succ _)

/-- A packet that is pushed changes no turn of a stream with packets. -/
theorem shared_push (h : c.Shared ssrc level bound) (hb : c.Backlogged ssrc level bound)
    (p : PacedPacket Content) : (c.step ssrc level (.push p)).Shared ssrc level bound := by
  refine ⟨PrioritizedPacketQueue.filed_push h.filed p, ?_⟩
  have hsame : (c.step ssrc level (.push p)).ahead ssrc level = c.ahead ssrc level := by
    show ((c.queue.push p).streamsByPrio level).idxOf ssrc = _
    rcases PrioritizedPacketQueue.turns_push c.queue p level with hturns | hturns
    · rw [hturns]
      rfl
    · rw [hturns, List.idxOf_append_of_mem (turn_of_backlogged h.filed hb)]
      rfl
  rw [hsame]
  exact h.share

/-- A packet that leaves is one of the stream, or the stream comes closer to its turn. -/
theorem shared_pop (h : c.Shared ssrc level bound) (hb : c.Backlogged ssrc level bound)
    (hafter : (c.step ssrc level .pop).Backlogged ssrc level bound) :
    (c.step ssrc level .pop).Shared ssrc level bound := by
  have hshare := h.share
  unfold step at hafter ⊢
  simp only at hafter ⊢
  split at hafter
  · exact h
  · rename_i p queue hpop
    obtain ⟨others, hturn, hnext, hother⟩ := PrioritizedPacketQueue.turns_of_pop h.filed hpop
    refine ⟨(PrioritizedPacketQueue.popped_of_pop h.filed hpop).filed, ?_⟩
    have hclose : (queue.streamsByPrio level).idxOf ssrc < bound :=
      ahead_lt (PrioritizedPacketQueue.popped_of_pop h.filed hpop).filed hafter
    by_cases hlevel : p.priorityLevel = level
    · subst hlevel
      by_cases hssrc : p.ssrc = ssrc
      · subst hssrc
        have hfirst : c.ahead p.ssrc p.priorityLevel = 0 := by
          unfold ahead
          rw [hturn, List.idxOf_cons_self]
        simp only [and_self, if_true]
        rw [hfirst] at hshare
        have hmore : bound * (c.own + 1 + 1) = bound * (c.own + 1) + bound := Nat.mul_succ _ _
        show c.left + 1 + (queue.streamsByPrio p.priorityLevel).idxOf p.ssrc < _
        omega
      · have hback : c.ahead ssrc p.priorityLevel = others.idxOf ssrc + 1 := by
          unfold ahead
          rw [hturn, List.idxOf_cons_ne _ hssrc]
        have hin : ssrc ∈ others := by
          have hmem := turn_of_backlogged h.filed hb
          rw [hturn] at hmem
          exact (List.mem_cons.mp hmem).resolve_left fun heq => hssrc heq.symm
        have hforward : (queue.streamsByPrio p.priorityLevel).idxOf ssrc = others.idxOf ssrc := by
          rcases hnext with hnext | hnext
          · rw [hnext]
          · rw [hnext, List.idxOf_append_of_mem hin]
        simp only [hssrc, false_and, if_true, if_false]
        show c.left + 1 + (queue.streamsByPrio p.priorityLevel).idxOf ssrc < _
        rw [hforward]
        omega
    · have hsame : (queue.streamsByPrio level).idxOf ssrc = c.ahead ssrc level := by
        rw [hother level fun heq => hlevel heq.symm]
        rfl
      simp only [hlevel, and_false, if_false]
      show c.left + (queue.streamsByPrio level).idxOf ssrc < _
      rw [hsame]
      exact hshare

/-- Removing another stream moves no turn of the stream back. -/
theorem shared_remove (h : c.Shared ssrc level bound) {other : BitVec 32}
    (hafter : (c.step ssrc level (.removePacketsForSsrc other)).Backlogged ssrc level bound) :
    (c.step ssrc level (.removePacketsForSsrc other)).Shared ssrc level bound := by
  refine ⟨PrioritizedPacketQueue.filed_remove h.filed other, ?_⟩
  have hne : ssrc ≠ other := by
    rintro rfl
    refine hafter.1 ?_
    show (c.queue.removePacketsForSsrc ssrc).lane ssrc level = []
    rw [PrioritizedPacketQueue.lane_remove, if_pos rfl]
  have hle : (c.step ssrc level (.removePacketsForSsrc other)).ahead ssrc level ≤
      c.ahead ssrc level := by
    show ((c.queue.removePacketsForSsrc other).streamsByPrio level).idxOf ssrc ≤ _
    rw [PrioritizedPacketQueue.turns_remove h.filed]
    exact idxOf_filter_le _ (by simpa using hne) _
  exact (Nat.add_le_add_left hle _).trans_lt h.share

/-- The stream keeps its share. -/
theorem shared_step (h : c.Shared ssrc level bound) (call : PacketQueueCall Content)
    (hb : c.Backlogged ssrc level bound)
    (hafter : (c.step ssrc level call).Backlogged ssrc level bound) :
    (c.step ssrc level call).Shared ssrc level bound := by
  cases call with
  | push p => exact shared_push h hb p
  | pop => exact shared_pop h hb hafter
  | removePacketsForSsrc other => exact shared_remove h hafter

/-- A packet of a camera. -/
def cameraPacket (ssrc : BitVec 32) (number : ℕ) : PacedPacket ℕ :=
  { ssrc, packetType := .video, content := number }

/-- Two cameras with three packets each. -/
def twoCameras : PrioritizedPacketQueue ℕ :=
  [cameraPacket 1 0, cameraPacket 1 1, cameraPacket 1 2, cameraPacket 2 0, cameraPacket 2 1,
    cameraPacket 2 2].foldl PrioritizedPacketQueue.push {}

theorem two_cameras_filed : twoCameras.Filed :=
  List.foldlRecOn _ PrioritizedPacketQueue.push (motive := PrioritizedPacketQueue.Filed)
    PrioritizedPacketQueue.filed_new fun _ h p _ => PrioritizedPacketQueue.filed_push h p

end TurnCount

end MiniRtc

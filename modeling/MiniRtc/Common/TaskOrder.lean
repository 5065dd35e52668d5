import MiniRtc.Common.TaskQueue
import Mathlib.Data.List.Nodup
import Mathlib.Data.List.Perm.Basic

/-!
# The order in which tasks are taken

A worker takes an item when it is due, and only when everything that comes before it in the queue was
taken or cleared. So the tasks that one thread posts with the same delay are taken in the order in
which they were posted. What was posted is queued, or it was taken or cleared once. This holds for
any number of workers and of threads that use the queue, in any order of their steps.
-/

namespace MiniRtc

variable {n : ℕ} {C Task : Type*}

/-! ## Items -/

namespace TaskItem

variable {item other third : TaskItem Task}

theorem after_iff : item.After other ↔ other.executeTime < item.executeTime ∨
    other.executeTime = item.executeTime ∧ other.sequenceId < item.sequenceId := by
  unfold After
  split_ifs with hne
  · constructor
    · exact Or.inl
    · rintro (hlate | ⟨hsame, -⟩)
      · exact hlate
      · exact absurd hsame.symm hne
  · have hsame : item.executeTime = other.executeTime := not_not.mp hne
    constructor
    · exact fun h => Or.inr ⟨hsame.symm, h⟩
    · rintro (hlate | ⟨-, h⟩)
      · exact absurd hlate (by rw [hsame]; exact lt_irrefl _)
      · exact h

theorem before_refl (item : TaskItem Task) : item.Before item := by
  show ¬ item.After item
  rw [after_iff]
  rintro (h | ⟨-, h⟩)
  · exact lt_irrefl _ h
  · exact lt_irrefl _ h

instance transBefore : IsTrans (TaskItem Task) Before where
  trans first second third h h' := by
    unfold Before at h h' ⊢
    rw [after_iff] at h h' ⊢
    omega

instance totalBefore : Std.Total (α := TaskItem Task) Before where
  total first second := by
    unfold Before
    rw [after_iff, after_iff]
    omega

end TaskItem

/-! ## Events -/

namespace TaskEvent

/-- The thread, the delay and the item of a post. -/
def post : TaskEvent C Task → Option (C × ℤ × TaskItem Task)
  | .posted c delay item => some (c, delay, item)
  | .refused _ | .taken _ _ | .cleared _ => none

/-- The item that is taken. -/
def take : TaskEvent C Task → Option (TaskItem Task)
  | .taken item _ => some item
  | .posted _ _ _ | .refused _ | .cleared _ => none

/-- The items that are cleared. -/
def clear : TaskEvent C Task → List (TaskItem Task)
  | .cleared items => items
  | .posted _ _ _ | .refused _ | .taken _ _ => []

end TaskEvent

namespace TaskSystem

/-- The posts in a trace. -/
def posts (seen : List (TaskEvent C Task)) : List (C × ℤ × TaskItem Task) :=
  seen.filterMap TaskEvent.post

/-- The items that were posted. -/
def posted (seen : List (TaskEvent C Task)) : List (TaskItem Task) :=
  (posts seen).map fun post => post.2.2

/-- The items that were taken. -/
def taken (seen : List (TaskEvent C Task)) : List (TaskItem Task) :=
  seen.filterMap TaskEvent.take

/-- The items that were cleared. -/
def cleared (seen : List (TaskEvent C Task)) : List (TaskItem Task) :=
  seen.flatMap TaskEvent.clear

section Events

variable (seen new : List (TaskEvent C Task))

@[simp] theorem posts_append : posts (seen ++ new) = posts seen ++ posts new :=
  List.filterMap_append

@[simp] theorem posted_append : posted (seen ++ new) = posted seen ++ posted new := by
  unfold posted
  rw [posts_append, List.map_append]

@[simp] theorem taken_append : taken (seen ++ new) = taken seen ++ taken new :=
  List.filterMap_append

@[simp] theorem cleared_append : cleared (seen ++ new) = cleared seen ++ cleared new :=
  List.flatMap_append

end Events

/-! ## What is kept -/

/-- An item that is taken is due, and what comes before it was taken or cleared. -/
def InOrder (seen : List (TaskEvent C Task)) : TaskEvent C Task → Prop
  | .taken item now => item.executeTime ≤ now ∧ item ∈ posted seen ∧
      ∀ other ∈ posted seen, item.After other → other ∈ taken seen ∨ other ∈ cleared seen
  | .posted _ _ _ | .refused _ | .cleared _ => True

/-- When an item is taken, what its thread had posted before with the same delay was taken or
cleared. -/
def InTurn (seen : List (TaskEvent C Task)) : TaskEvent C Task → Prop
  | .taken item _ => ∀ first c delay other last,
      posts seen = first ++ (c, delay, other) :: last → (c, delay, item) ∈ last →
      other ∈ taken seen ∨ other ∈ cleared seen
  | .posted _ _ _ | .refused _ | .cleared _ => True

/-- The items of a trace and the queue after it. -/
structure ItemsKept (seen : List (TaskEvent C Task)) (q : TaskQueue Task) : Prop where
  accounted : (posted seen).Perm (taken seen ++ cleared seen ++ q.taskQueue)
  sorted : q.taskQueue.Pairwise TaskItem.Before
  inOrder : Trace.Throughout InOrder seen
  next : q.nextSequenceId = (posted seen).length % 2 ^ 64
  numbered : ∀ i item, (posted seen)[i]? = some item → item.sequenceId = i % 2 ^ 64

/-- The times of the posts of a trace, and the posts that are under way: with the same delay a thread
posts at later and later times. -/
structure TimesKept (seen : List (TaskEvent C Task)) (s : TaskSystem n C Task) : Prop where
  timely : ∀ post ∈ posts seen, post.2.2.executeTime ≤ s.now + post.2.1
  outstanding : ∀ c delay executeTime task, s.caller c = .posting delay executeTime task →
    executeTime ≤ s.now + delay ∧
      ∀ post ∈ posts seen, post.1 = c → post.2.1 = delay → post.2.2.executeTime ≤ executeTime
  ascending : (posts seen).Pairwise fun post later => post.1 = later.1 → post.2.1 = later.2.1 →
    post.2.2.executeTime ≤ later.2.2.executeTime

variable {s s' : TaskSystem n C Task} {q : TaskQueue Task} {seen : List (TaskEvent C Task)}

/-! ## The items -/

/-- An event that moves no item. -/
theorem ItemsKept.idle (h : ItemsKept seen q) {event : TaskEvent C Task}
    (hpost : event.post = none) (htake : event.take = none) (hclear : event.clear = [])
    (horder : InOrder seen event) : ItemsKept (seen ++ [event]) q := by
  have hposts : posts [event] = [] := by
    unfold posts
    rw [List.filterMap_cons_none hpost, List.filterMap_nil]
  have hposted : posted (seen ++ [event]) = posted seen := by
    unfold posted
    rw [posts_append, hposts, List.append_nil]
  have htaken : taken (seen ++ [event]) = taken seen := by
    unfold taken
    rw [List.filterMap_append, List.filterMap_cons_none htake, List.filterMap_nil, List.append_nil]
  have hcleared : cleared (seen ++ [event]) = cleared seen := by
    unfold cleared
    rw [List.flatMap_append, List.flatMap_singleton, hclear, List.append_nil]
  refine ⟨?_, h.sorted, Trace.throughout_concat.mpr ⟨h.inOrder, horder⟩, ?_, ?_⟩
  · rw [hposted, htaken, hcleared]
    exact h.accounted
  · rw [hposted]
    exact h.next
  · rw [hposted]
    exact h.numbered

/-- An item is posted. -/
theorem ItemsKept.post (h : ItemsKept seen q) (c : C) (delay executeTime : ℤ)
    (task : Option Task) :
    ItemsKept (seen ++ [.posted c delay (q.makeItem executeTime task)])
      (q.emplace executeTime task) := by
  set item := q.makeItem executeTime task
  have hposted : posted (seen ++ [.posted c delay item]) = posted seen ++ [item] :=
    posted_append seen [.posted c delay item]
  have htaken : taken (seen ++ [.posted c delay item]) = taken seen := by
    rw [taken_append]
    exact List.append_nil _
  have hcleared : cleared (seen ++ [.posted c delay item]) = cleared seen := by
    rw [cleared_append]
    exact List.append_nil _
  have hlength : (posted (seen ++ [.posted c delay item])).length = (posted seen).length + 1 := by
    rw [hposted, List.length_append, List.length_singleton]
  refine ⟨?_, ?_, ?_, ?_, ?_⟩
  · rw [hposted, htaken, hcleared]
    show (posted seen ++ [item]).Perm
      (taken seen ++ cleared seen ++ q.taskQueue.orderedInsert TaskItem.Before item)
    have hinsert : (q.taskQueue ++ [item]).Perm
        (q.taskQueue.orderedInsert TaskItem.Before item) :=
      List.perm_append_comm.trans (List.perm_orderedInsert TaskItem.Before item q.taskQueue).symm
    refine (h.accounted.append_right [item]).trans ?_
    rw [List.append_assoc (taken seen ++ cleared seen)]
    exact hinsert.append_left _
  · exact h.sorted.orderedInsert item q.taskQueue
  · exact Trace.throughout_concat.mpr ⟨h.inOrder, trivial⟩
  · rw [hlength]
    show (q.nextSequenceId + 1) % 2 ^ 64 = _
    rw [h.next, Nat.mod_add_mod]
  · intro i other hother
    rw [hposted] at hother
    rcases lt_or_ge i (posted seen).length with hold | hnew
    · rw [List.getElem?_append_left hold] at hother
      exact h.numbered i other hother
    · rw [List.getElem?_append_right hnew] at hother
      rw [List.getElem?_singleton] at hother
      split_ifs at hother with hlast
      obtain rfl := Option.some.inj hother
      have hi : i = (posted seen).length := by omega
      rw [hi]
      exact h.next

/-- An item is taken. -/
theorem ItemsKept.take (h : ItemsKept seen q) {top : TaskItem Task} {rest : List (TaskItem Task)}
    (hqueue : q.taskQueue = top :: rest) {now : ℤ} (hdue : top.executeTime ≤ now) :
    InOrder seen (.taken top now) ∧
      ItemsKept (seen ++ [.taken top now]) { q with taskQueue := rest } := by
  have hposted : posted (seen ++ [.taken top now]) = posted seen := by
    rw [posted_append]
    exact List.append_nil _
  have htaken : taken (seen ++ [.taken top now]) = taken seen ++ [top] :=
    taken_append seen [.taken top now]
  have hcleared : cleared (seen ++ [.taken top now]) = cleared seen := by
    rw [cleared_append]
    exact List.append_nil _
  have haccounted := h.accounted
  rw [hqueue] at haccounted
  have hsorted := h.sorted
  rw [hqueue] at hsorted
  have hinOrder : InOrder seen (.taken top now) := by
    refine ⟨hdue, ?_, fun other hother hafter => ?_⟩
    · exact haccounted.mem_iff.mpr (List.mem_append_right _ List.mem_cons_self)
    · rcases List.mem_append.mp (haccounted.mem_iff.mp hother) with hgone | hqueued
      · exact List.mem_append.mp hgone
      · rcases List.mem_cons.mp hqueued with rfl | hlater
        · exact absurd hafter (TaskItem.before_refl other)
        · exact absurd hafter (List.rel_of_pairwise_cons hsorted hlater)
  refine ⟨hinOrder, ?_, hsorted.of_cons, Trace.throughout_concat.mpr ⟨h.inOrder, hinOrder⟩, ?_, ?_⟩
  · rw [hposted, htaken, hcleared]
    refine haccounted.trans ?_
    show (taken seen ++ cleared seen ++ ([top] ++ rest)).Perm
      (taken seen ++ [top] ++ cleared seen ++ rest)
    rw [← List.append_assoc (taken seen ++ cleared seen),
      List.append_assoc (taken seen) (cleared seen), List.append_assoc (taken seen) [top]]
    exact (List.perm_append_comm.append_left _).append_right _
  · rw [hposted]
    exact h.next
  · rw [hposted]
    exact h.numbered

/-- The queue is cleared. -/
theorem ItemsKept.clear (h : ItemsKept seen q) :
    ItemsKept (seen ++ [.cleared q.taskQueue] : List (TaskEvent C Task))
      { q with taskQueue := [] } := by
  have hposted : posted (seen ++ [.cleared q.taskQueue]) = posted seen := by
    rw [posted_append]
    exact List.append_nil _
  have htaken : taken (seen ++ [.cleared q.taskQueue]) = taken seen := by
    rw [taken_append]
    exact List.append_nil _
  have hcleared : cleared (seen ++ [.cleared q.taskQueue]) = cleared seen ++ q.taskQueue := by
    rw [cleared_append]
    exact congrArg (cleared seen ++ ·) (List.append_nil _)
  refine ⟨?_, List.Pairwise.nil, Trace.throughout_concat.mpr ⟨h.inOrder, trivial⟩, ?_, ?_⟩
  · rw [hposted, htaken, hcleared, List.append_nil, ← List.append_assoc]
    exact h.accounted
  · rw [hposted]
    exact h.next
  · rw [hposted]
    exact h.numbered

/-! ## The times of the posts -/

variable [DecidableEq C]

/-- Another state of a thread is no new post. -/
theorem posting_of_set_caller {c d : C} {next : Caller Task} {delay executeTime : ℤ}
    {task : Option Task} (hnext : ∀ delay executeTime task, next ≠ .posting delay executeTime task)
    (h : (s.setCaller c next).caller d = .posting delay executeTime task) :
    s.caller d = .posting delay executeTime task := by
  by_cases hd : d = c
  · subst hd
    exact absurd (caller_self.symm.trans h) (hnext _ _ _)
  · exact (caller_other hd).symm.trans h

omit [DecidableEq C] in
/-- Time passes, and no thread posts. -/
theorem TimesKept.same (h : TimesKept seen s) {new : List (TaskEvent C Task)}
    (hposts : posts new = []) (hnow : s.now ≤ s'.now)
    (hcaller : ∀ c delay executeTime task, s'.caller c = .posting delay executeTime task →
      s.caller c = .posting delay executeTime task) : TimesKept (seen ++ new) s' := by
  have hsame : posts (seen ++ new) = posts seen := by
    rw [posts_append, hposts, List.append_nil]
  refine ⟨fun post hpost => ?_, fun c delay executeTime task hposting => ?_, hsame ▸ h.ascending⟩
  · rw [hsame] at hpost
    have htimely := h.timely post hpost
    omega
  · obtain ⟨hbound, hearlier⟩ := h.outstanding c delay executeTime task (hcaller _ _ _ _ hposting)
    refine ⟨by omega, ?_⟩
    rw [hsame]
    exact hearlier

/-- A thread reads the clock for a post: all its earlier posts with the delay are due by then. -/
theorem TimesKept.request (h : TimesKept seen s) (c : C) (request : Request Task) :
    TimesKept (seen ++ []) (s.setCaller c (s.accepts request)) := by
  rw [List.append_nil]
  refine ⟨h.timely, fun d delay executeTime task hposting => ?_, h.ascending⟩
  by_cases hd : d = c
  · subst hd
    have hnext := caller_self.symm.trans hposting
    cases request with
    | post delay' task' =>
        obtain ⟨rfl, rfl, rfl⟩ := Caller.posting.inj hnext
        refine ⟨le_refl _, fun post hpost _ hdelay => ?_⟩
        rw [← hdelay]
        exact h.timely post hpost
    | clearTasks => cases hnext
    | stop => cases hnext
  · exact h.outstanding d delay executeTime task ((caller_other hd).symm.trans hposting)

/-- A post is accepted. -/
theorem TimesKept.post (h : TimesKept seen s) {c : C} {delay executeTime : ℤ}
    {task : Option Task} (hposting : s.caller c = .posting delay executeTime task)
    {next : Caller Task} (hnext : ∀ delay executeTime task, next ≠ .posting delay executeTime task) :
    TimesKept (seen ++ [.posted c delay (s.queue.makeItem executeTime task)])
      (TaskSystem.setCaller { s with queue := s.queue.emplace executeTime task } c next) := by
  obtain ⟨hbound, hearlier⟩ := h.outstanding c delay executeTime task hposting
  have hposts : posts (seen ++ [.posted c delay (s.queue.makeItem executeTime task)]) =
      posts seen ++ [(c, delay, s.queue.makeItem executeTime task)] :=
    posts_append seen [.posted c delay (s.queue.makeItem executeTime task)]
  refine ⟨?_, fun d delay' executeTime' task' hother => ?_, ?_⟩
  · rw [hposts]
    intro post hpost
    rcases List.mem_append.mp hpost with hold | hlast
    · exact h.timely post hold
    · rw [List.mem_singleton.mp hlast]
      exact hbound
  · have hd : d ≠ c := by
      rintro rfl
      exact absurd (caller_self.symm.trans hother) (hnext _ _ _)
    obtain ⟨hbound', hearlier'⟩ := h.outstanding d delay' executeTime' task'
      ((caller_other hd).symm.trans hother)
    refine ⟨hbound', fun post hpost hcaller hdelay => ?_⟩
    rw [hposts] at hpost
    rcases List.mem_append.mp hpost with hold | hlast
    · exact hearlier' post hold hcaller hdelay
    · rw [List.mem_singleton.mp hlast] at hcaller
      exact absurd hcaller.symm hd
  · rw [hposts]
    refine List.pairwise_append.mpr ⟨h.ascending, List.pairwise_singleton _ _, ?_⟩
    intro post hold later hlast hcaller hdelay
    rw [List.mem_singleton.mp hlast] at hcaller hdelay ⊢
    exact hearlier post hold hcaller hdelay

/-! ## Runs -/

/-- What a run keeps of the items and of the times. -/
structure TasksKept (seen : List (TaskEvent C Task)) (s : TaskSystem n C Task) : Prop where
  items : ItemsKept seen s.queue
  times : TimesKept seen s
  inTurn : (posted seen).length ≤ 2 ^ 64 → Trace.Throughout InTurn seen

omit [DecidableEq C] in
/-- A new queue has nothing to keep. -/
theorem tasks_kept_new (now : ℤ) : TasksKept [] (new now : TaskSystem n C Task) where
  items :=
    { accounted := List.Perm.refl _
      sorted := List.Pairwise.nil
      inOrder := Trace.throughout_nil
      next := rfl
      numbered := fun i item h => by cases h }
  times :=
    { timely := fun post h => by cases h
      outstanding := fun c delay executeTime task h => by cases h
      ascending := List.Pairwise.nil }
  inTurn := fun _ => Trace.throughout_nil

omit [DecidableEq C] in
/-- An item that is taken in order is taken in turn: an earlier post of its thread with the same
delay comes before it. -/
theorem TasksKept.turn (h : TasksKept seen s) (hbound : (posted seen).length ≤ 2 ^ 64)
    {item : TaskItem Task} {now : ℤ} (horder : InOrder seen (.taken item now)) :
    InTurn seen (.taken item now) := by
  intro first c delay other last hposts hitem
  obtain ⟨-, -, hbefore⟩ := horder
  have hascending := h.times.ascending
  rw [hposts] at hascending
  have htimes : other.executeTime ≤ item.executeTime :=
    List.rel_of_pairwise_cons (List.pairwise_append.mp hascending).2.1 hitem rfl rfl
  obtain ⟨i, hi⟩ := List.mem_iff_getElem?.mp hitem
  -- The earlier one has the smaller sequence number, as the numbers have not wrapped.
  have hall : posted seen = first.map (fun post => post.2.2) ++ other ::
      last.map fun post => post.2.2 := by
    unfold posted
    rw [hposts, List.map_append, List.map_cons]
  set front := first.map fun post => post.2.2 with hfront
  have hother : (posted seen)[front.length]? = some other := by
    rw [hall, List.getElem?_append_right (le_refl _), Nat.sub_self]
    rfl
  have hlater : (posted seen)[front.length + 1 + i]? = some item := by
    rw [hall, List.getElem?_append_right (by omega),
      show front.length + 1 + i - front.length = i + 1 by omega, List.getElem?_cons_succ,
      List.getElem?_map, hi]
    rfl
  have hplace : front.length + 1 + i < (posted seen).length :=
    (List.getElem?_eq_some_iff.mp hlater).1
  have hnumber := h.items.numbered _ _ hother
  have hnumber' := h.items.numbered _ _ hlater
  rw [Nat.mod_eq_of_lt (by omega)] at hnumber hnumber'
  refine hbefore other ?_ (TaskItem.after_iff.mpr ?_)
  · rw [hall]
    exact List.mem_append_right _ List.mem_cons_self
  · omega

omit [DecidableEq C] in
/-- A step that moves no item. -/
theorem TasksKept.quiet (h : TasksKept seen s) (hqueue : s'.queue.taskQueue = s.queue.taskQueue)
    (hnext : s'.queue.nextSequenceId = s.queue.nextSequenceId)
    (htimes : TimesKept (seen ++ []) s') : TasksKept (seen ++ []) s' := by
  refine ⟨?_, htimes, ?_⟩
  · rw [List.append_nil]
    have hitems := h.items
    exact ⟨hqueue ▸ hitems.accounted, hqueue ▸ hitems.sorted, hitems.inOrder,
      hnext ▸ hitems.next, hitems.numbered⟩
  · rw [List.append_nil]
    exact h.inTurn

/-- A step keeps the items and the times. -/
theorem TasksKept.step (h : TasksKept seen s) {a : TaskAction n C Task}
    {new : List (TaskEvent C Task)} (hstep : Stepped s a s' new) : TasksKept (seen ++ new) s' := by
  have hidle : ∀ {c : C} {next : Caller Task},
      (∀ delay executeTime task, next ≠ .posting delay executeTime task) →
      TimesKept (seen ++ []) (s.setCaller c next) := fun hnext =>
    h.times.same rfl (le_refl _) fun _ _ _ _ => posting_of_set_caller hnext
  have hworker : ∀ {w : Fin n} {next : Worker Task}, TasksKept (seen ++ []) (s.setWorker w next) :=
    h.quiet rfl rfl (h.times.same rfl (le_refl _) fun _ _ _ _ hposting => hposting)
  cases hstep with
  | tick elapsed =>
      refine h.quiet rfl rfl (h.times.same rfl ?_ fun _ _ _ _ hposting => hposting)
      show s.now ≤ s.now + elapsed
      omega
  | requested request hcaller => exact h.quiet rfl rfl (h.times.request _ request)
  | @refused c delay executeTime task hcaller hstop =>
      refine ⟨h.items.idle rfl rfl rfl trivial, h.times.same rfl (le_refl _) ?_, fun hbound => ?_⟩
      · intro _ _ _ _ hposting
        exact posting_of_set_caller (by intro _ _ _ hnext; cases hnext) hposting
      · rw [posted_append, List.length_append] at hbound
        exact Trace.throughout_concat.mpr ⟨h.inTurn (by omega), trivial⟩
  | @posted c delay executeTime task hcaller hstop =>
      refine ⟨h.items.post c delay executeTime task, h.times.post hcaller ?_, fun hbound => ?_⟩
      · intro _ _ _ hnext
        split_ifs at hnext
      · rw [posted_append, List.length_append] at hbound
        exact Trace.throughout_concat.mpr ⟨h.inTurn (by omega), trivial⟩
  | @cleared c hcaller =>
      refine ⟨h.items.clear, h.times.same rfl (le_refl _) ?_, fun hbound => ?_⟩
      · intro _ _ _ _ hposting
        exact posting_of_set_caller (by intro _ _ _ hnext; cases hnext) hposting
      · rw [posted_append, List.length_append] at hbound
        exact Trace.throughout_concat.mpr ⟨h.inTurn (by omega), trivial⟩
  | @stopped c hcaller =>
      refine h.quiet rfl rfl (h.times.same rfl (le_refl _) ?_)
      intro _ _ _ _ hposting
      exact posting_of_set_caller (by intro _ _ _ hnext; cases hnext) hposting
  | notified hcaller hasleep =>
      refine h.quiet rfl rfl (h.times.same rfl (le_refl _) ?_)
      intro _ _ _ _ hposting
      exact posting_of_set_caller (by intro _ _ _ hnext; cases hnext) hposting
  | unnoticed hcaller hawake =>
      exact h.quiet rfl rfl (hidle (by intro _ _ _ hnext; cases hnext))
  | @notifiedAll c joins hcaller =>
      refine h.quiet rfl rfl (h.times.same rfl (le_refl _) ?_)
      intro _ _ _ _ hposting
      refine posting_of_set_caller (fun _ _ _ hnext => ?_) hposting
      split_ifs at hnext
  | joined hcaller hexited =>
      exact h.quiet rfl rfl (hidle (by intro _ _ _ hnext; cases hnext))
  | @takes w top rest hworker hqueue hdue =>
      -- The first item of a sorted queue is the one whose turn it is.
      obtain ⟨horder, hitems⟩ := h.items.take hqueue hdue (C := C)
      refine ⟨hitems, h.times.same rfl (le_refl _) fun _ _ _ _ hposting => hposting,
        fun hbound => ?_⟩
      have hseen : (posted seen).length ≤ 2 ^ 64 := by
        rw [posted_append, List.length_append] at hbound
        omega
      exact Trace.throughout_concat.mpr ⟨h.inTurn hseen, h.turn hseen horder⟩
  | waits _ _ _ => exact hworker
  | leaves _ _ => exact hworker
  | findsNothing _ _ _ => exact hworker
  | waitsUntil _ _ => exact hworker
  | finished _ => exact hworker
  | timeout _ _ => exact hworker
  | spurious _ => exact hworker

/-- A run keeps the items and the times. -/
theorem tasks_kept_run {now : ℤ} {actions : List (TaskAction n C Task)}
    (h : Trace.run step (new now) actions = some (s, seen)) : TasksKept seen s :=
  Trace.run_invariant (fun _ _ _ _ _ hkept hstep => hkept.step (step_cases hstep))
    (tasks_kept_new now) h

omit [DecidableEq C] in
/-- Before the sequence numbers wrap the items are different. -/
theorem ItemsKept.different (h : ItemsKept seen q) (hbound : (posted seen).length ≤ 2 ^ 64) :
    (posted seen).Nodup := by
  have hnumbers : (posted seen).map TaskItem.sequenceId = List.range (posted seen).length := by
    refine List.ext_getElem (by simp) fun i hi hi' => ?_
    have hplace : i < (posted seen).length := by simpa using hi'
    rw [List.getElem_map, List.getElem_range,
      h.numbered i _ (List.getElem?_eq_getElem hplace)]
    exact Nat.mod_eq_of_lt (by omega)
  refine List.Nodup.of_map TaskItem.sequenceId ?_
  rw [hnumbers]
  exact List.nodup_range

/-- In every run of the workers and of the threads that use the queue, what was posted was taken
once, was cleared once, or is queued. An item is taken when it is due, and after everything that comes
before it and was not cleared; and the items that a thread posts with the same delay are taken in the
order of the posts. -/
theorem tasks_served {now : ℤ} {actions : List (TaskAction n C Task)}
    (h : Trace.run step (new now) actions = some (s, seen)) :
    (posted seen).Perm (taken seen ++ cleared seen ++ s.queue.taskQueue) ∧
      Trace.Throughout InOrder seen ∧
      ((posted seen).length ≤ 2 ^ 64 → (posted seen).Nodup ∧ Trace.Throughout InTurn seen) := by
  have hkept := tasks_kept_run h
  exact ⟨hkept.items.accounted, hkept.items.inOrder, fun hbound =>
    ⟨hkept.items.different hbound, hkept.inTurn hbound⟩⟩

/-- A task that is due later is posted first, and a worker waits for it when the other one comes. -/
def overtakingPosts : List (TaskAction 1 Bool ℕ) :=
  [ .request true (.post 5 (some 1)), .callerTurn true, .notifyOne true none,
    .workerTurn (Fin.last 0),
    .request false (.post 0 (some 2)), .callerTurn false, .notifyOne false (some (Fin.last 0)),
    .workerTurn (Fin.last 0), .workerTurn (Fin.last 0), .workerTurn (Fin.last 0),
    .tick 7, .timeout (Fin.last 0), .workerTurn (Fin.last 0) ]

theorem overtaking_posts_served :
    ∃ s, Trace.run step (new 0) overtakingPosts = some (s,
        [.posted true 5 ⟨5, 0, some 1⟩, .posted false 0 ⟨0, 1, some 2⟩,
          .taken ⟨0, 1, some 2⟩ 0, .taken ⟨5, 0, some 1⟩ 7]) ∧
      Trace.Throughout InOrder
        [TaskEvent.posted true 5 (⟨5, 0, some 1⟩ : TaskItem ℕ), .posted false 0 ⟨0, 1, some 2⟩,
          .taken ⟨0, 1, some 2⟩ 0, .taken ⟨5, 0, some 1⟩ 7] :=
  ⟨_, rfl, (@tasks_served 1 Bool ℕ _ _ _ 0 overtakingPosts rfl).2.1⟩

end TaskSystem

end MiniRtc

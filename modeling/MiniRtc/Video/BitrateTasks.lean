import MiniRtc.Video.BitrateUpdate

/-!
# The newest target bitrate is never dropped

The invariant of the bitrate updates of `ice_transport_controller.cpp`. For each stream with a codec
`StreamInv` says that its task is in one place at most, that the flag of the stream says whether it
is somewhere, and that without a task the encoder has the desired bitrate or has just refused it.
`bitrate_updates_settle` reads this off for all runs.
-/

namespace MiniRtc

open Threads System

/-- The operation belongs to the task. -/
abbrev BitrateTask.Holds (k : BitrateTask) (op : BitrateOperation) : Prop :=
  op.task? = some k

/-- The queued task is the task. -/
abbrev BitrateTask.Queues (k : BitrateTask) (task : BitrateQueueTask) : Prop :=
  task = .bitrate k

namespace BitrateController

variable {env : BitrateEnvironment} {s : BitrateController} {op : BitrateOperation}
  {k k' : BitrateTask} {c d : BitrateContext} {nowMs bitrate target result : ℤ}

/-! ## The streams -/

/-- The task of a stream names the stream, its context and its codec. -/
theorem task_eq_some_iff :
    c.task? = some k ↔
      c.name = k.channelName ∧ c.context = k.context ∧ c.codec = some k.codec := by
  cases hcodec : c.codec with
  | none => simp [BitrateContext.task?, hcodec]
  | some codec =>
      cases k
      simp [BitrateContext.task?, hcodec]

/-- A stream with the name of a task is the stream that the task finds. -/
theorem find_sender (hnames : (s.streamSenders.map (·.name)).Nodup) (hc : c ∈ s.streamSenders) :
    s.streamSenders.find? (fun other => other.name = c.name) = some c := by
  generalize s.streamSenders = senders at hnames hc
  induction senders with
  | nil => cases hc
  | cons first rest ih =>
      obtain ⟨hfirst, hrest⟩ := List.nodup_cons.mp hnames
      rcases List.mem_cons.mp hc with rfl | hin
      · simp
      · have hne : first.name ≠ c.name := by
          intro hsame
          exact hfirst (List.mem_map.mpr ⟨c, hin, hsame.symm⟩)
        rw [List.find?_cons_of_neg (by simpa using hne)]
        exact ih hrest hin

/-- A task finds its stream, and nothing else. -/
theorem current_iff (hnames : (s.streamSenders.map (·.name)).Nodup) :
    s.current k = some c ↔ c ∈ s.streamSenders ∧ c.task? = some k := by
  rw [task_eq_some_iff]
  unfold current
  rw [Option.filter_eq_some_iff]
  constructor
  · rintro ⟨hfind, hsame⟩
    have hname : c.name = k.channelName := by simpa using List.find?_some hfind
    exact ⟨List.mem_of_find?_eq_some hfind, hname, by simpa using hsame⟩
  · rintro ⟨hc, hname, hsame⟩
    refine ⟨?_, by simpa using hsame⟩
    rw [← hname]
    exact find_sender hnames hc

/-- A stream after a change is the changed one or one with another name. -/
theorem mem_update_sender {channelName : String} {f : BitrateContext → BitrateContext}
    (hd : d ∈ (s.updateSender channelName f).streamSenders) :
    ∃ c ∈ s.streamSenders, (c.name = channelName ∧ d = f c) ∨ (c.name ≠ channelName ∧ d = c) := by
  obtain ⟨c, hc, rfl⟩ := List.mem_map.mp hd
  refine ⟨c, hc, ?_⟩
  by_cases hname : c.name = channelName
  · exact Or.inl ⟨hname, by rw [if_pos hname]⟩
  · exact Or.inr ⟨hname, by rw [if_neg hname]⟩

/-- Two changes of a stream are one. -/
theorem update_sender_twice {channelName : String} {f g : BitrateContext → BitrateContext}
    (hf : ∀ c, (f c).name = c.name) :
    (s.updateSender channelName f).updateSender channelName g =
      s.updateSender channelName fun c => g (f c) := by
  simp only [updateSender, List.map_map, BitrateController.mk.injEq, true_and, and_true]
  refine List.map_congr_left fun c _ => ?_
  by_cases hname : c.name = channelName
  · simp [hname, hf]
  · simp [hname]

theorem name_record_result : (c.recordResult target result).name = c.name := by
  unfold BitrateContext.recordResult
  split_ifs <;> rfl

/-- The result of a call does not change the task of a stream. -/
theorem task_record_result : (c.recordResult target result).task? = c.task? := by
  unfold BitrateContext.recordResult
  split_ifs <;> rfl

/-- Two streams of one name are the same. -/
theorem sender_unique (hnames : (s.streamSenders.map (·.name)).Nodup) (hc : c ∈ s.streamSenders)
    (hd : d ∈ s.streamSenders) (hname : c.name = d.name) : c = d := by
  have hfind := find_sender hnames hc
  rw [hname, find_sender hnames hd] at hfind
  exact (Option.some.inj hfind).symm

/-! ## One operation -/

/-- What an operation of a task can do: post the task, find no stream, end because the encoder has
what is desired, call the encoder, or go on after the call in one of two ways. -/
inductive TaskStep (env : BitrateEnvironment) (s : BitrateController) (k : BitrateTask) :
    BitrateOperation → BitrateController × List BitrateOperation → Prop
  | post : TaskStep env s k (.postVideoBitrateUpdate k) (s.postVideoBitrateUpdate k, [])
  | skip (op : BitrateOperation) (hop : op.task? = some k)
      (hskip : s.isRunning = false ∨ s.current k = none) : TaskStep env s k op (s, [])
  | settle (c : BitrateContext) (hc : s.current k = some c)
      (hdesired : ∀ v, c.desiredTargetBitrate = some v → c.appliedTargetBitrate = some v) :
      TaskStep env s k (.applyVideoBitrateUpdate k) (s.updateSender k.channelName (·.unqueue), [])
  | begin (target : ℤ) :
      TaskStep env s k (.applyVideoBitrateUpdate k) (s, [.setTargetBitrate k target])
  | call (target : ℤ) :
      TaskStep env s k (.setTargetBitrate k target) (s.setTargetBitrate env k target)
  | repost (c : BitrateContext) (target result : ℤ) (hc : s.current k = some c) :
      TaskStep env s k (.finishVideoBitrateUpdate k target result)
        (s.updateSender k.channelName (·.recordResult target result),
          [.postVideoBitrateUpdate k])
  | finish (c : BitrateContext) (target result : ℤ) (hc : s.current k = some c)
      (hdesired : ∀ v, c.desiredTargetBitrate = some v → v = target) :
      TaskStep env s k (.finishVideoBitrateUpdate k target result)
        (s.updateSender k.channelName fun c => (c.recordResult target result).unqueue, [])

theorem task_step (hop : op.task? = some k) : TaskStep env s k op (s.exec env op) := by
  cases op with
  | updateVideoBitrateAllocation _ | allocate _ => cases hop
  | postVideoBitrateUpdate task =>
      obtain rfl := Option.some.inj hop
      exact .post
  | applyVideoBitrateUpdate task =>
      obtain rfl := Option.some.inj hop
      show TaskStep env s task _ (s.applyVideoBitrateUpdate task)
      unfold applyVideoBitrateUpdate
      split_ifs with hstopped
      · exact .skip _ rfl (Or.inl hstopped)
      · cases hc : s.current task with
        | none => exact .skip _ rfl (Or.inr hc)
        | some c =>
            cases hdesired : c.desiredTargetBitrate with
            | none =>
                simp only [hdesired]
                exact .settle c hc fun v hv => by simp [hdesired] at hv
            | some target =>
                simp only [hdesired]
                split_ifs with happlied
                · refine .settle c hc fun v hv => ?_
                  rw [happlied, ← hdesired, hv]
                · exact .begin target
  | setTargetBitrate task target =>
      obtain rfl := Option.some.inj hop
      exact .call target
  | finishVideoBitrateUpdate task target result =>
      obtain rfl := Option.some.inj hop
      show TaskStep env s task _ (s.finishVideoBitrateUpdate task target result)
      unfold finishVideoBitrateUpdate
      split_ifs with hstopped
      · exact .skip _ rfl (Or.inl hstopped)
      · cases hc : s.current task with
        | none => exact .skip _ rfl (Or.inr hc)
        | some c =>
            dsimp only
            split_ifs with hmore
            · exact .repost c target result hc
            · rw [update_sender_twice fun c => name_record_result]
              refine .finish c target result hc fun v hv => ?_
              by_contra hne
              exact hmore ⟨by simp [hv], by simp [hv, hne]⟩

/-- What an operation does not touch. -/
theorem exec_fields (env : BitrateEnvironment) (s : BitrateController) (op : BitrateOperation) :
    (s.exec env op).1.isRunning = s.isRunning ∧ (s.exec env op).1.stopped = s.stopped ∧
      (s.exec env op).1.nextCodec = s.nextCodec := by
  cases hop : op.task? with
  | none =>
      cases op with
      | updateVideoBitrateAllocation nowMs =>
          simp only [exec]
          split_ifs <;> exact ⟨rfl, rfl, rfl⟩
      | allocate nowMs =>
          simp only [exec, allocate]
          split_ifs <;> exact ⟨rfl, rfl, rfl⟩
      | postVideoBitrateUpdate _ | applyVideoBitrateUpdate _ | setTargetBitrate _ _
      | finishVideoBitrateUpdate _ _ _ => cases hop
  | some k =>
      generalize hresult : s.exec env op = result
      have hstep : TaskStep env s k op result := hresult ▸ task_step hop
      cases hstep with
      | post =>
          simp only [postVideoBitrateUpdate]
          split_ifs <;> exact ⟨rfl, rfl, rfl⟩
      | skip | settle | begin | call | repost | finish => exact ⟨rfl, rfl, rfl⟩

/-- An operation of a task goes on with that task. -/
theorem task_of_made {new : BitrateOperation} (hop : op.task? = some k)
    (hnew : new ∈ (s.exec env op).2) : new.task? = some k := by
  generalize hresult : s.exec env op = result at hnew
  have hstep : TaskStep env s k op result := hresult ▸ task_step hop
  cases hstep with
  | post | skip | settle | finish => cases hnew
  | begin | call | repost =>
      obtain rfl := List.mem_singleton.mp hnew
      rfl

/-- A change of one stream leaves those of other tasks alone. -/
theorem mem_update_sender_other {f : BitrateContext → BitrateContext}
    (hnames : (s.streamSenders.map (·.name)).Nodup) (hc : s.current k = some c)
    (hf : ∀ c, (f c).task? = c.task?)
    (hd : d ∈ (s.updateSender k.channelName f).streamSenders) (hother : d.task? = some k')
    (hne : k' ≠ k) : d ∈ s.streamSenders := by
  obtain ⟨hin, htask⟩ := (current_iff hnames).mp hc
  obtain ⟨c', hc', ⟨hname, rfl⟩ | ⟨-, rfl⟩⟩ := mem_update_sender hd
  · -- the changed stream is the one of the task
    have hsame : c' = c :=
      sender_unique hnames hc' hin (hname.trans (task_eq_some_iff.mp htask).1.symm)
    rw [hf, hsame, htask] at hother
    exact absurd (Option.some.inj hother).symm hne
  · exact hc'

/-- An operation of a task leaves the streams of other tasks alone. -/
theorem mem_exec_other (hnames : (s.streamSenders.map (·.name)).Nodup) (hop : op.task? = some k)
    (hd : d ∈ (s.exec env op).1.streamSenders) (hother : d.task? = some k') (hne : k' ≠ k) :
    d ∈ s.streamSenders := by
  generalize hresult : s.exec env op = result at hd
  have hstep : TaskStep env s k op result := hresult ▸ task_step hop
  cases hstep with
  | post =>
      simp only [postVideoBitrateUpdate] at hd
      split_ifs at hd <;> exact hd
  | skip | begin | call => exact hd
  | settle c hc | repost c _ _ hc | finish c _ _ hc =>
      refine mem_update_sender_other hnames hc (fun c => ?_) hd hother hne
      first
        | rfl
        | exact task_record_result

/-- An operation of a task neither posts another task nor calls another encoder. -/
theorem exec_other (env : BitrateEnvironment) (s : BitrateController)
    (hop : op.task? = some k) (hne : k' ≠ k) :
    queued k'.Queues (s.exec env op).1.tasks = queued k'.Queues s.tasks ∧
      (s.exec env op).1.lastCall k' = s.lastCall k' := by
  generalize hresult : s.exec env op = result
  have hstep : TaskStep env s k op result := hresult ▸ task_step hop
  cases hstep with
  | post =>
      simp only [postVideoBitrateUpdate]
      split_ifs
      · exact ⟨rfl, rfl⟩
      · refine ⟨?_, rfl⟩
        rw [queued_append, queued_singleton, if_neg (by simp [Ne.symm hne]), Nat.add_zero]
  | skip | settle | begin | repost | finish => exact ⟨rfl, rfl⟩
  | call target =>
      refine ⟨rfl, ?_⟩
      simp [setTargetBitrate, lastCall, Ne.symm hne]

/-- A call of an encoder is its last call. -/
theorem last_call_set_target :
    (s.setTargetBitrate env k target).1.lastCall k =
      some (target, env.setTargetBitrate s.calls.length) := by
  simp [setTargetBitrate, lastCall]

theorem flag_record_result (c : BitrateContext) (target result : ℤ) :
    (c.recordResult target result).bitrateUpdateQueued = c.bitrateUpdateQueued := by
  unfold BitrateContext.recordResult
  split_ifs <;> rfl

/-- The stream of a task after a change. -/
theorem mem_update_sender_self {f : BitrateContext → BitrateContext}
    (hnames : (s.streamSenders.map (·.name)).Nodup) (hc : s.current k = some c)
    (hd : d ∈ (s.updateSender k.channelName f).streamSenders) (htask : d.task? = some k) :
    d = f c := by
  obtain ⟨hin, hcurrent⟩ := (current_iff hnames).mp hc
  have hname := (task_eq_some_iff.mp hcurrent).1
  obtain ⟨c', hc', ⟨hname', rfl⟩ | ⟨hother, rfl⟩⟩ := mem_update_sender hd
  · rw [sender_unique hnames hc' hin (hname'.trans hname.symm)]
  · exact absurd (task_eq_some_iff.mp htask).1 hother

/-- A change that keeps the names of the streams keeps their order. -/
theorem names_update_sender {channelName : String} {f : BitrateContext → BitrateContext}
    (hf : ∀ c, (f c).name = c.name) :
    (s.updateSender channelName f).streamSenders.map (·.name) =
      s.streamSenders.map (·.name) := by
  simp only [updateSender, List.map_map]
  refine List.map_congr_left fun c _ => ?_
  by_cases hname : c.name = channelName
  · simp [hname, hf]
  · simp [hname]

theorem name_allocate : (c.allocate nowMs bitrate).name = c.name := by
  unfold BitrateContext.allocate
  split_ifs <;> rfl

theorem task_allocate : (c.allocate nowMs bitrate).task? = c.task? := by
  unfold BitrateContext.allocate
  split_ifs <;> rfl

/-- No operation changes the names. -/
theorem names_exec :
    (s.exec env op).1.streamSenders.map (·.name) = s.streamSenders.map (·.name) := by
  cases hop : op.task? with
  | none =>
      cases op with
      | updateVideoBitrateAllocation nowMs =>
          simp only [exec]
          split_ifs <;> rfl
      | allocate nowMs =>
          simp only [exec, allocate]
          split_ifs
          · rfl
          · simp [name_allocate, Function.comp_def]
      | postVideoBitrateUpdate _ | applyVideoBitrateUpdate _ | setTargetBitrate _ _
      | finishVideoBitrateUpdate _ _ _ => cases hop
  | some k =>
      generalize hresult : s.exec env op = result
      have hstep : TaskStep env s k op result := hresult ▸ task_step hop
      cases hstep with
      | post =>
          simp only [postVideoBitrateUpdate]
          split_ifs <;> rfl
      | skip | begin | call => rfl
      | settle | repost | finish =>
          refine names_update_sender fun c => ?_
          first
            | rfl
            | exact name_record_result

/-- Every stream after an operation comes from one with the same task. -/
theorem task_exec (hd : d ∈ (s.exec env op).1.streamSenders) :
    ∃ c ∈ s.streamSenders, d.task? = c.task? := by
  cases hop : op.task? with
  | none =>
      cases op with
      | updateVideoBitrateAllocation nowMs =>
          simp only [exec] at hd
          split_ifs at hd <;> exact ⟨d, hd, rfl⟩
      | allocate nowMs =>
          simp only [exec, allocate] at hd
          split_ifs at hd
          · exact ⟨d, hd, rfl⟩
          · obtain ⟨c, hc, rfl⟩ := List.mem_map.mp hd
            exact ⟨c, hc, task_allocate⟩
      | postVideoBitrateUpdate _ | applyVideoBitrateUpdate _ | setTargetBitrate _ _
      | finishVideoBitrateUpdate _ _ _ => cases hop
  | some k =>
      generalize hresult : s.exec env op = result at hd
      have hstep : TaskStep env s k op result := hresult ▸ task_step hop
      cases hstep with
      | post =>
          simp only [postVideoBitrateUpdate] at hd
          split_ifs at hd <;> exact ⟨d, hd, rfl⟩
      | skip | begin | call => exact ⟨d, hd, rfl⟩
      | settle | repost | finish =>
          obtain ⟨c, hc, ⟨-, rfl⟩ | ⟨-, rfl⟩⟩ := mem_update_sender hd
          · refine ⟨c, hc, ?_⟩
            first
              | rfl
              | exact task_record_result
          · exact ⟨d, hc, rfl⟩

/-! ## The section of an allocation -/

/-- Among streams of different names at most one satisfies a condition that fixes the name. -/
theorem count_senders {senders : List BitrateContext} {P : BitrateContext → Bool}
    (hnames : (senders.map (·.name)).Nodup) (hc : c ∈ senders)
    (hP : ∀ d ∈ senders, P d = true → d.name = c.name) :
    senders.countP P = if P c then 1 else 0 := by
  induction senders with
  | nil => cases hc
  | cons first rest ih =>
      obtain ⟨hfirst, hrest⟩ := List.nodup_cons.mp hnames
      have hother : ∀ d ∈ rest, d.name ≠ first.name := fun d hd hsame =>
        hfirst (List.mem_map.mpr ⟨d, hd, hsame⟩)
      rcases List.mem_cons.mp hc with rfl | hin
      · have hzero : rest.countP P = 0 := List.countP_eq_zero.mpr fun d hd hPd =>
          hother d hd (hP d (List.mem_cons_of_mem _ hd) hPd)
        rw [List.countP_cons, hzero, Nat.zero_add]
      · have hskip : P first = false := by
          by_contra hPfirst
          exact hother c hin (hP first List.mem_cons_self (by simpa using hPfirst)).symm
        rw [List.countP_cons, hskip, ih hrest hin fun d hd => hP d (List.mem_cons_of_mem _ hd)]
        simp

/-- A stream that is scheduled gets one task, and any other stream none. -/
theorem count_posts (nowMs bitrate : ℤ) (hnames : (s.streamSenders.map (·.name)).Nodup) (hc : c ∈ s.streamSenders)
    (htask : c.task? = some k) :
    (((s.streamSenders.filter (·.schedules nowMs bitrate)).filterMap (·.task?)).map
        BitrateOperation.postVideoBitrateUpdate).countP (fun op => op.task? = some k) =
      if c.schedules nowMs bitrate then 1 else 0 := by
  have hcount := count_senders (P := fun d => decide (d.task? = some k) &&
    d.schedules nowMs bitrate) hnames hc fun d _ hd => by
      have hd' : d.task? = some k := by
        simp only [Bool.and_eq_true, decide_eq_true_eq] at hd
        exact hd.1
      exact (task_eq_some_iff.mp hd').1.trans (task_eq_some_iff.mp htask).1.symm
  rw [List.countP_map, List.countP_filterMap, List.countP_filter]
  simp only [htask, decide_true, Bool.true_and] at hcount
  rw [← hcount]
  refine List.countP_congr fun d _ => ?_
  cases d.task? <;> simp [BitrateOperation.task?]

end BitrateController

/-! ## The invariant -/

namespace BitrateSystem

open BitrateController

/-- What holds for a stream and its task. Without a task the encoder has the desired bitrate or was
called with it last and failed. -/
structure StreamInv (s : BitrateSystem) (c : BitrateContext) (k : BitrateTask) : Prop where
  single : s.Single k.Holds k.Queues s.shared.tasks
  flag : c.bitrateUpdateQueued = true ↔ s.Present k.Holds k.Queues s.shared.tasks
  settled : c.bitrateUpdateQueued = false → ∀ v, c.desiredTargetBitrate = some v →
    c.appliedTargetBitrate = some v ∨
      ∃ result, result ≠ 0 ∧ s.shared.lastCall k = some (v, result)
  finishing : ∀ t target result, .finishVideoBitrateUpdate k target result ∈ s.todo t →
    s.shared.lastCall k = some (target, result)

/-- What holds in every state of a run. -/
structure Inv (s : BitrateSystem) : Prop where
  names : (s.shared.streamSenders.map (·.name)).Nodup
  stopped : s.shared.isRunning = true → s.shared.stopped = false
  freshOperations : s.Everywhere fun _ op => ∀ k, op.task? = some k →
    k.codec < s.shared.nextCodec
  freshTasks : ∀ k, .bitrate k ∈ s.shared.tasks → k.codec < s.shared.nextCodec
  freshStreams : ∀ c ∈ s.shared.streamSenders, ∀ k, c.task? = some k →
    k.codec < s.shared.nextCodec
  streams : s.shared.isRunning = true → ∀ c ∈ s.shared.streamSenders, ∀ k,
    c.task? = some k → s.StreamInv c k

variable {env : BitrateEnvironment} {s : BitrateSystem} {t : BitrateThread}
  {op : BitrateOperation} {new rest : List BitrateOperation} {shared : BitrateController}
  {c d : BitrateContext} {k : BitrateTask}

theorem inv_initial : Inv initial where
  names := List.nodup_nil
  stopped := fun _ => rfl
  freshOperations := fun t op hop => by cases hop
  freshTasks := fun k hk => by cases hk
  freshStreams := fun c hc => by cases hc
  streams := fun _ c hc => by cases hc

/-- A step that moves the task on, or does something else, keeps the invariant of a stream whose
flag it leaves. -/
theorem StreamInv.moved (hs : s.StreamInv c k) (hrest : rest <:+ s.todo t)
    (hcount : (s.next t shared new rest).held k.Holds t + queued k.Queues shared.tasks =
      s.held k.Holds t + queued k.Queues s.shared.tasks)
    (hcall : shared.lastCall k = s.shared.lastCall k)
    (hmade : ∀ target result, .finishVideoBitrateUpdate k target result ∉ new)
    (hflag : d.bitrateUpdateQueued = c.bitrateUpdateQueued)
    (hsettled : d.bitrateUpdateQueued = false → ∀ v, d.desiredTargetBitrate = some v →
      d.appliedTargetBitrate = some v ∨
        ∃ result, result ≠ 0 ∧ s.shared.lastCall k = some (v, result)) :
    StreamInv (s.next t shared new rest) d k where
  single := hs.single.next (Nat.le_of_eq hcount)
  flag := by
    rw [hflag, hs.flag]
    exact (present_next hcount).symm
  settled := fun hdown v hv => by
    rw [shared_next, hcall]
    exact hsettled hdown v hv
  finishing := fun u target result hin => by
    rw [shared_next, hcall]
    rcases mem_todo_next hrest hin with hold | ⟨-, hnew⟩
    · exact hs.finishing u target result hold
    · exact absurd hnew (hmade target result)

/-- A step that ends the task keeps the invariant when the stream is settled. -/
theorem StreamInv.ended (hs : s.StreamInv c k)
    (hcount : (s.next t shared new rest).held k.Holds t + queued k.Queues shared.tasks <
      s.held k.Holds t + queued k.Queues s.shared.tasks)
    (hflag : d.bitrateUpdateQueued = false)
    (hsettled : ∀ v, d.desiredTargetBitrate = some v → d.appliedTargetBitrate = some v ∨
      ∃ result, result ≠ 0 ∧ shared.lastCall k = some (v, result)) :
    StreamInv (s.next t shared new rest) d k where
  single := hs.single.next (Nat.le_of_lt hcount)
  flag := iff_of_false (by simp [hflag]) (absent_of_dropped hs.single hcount)
  settled := fun _ => hsettled
  finishing := fun u _ _ hin =>
    absurd (Or.inl ⟨u, held_pos_iff.mpr ⟨_, hin, rfl⟩⟩) (absent_of_dropped hs.single hcount)

/-- A step that makes the task of a stream without one keeps the invariant. -/
theorem StreamInv.made (hs : s.StreamInv c k) (hdown : c.bitrateUpdateQueued = false)
    (hcount : (s.next t shared new rest).held k.Holds t + queued k.Queues shared.tasks =
      s.held k.Holds t + queued k.Queues s.shared.tasks + 1)
    (hmade : ∀ target result, .finishVideoBitrateUpdate k target result ∉ new)
    (hrest : rest <:+ s.todo t) (hflag : d.bitrateUpdateQueued = true) :
    StreamInv (s.next t shared new rest) d k := by
  have habsent := (not_congr hs.flag).mp (by simp [hdown])
  have hheld : ¬ 0 < s.held k.Holds t := fun hheld => habsent (Or.inl ⟨t, hheld⟩)
  have hqueued : ¬ 0 < queued k.Queues s.shared.tasks := fun hqueued =>
    habsent (Or.inr hqueued)
  constructor
  · exact single_of_absent habsent (by rw [shared_next]; omega)
  · refine iff_of_true hflag ?_
    by_cases hafter : 0 < queued k.Queues shared.tasks
    · exact Or.inr hafter
    · exact Or.inl ⟨t, by omega⟩
  · intro hup
    rw [hflag] at hup
    cases hup
  · intro u target result hin
    rcases mem_todo_next hrest hin with hold | ⟨-, hnew⟩
    · exact absurd (Or.inl ⟨u, held_pos_iff.mpr ⟨_, hold, rfl⟩⟩) habsent
    · exact absurd hnew (hmade target result)

/-- The invariant of a stream depends on its flag and its bitrates, on the threads and on the
queue. -/
theorem StreamInv.congr (hs : s.StreamInv c k)
    (hqueued : queued k.Queues shared.tasks = queued k.Queues s.shared.tasks)
    (hcalls : shared.calls = s.shared.calls)
    (hflag : d.bitrateUpdateQueued = c.bitrateUpdateQueued)
    (hdesired : d.desiredTargetBitrate = c.desiredTargetBitrate)
    (happlied : d.appliedTargetBitrate = c.appliedTargetBitrate) :
    StreamInv { s with shared := shared } d k := by
  have hcall : shared.lastCall k = s.shared.lastCall k := by
    unfold lastCall
    rw [hcalls]
  constructor
  · exact hs.single.congr rfl hqueued
  · rw [hflag, hs.flag]
    exact (present_congr rfl hqueued).symm
  · rw [hflag, hdesired, happlied]
    show _ → ∀ v, _ → _ ∨ ∃ result, result ≠ 0 ∧ shared.lastCall k = some (v, result)
    rw [hcall]
    exact hs.settled
  · intro t target result hin
    exact hcall.trans (hs.finishing t target result hin)

/-! ## Operations -/

/-- What a thread holds after an operation. -/
theorem count_next (k : BitrateTask) (shared : BitrateController)
    (new : List BitrateOperation) (h : s.todo t = op :: rest) :
    (s.next t shared new rest).held k.Holds t + (if k.Holds op then 1 else 0) =
      s.held k.Holds t + new.countP fun op => k.Holds op := by
  rw [held_next_self, held_cons h]
  omega

/-- An operation of another task keeps the invariant of a stream. -/
theorem stream_other {k' : BitrateTask} (hs : s.StreamInv c k) (h : s.todo t = op :: rest)
    (hop : op.task? = some k') (hne : k ≠ k') :
    StreamInv (s.next t (s.shared.exec env op).1 (s.shared.exec env op).2 rest) c k := by
  have hmade : ∀ later ∈ (s.shared.exec env op).2, ¬ k.Holds later := by
    intro later hlater hholds
    have htask := task_of_made hop hlater
    rw [hholds] at htask
    exact hne (Option.some.inj htask)
  obtain ⟨hqueued, hcall⟩ := exec_other env s.shared hop hne
  refine hs.moved (rest_suffix h) ?_ hcall (fun target result hin => hmade _ hin rfl) rfl
    hs.settled
  have hcount := count_next k (s.shared.exec env op).1 (s.shared.exec env op).2 h
  have hzero : (s.shared.exec env op).2.countP (fun op => k.Holds op) = 0 :=
    List.countP_eq_zero.mpr fun later hlater => by simpa using hmade later hlater
  have hnot : ¬ k.Holds op := by
    rw [BitrateTask.Holds, hop]
    simpa using Ne.symm hne
  rw [if_neg hnot, hzero] at hcount
  omega

/-- An operation of its task keeps the invariant of a stream. -/
theorem stream_own (hinv : s.Inv) (hrunning : s.shared.isRunning = true)
    (h : s.todo t = op :: rest) (hop : op.task? = some k)
    (hd : d ∈ (s.shared.exec env op).1.streamSenders) (htask : d.task? = some k) :
    StreamInv (s.next t (s.shared.exec env op).1 (s.shared.exec env op).2 rest) d k := by
  -- the stream that the operation finds
  obtain ⟨c, hc, hsame⟩ := task_exec hd
  have hctask : c.task? = some k := hsame.symm.trans htask
  have hcurrent : s.shared.current k = some c := (current_iff hinv.names).mpr ⟨hc, hctask⟩
  have hs := hinv.streams hrunning c hc k hctask
  have hup : c.bitrateUpdateQueued = true :=
    hs.flag.mpr (Or.inl ⟨t, held_pos_iff.mpr ⟨op, by rw [h]; exact List.mem_cons_self, hop⟩⟩)
  have hheld : s.held k.Holds t = 1 + rest.countP fun op => k.Holds op := by
    rw [held_cons h, if_pos hop]
  have hone : ∀ new : BitrateOperation, new.task? = some k →
      [new].countP (fun op => k.Holds op) = 1 := fun new hnew => by simp [hnew]
  -- the stream is the found one, with the change of the operation
  have hunchanged : d ∈ s.shared.streamSenders → d = c := fun hin =>
    sender_unique hinv.names hin hc
      ((task_eq_some_iff.mp htask).1.trans (task_eq_some_iff.mp hctask).1.symm)
  have hfound : ∀ {c'}, s.shared.current k = some c' → c' = c := fun hc' =>
    Option.some.inj (hc'.symm.trans hcurrent)
  generalize hresult : s.shared.exec env op = result at hd ⊢
  have hstep : TaskStep env s.shared k op result := hresult ▸ task_step hop
  cases hstep with
  | post =>
      have hstopped := hinv.stopped hrunning
      simp only [postVideoBitrateUpdate, hstopped, Bool.false_eq_true, if_false] at hd ⊢
      obtain rfl := hunchanged hd
      refine hs.moved (rest_suffix h) ?_ rfl (by simp) rfl hs.settled
      rw [held_next_self, hheld, queued_append, queued_singleton, if_pos rfl, List.countP_nil]
      omega
  | skip _ _ hskip =>
      rcases hskip with hstopped | hnone
      · rw [hrunning] at hstopped
        cases hstopped
      · rw [hcurrent] at hnone
        cases hnone
  | settle c' hc' hdesired =>
      obtain rfl := hfound hc'
      obtain rfl := mem_update_sender_self hinv.names hcurrent hd htask
      refine hs.ended ?_ rfl fun v hv => Or.inl (hdesired v hv)
      rw [held_next_self, hheld, List.countP_nil]
      show _ + queued k.Queues s.shared.tasks < _
      omega
  | begin target =>
      obtain rfl := hunchanged hd
      refine hs.moved (rest_suffix h) ?_ rfl (by simp) rfl hs.settled
      rw [held_next_self, hheld, hone _ rfl]
  | call target =>
      obtain rfl := hunchanged hd
      have hcount : (s.next t (s.shared.setTargetBitrate env k target).1
            (s.shared.setTargetBitrate env k target).2 rest).held k.Holds t +
          queued k.Queues (s.shared.setTargetBitrate env k target).1.tasks =
            s.held k.Holds t + queued k.Queues s.shared.tasks := by
        rw [held_next_self, hheld]
        show ([_] : List BitrateOperation).countP _ + _ + queued k.Queues s.shared.tasks = _
        rw [hone _ rfl]
      refine ⟨hs.single.next (Nat.le_of_eq hcount), ?_, fun hdown => ?_,
        fun u target' result hin => ?_⟩
      · rw [hs.flag]
        exact (present_next hcount).symm
      · rw [hup] at hdown
        cases hdown
      · -- the call of this step is the only one that the task goes on from
        obtain ⟨-, hnew⟩ := hs.single.mem_made h hop hin rfl
        obtain ⟨-, rfl, rfl⟩ : k = k ∧ target' = target ∧
            result = env.setTargetBitrate s.shared.calls.length := by
          simpa [setTargetBitrate] using hnew
        exact last_call_set_target
  | repost c' target result hc' =>
      obtain rfl := hfound hc'
      obtain rfl := mem_update_sender_self hinv.names hcurrent hd htask
      have hflag := flag_record_result c' target result
      refine hs.moved (rest_suffix h) ?_ rfl (by simp) hflag fun hdown => ?_
      · rw [held_next_self, hheld, hone _ rfl]
        rfl
      · rw [hflag, hup] at hdown
        cases hdown
  | finish c' target result hc' hdesired =>
      obtain rfl := hfound hc'
      obtain rfl := mem_update_sender_self hinv.names hcurrent hd htask
      have hlast := hs.finishing t target result (by rw [h]; exact List.mem_cons_self)
      refine hs.ended ?_ rfl fun v hv => ?_
      · rw [held_next_self, hheld, List.countP_nil]
        show _ + queued k.Queues s.shared.tasks < _
        omega
      · have hv' : c'.desiredTargetBitrate = some v := by
          rw [← hv]
          unfold BitrateContext.unqueue BitrateContext.recordResult
          split_ifs <;> rfl
        obtain rfl := hdesired v hv'
        by_cases hresult : result = 0
        · exact Or.inl (by simp [BitrateContext.unqueue, BitrateContext.recordResult, hresult])
        · exact Or.inr ⟨result, hresult, hlast⟩

/-- The section of an allocation keeps the invariant of a stream. -/
theorem stream_allocate {nowMs : ℤ} (hinv : s.Inv) (hrunning : s.shared.isRunning = true)
    (h : s.todo t = .allocate nowMs :: rest)
    (hd : d ∈ (s.shared.allocate env nowMs).1.streamSenders) (htask : d.task? = some k) :
    StreamInv (s.next t (s.shared.allocate env nowMs).1 (s.shared.allocate env nowMs).2 rest)
      d k := by
  have hheld : s.held k.Holds t = rest.countP fun op => k.Holds op := by
    rw [held_cons h, if_neg (by simp [BitrateOperation.task?]), Nat.zero_add]
  unfold allocate at hd ⊢
  split_ifs at hd ⊢ with hnone
  · have hs := hinv.streams hrunning d hd k htask
    refine hs.moved (rest_suffix h) ?_ rfl (by simp) rfl hs.settled
    rw [held_next_self, hheld, List.countP_nil, Nat.zero_add]
  · dsimp only at hd ⊢
    generalize hbitrate : s.shared.perVideoBitrate env nowMs = bitrate at hd ⊢
    obtain ⟨c, hc, rfl⟩ := List.mem_map.mp hd
    rw [task_allocate] at htask
    have hs := hinv.streams hrunning c hc k htask
    have hposts := count_posts nowMs bitrate hinv.names hc htask
    have hmade : ∀ target result, BitrateOperation.finishVideoBitrateUpdate k target result ∉
        ((s.shared.streamSenders.filter (·.schedules nowMs bitrate)).filterMap (·.task?)).map
          .postVideoBitrateUpdate := by
      intro target result hin
      obtain ⟨task, -, hpost⟩ := List.mem_map.mp hin
      cases hpost
    by_cases hschedules : c.schedules nowMs bitrate = true
    · -- the stream had no task, and it gets one
      have hboth : c.isActiveVideo nowMs = true ∧ c.bitrateUpdateQueued = false := by
        have hall := hschedules
        simp only [BitrateContext.schedules, Bool.and_eq_true, Bool.not_eq_true'] at hall
        exact hall.1
      refine hs.made hboth.2 ?_ hmade (rest_suffix h) ?_
      · rw [held_next_self, hheld, hposts, if_pos hschedules]
        show 1 + _ + queued k.Queues s.shared.tasks = _
        omega
      · simp [BitrateContext.allocate, hboth.1, hschedules]
    · have hflag : (c.allocate nowMs bitrate).bitrateUpdateQueued = c.bitrateUpdateQueued := by
        unfold BitrateContext.allocate
        split_ifs
        · simp [hschedules]
        · rfl
      refine hs.moved (rest_suffix h) ?_ rfl hmade hflag fun hdown v hv => ?_
      · rw [held_next_self, hheld, hposts, if_neg hschedules, Nat.zero_add]
      · rw [hflag] at hdown
        by_cases hactive : c.isActiveVideo nowMs = true
        · -- a stream that is not scheduled has the bitrate already
          have happlied : c.appliedTargetBitrate = some bitrate := by
            simpa [BitrateContext.schedules, hactive, hdown] using hschedules
          obtain rfl : bitrate = v := by simpa [BitrateContext.allocate, hactive] using hv
          exact Or.inl (by simpa [BitrateContext.allocate, hactive] using happlied)
        · have hsame : c.allocate nowMs bitrate = c := by
            simp [BitrateContext.allocate, hactive]
          rw [hsame] at hv ⊢
          exact hs.settled hdown v hv

/-- The start of an allocation keeps the invariant of a stream. -/
theorem stream_update {nowMs : ℤ} (hs : s.StreamInv c k)
    (h : s.todo t = .updateVideoBitrateAllocation nowMs :: rest) :
    StreamInv (s.next t (s.shared.exec env (.updateVideoBitrateAllocation nowMs)).1
      (s.shared.exec env (.updateVideoBitrateAllocation nowMs)).2 rest) c k := by
  have hheld : s.held k.Holds t = rest.countP fun op => k.Holds op := by
    rw [held_cons h, if_neg (by simp [BitrateOperation.task?]), Nat.zero_add]
  simp only [exec]
  split_ifs
  · refine hs.moved (rest_suffix h) ?_ rfl (by simp) rfl hs.settled
    rw [held_next_self, hheld, List.countP_nil, Nat.zero_add]
  · refine hs.moved (rest_suffix h) ?_ rfl (by simp) rfl hs.settled
    rw [held_next_self, hheld, List.countP_singleton,
      if_neg (by simp [BitrateOperation.task?]), Nat.zero_add]

/-- Tasks that an operation makes or posts are tasks of an operation or of a stream before. -/
theorem fresh_made (hinv : s.Inv) (h : s.todo t = op :: rest) {new : BitrateOperation}
    (hnew : new ∈ (s.shared.exec env op).2) (htask : new.task? = some k) :
    k.codec < s.shared.nextCodec := by
  have hop : op ∈ s.todo t := by
    rw [h]
    exact List.mem_cons_self
  cases hown : op.task? with
  | some k' =>
      rw [task_of_made hown hnew] at htask
      exact hinv.freshOperations t op hop k (hown.trans htask)
  | none =>
      cases op with
      | updateVideoBitrateAllocation nowMs =>
          simp only [exec] at hnew
          split_ifs at hnew
          · cases hnew
          · obtain rfl := List.mem_singleton.mp hnew
            cases htask
      | allocate nowMs =>
          simp only [exec, allocate] at hnew
          split_ifs at hnew
          · cases hnew
          · obtain ⟨task, hin, rfl⟩ := List.mem_map.mp hnew
            obtain ⟨c, hc, hctask⟩ := List.mem_filterMap.mp hin
            obtain rfl := Option.some.inj htask
            exact hinv.freshStreams c (List.mem_of_mem_filter hc) _ hctask
      | postVideoBitrateUpdate _ | applyVideoBitrateUpdate _ | setTargetBitrate _ _
      | finishVideoBitrateUpdate _ _ _ => cases hown

theorem fresh_posted (hinv : s.Inv) (h : s.todo t = op :: rest)
    (hin : .bitrate k ∈ (s.shared.exec env op).1.tasks) : k.codec < s.shared.nextCodec := by
  by_cases hop : op.task? = some k
  · exact hinv.freshOperations t op (by rw [h]; exact List.mem_cons_self) k hop
  · refine hinv.freshTasks k ?_
    have hpos : 0 < queued k.Queues (s.shared.exec env op).1.tasks :=
      queued_pos_iff.mpr ⟨_, hin, rfl⟩
    have hsame : queued k.Queues (s.shared.exec env op).1.tasks =
        queued k.Queues s.shared.tasks := by
      cases hown : op.task? with
      | some k' =>
          refine (exec_other env s.shared hown fun hsame => hop ?_).1
          rw [hsame]
          exact hown
      | none =>
          cases op with
          | updateVideoBitrateAllocation nowMs =>
              simp only [exec]
              split_ifs <;> rfl
          | allocate nowMs =>
              simp only [exec, allocate]
              split_ifs <;> rfl
          | postVideoBitrateUpdate _ | applyVideoBitrateUpdate _ | setTargetBitrate _ _
          | finishVideoBitrateUpdate _ _ _ => cases hown
    rw [hsame] at hpos
    obtain ⟨task, htask, rfl⟩ := queued_pos_iff.mp hpos
    exact htask

/-- A thread that performs an operation keeps the invariant. -/
theorem inv_perform (hinv : s.Inv) :
    Inv (s.perform (fun shared op => shared.exec env op) t) := by
  cases h : s.todo t with
  | nil =>
      rw [perform_idle h]
      exact hinv
  | cons op rest =>
      rw [perform_cons h]
      have hfields := exec_fields env s.shared op
      constructor
      · rw [shared_next, names_exec]
        exact hinv.names
      · rw [shared_next, hfields.1, hfields.2.1]
        exact hinv.stopped
      · refine Everywhere.next (fun u other hother k hk => ?_) (rest_suffix h)
          fun other hother k hk => ?_
        · rw [shared_next, hfields.2.2]
          exact hinv.freshOperations u other hother k hk
        · rw [shared_next, hfields.2.2]
          exact fresh_made hinv h hother hk
      · intro k hk
        rw [shared_next, hfields.2.2]
        exact fresh_posted hinv h hk
      · intro d hd k hk
        obtain ⟨c, hc, hsame⟩ := task_exec hd
        rw [shared_next, hfields.2.2]
        exact hinv.freshStreams c hc k (hsame.symm.trans hk)
      · intro hrunning d hd k hk
        rw [shared_next, hfields.1] at hrunning
        rw [shared_next] at hd
        cases hop : op.task? with
        | some k' =>
            by_cases hsame : k = k'
            · subst hsame
              exact stream_own hinv hrunning h hop hd hk
            · have hold := mem_exec_other hinv.names hop hd hk hsame
              exact stream_other (hinv.streams hrunning d hold k hk) h hop hsame
        | none =>
            cases op with
            | updateVideoBitrateAllocation nowMs =>
                have hold : d ∈ s.shared.streamSenders := by
                  simp only [exec] at hd
                  split_ifs at hd <;> exact hd
                exact stream_update (hinv.streams hrunning d hold k hk) h
            | allocate nowMs => exact stream_allocate hinv hrunning h hd hk
            | postVideoBitrateUpdate _ | applyVideoBitrateUpdate _ | setTargetBitrate _ _
            | finishVideoBitrateUpdate _ _ _ => cases hop

/-! ## The other steps -/

/-- A thread that starts keeps the invariant, when the task that it holds comes from the queue. -/
theorem inv_start (tasks : List BitrateQueueTask) {program : List BitrateOperation}
    (hinv : s.Inv) (hidle : s.todo t = [])
    (hcount : ∀ k : BitrateTask, program.countP (fun op => k.Holds op) + queued k.Queues tasks =
      queued k.Queues s.shared.tasks)
    (hfinish : ∀ k target result,
      BitrateOperation.finishVideoBitrateUpdate k target result ∉ program) :
    Inv (s.start t { s.shared with tasks := tasks } program) := by
  have hfrom : ∀ k : BitrateTask, (∃ op ∈ program, k.Holds op) ∨ .bitrate k ∈ tasks →
      k.codec < s.shared.nextCodec := by
    intro k hk
    have hpos : 0 < queued k.Queues s.shared.tasks := by
      rw [← hcount k]
      rcases hk with hop | htask
      · have hpos : 0 < program.countP fun op => k.Holds op := by
          simpa [List.countP_pos_iff] using hop
        omega
      · have hpos : 0 < queued k.Queues tasks := queued_pos_iff.mpr ⟨_, htask, rfl⟩
        omega
    obtain ⟨task, htask, rfl⟩ := queued_pos_iff.mp hpos
    exact hinv.freshTasks k htask
  constructor
  · exact hinv.names
  · exact hinv.stopped
  · exact hinv.freshOperations.next List.nil_suffix fun op hop k hk =>
      hfrom k (Or.inl ⟨op, hop, hk⟩)
  · exact fun k hk => hfrom k (Or.inr hk)
  · exact hinv.freshStreams
  · intro hrunning c hc k hk
    have hs := hinv.streams hrunning c hc k hk
    refine hs.moved List.nil_suffix ?_ rfl (hfinish k) rfl hs.settled
    rw [held_next_self, List.countP_nil, Nat.add_zero, held_idle hidle, Nat.zero_add]
    exact hcount k

theorem inv_take {index : Nat} (hinv : s.Inv) : Inv (s.take index) := by
  unfold take
  split_ifs with hidle
  · cases htask : s.shared.tasks[index]? with
    | none => exact hinv
    | some task =>
        have herased := fun k : BitrateTask => queued_erase_idx (q := k.Queues) htask
        cases task with
        | bitrate task =>
            refine inv_start _ hinv hidle (fun k => ?_) (by simp)
            rw [← herased k]
            by_cases hk : task = k
            · simp [BitrateOperation.task?, hk, Nat.add_comm]
            · simp [BitrateOperation.task?, hk]
        | other =>
            refine inv_start _ hinv hidle (fun k => ?_) (by simp)
            rw [← herased k]
            simp
  · exact hinv

/-- The streams `d` and `c` have the same bitrates and the same flag. -/
def SameBitrates (d c : BitrateContext) : Prop :=
  d.bitrateUpdateQueued = c.bitrateUpdateQueued ∧
    d.desiredTargetBitrate = c.desiredTargetBitrate ∧
    d.appliedTargetBitrate = c.appliedTargetBitrate

/-- The stream with its task was there before. -/
def Kept (s : BitrateSystem) (d : BitrateContext) (k : BitrateTask) : Prop :=
  ∃ c ∈ s.shared.streamSenders, c.task? = some k ∧ SameBitrates d c

theorem kept_of_mem (hd : d ∈ s.shared.streamSenders) (hk : d.task? = some k) : s.Kept d k :=
  ⟨d, hd, hk, rfl, rfl, rfl⟩

/-- The task of a codec that was just created is nowhere. -/
theorem stream_new (hinv : s.Inv) (hk : s.shared.nextCodec ≤ k.codec)
    (hqueued : queued k.Queues shared.tasks = queued k.Queues s.shared.tasks)
    (hflag : d.bitrateUpdateQueued = false) (hdesired : d.desiredTargetBitrate = none) :
    StreamInv { s with shared := shared } d k := by
  have hheld : ∀ t, held k.Holds ({ s with shared := shared } : BitrateSystem) t = 0 := by
    intro t
    rw [held, List.countP_eq_zero]
    intro op hop hholds
    have hfresh := hinv.freshOperations t op hop k (by simpa using hholds)
    omega
  have hnone : queued k.Queues shared.tasks = 0 := by
    by_contra hpos
    rw [hqueued] at hpos
    obtain ⟨task, htask, rfl⟩ := queued_pos_iff.mp (Nat.pos_of_ne_zero hpos)
    have hfresh := hinv.freshTasks k htask
    omega
  constructor
  · exact ⟨fun t => by rw [hheld, hnone]; omega, fun t u ht => by rw [hheld] at ht; omega⟩
  · refine iff_of_false (by simp [hflag]) ?_
    rintro (⟨t, ht⟩ | hpos)
    · rw [hheld] at ht
      omega
    · rw [hnone] at hpos
      omega
  · intro _ v hv
    rw [hdesired] at hv
    cases hv
  · intro t target result hin
    have hpos := held_pos_iff.mpr ⟨_, hin, (rfl : k.Holds _)⟩
    rw [hheld t] at hpos
    omega

/-- A step of the controller alone keeps the invariant, when each stream with a task was there
before or has a new codec. -/
theorem inv_shared (hinv : s.Inv) (hnames : (shared.streamSenders.map (·.name)).Nodup)
    (hrunning : shared.isRunning = true → s.shared.isRunning = true)
    (hstopped : shared.isRunning = true → shared.stopped = false)
    (htasks : ∀ k : BitrateTask, queued k.Queues shared.tasks = queued k.Queues s.shared.tasks)
    (hcalls : shared.calls = s.shared.calls) (hcodec : s.shared.nextCodec ≤ shared.nextCodec)
    (hsenders : ∀ d ∈ shared.streamSenders, ∀ k, d.task? = some k → s.Kept d k ∨
      (s.shared.nextCodec ≤ k.codec ∧ k.codec < shared.nextCodec ∧
        d.bitrateUpdateQueued = false ∧ d.desiredTargetBitrate = none)) :
    Inv { s with shared := shared } where
  names := hnames
  stopped := hstopped
  freshOperations := fun t op hop k hk =>
    Nat.lt_of_lt_of_le (hinv.freshOperations t op hop k hk) hcodec
  freshTasks := fun k hk => by
    have hpos : 0 < queued k.Queues shared.tasks := queued_pos_iff.mpr ⟨_, hk, rfl⟩
    rw [htasks k] at hpos
    obtain ⟨task, htask, rfl⟩ := queued_pos_iff.mp hpos
    exact Nat.lt_of_lt_of_le (hinv.freshTasks k htask) hcodec
  freshStreams := fun d hd k hk => by
    rcases hsenders d hd k hk with ⟨c, hc, hck, -⟩ | ⟨-, hfresh, -⟩
    · exact Nat.lt_of_lt_of_le (hinv.freshStreams c hc k hck) hcodec
    · exact hfresh
  streams := fun hrun d hd k hk => by
    rcases hsenders d hd k hk with ⟨c, hc, hck, hsame⟩ | ⟨hnew, -, hflag, hdesired⟩
    · exact (hinv.streams (hrunning hrun) c hc k hck).congr (htasks k) hcalls hsame.1 hsame.2.1
        hsame.2.2
    · exact stream_new hinv hnew (htasks k) hflag hdesired

theorem inv_add {channelName : String} {type : StreamType} (hinv : s.Inv) :
    Inv { s with shared := s.shared.addSendChannel channelName type } := by
  unfold addSendChannel
  split_ifs with hfound
  · exact hinv
  · have hnone : ∀ c ∈ s.shared.streamSenders, c.name ≠ channelName := by
      simpa using hfound
    refine inv_shared hinv ?_ id hinv.stopped (fun _ => rfl) rfl (Nat.le_refl _) ?_
    · refine ((OrderedMap.perm_insert_or_assign _ _).map BitrateContext.name).nodup_iff.mpr ?_
      have herase : (OrderedMap.erase IceTransportController.nameLt BitrateContext.name channelName
          s.shared.streamSenders).Sublist s.shared.streamSenders :=
        OrderedMap.erase_sublist _ _
      refine List.nodup_cons.mpr ⟨fun hin => ?_, (herase.map _).nodup hinv.names⟩
      obtain ⟨c, hc, hname⟩ := List.mem_map.mp hin
      exact hnone c (herase.subset hc) hname
    · intro d hd k hk
      rcases OrderedMap.mem_of_mem_insert_or_assign hd with rfl | hold
      · cases hk
      · exact Or.inl (kept_of_mem hold hk)

/-- A change of one stream that keeps its task and its bitrates keeps the invariant. -/
theorem inv_update_sender {channelName : String} {f : BitrateContext → BitrateContext}
    (hinv : s.Inv) (hname : ∀ c, (f c).name = c.name) (htask : ∀ c, (f c).task? = c.task?)
    (hsame : ∀ c, SameBitrates (f c) c) :
    Inv { s with shared := s.shared.updateSender channelName f } := by
  refine inv_shared hinv ?_ id hinv.stopped (fun _ => rfl) rfl (Nat.le_refl _) ?_
  · rw [names_update_sender hname]
    exact hinv.names
  · intro d hd k hk
    obtain ⟨c, hc, ⟨-, rfl⟩ | ⟨-, rfl⟩⟩ := mem_update_sender hd
    · exact Or.inl ⟨c, hc, (htask c).symm.trans hk, hsame c⟩
    · exact Or.inl (kept_of_mem hc hk)

theorem inv_create {channelName : String} (hinv : s.Inv) :
    Inv { s with shared := s.shared.createStreamCodec channelName } := by
  unfold createStreamCodec
  refine inv_shared hinv ?_ id hinv.stopped (fun _ => rfl) rfl (Nat.le_succ _) ?_
  · refine (names_update_sender fun c => ?_).symm ▸ hinv.names
    split_ifs <;> rfl
  · intro d hd k hk
    obtain ⟨c, hc, ⟨-, rfl⟩ | ⟨-, rfl⟩⟩ := mem_update_sender hd
    · split_ifs at hk ⊢ with hnew
      · have hcodec : k.codec = s.shared.nextCodec := by
          have hfields := (task_eq_some_iff.mp hk).2.2
          exact (Option.some.inj hfields).symm
        exact Or.inr ⟨hcodec.ge, by rw [hcodec]; exact Nat.lt_succ_self _, rfl, rfl⟩
      · exact Or.inl (kept_of_mem hc hk)
    · exact Or.inl (kept_of_mem hc hk)

/-- Every step keeps the invariant. -/
theorem inv_step (action : BitrateAction) (hinv : s.Inv) : Inv (s.step env action) := by
  cases action with
  | update n nowMs =>
      show Inv (if _ then _ else _)
      split_ifs with hidle
      · refine inv_start s.shared.tasks hinv hidle (fun k => ?_) (by simp)
        simp [BitrateOperation.task?]
      · exact hinv
  | perform t => exact inv_perform hinv
  | take index => exact inv_take hinv
  | postOther =>
      show Inv (if _ then _ else _)
      split_ifs
      · exact hinv
      · exact inv_shared hinv hinv.names id hinv.stopped (fun k => by simp) rfl (Nat.le_refl _)
          fun _ hd _ hk => Or.inl (kept_of_mem hd hk)
  | setTarget targetBitrate =>
      exact inv_shared hinv hinv.names id hinv.stopped (fun _ => rfl) rfl (Nat.le_refl _)
        fun _ hd _ hk => Or.inl (kept_of_mem hd hk)
  | addSendChannel channelName type => exact inv_add hinv
  | createStreamCodec channelName => exact inv_create hinv
  | sendFrame channelName nowMs =>
      exact inv_update_sender hinv (fun _ => rfl) (fun _ => rfl) fun _ => ⟨rfl, rfl, rfl⟩
  | destroy =>
      exact inv_shared hinv hinv.names (by simp) (by simp) (fun _ => rfl) rfl (Nat.le_refl _)
        fun _ hd _ hk => Or.inl (kept_of_mem hd hk)
  | stop =>
      show Inv (if _ then _ else _)
      split_ifs with hrunning
      · exact hinv
      · refine inv_shared hinv List.nodup_nil id ?_ (fun _ => rfl) rfl (Nat.le_refl _) ?_
        · exact fun hrun => absurd hrun hrunning
        · exact fun d hd => by cases hd

theorem inv_run (env : BitrateEnvironment) (actions : List BitrateAction) :
    Inv (actions.foldl (step env) initial) :=
  List.foldlRecOn actions (step env) inv_initial fun _ hinv action _ => inv_step action hinv

instance : Nonempty BitrateThread := ⟨.worker⟩

end BitrateSystem

end MiniRtc

import MiniRtc.Video.EncodeQueue
import MiniRtc.Foundation.Run
import Mathlib.Data.Finset.Dedup

/-!
# Key-frame requests are kept

Which requests were made is recorded beside the controller: a stream is owed a key frame from a
request that covers it until the next `ForceIdr` for it that succeeds. A request for all streams
covers the video streams that there are, and every video stream when there is none yet.

The encode task drops a request when it returns before `ForceIdr`, and the one flag of an early
request is taken by the first stream that sends a frame. `pending_run` says that no request is lost
in a run without these two, and `dropped_by_materialization` and `taken_by_other_stream` are a run
for each.
-/

namespace MiniRtc

namespace IceTransportController

/-- The encode tasks that have not run yet. -/
def tasks (s : IceTransportController) : List QueuedTask :=
  s.running.toList ++ s.encodeQueue

/-- The stream has a request of its own: its marker, or the flag of a task that will run. -/
def Requested (s : IceTransportController) (channelName : String) : Prop :=
  channelName ∈ s.forceIFrameStreams ∨
    s.isRunning = true ∧ ∃ task, QueuedTask.encode task ∈ s.tasks ∧
      task.channelName = channelName ∧ task.forceIFrame = true

/-- A request of the stream is pending: one of its own, or the flag of all streams. -/
def Pending (s : IceTransportController) (channelName : String) : Prop :=
  s.bForceIFrame = true ∨ s.Requested channelName

/-- The streams of a request for all streams. -/
def coversAll (s : IceTransportController) (channelName : String) : Bool :=
  s.videoNames.isEmpty || decide (channelName ∈ s.videoNames)

/-- A video stream with the SSRC and the name. -/
def coversSsrc (s : IceTransportController) (mediaSsrc : Nat) (channelName : String) : Bool :=
  s.streamSenders.any fun context =>
    context.type = .video && decide (context.ssrc = some mediaSsrc) &&
      decide (context.name = channelName)

/-- Whether a call is a request for all streams. -/
def forAllStreams : ControllerCall → Bool
  | .fullIntraRequest channelName => channelName = ""
  | .fullIntraRequestSsrc mediaSsrc => mediaSsrc = 0
  | .fullIntraRequestAllVideoStreams => true
  | _ => false

/-- Whether a call is a request that covers a stream. -/
def covers (s : IceTransportController) (call : ControllerCall) (channelName : String) : Bool :=
  if forAllStreams call then s.coversAll channelName
  else
    match call with
    | .fullIntraRequest name => name = channelName
    | .fullIntraRequestSsrc mediaSsrc => s.coversSsrc mediaSsrc channelName
    | _ => false

/-- Whether a call is a `ForceIdr` for a stream that succeeds. -/
def forcesIdr (s : IceTransportController) (call : ControllerCall) (channelName : String) : Bool :=
  match call, s.running with
  | .run results, some (.encode task) =>
      task.forceIFrame && (s.prepareFrame task results).isSome && results.forceIdr = 0 &&
        decide (task.channelName = channelName)
  | _, _ => false

end IceTransportController

/-- The controller with the requests that were made: `owed` for the streams that wait for a key
frame, and `early` when a request for all streams came before the first video stream. -/
structure RequestRecord where
  controller : IceTransportController := {}
  owed : String → Bool := fun _ => false
  early : Bool := false

namespace RequestRecord

open IceTransportController

/-- One call, and what it does to the record. `Destroy` ends the streams. -/
def step (g : RequestRecord) (call : ControllerCall) : RequestRecord :=
  let s := g.controller
  match call with
  | .destroy => { controller := s.step .destroy }
  | call =>
      { controller := s.step call
        owed := fun channelName =>
          s.covers call channelName || (g.owed channelName && !s.forcesIdr call channelName)
        early := g.early || (forAllStreams call && s.videoNames.isEmpty) }

/-- Every video stream that is owed a key frame has a request pending. -/
def NoneLost (g : RequestRecord) : Prop :=
  ∀ channelName ∈ g.controller.videoNames, g.owed channelName = true →
    g.controller.Pending channelName

/-- What a call must respect. A task with a request gets as far as `ForceIdr`; the flag of an early
request is taken when no other video stream depends on it, and no video stream is added later that
would; and no video stream has the empty name. -/
def Careful (g : RequestRecord) : ControllerCall → Prop
  | .addSendChannel channelName type _ => type = .video →
      channelName ≠ "" ∧ (g.early = true → g.controller.Pending channelName)
  | .sendVideo frame channelName backlogged =>
      (g.controller.accepted frame channelName backlogged).isSome → g.early = true →
        g.controller.bForceIFrame = true →
          ∀ other ∈ g.controller.videoNames, other ≠ channelName → g.controller.Requested other
  | .run results => ∀ task, g.controller.running = some (.encode task) →
      g.controller.isRunning = true → task.forceIFrame = true →
        (g.controller.prepareFrame task results).isSome
  | _ => True

/-- The invariant: a stream that is owed a key frame has a request of its own, or waits for the flag
of an early request, and the SSRCs tell the streams apart. -/
structure Kept (g : RequestRecord) : Prop where
  owed : ∀ channelName, g.owed channelName = true →
    g.controller.Requested channelName ∨
      g.early = true ∧ (g.controller.bForceIFrame = true ∨ channelName ∉ g.controller.videoNames)
  named : "" ∉ g.controller.videoNames
  distinct : ∀ a ∈ g.controller.streamSenders, ∀ b ∈ g.controller.streamSenders,
    a.ssrc = b.ssrc → a.ssrc ≠ none → a.name = b.name

end RequestRecord

namespace IceTransportController

variable {s t : IceTransportController}

theorem mem_video_names {channelName : String} :
    channelName ∈ s.videoNames ↔
      ∃ context ∈ s.streamSenders, context.type = .video ∧ context.name = channelName := by
  simp [videoNames, and_assoc]

/-- A request stays when markers and tasks are only added. -/
theorem Requested.mono {channelName : String} (h : s.Requested channelName)
    (hmarkers : s.forceIFrameStreams ⊆ t.forceIFrameStreams) (hrunning : t.isRunning = s.isRunning)
    (htasks : ∀ task ∈ s.tasks, task ∈ t.tasks) : t.Requested channelName := by
  rcases h with hmarker | ⟨hrun, task, hmem, hname, hforce⟩
  · exact Or.inl (hmarkers hmarker)
  · exact Or.inr ⟨hrunning.trans hrun, task, htasks _ hmem, hname, hforce⟩

/-- The context that is found is one of the senders. -/
theorem mem_of_find_video_ssrc {mediaSsrc : Nat} {context : StreamContext}
    (h : s.findVideoSsrc mediaSsrc = some context) :
    context ∈ s.streamSenders ∧ context.type = .video ∧ context.ssrc.getD 0 = mediaSsrc := by
  have hkey := List.find?_some h
  simp only [Bool.and_eq_true, decide_eq_true_eq] at hkey
  exact ⟨List.mem_of_find?_eq_some h, hkey⟩

/-- Changing the context of a stream keeps the kinds, the names and the SSRCs of all. -/
theorem mem_update_sender {channelName : String} {f : StreamContext → StreamContext}
    (hf : ∀ context, (f context).name = context.name ∧ (f context).type = context.type ∧
      (f context).ssrc = context.ssrc) {a : StreamContext}
    (h : a ∈ (s.updateSender channelName f).streamSenders) :
    ∃ b ∈ s.streamSenders, b.name = a.name ∧ b.type = a.type ∧ b.ssrc = a.ssrc := by
  obtain ⟨b, hb, rfl⟩ := List.mem_map.mp h
  refine ⟨b, hb, ?_⟩
  split_ifs
  · exact ⟨(hf b).1.symm, (hf b).2.1.symm, (hf b).2.2.symm⟩
  · exact ⟨rfl, rfl, rfl⟩

/-- A new stream has an SSRC of its own. -/
theorem ssrc_of_generate {draws : List Nat} {ssrc : Nat}
    (h : s.generateUniqueSsrc draws = some ssrc) :
    ∀ context ∈ s.streamSenders, context.ssrc ≠ some ssrc := by
  have hfresh := List.find?_some h
  simp only [Bool.and_eq_true, List.all_eq_true, decide_eq_true_eq] at hfresh
  exact hfresh.2

/-- What adding a channel does. -/
theorem add_send_channel_cases (s : IceTransportController) (channelName : String)
    (type : StreamType) (draws : List Nat) :
    s.addSendChannel channelName type draws = s ∨
      ∃ ssrc, (∀ context ∈ s.streamSenders, context.ssrc ≠ some ssrc) ∧
        s.addSendChannel channelName type draws = { s with
          streamSenders := OrderedMap.insertOrAssign nameLt StreamContext.name
            { name := channelName, type := type, ssrc := some ssrc } s.streamSenders } := by
  unfold addSendChannel
  split
  · rename_i ssrc _ hssrc
    exact Or.inr ⟨ssrc, ssrc_of_generate hssrc, rfl⟩
  · exact Or.inl rfl

/-- A frame is accepted before `Destroy` only. -/
theorem is_running_of_accepted {frame : Option VideoFrame} {channelName : String}
    {backlogged : Bool} (h : (s.accepted frame channelName backlogged).isSome) :
    s.isRunning = true := by
  by_contra hstopped
  unfold accepted at h
  rw [if_pos (Bool.eq_false_of_not_eq_true hstopped)] at h
  cases h

/-- What `SendVideo` does. -/
theorem send_video_cases (s : IceTransportController) (frame : Option VideoFrame)
    (channelName : String) (backlogged : Bool) :
    s.sendVideo frame channelName backlogged = s ∨
      (s.accepted frame channelName backlogged).isSome ∧ ∃ task : EncodeTask,
        task.channelName = channelName ∧ task.forceIFrame = s.forces channelName ∧
          s.isRunning = true ∧
          s.sendVideo frame channelName backlogged = { s with
            bForceIFrame := false
            forceIFrameStreams := s.forceIFrameStreams.erase channelName
            encodeQueue := s.encodeQueue ++ [.encode task] } := by
  unfold sendVideo
  split
  · exact Or.inl rfl
  · rename_i rawFrame context haccepted
    exact Or.inr ⟨by rw [haccepted]; rfl, _, rfl, rfl,
      is_running_of_accepted (by rw [haccepted]; rfl), rfl⟩

/-- An encode task changes markers only, and adds the one of its stream when `ForceIdr` fails. -/
theorem run_encode_task_cases (s : IceTransportController) (task : EncodeTask)
    (results : EncodeResults) :
    ∃ markers, s.forceIFrameStreams ⊆ markers ∧
      s.runEncodeTask task results = { s with forceIFrameStreams := markers } ∧
      ((s.prepareFrame task results).isSome → task.forceIFrame = true → results.forceIdr ≠ 0 →
        task.channelName ∈ markers) := by
  unfold runEncodeTask
  cases s.prepareFrame task results with
  | none => exact ⟨_, Finset.Subset.refl _, rfl, fun hsome => absurd hsome (by simp)⟩
  | some frame =>
      by_cases hfails : task.forceIFrame = true ∧ results.forceIdr ≠ 0
      · refine ⟨_, Finset.subset_insert _ _, if_pos hfails, fun _ _ _ => ?_⟩
        exact Finset.mem_insert_self _ _
      · exact ⟨_, Finset.Subset.refl _, if_neg hfails, fun _ hforce hidr =>
          absurd ⟨hforce, hidr⟩ hfails⟩

/-- A request for all streams marks the streams that it covers, or sets the flag. -/
theorem full_intra_request_all_cases (s : IceTransportController) :
    s.videoNames = [] ∧ s.fullIntraRequestAllVideoStreams = { s with bForceIFrame := true } ∨
      s.videoNames ≠ [] ∧ s.fullIntraRequestAllVideoStreams = { s with
        forceIFrameStreams := s.videoNames.toFinset ∪ s.forceIFrameStreams } := by
  unfold fullIntraRequestAllVideoStreams
  split_ifs with hnone
  · exact Or.inl ⟨hnone, rfl⟩
  · exact Or.inr ⟨hnone, rfl⟩

/-- A request for all streams adds markers or sets the flag, and changes nothing else. -/
theorem full_intra_request_all_frame (s : IceTransportController) :
    s.fullIntraRequestAllVideoStreams.streamSenders = s.streamSenders ∧
      s.fullIntraRequestAllVideoStreams.isRunning = s.isRunning ∧
      s.fullIntraRequestAllVideoStreams.tasks = s.tasks ∧
      s.forceIFrameStreams ⊆ s.fullIntraRequestAllVideoStreams.forceIFrameStreams ∧
      (s.bForceIFrame = true → s.fullIntraRequestAllVideoStreams.bForceIFrame = true) := by
  rcases full_intra_request_all_cases s with ⟨-, heq⟩ | ⟨-, heq⟩
  · rw [heq]
    exact ⟨rfl, rfl, rfl, Finset.Subset.refl _, fun _ => rfl⟩
  · rw [heq]
    exact ⟨rfl, rfl, rfl, Finset.subset_union_right, fun hflag => hflag⟩

/-- After a request the streams that it covers have a marker, or the flag is set. -/
theorem pending_of_covers_all {channelName : String} (h : s.coversAll channelName = true) :
    s.fullIntraRequestAllVideoStreams.Requested channelName ∨
      s.videoNames.isEmpty = true ∧ s.fullIntraRequestAllVideoStreams.bForceIFrame = true := by
  rcases full_intra_request_all_cases s with ⟨hnone, heq⟩ | ⟨hsome, heq⟩
  · right
    rw [heq, hnone]
    exact ⟨rfl, rfl⟩
  · left
    rw [heq]
    left
    unfold coversAll at h
    have hmem : channelName ∈ s.videoNames := by
      simpa [hsome] using h
    exact Finset.mem_union_left _ (List.mem_toFinset.mpr hmem)

end IceTransportController

namespace RequestRecord

open IceTransportController

variable {g : RequestRecord}

/-- What is owed stays requested when markers, tasks and the flag stay and no stream is added. -/
theorem Kept.frame (h : g.Kept) {t : IceTransportController}
    (hmarkers : g.controller.forceIFrameStreams ⊆ t.forceIFrameStreams)
    (hrunning : t.isRunning = g.controller.isRunning)
    (htasks : ∀ task ∈ g.controller.tasks, task ∈ t.tasks)
    (hflag : g.controller.bForceIFrame = true → t.bForceIFrame = true)
    (hnames : ∀ name ∈ t.videoNames, name ∈ g.controller.videoNames) {channelName : String}
    (howed : g.owed channelName = true) :
    t.Requested channelName ∨
      g.early = true ∧ (t.bForceIFrame = true ∨ channelName ∉ t.videoNames) := by
  rcases h.owed channelName howed with hrequested | ⟨hearly, hwaits⟩
  · exact Or.inl (hrequested.mono hmarkers hrunning htasks)
  · exact Or.inr ⟨hearly, hwaits.imp hflag fun hout hin => hout (hnames _ hin)⟩

/-- The senders are as before. -/
theorem Kept.of_senders (h : g.Kept) {t : RequestRecord}
    (hsenders : t.controller.streamSenders = g.controller.streamSenders)
    (howed : ∀ channelName, t.owed channelName = true →
      t.controller.Requested channelName ∨
        t.early = true ∧
          (t.controller.bForceIFrame = true ∨ channelName ∉ t.controller.videoNames)) :
    t.Kept where
  owed := howed
  named := by
    unfold videoNames
    rw [hsenders]
    exact h.named
  distinct := by
    rw [hsenders]
    exact h.distinct

/-- A call for all streams keeps the invariant. -/
theorem kept_all_streams (h : g.Kept) :
    Kept {
      controller := g.controller.fullIntraRequestAllVideoStreams
      owed := fun channelName => g.controller.coversAll channelName || (g.owed channelName && !false)
      early := g.early || (true && g.controller.videoNames.isEmpty) } := by
  obtain ⟨hsenders, hrunning, htasks, hmarkers, hflag⟩ :=
    full_intra_request_all_frame g.controller
  refine h.of_senders hsenders fun channelName howed => ?_
  rw [Bool.or_eq_true] at howed
  show Requested _ _ ∨ (g.early || (true && g.controller.videoNames.isEmpty)) = true ∧ _
  rcases howed with hcovers | hold
  · rcases pending_of_covers_all hcovers with hrequested | ⟨hempty, hset⟩
    · exact Or.inl hrequested
    · exact Or.inr ⟨by rw [hempty]; simp, Or.inl hset⟩
  · have hold' : g.owed channelName = true := by simpa using hold
    have hframe := h.frame hmarkers hrunning (fun task hin => by rw [htasks]; exact hin) hflag
      (fun name hin => by unfold videoNames at hin ⊢; rwa [hsenders] at hin) hold'
    exact hframe.imp id fun hearly => ⟨by rw [hearly.1]; rfl, hearly.2⟩

/-- A marker for one stream keeps the invariant. -/
theorem kept_marker (h : g.Kept) {name : String} {covered : String → Bool}
    (hcovered : ∀ channelName, covered channelName = true → channelName = name) :
    Kept {
      controller := { g.controller with
        forceIFrameStreams := insert name g.controller.forceIFrameStreams }
      owed := fun channelName => covered channelName || (g.owed channelName && !false)
      early := g.early || (false && g.controller.videoNames.isEmpty) } := by
  refine h.of_senders rfl fun channelName howed => ?_
  rw [Bool.or_eq_true] at howed
  rcases howed with hcovers | hold
  · exact Or.inl (Or.inl (Finset.mem_insert.mpr (Or.inl (hcovered _ hcovers))))
  · have hold' : g.owed channelName = true := by simpa using hold
    have hframe := h.frame (t := { g.controller with
        forceIFrameStreams := insert name g.controller.forceIFrameStreams })
      (Finset.subset_insert _ _) rfl (fun _ hin => hin) (fun hflag => hflag) (fun _ hin => hin) hold'
    exact hframe.imp id fun hearly => ⟨by rw [hearly.1]; rfl, hearly.2⟩

/-- The stream that an SSRC covers is the one that the controller finds. -/
theorem name_of_covers_ssrc (h : g.Kept) {mediaSsrc : Nat} (hssrc : mediaSsrc ≠ 0)
    {context : StreamContext} (hfind : g.controller.findVideoSsrc mediaSsrc = some context)
    {channelName : String} (hcovers : g.controller.coversSsrc mediaSsrc channelName = true) :
    channelName = context.name := by
  obtain ⟨hmem, -, hkey⟩ := mem_of_find_video_ssrc hfind
  have hsome : context.ssrc = some mediaSsrc := by
    cases hc : context.ssrc with
    | none =>
        rw [hc] at hkey
        exact absurd hkey.symm hssrc
    | some ssrc =>
        rw [hc] at hkey
        exact congrArg some hkey
  unfold coversSsrc at hcovers
  obtain ⟨other, hother, hkeys⟩ := List.any_eq_true.mp hcovers
  simp only [Bool.and_eq_true, decide_eq_true_eq] at hkeys
  obtain ⟨⟨-, hossrc⟩, hname⟩ := hkeys
  rw [← hname]
  refine h.distinct other hother context hmem (hossrc.trans hsome.symm) ?_
  rw [hossrc]
  exact Option.some_ne_none _

/-- A stream that an SSRC covers is found. -/
theorem find_of_covers_ssrc {s : IceTransportController} {mediaSsrc : Nat} {channelName : String}
    (hcovers : s.coversSsrc mediaSsrc channelName = true) :
    ∃ context, s.findVideoSsrc mediaSsrc = some context := by
  unfold coversSsrc at hcovers
  obtain ⟨other, hother, hkeys⟩ := List.any_eq_true.mp hcovers
  simp only [Bool.and_eq_true, decide_eq_true_eq] at hkeys
  obtain ⟨⟨htype, hossrc⟩, -⟩ := hkeys
  refine Option.isSome_iff_exists.mp (List.find?_isSome.mpr ⟨other, hother, ?_⟩)
  simp [htype, hossrc]

/-- A step that is neither a request nor the end of a task keeps what was owed. -/
theorem kept_same (h : g.Kept) {t : IceTransportController}
    (hsenders : t.streamSenders = g.controller.streamSenders)
    (hmarkers : g.controller.forceIFrameStreams ⊆ t.forceIFrameStreams)
    (hrunning : t.isRunning = g.controller.isRunning)
    (htasks : ∀ task ∈ g.controller.tasks, task ∈ t.tasks)
    (hflag : g.controller.bForceIFrame = true → t.bForceIFrame = true) :
    Kept { controller := t, owed := g.owed, early := g.early } := by
  refine h.of_senders hsenders fun channelName howed =>
    h.frame hmarkers hrunning htasks hflag (fun name hin => ?_) howed
  unfold videoNames at hin ⊢
  rwa [hsenders] at hin

/-- Changing the context of a stream keeps the invariant. -/
theorem kept_update_sender (h : g.Kept) (channelName : String) {f : StreamContext → StreamContext}
    (hf : ∀ context, (f context).name = context.name ∧ (f context).type = context.type ∧
      (f context).ssrc = context.ssrc) :
    Kept { controller := g.controller.updateSender channelName f, owed := g.owed, early := g.early }
    where
  owed := by
    refine fun name howed => h.frame (t := g.controller.updateSender channelName f)
      (Finset.Subset.refl _) rfl (fun _ hin => hin) (fun hflag => hflag)
      (fun other hother => ?_) howed
    obtain ⟨a, ha, htype, hname⟩ := mem_video_names.mp hother
    obtain ⟨b, hb, hbname, hbtype, -⟩ := mem_update_sender hf ha
    exact mem_video_names.mpr ⟨b, hb, hbtype.trans htype, hbname.trans hname⟩
  named := by
    intro hin
    obtain ⟨a, ha, htype, hname⟩ := mem_video_names.mp hin
    obtain ⟨b, hb, hbname, hbtype, -⟩ := mem_update_sender hf ha
    exact h.named (mem_video_names.mpr ⟨b, hb, hbtype.trans htype, hbname.trans hname⟩)
  distinct := by
    intro a ha b hb hssrc hsome
    obtain ⟨a', ha', haname, -, hassrc⟩ := mem_update_sender hf ha
    obtain ⟨b', hb', hbname, -, hbssrc⟩ := mem_update_sender hf hb
    rw [← haname, ← hbname]
    refine h.distinct a' ha' b' hb' (hassrc.trans (hssrc.trans hbssrc.symm)) ?_
    rwa [hassrc]

/-- Adding a stream keeps the invariant when it does not depend on a flag that was taken. -/
theorem kept_add_send_channel (h : g.Kept) (channelName : String) (type : StreamType)
    (draws : List Nat) (hcareful : g.Careful (.addSendChannel channelName type draws)) :
    Kept {
      controller := g.controller.addSendChannel channelName type draws
      owed := g.owed
      early := g.early } := by
  rcases add_send_channel_cases g.controller channelName type draws with heq | ⟨ssrc, hfresh, heq⟩
  · rw [heq]
    exact h
  · rw [heq]
    -- The video streams are the old ones and, when a video stream is added, the new one.
    have hnew : ∀ name, name ∈ videoNames { g.controller with
        streamSenders := OrderedMap.insertOrAssign nameLt StreamContext.name
          { name := channelName, type := type, ssrc := some ssrc } g.controller.streamSenders } →
        name ∈ g.controller.videoNames ∨ type = .video ∧ name = channelName := by
      intro name hin
      obtain ⟨context, hmem, htype, hname⟩ := mem_video_names.mp hin
      rcases OrderedMap.mem_of_mem_insert_or_assign hmem with rfl | hold
      · exact Or.inr ⟨htype, hname.symm⟩
      · exact Or.inl (mem_video_names.mpr ⟨context, hold, htype, hname⟩)
    refine ⟨fun name howed => ?_, fun hin => ?_, fun a ha b hb hssrc hsome => ?_⟩
    · rcases h.owed name howed with hrequested | ⟨hearly, hflag | hout⟩
      · exact Or.inl (hrequested.mono (Finset.Subset.refl _) rfl fun _ hin => hin)
      · exact Or.inr ⟨hearly, Or.inl hflag⟩
      · by_cases hin : type = .video ∧ name = channelName
        · obtain ⟨htype, rfl⟩ := hin
          rcases (hcareful htype).2 hearly with hflag | hrequested
          · exact Or.inr ⟨hearly, Or.inl hflag⟩
          · exact Or.inl (hrequested.mono (Finset.Subset.refl _) rfl fun _ hin => hin)
        · exact Or.inr ⟨hearly, Or.inr fun hname => (hnew name hname).elim hout hin⟩
    · rcases hnew _ hin with hold | ⟨htype, hempty⟩
      · exact h.named hold
      · exact (hcareful htype).1 hempty.symm
    · rcases OrderedMap.mem_of_mem_insert_or_assign ha with rfl | haold
      · rcases OrderedMap.mem_of_mem_insert_or_assign hb with rfl | hbold
        · rfl
        · exact absurd hssrc.symm (hfresh b hbold)
      · rcases OrderedMap.mem_of_mem_insert_or_assign hb with rfl | hbold
        · exact absurd hssrc (hfresh a haold)
        · exact h.distinct a haold b hbold hssrc hsome

/-- `SendVideo` moves the request of its stream into the task. -/
theorem kept_send_video (h : g.Kept) (frame : Option VideoFrame) (channelName : String)
    (backlogged : Bool) (hcareful : g.Careful (.sendVideo frame channelName backlogged)) :
    Kept {
      controller := g.controller.sendVideo frame channelName backlogged
      owed := g.owed
      early := g.early } := by
  rcases send_video_cases g.controller frame channelName backlogged with
    heq | ⟨haccepted, task, hname, hforce, hrunning, heq⟩
  · rw [heq]
    exact h
  · rw [heq]
    refine h.of_senders rfl fun other howed => ?_
    -- The requests of the other streams stay where they are.
    have hkeep : other ≠ channelName → g.controller.Requested other → Requested { g.controller with
        bForceIFrame := false
        forceIFrameStreams := g.controller.forceIFrameStreams.erase channelName
        encodeQueue := g.controller.encodeQueue ++ [.encode task] } other := by
      rintro hne (hmarker | ⟨hrun, queued, hmem, hqueued⟩)
      · exact Or.inl (Finset.mem_erase.mpr ⟨hne, hmarker⟩)
      · refine Or.inr ⟨hrun, queued, ?_, hqueued⟩
        unfold tasks at hmem ⊢
        rw [← List.append_assoc]
        exact List.mem_append_left _ hmem
    -- The task carries the request of the stream itself.
    have hmoved : g.controller.forces channelName = true → Requested { g.controller with
        bForceIFrame := false
        forceIFrameStreams := g.controller.forceIFrameStreams.erase channelName
        encodeQueue := g.controller.encodeQueue ++ [.encode task] } channelName := by
      refine fun hforces => Or.inr ⟨hrunning, task, ?_, hname, hforce.trans hforces⟩
      simp [tasks]
    by_cases hother : other = channelName
    · subst hother
      rcases h.owed other howed with (hmarker | ⟨hrun, queued, hmem, hqueued⟩) | ⟨hearly, hwaits⟩
      · exact Or.inl (hmoved (by simp [forces, hmarker]))
      · refine Or.inl (Or.inr ⟨hrun, queued, ?_, hqueued⟩)
        unfold tasks at hmem ⊢
        rw [← List.append_assoc]
        exact List.mem_append_left _ hmem
      · rcases hwaits with hflag | hout
        · exact Or.inl (hmoved (by simp [forces, hflag]))
        · exact Or.inr ⟨hearly, Or.inr hout⟩
    · rcases h.owed other howed with hrequested | ⟨hearly, hwaits⟩
      · exact Or.inl (hkeep hother hrequested)
      · by_cases hin : other ∈ g.controller.videoNames
        · have hflag := hwaits.resolve_right fun hout => hout hin
          exact Or.inl (hkeep hother (hcareful haccepted hearly hflag other hin hother))
        · exact Or.inr ⟨hearly, Or.inr hin⟩

/-- A task that gets as far as `ForceIdr` ends the request or leaves a marker. -/
theorem kept_run_task (h : g.Kept) {task : EncodeTask} {results : EncodeResults}
    (htask : g.controller.running = some (.encode task)) (hcareful : g.Careful (.run results)) :
    Kept {
      controller := { g.controller.runEncodeTask task results with running := none }
      owed := fun channelName =>
        false || (g.owed channelName && !g.controller.forcesIdr (.run results) channelName)
      early := g.early || (false && g.controller.videoNames.isEmpty) } := by
  obtain ⟨markers, hsubset, heq, hfailed⟩ := run_encode_task_cases g.controller task results
  rw [heq]
  refine h.of_senders rfl fun channelName howed => ?_
  simp only [Bool.false_or, Bool.and_eq_true, Bool.not_eq_true'] at howed
  obtain ⟨hold, hnot⟩ := howed
  rcases h.owed channelName hold with (hmarker | ⟨hrun, queued, hmem, hname, hforce⟩) | hearly
  · exact Or.inl (Or.inl (hsubset hmarker))
  · unfold tasks at hmem
    rw [htask] at hmem
    rcases List.mem_cons.mp hmem with hself | hrest
    · -- The task itself carried the request.
      obtain rfl : queued = task := QueuedTask.encode.inj hself
      have hprepared := hcareful queued htask hrun hforce
      have hidr : results.forceIdr ≠ 0 := by
        intro hzero
        unfold forcesIdr at hnot
        rw [htask] at hnot
        simp [hforce, hprepared, hzero, hname] at hnot
      exact Or.inl (Or.inl (hname ▸ hfailed hprepared hforce hidr))
    · exact Or.inl (Or.inr ⟨hrun, queued, hrest, hname, hforce⟩)
  · exact Or.inr ⟨by rw [hearly.1]; rfl, hearly.2⟩

/-- What a call that is not a request and does not force a key frame does to the record. -/
theorem kept_of_plain {t : IceTransportController}
    (h : Kept { controller := t, owed := g.owed, early := g.early }) {empty : Bool} :
    Kept {
      controller := t
      owed := fun channelName => false || (g.owed channelName && !false)
      early := g.early || (false && empty) } := by
  simpa using h

/-- A request for an SSRC keeps the invariant. -/
theorem kept_ssrc (h : g.Kept) {mediaSsrc : Nat} (hssrc : mediaSsrc ≠ 0) :
    Kept {
      controller := g.controller.fullIntraRequestSsrc mediaSsrc
      owed := fun channelName =>
        g.controller.coversSsrc mediaSsrc channelName || (g.owed channelName && !false)
      early := g.early || (false && g.controller.videoNames.isEmpty) } := by
  unfold fullIntraRequestSsrc
  rw [if_neg hssrc]
  cases hfind : g.controller.findVideoSsrc mediaSsrc with
  | none =>
      have hcovers : ∀ channelName, g.controller.coversSsrc mediaSsrc channelName = false := by
        intro channelName
        by_contra hne
        obtain ⟨context, hsome⟩ := find_of_covers_ssrc (Bool.eq_true_of_not_eq_false hne)
        rw [hfind] at hsome
        cases hsome
      simp only [hcovers]
      exact kept_of_plain h
  | some context =>
      obtain ⟨hmem, htype, -⟩ := mem_of_find_video_ssrc hfind
      have hnamed : context.name ≠ "" := fun hempty =>
        h.named (mem_video_names.mpr ⟨context, hmem, htype, hempty⟩)
      simp only [if_neg hnamed]
      unfold fullIntraRequest
      rw [if_neg hnamed]
      exact kept_marker h fun channelName hcovers => name_of_covers_ssrc h hssrc hfind hcovers

/-- Every careful call keeps the invariant. -/
theorem kept_step (h : g.Kept) {call : ControllerCall} (hcareful : g.Careful call) :
    (g.step call).Kept := by
  cases call with
  | addSendChannel channelName type draws =>
      exact kept_of_plain (kept_add_send_channel h channelName type draws hcareful)
  | createStreamCodec channelName codec =>
      refine kept_of_plain (kept_update_sender h channelName fun context => ?_)
      split_ifs
      · exact ⟨rfl, rfl, rfl⟩
      · exact ⟨rfl, rfl, rfl⟩
  | setTarget channelName width height =>
      exact kept_of_plain (kept_update_sender h channelName
        (f := fun context => { context with targetWidth := width, targetHeight := height })
        fun _ => ⟨rfl, rfl, rfl⟩)
  | sendVideo frame channelName backlogged =>
      exact kept_of_plain (kept_send_video h frame channelName backlogged hcareful)
  | fullIntraRequest channelName =>
      unfold step covers forAllStreams
      simp only [IceTransportController.step, fullIntraRequest]
      by_cases hempty : channelName = ""
      · simp only [hempty, decide_true, if_true]
        exact kept_all_streams h
      · simp only [hempty, decide_false, if_false]
        exact kept_marker h fun other hother => (of_decide_eq_true hother).symm
  | fullIntraRequestSsrc mediaSsrc =>
      unfold step covers forAllStreams
      simp only [IceTransportController.step]
      by_cases hzero : mediaSsrc = 0
      · simp only [hzero, decide_true, if_true, fullIntraRequestSsrc]
        exact kept_all_streams h
      · simp only [hzero, decide_false]
        exact kept_ssrc h hzero
  | fullIntraRequestAllVideoStreams => exact kept_all_streams h
  | postBitrateUpdate channelName =>
      refine kept_of_plain ?_
      unfold IceTransportController.step
      simp only
      split_ifs
      · refine kept_same h rfl (Finset.Subset.refl _) rfl (fun task hin => ?_) fun hflag => hflag
        unfold tasks at hin ⊢
        rw [← List.append_assoc]
        exact List.mem_append_left _ hin
      · exact h
  | dequeue =>
      -- The task that is running now was the first of the queue.
      refine kept_of_plain ?_
      unfold IceTransportController.step
      simp only
      split
      · rename_i task rest hidle hqueue
        refine kept_same h rfl (Finset.Subset.refl _) rfl (fun queued hin => ?_) fun hflag => hflag
        unfold tasks at hin ⊢
        rw [hidle, hqueue] at hin
        exact hin
      · exact h
  | run results =>
      cases hrunning : g.controller.running with
      | none =>
          unfold step forcesIdr
          simp only [IceTransportController.step, hrunning]
          exact kept_of_plain h
      | some queued =>
          cases queued with
          | encode task =>
              unfold step
              simp only [IceTransportController.step, hrunning]
              exact kept_run_task h hrunning hcareful
          | updateVideoBitrate channelName =>
              unfold step forcesIdr
              simp only [IceTransportController.step, hrunning]
              refine kept_of_plain (t := { g.controller with running := none })
                (h.of_senders rfl fun name howed => ?_)
              -- A bitrate update is no encoding, so no owed key frame is lost with it.
              rcases h.owed name howed with (hmarker | ⟨hrun, task, hmem, htask⟩) | hearly
              · exact Or.inl (Or.inl hmarker)
              · unfold tasks at hmem
                rw [hrunning] at hmem
                rcases List.mem_cons.mp hmem with hself | hrest
                · cases hself
                · exact Or.inl (Or.inr ⟨hrun, task, hrest, htask⟩)
              · exact Or.inr hearly
  | destroy =>
      exact ⟨fun _ howed => absurd howed (by simp [step]), by simp [step, videoNames,
        IceTransportController.step, destroy], by simp [step, IceTransportController.step, destroy]⟩

/-- What is kept is not lost. -/
theorem none_lost_of_kept (h : g.Kept) : g.NoneLost := by
  intro channelName hin howed
  rcases h.owed channelName howed with hrequested | ⟨-, hflag | hout⟩
  · exact Or.inr hrequested
  · exact Or.inl hflag
  · exact absurd hin hout

/-- The record at the start: nobody has asked for a key frame. -/
theorem kept_initial : Kept {} where
  owed := fun _ howed => absurd howed (by simp)
  named := by simp [videoNames]
  distinct := by simp

/-- In every state of a run of careful calls no key-frame request is lost: a video stream that was
asked for a key frame since the last `ForceIdr` for it succeeded has a request pending. -/
theorem none_lost_run (calls : List ControllerCall)
    (hcareful : Run.Along step Careful ({} : RequestRecord) calls) :
    (calls.foldl step ({} : RequestRecord)).NoneLost :=
  none_lost_of_kept (hcareful.invariant (fun _ _ h hin => kept_step h hin) kept_initial)

/-- A request that only a task carries is lost when the task returns before `ForceIdr`. -/
theorem lost_of_failed_task {task : EncodeTask} {results : EncodeResults}
    (htask : g.controller.running = some (.encode task))
    (hfailed : g.controller.prepareFrame task results = none)
    (hin : task.channelName ∈ g.controller.videoNames)
    (howed : g.owed task.channelName = true) (hflag : g.controller.bForceIFrame = false)
    (halone : ¬ Requested { g.controller with running := none } task.channelName) :
    ¬ (g.step (.run results)).NoneLost := by
  have hcontroller : (g.step (.run results)).controller = { g.controller with running := none } := by
    show g.controller.step (.run results) = _
    simp only [IceTransportController.step, htask, runEncodeTask, hfailed]
  have hstill : (g.step (.run results)).owed task.channelName = true := by
    show (g.controller.covers (.run results) task.channelName || (g.owed task.channelName &&
      !g.controller.forcesIdr (.run results) task.channelName)) = true
    unfold forcesIdr
    rw [htask, howed]
    simp [hfailed]
  intro h
  have hpending := h task.channelName (by rw [hcontroller]; exact hin) hstill
  rw [hcontroller] at hpending
  rcases hpending with hset | hrequested
  · exact absurd (hflag.symm.trans hset) Bool.false_ne_true
  · exact halone hrequested

/-- A codec that takes no native frames. -/
def cpuCodec : MediaCodec := { supportsNativeFrameInput := fun _ => false }

/-- A native frame. -/
def nativeFrame : VideoFrame :=
  { width := 2, height := 2, size := 0, data := false
    nativeFrame := some { type := .cudaNv12, width := 2, height := 2, complete := true } }

/-- A stream that is asked for a key frame, sends a frame, and runs its task. -/
def requestAndSend (results : EncodeResults) : List ControllerCall :=
  [.addSendChannel "video" .video [7], .createStreamCodec "video" cpuCodec, .fullIntraRequestSsrc 7,
    .sendVideo (some nativeFrame) "video" false, .dequeue, .run results]

/-- A transient failure of `ForceIdr` leaves the marker. -/
theorem failed_force_idr_kept :
    Run.Along step Careful ({} : RequestRecord) (requestAndSend ⟨true, 0, -1⟩) ∧
      ((requestAndSend ⟨true, 0, -1⟩).foldl step ({} : RequestRecord)).NoneLost := by
  have hcareful : Run.Along step Careful ({} : RequestRecord) (requestAndSend ⟨true, 0, -1⟩) := by
    refine ⟨fun _ => ⟨by decide, fun hearly => absurd hearly (by decide)⟩, trivial, trivial,
      fun _ hearly => absurd hearly (by decide), trivial, fun task htask _ _ => ?_, trivial⟩
    cases htask
    decide
  exact ⟨hcareful, none_lost_run _ hcareful⟩

/-- The request is lost when the native frame cannot be copied. -/
theorem dropped_by_materialization :
    ¬ ((requestAndSend ⟨false, 0, 0⟩).foldl step ({} : RequestRecord)).NoneLost := by
  intro h
  rcases h "video" (by decide) (by decide) with hflag | hmarker | ⟨-, task, hmem, -⟩
  · exact absurd hflag (by decide)
  · exact absurd hmarker (by decide)
  · cases hmem

/-- Two streams after an early request for all. The first one sends a frame. -/
def earlyRequest : List ControllerCall :=
  [.fullIntraRequestAllVideoStreams, .addSendChannel "camera" .video [7],
    .addSendChannel "screen" .video [8], .createStreamCodec "camera" cpuCodec,
    .createStreamCodec "screen" cpuCodec, .sendVideo (some nativeFrame) "camera" false]

/-- The stream that sends first takes the request of the other one. -/
theorem taken_by_other_stream : ¬ (earlyRequest.foldl step ({} : RequestRecord)).NoneLost := by
  intro h
  rcases h "screen" (by decide) (by decide) with hflag | hmarker | ⟨-, task, hmem, hname, -⟩
  · exact absurd hflag (by decide)
  · exact absurd hmarker (by decide)
  · have hself := QueuedTask.encode.inj (List.mem_singleton.mp hmem)
    rw [hself] at hname
    exact absurd hname (by decide)

end RequestRecord

end MiniRtc

import MiniRtc.Transport.RemoteCapabilities

/-!
# From the sender's streams to the receiver's

The description of a sender is read by `GetRemoteCapabilities` of its peer. A candidate ends every
section, also those that start behind it. The lines of the streams stand at the end of their
section, so a candidate inside the section hides them, and the sections behind it run up to the
end of the text.
-/

namespace MiniRtc

open Text

namespace IceTransport

/-! ## Where the sections are cut -/

/-- A line with a candidate in it. -/
def HasCandidate (ls : List Text) : Prop :=
  ∃ l ∈ ls, candidateTag <:+: l

instance (ls : List Text) : Decidable (HasCandidate ls) :=
  inferInstanceAs (Decidable (∃ l ∈ ls, candidateTag <:+: l))

/-- The lines up to the first one with a candidate. -/
def upToCandidate (ls : List Text) : List Text :=
  ls.takeWhile fun l => ¬ candidateTag <:+: l

variable {p : Text} {before sec after ls ms : List Text} {l : Text}

theorem up_to_candidate_eq (h : ¬ HasCandidate ls) : upToCandidate ls = ls := by
  refine List.takeWhile_eq_self_iff.mpr ?_
  intro l hl
  simpa using fun hmark => h ⟨l, hl, hmark⟩

theorem up_to_candidate_append_of_has (h : HasCandidate ls) :
    upToCandidate (ls ++ ms) = upToCandidate ls := by
  induction ls with
  | nil =>
      obtain ⟨l, hl, -⟩ := h
      cases hl
  | cons l ls ih =>
      obtain ⟨m, hm, hmark⟩ := h
      unfold upToCandidate
      rw [List.cons_append, List.takeWhile_cons, List.takeWhile_cons]
      by_cases hfirst : candidateTag <:+: l
      · simp [hfirst]
      · have hrest : HasCandidate ls := by
          rcases List.mem_cons.mp hm with rfl | hm
          · exact absurd hmark hfirst
          · exact ⟨m, hm, hmark⟩
        have hih := ih hrest
        unfold upToCandidate at hih
        simp only [hfirst, not_false_eq_true, decide_true, if_true, hih]

theorem up_to_candidate_append (h : ¬ HasCandidate ls) :
    upToCandidate (ls ++ ms) = ls ++ upToCandidate ms := by
  refine List.takeWhile_append_of_pos ?_
  intro l hl
  simpa using fun hmark => h ⟨l, hl, hmark⟩

/-- A mark at the start of a line is found there. -/
theorem find_mark (hp : '\n' ∉ p) (hls : ∀ l ∈ ls, ¬ p <:+: l) (hl : p <+: l) :
    find p (unlines (ls ++ l :: ms)) = some (unlines ls).length := by
  rw [unlines_append, find_skip_lines hp hls, unlines_cons,
    find_of_prefix (hl.trans (List.prefix_append _ _))]
  simp

theorem find_mark_none (hp : '\n' ∉ p) (hne : p ≠ []) (hls : ∀ l ∈ ls, ¬ p <:+: l) :
    find p (unlines ls) = none := by
  have hskip : find p (unlines ls ++ []) = _ := find_skip_lines hp hls
  rw [List.append_nil] at hskip
  rw [hskip, find, if_neg hne]
  rfl

/-- The first line with a candidate. -/
theorem candidate_split (h : HasCandidate ls) :
    ∃ c after, ls = upToCandidate ls ++ c :: after ∧ candidateTag <:+: c := by
  induction ls with
  | nil =>
      obtain ⟨l, hl, -⟩ := h
      cases hl
  | cons l ls ih =>
      unfold upToCandidate
      rw [List.takeWhile_cons]
      by_cases hfirst : candidateTag <:+: l
      · exact ⟨l, ls, by simp [hfirst], hfirst⟩
      · obtain ⟨m, hm, hmark⟩ := h
        have hrest : HasCandidate ls := by
          rcases List.mem_cons.mp hm with rfl | hm
          · exact absurd hmark hfirst
          · exact ⟨m, hm, hmark⟩
        obtain ⟨c, after, hsplit, hc⟩ := ih hrest
        refine ⟨c, after, ?_, hc⟩
        unfold upToCandidate at hsplit
        simp only [hfirst, not_false_eq_true, decide_true, if_true, List.cons_append]
        rw [← hsplit]

theorem up_to_candidate_prefix (ls : List Text) : ∃ after, ls = upToCandidate ls ++ after := by
  obtain ⟨after, hafter⟩ := List.takeWhile_prefix (l := ls) fun l => ¬ candidateTag <:+: l
  exact ⟨after, hafter.symm⟩

theorem no_candidate_before : ∀ l ∈ upToCandidate ls, ¬ candidateTag <:+: l :=
  fun l hl => by simpa using List.mem_takeWhile_imp hl

/-- The lines before a candidate are fewer. -/
theorem length_up_to_candidate_lt (h : HasCandidate ls) :
    (unlines (upToCandidate ls)).length < (unlines ls).length := by
  obtain ⟨c, after, hsplit, -⟩ := candidate_split h
  have hlength : (unlines (upToCandidate ls)).length <
      (unlines (upToCandidate ls ++ c :: after)).length := by
    simp only [unlines_append, unlines_cons, List.length_append, List.length_cons]
    omega
  rwa [← hsplit] at hlength

theorem length_up_to_candidate_le (ls : List Text) :
    (unlines (upToCandidate ls)).length ≤ (unlines ls).length := by
  by_cases h : HasCandidate ls
  · exact (length_up_to_candidate_lt h).le
  · rw [up_to_candidate_eq h]

/-- The offset of the first candidate, or the end of the text. -/
theorem find_candidate (h : ∀ l ∈ ls, candidateTag <:+: l → candidateTag <+: l) :
    (find candidateTag (unlines ls)).getD (unlines ls).length =
      (unlines (upToCandidate ls)).length := by
  have hbreak : '\n' ∉ candidateTag := by decide
  by_cases hhas : HasCandidate ls
  · obtain ⟨c, after, hsplit, hc⟩ := candidate_split hhas
    have hmem : c ∈ ls := by
      rw [hsplit]
      simp
    have hfind : find candidateTag (unlines (upToCandidate ls ++ c :: after)) =
        some (unlines (upToCandidate ls)).length :=
      find_mark hbreak no_candidate_before (h c hmem hc)
    rw [← hsplit] at hfind
    rw [hfind]
    rfl
  · rw [up_to_candidate_eq hhas, find_mark_none hbreak (by decide)]
    · rfl
    · exact fun l hl hmark => hhas ⟨l, hl, hmark⟩

/-- A section that ends behind its start. -/
theorem slice_lines (before sec after : List Text) :
    slice (unlines (before ++ (sec ++ after))) (unlines before).length
      (unlines (before ++ sec)).length = unlines sec := by
  rw [slice, if_pos (by simp), unlines_append before (sec ++ after), List.drop_left,
    unlines_append before sec, unlines_append sec after, List.length_append,
    Nat.add_sub_cancel_left, List.take_left]

/-- A section that ends before its start runs up to the end of the text. -/
theorem slice_wrapped {stop : Nat} (h : stop < (unlines before).length) (after : List Text) :
    slice (unlines (before ++ after)) (unlines before).length stop = unlines after := by
  rw [slice, if_neg (by omega), unlines_append, List.drop_left]

/-- The lines of a description whose sections can be told apart. -/
structure Sectioned (session video audio data : List Text) : Prop where
  videoStart : ∃ l rest, video = l :: rest ∧ MediaKind.video.tag <+: l
  audioStart : ∃ l rest, audio = l :: rest ∧ MediaKind.audio.tag <+: l
  dataStart : ∃ l rest, data = l :: rest ∧ MediaKind.data.tag <+: l
  inSession : ∀ l ∈ session, (∀ kind : MediaKind, ¬ kind.tag <:+: l) ∧ ¬ candidateTag <:+: l
  inVideo : ∀ l ∈ video, ¬ MediaKind.audio.tag <:+: l ∧ ¬ MediaKind.data.tag <:+: l
  inAudio : ∀ l ∈ audio, ¬ MediaKind.data.tag <:+: l
  candidateFirst : ∀ l ∈ session ++ (video ++ (audio ++ data)),
    candidateTag <:+: l → candidateTag <+: l

namespace Sectioned

variable {session video audio data : List Text} (h : Sectioned session video audio data)
include h

/-- Where the three sections start. -/
theorem find_tags :
    find MediaKind.video.tag (unlines (session ++ (video ++ (audio ++ data)))) =
        some (unlines session).length ∧
      find MediaKind.audio.tag (unlines (session ++ (video ++ (audio ++ data)))) =
        some (unlines (session ++ video)).length ∧
      find MediaKind.data.tag (unlines (session ++ (video ++ (audio ++ data)))) =
        some (unlines (session ++ (video ++ audio))).length := by
  obtain ⟨v, vrest, hv, hvideo⟩ := h.videoStart
  obtain ⟨a, arest, ha, haudio⟩ := h.audioStart
  obtain ⟨d, drest, hd, hdata⟩ := h.dataStart
  refine ⟨?_, ?_, ?_⟩
  · rw [hv, List.cons_append]
    exact find_mark (tag_unbroken _) (fun l hl => (h.inSession l hl).1 _) hvideo
  · have hbefore : ∀ l ∈ session ++ video, ¬ MediaKind.audio.tag <:+: l := by
      intro l hl
      rcases List.mem_append.mp hl with hl | hl
      · exact (h.inSession l hl).1 _
      · exact (h.inVideo l hl).1
    rw [ha, List.cons_append, ← List.append_assoc]
    exact find_mark (tag_unbroken _) hbefore haudio
  · have hbefore : ∀ l ∈ session ++ (video ++ audio), ¬ MediaKind.data.tag <:+: l := by
      intro l hl
      rcases List.mem_append.mp hl with hl | hl
      · exact (h.inSession l hl).1 _
      · rcases List.mem_append.mp hl with hl | hl
        · exact (h.inVideo l hl).2
        · exact h.inAudio l hl
    rw [hd, ← List.append_assoc video, ← List.append_assoc session]
    exact find_mark (tag_unbroken _) hbefore hdata

theorem no_candidate_in_session : ¬ HasCandidate session := by
  rintro ⟨l, hl, hmark⟩
  exact (h.inSession l hl).2 hmark

/-- The video section ends at its first candidate. -/
theorem video_block :
    sectionBlock .video (unlines (session ++ (video ++ (audio ++ data)))) =
      some (unlines (upToCandidate video)) := by
  obtain ⟨hvideo, haudio, hdata⟩ := h.find_tags
  have hcandidate := find_candidate h.candidateFirst
  have hend : sectionEnd (unlines (session ++ (video ++ (audio ++ data)))) (endMarks .video) =
      (unlines (session ++ upToCandidate video)).length := by
    simp only [sectionEnd, endMarks, List.map_cons, List.map_nil, List.foldr_cons,
      List.foldr_nil, haudio, hdata, hcandidate, Option.getD_some]
    rw [up_to_candidate_append h.no_candidate_in_session]
    have hle := length_up_to_candidate_le video
    by_cases hhas : HasCandidate video
    · rw [up_to_candidate_append_of_has hhas]
      simp only [unlines_append, List.length_append]
      omega
    · rw [up_to_candidate_append hhas, up_to_candidate_eq hhas]
      simp only [unlines_append, List.length_append]
      omega
  rw [sectionBlock, hvideo, Option.map_some, hend]
  obtain ⟨after, hafter⟩ := up_to_candidate_prefix video
  have hsplit : video ++ (audio ++ data) = upToCandidate video ++ (after ++ (audio ++ data)) := by
    rw [← List.append_assoc (upToCandidate video), ← hafter]
  rw [hsplit, slice_lines]

/-- A candidate in the video section lets the audio section run up to the end. -/
theorem audio_block :
    sectionBlock .audio (unlines (session ++ (video ++ (audio ++ data)))) =
      some (unlines (if HasCandidate video then audio ++ data else upToCandidate audio)) := by
  obtain ⟨hvideo, haudio, hdata⟩ := h.find_tags
  have hcandidate := find_candidate h.candidateFirst
  have hend : sectionEnd (unlines (session ++ (video ++ (audio ++ data)))) (endMarks .audio) =
      (unlines (if HasCandidate video then session ++ upToCandidate video
        else session ++ video ++ upToCandidate audio)).length := by
    simp only [sectionEnd, endMarks, List.map_cons, List.map_nil, List.foldr_cons,
      List.foldr_nil, hdata, hcandidate, Option.getD_some]
    rw [up_to_candidate_append h.no_candidate_in_session]
    have hvideoLe := length_up_to_candidate_le video
    have haudioLe := length_up_to_candidate_le audio
    split_ifs with hhas
    · rw [up_to_candidate_append_of_has hhas]
      simp only [unlines_append, List.length_append]
      omega
    · rw [up_to_candidate_append hhas]
      by_cases hhasAudio : HasCandidate audio
      · rw [up_to_candidate_append_of_has hhasAudio]
        simp only [unlines_append, List.length_append]
        omega
      · rw [up_to_candidate_append hhasAudio, up_to_candidate_eq hhasAudio]
        simp only [unlines_append, List.length_append]
        omega
  rw [sectionBlock, haudio, Option.map_some, hend]
  split_ifs with hhas
  · have hlt := length_up_to_candidate_lt hhas
    rw [← List.append_assoc, slice_wrapped]
    simp only [unlines_append, List.length_append]
    omega
  · obtain ⟨after, hafter⟩ := up_to_candidate_prefix audio
    have hsplit : session ++ (video ++ (audio ++ data)) =
        session ++ video ++ (upToCandidate audio ++ (after ++ data)) := by
      rw [← List.append_assoc (upToCandidate audio), ← hafter, List.append_assoc]
    rw [hsplit, slice_lines]

/-- A candidate in an earlier section lets the data section run up to the end. -/
theorem data_block :
    sectionBlock .data (unlines (session ++ (video ++ (audio ++ data)))) =
      some (unlines (if HasCandidate video ∨ HasCandidate audio then data
        else upToCandidate data)) := by
  obtain ⟨hvideo, haudio, hdata⟩ := h.find_tags
  have hcandidate := find_candidate h.candidateFirst
  have hlast : session ++ (video ++ (audio ++ data)) =
      session ++ (video ++ audio) ++ data := by
    simp only [List.append_assoc]
  have hend : sectionEnd (unlines (session ++ (video ++ (audio ++ data)))) (endMarks .data) =
      (unlines (session ++ upToCandidate (video ++ (audio ++ data)))).length := by
    have hle := length_up_to_candidate_le (session ++ (video ++ (audio ++ data)))
    simp only [sectionEnd, endMarks, List.map_cons, List.map_nil, List.foldr_cons,
      List.foldr_nil, hcandidate]
    rw [Nat.min_eq_left hle, up_to_candidate_append h.no_candidate_in_session]
  rw [sectionBlock, hdata, Option.map_some, hend]
  split_ifs with hhas
  · rw [hlast, slice_wrapped]
    rcases hhas with hhas | hhas
    · have hlt := length_up_to_candidate_lt hhas
      rw [up_to_candidate_append_of_has hhas]
      simp only [unlines_append, List.length_append]
      omega
    · have hlt := length_up_to_candidate_lt hhas
      by_cases hhasVideo : HasCandidate video
      · have hltVideo := length_up_to_candidate_lt hhasVideo
        rw [up_to_candidate_append_of_has hhasVideo]
        simp only [unlines_append, List.length_append]
        omega
      · rw [up_to_candidate_append hhasVideo, up_to_candidate_append_of_has hhas]
        simp only [unlines_append, List.length_append]
        omega
  · obtain ⟨hhasVideo, hhasAudio⟩ := not_or.mp hhas
    obtain ⟨after, hafter⟩ := up_to_candidate_prefix data
    have hslice := slice_lines (session ++ video ++ audio) (upToCandidate data) after
    rw [← hafter] at hslice
    rw [up_to_candidate_append hhasVideo, up_to_candidate_append hhasAudio]
    simp only [← List.append_assoc]
    rw [hslice]

end Sectioned

/-! ## What the receiver holds -/

/-- The receiver holds the streams of the sender, each under its id and in its section. -/
structure Mapped (plan : SessionPlan) (streams : LocalStreams) (remote : RemoteStreams) :
    Prop where
  video : ∀ id ssrc, remote.video id = some ssrc ↔ ∃ v ∈ streams.video, v.id = id ∧ v.ssrc = ssrc
  videoRtx : ∀ id ssrc, remote.videoRtx id = some ssrc ↔
    plan.includeVideoRtx = true ∧ ∃ v ∈ streams.video, v.id = id ∧ v.rtxSsrc = ssrc
  audio : ∀ id ssrc, remote.audio id = some ssrc ↔ ∃ a ∈ streams.audio, a.id = id ∧ a.ssrc = ssrc
  data : ∀ id ssrc, remote.data id = some ssrc ↔ ∃ d ∈ streams.data, d.id = id ∧ d.ssrc = ssrc
  reliable : ∀ id flag, remote.reliable id = some flag ↔
    ∃ d ∈ streams.data, d.id = id ∧ d.reliable = flag

variable {base : BaseDescription} {plan : SessionPlan} {streams : LocalStreams}

/-- No stream id hides the tag of a later section or a candidate. -/
structure IdsHideNothing (streams : LocalStreams) : Prop where
  sections : HidesNoSection streams
  video : ∀ v ∈ streams.video, ¬ candidateTag <:+: v.id
  audio : ∀ a ∈ streams.audio, ¬ candidateTag <:+: a.id
  data : ∀ d ∈ streams.data, ¬ candidateTag <:+: d.id

/-- A section contains a candidate exactly when its base does. -/
theorem has_candidate_section {kind : MediaKind} {s : Section} {plan : MediaPlan}
    {streams : List Text} (hstreams : ∀ l ∈ streams, ¬ candidateTag <:+: l) :
    HasCandidate (sectionLines kind s plan streams) ↔ HasCandidate s.body := by
  constructor
  · rintro ⟨l, hl, hmark⟩
    simp only [sectionLines, List.mem_cons, List.mem_append] at hl
    rcases hl with rfl | hl | hl | hl
    · exact absurd hmark (candidate_not_in_media_line _ _ plan.plainCapability.2)
    · exact ⟨l, hl, hmark⟩
    · exact absurd ((plan.extraLines l hl).1.candidateFirst hmark) (plan.extraLines l hl).2
    · exact absurd hmark (hstreams l hl)
  · rintro ⟨l, hl, hmark⟩
    exact ⟨l, by simp [sectionLines, hl], hmark⟩

/-- A candidate in the base hides all streams of its section. -/
theorem entries_of_cut (kind other : MediaKind) {s : Section} {plan : MediaPlan}
    (hbody : ∀ l ∈ s.body, IsBodyLine l) (hhas : HasCandidate s.body) (streams : List Text) :
    nameEntries kind (upToCandidate (sectionLines other s plan streams)) = [] ∧
      groupEntries kind (upToCandidate (sectionLines other s plan streams)) = [] ∧
      reliableEntries kind (upToCandidate (sectionLines other s plan streams)) = [] := by
  refine entries_of_kept ?_
  intro l hl
  have hsplit : sectionLines other s plan streams =
      ((mediaHeader other.tag s.port ++ plan.capability) :: s.body) ++ (plan.extra ++ streams) := by
    simp only [sectionLines, List.cons_append]
  obtain ⟨m, hm, hmark⟩ := hhas
  rw [hsplit, up_to_candidate_append_of_has ⟨m, List.mem_cons_of_mem _ hm, hmark⟩] at hl
  rcases List.mem_cons.mp ((List.takeWhile_sublist _).subset hl) with rfl | hl
  · exact classify_media_line _ _ _
  · exact classify_body_line (hbody l hl)

theorem ssrc_line_unbroken {id : Text} (h : IsStreamId id) (ssrc : Ssrc) :
    '\n' ∉ nameLine ssrc id ∧ '\n' ∉ cnameLine ssrc id := by
  have hssrc : '\n' ∉ decimal ssrc.toNat := not_mem_decimal rfl _
  refine ⟨?_, ?_⟩
  · unfold nameLine
    simp only [List.mem_append, not_or]
    exact ⟨⟨⟨by decide, hssrc⟩, by decide⟩, h.2.1⟩
  · unfold cnameLine
    simp only [List.mem_append, not_or]
    exact ⟨⟨⟨by decide, hssrc⟩, by decide⟩, h.2.1⟩

theorem group_line_unbroken (mediaSsrc rtxSsrc : Ssrc) : '\n' ∉ groupLine mediaSsrc rtxSsrc := by
  have hmedia : '\n' ∉ decimal mediaSsrc.toNat := not_mem_decimal rfl _
  have hrtx : '\n' ∉ decimal rtxSsrc.toNat := not_mem_decimal rfl _
  unfold groupLine
  simp only [List.mem_append, not_or]
  exact ⟨⟨⟨by decide, hmedia⟩, by decide⟩, hrtx⟩

theorem reliable_line_unbroken (ssrc : Ssrc) (reliable : Bool) :
    '\n' ∉ reliableLine ssrc reliable := by
  have hssrc : '\n' ∉ decimal ssrc.toNat := not_mem_decimal rfl _
  unfold reliableLine
  simp only [List.mem_append, not_or]
  exact ⟨⟨⟨by decide, hssrc⟩, by decide⟩, by cases reliable <;> decide⟩

/-- A section consists of unbroken lines. -/
theorem section_unbroken {kind : MediaKind} {s : Section} {plan : MediaPlan} {streams : List Text}
    (hbody : ∀ l ∈ s.body, IsBodyLine l) (hstreams : ∀ l ∈ streams, '\n' ∉ l) :
    ∀ l ∈ sectionLines kind s plan streams, '\n' ∉ l := by
  intro l hl
  simp only [sectionLines, List.mem_cons, List.mem_append] at hl
  rcases hl with rfl | hl | hl | hl
  · simp only [List.mem_append, not_or]
    exact ⟨header_unbroken _ _, plan.plainCapability.1⟩
  · exact (hbody l hl).unbroken
  · exact (plan.extraLines l hl).1.unbroken
  · exact hstreams l hl

theorem video_section_unbroken : ∀ l ∈ videoSection base plan streams, '\n' ∉ l := by
  refine section_unbroken base.videoLines ?_
  intro l hl
  obtain ⟨v, hv, hlv⟩ := List.mem_flatMap.mp hl
  have hid := ssrc_line_unbroken (streams.videoIds.1 v hv)
  cases hrtx : plan.includeVideoRtx with
  | false =>
      rw [hrtx] at hlv
      obtain rfl := List.mem_singleton.mp hlv
      exact (hid _).1
  | true =>
      rw [hrtx] at hlv
      simp only [videoLines, if_pos, List.mem_cons, List.not_mem_nil, or_false] at hlv
      rcases hlv with rfl | rfl | rfl
      · exact (hid _).1
      · exact group_line_unbroken _ _
      · exact (hid _).2

theorem audio_section_unbroken : ∀ l ∈ audioSection base plan streams, '\n' ∉ l := by
  refine section_unbroken base.audioLines ?_
  intro l hl
  obtain ⟨a, ha, hla⟩ := List.mem_flatMap.mp hl
  obtain rfl := List.mem_singleton.mp hla
  exact (ssrc_line_unbroken (streams.audioIds.1 a ha) _).1

theorem data_section_unbroken : ∀ l ∈ dataSection base plan streams, '\n' ∉ l := by
  refine section_unbroken base.dataLines ?_
  intro l hl
  obtain ⟨d, hd, hld⟩ := List.mem_flatMap.mp hl
  simp only [dataLines, List.mem_cons, List.not_mem_nil, or_false] at hld
  rcases hld with rfl | rfl
  · exact (ssrc_line_unbroken (streams.dataIds.1 d hd) _).1
  · exact reliable_line_unbroken _ _

/-- The last section together with the lines that follow it. -/
def dataAndTrailer (base : BaseDescription) (plan : SessionPlan) (streams : LocalStreams) :
    List Text :=
  dataSection base plan streams ++ plan.trailer

theorem section_starts (kind : MediaKind) (s : Section) (plan : MediaPlan) (streams : List Text) :
    ∃ l rest, sectionLines kind s plan streams = l :: rest ∧ kind.tag <+: l := by
  refine ⟨_, _, rfl, ?_⟩
  rw [mediaHeader, List.append_assoc]
  exact List.prefix_append _ _

/-- A line of a section that contains a candidate starts with it. -/
theorem candidate_first_in_section {kind : MediaKind} {s : Section} {plan : MediaPlan}
    {streams : List Text} (hbody : ∀ l ∈ s.body, IsBodyLine l)
    (hstreams : ∀ l ∈ streams, ¬ candidateTag <:+: l) :
    ∀ l ∈ sectionLines kind s plan streams, candidateTag <:+: l → candidateTag <+: l := by
  intro l hl hmark
  simp only [sectionLines, List.mem_cons, List.mem_append] at hl
  rcases hl with rfl | hl | hl | hl
  · exact absurd hmark (candidate_not_in_media_line _ _ plan.plainCapability.2)
  · exact (hbody l hl).candidateFirst hmark
  · exact (plan.extraLines l hl).1.candidateFirst hmark
  · exact absurd hmark (hstreams l hl)

theorem candidate_not_in_video_lines (h : ∀ v ∈ streams.video, ¬ candidateTag <:+: v.id) :
    ∀ l ∈ streams.video.flatMap (videoLines plan.includeVideoRtx), ¬ candidateTag <:+: l := by
  intro l hl hmark
  obtain ⟨v, hv, hlv⟩ := List.mem_flatMap.mp hl
  exact h v hv (mark_in_video_lines candidate_is_mark hlv hmark)

theorem candidate_not_in_audio_lines (h : ∀ a ∈ streams.audio, ¬ candidateTag <:+: a.id) :
    ∀ l ∈ streams.audio.flatMap audioLines, ¬ candidateTag <:+: l := by
  intro l hl hmark
  obtain ⟨a, ha, hla⟩ := List.mem_flatMap.mp hl
  exact h a ha (mark_in_audio_lines candidate_is_mark hla hmark)

theorem candidate_not_in_data_lines (h : ∀ d ∈ streams.data, ¬ candidateTag <:+: d.id) :
    ∀ l ∈ streams.data.flatMap dataLines, ¬ candidateTag <:+: l := by
  intro l hl hmark
  obtain ⟨d, hd, hld⟩ := List.mem_flatMap.mp hl
  exact h d hd (mark_in_data_lines candidate_is_mark hld hmark)

/-- The sections of a description can be told apart when the ids hide nothing. -/
theorem sectioned (h : IdsHideNothing streams) :
    Sectioned base.session (videoSection base plan streams) (audioSection base plan streams)
      (dataAndTrailer base plan streams) where
  videoStart := section_starts _ _ _ _
  audioStart := section_starts _ _ _ _
  dataStart := by
    obtain ⟨l, rest, hsplit, hstart⟩ := section_starts .data base.data plan.data
      (streams.data.flatMap dataLines)
    exact ⟨l, rest ++ plan.trailer, by rw [dataAndTrailer, dataSection, hsplit]; rfl, hstart⟩
  inSession := fun l hl => ⟨(base.sessionLines l hl).1.hidesNone, fun hmark =>
    (base.sessionLines l hl).2 ((base.sessionLines l hl).1.candidateFirst hmark)⟩
  inVideo := fun l hl =>
    ⟨tag_not_in_video_section (by decide) (fun v hv => (h.sections.video v hv).1) l hl,
      tag_not_in_video_section (by decide) (fun v hv => (h.sections.video v hv).2) l hl⟩
  inAudio := tag_not_in_audio_section (by decide) h.sections.audio
  candidateFirst := by
    intro l hl
    simp only [dataAndTrailer, List.mem_append] at hl
    rcases hl with hl | hl | hl | hl | hl
    · exact (base.sessionLines l hl).1.candidateFirst
    · exact candidate_first_in_section base.videoLines
        (candidate_not_in_video_lines h.video) l hl
    · exact candidate_first_in_section base.audioLines
        (candidate_not_in_audio_lines h.audio) l hl
    · exact candidate_first_in_section base.dataLines (candidate_not_in_data_lines h.data) l hl
    · exact (plan.trailerLines l hl).1.candidateFirst

/-- The description that is sent, by sections. -/
theorem sent_description_eq (h : IdsHideNothing streams) :
    sentDescription base plan streams =
      unlines (base.session ++ (videoSection base plan streams ++
        (audioSection base plan streams ++ dataAndTrailer base plan streams))) := by
  rw [sentDescription, local_description_eq h.sections, dataAndTrailer]
  simp only [unlines_append, List.append_assoc]

/-- The lines from which the three kinds of streams are read. -/
theorem section_tables (h : IdsHideNothing streams) :
    sectionTables .video (sentDescription base plan streams) =
        some (readTables .video (upToCandidate (videoSection base plan streams))) ∧
      sectionTables .audio (sentDescription base plan streams) =
        some (readTables .audio (if HasCandidate (videoSection base plan streams) then
          audioSection base plan streams ++ dataAndTrailer base plan streams
        else upToCandidate (audioSection base plan streams))) ∧
      sectionTables .data (sentDescription base plan streams) =
        some (readTables .data (if HasCandidate (videoSection base plan streams) ∨
            HasCandidate (audioSection base plan streams) then dataAndTrailer base plan streams
          else upToCandidate (dataAndTrailer base plan streams))) := by
  have hsections : Sectioned base.session (videoSection base plan streams)
      (audioSection base plan streams) (dataAndTrailer base plan streams) := sectioned h
  have hvideo : ∀ l ∈ videoSection base plan streams, '\n' ∉ l := video_section_unbroken
  have haudio : ∀ l ∈ audioSection base plan streams, '\n' ∉ l := audio_section_unbroken
  have hdata : ∀ l ∈ dataAndTrailer base plan streams, '\n' ∉ l := by
    intro l hl
    rcases List.mem_append.mp hl with hl | hl
    · exact data_section_unbroken l hl
    · exact (plan.trailerLines l hl).1.unbroken
  have hcut : ∀ {ls : List Text}, (∀ l ∈ ls, '\n' ∉ l) →
      lines (unlines (upToCandidate ls)) = upToCandidate ls := fun hls =>
    lines_unlines fun l hl => hls l ((List.takeWhile_sublist _).subset hl)
  rw [sent_description_eq h]
  refine ⟨?_, ?_, ?_⟩
  · rw [sectionTables, hsections.video_block, Option.map_some, hcut hvideo]
  · rw [sectionTables, hsections.audio_block, Option.map_some]
    split_ifs
    · rw [lines_unlines]
      intro l hl
      rcases List.mem_append.mp hl with hl | hl
      · exact haudio l hl
      · exact hdata l hl
    · rw [hcut haudio]
  · rw [sectionTables, hsections.data_block, Option.map_some]
    split_ifs
    · rw [lines_unlines hdata]
    · rw [hcut hdata]

/-! ## Reading each section -/

/-- The SSRCs of the streams, apart from each other. -/
theorem ssrcs_distinct (streams : LocalStreams) :
    (streams.video.map (·.ssrc)).Nodup ∧ (streams.video.map (·.rtxSsrc)).Nodup ∧
      (streams.audio.map (·.ssrc)).Nodup ∧ (streams.data.map (·.ssrc)).Nodup ∧
      (∀ v ∈ streams.video, ∀ w ∈ streams.video, v.ssrc ≠ w.rtxSsrc) ∧
      ∀ a ∈ streams.audio, ∀ d ∈ streams.data, a.ssrc ≠ d.ssrc := by
  have hdistinct := streams.distinct
  rw [List.append_assoc, List.append_assoc] at hdistinct
  obtain ⟨hvideo, hrest, hvideoRest⟩ := List.nodup_append.mp hdistinct
  obtain ⟨hrtx, hrest, -⟩ := List.nodup_append.mp hrest
  obtain ⟨haudio, hdata, haudioData⟩ := List.nodup_append.mp hrest
  refine ⟨hvideo, hrtx, haudio, hdata, ?_, ?_⟩
  · intro v hv w hw
    exact hvideoRest _ (List.mem_map_of_mem hv) _
      (List.mem_append_left _ (List.mem_map_of_mem hw))
  · intro a ha d hd
    exact haudioData _ (List.mem_map_of_mem ha) _ (List.mem_map_of_mem hd)

/-- A video section from which all streams are read. -/
theorem video_read {ls : List Text} (streams : LocalStreams) (includeVideoRtx : Bool)
    (hnames : nameEntries .video ls = streams.video.map fun v => (v.ssrc, v.id))
    (hgroups : groupEntries .video ls =
      if includeVideoRtx then streams.video.map fun v => (v.ssrc, v.rtxSsrc) else []) :
    (∀ id ssrc, (readTables .video ls).streams .video id = some ssrc ↔
        ∃ v ∈ streams.video, v.id = id ∧ v.ssrc = ssrc) ∧
      ∀ id ssrc, (readTables .video ls).rtxStreams id = some ssrc ↔
        includeVideoRtx = true ∧ ∃ v ∈ streams.video, v.id = id ∧ v.rtxSsrc = ssrc := by
  obtain ⟨hssrcs, -, -, -, happart, -⟩ := ssrcs_distinct streams
  have hkeys : ((streams.video.map fun v => (v.ssrc, v.id)).map Prod.fst).Nodup := by
    simpa [Function.comp_def] using hssrcs
  have hids : ((streams.video.map fun v => (v.ssrc, v.id)).map Prod.snd).Nodup := by
    simpa [Function.comp_def] using streams.videoIds.2
  have hgroupKeys : ((groupEntries .video ls).map Prod.fst).Nodup := by
    rw [hgroups]
    cases includeVideoRtx with
    | false => simp
    | true => simpa [Function.comp_def] using hssrcs
  constructor
  · intro id ssrc
    rw [streams_iff hnames hkeys hids]
    · simp only [List.mem_map, Prod.mk.injEq]
      constructor
      · rintro ⟨v, hv, rfl, rfl⟩
        exact ⟨v, hv, rfl, rfl⟩
      · rintro ⟨v, hv, rfl, rfl⟩
        exact ⟨v, hv, rfl, rfl⟩
    · intro e he
      obtain ⟨v, hv, rfl⟩ := List.mem_map.mp he
      exact (streams.videoIds.1 v hv).1
    · intro _ e he hrtx
      obtain ⟨v, hv, rfl⟩ := List.mem_map.mp he
      obtain ⟨g, hg, heq⟩ := List.mem_map.mp hrtx
      rw [mem_of_entries hgroupKeys, hgroups] at hg
      cases includeVideoRtx with
      | false => cases hg
      | true =>
          obtain ⟨w, hw, rfl⟩ := List.mem_map.mp hg
          exact happart v hv w hw heq.symm
  · intro id ssrc
    rw [read_tables_eq, SsrcTables.rtxStreams]
    simp only [hnames]
    have hlook : ∀ e ∈ groupEntries .video ls,
        ((ofEntries (streams.video.map fun v => (v.ssrc, v.id))).get e.1).filter (· ≠ []) =
          (ofEntries (streams.video.map fun v => (v.ssrc, v.id))).get e.1 := by
      intro e he
      cases hname : (ofEntries (streams.video.map fun v => (v.ssrc, v.id))).get e.1 with
      | none => rfl
      | some name =>
          rw [get_eq_some_iff (ordered_of_entries _), mem_of_entries hkeys] at hname
          obtain ⟨v, hv, heq⟩ := List.mem_map.mp hname
          obtain rfl := (Prod.mk.inj heq).2
          exact Option.filter_some_pos (by simpa using (streams.videoIds.1 v hv).1)
    rw [fill_named_iff hkeys hids hgroupKeys hlook, hgroups]
    cases includeVideoRtx with
    | false => simp
    | true =>
        simp only [if_pos, List.mem_map, Prod.mk.injEq, true_and]
        constructor
        · rintro ⟨s, ⟨v, hv, rfl, rfl⟩, w, hw, heq, rfl⟩
          have hvw : w = v := List.inj_on_of_nodup_map hssrcs hw hv heq
          exact ⟨v, hv, rfl, by rw [hvw]⟩
        · rintro ⟨v, hv, rfl, rfl⟩
          exact ⟨v.ssrc, ⟨v, hv, rfl, rfl⟩, v, hv, rfl, rfl⟩

/-- A data section from which all streams are read. -/
theorem data_read {ls : List Text} (streams : LocalStreams)
    (hnames : nameEntries .data ls = streams.data.map fun d => (d.ssrc, d.id))
    (hreliable : reliableEntries .data ls = streams.data.map fun d => (d.ssrc, d.reliable)) :
    (∀ id ssrc, (readTables .data ls).streams .data id = some ssrc ↔
        ∃ d ∈ streams.data, d.id = id ∧ d.ssrc = ssrc) ∧
      ∀ id flag, (readTables .data ls).reliability (fun _ => none) id = some flag ↔
        ∃ d ∈ streams.data, d.id = id ∧ d.reliable = flag := by
  obtain ⟨-, -, -, hssrcs, -, -⟩ := ssrcs_distinct streams
  have hkeys : ((streams.data.map fun d => (d.ssrc, d.id)).map Prod.fst).Nodup := by
    simpa [Function.comp_def] using hssrcs
  have hids : ((streams.data.map fun d => (d.ssrc, d.id)).map Prod.snd).Nodup := by
    simpa [Function.comp_def] using streams.dataIds.2
  have hflagKeys : ((streams.data.map fun d => (d.ssrc, d.reliable)).map Prod.fst).Nodup := by
    simpa [Function.comp_def] using hssrcs
  constructor
  · intro id ssrc
    rw [streams_iff hnames hkeys hids]
    · simp only [List.mem_map, Prod.mk.injEq]
      constructor
      · rintro ⟨d, hd, rfl, rfl⟩
        exact ⟨d, hd, rfl, rfl⟩
      · rintro ⟨d, hd, rfl, rfl⟩
        exact ⟨d, hd, rfl, rfl⟩
    · intro e he
      obtain ⟨d, hd, rfl⟩ := List.mem_map.mp he
      exact (streams.dataIds.1 d hd).1
    · intro hkind
      cases hkind
  · intro id flag
    rw [read_tables_eq, SsrcTables.reliability]
    simp only [hnames, hreliable]
    rw [fill_named_iff hkeys hids hflagKeys fun e _ => rfl]
    simp only [List.mem_map, Prod.mk.injEq]
    constructor
    · rintro ⟨s, ⟨d, hd, rfl, rfl⟩, e, he, heq, rfl⟩
      have hde : e = d := List.inj_on_of_nodup_map hssrcs he hd heq
      exact ⟨d, hd, rfl, by rw [hde]⟩
    · rintro ⟨d, hd, rfl, rfl⟩
      exact ⟨d.ssrc, ⟨d, hd, rfl, rfl⟩, d, hd, rfl, rfl⟩

/-- An audio section from which all streams are read. -/
theorem audio_read {ls : List Text} (streams : LocalStreams)
    (hnames : nameEntries .audio ls = streams.audio.map fun a => (a.ssrc, a.id)) (id : Text)
    (ssrc : Ssrc) :
    (readTables .audio ls).streams .audio id = some ssrc ↔
      ∃ a ∈ streams.audio, a.id = id ∧ a.ssrc = ssrc := by
  obtain ⟨-, -, hssrcs, -, -, -⟩ := ssrcs_distinct streams
  rw [streams_iff hnames]
  · simp only [List.mem_map, Prod.mk.injEq]
    constructor
    · rintro ⟨a, ha, rfl, rfl⟩
      exact ⟨a, ha, rfl, rfl⟩
    · rintro ⟨a, ha, rfl, rfl⟩
      exact ⟨a, ha, rfl, rfl⟩
  · simpa [Function.comp_def] using hssrcs
  · simpa [Function.comp_def] using streams.audioIds.2
  · intro e he
    obtain ⟨a, ha, rfl⟩ := List.mem_map.mp he
    exact (streams.audioIds.1 a ha).1
  · intro hkind
    cases hkind

/-- A section from which nothing is read yields no stream. -/
theorem nothing_read {kind : MediaKind} {ls : List Text} (hnames : nameEntries kind ls = [])
    (hgroups : groupEntries kind ls = []) (hreliable : reliableEntries kind ls = []) (id : Text) :
    (readTables kind ls).streams kind id = none ∧ (readTables kind ls).rtxStreams id = none ∧
      (readTables kind ls).reliability (fun _ => none) id = none := by
  rw [read_tables_eq, SsrcTables.streams, SsrcTables.rtxStreams, SsrcTables.reliability, hnames,
    hgroups, hreliable]
  exact ⟨rfl, rfl, rfl⟩

/-- An audio section that runs into the data section: the largest SSRC of an id is kept. -/
theorem audio_and_data_read {ls : List Text} (streams : LocalStreams)
    (hnames : nameEntries .audio ls =
      (streams.audio.map fun a => (a.ssrc, a.id)) ++ streams.data.map fun d => (d.ssrc, d.id)) :
    (∀ id ssrc, (readTables .audio ls).streams .audio id = some ssrc ↔
        ∃ a ∈ streams.audio, a.id = id ∧ a.ssrc = ssrc) ↔
      ∀ d ∈ streams.data, ∃ a ∈ streams.audio, a.id = d.id ∧ d.ssrc.toNat < a.ssrc.toNat := by
  obtain ⟨-, -, haudio, hdata, -, happart⟩ := ssrcs_distinct streams
  set entries := (streams.audio.map fun a => (a.ssrc, a.id)) ++
    streams.data.map fun d => (d.ssrc, d.id) with hentries
  have hkeys : (entries.map Prod.fst).Nodup := by
    rw [hentries, List.map_append, List.nodup_append]
    refine ⟨by simpa [Function.comp_def] using haudio, by simpa [Function.comp_def] using hdata, ?_⟩
    intro x hx y hy
    simp only [List.map_map, List.mem_map, Function.comp_apply] at hx hy
    obtain ⟨a, ha, rfl⟩ := hx
    obtain ⟨d, hd, rfl⟩ := hy
    exact happart a ha d hd
  have hmem : ∀ e, e ∈ ofEntries entries ↔
      (∃ a ∈ streams.audio, e = (a.ssrc, a.id)) ∨ ∃ d ∈ streams.data, e = (d.ssrc, d.id) := by
    intro e
    rw [mem_of_entries hkeys, hentries, List.mem_append, List.mem_map, List.mem_map]
    simp only [eq_comm]
  have hordered := ordered_of_entries entries
  rw [read_tables_eq, SsrcTables.streams, hnames]
  have hstream : ∀ e ∈ ofEntries entries, SsrcTables.streamOf
      { names := ofEntries entries
        reliable := ofEntries (reliableEntries .audio ls)
        rtx := ofEntries (groupEntries .audio ls)
        kept := ls.filter fun line => classify .audio line = .kept } .audio e = some e.2 := by
    intro e he
    rw [SsrcTables.streamOf, if_neg]
    rintro (⟨hkind, -⟩ | hempty)
    · cases hkind
    · rcases (hmem e).mp he with ⟨a, ha, rfl⟩ | ⟨d, hd, rfl⟩
      · exact (streams.audioIds.1 a ha).1 hempty
      · exact (streams.dataIds.1 d hd).1 hempty
  generalize SsrcTables.streamOf _ MediaKind.audio = look at hstream ⊢
  have hlargest : ∀ name, (∃ e ∈ ofEntries entries, look e = some name) →
      ∃ e ∈ ofEntries entries, look e = some name ∧
        fillIds look Prod.fst (ofEntries entries) (fun _ => none) name = some e.1 ∧
        ∀ e' ∈ ofEntries entries, look e' = some name → e'.1.toNat ≤ e.1.toNat :=
    fun name => fill_ids_of_mem hordered
  constructor
  · intro hexact d hd
    have he : (d.ssrc, d.id) ∈ ofEntries entries := (hmem _).mpr (Or.inr ⟨d, hd, rfl⟩)
    obtain ⟨e, -, -, hresult, hmax⟩ := hlargest d.id ⟨_, he, hstream _ he⟩
    obtain ⟨a, ha, hid, hssrc⟩ := (hexact d.id e.1).mp hresult
    refine ⟨a, ha, hid, ?_⟩
    have hle : d.ssrc.toNat ≤ a.ssrc.toNat := hssrc ▸ hmax _ he (hstream _ he)
    have hne : a.ssrc.toNat ≠ d.ssrc.toNat := fun heq =>
      happart a ha d hd (BitVec.eq_of_toNat_eq heq)
    omega
  · intro hlarger id ssrc
    constructor
    · intro hresult
      obtain ⟨e, he, hid, hstored, hmax⟩ := hlargest id (exists_of_fill_ids hresult)
      rw [hresult, Option.some.injEq] at hstored
      rw [hstream e he, Option.some.injEq] at hid
      rcases (hmem e).mp he with ⟨a, ha, rfl⟩ | ⟨d, hd, rfl⟩
      · exact ⟨a, ha, hid, hstored.symm⟩
      · obtain ⟨a, ha, haid, hlt⟩ := hlarger d hd
        have hea : (a.ssrc, a.id) ∈ ofEntries entries := (hmem _).mpr (Or.inl ⟨a, ha, rfl⟩)
        have hle := hmax _ hea (by rw [hstream _ hea, haid, ← hid])
        exact absurd hlt (Nat.not_lt.mpr hle)
    · rintro ⟨a, ha, rfl, rfl⟩
      have he : (a.ssrc, a.id) ∈ ofEntries entries := (hmem _).mpr (Or.inl ⟨a, ha, rfl⟩)
      refine fill_ids_largest hordered he (hstream _ he) ?_
      intro e' he' hid'
      rw [hstream e' he', Option.some.injEq] at hid'
      rcases (hmem e').mp he' with ⟨b, hb, rfl⟩ | ⟨d, hd, rfl⟩
      · rw [List.inj_on_of_nodup_map streams.audioIds.2 hb ha hid']
      · obtain ⟨b, hb, hbid, hlt⟩ := hlarger d hd
        have hba : b = a := List.inj_on_of_nodup_map streams.audioIds.2 hb ha (hbid.trans hid')
        rw [hba] at hlt
        exact hlt.le

/-! ## When the mapping is complete -/

/-- No candidate stands in the way of a stream. A candidate in the video section also lets the
audio section take in the data streams, where only larger SSRCs of the same ids prevail. -/
structure StreamsInReach (base : BaseDescription) (streams : LocalStreams) : Prop where
  video : HasCandidate base.video.body → streams.video = [] ∧
    ∀ d ∈ streams.data, ∃ a ∈ streams.audio, a.id = d.id ∧ d.ssrc.toNat < a.ssrc.toNat
  audio : ¬ HasCandidate base.video.body → HasCandidate base.audio.body → streams.audio = []
  data : ¬ HasCandidate base.video.body → ¬ HasCandidate base.audio.body →
    HasCandidate base.data.body → streams.data = []

/-- What the receiver holds after a description, started without any streams. -/
abbrev received (base : BaseDescription) (plan : SessionPlan) (streams : LocalStreams) :
    RemoteStreams :=
  getRemoteStreams (sentDescription base plan streams) {}

variable (h : IdsHideNothing streams)
include h

theorem has_candidate_video :
    HasCandidate (videoSection base plan streams) ↔ HasCandidate base.video.body :=
  has_candidate_section (candidate_not_in_video_lines h.video)

theorem has_candidate_audio :
    HasCandidate (audioSection base plan streams) ↔ HasCandidate base.audio.body :=
  has_candidate_section (candidate_not_in_audio_lines h.audio)

/-- The video streams are received unless a candidate hides them. -/
theorem received_video :
    ((∀ id ssrc, (received base plan streams).video id = some ssrc ↔
        ∃ v ∈ streams.video, v.id = id ∧ v.ssrc = ssrc) ∧
      ∀ id ssrc, (received base plan streams).videoRtx id = some ssrc ↔
        plan.includeVideoRtx = true ∧ ∃ v ∈ streams.video, v.id = id ∧ v.rtxSsrc = ssrc) ↔
      (HasCandidate base.video.body → streams.video = []) := by
  have htables := (@section_tables base plan streams h).1
  have hread : (received base plan streams).video =
      (readTables .video (upToCandidate (videoSection base plan streams))).streams .video := by
    simp only [received, getRemoteStreams, htables, Option.map_some, Option.getD_some]
  have hreadRtx : (received base plan streams).videoRtx =
      (readTables .video (upToCandidate (videoSection base plan streams))).rtxStreams := by
    simp only [received, getRemoteStreams, htables, Option.map_some, Option.getD_some]
  rw [hread, hreadRtx]
  by_cases hhas : HasCandidate base.video.body
  · obtain ⟨hname, hgroup, hreliable⟩ := @entries_of_cut .video .video _ plan.video
      base.videoLines hhas (streams.video.flatMap (videoLines plan.includeVideoRtx))
    have hnone : ∀ id,
        (readTables .video (upToCandidate (videoSection base plan streams))).streams .video id =
            none ∧
          (readTables .video (upToCandidate (videoSection base plan streams))).rtxStreams id =
            none := by
      intro id
      obtain ⟨hstreams, hrtx, -⟩ := nothing_read hname hgroup hreliable id
      exact ⟨hstreams, hrtx⟩
    simp only [hhas, forall_const]
    constructor
    · intro hexact
      refine List.eq_nil_iff_forall_not_mem.mpr ?_
      intro v hv
      have hsome := (hexact.1 v.id v.ssrc).mpr ⟨v, hv, rfl, rfl⟩
      rw [(hnone v.id).1] at hsome
      cases hsome
    · intro hempty
      refine ⟨fun id ssrc => ?_, fun id ssrc => ?_⟩
      · rw [(hnone id).1, hempty]
        simp
      · rw [(hnone id).2, hempty]
        simp
  · obtain ⟨hname, hgroup, -⟩ := @entries_of_section .video .video _ plan.video
      base.videoLines (streams.video.flatMap (videoLines plan.includeVideoRtx))
    have hcut : upToCandidate (videoSection base plan streams) = videoSection base plan streams :=
      up_to_candidate_eq fun hc => hhas ((has_candidate_video h).mp hc)
    have hgroupable : ∀ v ∈ streams.video, v.ssrc ≠ 0 ∧ v.rtxSsrc ≠ 0 ∧ v.ssrc ≠ v.rtxSsrc :=
      fun v hv => groupable streams hv
    rw [name_entries_video streams.videoIds.1 hgroupable] at hname
    rw [group_entries_video streams.videoIds.1 hgroupable] at hgroup
    rw [hcut]
    have hexact := video_read streams plan.includeVideoRtx hname hgroup
    exact ⟨fun _ hc => absurd hc hhas, fun _ => hexact⟩

/-- The audio streams are received unless a candidate hides them or adds the data streams. -/
theorem received_audio :
    (∀ id ssrc, (received base plan streams).audio id = some ssrc ↔
        ∃ a ∈ streams.audio, a.id = id ∧ a.ssrc = ssrc) ↔
      (HasCandidate base.video.body →
        ∀ d ∈ streams.data, ∃ a ∈ streams.audio, a.id = d.id ∧ d.ssrc.toNat < a.ssrc.toNat) ∧
      (¬ HasCandidate base.video.body → HasCandidate base.audio.body → streams.audio = []) := by
  have htables := (@section_tables base plan streams h).2.1
  simp only [has_candidate_video h] at htables
  have hread : (received base plan streams).audio =
      (readTables .audio (if HasCandidate base.video.body then
          audioSection base plan streams ++ dataAndTrailer base plan streams
        else upToCandidate (audioSection base plan streams))).streams .audio := by
    simp only [received, getRemoteStreams, htables, Option.map_some, Option.getD_some]
  rw [hread]
  obtain ⟨hname, -, -⟩ := @entries_of_section .audio .audio _ plan.audio
    base.audioLines (streams.audio.flatMap audioLines)
  rw [name_entries_audio .audio streams.audioIds.1] at hname
  by_cases hhas : HasCandidate base.video.body
  · obtain ⟨hdata, -, -⟩ := @entries_of_section .audio .data _ plan.data
      base.dataLines (streams.data.flatMap dataLines)
    have htrailer : nameEntries .audio plan.trailer = [] :=
      (entries_of_kept fun l hl => classify_body_line (plan.trailerLines l hl).1).1
    have hnames : nameEntries .audio
        (audioSection base plan streams ++ dataAndTrailer base plan streams) =
        (streams.audio.map fun a => (a.ssrc, a.id)) ++
          streams.data.map fun d => (d.ssrc, d.id) := by
      rw [name_entries_append, audioSection, hname, dataAndTrailer, name_entries_append,
        dataSection, hdata, name_entries_data .audio streams.dataIds.1, htrailer, List.append_nil]
    simp only [hhas, if_true, audio_and_data_read streams hnames, forall_const, not_true_eq_false,
      false_implies, and_true]
  · simp only [hhas, if_false, false_implies, not_false_eq_true, forall_const, true_and]
    by_cases haudio : HasCandidate base.audio.body
    · obtain ⟨hcutName, hgroup, hreliable⟩ := @entries_of_cut .audio .audio _ plan.audio
        base.audioLines haudio (streams.audio.flatMap audioLines)
      have hnone : ∀ id,
          (readTables .audio (upToCandidate (audioSection base plan streams))).streams .audio id =
            none := fun id => (nothing_read hcutName hgroup hreliable id).1
      simp only [haudio, forall_const]
      constructor
      · intro hexact
        refine List.eq_nil_iff_forall_not_mem.mpr ?_
        intro a ha
        have hsome := (hexact a.id a.ssrc).mpr ⟨a, ha, rfl, rfl⟩
        rw [hnone a.id] at hsome
        cases hsome
      · intro hempty id ssrc
        rw [hnone id, hempty]
        simp
    · have hcut : upToCandidate (audioSection base plan streams) =
          audioSection base plan streams :=
        up_to_candidate_eq fun hc => haudio ((has_candidate_audio h).mp hc)
      rw [hcut]
      exact ⟨fun _ hc => absurd hc haudio, fun _ => audio_read streams hname⟩

/-- The data streams are received unless the first candidate hides them. -/
theorem received_data :
    ((∀ id ssrc, (received base plan streams).data id = some ssrc ↔
        ∃ d ∈ streams.data, d.id = id ∧ d.ssrc = ssrc) ∧
      ∀ id flag, (received base plan streams).reliable id = some flag ↔
        ∃ d ∈ streams.data, d.id = id ∧ d.reliable = flag) ↔
      (¬ HasCandidate base.video.body → ¬ HasCandidate base.audio.body →
        HasCandidate base.data.body → streams.data = []) := by
  have htables := (@section_tables base plan streams h).2.2
  simp only [has_candidate_video h, has_candidate_audio h] at htables
  have hread : (received base plan streams).data =
      (readTables .data (if HasCandidate base.video.body ∨ HasCandidate base.audio.body then
          dataAndTrailer base plan streams
        else upToCandidate (dataAndTrailer base plan streams))).streams .data := by
    simp only [received, getRemoteStreams, htables, Option.map_some, Option.getD_some]
  have hreadReliable : (received base plan streams).reliable =
      (readTables .data (if HasCandidate base.video.body ∨ HasCandidate base.audio.body then
          dataAndTrailer base plan streams
        else upToCandidate (dataAndTrailer base plan streams))).reliability fun _ => none := by
    simp only [received, getRemoteStreams, htables, Option.map_some, Option.getD_some]
  rw [hread, hreadReliable]
  obtain ⟨hname, -, hreliable⟩ := @entries_of_section .data .data _ plan.data
    base.dataLines (streams.data.flatMap dataLines)
  obtain ⟨htrailerName, -, htrailerReliable⟩ := @entries_of_kept .data _ fun l hl =>
    classify_body_line (plan.trailerLines l hl).1
  have hnames : nameEntries .data (dataAndTrailer base plan streams) =
      streams.data.map fun d => (d.ssrc, d.id) := by
    rw [dataAndTrailer, name_entries_append, dataSection, hname,
      name_entries_data .data streams.dataIds.1, htrailerName, List.append_nil]
  have hflags : reliableEntries .data (dataAndTrailer base plan streams) =
      streams.data.map fun d => (d.ssrc, d.reliable) := by
    rw [dataAndTrailer, reliable_entries_append, dataSection, hreliable,
      reliable_entries_data streams.dataIds.1, htrailerReliable, List.append_nil]
  have hexact := data_read streams hnames hflags
  by_cases hearlier : HasCandidate base.video.body ∨ HasCandidate base.audio.body
  · simp only [hearlier, if_true]
    exact ⟨fun _ hvideo haudio => absurd hearlier (not_or.mpr ⟨hvideo, haudio⟩), fun _ => hexact⟩
  · obtain ⟨hvideo, haudio⟩ := not_or.mp hearlier
    rw [if_neg hearlier]
    simp only [hvideo, haudio, not_false_eq_true, forall_const]
    have hsection : HasCandidate (dataSection base plan streams) ↔ HasCandidate base.data.body :=
      has_candidate_section (candidate_not_in_data_lines h.data)
    by_cases hhas : HasCandidate base.data.body
    · obtain ⟨hcutName, hgroup, hcutReliable⟩ := @entries_of_cut .data .data _ plan.data
        base.dataLines hhas (streams.data.flatMap dataLines)
      have hcut : upToCandidate (dataAndTrailer base plan streams) =
          upToCandidate (dataSection base plan streams) :=
        up_to_candidate_append_of_has (hsection.mpr hhas)
      have hnone : ∀ id,
          (readTables .data (upToCandidate (dataSection base plan streams))).streams .data id =
              none ∧
            (readTables .data (upToCandidate (dataSection base plan streams))).reliability
              (fun _ => none) id = none := by
        intro id
        obtain ⟨hstreams, -, hflag⟩ := nothing_read hcutName hgroup hcutReliable id
        exact ⟨hstreams, hflag⟩
      rw [hcut]
      simp only [hhas, forall_const]
      constructor
      · intro hreceived
        refine List.eq_nil_iff_forall_not_mem.mpr ?_
        intro d hd
        have hsome := (hreceived.1 d.id d.ssrc).mpr ⟨d, hd, rfl, rfl⟩
        rw [(hnone d.id).1] at hsome
        cases hsome
      · intro hempty
        refine ⟨fun id ssrc => ?_, fun id flag => ?_⟩
        · rw [(hnone id).1, hempty]
          simp
        · rw [(hnone id).2, hempty]
          simp
    · have hcut : upToCandidate (dataAndTrailer base plan streams) =
          dataAndTrailer base plan streams := by
        refine up_to_candidate_eq ?_
        rintro ⟨l, hl, hmark⟩
        rcases List.mem_append.mp hl with hl | hl
        · exact hhas (hsection.mp ⟨l, hl, hmark⟩)
        · exact (plan.trailerLines l hl).2 ((plan.trailerLines l hl).1.candidateFirst hmark)
      rw [hcut]
      exact ⟨fun _ hc => absurd hc hhas, fun _ => hexact⟩

/-- The receiver holds the sender's streams exactly when no candidate is in their way. -/
theorem mapped_iff_in_reach :
    Mapped plan streams (received base plan streams) ↔ StreamsInReach base streams := by
  have hvideo := @received_video base plan streams h
  have haudio := @received_audio base plan streams h
  have hdata := @received_data base plan streams h
  constructor
  · intro hmapped
    have hnone := hvideo.mp ⟨hmapped.video, hmapped.videoRtx⟩
    obtain ⟨hdominated, haudioNone⟩ := haudio.mp hmapped.audio
    exact ⟨fun hhas => ⟨hnone hhas, hdominated hhas⟩, haudioNone,
      hdata.mp ⟨hmapped.data, hmapped.reliable⟩⟩
  · intro hreach
    obtain ⟨hvideoExact, hrtxExact⟩ := hvideo.mpr fun hhas => (hreach.video hhas).1
    obtain ⟨hdataExact, hreliableExact⟩ := hdata.mpr hreach.data
    exact ⟨hvideoExact, hrtxExact,
      haudio.mpr ⟨fun hhas => (hreach.video hhas).2, hreach.audio⟩, hdataExact, hreliableExact⟩

/-! ## A description with a candidate -/

omit h

/-- The base description of an agent with one candidate in each section, or with none. -/
def gatheredBase (candidates : List Text) (h : ∀ l ∈ candidates, IsBodyLine l) :
    BaseDescription where
  session := []
  video := ⟨0, "a=ice-ufrag:Qh3m".toList :: candidates⟩
  audio := ⟨0, "a=ice-ufrag:Qh3m".toList :: candidates⟩
  data := ⟨0, "a=ice-ufrag:Qh3m".toList :: candidates⟩
  sessionLines := no_lines_plain
  videoLines := List.forall_mem_cons.mpr ⟨by decide, h⟩
  audioLines := List.forall_mem_cons.mpr ⟨by decide, h⟩
  dataLines := List.forall_mem_cons.mpr ⟨by decide, h⟩

/-- The answer of a peer without attribute lines of its own. -/
def barePlan : SessionPlan where
  includeVideoRtx := true
  video := ⟨"UDP/TLS/RTP/SAVPF 96 127".toList, [], by decide, no_lines_plain⟩
  audio := ⟨"UDP/TLS/RTP/SAVPF 111".toList, [], by decide, no_lines_plain⟩
  data := ⟨"UDP/TLS/RTP/SAVPF 120".toList, [], by decide, no_lines_plain⟩
  trailer := []
  trailerLines := no_lines_plain

/-- One stream of each kind. -/
def threeStreams : LocalStreams where
  video := [⟨"camera".toList, 11, 12⟩]
  audio := [⟨"mic".toList, 21⟩]
  data := [⟨"chat".toList, 31, true⟩]
  videoIds := by decide
  audioIds := by decide
  dataIds := by decide
  distinct := by decide
  nonzero := by decide

/-- With candidates in the description the camera is lost. -/
theorem candidate_hides_camera :
    ¬ Mapped barePlan threeStreams (received
      (gatheredBase ["a=candidate:1 1 UDP 2013266431 10.0.0.2 9 typ host".toList] (by decide))
      barePlan threeStreams) := by
  intro h
  have hcamera := (h.video "camera".toList 11).mpr
    ⟨_, List.mem_singleton.mpr rfl, rfl, rfl⟩
  revert hcamera
  decide +kernel

/-- Without candidates the three streams arrive. -/
theorem trickled_streams_mapped :
    Mapped barePlan threeStreams (received (gatheredBase [] (by simp)) barePlan threeStreams) :=
  (mapped_iff_in_reach ⟨⟨by decide, by decide⟩, by decide, by decide, by decide⟩).mpr
    ⟨fun hhas => absurd hhas (by decide), fun _ hhas => absurd hhas (by decide),
      fun _ _ hhas => absurd hhas (by decide)⟩

end IceTransport

end MiniRtc

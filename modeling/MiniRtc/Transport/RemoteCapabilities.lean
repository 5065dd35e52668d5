import MiniRtc.Transport.LocalDescription
import Mathlib.Data.List.Nodup

/-!
# Reading a remote session description

`GetRemoteCapabilities` cuts the three sections out of the text between the first occurrences of
their tags and of a candidate, reads the streams from them and keeps the rest of the video
section for the ICE agent. The length of a section is an unsigned difference of offsets, so a
section that starts behind its end is taken up to the end of the text.
-/

namespace MiniRtc

open Text

namespace IceTransport

/-! ## The function of the source -/

/-- `substr(start, stop - start)`, whose length is unsigned. -/
def slice (s : Text) (start stop : Nat) : Text :=
  if start ≤ stop then (s.drop start).take (stop - start) else s.drop start

/-- What ends a section, besides the end of the text. -/
def endMarks : MediaKind → List Text
  | .video => [MediaKind.audio.tag, MediaKind.data.tag, candidateTag]
  | .audio => [MediaKind.data.tag, candidateTag]
  | .data => [candidateTag]

/-- The least offset of the marks in the text. -/
def sectionEnd (sdp : Text) (marks : List Text) : Nat :=
  (marks.map fun mark => (find mark sdp).getD sdp.length).foldr min sdp.length

/-- The text of a section, if its tag occurs. -/
def sectionBlock (kind : MediaKind) (sdp : Text) : Option Text :=
  (find kind.tag sdp).map fun start => slice sdp start (sectionEnd sdp (endMarks kind))

/-- What `ParseSsrcFromSdpAndRemove` reads from a section. -/
def sectionTables (kind : MediaKind) (sdp : Text) : Option SsrcTables :=
  (sectionBlock kind sdp).map fun block => readTables kind (lines block)

/-- The streams of the remote side. -/
structure RemoteStreams where
  video : IdMap Ssrc := fun _ => none
  videoRtx : IdMap Ssrc := fun _ => none
  audio : IdMap Ssrc := fun _ => none
  data : IdMap Ssrc := fun _ => none
  reliable : IdMap Bool := fun _ => none

/-- The streams that `GetRemoteCapabilities` reads. A missing section changes nothing. -/
def getRemoteStreams (sdp : Text) (previous : RemoteStreams) : RemoteStreams where
  video := ((sectionTables .video sdp).map (·.streams .video)).getD previous.video
  videoRtx := ((sectionTables .video sdp).map (·.rtxStreams)).getD previous.videoRtx
  audio := ((sectionTables .audio sdp).map (·.streams .audio)).getD previous.audio
  data := ((sectionTables .data sdp).map (·.streams .data)).getD previous.data
  reliable := ((sectionTables .data sdp).map (·.reliability previous.reliable)).getD
    previous.reliable

/-- What the description of the fingerprint starts with. -/
def fingerprintTag : Text := "a=fingerprint".toList

/-- The text for the ICE agent: the video section without its streams, everything from the first
candidate on, and the last fingerprint line. -/
def mediaStreamSdp (sdp : Text) : Text :=
  let media := ((sectionTables .video sdp).map (·.block)).getD [] ++
    ((find candidateTag sdp).map (sdp.drop ·)).getD []
  match rfind fingerprintTag sdp with
  | some pos =>
      let line := (sdp.drop pos).takeWhile (· ≠ '\n')
      if media.getLast? = some '\n' then media ++ line else media ++ '\n' :: line
  | none => media

/-! ## The streams of a section -/

variable {kind : MediaKind} {ls ms : List Text}

@[simp] theorem name_entries_append (kind : MediaKind) (ls ms : List Text) :
    nameEntries kind (ls ++ ms) = nameEntries kind ls ++ nameEntries kind ms :=
  List.filterMap_append

@[simp] theorem group_entries_append (kind : MediaKind) (ls ms : List Text) :
    groupEntries kind (ls ++ ms) = groupEntries kind ls ++ groupEntries kind ms :=
  List.filterMap_append

@[simp] theorem reliable_entries_append (kind : MediaKind) (ls ms : List Text) :
    reliableEntries kind (ls ++ ms) = reliableEntries kind ls ++ reliableEntries kind ms :=
  List.filterMap_append

/-- Lines that stay in their section announce nothing. -/
theorem entries_of_kept (h : ∀ l ∈ ls, classify kind l = .kept) :
    nameEntries kind ls = [] ∧ groupEntries kind ls = [] ∧ reliableEntries kind ls = [] := by
  refine ⟨?_, ?_, ?_⟩ <;>
  · refine List.filterMap_eq_nil_iff.mpr ?_
    intro l hl
    rw [h l hl]

/-- A line that is not about an SSRC stays. -/
theorem classify_plain {line : Text} (hssrc : ¬ "a=ssrc".toList <+: line)
    (hreliable : ¬ "a=x-reliable-data:".toList <+: line) : classify kind line = .kept := by
  have hgroup : ¬ "a=ssrc-group:".toList <+: line := fun h =>
    hssrc (List.IsPrefix.trans (by decide) h)
  have hname : ¬ "a=ssrc:".toList <+: line := fun h =>
    hssrc (List.IsPrefix.trans (by decide) h)
  rw [classify, if_neg fun h => hgroup h.1, if_neg hname, if_neg fun h => hreliable h.1]

theorem classify_media_line (other : MediaKind) (port : Nat) (capability : Text) :
    classify kind (mediaHeader other.tag port ++ capability) = .kept := by
  obtain ⟨name, hname, -⟩ := tag_eq_cons other
  have hline : mediaHeader other.tag port ++ capability =
      'm' :: '=' :: (name ++ ' ' :: (decimal port ++ [' ']) ++ capability) := by
    rw [mediaHeader, hname, List.cons_append, List.cons_append, List.cons_append,
      List.cons_append]
  rw [hline]
  refine classify_plain ?_ ?_
  · intro h
    exact absurd (List.cons_prefix_cons.mp h).1 (by decide)
  · intro h
    exact absurd (List.cons_prefix_cons.mp h).1 (by decide)

/-- A body line stays. -/
theorem classify_body_line {line : Text} (h : IsBodyLine line) : classify kind line = .kept :=
  classify_plain h.noSsrc.1 h.noSsrc.2

/-- The streams of a section whose names are all different. -/
theorem streams_iff {entries : List (Ssrc × Text)} (hentries : nameEntries kind ls = entries)
    (hssrcs : (entries.map Prod.fst).Nodup) (hids : (entries.map Prod.snd).Nodup)
    (hnonempty : ∀ e ∈ entries, e.2 ≠ [])
    (hvisible : kind = .video → ∀ e ∈ entries,
      e.1 ∉ (ofEntries (groupEntries kind ls)).map Prod.snd) (id : Text) (ssrc : Ssrc) :
    (readTables kind ls).streams kind id = some ssrc ↔ (ssrc, id) ∈ entries := by
  rw [read_tables_eq, SsrcTables.streams, hentries]
  have hstream : ∀ e ∈ ofEntries entries, SsrcTables.streamOf
      { names := ofEntries entries
        reliable := ofEntries (reliableEntries kind ls)
        rtx := ofEntries (groupEntries kind ls)
        kept := ls.filter fun line => classify kind line = .kept } kind e = some e.2 := by
    intro e he
    have hmem := (mem_of_entries hssrcs).mp he
    rw [SsrcTables.streamOf, if_neg]
    rintro (⟨hkind, hrtx⟩ | hempty)
    · exact hvisible hkind e hmem hrtx
    · exact hnonempty e hmem hempty
  rw [fill_ids_iff]
  · constructor
    · rintro ⟨e, he, hid, rfl⟩
      rw [hstream e he, Option.some.injEq] at hid
      subst hid
      exact (mem_of_entries hssrcs).mp he
    · intro hmem
      have he := (mem_of_entries hssrcs).mpr hmem
      exact ⟨(ssrc, id), he, hstream _ he, rfl⟩
  · intro e he e' he' name hid hid'
    rw [hstream e he, Option.some.injEq] at hid
    rw [hstream e' he', Option.some.injEq] at hid'
    have heq : e = e' := List.inj_on_of_nodup_map hids ((mem_of_entries hssrcs).mp he)
      ((mem_of_entries hssrcs).mp he') (hid.trans hid'.symm)
    rw [heq]

/-- Values that a section announces for the SSRCs of its streams end up with their ids. -/
theorem fill_named_iff {α : Type} {names : List (Ssrc × Text)} {values : List (Ssrc × α)}
    (hnames : (names.map Prod.fst).Nodup) (hids : (names.map Prod.snd).Nodup)
    (hvalues : (values.map Prod.fst).Nodup) {look : Ssrc × α → Option Text}
    (hlook : ∀ e ∈ values, look e = (ofEntries names).get e.1) (id : Text) (value : α) :
    fillIds look Prod.snd (ofEntries values) (fun _ => none) id = some value ↔
      ∃ ssrc, (ssrc, id) ∈ names ∧ (ssrc, value) ∈ values := by
  have hget : ∀ e ∈ ofEntries values, ∀ name, look e = some name ↔ (e.1, name) ∈ names := by
    intro e he name
    rw [hlook e ((mem_of_entries hvalues).mp he), get_eq_some_iff (ordered_of_entries names),
      mem_of_entries hnames]
  rw [fill_ids_iff]
  · constructor
    · rintro ⟨e, he, hid, rfl⟩
      exact ⟨e.1, (hget e he id).mp hid, (mem_of_entries hvalues).mp he⟩
    · rintro ⟨ssrc, hname, hvalue⟩
      have he := (mem_of_entries hvalues).mpr hvalue
      exact ⟨(ssrc, value), he, (hget _ he id).mpr hname, rfl⟩
  · intro e he e' he' name hid hid'
    have hpair : (e.1, name) = (e'.1, name) := List.inj_on_of_nodup_map hids
      ((hget e he name).mp hid) ((hget e' he' name).mp hid') rfl
    have hssrc : e.1 = e'.1 := (Prod.mk.inj hpair).1
    rw [List.inj_on_of_nodup_map hvalues ((mem_of_entries hvalues).mp he)
      ((mem_of_entries hvalues).mp he') hssrc]

/-! ## The lines of the sender -/

/-- The names of streams, written with their own lines or in a section of another kind. -/
theorem name_entries_video {video : List VideoSender}
    (hids : ∀ v ∈ video, IsStreamId v.id)
    (hgroup : ∀ v ∈ video, v.ssrc ≠ 0 ∧ v.rtxSsrc ≠ 0 ∧ v.ssrc ≠ v.rtxSsrc)
    (includeVideoRtx : Bool) :
    nameEntries .video (video.flatMap (videoLines includeVideoRtx)) =
      video.map fun v => (v.ssrc, v.id) := by
  induction video with
  | nil => rfl
  | cons v video ih =>
      obtain ⟨hmedia, hrtx, hne⟩ := hgroup v List.mem_cons_self
      have hname := classify_name_line .video v.ssrc (hids v List.mem_cons_self).2.2
      have hline : nameEntries .video (videoLines includeVideoRtx v) = [(v.ssrc, v.id)] := by
        cases includeVideoRtx with
        | false => simp [videoLines, nameEntries, hname]
        | true =>
            simp [videoLines, nameEntries, hname, classify_group_line hmedia hrtx hne,
              classify_cname_line]
      rw [List.flatMap_cons, name_entries_append, hline,
        ih (fun w hw => hids w (List.mem_cons_of_mem _ hw))
          fun w hw => hgroup w (List.mem_cons_of_mem _ hw)]
      rfl

/-- The groups of the video streams. -/
theorem group_entries_video {video : List VideoSender}
    (hids : ∀ v ∈ video, IsStreamId v.id)
    (hgroup : ∀ v ∈ video, v.ssrc ≠ 0 ∧ v.rtxSsrc ≠ 0 ∧ v.ssrc ≠ v.rtxSsrc)
    (includeVideoRtx : Bool) :
    groupEntries .video (video.flatMap (videoLines includeVideoRtx)) =
      if includeVideoRtx then video.map fun v => (v.ssrc, v.rtxSsrc) else [] := by
  induction video with
  | nil => simp [groupEntries]
  | cons v video ih =>
      obtain ⟨hmedia, hrtx, hne⟩ := hgroup v List.mem_cons_self
      have hname := classify_name_line .video v.ssrc (hids v List.mem_cons_self).2.2
      rw [List.flatMap_cons, group_entries_append,
        ih (fun w hw => hids w (List.mem_cons_of_mem _ hw))
          fun w hw => hgroup w (List.mem_cons_of_mem _ hw)]
      cases includeVideoRtx with
      | false => simp [videoLines, groupEntries, hname]
      | true =>
          simp [videoLines, groupEntries, hname, classify_group_line hmedia hrtx hne,
            classify_cname_line]

theorem name_entries_audio (kind : MediaKind) {audio : List AudioSender}
    (hids : ∀ a ∈ audio, IsStreamId a.id) :
    nameEntries kind (audio.flatMap audioLines) = audio.map fun a => (a.ssrc, a.id) := by
  induction audio with
  | nil => rfl
  | cons a audio ih =>
      have hname := classify_name_line kind a.ssrc (hids a List.mem_cons_self).2.2
      rw [List.flatMap_cons, name_entries_append,
        ih fun b hb => hids b (List.mem_cons_of_mem _ hb)]
      simp [audioLines, nameEntries, hname]

theorem name_entries_data (kind : MediaKind) {data : List DataSender}
    (hids : ∀ d ∈ data, IsStreamId d.id) :
    nameEntries kind (data.flatMap dataLines) = data.map fun d => (d.ssrc, d.id) := by
  induction data with
  | nil => rfl
  | cons d data ih =>
      have hname := classify_name_line kind d.ssrc (hids d List.mem_cons_self).2.2
      have hreliable : nameEntries kind [reliableLine d.ssrc d.reliable] = [] := by
        by_cases hkind : kind = .data
        · subst hkind
          simp [nameEntries, classify_reliable_line]
        · simp [nameEntries, classify_reliable_line_kept hkind]
      rw [List.flatMap_cons, name_entries_append,
        ih fun e he => hids e (List.mem_cons_of_mem _ he), dataLines,
        ← List.singleton_append, name_entries_append, hreliable]
      simp [nameEntries, hname]

/-- The reliability flags of the data streams. -/
theorem reliable_entries_data {data : List DataSender} (hids : ∀ d ∈ data, IsStreamId d.id) :
    reliableEntries .data (data.flatMap dataLines) = data.map fun d => (d.ssrc, d.reliable) := by
  induction data with
  | nil => rfl
  | cons d data ih =>
      have hname := classify_name_line .data d.ssrc (hids d List.mem_cons_self).2.2
      rw [List.flatMap_cons, reliable_entries_append,
        ih fun e he => hids e (List.mem_cons_of_mem _ he)]
      simp [dataLines, reliableEntries, hname, classify_reliable_line]

/-- Only the stream lines of a section announce anything. -/
theorem entries_of_section (kind other : MediaKind) {s : Section} {plan : MediaPlan}
    (hbody : ∀ l ∈ s.body, IsBodyLine l) (streams : List Text) :
    nameEntries kind (sectionLines other s plan streams) = nameEntries kind streams ∧
      groupEntries kind (sectionLines other s plan streams) = groupEntries kind streams ∧
      reliableEntries kind (sectionLines other s plan streams) =
        reliableEntries kind streams := by
  have hkept : ∀ l ∈ (mediaHeader other.tag s.port ++ plan.capability) :: (s.body ++ plan.extra),
      classify kind l = .kept := by
    intro l hl
    simp only [List.mem_cons, List.mem_append] at hl
    rcases hl with rfl | hl | hl
    · exact classify_media_line _ _ _
    · exact classify_body_line (hbody l hl)
    · exact classify_body_line (plan.extraLines l hl).1
  obtain ⟨hname, hgroup, hreliable⟩ := entries_of_kept hkept
  have hsplit : sectionLines other s plan streams =
      ((mediaHeader other.tag s.port ++ plan.capability) :: (s.body ++ plan.extra)) ++ streams := by
    simp only [sectionLines, List.cons_append, List.append_assoc]
  rw [hsplit]
  refine ⟨?_, ?_, ?_⟩
  · rw [name_entries_append, hname, List.nil_append]
  · rw [group_entries_append, hgroup, List.nil_append]
  · rw [reliable_entries_append, hreliable, List.nil_append]

end IceTransport

end MiniRtc

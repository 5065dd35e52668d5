import MiniRtc.Transport.SsrcLines

/-!
# The local session description

The ICE agent produces a base description with one section for each kind of media.
`ConfigureMediaSection` replaces the `ICE/SDP` placeholder of a media line by the capabilities and
adds attribute lines at the end of the section. Both work on offsets into the whole text; this
module says what they do to the lines.
-/

namespace MiniRtc

open Text

namespace IceTransport

/-! ## The functions of the source -/

/-- `GetMediaSection`. -/
def getMediaSection (sdp tag : Text) : Text :=
  match find tag sdp with
  | none => []
  | some start =>
      match findFrom "\nm=".toList sdp (start + 1) with
      | none => sdp.drop start
      | some stop => (sdp.drop start).take (stop - start)

/-- `ConfigureMediaSection`. -/
def configureMediaSection (sdp tag capability attributes : Text) : Text :=
  match find tag sdp with
  | none => sdp
  | some start =>
      let mediaLineEnd := (findFrom ['\n'] sdp start).getD sdp.length
      let sdp :=
        match findFrom "ICE/SDP".toList sdp start with
        | some pos =>
            if pos < mediaLineEnd then
              sdp.take pos ++ capability ++ sdp.drop (pos + "ICE/SDP".length)
            else sdp
        | none => sdp
      match findFrom "\nm=".toList sdp (start + 1) with
      | none => sdp ++ attributes
      | some next => sdp.take (next + 1) ++ attributes ++ sdp.drop (next + 1)

/-! ## Sections as lines -/

/-- A section of the base description: the port of its media line and its other lines. -/
structure Section where
  port : Nat
  body : List Text

/-- The beginning of a media line, up to the capabilities or their placeholder. -/
def mediaHeader (tag : Text) (port : Nat) : Text :=
  tag ++ ' ' :: (decimal port ++ [' '])

/-- What the lines of a candidate start with. -/
def candidateTag : Text := "a=candidate".toList

/-- A line inside a section. It starts no section and hides none, it is not about an SSRC, and a
candidate stands at its beginning. -/
structure IsBodyLine (line : Text) : Prop where
  unbroken : '\n' ∉ line
  noMedia : ¬ "m=".toList <+: line
  hidesNone : ∀ kind : MediaKind, ¬ kind.tag <:+: line
  noSsrc : ¬ "a=ssrc".toList <+: line ∧ ¬ "a=x-reliable-data:".toList <+: line
  candidateFirst : candidateTag <:+: line → candidateTag <+: line

instance (line : Text) : Decidable (IsBodyLine line) :=
  decidable_of_iff ('\n' ∉ line ∧ ¬ "m=".toList <+: line ∧
      (¬ MediaKind.video.tag <:+: line ∧ ¬ MediaKind.audio.tag <:+: line ∧
        ¬ MediaKind.data.tag <:+: line) ∧
      (¬ "a=ssrc".toList <+: line ∧ ¬ "a=x-reliable-data:".toList <+: line) ∧
      (candidateTag <:+: line → candidateTag <+: line))
    ⟨fun ⟨hunbroken, hmedia, ⟨hvideo, haudio, hdata⟩, hssrc, hcandidate⟩ =>
      ⟨hunbroken, hmedia, fun kind => by cases kind <;> assumption, hssrc, hcandidate⟩,
    fun h => ⟨h.unbroken, h.noMedia, ⟨h.hidesNone .video, h.hidesNone .audio, h.hidesNone .data⟩,
      h.noSsrc, h.candidateFirst⟩⟩

/-- No lines are plain lines. -/
theorem no_lines_plain : ∀ l ∈ ([] : List Text), IsBodyLine l ∧ ¬ candidateTag <+: l :=
  fun _ h => nomatch h

/-- The base description of the ICE agent. -/
structure BaseDescription where
  session : List Text
  video : Section
  audio : Section
  data : Section
  sessionLines : ∀ l ∈ session, IsBodyLine l ∧ ¬ candidateTag <+: l
  videoLines : ∀ l ∈ video.body, IsBodyLine l
  audioLines : ∀ l ∈ audio.body, IsBodyLine l
  dataLines : ∀ l ∈ data.body, IsBodyLine l

/-- The text of a section in the base description. -/
def Section.text (s : Section) (kind : MediaKind) : Text :=
  mediaHeader kind.tag s.port ++ ("ICE/SDP".toList ++ '\n' :: unlines s.body)

/-- The text of the base description. -/
def BaseDescription.text (base : BaseDescription) : Text :=
  unlines base.session ++
    (base.video.text .video ++ (base.audio.text .audio ++ base.data.text .data))

/-- What a section announces besides its streams: the capabilities of its media line and the
attribute lines before those of the streams. -/
structure MediaPlan where
  capability : Text
  extra : List Text
  plainCapability : '\n' ∉ capability ∧ '=' ∉ capability
  extraLines : ∀ l ∈ extra, IsBodyLine l ∧ ¬ candidateTag <+: l

/-- The plans of the three sections, and the lines that follow them, such as the fingerprint. -/
structure SessionPlan where
  includeVideoRtx : Bool
  video : MediaPlan
  audio : MediaPlan
  data : MediaPlan
  trailer : List Text
  trailerLines : ∀ l ∈ trailer, IsBodyLine l ∧ ¬ candidateTag <+: l

/-- The base with its three sections configured. -/
def localDescription (base : BaseDescription) (plan : SessionPlan) (streams : LocalStreams) :
    Text :=
  let videoAttributes :=
    appendVideoAttributes plan.includeVideoRtx streams.video (unlines plan.video.extra)
  let audioAttributes := appendAudioAttributes streams.audio (unlines plan.audio.extra)
  let dataAttributes := appendDataAttributes streams.data (unlines plan.data.extra)
  let sdp := configureMediaSection base.text MediaKind.video.tag plan.video.capability
    videoAttributes
  let sdp := configureMediaSection sdp MediaKind.audio.tag plan.audio.capability audioAttributes
  configureMediaSection sdp MediaKind.data.tag plan.data.capability dataAttributes

/-- The description that is sent. -/
def sentDescription (base : BaseDescription) (plan : SessionPlan) (streams : LocalStreams) :
    Text :=
  localDescription base plan streams ++ unlines plan.trailer

variable {tag capability attributes rest line : Text} {before body : List Text} {port : Nat}

theorem tag_starts (kind : MediaKind) : "m=".toList <+: kind.tag := by
  cases kind <;> decide

theorem tag_unbroken (kind : MediaKind) : '\n' ∉ kind.tag := by
  cases kind <;> decide

/-- What follows a section: nothing, or the media line of the next one. -/
def StartsSection (rest : Text) : Prop :=
  rest = [] ∨ "m=".toList <+: rest

/-- The end of a section, as the search for the next media line sees it. -/
theorem find_next_section (hline : '\n' ∉ line)
    (hbody : ∀ l ∈ body, '\n' ∉ l ∧ ¬ "m=".toList <+: l) (hrest : StartsSection rest) :
    find "\nm=".toList (line ++ '\n' :: (unlines body ++ rest)) =
      if rest = [] then none else some (line.length + (unlines body).length) := by
  have hsplit : "\nm=".toList = '\n' :: "m=".toList := rfl
  rw [hsplit, find_line_start hline (fun l hl => (hbody l hl).1) (by decide)
    fun l hl => (hbody l hl).2]
  rcases hrest with rfl | hstart
  · rfl
  · have hne : rest ≠ [] := by
      rintro rfl
      simp at hstart
    rw [if_pos hstart, if_neg hne]

theorem header_unbroken (kind : MediaKind) (port : Nat) : '\n' ∉ mediaHeader kind.tag port := by
  have hport : '\n' ∉ decimal port := not_mem_decimal rfl port
  simp [mediaHeader, tag_unbroken kind, hport]

/-- The rest of a media line with its placeholder replaced. -/
def placeCapability (capability line : Text) : Text :=
  match find "ICE/SDP".toList line with
  | some pos => line.take pos ++ capability ++ line.drop (pos + "ICE/SDP".length)
  | none => line

theorem place_unbroken (hcapability : '\n' ∉ capability) (hline : '\n' ∉ line) :
    '\n' ∉ placeCapability capability line := by
  unfold placeCapability
  cases find "ICE/SDP".toList line with
  | none => exact hline
  | some pos =>
      simp only [List.mem_append, not_or]
      exact ⟨⟨fun h => hline (List.mem_of_mem_take h), hcapability⟩,
        fun h => hline (List.mem_of_mem_drop h)⟩

/-- The placeholder is only replaced in the line of the tag. -/
theorem place_in_line (kind : MediaKind) (capability pre line after : Text) :
    (match findFrom "ICE/SDP".toList (pre ++ (kind.tag ++ (line ++ '\n' :: after))) pre.length with
      | some pos =>
          if pos < kind.tag.length + line.length + pre.length then
            (pre ++ (kind.tag ++ (line ++ '\n' :: after))).take pos ++ capability ++
              (pre ++ (kind.tag ++ (line ++ '\n' :: after))).drop (pos + "ICE/SDP".length)
          else pre ++ (kind.tag ++ (line ++ '\n' :: after))
      | none => pre ++ (kind.tag ++ (line ++ '\n' :: after))) =
      pre ++ (kind.tag ++ (placeCapability capability line ++ '\n' :: after)) := by
  have htag : 'I' ∉ kind.tag := by cases kind <;> decide
  have hpattern : "ICE/SDP".toList = 'I' :: "CE/SDP".toList := rfl
  have hfind : findFrom "ICE/SDP".toList (pre ++ (kind.tag ++ (line ++ '\n' :: after))) pre.length =
      (find "ICE/SDP".toList (line ++ '\n' :: after)).map
        fun pos => pos + kind.tag.length + pre.length := by
    rw [find_from_of_le (by simp), List.drop_left, hpattern, find_skip htag, Option.map_map]
    rfl
  rw [hfind, placeCapability]
  cases hplace : find "ICE/SDP".toList line with
  | none =>
      rw [find_skip_line (by decide) (find_eq_none_iff.mp hplace), Option.map_map]
      cases find "ICE/SDP".toList after with
      | none => rfl
      | some pos => exact if_neg (by simp only [Function.comp_apply]; omega)
  | some pos =>
      have hfits : pos + "ICE/SDP".length ≤ line.length := by
        have hfit := (prefix_of_find hplace).length_le
        have hlength : "ICE/SDP".toList.length = "ICE/SDP".length := rfl
        have hlong : "ICE/SDP".length = 7 := rfl
        rw [List.length_drop, hlength] at hfit
        omega
      have hlong : "ICE/SDP".length = 7 := rfl
      have htake : pos + kind.tag.length + pre.length = pre.length + (kind.tag.length + pos) := by
        omega
      have hdrop : pos + kind.tag.length + pre.length + "ICE/SDP".length =
          pre.length + (kind.tag.length + (pos + "ICE/SDP".length)) := by
        omega
      rw [find_append_of_some hplace, Option.map_some]
      show (if _ then _ else _) = _
      rw [if_pos (by omega), hdrop, htake, List.take_length_add_append, List.drop_length_add_append,
        List.take_length_add_append, List.drop_length_add_append,
        List.take_append_of_le_length (by omega), List.drop_append_of_le_length hfits]
      simp only [List.append_assoc]

/-- A section that is found gets its capabilities, and lines at its end. -/
theorem configure_found (kind : MediaKind) (attributes : Text) {pre : Text}
    (hfind : find kind.tag (pre ++ (kind.tag ++ (line ++ '\n' :: (unlines body ++ rest)))) =
      some pre.length) (hline : '\n' ∉ line) (hcapability : '\n' ∉ capability)
    (hbody : ∀ l ∈ body, '\n' ∉ l ∧ ¬ "m=".toList <+: l) (hrest : StartsSection rest) :
    configureMediaSection (pre ++ (kind.tag ++ (line ++ '\n' :: (unlines body ++ rest)))) kind.tag
        capability attributes =
      pre ++ (kind.tag ++ (placeCapability capability line ++
        '\n' :: (unlines body ++ (attributes ++ rest)))) := by
  have htag := tag_unbroken kind
  have hend : findFrom ['\n'] (pre ++ (kind.tag ++ (line ++ '\n' :: (unlines body ++ rest))))
      pre.length = some (kind.tag.length + line.length + pre.length) := by
    rw [find_from_of_le (by simp), List.drop_left, ← List.append_assoc,
      find_char (by simp [htag, hline])]
    simp
  have hplaced := place_in_line kind capability pre line (unlines body ++ rest)
  have hunbroken := place_unbroken hcapability hline
  unfold configureMediaSection
  simp only [hfind, hend, Option.getD_some]
  refine (congrArg (fun sdp => match findFrom "\nm=".toList sdp (pre.length + 1) with
    | none => sdp ++ attributes
    | some next => sdp.take (next + 1) ++ attributes ++ sdp.drop (next + 1)) hplaced).trans ?_
  generalize placeCapability capability line = placed at hunbroken
  obtain ⟨c, name, hcons⟩ : ∃ c name, kind.tag = c :: name := by
    cases kind <;> exact ⟨_, _, rfl⟩
  have hname : '\n' ∉ name ++ placed := by
    simp only [hcons, List.mem_cons, not_or] at htag
    simp only [List.mem_append, not_or]
    exact ⟨htag.2, hunbroken⟩
  have hnext : findFrom "\nm=".toList (pre ++ (kind.tag ++ (placed ++
      '\n' :: (unlines body ++ rest)))) (pre.length + 1) =
      if rest = [] then none
      else some (name.length + placed.length + (unlines body).length + (pre.length + 1)) := by
    rw [find_from_of_le (by simp [hcons]), List.drop_length_add_append, hcons, List.cons_append,
      List.drop_one, List.tail_cons, ← List.append_assoc,
      find_next_section hname hbody hrest, List.length_append]
    split_ifs <;> rfl
  have hlength : name.length + placed.length + (unlines body).length + (pre.length + 1) + 1 =
      (pre ++ (kind.tag ++ (placed ++ '\n' :: unlines body))).length := by
    simp only [hcons, List.length_append, List.length_cons]
    omega
  have hsplit : pre ++ (kind.tag ++ (placed ++ '\n' :: (unlines body ++ rest))) =
      pre ++ (kind.tag ++ (placed ++ '\n' :: unlines body)) ++ rest := by
    simp only [List.append_assoc, List.cons_append]
  rw [hnext]
  by_cases hempty : rest = []
  · rw [if_pos hempty, hempty]
    simp only [List.append_assoc, List.cons_append, List.append_nil]
  · rw [if_neg hempty]
    show List.take _ _ ++ attributes ++ List.drop _ _ = _
    rw [hlength, hsplit, List.take_left, List.drop_left]
    simp only [List.append_assoc, List.cons_append]

/-- A section with its placeholder replaced and lines added at its end. -/
theorem configure_section (kind : MediaKind) (hbefore : ∀ l ∈ before, ¬ kind.tag <:+: l)
    (hbody : ∀ l ∈ body, '\n' ∉ l ∧ ¬ "m=".toList <+: l) (hrest : StartsSection rest)
    (hcapability : '\n' ∉ capability) :
    configureMediaSection (unlines before ++ (mediaHeader kind.tag port ++
        ("ICE/SDP".toList ++ '\n' :: (unlines body ++ rest)))) kind.tag capability attributes =
      unlines before ++ (mediaHeader kind.tag port ++
        (capability ++ '\n' :: (unlines body ++ (attributes ++ rest)))) := by
  have hbreak : '\n' ∉ decimal port := not_mem_decimal rfl port
  have hport : 'I' ∉ ' ' :: (decimal port ++ [' ']) := by
    have hdigits : 'I' ∉ decimal port := not_mem_decimal rfl port
    simp [hdigits]
  have hline : '\n' ∉ ' ' :: (decimal port ++ [' ']) ++ "ICE/SDP".toList := by
    simp only [List.mem_append, List.mem_cons, List.not_mem_nil, not_or, or_false]
    exact ⟨⟨by decide, hbreak, by decide⟩, by decide⟩
  have hplace : placeCapability capability (' ' :: (decimal port ++ [' ']) ++ "ICE/SDP".toList) =
      ' ' :: (decimal port ++ [' ']) ++ capability := by
    have hpattern : "ICE/SDP".toList = 'I' :: "CE/SDP".toList := rfl
    have hfind : find "ICE/SDP".toList (' ' :: (decimal port ++ [' ']) ++ "ICE/SDP".toList) =
        some (' ' :: (decimal port ++ [' '])).length := by
      conv_lhs => rw [hpattern]
      rw [find_skip hport, ← hpattern, find_of_prefix (List.prefix_refl _)]
      simp
    have hlength : "ICE/SDP".length = "ICE/SDP".toList.length := rfl
    rw [placeCapability, hfind]
    show List.take _ _ ++ capability ++ List.drop _ _ = _
    rw [List.take_left, hlength, ← List.length_append, List.drop_length, List.append_nil]
  have hfind : find kind.tag (unlines before ++ (kind.tag ++ (' ' :: (decimal port ++ [' ']) ++
      "ICE/SDP".toList ++ '\n' :: (unlines body ++ rest)))) = some (unlines before).length := by
    rw [find_skip_lines (tag_unbroken kind) hbefore, find_of_prefix (List.prefix_append _ _)]
    simp
  have hfound := configure_found kind attributes hfind hline hcapability hbody hrest
  rw [hplace] at hfound
  simpa only [mediaHeader, List.append_assoc, List.cons_append] using hfound

/-! ## The lines of the streams -/

/-- The SSRCs of a video stream can be grouped. -/
theorem groupable (streams : LocalStreams) {v : VideoSender}
    (hv : v ∈ streams.video) : v.ssrc ≠ 0 ∧ v.rtxSsrc ≠ 0 ∧ v.ssrc ≠ v.rtxSsrc := by
  have hnonzero := streams.nonzero
  have hdistinct := streams.distinct
  simp only [List.mem_append, not_or] at hnonzero
  refine ⟨?_, ?_, ?_⟩
  · intro hzero
    exact hnonzero.1.1.1 (List.mem_map.mpr ⟨v, hv, hzero⟩)
  · intro hzero
    exact hnonzero.1.1.2 (List.mem_map.mpr ⟨v, hv, hzero⟩)
  · rw [List.append_assoc, List.append_assoc] at hdistinct
    exact (List.nodup_append.mp hdistinct).2.2 _ (List.mem_map_of_mem hv) _
      (List.mem_append_left _ (List.mem_map_of_mem hv))

/-- The lines of a video stream. -/
def videoLines (includeVideoRtx : Bool) (v : VideoSender) : List Text :=
  nameLine v.ssrc v.id ::
    if includeVideoRtx then [groupLine v.ssrc v.rtxSsrc, cnameLine v.rtxSsrc v.id] else []

/-- The lines of an audio stream. -/
def audioLines (a : AudioSender) : List Text :=
  [nameLine a.ssrc a.id]

/-- The lines of a data stream. -/
def dataLines (d : DataSender) : List Text :=
  [nameLine d.ssrc d.id, reliableLine d.ssrc d.reliable]

theorem append_video_attributes (streams : LocalStreams) (includeVideoRtx : Bool)
    (attributes : Text) :
    appendVideoAttributes includeVideoRtx streams.video attributes =
      attributes ++ unlines (streams.video.flatMap (videoLines includeVideoRtx)) := by
  have hgroup : ∀ v ∈ streams.video, v.ssrc ≠ 0 ∧ v.rtxSsrc ≠ 0 ∧ v.ssrc ≠ v.rtxSsrc :=
    fun v hv => groupable streams hv
  generalize streams.video = video at hgroup
  unfold appendVideoAttributes
  induction video generalizing attributes with
  | nil => simp
  | cons v video ih =>
      obtain ⟨hmedia, hrtx, hne⟩ := hgroup v List.mem_cons_self
      rw [List.foldl_cons, ih _ fun w hw => hgroup w (List.mem_cons_of_mem _ hw)]
      cases includeVideoRtx with
      | false => simp [videoLines]
      | true =>
          have hboth : ¬ (v.ssrc = 0 ∨ v.rtxSsrc = 0 ∨ v.ssrc = v.rtxSsrc) := by
            rintro (h | h | h)
            · exact hmedia h
            · exact hrtx h
            · exact hne h
          rw [if_pos rfl, buildRtxSsrcAttributes, if_neg hboth]
          simp [videoLines]

theorem append_audio_attributes (audio : List AudioSender) (attributes : Text) :
    appendAudioAttributes audio attributes =
      attributes ++ unlines (audio.flatMap audioLines) := by
  unfold appendAudioAttributes
  induction audio generalizing attributes with
  | nil => simp
  | cons a audio ih =>
      rw [List.foldl_cons, ih]
      simp [audioLines]

theorem append_data_attributes (data : List DataSender) (attributes : Text) :
    appendDataAttributes data attributes = attributes ++ unlines (data.flatMap dataLines) := by
  unfold appendDataAttributes
  induction data generalizing attributes with
  | nil => simp
  | cons d data ih =>
      rw [List.foldl_cons, ih]
      simp [dataLines]

/-! ## What the lines hide -/

/-- A pattern that the fixed parts of the stream lines do not contain. -/
structure IsSectionMark (p : Text) : Prop where
  colon : ':' ∉ p
  equals : '=' ∈ p
  ssrc : ¬ p <:+: "a=ssrc".toList
  group : ¬ p <:+: "a=ssrc-group".toList
  reliable : ¬ p <:+: "a=x-reliable-data".toList

theorem tag_is_mark (kind : MediaKind) : IsSectionMark kind.tag := by
  cases kind <;> exact ⟨by decide, by decide, by decide, by decide, by decide⟩

theorem candidate_is_mark : IsSectionMark candidateTag :=
  ⟨by decide, by decide, by decide, by decide, by decide⟩

variable {p id : Text}

/-- A line about an SSRC hides a mark only behind its last colon. -/
theorem mark_in_ssrc_line (hp : IsSectionMark p) (n : Nat) {field : Text} (hfield : '=' ∉ field) :
    p <:+: "a=ssrc".toList ++ ':' :: (decimal n ++ field ++ ':' :: id) ↔ p <:+: id := by
  have hmiddle : ¬ p <:+: decimal n ++ field := by
    have hnumber : '=' ∉ decimal n := not_mem_decimal rfl _
    exact not_infix_of_not_mem hp.equals (by simp [hnumber, hfield])
  rw [infix_append_cons hp.colon, infix_append_cons hp.colon]
  simp only [hp.ssrc, hmiddle, false_or]

theorem mark_in_name_line (hp : IsSectionMark p) (ssrc : Ssrc) :
    p <:+: nameLine ssrc id ↔ p <:+: id := by
  have hsplit : nameLine ssrc id =
      "a=ssrc".toList ++ ':' :: (decimal ssrc.toNat ++ " name".toList ++ ':' :: id) := by
    have hfirst : "a=ssrc:".toList = "a=ssrc".toList ++ [':'] := rfl
    have hsecond : " name:".toList = " name".toList ++ [':'] := rfl
    unfold nameLine
    rw [hfirst, hsecond]
    simp only [List.append_assoc, List.cons_append, List.nil_append]
  rw [hsplit, mark_in_ssrc_line hp _ (by decide)]

theorem mark_in_cname_line (hp : IsSectionMark p) (ssrc : Ssrc) :
    p <:+: cnameLine ssrc id ↔ p <:+: id := by
  have hsplit : cnameLine ssrc id =
      "a=ssrc".toList ++ ':' :: (decimal ssrc.toNat ++ " cname".toList ++ ':' :: id) := by
    have hfirst : "a=ssrc:".toList = "a=ssrc".toList ++ [':'] := rfl
    have hsecond : " cname:".toList = " cname".toList ++ [':'] := rfl
    unfold cnameLine
    rw [hfirst, hsecond]
    simp only [List.append_assoc, List.cons_append, List.nil_append]
  rw [hsplit, mark_in_ssrc_line hp _ (by decide)]

theorem mark_not_in_group_line (hp : IsSectionMark p) (mediaSsrc rtxSsrc : Ssrc) :
    ¬ p <:+: groupLine mediaSsrc rtxSsrc := by
  have hsplit : groupLine mediaSsrc rtxSsrc = "a=ssrc-group".toList ++
      ':' :: ("FID ".toList ++ (decimal mediaSsrc.toNat ++ (" ".toList ++
        decimal rtxSsrc.toNat))) := by
    have hstart : "a=ssrc-group:FID ".toList =
        "a=ssrc-group".toList ++ ':' :: "FID ".toList := rfl
    unfold groupLine
    rw [hstart]
    simp only [List.append_assoc, List.cons_append]
  have hmedia : '=' ∉ decimal mediaSsrc.toNat := not_mem_decimal rfl _
  have hrtx : '=' ∉ decimal rtxSsrc.toNat := not_mem_decimal rfl _
  rw [hsplit, infix_append_cons hp.colon]
  rintro (h | h)
  · exact hp.group h
  · refine not_infix_of_not_mem hp.equals ?_ h
    simp only [List.mem_append, not_or]
    exact ⟨by decide, hmedia, by decide, hrtx⟩

theorem mark_not_in_reliable_line (hp : IsSectionMark p) (ssrc : Ssrc) (reliable : Bool) :
    ¬ p <:+: reliableLine ssrc reliable := by
  have hsplit : reliableLine ssrc reliable = "a=x-reliable-data".toList ++
      ':' :: (decimal ssrc.toNat ++ (" ".toList ++ (if reliable then "1" else "0").toList)) := by
    have hstart : "a=x-reliable-data:".toList = "a=x-reliable-data".toList ++ [':'] := rfl
    unfold reliableLine
    rw [hstart]
    simp only [List.append_assoc, List.cons_append, List.nil_append]
  have hssrc : '=' ∉ decimal ssrc.toNat := not_mem_decimal rfl _
  rw [hsplit, infix_append_cons hp.colon]
  rintro (h | h)
  · exact hp.reliable h
  · refine not_infix_of_not_mem hp.equals ?_ h
    simp only [List.mem_append, not_or]
    exact ⟨hssrc, by decide, by cases reliable <;> decide⟩

theorem tag_eq_cons (kind : MediaKind) :
    ∃ name, kind.tag = 'm' :: '=' :: name ∧ '=' ∉ name := by
  cases kind
  · exact ⟨"video".toList, rfl, by decide⟩
  · exact ⟨"audio".toList, rfl, by decide⟩
  · exact ⟨"data".toList, rfl, by decide⟩

/-- In a media line the equals sign is the second character. -/
theorem mark_in_media_line {d : Char} {q : Text} (kind : MediaKind) (port : Nat)
    (hcapability : '=' ∉ capability) (hd : d ≠ '=')
    (h : d :: '=' :: q <:+: mediaHeader kind.tag port ++ capability) :
    d :: '=' :: q <+: mediaHeader kind.tag port ++ capability := by
  have hport : '=' ∉ decimal port := not_mem_decimal rfl _
  obtain ⟨name, hname, hequals⟩ := tag_eq_cons kind
  have hline : mediaHeader kind.tag port ++ capability =
      'm' :: '=' :: (name ++ ' ' :: (decimal port ++ [' ']) ++ capability) := by
    rw [mediaHeader, hname, List.cons_append, List.cons_append, List.cons_append,
      List.cons_append]
  have hrest : '=' ∉ name ++ ' ' :: (decimal port ++ [' ']) ++ capability := by
    simp only [List.mem_append, List.mem_cons, List.not_mem_nil, not_or, or_false]
    exact ⟨⟨hequals, by decide, hport, by decide⟩, hcapability⟩
  rw [hline] at h ⊢
  exact starts_of_contains hd hrest h

theorem tag_not_in_media_line {kind other : MediaKind} (port : Nat) (hne : other ≠ kind)
    (hcapability : '=' ∉ capability) :
    ¬ other.tag <:+: mediaHeader kind.tag port ++ capability := by
  intro h
  obtain ⟨name, hname, -⟩ := tag_eq_cons other
  have hstart : other.tag <+: kind.tag ++ (' ' :: (decimal port ++ [' ']) ++ capability) := by
    rw [hname] at h ⊢
    have hstart := mark_in_media_line kind port hcapability (by decide) h
    rwa [mediaHeader, List.append_assoc] at hstart
  -- The tags differ in their third character.
  obtain ⟨rest, hrest⟩ := hstart
  have htake := congrArg (List.take 3) hrest
  rw [List.take_append_of_le_length (by cases other <;> decide),
    List.take_append_of_le_length (by cases kind <;> decide)] at htake
  cases kind <;> cases other <;> first
    | exact hne rfl
    | exact absurd htake (by decide)

theorem candidate_not_in_media_line (kind : MediaKind) (port : Nat)
    (hcapability : '=' ∉ capability) :
    ¬ candidateTag <:+: mediaHeader kind.tag port ++ capability := by
  intro h
  have hsplit : candidateTag = 'a' :: '=' :: "candidate".toList := rfl
  obtain ⟨name, hname, -⟩ := tag_eq_cons kind
  rw [hsplit] at h
  have hstart := mark_in_media_line kind port hcapability (by decide) h
  rw [mediaHeader, hname] at hstart
  have hhead := (List.cons_prefix_cons.mp hstart).1
  exact absurd hhead (by decide)

/-! ## The description as lines -/

/-- The lines of a configured section. -/
def sectionLines (kind : MediaKind) (s : Section) (plan : MediaPlan) (streams : List Text) :
    List Text :=
  (mediaHeader kind.tag s.port ++ plan.capability) :: (s.body ++ (plan.extra ++ streams))

variable (base : BaseDescription) (plan : SessionPlan) (streams : LocalStreams)

/-- The lines of the video section. -/
def videoSection : List Text :=
  sectionLines .video base.video plan.video
    (streams.video.flatMap (videoLines plan.includeVideoRtx))

/-- The lines of the audio section. -/
def audioSection : List Text :=
  sectionLines .audio base.audio plan.audio (streams.audio.flatMap audioLines)

/-- The lines of the data section. -/
def dataSection : List Text :=
  sectionLines .data base.data plan.data (streams.data.flatMap dataLines)

/-- No stream id hides the tag of a section that follows. -/
structure HidesNoSection : Prop where
  video : ∀ v ∈ streams.video,
    ¬ MediaKind.audio.tag <:+: v.id ∧ ¬ MediaKind.data.tag <:+: v.id
  audio : ∀ a ∈ streams.audio, ¬ MediaKind.data.tag <:+: a.id

variable {base plan streams}

/-- A mark in the lines of the video streams is hidden in an id. -/
theorem mark_in_video_lines (hp : IsSectionMark p) {includeVideoRtx : Bool} {v : VideoSender}
    {l : Text} (hl : l ∈ videoLines includeVideoRtx v) (h : p <:+: l) : p <:+: v.id := by
  cases includeVideoRtx with
  | false =>
      obtain rfl := List.mem_singleton.mp hl
      exact (mark_in_name_line hp _).mp h
  | true =>
      simp only [videoLines, if_pos, List.mem_cons, List.not_mem_nil, or_false] at hl
      rcases hl with rfl | rfl | rfl
      · exact (mark_in_name_line hp _).mp h
      · exact absurd h (mark_not_in_group_line hp _ _)
      · exact (mark_in_cname_line hp _).mp h

theorem mark_in_audio_lines (hp : IsSectionMark p) {a : AudioSender} {l : Text}
    (hl : l ∈ audioLines a) (h : p <:+: l) : p <:+: a.id := by
  obtain rfl := List.mem_singleton.mp hl
  exact (mark_in_name_line hp _).mp h

theorem mark_in_data_lines (hp : IsSectionMark p) {d : DataSender} {l : Text}
    (hl : l ∈ dataLines d) (h : p <:+: l) : p <:+: d.id := by
  simp only [dataLines, List.mem_cons, List.not_mem_nil, or_false] at hl
  rcases hl with rfl | rfl
  · exact (mark_in_name_line hp _).mp h
  · exact absurd h (mark_not_in_reliable_line hp _ _)

/-- A mark that is absent from the base and the plan can only be hidden in an id. -/
theorem mark_in_section {kind : MediaKind} {s : Section} {plan : MediaPlan} {streams : List Text}
    (hline : ¬ p <:+: mediaHeader kind.tag s.port ++ plan.capability)
    (hbody : ∀ l ∈ s.body, ¬ p <:+: l) (hextra : ∀ l ∈ plan.extra, ¬ p <:+: l)
    (hstreams : ∀ l ∈ streams, ¬ p <:+: l) :
    ∀ l ∈ sectionLines kind s plan streams, ¬ p <:+: l := by
  intro l hl
  simp only [sectionLines, List.mem_cons, List.mem_append] at hl
  rcases hl with rfl | hl | hl | hl
  · exact hline
  · exact hbody l hl
  · exact hextra l hl
  · exact hstreams l hl

/-- The media line comes first in the text of a section. -/
theorem section_text_append (kind : MediaKind) (s : Section) (rest : Text) :
    s.text kind ++ rest =
      mediaHeader kind.tag s.port ++ ("ICE/SDP".toList ++ '\n' :: (unlines s.body ++ rest)) := by
  simp only [Section.text, List.append_assoc, List.cons_append]

theorem section_text_starts (kind : MediaKind) (s : Section) (rest : Text) :
    StartsSection (s.text kind ++ rest) := by
  refine Or.inr ((tag_starts kind).trans ?_)
  rw [section_text_append, mediaHeader, List.append_assoc]
  exact List.prefix_append _ _

/-- Configuring a section of the base turns it into its lines. -/
theorem configure_section_lines (kind : MediaKind) {s : Section} {plan : MediaPlan}
    {streams : List Text} (hbefore : ∀ l ∈ before, ¬ kind.tag <:+: l)
    (hbody : ∀ l ∈ s.body, IsBodyLine l) (hrest : StartsSection rest) :
    configureMediaSection (unlines before ++ (s.text kind ++ rest)) kind.tag plan.capability
        (unlines plan.extra ++ unlines streams) =
      unlines (before ++ sectionLines kind s plan streams) ++ rest := by
  rw [section_text_append, configure_section kind hbefore
    (fun l hl => ⟨(hbody l hl).unbroken, (hbody l hl).noMedia⟩) hrest plan.plainCapability.1]
  simp only [sectionLines, unlines_append, unlines_cons, List.append_assoc, List.cons_append]

/-- Lines of the session hide no tag. -/
theorem tag_not_in_session (kind : MediaKind) : ∀ l ∈ base.session, ¬ kind.tag <:+: l :=
  fun l hl => (base.sessionLines l hl).1.hidesNone kind

/-- The tags of later sections are not hidden in the video section. -/
theorem tag_not_in_video_section {kind : MediaKind} (hkind : kind ≠ .video)
    (h : ∀ v ∈ streams.video, ¬ kind.tag <:+: v.id) :
    ∀ l ∈ videoSection base plan streams, ¬ kind.tag <:+: l := by
  refine mark_in_section (tag_not_in_media_line _ hkind plan.video.plainCapability.2)
    (fun l hl => (base.videoLines l hl).hidesNone kind)
    (fun l hl => (plan.video.extraLines l hl).1.hidesNone kind) ?_
  intro l hl hmark
  obtain ⟨v, hv, hlv⟩ := List.mem_flatMap.mp hl
  exact h v hv (mark_in_video_lines (tag_is_mark kind) hlv hmark)

theorem tag_not_in_audio_section {kind : MediaKind} (hkind : kind ≠ .audio)
    (h : ∀ a ∈ streams.audio, ¬ kind.tag <:+: a.id) :
    ∀ l ∈ audioSection base plan streams, ¬ kind.tag <:+: l := by
  refine mark_in_section (tag_not_in_media_line _ hkind plan.audio.plainCapability.2)
    (fun l hl => (base.audioLines l hl).hidesNone kind)
    (fun l hl => (plan.audio.extraLines l hl).1.hidesNone kind) ?_
  intro l hl hmark
  obtain ⟨a, ha, hla⟩ := List.mem_flatMap.mp hl
  exact h a ha (mark_in_audio_lines (tag_is_mark kind) hla hmark)

/-- The text after the first call, whatever the ids are. -/
theorem configure_video (base : BaseDescription) (plan : SessionPlan) (streams : LocalStreams) :
    configureMediaSection base.text MediaKind.video.tag plan.video.capability
        (appendVideoAttributes plan.includeVideoRtx streams.video (unlines plan.video.extra)) =
      unlines (base.session ++ videoSection base plan streams) ++
        (base.audio.text .audio ++ base.data.text .data) := by
  rw [BaseDescription.text, append_video_attributes]
  exact configure_section_lines .video (tag_not_in_session .video) base.videoLines
    (section_text_starts _ _ _)

/-- The text after the second call, when no video id hides the audio section. -/
theorem configure_audio (h : ∀ v ∈ streams.video, ¬ MediaKind.audio.tag <:+: v.id) :
    configureMediaSection (unlines (base.session ++ videoSection base plan streams) ++
        (base.audio.text .audio ++ base.data.text .data)) MediaKind.audio.tag plan.audio.capability
        (appendAudioAttributes streams.audio (unlines plan.audio.extra)) =
      unlines (base.session ++ videoSection base plan streams ++ audioSection base plan streams) ++
        base.data.text .data := by
  rw [append_audio_attributes]
  refine configure_section_lines .audio ?_ base.audioLines ?_
  · intro l hl
    rcases List.mem_append.mp hl with hl | hl
    · exact tag_not_in_session .audio l hl
    · exact tag_not_in_video_section (by decide) h l hl
  · simpa using section_text_starts .data base.data []

/-- A description whose ids hide no section consists of its sections. -/
theorem local_description_eq (h : HidesNoSection streams) :
    localDescription base plan streams =
      unlines (base.session ++ videoSection base plan streams ++
        audioSection base plan streams ++ dataSection base plan streams) := by
  have hvideo := configure_video base plan streams
  have haudio := @configure_audio base plan streams fun v hv => (h.video v hv).1
  have hdata : configureMediaSection (unlines (base.session ++ videoSection base plan streams ++
      audioSection base plan streams) ++ (base.data.text .data ++ [])) MediaKind.data.tag
      plan.data.capability (unlines plan.data.extra ++ unlines (streams.data.flatMap dataLines)) =
      unlines (base.session ++ videoSection base plan streams ++ audioSection base plan streams ++
        dataSection base plan streams) ++ [] := by
    refine configure_section_lines .data ?_ base.dataLines (Or.inl rfl)
    intro l hl
    rcases List.mem_append.mp hl with hl | hl
    · rcases List.mem_append.mp hl with hl | hl
      · exact tag_not_in_session .data l hl
      · exact tag_not_in_video_section (by decide) (fun v hv => (h.video v hv).2) l hl
    · exact tag_not_in_audio_section (by decide) h.audio l hl
  rw [List.append_nil, List.append_nil] at hdata
  rw [localDescription, hvideo, haudio, append_data_attributes, hdata]

end IceTransport

end MiniRtc

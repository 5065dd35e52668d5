import MiniRtc.Transport.Fingerprint
import MiniRtc.Transport.SectionReading

/-!
# What is read from an offer or an answer

The sections of the description that a peer sends, as the other peer looks for them. The video
section is always the first one, with its payload types and its lines about retransmission, whatever
the ids of the streams are. The other sections are where they were written when no id of a video
stream hides a tag.
-/

namespace MiniRtc

open Text IceTransport

/-- The description that `SendOffer` and `SendAnswer` send, with the fingerprint of the certificate
if the transport is encrypted. -/
def sentSdp (stream : NiceStream) (options : AgentOptions) (side : LocalSide)
    (streams : LocalStreams) : Option (List (BitVec 8)) → Text
  | some digest => localSdp stream options side streams digest
  | none => describe stream options side streams

/-- The fingerprint line, if there is one. -/
def fingerprintLines : Option (List (BitVec 8)) → List Text
  | some digest => [fingerprintLine (computeFingerprint digest)]
  | none => []

/-- The first payload type that a description lists for a kind. -/
def LocalSide.type : LocalSide → MediaKind → ℤ
  | .offer preferred, .video => offeredVideoType preferred
  | .offer _, .audio => opusType
  | .offer _, .data => dataType
  | .answer _ negotiated, .video => negotiated.videoType
  | .answer _ negotiated, .audio => negotiated.audioType
  | .answer _ negotiated, .data => negotiated.dataType

/-- The description announces retransmission for the first payload type. -/
structure AnnouncesRtx (side : LocalSide) : Prop where
  capability : ∃ types,
    side.plan.video.capability = capabilityOf (side.type .video :: (types ++ [rtxType]))
  known : side.plan.video.extra.filter (StartsWith rtxNames ·) = rtxLines (side.type .video)
  included : side.plan.includeVideoRtx = true

/-- No id of a video stream hides the tag of a later section. -/
def VideoIdsClear (streams : LocalStreams) : Prop :=
  ∀ v ∈ streams.video, ∀ kind : MediaKind, kind ≠ .video → ¬ kind.tag <:+: v.id

theorem IceTransport.HidesNoSection.videoIdsClear {streams : LocalStreams}
    (h : HidesNoSection streams) : VideoIdsClear streams := by
  intro v hv kind hkind
  cases kind with
  | video => exact absurd rfl hkind
  | audio => exact (h.video v hv).1
  | data => exact (h.video v hv).2

variable {stream : NiceStream} {options : AgentOptions} {side : LocalSide}
  {streams : LocalStreams} {digest : Option (List (BitVec 8))} {ls : List Text}

theorem sent_sdp_eq (h : describe stream options side streams = unlines ls) :
    sentSdp stream options side streams digest = unlines (ls ++ fingerprintLines digest) := by
  cases digest with
  | none => rw [sentSdp, h, fingerprintLines, List.append_nil]
  | some digest => rw [sentSdp, localSdp, h, append_fingerprint_eq, fingerprintLines]

theorem fingerprint_lines_unbroken : ∀ l ∈ fingerprintLines digest, '\n' ∉ l := by
  cases digest with
  | none => exact List.forall_mem_nil _
  | some digest =>
      intro l hl
      rw [List.mem_singleton.mp hl]
      exact fingerprint_line_unbroken (fingerprint_plain digest)

/-- Lines that follow do not change the first section. -/
theorem first_section_append {names known : List Text} {header : Text}
    (h : FirstSection names header known ls) (more : List Text) :
    FirstSection names header known (ls ++ more) := by
  obtain ⟨body, rest, rfl, hbody, hfilter, hrest, hne⟩ := h
  refine ⟨body, rest ++ more, ?_, hbody, hfilter, fun l hl => hrest l ?_, by simp [hne]⟩
  · simp only [List.cons_append, List.append_assoc]
  · rwa [List.head?_append_of_ne_nil _ hne] at hl

/-! ## The plans -/

/-- Lines that start with other names are not among the known ones. -/
theorem filter_other {names others : List Text} (h : ∀ l ∈ ls, StartsWith names l)
    (hother : ∀ p ∈ others, ∀ name ∈ names, ¬ p <+: name ∧ ¬ name <+: p) :
    ls.filter (StartsWith others ·) = [] :=
  List.filter_eq_nil_iff.mpr fun l hl => by simpa using (h l hl).not_other hother

/-- The lines about retransmission among the attributes of the video section. -/
theorem filter_video_transport (n : ℤ) (include_ : VideoTransportCapabilities)
    (hrtx : include_.rtx = true) :
    (videoTransportLines (integer n) include_).filter (StartsWith rtxNames ·) = rtxLines n := by
  have hfeedback : ∀ l ∈ (if include_.nack then ["a=rtcp-fb:".toList ++ integer n ++ " nack".toList]
      else []) ++ ((if include_.fir then ["a=rtcp-fb:".toList ++ integer n ++ " ccm fir".toList]
        else []) ++ if include_.reducedSizeRtcp then ["a=rtcp-rsize".toList] else []),
      StartsWith ["a=rtcp".toList] l := by
    intro l hl
    refine ⟨"a=rtcp".toList, List.mem_cons_self, ?_⟩
    simp only [List.mem_append, List.mem_ite_nil_right, List.mem_cons, List.not_mem_nil,
      or_false] at hl
    rcases hl with ⟨-, rfl⟩ | ⟨-, rfl⟩ | ⟨-, rfl⟩
    · rw [List.append_assoc]
      exact List.IsPrefix.trans (by decide) (List.prefix_append _ _)
    · rw [List.append_assoc]
      exact List.IsPrefix.trans (by decide) (List.prefix_append _ _)
    · decide
  have hknown : ∀ l ∈ rtxLines n, StartsWith rtxNames l := by
    intro l hl
    simp only [rtxLines, List.mem_cons, List.not_mem_nil, or_false] at hl
    rcases hl with rfl | rfl
    · exact ⟨"a=rtpmap:".toList, by decide, by decide⟩
    · exact ⟨"a=fmtp:".toList, by decide, List.IsPrefix.trans (by decide) (List.prefix_append _ _)⟩
  unfold videoTransportLines
  rw [List.filter_append, filter_other hfeedback (by decide), if_pos hrtx, List.append_nil]
  exact List.filter_eq_self.mpr fun l hl => decide_eq_true (hknown l hl)

/-- The line about the extension among the attributes of the video section. -/
theorem filter_extmap (ids : AbsoluteSendTimeExtensionIds) (mediaPayload : Text)
    (include_ : VideoTransportCapabilities) :
    (localExtmapLines ids ++ videoTransportLines mediaPayload include_).filter
        (StartsWith ["a=extmap:".toList] ·) = localExtmapLines ids := by
  rw [List.filter_append, filter_other (video_transport_lines_start _ _) (by decide),
    List.append_nil]
  exact List.filter_eq_self.mpr fun l hl => decide_eq_true (extmap_lines_start ids l hl)

/-- An offer announces retransmission. -/
theorem offer_announces_rtx (preferred : ℤ) :
    AnnouncesRtx (.offer preferred) where
  capability := by
    show ∃ types, capabilityOf (offeredVideoTypes preferred) =
      capabilityOf (offeredVideoType preferred :: (types ++ [rtxType]))
    unfold offeredVideoTypes offeredVideoType
    split_ifs
    · exact ⟨[96, 97, 98], rfl⟩
    · exact ⟨[97, 98, 99], rfl⟩
  known := by
    show (localExtmapLines offeredIds ++ videoTransportLines _ _).filter _ = _
    rw [List.filter_append, filter_other (extmap_lines_start _) (by decide),
      filter_video_transport _ _ rfl, List.nil_append]
    rfl
  included := rfl

/-- So does the answer to a description from which retransmission was read. -/
theorem answer_announces_rtx {remote : VideoTransportCapabilities} (hrtx : remote.rtx = true)
    (negotiated : Negotiated) : AnnouncesRtx (.answer remote negotiated) where
  capability := ⟨[], by
    show capabilityOf (_ :: if remote.rtx then [rtxType] else []) = _
    rw [if_pos hrtx]
    rfl⟩
  known := by
    show (localExtmapLines _ ++ videoTransportLines _ remote).filter _ = _
    rw [List.filter_append, filter_other (extmap_lines_start _) (by decide),
      filter_video_transport _ _ hrtx, List.nil_append]
    rfl
  included := hrtx

/-! ## The video section, whatever the ids are -/

/-- A line that starts with these names is no media line. -/
theorem no_media_of_starts {names : List Text} {l : Text} (h : StartsWith names l)
    (hnames : ∀ name ∈ names, ¬ "m=".toList <+: name ∧ ¬ name <+: "m=".toList) :
    ¬ "m=".toList <+: l := by
  obtain ⟨name, hname, rest, rfl⟩ := h
  exact not_prefix_append (hnames name hname).1 (hnames name hname).2 rest

/-- The attributes of the audio section are about its extension. -/
theorem audio_extra_start (side : LocalSide) :
    ∀ l ∈ side.plan.audio.extra, StartsWith ["a=extmap:".toList] l := by
  cases side with
  | offer preferred => exact extmap_lines_start offeredIds
  | answer remote negotiated => exact extmap_lines_start { negotiated.audioIds with valid := true }

/-- What is added to the sections for audio and data. -/
theorem added_lines_start (side : LocalSide) (streams : LocalStreams) :
    (∀ l ∈ audioAdded side.plan streams, StartsWith ("a=extmap:".toList :: streamNames) l) ∧
      ∀ l ∈ dataAdded side.plan streams, StartsWith streamNames l := by
  obtain ⟨-, haudio, hdata⟩ := stream_lines_start true streams
  have hnone : side.plan.data.extra = [] := by
    cases side <;> rfl
  refine ⟨fun l hl => ?_, fun l hl => ?_⟩
  · rcases List.mem_append.mp hl with hl | hl
    · exact (audio_extra_start side l hl).mono (by decide)
    · exact (haudio l hl).mono (by decide)
  · rw [dataAdded, hnone, List.nil_append] at hl
    exact hdata l hl

/-- The video section, with those of its attributes that have the given names. -/
theorem video_section_first {names after : List Text}
    (hnames : ∀ p ∈ names, ∀ name ∈ niceNames ++ streamNames, ¬ p <+: name ∧ ¬ name <+: p)
    (hafter : StartsMedia after) (hne : after ≠ []) :
    FirstSection names (videoHeader stream side)
      (side.plan.video.extra.filter (StartsWith names ·))
      (videoHeader stream side :: (videoRest stream side streams ++ after)) := by
  have hnice : ∀ l ∈ stream.lines.map NiceLine.text, StartsWith niceNames l := by
    intro l hl
    obtain ⟨line, -, rfl⟩ := List.mem_map.mp hl
    exact nice_line_starts line
  have hstreams := (stream_lines_start side.plan.includeVideoRtx streams).1
  refine ⟨videoRest stream side streams, after, rfl, fun l hl => ⟨?_, video_rest_named l hl⟩, ?_,
    hafter, hne⟩
  · simp only [videoRest, List.mem_append] at hl
    rcases hl with hl | hl | hl
    · exact no_media_of_starts (hnice l hl) (by decide)
    · exact (side.plan.video.extraLines l hl).1.noMedia
    · exact no_media_of_starts (hstreams l hl) (by decide)
  · rw [videoRest, List.filter_append, List.filter_append,
      filter_other hnice fun p hp name hname => hnames p hp name (List.mem_append_left _ hname),
      filter_other hstreams fun p hp name hname =>
        hnames p hp name (List.mem_append_right _ hname),
      List.append_nil, List.nil_append]

/-- The video section before the other ones are configured. -/
theorem video_configured_first (h : AnnouncesRtx side) :
    FirstSection rtxNames (videoHeader stream side) (rtxLines (side.type .video))
      (videoConfigured (stream.base options) side.plan streams) := by
  rw [video_configured_eq, ← h.known]
  refine video_section_first (by decide) (fun l hl => ?_) (List.cons_ne_nil _ _)
  rw [← Option.some.inj hl, mediaHeader, List.append_assoc]
  exact (tag_starts .audio).trans (List.prefix_append _ _)

/-- The lines of a description that is sent. -/
theorem sent_lines (h : AnnouncesRtx side) (stream : NiceStream) (options : AgentOptions)
    (streams : LocalStreams) (digest : Option (List (BitVec 8))) :
    ∃ ls, sentSdp stream options side streams digest = unlines ls ∧ (∀ l ∈ ls, '\n' ∉ l) ∧
      FirstSection rtxNames (videoHeader stream side) (rtxLines (side.type .video)) ls ∧
      OpensWith IsNamed [videoHeader stream side] ls := by
  obtain ⟨ls, hdescribe, hsent⟩ := describe_lines stream options side streams
  obtain ⟨first, last, haudio, hdata, heq, hunbroken⟩ :=
    local_description_lines (stream.base options) side.plan streams
  have hlast : last = ls := by
    rw [← lines_unlines hunbroken, ← heq, ← describe, hdescribe, lines_unlines hsent.unbroken]
  subst hlast
  have hskip : ∀ kind : MediaKind, kind ≠ .video → ¬ kind.tag <:+: videoHeader stream side :=
    fun kind hkind => tag_not_in_media_line _ hkind side.plan.video.plainCapability.2
  have hknown : ∀ kind : MediaKind, ∀ l ∈ rtxLines (side.type .video), ¬ kind.tag <:+: l := by
    intro kind l hl
    rw [← h.known] at hl
    exact (side.plan.video.extraLines l (List.mem_of_mem_filter hl)).1.hidesNone kind
  obtain ⟨haddedAudio, haddedData⟩ := added_lines_start side streams
  have hfirst := haudio.firstSection (hskip .audio (by decide)) (hknown .audio) (by decide)
    (fun l hl => ⟨no_media_of_starts (haddedAudio l hl) (by decide),
      (haddedAudio l hl).mono (by decide), (haddedAudio l hl).not_other (by decide)⟩)
    (video_configured_first h)
  have hsection := hdata.firstSection (hskip .data (by decide)) (hknown .data) (by decide)
    (fun l hl => ⟨no_media_of_starts (haddedData l hl) (by decide),
      (haddedData l hl).mono (by decide), (haddedData l hl).not_other (by decide)⟩) hfirst
  refine ⟨last ++ fingerprintLines digest, sent_sdp_eq hdescribe, ?_,
    first_section_append hsection _, opens_with_append hsent.opens _⟩
  exact List.forall_mem_append.mpr ⟨hunbroken, fingerprint_lines_unbroken⟩

/-- The payload type and the retransmission that are read. -/
theorem video_read_of_sent (h : AnnouncesRtx side) (stream : NiceStream)
    (options : AgentOptions) (streams : LocalStreams) (digest : Option (List (BitVec 8))) :
    strayNumber MediaKind.video.tag (sentSdp stream options side streams digest) =
        side.type .video ∧
      (parseVideoTransportCapabilities (getMediaSection
        (sentSdp stream options side streams digest) MediaKind.video.tag)
          (side.type .video)).rtx = true := by
  obtain ⟨ls, hls, hunbroken, hsection, -⟩ := sent_lines h stream options streams digest
  obtain ⟨types, htypes⟩ := h.capability
  have hheader : videoHeader stream side =
      mediaHeader MediaKind.video.tag stream.port ++
        capabilityOf (side.type .video :: types ++ [rtxType]) := by
    rw [videoHeader, htypes, List.cons_append]
  rw [hls]
  refine ⟨?_, rtx_of_first_section hunbroken (hheader ▸ hsection)⟩
  obtain ⟨body, rest, rfl, -⟩ := hsection
  rw [hheader, List.cons_append]
  exact stray_number_of_header stream.port (side.type .video) (types ++ [rtxType])
    (List.forall_mem_nil _) _

/-- An id that is received from the video section hides no other section. -/
theorem received_id_hides_none (h : AnnouncesRtx side)
    (hno : ¬ candidateTag <:+: sentSdp stream options side streams digest) :
    ∃ tables, sectionTables .video (sentSdp stream options side streams digest) = some tables ∧
      ∀ id ssrc, tables.streams .video id = some ssrc →
        ∀ kind : MediaKind, kind ≠ .video → ¬ kind.tag <:+: id := by
  obtain ⟨ls, hls, hunbroken, -, hopens⟩ := sent_lines h stream options streams digest
  rw [hls] at hno ⊢
  obtain ⟨xs, htables, hxs⟩ := video_section_tables hunbroken side.plan.video.plainCapability.2
    hopens hno
  refine ⟨_, htables, fun id ssrc hid kind hkind htag => ?_⟩
  obtain ⟨l, hl, hwithin⟩ := line_of_stream hid
  rcases List.mem_cons.mp hl with rfl | hl
  · exact tag_not_in_media_line _ hkind side.plan.video.plainCapability.2 (htag.trans hwithin)
  · exact (hxs l hl).2.2 kind hkind (htag.trans hwithin)

/-! ## The sections, when the ids of the video streams hide none -/

/-- The media line of a kind other than video. -/
def sideHeader (stream : NiceStream) (kind : MediaKind) (plan : MediaPlan) : Text :=
  mediaHeader kind.tag stream.port ++ plan.capability

theorem header_starts (kind : MediaKind) (plan : MediaPlan) :
    kind.tag <+: sideHeader stream kind plan := by
  rw [sideHeader, mediaHeader, List.append_assoc]
  exact List.prefix_append _ _

/-- The audio section before the data section is configured. -/
theorem audio_section_first :
    FirstSection ["a=extmap:".toList] (sideHeader stream .audio side.plan.audio)
      side.plan.audio.extra (audioSection (stream.base options) side.plan streams ++
        (stream.base options).data.lines .data) := by
  obtain ⟨-, hstreams, -⟩ := stream_lines_start true streams
  refine ⟨stream.linesFor .audio ++ (side.plan.audio.extra ++ streams.audio.flatMap audioLines),
    _, rfl, fun l hl => ?_, ?_, fun l hl => ?_, List.cons_ne_nil _ _⟩
  · simp only [List.mem_append] at hl
    rcases hl with hl | hl | hl
    · exact ⟨no_media_of_starts (lines_for_start .audio l hl) (by decide), lines_for_named _ l hl⟩
    · exact ⟨no_media_of_starts (audio_extra_start side l hl) (by decide),
        (audio_extra_start side l hl).mono (by decide)⟩
    · exact ⟨no_media_of_starts (hstreams l hl) (by decide), (hstreams l hl).mono (by decide)⟩
  · have hextra : side.plan.audio.extra.filter (StartsWith ["a=extmap:".toList] ·) =
        side.plan.audio.extra :=
      List.filter_eq_self.mpr fun l hl => decide_eq_true (audio_extra_start side l hl)
    rw [List.filter_append, List.filter_append, filter_other (lines_for_start .audio) (by decide),
      filter_other hstreams (by decide), hextra, List.append_nil, List.nil_append]
  · rw [← Option.some.inj hl, mediaHeader, List.append_assoc]
    exact (tag_starts .data).trans (List.prefix_append _ _)

/-- The audio section follows the video section. -/
theorem clear_sections (h : VideoIdsClear streams) (side : LocalSide) :
    ∃ more, sentSdp stream options side streams digest =
        unlines (videoSection (stream.base options) side.plan streams ++ more) ∧
      (∀ l ∈ more, '\n' ∉ l) ∧
      FirstSection ["a=extmap:".toList] (sideHeader stream .audio side.plan.audio)
        side.plan.audio.extra more := by
  have hvideo : ∀ kind : MediaKind, kind ≠ .video →
      ∀ l ∈ videoSection (stream.base options) side.plan streams, ¬ kind.tag <:+: l :=
    fun kind hkind => tag_not_in_video_section hkind fun v hv => h v hv kind hkind
  have htext : unlines ((stream.base options).session ++
        videoSection (stream.base options) side.plan streams ++
        audioSection (stream.base options) side.plan streams) ++
      (stream.base options).data.text .data =
      unlines (videoSection (stream.base options) side.plan streams ++
        (audioSection (stream.base options) side.plan streams ++
          (stream.base options).data.lines .data)) := by
    rw [section_text_eq, ← unlines_append, List.append_assoc]
    rfl
  have hunbroken : ∀ l ∈ videoSection (stream.base options) side.plan streams ++
      (audioSection (stream.base options) side.plan streams ++
        (stream.base options).data.lines .data), '\n' ∉ l :=
    List.forall_mem_append.mpr ⟨video_section_unbroken,
      List.forall_mem_append.mpr ⟨audio_section_unbroken,
        section_lines_unbroken (stream.base options).dataLines⟩⟩
  obtain ⟨whole, hwhole, hdata⟩ := configured .data hunbroken side.plan.data.plainCapability.1
    (dataAdded side.plan streams)
  obtain ⟨more, rfl, hmore⟩ := hdata.behind (hvideo .data (by decide))
  have hdescribe : describe stream options side streams =
      unlines (videoSection (stream.base options) side.plan streams ++ more) := by
    rw [describe, localDescription, configure_video,
      configure_audio fun v hv => h v hv .audio (by decide), append_data_attributes,
      ← unlines_append, htext]
    exact hwhole
  have hmoreUnbroken : ∀ l ∈ more, '\n' ∉ l := fun l hl =>
    hdata.all (placed_unbroken side.plan.data.plainCapability.1) hunbroken data_added_unbroken l
      (List.mem_append_right _ hl)
  -- The audio section before the data section is configured.
  have hfirst : FirstSection ["a=extmap:".toList] (sideHeader stream .audio side.plan.audio)
      side.plan.audio.extra (audioSection (stream.base options) side.plan streams ++
        (stream.base options).data.lines .data) := audio_section_first
  have hknown : ∀ l ∈ side.plan.audio.extra, ¬ MediaKind.data.tag <:+: l := fun l hl =>
    (side.plan.audio.extraLines l hl).1.hidesNone .data
  obtain ⟨-, hadded⟩ := added_lines_start side streams
  refine ⟨more ++ fingerprintLines digest, ?_, ?_, first_section_append (hmore.firstSection
    (tag_not_in_media_line _ (by decide) side.plan.audio.plainCapability.2) hknown (by decide)
    (fun l hl => ⟨no_media_of_starts (hadded l hl) (by decide), (hadded l hl).mono (by decide),
      (hadded l hl).not_other (by decide)⟩) hfirst) _⟩
  · rw [sent_sdp_eq hdescribe, List.append_assoc]
  · exact List.forall_mem_append.mpr ⟨hmoreUnbroken, fingerprint_lines_unbroken⟩

/-- The streams of the video section, with their retransmissions. -/
theorem clear_video_streams (h : VideoIdsClear streams) (hrtx : AnnouncesRtx side)
    (hno : ¬ candidateTag <:+: sentSdp stream options side streams digest) :
    ∃ tables, sectionTables .video (sentSdp stream options side streams digest) = some tables ∧
      ∀ v ∈ streams.video, tables.streams .video v.id = some v.ssrc ∧
        tables.rtxStreams v.id = some v.rtxSsrc := by
  obtain ⟨more, hsdp, -, body, rest, rfl, -⟩ :=
    @clear_sections stream options streams digest h side
  have hsection : videoSection (stream.base options) side.plan streams =
      videoHeader stream side :: videoRest stream side streams := rfl
  have hmedia : ∀ kind : MediaKind, kind ≠ .video →
      ∀ l ∈ videoRest stream side streams, ¬ kind.tag <:+: l := fun kind hkind l hl =>
    tag_not_in_video_section hkind (fun v hv => h v hv kind hkind) l
      (hsection ▸ List.mem_cons_of_mem _ hl)
  have htext : sentSdp stream options side streams digest = videoHeader stream side ++
      '\n' :: unlines (videoRest stream side streams ++
        sideHeader stream .audio side.plan.audio :: (body ++ rest)) := by
    rw [hsdp, hsection, List.cons_append, unlines_cons]
  have hstart : MediaKind.video.tag <+: videoHeader stream side := header_starts .video _
  have hnext : nextSection (unlines (videoRest stream side streams ++
      sideHeader stream .audio side.plan.audio :: (body ++ rest))) =
      (unlines (videoRest stream side streams)).length := by
    have haudio : find MediaKind.audio.tag (unlines (videoRest stream side streams ++
        sideHeader stream .audio side.plan.audio :: (body ++ rest))) =
        some (unlines (videoRest stream side streams)).length :=
      find_mark (tag_unbroken .audio) (hmedia .audio (by decide)) (header_starts .audio _)
    have hdata : (unlines (videoRest stream side streams)).length ≤
        (find MediaKind.data.tag (unlines (videoRest stream side streams ++
          sideHeader stream .audio side.plan.audio :: (body ++ rest)))).getD
            (unlines (videoRest stream side streams ++
              sideHeader stream .audio side.plan.audio :: (body ++ rest))).length := by
      rw [unlines_append, find_skip_lines (tag_unbroken .data) (hmedia .data (by decide))]
      cases find MediaKind.data.tag
        (unlines (sideHeader stream .audio side.plan.audio :: (body ++ rest))) with
      | none => simp
      | some i => simp
    rw [nextSection, haudio, Option.getD_some]
    exact Nat.min_eq_left hdata
  have hblock : sectionBlock .video (sentSdp stream options side streams digest) =
      some (unlines (videoSection (stream.base options) side.plan streams)) := by
    rw [htext] at hno ⊢
    rw [video_block_of_header hstart (fun other hother =>
      tag_not_in_media_line _ hother side.plan.video.plainCapability.2) hno, hnext, unlines_append,
      List.take_left, hsection, unlines_cons]
  have hread := lines_unlines (@video_section_unbroken (stream.base options) side.plan streams)
  refine ⟨readTables .video (videoSection (stream.base options) side.plan streams), ?_,
    fun v hv => ?_⟩
  · rw [sectionTables, hblock, Option.map_some, hread]
  · have hgroupable : ∀ v ∈ streams.video, v.ssrc ≠ 0 ∧ v.rtxSsrc ≠ 0 ∧ v.ssrc ≠ v.rtxSsrc :=
      fun v hv => groupable streams hv
    obtain ⟨hname, hgroup, -⟩ := @entries_of_section .video .video _ side.plan.video
      (stream.base options).videoLines
      (streams.video.flatMap (videoLines side.plan.includeVideoRtx))
    rw [name_entries_video streams.videoIds.1 hgroupable] at hname
    rw [group_entries_video streams.videoIds.1 hgroupable] at hgroup
    obtain ⟨hstreams, hrtxStreams⟩ := video_read streams side.plan.includeVideoRtx hname hgroup
    exact ⟨(hstreams v.id v.ssrc).mpr ⟨v, hv, rfl, rfl⟩,
      (hrtxStreams v.id v.rtxSsrc).mpr ⟨hrtx.included, v, hv, rfl, rfl⟩⟩

/-- The first payload type is listed behind the protocol. -/
theorem side_capabilities (side : LocalSide) :
    side.plan.audio.capability = capabilityOf [side.type .audio] ∧
      ∃ types, side.plan.data.capability = capabilityOf (side.type .data :: types) := by
  cases side with
  | offer preferred => exact ⟨rfl, [121], rfl⟩
  | answer remote negotiated => exact ⟨rfl, [], rfl⟩

/-- The payload type of the audio section is read as it was written. -/
theorem clear_audio_type (h : VideoIdsClear streams) :
    strayNumber MediaKind.audio.tag (sentSdp stream options side streams digest) =
      side.type .audio := by
  obtain ⟨more, hsdp, -, body, rest, rfl, -⟩ :=
    @clear_sections stream options streams digest h side
  rw [hsdp, sideHeader, (side_capabilities side).1]
  exact stray_number_of_header stream.port _ []
    (tag_not_in_video_section (by decide) fun v hv => h v hv .audio (by decide)) _

/-- The description by sections, when no id hides one. -/
theorem clear_sdp_eq (h : HidesNoSection streams) :
    sentSdp stream options side streams digest =
      unlines (videoSection (stream.base options) side.plan streams ++
        audioSection (stream.base options) side.plan streams ++
          dataSection (stream.base options) side.plan streams ++ fingerprintLines digest) := by
  have hdescribe : describe stream options side streams = unlines
      ([] ++ videoSection (stream.base options) side.plan streams ++
        audioSection (stream.base options) side.plan streams ++
          dataSection (stream.base options) side.plan streams) :=
    local_description_eq h
  rw [sent_sdp_eq hdescribe, List.nil_append]

/-- So is that of the data section, when no audio id hides it. -/
theorem clear_data_type (h : VideoIdsClear streams)
    (haudio : ∀ a ∈ streams.audio, ¬ MediaKind.data.tag <:+: a.id) :
    strayNumber MediaKind.data.tag (sentSdp stream options side streams digest) =
      side.type .data := by
  obtain ⟨types, htypes⟩ := (side_capabilities side).2
  have hbefore : ∀ l ∈ videoSection (stream.base options) side.plan streams ++
      audioSection (stream.base options) side.plan streams, ¬ MediaKind.data.tag <:+: l :=
    List.forall_mem_append.mpr
      ⟨tag_not_in_video_section (by decide) fun v hv => h v hv .data (by decide),
        tag_not_in_audio_section (by decide) haudio⟩
  rw [clear_sdp_eq ⟨fun v hv => ⟨h v hv .audio (by decide), h v hv .data (by decide)⟩, haudio⟩,
    List.append_assoc, dataSection, sectionLines, htypes, List.cons_append]
  exact stray_number_of_header stream.port _ types hbefore _

/-- The ids of the extension are read as they were written. -/
theorem clear_extension_ids (h : VideoIdsClear streams)
    (hvideo : side.plan.video.extra.filter (StartsWith ["a=extmap:".toList] ·) =
      localExtmapLines offeredIds)
    (haudio : side.plan.audio.extra = localExtmapLines offeredIds) :
    ∀ kind : MediaKind, kind ≠ .data →
      getExtensionIds (sentSdp stream options side streams digest) kind.tag = offeredIds := by
  obtain ⟨more, hsdp, hunbroken, hfirst⟩ := @clear_sections stream options streams digest h side
  have hsection : videoSection (stream.base options) side.plan streams =
      videoHeader stream side :: videoRest stream side streams := rfl
  have hstart : "m=".toList <+:
      unlines (videoSection (stream.base options) side.plan streams ++ more) := by
    have hheader : "m=".toList <+: videoHeader stream side :=
      (tag_starts .video).trans (header_starts .video _)
    rw [hsection, List.cons_append, unlines_cons]
    exact hheader.trans (List.prefix_append _ _)
  rw [hsdp]
  intro kind hkind
  cases kind with
  | data => exact absurd rfl hkind
  | audio =>
      rw [haudio] at hfirst
      exact extension_ids_of_first_section
        (tag_not_in_video_section (by decide) fun v hv => h v hv .audio (by decide))
        (header_starts .audio _) hunbroken hstart hfirst
  | video =>
      have hmore : StartsMedia more ∧ more ≠ [] := by
        obtain ⟨body, rest, rfl, -⟩ := hfirst
        refine ⟨fun l hl => ?_, List.cons_ne_nil _ _⟩
        rw [← Option.some.inj hl]
        exact (tag_starts .audio).trans (header_starts .audio _)
      have hvideoFirst : FirstSection ["a=extmap:".toList] (videoHeader stream side)
          (localExtmapLines offeredIds)
          (videoSection (stream.base options) side.plan streams ++ more) := by
        rw [← hvideo, hsection, List.cons_append]
        exact video_section_first (by decide) hmore.1 hmore.2
      have hids := @extension_ids_of_first_section .video _ [] _ (List.forall_mem_nil _)
        (header_starts .video side.plan.video)
        (List.forall_mem_append.mpr ⟨video_section_unbroken, hunbroken⟩) hstart hvideoFirst
      exact hids

/-- A description has no candidate when the library has gathered none and no id hides one. -/
theorem no_candidate_sent (h : IdsHideNothing streams)
    (hlines : ∀ line ∈ stream.lines, line.field ≠ .candidate) :
    ¬ candidateTag <:+: sentSdp stream options side streams digest := by
  have hline : ∀ line : NiceLine, line.field ≠ .candidate → ¬ candidateTag <:+: line.text := by
    intro line hfield hmark
    have hstart := (nice_line_is_body_line line).candidateFirst hmark
    have hname : ¬ candidateTag <+: line.field.name ∧ ¬ line.field.name <+: candidateTag := by
      cases hcase : line.field with
      | candidate => exact absurd hcase hfield
      | connection => decide
      | rtcp => decide
      | iceUfrag => decide
      | icePwd => decide
    exact not_prefix_append hname.1 hname.2 _ hstart
  have hvideo : ¬ HasCandidate (stream.base options).video.body := by
    rintro ⟨l, hl, hmark⟩
    obtain ⟨line, hmem, rfl⟩ := List.mem_map.mp hl
    exact hline line (hlines line hmem) hmark
  have hfor : ∀ kind, ¬ HasCandidate (stream.linesFor kind) := by
    rintro kind ⟨l, hl, hmark⟩
    obtain ⟨renamed, hrenamed, rfl⟩ := List.mem_map.mp hl
    obtain ⟨line, hmem, rfl⟩ := List.mem_map.mp hrenamed
    exact hline (line.renamed kind) (hlines line hmem) hmark
  have hdata : ¬ HasCandidate (stream.base options).data.body := by
    rintro ⟨l, hl, hmark⟩
    rcases List.mem_append.mp hl with hl | hl
    · exact hfor .data ⟨l, hl, hmark⟩
    · unfold AgentOptions.lines at hl
      split_ifs at hl
      · simp only [List.mem_cons, List.not_mem_nil, or_false] at hl
        rcases hl with rfl | rfl <;> exact absurd hmark (by decide)
      · obtain rfl := List.mem_singleton.mp hl
        exact absurd hmark (by decide)
      · cases hl
  rw [clear_sdp_eq h.sections, infix_unlines (by decide) (by decide)]
  rintro ⟨l, hl, hmark⟩
  simp only [List.mem_append] at hl
  rcases hl with ((hl | hl) | hl) | hl
  · exact hvideo ((has_candidate_video h).mp ⟨l, hl, hmark⟩)
  · exact hfor .audio ((has_candidate_audio h).mp ⟨l, hl, hmark⟩)
  · exact hdata ((has_candidate_section (candidate_not_in_data_lines h.data)).mp ⟨l, hl, hmark⟩)
  · cases digest with
    | none => cases hl
    | some digest =>
        rw [List.mem_singleton.mp hl] at hmark
        exact candidate_not_in_fingerprint (fingerprint_plain digest) hmark

end MiniRtc

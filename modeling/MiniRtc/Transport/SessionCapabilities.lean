import MiniRtc.Transport.LocalDescription

/-!
# Transport capabilities in a session description

The attribute lines of a section that are not about streams: retransmission and feedback
(`BuildVideoTransportAttributes`, `ParseVideoTransportCapabilities`) and the header extension for
the absolute send time (`rtp_extension_negotiation.cpp`), with the plans that an offer and an
answer make of them.
-/

namespace MiniRtc

open Text

namespace IceTransport

/-! ## Retransmission and feedback -/

/-- `VideoTransportCapabilities`. -/
structure VideoTransportCapabilities where
  rtx : Bool := false
  nack : Bool := false
  fir : Bool := false
  reducedSizeRtcp : Bool := false
deriving DecidableEq

/-- `BuildVideoTransportAttributes`, line by line. -/
def videoTransportLines (mediaPayload : Text) (include_ : VideoTransportCapabilities) :
    List Text :=
  (if include_.rtx then
    ["a=rtpmap:127 rtx/90000".toList, "a=fmtp:127 apt=".toList ++ mediaPayload]
  else []) ++
    ((if include_.nack then ["a=rtcp-fb:".toList ++ mediaPayload ++ " nack".toList] else []) ++
      ((if include_.fir then ["a=rtcp-fb:".toList ++ mediaPayload ++ " ccm fir".toList] else []) ++
        if include_.reducedSizeRtcp then ["a=rtcp-rsize".toList] else []))

/-- The parameters that `getline` reads up to each semicolon. -/
def parameters : Text → List Text
  | [] => []
  | c :: s =>
      if c = ';' then [] :: parameters s
      else
        match parameters s with
        | [] => [[c]]
        | parameter :: more => (c :: parameter) :: more

/-- A parameter that names the media payload type of a retransmission. -/
def isMatchingApt (mediaPayload parameter : Text) : Bool :=
  let parameter := trim parameter
  match find ['='] parameter with
  | some separator =>
      trim (parameter.take separator) = "apt".toList ∧
        trim (parameter.drop (separator + 1)) = mediaPayload
  | none => false

/-- What the lines of the video section said so far. -/
structure VideoSectionFlags where
  payloadOnMediaLine : Bool := false
  hasRtxMapping : Bool := false
  hasMatchingApt : Bool := false
  hasNackFeedback : Bool := false
  fir : Bool := false
  reducedSizeRtcp : Bool := false
deriving DecidableEq

/-- The body of the loop in `ParseVideoTransportCapabilities`. -/
def VideoSectionFlags.read (mediaPayload : Text) (flags : VideoSectionFlags) (line : Text) :
    VideoSectionFlags :=
  let line := trim line
  { payloadOnMediaLine := flags.payloadOnMediaLine ||
      decide ("m=video ".toList <+: line ∧ "127".toList ∈ words line)
    hasRtxMapping :=
      if "a=rtpmap:127 ".toList <+: line then
        (trim (line.drop "a=rtpmap:127 ".length)).map Char.toLower = "rtx/90000".toList
      else flags.hasRtxMapping
    hasMatchingApt := flags.hasMatchingApt ||
      decide ("a=fmtp:127 ".toList <+: line ∧
        ∃ parameter ∈ parameters (line.drop "a=fmtp:127 ".length),
          isMatchingApt mediaPayload parameter = true)
    hasNackFeedback := flags.hasNackFeedback ||
      decide (line = "a=rtcp-fb:".toList ++ mediaPayload ++ " nack".toList ∨
        line = "a=rtcp-fb:* nack".toList)
    fir := flags.fir ||
      decide (line = "a=rtcp-fb:".toList ++ mediaPayload ++ " ccm fir".toList ∨
        line = "a=rtcp-fb:* ccm fir".toList)
    reducedSizeRtcp := flags.reducedSizeRtcp || decide (line = "a=rtcp-rsize".toList) }

/-- `ParseVideoTransportCapabilities`. -/
def parseVideoTransportCapabilities (videoSection : Text) (mediaPayloadType : ℤ) :
    VideoTransportCapabilities :=
  let flags := (lines videoSection).foldl
    (VideoSectionFlags.read (integer mediaPayloadType)) {}
  let rtx := flags.payloadOnMediaLine && flags.hasRtxMapping && flags.hasMatchingApt
  { rtx := rtx
    nack := rtx && flags.hasNackFeedback
    fir := flags.fir
    reducedSizeRtcp := flags.reducedSizeRtcp }

/-! ## The header extension for the absolute send time -/

/-- `RtpExtensionDirection`. -/
inductive ExtensionDirection where
  | sendRecv
  | sendOnly
  | recvOnly
  | inactive
deriving DecidableEq

/-- `AbsoluteSendTimeExtensionIds`. -/
structure AbsoluteSendTimeExtensionIds where
  sendId : Option Nat := none
  recvId : Option Nat := none
  valid : Bool := true
deriving DecidableEq

/-- `kAbsoluteSendTimeUri`. -/
def absoluteSendTimeUri : Text :=
  "http://www.webrtc.org/experiments/rtp-hdrext/abs-send-time".toList

/-- `kPreferredAbsoluteSendTimeExtensionId`. -/
def preferredExtensionId : Nat := 3

/-- `IsValidOneByteExtensionId`. -/
def isValidOneByteExtensionId (id : Nat) : Prop := 1 ≤ id ∧ id ≤ 14

instance (id : Nat) : Decidable (isValidOneByteExtensionId id) :=
  inferInstanceAs (Decidable (_ ∧ _))

/-- `ParseDirection`. -/
def parseDirection (direction : Text) : Option ExtensionDirection :=
  if direction = "sendrecv".toList then some .sendRecv
  else if direction = "sendonly".toList then some .sendOnly
  else if direction = "recvonly".toList then some .recvOnly
  else if direction = "inactive".toList then some .inactive
  else none

/-- The ids that were seen, whether the extension was among them, and what it yields. -/
structure ExtmapState where
  extensions : List Nat := []
  absoluteSendTimeSeen : Bool := false
  result : AbsoluteSendTimeExtensionIds := {}

/-- The ids for a direction, which the remote side states from its own view. -/
def idsForDirection (id : Nat) : ExtensionDirection → AbsoluteSendTimeExtensionIds
  | .sendRecv => { sendId := some id, recvId := some id }
  | .sendOnly => { recvId := some id }
  | .recvOnly => { sendId := some id }
  | .inactive => {}

/-- The body of the loop in `ParseRemoteAbsoluteSendTimeExtension`; `none` is its invalid end. -/
def ExtmapState.read (defaultDirection : ExtensionDirection) (st : ExtmapState) (line : Text) :
    Option ExtmapState :=
  let line := trim line
  if ¬ "a=extmap:".toList <+: line then some st
  else
    match findFrom [' '] line "a=extmap:".length with
    | none => some st
    | some separator =>
        let token := (line.drop "a=extmap:".length).take (separator - "a=extmap:".length)
        let direction :=
          match find ['/'] token with
          | some slash => parseDirection (token.drop (slash + 1))
          | none => some defaultDirection
        let token :=
          match find ['/'] token with
          | some slash => token.take slash
          | none => token
        let uri := (trim (line.drop (separator + 1))).takeWhile fun c => c ≠ ' ' ∧ c ≠ '\t'
        match parseUint32 token with
        | none => some st
        | some id =>
            if ¬ isValidOneByteExtensionId id.toNat then some st
            else if id.toNat ∈ st.extensions then none
            else
              let st := { st with extensions := id.toNat :: st.extensions }
              if uri ≠ absoluteSendTimeUri then some st
              else if st.absoluteSendTimeSeen then none
              else
                match direction with
                | none => none
                | some direction =>
                    some { st with
                      absoluteSendTimeSeen := true
                      result := idsForDirection id.toNat direction }

/-- `ParseRemoteAbsoluteSendTimeExtension`. -/
def parseRemoteExtension (sdpSection : Text) (defaultDirection : ExtensionDirection) :
    AbsoluteSendTimeExtensionIds :=
  match (lines sdpSection).foldlM (ExtmapState.read defaultDirection) {} with
  | some st => st.result
  | none => { valid := false }

/-- The direction of a local extmap line, in the view of the local side. -/
def extmapDirection (ids : AbsoluteSendTimeExtensionIds) : Text :=
  if ids.sendId.isSome ∧ ids.recvId.isNone then "/sendonly".toList
  else if ids.sendId.isNone ∧ ids.recvId.isSome then "/recvonly".toList
  else []

/-- `BuildLocalAbsoluteSendTimeExtmap`, as the lines it adds. -/
def localExtmapLines (ids : AbsoluteSendTimeExtensionIds) : List Text :=
  if ¬ ids.valid then []
  else
    match ids.sendId.or ids.recvId with
    | none => []
    | some id =>
        if ¬ isValidOneByteExtensionId id then []
        else if ids.sendId.isSome ∧ ids.recvId.isSome ∧ ids.sendId ≠ ids.recvId then []
        else
          ["a=extmap:".toList ++ (decimal id ++ (extmapDirection ids ++
            (" ".toList ++ absoluteSendTimeUri)))]

/-- `GetSessionSection`. -/
def getSessionSection (sdp : Text) : Text :=
  match find "m=".toList sdp with
  | some start => sdp.take start
  | none => sdp

/-- `HasExtmap`. -/
def hasExtmap (sdpSection : Text) : Bool :=
  (lines sdpSection).any fun line => "a=extmap:".toList <+: trim line

/-- `GetMediaDirection`. -/
def getMediaDirection (mediaSection : Text) : ExtensionDirection :=
  let directions := (lines mediaSection).filterMap fun line =>
    if trim line = "a=sendonly".toList then some ExtensionDirection.sendOnly
    else if trim line = "a=recvonly".toList then some .recvOnly
    else if trim line = "a=inactive".toList then some .inactive
    else none
  directions.head?.getD .sendRecv

/-- `GetAbsoluteSendTimeExtensionIds`. -/
def getExtensionIds (sdp tag : Text) : AbsoluteSendTimeExtensionIds :=
  let mediaSection := getMediaSection sdp tag
  let sessionSection := getSessionSection sdp
  if hasExtmap mediaSection ∧ hasExtmap sessionSection then { valid := false }
  else if hasExtmap mediaSection then
    parseRemoteExtension mediaSection (getMediaDirection mediaSection)
  else parseRemoteExtension sessionSection .sendRecv

/-! ## Attribute lines -/

/-- The texts that end or start a section. -/
def sectionMarks : List Text :=
  [MediaKind.video.tag, MediaKind.audio.tag, MediaKind.data.tag, candidateTag]

theorem mark_of_mem {p : Text} (h : p ∈ sectionMarks) : IsSectionMark p := by
  simp only [sectionMarks, List.mem_cons, List.not_mem_nil, or_false] at h
  rcases h with rfl | rfl | rfl | rfl
  · exact tag_is_mark .video
  · exact tag_is_mark .audio
  · exact tag_is_mark .data
  · exact candidate_is_mark

/-- The name of an attribute that concerns no stream and hides no section. -/
def IsAttributeName (name : Text) : Prop :=
  '\n' ∉ name ∧ (∀ p ∈ sectionMarks, ¬ p <:+: name) ∧
    ∀ q ∈ ["m=".toList, "a=ssrc".toList, "a=x-reliable-data:".toList, candidateTag],
      ¬ q <+: name ∧ ¬ name <+: q

instance (name : Text) : Decidable (IsAttributeName name) :=
  inferInstanceAs (Decidable (_ ∧ _ ∧ _))

/-- A line made of an attribute name and a value. -/
theorem attribute_line {name value : Text} (hname : IsAttributeName name) (hbreak : '\n' ∉ value)
    (hvalue : ∀ p ∈ sectionMarks, ¬ p <:+: value) :
    IsBodyLine (name ++ ':' :: value) ∧ ¬ candidateTag <+: name ++ ':' :: value := by
  obtain ⟨hunbroken, hmarks, hstart⟩ := hname
  have hhides : ∀ p ∈ sectionMarks, ¬ p <:+: name ++ ':' :: value := by
    intro p hp h
    rcases (infix_append_cons (mark_of_mem hp).colon).mp h with h | h
    · exact hmarks p hp h
    · exact hvalue p hp h
  have hstart : ∀ q ∈ ["m=".toList, "a=ssrc".toList, "a=x-reliable-data:".toList, candidateTag],
      ¬ q <+: name ++ ':' :: value := fun q hq =>
    not_prefix_append (hstart q hq).1 (hstart q hq).2 _
  refine ⟨⟨?_, hstart _ (by simp), ?_, ⟨hstart _ (by simp), hstart _ (by simp)⟩, ?_⟩,
    hstart _ (by simp)⟩
  · simp only [List.mem_append, List.mem_cons, not_or]
    exact ⟨hunbroken, by decide, hbreak⟩
  · intro kind
    refine hhides _ ?_
    cases kind <;> simp [sectionMarks]
  · intro h
    exact absurd h (hhides _ (by simp [sectionMarks]))

/-- A value without an equals sign hides nothing. -/
theorem marks_not_in {value : Text} (h : '=' ∉ value) : ∀ p ∈ sectionMarks, ¬ p <:+: value :=
  fun _ hp => not_infix_of_not_mem (mark_of_mem hp).equals h

/-- The value of the retransmission parameters hides nothing. -/
theorem marks_not_in_apt {mediaPayload : Text} (h : '=' ∉ mediaPayload) :
    ∀ p ∈ sectionMarks, ¬ p <:+: "127 apt=".toList ++ mediaPayload := by
  intro p hp hmark
  obtain ⟨d, q, rfl, hd⟩ : ∃ d q, p = d :: '=' :: q ∧ d ≠ 't' := by
    simp only [sectionMarks, List.mem_cons, List.not_mem_nil, or_false] at hp
    rcases hp with rfl | rfl | rfl | rfl <;> exact ⟨_, _, rfl, by decide⟩
  have hne : d ≠ '=' := by
    rintro rfl
    simp only [sectionMarks, List.mem_cons, List.not_mem_nil, or_false] at hp
    rcases hp with hp | hp | hp | hp <;> exact absurd (List.cons.inj hp).1 (by decide)
  have hskip : ∀ {e f : Char} {s : Text}, '=' ≠ f → d :: '=' :: q <:+: e :: f :: s →
      d :: '=' :: q <:+: f :: s := by
    intro e f s hf hwithin
    rcases List.infix_cons_iff.mp hwithin with hstart | hwithin
    · exact absurd (List.cons_prefix_cons.mp (List.cons_prefix_cons.mp hstart).2).1 hf
    · exact hwithin
  have hsplit : "127 apt=".toList ++ mediaPayload =
      '1' :: '2' :: '7' :: ' ' :: 'a' :: 'p' :: 't' :: '=' :: mediaPayload := rfl
  rw [hsplit] at hmark
  have hlast := hskip (by decide) (hskip (by decide) (hskip (by decide) (hskip (by decide)
    (hskip (by decide) (hskip (by decide) hmark)))))
  exact hd (List.cons_prefix_cons.mp (starts_of_contains hne h hlast)).1

theorem integer_plain (n : ℤ) : '\n' ∉ integer n ∧ '=' ∉ integer n :=
  ⟨not_mem_integer rfl (by decide) n, not_mem_integer rfl (by decide) n⟩

/-- The lines about retransmission and feedback are plain attribute lines. -/
theorem video_transport_lines (n : ℤ) (include_ : VideoTransportCapabilities) :
    ∀ l ∈ videoTransportLines (integer n) include_, IsBodyLine l ∧ ¬ candidateTag <+: l := by
  obtain ⟨hbreak, hequals⟩ := integer_plain n
  intro l hl
  simp only [videoTransportLines, List.mem_append] at hl
  rcases hl with hl | hl | hl | hl
  · split_ifs at hl
    · simp only [List.mem_cons, List.not_mem_nil, or_false] at hl
      rcases hl with rfl | rfl
      · decide
      · have hline : "a=fmtp:127 apt=".toList ++ integer n =
            "a=fmtp".toList ++ ':' :: ("127 apt=".toList ++ integer n) := rfl
        rw [hline]
        refine attribute_line (by decide) ?_ (marks_not_in_apt hequals)
        simp only [List.mem_append, not_or]
        exact ⟨by decide, hbreak⟩
    · cases hl
  · split_ifs at hl
    · obtain rfl := List.mem_singleton.mp hl
      have hline : "a=rtcp-fb:".toList ++ integer n ++ " nack".toList =
          "a=rtcp-fb".toList ++ ':' :: (integer n ++ " nack".toList) := by
        rw [List.append_assoc]
        rfl
      rw [hline]
      refine attribute_line (by decide) ?_ (marks_not_in ?_)
      · simp only [List.mem_append, not_or]
        exact ⟨hbreak, by decide⟩
      · simp only [List.mem_append, not_or]
        exact ⟨hequals, by decide⟩
    · cases hl
  · split_ifs at hl
    · obtain rfl := List.mem_singleton.mp hl
      have hline : "a=rtcp-fb:".toList ++ integer n ++ " ccm fir".toList =
          "a=rtcp-fb".toList ++ ':' :: (integer n ++ " ccm fir".toList) := by
        rw [List.append_assoc]
        rfl
      rw [hline]
      refine attribute_line (by decide) ?_ (marks_not_in ?_)
      · simp only [List.mem_append, not_or]
        exact ⟨hbreak, by decide⟩
      · simp only [List.mem_append, not_or]
        exact ⟨hequals, by decide⟩
    · cases hl
  · split_ifs at hl
    · obtain rfl := List.mem_singleton.mp hl
      decide
    · cases hl

/-- The local side adds at most one line about the header extension. -/
theorem mem_local_extmap_lines {ids : AbsoluteSendTimeExtensionIds} {l : Text}
    (hl : l ∈ localExtmapLines ids) : ∃ id : Nat,
      l = "a=extmap:".toList ++ (decimal id ++ (extmapDirection ids ++
        (" ".toList ++ absoluteSendTimeUri))) := by
  unfold localExtmapLines at hl
  by_cases hvalid : ids.valid = true
  · rw [if_neg (not_not.mpr hvalid)] at hl
    cases hid : ids.sendId.or ids.recvId with
    | none => simp [hid] at hl
    | some id =>
        simp only [hid] at hl
        by_cases hone : isValidOneByteExtensionId id
        · rw [if_neg (not_not.mpr hone)] at hl
          split_ifs at hl
          · cases hl
          · exact ⟨id, List.mem_singleton.mp hl⟩
        · rw [if_pos hone] at hl
          cases hl
  · rw [if_pos hvalid] at hl
    cases hl

theorem extmap_direction_cases (ids : AbsoluteSendTimeExtensionIds) :
    extmapDirection ids = "/sendonly".toList ∨ extmapDirection ids = "/recvonly".toList ∨
      extmapDirection ids = [] := by
  unfold extmapDirection
  split_ifs
  · exact Or.inl rfl
  · exact Or.inr (Or.inl rfl)
  · exact Or.inr (Or.inr rfl)

/-- The line about the header extension is a plain attribute line. -/
theorem local_extmap_lines (ids : AbsoluteSendTimeExtensionIds) :
    ∀ l ∈ localExtmapLines ids, IsBodyLine l ∧ ¬ candidateTag <+: l := by
  intro l hl
  obtain ⟨id, rfl⟩ := mem_local_extmap_lines hl
  have hbreak : '\n' ∉ decimal id := not_mem_decimal rfl _
  have hequals : '=' ∉ decimal id := not_mem_decimal rfl _
  have hdirection : '\n' ∉ extmapDirection ids ∧ '=' ∉ extmapDirection ids := by
    rcases extmap_direction_cases ids with h | h | h <;> rw [h] <;> decide
  have hname : "a=extmap:".toList = "a=extmap".toList ++ [':'] := rfl
  rw [hname, List.append_assoc, List.singleton_append]
  refine attribute_line (by decide) ?_ (marks_not_in ?_)
  · simp only [List.mem_append, not_or]
    exact ⟨hbreak, hdirection.1, by decide, by decide⟩
  · simp only [List.mem_append, not_or]
    exact ⟨hequals, hdirection.2, by decide, by decide⟩

/-! ## The plans of offer and answer -/

/-- The capability that `protocol` and a list of payload types make. -/
def capabilityOf (types : List ℤ) : Text :=
  "UDP/TLS/RTP/SAVPF".toList ++ types.flatMap fun type => ' ' :: integer type

theorem capability_plain (types : List ℤ) :
    '\n' ∉ capabilityOf types ∧ '=' ∉ capabilityOf types := by
  have hlist : ∀ c : Char, c ≠ ' ' → (∀ n : ℤ, c ∉ integer n) →
      c ∉ types.flatMap fun type => ' ' :: integer type := by
    intro c hblank hinteger hmem
    obtain ⟨type, -, hc⟩ := List.mem_flatMap.mp hmem
    rcases List.mem_cons.mp hc with heq | hc
    · exact hblank heq
    · exact hinteger type hc
  unfold capabilityOf
  simp only [List.mem_append, not_or]
  exact ⟨⟨by decide, hlist _ (by decide) fun n => (integer_plain n).1⟩,
    by decide, hlist _ (by decide) fun n => (integer_plain n).2⟩

/-- `rtp::PAYLOAD_TYPE` values that an offer lists. -/
def h264Type : ℤ := 96
def av1Type : ℤ := 99
def rtxType : ℤ := 127
def opusType : ℤ := 111
def dataType : ℤ := 120

/-- The payload types of an offer, with the preferred one first. -/
def offeredVideoTypes (preferred : ℤ) : List ℤ :=
  if preferred = av1Type then [av1Type, 96, 97, 98, rtxType]
  else [h264Type, 97, 98, 99, rtxType]

/-- The payload type that the retransmissions of an offer belong to. -/
def offeredVideoType (preferred : ℤ) : ℤ :=
  if preferred = av1Type then av1Type else h264Type

/-- Both directions under the preferred id. -/
def offeredIds : AbsoluteSendTimeExtensionIds :=
  { sendId := some preferredExtensionId, recvId := some preferredExtensionId }

/-- The plan of a section from its payload types and its lines. -/
def planOf (types : List ℤ) (extra : List Text)
    (h : ∀ l ∈ extra, IsBodyLine l ∧ ¬ candidateTag <+: l) : MediaPlan where
  capability := capabilityOf types
  extra := extra
  plainCapability := capability_plain types
  extraLines := h

/-- Lines that follow the sections. -/
structure Trailer where
  lines : List Text
  plain : ∀ l ∈ lines, IsBodyLine l ∧ ¬ candidateTag <+: l

/-- `AppendLocalCapabilitiesToOffer`. -/
def offerPlan (preferred : ℤ) (trailer : Trailer) : SessionPlan where
  includeVideoRtx := true
  video := planOf (offeredVideoTypes preferred)
    (localExtmapLines offeredIds ++ videoTransportLines (integer (offeredVideoType preferred))
      ⟨true, true, true, true⟩)
    (List.forall_mem_append.mpr ⟨local_extmap_lines _, video_transport_lines _ _⟩)
  audio := planOf [opusType] (localExtmapLines offeredIds) (local_extmap_lines _)
  data := planOf [dataType, 121] [] no_lines_plain
  trailer := trailer.lines
  trailerLines := trailer.plain

/-- What the negotiation leaves at a transport. -/
structure Negotiated where
  videoType : ℤ
  audioType : ℤ
  dataType : ℤ
  videoIds : AbsoluteSendTimeExtensionIds
  audioIds : AbsoluteSendTimeExtensionIds

/-- `AppendLocalCapabilitiesToAnswer`, for what the video section of the offer allows. -/
def answerPlan (remote : VideoTransportCapabilities) (negotiated : Negotiated)
    (trailer : Trailer) : SessionPlan where
  includeVideoRtx := remote.rtx
  video := planOf (negotiated.videoType :: if remote.rtx then [rtxType] else [])
    (localExtmapLines { negotiated.videoIds with valid := true } ++
      videoTransportLines (integer negotiated.videoType) remote)
    (List.forall_mem_append.mpr ⟨local_extmap_lines _, video_transport_lines _ _⟩)
  audio := planOf [negotiated.audioType]
    (localExtmapLines { negotiated.audioIds with valid := true }) (local_extmap_lines _)
  data := planOf [negotiated.dataType] [] (by simp)
  trailer := trailer.lines
  trailerLines := trailer.plain

end IceTransport

end MiniRtc

import MiniRtc.Transport.SentSections

/-!
# Offer and answer

Two peers describe themselves to each other with `SendOffer` and `SendAnswer`, and each of them
reads the description of the other one with `GetRemoteCapabilities`. `agreement_iff` says when they
end with the same payload types, the same retransmissions and the same header extensions: unless
the id of a stream hides a section from one of them.
-/

namespace MiniRtc

open Text IceTransport

/-! ## The functions of the source -/

namespace RemoteNegotiation

/-- `ParseVideoTransportCapabilities` of the video section of the remote description. -/
def remoteVideoCapabilities (n : RemoteNegotiation) (remoteSdp : Text) :
    VideoTransportCapabilities :=
  parseVideoTransportCapabilities (getMediaSection remoteSdp MediaKind.video.tag)
    (n.negotiated .video)

/-- What `AppendLocalCapabilitiesToAnswer` puts into the answer. -/
def answerSide (n : RemoteNegotiation) (remoteSdp : Text) : LocalSide :=
  .answer (n.remoteVideoCapabilities remoteSdp)
    { videoType := n.negotiated .video
      audioType := n.negotiated .audio
      dataType := n.negotiated .data
      videoIds := { sendId := n.videoExtensionIds.1, recvId := n.videoExtensionIds.2 }
      audioIds := { sendId := n.audioExtensionIds.1, recvId := n.audioExtensionIds.2 } }

/-- The channels that `AppendLocalCapabilitiesToAnswer` creates. -/
def createForAnswer (n : RemoteNegotiation) (remoteSdp : Text) : RemoteNegotiation :=
  { n with
    created := some
      { negotiatedVideoPt := n.negotiated .video
        videoRtx := (n.remoteVideoCapabilities remoteSdp).rtx
        videoExtensionIds := n.videoExtensionIds
        audioExtensionIds := n.audioExtensionIds } }

/-- The video senders retransmit. -/
def SendsRtx (n : RemoteNegotiation) : Prop :=
  (n.created.any (·.videoRtx)) = true

/-- The receiver of a stream has an SSRC for retransmissions. -/
def ReceivesRtx (n : RemoteNegotiation) (id : Text) : Prop :=
  ((n.streamReceivers id).bind (·.rtxSsrc)).isSome = true

end RemoteNegotiation

/-- A peer: what its ICE library writes, its options and streams, the payload types that it
supports, and the digest of its certificate if its transport is encrypted. -/
structure Peer where
  stream : NiceStream
  options : AgentOptions
  streams : LocalStreams
  supported : MediaKind → SupportedTypes
  digest : Option (List (BitVec 8))

/-- The transport of a peer before it reads a description. -/
def Peer.transport (peer : Peer) (offerPeer : Bool) : RemoteNegotiation where
  offerPeer := offerPeer
  supported := peer.supported
  enableSrtp := peer.digest.isSome

/-- The transport after `AppendLocalCapabilitiesToOffer`. -/
def Peer.afterOffer (peer : Peer) : RemoteNegotiation :=
  { peer.transport true with
    videoExtensionIds := (some preferredExtensionId, some preferredExtensionId)
    audioExtensionIds := (some preferredExtensionId, some preferredExtensionId) }

/-- The description that a peer sends. -/
def Peer.sdp (peer : Peer) (side : LocalSide) : Text :=
  sentSdp peer.stream peer.options side peer.streams peer.digest

/-- An offer and its answer. -/
structure Exchange where
  offerer : Peer
  answerer : Peer
  preferred : ℤ

namespace Exchange

/-- The description that `SendOffer` sends. -/
def offer (x : Exchange) : Text :=
  x.offerer.sdp (.offer x.preferred)

/-- The answerer when it has read the offer. -/
def offerRead (x : Exchange) : RemoteNegotiation :=
  ((x.answerer.transport false).getRemoteCapabilities x.offer).1

/-- The description that `SendAnswer` sends. -/
def answer (x : Exchange) : Text :=
  x.answerer.sdp (x.offerRead.answerSide x.offer)

/-- The answerer when it has sent its answer. -/
def answererEnd (x : Exchange) : RemoteNegotiation :=
  x.offerRead.createForAnswer x.offer

/-- The offerer when it has read the answer. -/
def offererEnd (x : Exchange) : RemoteNegotiation :=
  (x.offerer.afterOffer.getRemoteCapabilities x.answer).1

/-- Both peers know the capabilities of the other one. -/
def Succeeds (x : Exchange) : Prop :=
  x.offerRead.remoteCapabilitiesGot = true ∧ x.offererEnd.remoteCapabilitiesGot = true

/-- The descriptions have no candidates in them. -/
def Trickled (x : Exchange) : Prop :=
  ¬ candidateTag <:+: x.offer ∧ ¬ candidateTag <:+: x.answer

/-! ## What the peers should agree on -/

/-- The same payload types, retransmissions where they are expected, and the identifiers of the
extension for sending where the other peer has those for receiving. -/
structure Agreement (x : Exchange) : Prop where
  types : ∀ kind, x.offererEnd.negotiated kind = x.answererEnd.negotiated kind
  offererRtx : ∀ v ∈ x.offerer.streams.video,
    (x.offererEnd.SendsRtx ↔ x.answererEnd.ReceivesRtx v.id)
  answererRtx : ∀ v ∈ x.answerer.streams.video,
    (x.answererEnd.SendsRtx ↔ x.offererEnd.ReceivesRtx v.id)
  videoIds : x.offererEnd.videoExtensionIds = x.answererEnd.videoExtensionIds.swap
  audioIds : x.offererEnd.audioExtensionIds = x.answererEnd.audioExtensionIds.swap

/-- No id of a video stream hides a section. An id of an audio stream of the answerer may only hide
the data section if the number behind it is the one that was read from the offer. -/
structure TagsVisible (x : Exchange) : Prop where
  offered : VideoIdsClear x.offerer.streams
  answered : VideoIdsClear x.answerer.streams
  data : (∀ a ∈ x.answerer.streams.audio, ¬ MediaKind.data.tag <:+: a.id) ∨
    strayNumber MediaKind.data.tag x.answer = strayNumber MediaKind.data.tag x.offer

end Exchange

/-! ## A description that is read for the first time -/

namespace RemoteNegotiation

variable {n : RemoteNegotiation} {sdp : Text}

/-- A transport that has not read a description yet. -/
structure IsFresh (n : RemoteNegotiation) : Prop where
  notGot : n.remoteCapabilitiesGot = false
  undefined : ∀ kind, n.negotiated kind = undefinedType
  noReceivers : ∀ name, n.streamReceivers name = none

/-- A negotiation that succeeds takes the numbers at the heads of the lists. -/
theorem get_remote_capabilities_fresh (h : n.IsFresh)
    (hgot : (n.getRemoteCapabilities sdp).1.remoteCapabilitiesGot = true) :
    (n.getRemoteCapabilities sdp).1 =
      ({ (n.readSections sdp).prepareChannels sdp with
        negotiated := fun kind => strayNumber kind.tag sdp } : RemoteNegotiation).createChannels
          sdp := by
  have heq := get_remote_capabilities_eq h.notGot sdp
  simp only at heq
  have hno : ∀ types : MediaKind → ℤ,
      ¬ ({ (n.readSections sdp).prepareChannels sdp with negotiated := types }
        : RemoteNegotiation).remoteCapabilitiesGot = true := by
    intro types hknown
    have hfalse : n.remoteCapabilitiesGot = true := hknown
    rw [h.notGot] at hfalse
    cases hfalse
  have htype : ∀ kind, (negotiate kind (n.supported kind).types sdp (n.negotiated kind)).1 = true →
      (negotiate kind (n.supported kind).types sdp (n.negotiated kind)).2 =
        strayNumber kind.tag sdp := by
    intro kind
    rw [h.undefined, negotiate_fresh]
    split_ifs
    · exact fun _ => rfl
    · exact fun hfalse => nomatch hfalse
  rw [heq] at hgot ⊢
  split_ifs at hgot ⊢ with hvideo haudio hdata
  · exact absurd hgot (hno _)
  · exact absurd hgot (hno _)
  · exact absurd hgot (hno _)
  · rw [Bool.not_eq_false] at hvideo haudio hdata
    have htypes : Function.update (Function.update (Function.update n.negotiated .video
        (negotiate .video (n.supported .video).types sdp (n.negotiated .video)).2) .audio
        (negotiate .audio (n.supported .audio).types sdp (n.negotiated .audio)).2) .data
        (negotiate .data (n.supported .data).types sdp (n.negotiated .data)).2 =
        fun kind => strayNumber kind.tag sdp := by
      funext kind
      rw [htype .video hvideo, htype .audio haudio, htype .data hdata]
      cases kind <;> rfl
    rw [htypes]

/-- A negotiation succeeds when the three numbers are supported. -/
theorem got_fresh_iff (h : n.IsFresh) :
    (n.getRemoteCapabilities sdp).1.remoteCapabilitiesGot = true ↔
      ∀ kind, strayNumber kind.tag sdp ∈ (n.supported kind).types := by
  have hnegotiates : ∀ kind, n.Negotiates sdp kind ↔
      strayNumber kind.tag sdp ∈ (n.supported kind).types := by
    intro kind
    unfold Negotiates
    rw [h.undefined, negotiate_fresh]
    split_ifs with hmem
    · exact iff_of_true rfl hmem
    · exact iff_of_false (by simp) hmem
  simp only [← hnegotiates]
  constructor
  · intro hgot
    by_contra hstop
    obtain ⟨types, heq, -⟩ := capabilities_stopped h.notGot hstop
    rw [heq] at hgot
    have hfalse : n.remoteCapabilitiesGot = true := hgot
    rw [h.notGot] at hfalse
    cases hfalse
  · intro hall
    obtain ⟨m, heq, hm⟩ := capabilities_negotiated h.notGot hall
    rw [heq]
    exact hm

/-- What is read from the sections of the description. -/
theorem reads_fresh (h : n.IsFresh)
    (hgot : (n.getRemoteCapabilities sdp).1.remoteCapabilitiesGot = true) :
    (∀ kind, (n.getRemoteCapabilities sdp).1.negotiated kind = strayNumber kind.tag sdp) ∧
      (∀ name, (n.getRemoteCapabilities sdp).1.streamReceivers name =
        channelOf (getRemoteStreams sdp n.streams) name) ∧
      (n.getRemoteCapabilities sdp).1.videoExtensionIds = n.extensionIds sdp .video ∧
      (n.getRemoteCapabilities sdp).1.audioExtensionIds = n.extensionIds sdp .audio := by
  rw [get_remote_capabilities_fresh h hgot]
  refine ⟨fun _ => rfl, fun name => ?_, rfl, rfl⟩
  show (n.streamReceivers name).or _ = _
  rw [h.noReceivers]
  rfl

/-- A stream of the video section whose retransmissions are grouped. -/
theorem channel_of_video {tables : SsrcTables} {streams : RemoteStreams} {id : Text}
    {ssrc rtxSsrc : Ssrc} (htables : sectionTables .video sdp = some tables)
    (hstream : tables.streams .video id = some ssrc) (hrtx : tables.rtxStreams id = some rtxSsrc)
    (hzero : rtxSsrc ≠ 0) (hne : ssrc ≠ rtxSsrc) :
    (channelOf (getRemoteStreams sdp streams) id).bind (·.rtxSsrc) = some rtxSsrc := by
  have hvideo : (getRemoteStreams sdp streams).video id = some ssrc := by
    show ((sectionTables .video sdp).map (·.streams .video)).getD streams.video id = _
    rw [htables]
    exact hstream
  have hvideoRtx : (getRemoteStreams sdp streams).videoRtx id = some rtxSsrc := by
    show ((sectionTables .video sdp).map (·.rtxStreams)).getD streams.videoRtx id = _
    rw [htables]
    exact hrtx
  unfold channelOf
  simp only [hvideo, hvideoRtx, Option.map_some, Option.getD_some, Option.some_or,
    Option.bind_some]
  exact if_pos ⟨hzero, hne.symm⟩

/-- Another stream has no retransmissions. -/
theorem channel_of_none {tables : SsrcTables} {streams : RemoteStreams} {id : Text}
    (htables : sectionTables .video sdp = some tables)
    (hstream : tables.streams .video id = none) :
    (channelOf (getRemoteStreams sdp streams) id).bind (·.rtxSsrc) = none := by
  have hvideo : (getRemoteStreams sdp streams).video id = none := by
    show ((sectionTables .video sdp).map (·.streams .video)).getD streams.video id = _
    rw [htables]
    exact hstream
  unfold channelOf
  simp only [hvideo, Option.map_none, Option.none_or]
  cases (getRemoteStreams sdp streams).audio id with
  | some ssrc => rfl
  | none => cases (getRemoteStreams sdp streams).data id <;> rfl

/-- All video streams of the sender have receivers with retransmissions exactly when their ids hide
no section. -/
theorem receives_rtx_iff {stream : NiceStream} {options : AgentOptions} {side : LocalSide}
    {streams : LocalStreams} {digest : Option (List (BitVec 8))} (h : n.IsFresh)
    (hrtx : AnnouncesRtx side)
    (hno : ¬ candidateTag <:+: sentSdp stream options side streams digest)
    (hgot : (n.getRemoteCapabilities
      (sentSdp stream options side streams digest)).1.remoteCapabilitiesGot = true) :
    (∀ v ∈ streams.video, (n.getRemoteCapabilities
        (sentSdp stream options side streams digest)).1.ReceivesRtx v.id) ↔
      VideoIdsClear streams := by
  have hchannel := (reads_fresh h hgot).2.1
  constructor
  · intro hreceives v hv kind hkind htag
    obtain ⟨tables, htables, hids⟩ := received_id_hides_none hrtx hno
    have hreceived := hreceives v hv
    unfold ReceivesRtx at hreceived
    rw [hchannel] at hreceived
    cases hstream : tables.streams .video v.id with
    | some ssrc => exact hids v.id ssrc hstream kind hkind htag
    | none =>
        rw [channel_of_none htables hstream] at hreceived
        cases hreceived
  · intro hclear v hv
    obtain ⟨tables, htables, hstreams⟩ := clear_video_streams hclear hrtx hno
    obtain ⟨hstream, hrtxStream⟩ := hstreams v hv
    obtain ⟨-, hzero, hne⟩ := groupable streams hv
    unfold ReceivesRtx
    rw [hchannel, channel_of_video htables hstream hrtxStream hzero hne]
    rfl

end RemoteNegotiation

namespace Exchange

variable {x : Exchange}

theorem transport_fresh (peer : Peer) (offerPeer : Bool) : (peer.transport offerPeer).IsFresh :=
  ⟨rfl, fun _ => rfl, fun _ => rfl⟩

theorem after_offer_fresh (peer : Peer) : peer.afterOffer.IsFresh :=
  ⟨rfl, fun _ => rfl, fun _ => rfl⟩

/-- The answerer reads the offered type and the offered retransmissions. -/
theorem offer_read (hgot : x.offerRead.remoteCapabilitiesGot = true) :
    x.offerRead.negotiated .video = offeredVideoType x.preferred ∧
      (x.offerRead.remoteVideoCapabilities x.offer).rtx = true := by
  obtain ⟨htype, hrtx⟩ := video_read_of_sent (offer_announces_rtx x.preferred) x.offerer.stream
    x.offerer.options x.offerer.streams x.offerer.digest
  have hread := (RemoteNegotiation.reads_fresh (transport_fresh x.answerer false) hgot).1 .video
  have hvideo : x.offerRead.negotiated .video = offeredVideoType x.preferred := hread.trans htype
  refine ⟨hvideo, ?_⟩
  unfold RemoteNegotiation.remoteVideoCapabilities
  rw [hvideo]
  exact hrtx

/-- The answer announces retransmission. -/
theorem answer_rtx (hgot : x.offerRead.remoteCapabilitiesGot = true) :
    AnnouncesRtx (x.offerRead.answerSide x.offer) :=
  answer_announces_rtx (offer_read hgot).2 _

theorem answer_side_type (kind : MediaKind) :
    (x.offerRead.answerSide x.offer).type kind = x.offerRead.negotiated kind := by
  cases kind <;> rfl

/-- The types that the offerer reads are those of the answerer. -/
theorem answer_types (hgot : x.offerRead.remoteCapabilitiesGot = true)
    (hanswered : VideoIdsClear x.answerer.streams) (kind : MediaKind)
    (hkind : kind = .data → ∀ a ∈ x.answerer.streams.audio, ¬ MediaKind.data.tag <:+: a.id) :
    strayNumber kind.tag x.answer = x.offerRead.negotiated kind := by
  refine Eq.trans ?_ (answer_side_type kind)
  cases kind with
  | video =>
      exact (video_read_of_sent (answer_rtx hgot) x.answerer.stream x.answerer.options
        x.answerer.streams x.answerer.digest).1
  | audio => exact clear_audio_type hanswered
  | data => exact clear_data_type hanswered (hkind rfl)

/-- Both peers send retransmissions. -/
theorem both_send_rtx (h : x.Succeeds) : x.answererEnd.SendsRtx ∧ x.offererEnd.SendsRtx := by
  refine ⟨(offer_read h.1).2, ?_⟩
  obtain ⟨htype, hrtx⟩ := video_read_of_sent (answer_rtx h.1) x.answerer.stream
    x.answerer.options x.answerer.streams x.answerer.digest
  unfold RemoteNegotiation.SendsRtx offererEnd
  rw [RemoteNegotiation.get_remote_capabilities_fresh (after_offer_fresh x.offerer) h.2]
  show (parseVideoTransportCapabilities (getMediaSection x.answer MediaKind.video.tag)
    (strayNumber MediaKind.video.tag x.answer)).rtx = true
  rw [answer, Peer.sdp, htype]
  exact hrtx

/-- The retransmissions agree exactly when no id of a video stream hides a section. -/
theorem rtx_agrees_iff (h : x.Succeeds) (hno : x.Trickled) :
    ((∀ v ∈ x.offerer.streams.video, (x.offererEnd.SendsRtx ↔ x.answererEnd.ReceivesRtx v.id)) ∧
      ∀ v ∈ x.answerer.streams.video, (x.answererEnd.SendsRtx ↔ x.offererEnd.ReceivesRtx v.id)) ↔
      VideoIdsClear x.offerer.streams ∧ VideoIdsClear x.answerer.streams := by
  obtain ⟨hanswerer, hofferer⟩ := both_send_rtx h
  simp only [hanswerer, hofferer, true_iff]
  exact and_congr
    (RemoteNegotiation.receives_rtx_iff (transport_fresh x.answerer false)
      (offer_announces_rtx x.preferred) hno.1 h.1)
    (RemoteNegotiation.receives_rtx_iff (after_offer_fresh x.offerer) (answer_rtx h.1) hno.2 h.2)

/-- The extension gets the preferred id at both peers when no id of a video stream hides a
section. -/
theorem extension_ids_agree (h : x.Succeeds) (hoffered : VideoIdsClear x.offerer.streams)
    (hanswered : VideoIdsClear x.answerer.streams) :
    x.offererEnd.videoExtensionIds = x.answererEnd.videoExtensionIds.swap ∧
      x.offererEnd.audioExtensionIds = x.answererEnd.audioExtensionIds.swap := by
  obtain ⟨-, -, hvideoOffer, haudioOffer⟩ :=
    RemoteNegotiation.reads_fresh (transport_fresh x.answerer false) h.1
  obtain ⟨-, -, hvideoAnswer, haudioAnswer⟩ :=
    RemoteNegotiation.reads_fresh (after_offer_fresh x.offerer) h.2
  have hofferIds : ∀ kind : MediaKind, kind ≠ .data →
      getExtensionIds x.offer kind.tag = offeredIds :=
    clear_extension_ids hoffered (filter_extmap _ _ _) rfl
  have hread : ∀ {n : RemoteNegotiation} {sdp : Text} {kind : MediaKind},
      getExtensionIds sdp kind.tag = offeredIds →
        n.extensionIds sdp kind = (some preferredExtensionId, some preferredExtensionId) := by
    intro n sdp kind hids
    unfold RemoteNegotiation.extensionIds
    rw [hids]
    cases n.offerPeer <;> rfl
  have hvideo : x.offerRead.videoExtensionIds =
      (some preferredExtensionId, some preferredExtensionId) :=
    hvideoOffer.trans (hread (hofferIds .video (by decide)))
  have haudio : x.offerRead.audioExtensionIds =
      (some preferredExtensionId, some preferredExtensionId) :=
    haudioOffer.trans (hread (hofferIds .audio (by decide)))
  -- The answer repeats the ids of the offer.
  have hanswerIds : ∀ kind : MediaKind, kind ≠ .data →
      getExtensionIds x.answer kind.tag = offeredIds := by
    refine clear_extension_ids hanswered ((filter_extmap _ _ _).trans ?_) ?_
    · rw [hvideo]
      rfl
    · show localExtmapLines ⟨x.offerRead.audioExtensionIds.1, x.offerRead.audioExtensionIds.2,
        true⟩ = _
      rw [haudio]
      rfl
  have hvideoEnd : x.offererEnd.videoExtensionIds =
      (some preferredExtensionId, some preferredExtensionId) :=
    hvideoAnswer.trans (hread (hanswerIds .video (by decide)))
  have haudioEnd : x.offererEnd.audioExtensionIds =
      (some preferredExtensionId, some preferredExtensionId) :=
    haudioAnswer.trans (hread (hanswerIds .audio (by decide)))
  have hkeeps : x.answererEnd.videoExtensionIds = x.offerRead.videoExtensionIds ∧
      x.answererEnd.audioExtensionIds = x.offerRead.audioExtensionIds := ⟨rfl, rfl⟩
  rw [hkeeps.1, hkeeps.2, hvideo, haudio, hvideoEnd, haudioEnd]
  exact ⟨rfl, rfl⟩

/-- The payload types agree when the answer lists those that were read where they are looked for. -/
theorem types_agree_iff (h : x.Succeeds) (hanswered : VideoIdsClear x.answerer.streams) :
    (∀ kind, x.offererEnd.negotiated kind = x.answererEnd.negotiated kind) ↔
      (∀ a ∈ x.answerer.streams.audio, ¬ MediaKind.data.tag <:+: a.id) ∨
        strayNumber MediaKind.data.tag x.answer = strayNumber MediaKind.data.tag x.offer := by
  have hoffer := (RemoteNegotiation.reads_fresh (transport_fresh x.answerer false) h.1).1
  have hanswer := (RemoteNegotiation.reads_fresh (after_offer_fresh x.offerer) h.2).1
  constructor
  · intro hagree
    exact Or.inr ((hanswer .data).symm.trans ((hagree .data).trans (hoffer .data)))
  · intro hdata kind
    refine (hanswer kind).trans ?_
    show _ = x.offerRead.negotiated kind
    cases kind with
    | video => exact answer_types h.1 hanswered .video fun hkind => nomatch hkind
    | audio => exact answer_types h.1 hanswered .audio fun hkind => nomatch hkind
    | data =>
        rcases hdata with haudio | hsame
        · exact answer_types h.1 hanswered .data fun _ => haudio
        · exact hsame.trans (hoffer .data).symm

/-- When no id hides a section, an exchange succeeds exactly when both peers support the types that
the offer lists first. -/
theorem succeeds_iff (x : Exchange) (hoffered : HidesNoSection x.offerer.streams)
    (hanswered : HidesNoSection x.answerer.streams) :
    x.Succeeds ↔ ∀ kind, (LocalSide.offer x.preferred).type kind ∈
      (x.answerer.supported kind).types ∧
        (LocalSide.offer x.preferred).type kind ∈ (x.offerer.supported kind).types := by
  have hofferTypes : ∀ kind,
      strayNumber kind.tag x.offer = (LocalSide.offer x.preferred).type kind := by
    intro kind
    cases kind with
    | video =>
        exact (video_read_of_sent (offer_announces_rtx x.preferred) x.offerer.stream
          x.offerer.options x.offerer.streams x.offerer.digest).1
    | audio => exact clear_audio_type hoffered.videoIdsClear
    | data => exact clear_data_type hoffered.videoIdsClear hoffered.audio
  have hread : x.offerRead.remoteCapabilitiesGot = true ↔ ∀ kind,
      (LocalSide.offer x.preferred).type kind ∈ (x.answerer.supported kind).types := by
    refine (RemoteNegotiation.got_fresh_iff (transport_fresh x.answerer false)).trans ?_
    exact forall_congr' fun kind => by rw [hofferTypes]; rfl
  -- The answer lists what was read from the offer.
  have hanswerTypes : x.offerRead.remoteCapabilitiesGot = true → ∀ kind,
      strayNumber kind.tag x.answer = (LocalSide.offer x.preferred).type kind := by
    intro hgot kind
    have hoffer := (RemoteNegotiation.reads_fresh (transport_fresh x.answerer false) hgot).1 kind
    exact (answer_types hgot hanswered.videoIdsClear kind fun _ => hanswered.audio).trans
      (hoffer.trans (hofferTypes kind))
  constructor
  · rintro ⟨hgot, hend⟩ kind
    have hsupported := (RemoteNegotiation.got_fresh_iff (after_offer_fresh x.offerer)).mp hend kind
    rw [hanswerTypes hgot] at hsupported
    exact ⟨hread.mp hgot kind, hsupported⟩
  · intro hboth
    have hgot := hread.mpr fun kind => (hboth kind).1
    refine ⟨hgot, ?_⟩
    refine (RemoteNegotiation.got_fresh_iff (after_offer_fresh x.offerer)).mpr fun kind => ?_
    rw [hanswerTypes hgot]
    exact (hboth kind).2

/-- A peer with one camera, one microphone and one data channel. -/
def standardPeer : Peer where
  stream := trickledStream
  options := ⟨false, false, false, false⟩
  streams := threeStreams
  supported := fun _ => ⟨[96, 111, 120], by decide⟩
  digest := some sampleDigest

def standardExchange : Exchange :=
  ⟨standardPeer, standardPeer, h264Type⟩

theorem three_streams_hide_nothing : IdsHideNothing threeStreams :=
  ⟨⟨by decide, by decide⟩, by decide, by decide, by decide⟩

theorem standard_exchange_succeeds : standardExchange.Succeeds :=
  (succeeds_iff standardExchange three_streams_hide_nothing.sections
    three_streams_hide_nothing.sections).mpr fun kind => by cases kind <;> decide

theorem standard_exchange_trickled : standardExchange.Trickled := by
  have hlines : ∀ line ∈ trickledStream.lines, line.field ≠ .candidate := by decide
  have hsent : ∀ side, ¬ candidateTag <:+: standardPeer.sdp side := fun side =>
    no_candidate_sent three_streams_hide_nothing hlines
  exact ⟨hsent _, hsent _⟩

end Exchange

end MiniRtc

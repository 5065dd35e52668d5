import MiniRtc.Transport.PayloadNegotiation
import MiniRtc.Transport.RemoteCandidates
import MiniRtc.Transport.RemoteCapabilities
import MiniRtc.Transport.SessionCapabilities

/-!
# What a failed remote description leaves behind

`GetRemoteCapabilities` with everything that it writes, under `SetRemoteSdp`. The streams of the
sections, the extensions and the receive channels are written before the first check that can fail,
and the ICE agent can turn a description down after the negotiation is over.

`failed_call_unchanged_iff` says when a failed call changes nothing: when the ICE username is turned
down, or when all that is written was there before.
-/

namespace MiniRtc

open Text IceTransport

/-! ## The functions of the source -/

/-- A receive channel of the `IceTransportController`. -/
structure ReceiveChannel where
  kind : MediaKind
  ssrc : Ssrc
  rtxSsrc : Option Ssrc := none
  reliable : Bool := false
  deriving DecidableEq

/-- What `Create` of the controller gets from the negotiation. -/
structure CreatedChannels where
  negotiatedVideoPt : ℤ
  videoRtx : Bool
  videoExtensionIds : Option Nat × Option Nat
  audioExtensionIds : Option Nat × Option Nat
  deriving DecidableEq

/-- The streams of a kind. -/
def IceTransport.RemoteStreams.ofKind (streams : RemoteStreams) : MediaKind → IdMap Ssrc
  | .video => streams.video
  | .audio => streams.audio
  | .data => streams.data

/-- The part of an `IceTransport` that a remote description decides, with its controller. The
identifiers of an extension are those for sending and for receiving. -/
structure RemoteNegotiation where
  offerPeer : Bool
  supported : MediaKind → SupportedTypes
  remoteIceUsername : Text := []
  streams : RemoteStreams := {}
  remoteStreamIds : MediaKind → List Text := fun _ => []
  videoExtensionIds : Option Nat × Option Nat := (none, none)
  audioExtensionIds : Option Nat × Option Nat := (none, none)
  enableSrtp : Bool := true
  negotiated : MediaKind → ℤ := fun _ => undefinedType
  remoteCapabilitiesGot : Bool := false
  controllerSrtp : Bool := true
  streamReceivers : Text → Option ReceiveChannel := fun _ => none
  created : Option CreatedChannels := none

namespace RemoteNegotiation

/-- The stream ids that `ParseSsrcFromSdpAndRemove` finds in a section. -/
def sectionIds (kind : MediaKind) (sdp : Text) : List Text :=
  ((sectionTables kind sdp).map fun tables => tables.names.filterMap (tables.streamOf kind)).getD []

/-- The sections and the fingerprint, which are read every time. -/
def readSections (n : RemoteNegotiation) (sdp : Text) : RemoteNegotiation :=
  { n with
    streams := getRemoteStreams sdp n.streams
    remoteStreamIds := fun kind => n.remoteStreamIds kind ++ sectionIds kind sdp
    enableSrtp := n.enableSrtp && (rfind fingerprintTag sdp).isSome }

/-- The identifiers of the extension in a section. An answer that has changed those of the offer
gives none. -/
def extensionIds (n : RemoteNegotiation) (sdp : Text) (kind : MediaKind) :
    Option Nat × Option Nat :=
  let ids := getExtensionIds sdp kind.tag
  let idChanged := ids.sendId.any (· ≠ preferredExtensionId) ||
    ids.recvId.any (· ≠ preferredExtensionId)
  if n.offerPeer && idChanged then (none, none) else (ids.sendId, ids.recvId)

/-- The channel that is added for the name of a stream: `AddVideoReceiveChannel`,
`AddAudioReceiveChannel` and `AddDataReceiveChannel`, in this order. -/
def channelOf (streams : RemoteStreams) (name : Text) : Option ReceiveChannel :=
  let video := (streams.video name).map fun ssrc =>
    let rtxSsrc := (streams.videoRtx name).getD 0
    { kind := .video, ssrc, rtxSsrc := if rtxSsrc ≠ 0 ∧ rtxSsrc ≠ ssrc then some rtxSsrc else none
      : ReceiveChannel }
  let audio := (streams.audio name).map fun ssrc => { kind := .audio, ssrc : ReceiveChannel }
  let data := (streams.data name).map fun ssrc =>
    { kind := .data, ssrc, reliable := (streams.reliable name).getD false : ReceiveChannel }
  (video.or audio).or data

/-- The extensions and the receive channels, which are written while the capabilities are not known.
A name that has a channel keeps it. -/
def prepareChannels (n : RemoteNegotiation) (sdp : Text) : RemoteNegotiation :=
  { n with
    videoExtensionIds := n.extensionIds sdp .video
    audioExtensionIds := n.extensionIds sdp .audio
    controllerSrtp := n.enableSrtp
    streamReceivers := fun name => (n.streamReceivers name).or (channelOf n.streams name) }

/-- `NegotiateVideoPayloadType`, `NegotiateAudioPayloadType` or `NegotiateDataPayloadType`. -/
def negotiateKind (n : RemoteNegotiation) (sdp : Text) (kind : MediaKind) :
    Bool × RemoteNegotiation :=
  let result := negotiate kind (n.supported kind).types sdp (n.negotiated kind)
  (result.1, { n with negotiated := Function.update n.negotiated kind result.2 })

/-- The end of a negotiation: the side that has offered creates its channels. -/
def createChannels (n : RemoteNegotiation) (sdp : Text) : RemoteNegotiation :=
  let capabilities := parseVideoTransportCapabilities (getMediaSection sdp MediaKind.video.tag)
    (n.negotiated .video)
  { n with
    created :=
      if n.offerPeer then
        some
          { negotiatedVideoPt := n.negotiated .video
            videoRtx := capabilities.rtx
            videoExtensionIds := n.videoExtensionIds
            audioExtensionIds := n.audioExtensionIds }
      else n.created
    remoteCapabilitiesGot := true }

/-- `GetRemoteCapabilities`. -/
def getRemoteCapabilities (n : RemoteNegotiation) (sdp : Text) : RemoteNegotiation × Text :=
  let n := n.readSections sdp
  if n.remoteCapabilitiesGot then (n, mediaStreamSdp sdp)
  else
    let n := n.prepareChannels sdp
    let video := n.negotiateKind sdp .video
    if video.1 = false then (video.2, [])
    else
      let audio := video.2.negotiateKind sdp .audio
      if audio.1 = false then (audio.2, [])
      else
        let data := audio.2.negotiateKind sdp .data
        if data.1 = false then (data.2, [])
        else (data.2.createChannels sdp, mediaStreamSdp sdp)

/-- `SetRemoteSdp`, as far as it decides over the description. -/
def setRemoteSdp (agentSetRemoteSdp : Text → ℤ) (n : RemoteNegotiation) (remoteSdp : Text) :
    RemoteNegotiation × ℤ :=
  let remoteUfrag := getIceUsername remoteSdp
  if remoteUfrag = [] then (n, -1)
  else if n.remoteIceUsername ≠ [] ∧ n.remoteIceUsername ≠ remoteUfrag then (n, -1)
  else
    let result := n.getRemoteCapabilities remoteSdp
    if result.2 = [] then (result.1, -1)
    else if agentSetRemoteSdp (agentDescription remoteSdp result.2) ≠ 0 then (result.1, -1)
    else ({ result.1 with remoteIceUsername := remoteUfrag }, 0)

/-! ## What a failed call must not change -/

/-- What a remote description negotiates is the same before and after. -/
structure SameCapabilities (n m : RemoteNegotiation) : Prop where
  negotiated : m.negotiated = n.negotiated
  streams : ∀ kind, m.streams.ofKind kind = n.streams.ofKind kind
  videoRtx : m.streams.videoRtx = n.streams.videoRtx
  streamIds : m.remoteStreamIds = n.remoteStreamIds
  extensionIds : m.videoExtensionIds = n.videoExtensionIds ∧
    m.audioExtensionIds = n.audioExtensionIds
  enableSrtp : m.enableSrtp = n.enableSrtp
  streamReceivers : m.streamReceivers = n.streamReceivers
  remoteCapabilitiesGot : m.remoteCapabilitiesGot = n.remoteCapabilitiesGot

/-- The ICE username is missing or another one. -/
def UsernameRejected (n : RemoteNegotiation) (sdp : Text) : Prop :=
  getIceUsername sdp = [] ∨ n.remoteIceUsername ≠ [] ∧ n.remoteIceUsername ≠ getIceUsername sdp

/-- The payload types of a kind can be negotiated. -/
def Negotiates (n : RemoteNegotiation) (sdp : Text) (kind : MediaKind) : Prop :=
  (negotiate kind (n.supported kind).types sdp (n.negotiated kind)).1 = true

/-- The negotiation of a kind leaves the type that is there. -/
def KeepsType (n : RemoteNegotiation) (sdp : Text) (kind : MediaKind) : Prop :=
  (negotiate kind (n.supported kind).types sdp (n.negotiated kind)).2 = n.negotiated kind

/-- The negotiation succeeds or is over, there is a description for the agent, and the agent takes
it. -/
def Accepted (agentSetRemoteSdp : Text → ℤ) (n : RemoteNegotiation) (sdp : Text) : Prop :=
  (n.remoteCapabilitiesGot = true ∨ ∀ kind, n.Negotiates sdp kind) ∧ mediaStreamSdp sdp ≠ [] ∧
    agentSetRemoteSdp (agentDescription sdp (mediaStreamSdp sdp)) = 0

/-- The sections that the description has name no streams, the streams that are known are none or of
other sections, and there is a fingerprint or no encryption to turn off. -/
def NoNewStreams (n : RemoteNegotiation) (sdp : Text) : Prop :=
  (∀ kind tables, sectionTables kind sdp = some tables →
      tables.names.filterMap (tables.streamOf kind) = [] ∧
        n.streams.ofKind kind = fun _ => none) ∧
    (∀ tables, sectionTables .video sdp = some tables →
      n.streams.videoRtx = tables.rtxStreams) ∧
    (n.enableSrtp = true → (rfind fingerprintTag sdp).isSome = true)

/-- One of the three negotiations fails, and those before it leave the types that are there. -/
def StopsUnchanged (n : RemoteNegotiation) (sdp : Text) : Prop :=
  ¬ n.Negotiates sdp .video ∨ n.KeepsType sdp .video ∧
    (¬ n.Negotiates sdp .audio ∨ n.KeepsType sdp .audio ∧ ¬ n.Negotiates sdp .data)

/-- All that a failing call writes is there already. -/
def NothingNew (n : RemoteNegotiation) (sdp : Text) : Prop :=
  n.NoNewStreams sdp ∧
    (n.remoteCapabilitiesGot = true ∨
      n.extensionIds sdp .video = n.videoExtensionIds ∧
      n.extensionIds sdp .audio = n.audioExtensionIds ∧
      (∀ kind name, (n.streams.ofKind kind name).isSome = true →
        (n.streamReceivers name).isSome = true) ∧
      n.StopsUnchanged sdp)

/-! ## What the sections change -/

variable {n : RemoteNegotiation} {sdp : Text}

/-- A section without ids has no streams. -/
theorem streams_of_no_ids {tables : SsrcTables} {kind : MediaKind}
    (h : tables.names.filterMap (tables.streamOf kind) = []) :
    tables.streams kind = fun _ => none := by
  have hnone : ∀ entry ∈ tables.names, tables.streamOf kind entry = none :=
    List.filterMap_eq_nil_iff.mp h
  unfold SsrcTables.streams fillIds
  refine List.foldlRecOn tables.names _ (motive := fun ids : IdMap Ssrc => ids = fun _ => none) rfl
    fun ids hids entry hin => ?_
  rw [hids, hnone entry hin]

/-- The streams of a kind are those of its section, if it is there. -/
theorem read_streams (n : RemoteNegotiation) (sdp : Text) (kind : MediaKind) :
    (n.readSections sdp).streams.ofKind kind =
      ((sectionTables kind sdp).map (·.streams kind)).getD (n.streams.ofKind kind) := by
  cases kind <;> rfl

/-- The sections change nothing when they name no streams and hide no fingerprint. -/
theorem no_new_streams_iff :
    n.NoNewStreams sdp ↔
      (∀ kind, (n.readSections sdp).streams.ofKind kind = n.streams.ofKind kind) ∧
        (n.readSections sdp).streams.videoRtx = n.streams.videoRtx ∧
        (n.readSections sdp).remoteStreamIds = n.remoteStreamIds ∧
        (n.readSections sdp).enableSrtp = n.enableSrtp := by
  have hids : (n.readSections sdp).remoteStreamIds = n.remoteStreamIds ↔
      ∀ kind, sectionIds kind sdp = [] := by
    constructor
    · intro heq kind
      exact List.append_right_eq_self.mp (congrFun heq kind)
    · intro hnone
      funext kind
      show n.remoteStreamIds kind ++ sectionIds kind sdp = n.remoteStreamIds kind
      rw [hnone, List.append_nil]
  have hsrtp : (n.readSections sdp).enableSrtp = n.enableSrtp ↔
      (n.enableSrtp = true → (rfind fingerprintTag sdp).isSome = true) := by
    show (n.enableSrtp && (rfind fingerprintTag sdp).isSome) = n.enableSrtp ↔ _
    exact Bool.and_eq_left_iff_imp
  have hrtx : (n.readSections sdp).streams.videoRtx = n.streams.videoRtx ↔
      ∀ tables, sectionTables .video sdp = some tables →
        n.streams.videoRtx = tables.rtxStreams := by
    show ((sectionTables .video sdp).map (·.rtxStreams)).getD n.streams.videoRtx = _ ↔ _
    cases sectionTables .video sdp with
    | none => simp
    | some tables => simp [eq_comm]
  rw [hids, hsrtp, hrtx]
  constructor
  · rintro ⟨hstreams, hvideo, hfingerprint⟩
    refine ⟨fun kind => ?_, hvideo, fun kind => ?_, hfingerprint⟩
    · rw [read_streams]
      cases htables : sectionTables kind sdp with
      | none => rfl
      | some tables =>
          obtain ⟨hnone, hempty⟩ := hstreams kind tables htables
          rw [Option.map_some, Option.getD_some, hempty, streams_of_no_ids hnone]
    · unfold sectionIds
      cases htables : sectionTables kind sdp with
      | none => rfl
      | some tables => exact (hstreams kind tables htables).1
  · rintro ⟨hsame, hvideo, hnone, hfingerprint⟩
    refine ⟨fun kind tables htables => ?_, hvideo, hfingerprint⟩
    have hempty := hnone kind
    unfold sectionIds at hempty
    rw [htables] at hempty
    refine ⟨hempty, ?_⟩
    have hkind := hsame kind
    rw [read_streams, htables] at hkind
    rw [← hkind]
    exact streams_of_no_ids hempty

/-! ## What the negotiation changes -/

/-- A negotiation that fails leaves the type that is there. -/
theorem keeps_type_of_failure {kind : MediaKind} (h : ¬ n.Negotiates sdp kind) :
    n.KeepsType sdp kind := by
  have hdefined := (n.supported kind).defined
  have hchosen : preferedType (n.supported kind).types (remoteCapabilities kind.tag sdp)
      ((remoteCapabilities kind.tag sdp).length + 1) 0 = _ :=
    prefered_type_eq hdefined _ 0 (Nat.zero_le _) (by omega)
  unfold Negotiates at h
  unfold KeepsType
  rw [negotiate_eq] at h ⊢
  unfold negotiatePayloadType at h ⊢
  simp only [hchosen, decide_eq_true_eq, ne_eq, not_not] at h ⊢
  split_ifs at h ⊢ with hsupported
  · exact absurd (h ▸ hsupported) hdefined
  · rfl

/-- A type is left when the update writes what is there. -/
theorem update_negotiated_iff {types : MediaKind → ℤ} {kind : MediaKind} {type : ℤ}
    (hkind : types kind = n.negotiated kind) :
    Function.update types kind type = n.negotiated ↔
      type = n.negotiated kind ∧ types = n.negotiated := by
  constructor
  · intro heq
    have htype : type = n.negotiated kind := by
      rw [← heq, Function.update_self]
    refine ⟨htype, ?_⟩
    rw [htype, ← hkind, Function.update_eq_self] at heq
    exact heq
  · rintro ⟨rfl, rfl⟩
    exact Function.update_eq_self _ _

/-- `GetRemoteCapabilities` when the capabilities are known. -/
theorem get_remote_capabilities_known (hgot : n.remoteCapabilitiesGot = true) :
    n.getRemoteCapabilities sdp = (n.readSections sdp, mediaStreamSdp sdp) := by
  unfold getRemoteCapabilities
  exact if_pos hgot

/-- `GetRemoteCapabilities` while the capabilities are not known. -/
theorem get_remote_capabilities_eq (hgot : n.remoteCapabilitiesGot = false) (sdp : Text) :
    let prepared := (n.readSections sdp).prepareChannels sdp
    let type := fun kind => negotiate kind (n.supported kind).types sdp (n.negotiated kind)
    let afterVideo := Function.update n.negotiated .video (type .video).2
    let afterAudio := Function.update afterVideo .audio (type .audio).2
    let afterData := Function.update afterAudio .data (type .data).2
    n.getRemoteCapabilities sdp =
      if (type .video).1 = false then ({ prepared with negotiated := afterVideo }, [])
      else if (type .audio).1 = false then ({ prepared with negotiated := afterAudio }, [])
      else if (type .data).1 = false then ({ prepared with negotiated := afterData }, [])
      else
        (({ prepared with negotiated := afterData } : RemoteNegotiation).createChannels sdp,
          mediaStreamSdp sdp) := by
  have hgot' : ¬ (n.readSections sdp).remoteCapabilitiesGot = true := by
    show ¬ n.remoteCapabilitiesGot = true
    rw [hgot]
    decide
  unfold getRemoteCapabilities
  simp only
  rw [if_neg hgot']
  rfl

/-- A negotiation that stops leaves the types as they are when those before the failure write
nothing new. -/
theorem capabilities_stopped (hgot : n.remoteCapabilitiesGot = false)
    (hstop : ¬ ∀ kind, n.Negotiates sdp kind) :
    ∃ types, n.getRemoteCapabilities sdp =
        ({ (n.readSections sdp).prepareChannels sdp with negotiated := types }, []) ∧
      (types = n.negotiated ↔ n.StopsUnchanged sdp) := by
  have hfails : ∀ kind, ¬ n.Negotiates sdp kind ↔
      (negotiate kind (n.supported kind).types sdp (n.negotiated kind)).1 = false := by
    intro kind
    unfold Negotiates
    rw [Bool.not_eq_true]
  have hkept := fun kind (h : ¬ n.Negotiates sdp kind) => keeps_type_of_failure h
  have heq := get_remote_capabilities_eq hgot sdp
  simp only at heq
  unfold StopsUnchanged
  by_cases hvideo : n.Negotiates sdp .video
  · rw [if_neg (by rw [← hfails]; exact not_not.mpr hvideo)] at heq
    by_cases haudio : n.Negotiates sdp .audio
    · rw [if_neg (by rw [← hfails]; exact not_not.mpr haudio)] at heq
      have hdata : ¬ n.Negotiates sdp .data := fun hdata => hstop fun kind => by
        cases kind with
        | video => exact hvideo
        | audio => exact haudio
        | data => exact hdata
      rw [if_pos ((hfails .data).mp hdata)] at heq
      refine ⟨_, heq, ?_⟩
      have hkeeps : (negotiate .data (n.supported .data).types sdp (n.negotiated .data)).2 =
          n.negotiated .data := hkept .data hdata
      rw [update_negotiated_iff, update_negotiated_iff, update_negotiated_iff]
      · simp only [hvideo, haudio, hdata, hkeeps, not_true_eq_false, not_false_eq_true, true_and,
          false_or, and_true, KeepsType]
        exact and_comm
      · rfl
      · rfl
      · rfl
    · rw [if_pos ((hfails .audio).mp haudio)] at heq
      refine ⟨_, heq, ?_⟩
      have hkeeps : (negotiate .audio (n.supported .audio).types sdp (n.negotiated .audio)).2 =
          n.negotiated .audio := hkept .audio haudio
      rw [update_negotiated_iff, update_negotiated_iff]
      · simp only [hvideo, haudio, hkeeps, not_true_eq_false, not_false_eq_true, true_and, true_or,
          false_or, and_true, KeepsType]
      · rfl
      · rfl
  · rw [if_pos ((hfails .video).mp hvideo)] at heq
    refine ⟨_, heq, ?_⟩
    have hkeeps : (negotiate .video (n.supported .video).types sdp (n.negotiated .video)).2 =
        n.negotiated .video := hkept .video hvideo
    rw [update_negotiated_iff]
    · simp only [hvideo, hkeeps, not_false_eq_true, true_or, and_self]
    · rfl

/-- A negotiation that succeeds is remembered. -/
theorem capabilities_negotiated (hgot : n.remoteCapabilitiesGot = false)
    (hall : ∀ kind, n.Negotiates sdp kind) :
    ∃ m, n.getRemoteCapabilities sdp = (m, mediaStreamSdp sdp) ∧
      m.remoteCapabilitiesGot = true := by
  have hsucceeds : ∀ kind,
      ¬ (negotiate kind (n.supported kind).types sdp (n.negotiated kind)).1 = false := by
    intro kind
    rw [Bool.not_eq_false]
    exact hall kind
  have heq := get_remote_capabilities_eq hgot sdp
  simp only at heq
  rw [if_neg (hsucceeds .video), if_neg (hsucceeds .audio), if_neg (hsucceeds .data)] at heq
  exact ⟨_, heq, rfl⟩

/-- The channels are those that were there when every stream has one. -/
theorem channels_kept_iff {streams : RemoteStreams} :
    (fun name => (n.streamReceivers name).or (channelOf streams name)) = n.streamReceivers ↔
      ∀ kind name, (streams.ofKind kind name).isSome = true →
        (n.streamReceivers name).isSome = true := by
  have hchannel : ∀ name, (channelOf streams name).isSome = true ↔
      ∃ kind, (streams.ofKind kind name).isSome = true := by
    intro name
    have hsome : (channelOf streams name).isSome = true ↔
        ((streams.video name).isSome = true ∨ (streams.audio name).isSome = true) ∨
          (streams.data name).isSome = true := by
      unfold channelOf
      simp only [Option.isSome_or, Option.isSome_map, Bool.or_eq_true]
    rw [hsome]
    constructor
    · rintro ((hvideo | haudio) | hdata)
      · exact ⟨.video, hvideo⟩
      · exact ⟨.audio, haudio⟩
      · exact ⟨.data, hdata⟩
    · rintro ⟨kind, hkind⟩
      cases kind with
      | video => exact .inl (.inl hkind)
      | audio => exact .inl (.inr hkind)
      | data => exact .inr hkind
  constructor
  · intro heq kind name hstream
    have hname := congrFun heq name
    obtain ⟨channel, hsome⟩ := Option.isSome_iff_exists.mp ((hchannel name).mpr ⟨kind, hstream⟩)
    cases hreceiver : n.streamReceivers name with
    | some receiver => rfl
    | none =>
        rw [hreceiver, hsome, Option.none_or] at hname
        cases hname
  · intro hkept
    funext name
    cases hreceiver : n.streamReceivers name with
    | some receiver => rfl
    | none =>
        rw [Option.none_or, ← Option.not_isSome_iff_eq_none, hchannel]
        rintro ⟨kind, hkind⟩
        have hsome := hkept kind name hkind
        rw [hreceiver] at hsome
        cases hsome

/-- What was prepared for a negotiation that stops is what was there. -/
theorem same_prepared_iff (types : MediaKind → ℤ) :
    SameCapabilities n
        { (n.readSections sdp).prepareChannels sdp with negotiated := types } ↔
      n.NoNewStreams sdp ∧ n.extensionIds sdp .video = n.videoExtensionIds ∧
        n.extensionIds sdp .audio = n.audioExtensionIds ∧
        (∀ kind name, (n.streams.ofKind kind name).isSome = true →
          (n.streamReceivers name).isSome = true) ∧
        types = n.negotiated := by
  have hchannels : ∀ (hstreams : ∀ kind,
      (n.readSections sdp).streams.ofKind kind = n.streams.ofKind kind),
      (fun name => (n.streamReceivers name).or (channelOf (n.readSections sdp).streams name)) =
          n.streamReceivers ↔
        ∀ kind name, (n.streams.ofKind kind name).isSome = true →
          (n.streamReceivers name).isSome = true := by
    intro hstreams
    rw [channels_kept_iff]
    simp only [hstreams]
  constructor
  · intro h
    refine ⟨no_new_streams_iff.mpr ⟨h.streams, h.videoRtx, h.streamIds, h.enableSrtp⟩,
      h.extensionIds.1, h.extensionIds.2, ?_, h.negotiated⟩
    exact (hchannels h.streams).mp h.streamReceivers
  · rintro ⟨hstreams, hvideo, haudio, hkept, htypes⟩
    obtain ⟨hsame, hrtx, hids, hsrtp⟩ := no_new_streams_iff.mp hstreams
    exact
      { negotiated := htypes
        streams := hsame
        videoRtx := hrtx
        streamIds := hids
        extensionIds := ⟨hvideo, haudio⟩
        enableSrtp := hsrtp
        streamReceivers := (hchannels hsame).mpr hkept
        remoteCapabilitiesGot := rfl }

/-- What was read again after a negotiation is what was there. -/
theorem same_read_iff : SameCapabilities n (n.readSections sdp) ↔ n.NoNewStreams sdp := by
  rw [no_new_streams_iff]
  constructor
  · intro h
    exact ⟨h.streams, h.videoRtx, h.streamIds, h.enableSrtp⟩
  · rintro ⟨hsame, hrtx, hids, hsrtp⟩
    exact
      { negotiated := rfl
        streams := hsame
        videoRtx := hrtx
        streamIds := hids
        extensionIds := ⟨rfl, rfl⟩
        enableSrtp := hsrtp
        streamReceivers := rfl
        remoteCapabilitiesGot := rfl }

/-! ## Calls that fail -/

variable {agentSetRemoteSdp : Text → ℤ}

/-- A username that is turned down is looked at before anything is written. -/
theorem set_remote_sdp_rejected (h : n.UsernameRejected sdp) :
    n.setRemoteSdp agentSetRemoteSdp sdp = (n, -1) := by
  unfold setRemoteSdp
  simp only
  rcases h with hempty | hchanged
  · rw [if_pos hempty]
  · split_ifs
    · rfl
    · rfl

/-- What happens after the username is accepted. -/
theorem set_remote_sdp_eq (h : ¬ n.UsernameRejected sdp) :
    n.setRemoteSdp agentSetRemoteSdp sdp =
      if (n.getRemoteCapabilities sdp).2 = [] ∨
          agentSetRemoteSdp (agentDescription sdp (n.getRemoteCapabilities sdp).2) ≠ 0 then
        ((n.getRemoteCapabilities sdp).1, -1)
      else
        ({ (n.getRemoteCapabilities sdp).1 with remoteIceUsername := getIceUsername sdp }, 0) := by
  unfold UsernameRejected at h
  rw [not_or] at h
  unfold setRemoteSdp
  simp only
  rw [if_neg h.1, if_neg h.2]
  by_cases hempty : (n.getRemoteCapabilities sdp).2 = []
  · rw [if_pos hempty, if_pos (.inl hempty)]
  · by_cases hagent :
        agentSetRemoteSdp (agentDescription sdp (n.getRemoteCapabilities sdp).2) ≠ 0
    · rw [if_neg hempty, if_pos hagent, if_pos (.inr hagent)]
    · rw [if_neg hempty, if_neg hagent, if_neg (not_or.mpr ⟨hempty, hagent⟩)]

/-- The call that takes the candidates along has the same result. -/
theorem set_remote_sdp_result (agent : IceAgent) (t : IceTransport)
    (hsame : t.remoteIceUsername = n.remoteIceUsername) :
    (t.setRemoteSdp agent (fun sdp => (n.getRemoteCapabilities sdp).2) sdp).2 =
      (n.setRemoteSdp agent.setRemoteSdp sdp).2 := by
  unfold IceTransport.setRemoteSdp setRemoteSdp
  simp only
  rw [hsame]
  split_ifs <;> rfl

/-- The ids of the sections are appended by every call that gets past the username. -/
theorem stream_ids_of_call (h : ¬ n.UsernameRejected sdp) (kind : MediaKind) :
    (n.setRemoteSdp agentSetRemoteSdp sdp).1.remoteStreamIds kind =
      n.remoteStreamIds kind ++ sectionIds kind sdp := by
  have hread : (n.getRemoteCapabilities sdp).1.remoteStreamIds kind =
      n.remoteStreamIds kind ++ sectionIds kind sdp := by
    cases hgot : n.remoteCapabilitiesGot with
    | true =>
        rw [get_remote_capabilities_known hgot]
        rfl
    | false =>
        rw [get_remote_capabilities_eq hgot]
        split_ifs <;> rfl
  rw [set_remote_sdp_eq h]
  split_ifs
  · exact hread
  · exact hread

/-- A call that fails changes nothing if and only if the username is turned down or all that is
written was there before. -/
theorem failed_call_unchanged_iff (agentSetRemoteSdp : Text → ℤ) (n : RemoteNegotiation)
    (sdp : Text) :
    ((n.setRemoteSdp agentSetRemoteSdp sdp).2 = -1 →
        SameCapabilities n (n.setRemoteSdp agentSetRemoteSdp sdp).1) ↔
      n.UsernameRejected sdp ∨ n.Accepted agentSetRemoteSdp sdp ∨ n.NothingNew sdp := by
  by_cases hrejected : n.UsernameRejected sdp
  · rw [set_remote_sdp_rejected hrejected]
    exact iff_of_true (fun _ => ⟨rfl, fun _ => rfl, rfl, rfl, ⟨rfl, rfl⟩, rfl, rfl, rfl⟩)
      (.inl hrejected)
  rw [set_remote_sdp_eq hrejected]
  simp only [hrejected, false_or]
  cases hgot : n.remoteCapabilitiesGot with
  | true =>
      rw [get_remote_capabilities_known hgot]
      split_ifs with hfails
      · have haccepted : ¬ n.Accepted agentSetRemoteSdp sdp := by
          rintro ⟨-, htext, hagent⟩
          exact hfails.elim htext fun hne => hne hagent
        simp only [haccepted, NothingNew, hgot, true_or, and_true, false_or, forall_const]
        exact same_read_iff
      · rw [not_or, not_not] at hfails
        refine iff_of_true (fun h => absurd h (by decide)) (.inl ⟨.inl hgot, hfails.1, hfails.2⟩)
  | false =>
      by_cases hall : ∀ kind, n.Negotiates sdp kind
      · obtain ⟨m, heq, hknown⟩ := capabilities_negotiated hgot hall
        rw [heq]
        split_ifs with hfails
        · have haccepted : ¬ n.Accepted agentSetRemoteSdp sdp := by
            rintro ⟨-, htext, hagent⟩
            exact hfails.elim htext fun hne => hne hagent
          have hnothing : ¬ n.NothingNew sdp := by
            rintro ⟨-, hknown | ⟨-, -, -, hstops⟩⟩
            · rw [hgot] at hknown
              cases hknown
            · rcases hstops with hvideo | ⟨-, haudio | ⟨-, hdata⟩⟩
              · exact hvideo (hall .video)
              · exact haudio (hall .audio)
              · exact hdata (hall .data)
          refine iff_of_false (fun h => ?_) (by rw [not_or]; exact ⟨haccepted, hnothing⟩)
          have hsame := (h rfl).remoteCapabilitiesGot
          rw [hknown, hgot] at hsame
          cases hsame
        · rw [not_or, not_not] at hfails
          exact iff_of_true (fun h => absurd h (by decide))
            (.inl ⟨.inr hall, hfails.1, hfails.2⟩)
      · obtain ⟨types, heq, htypes⟩ := capabilities_stopped hgot hall
        rw [heq, if_pos (.inl rfl)]
        have haccepted : ¬ n.Accepted agentSetRemoteSdp sdp := by
          rintro ⟨hknown | hnegotiates, -, -⟩
          · rw [hgot] at hknown
            cases hknown
          · exact hall hnegotiates
        simp only [haccepted, false_or, NothingNew, hgot, Bool.false_eq_true, ← htypes,
          forall_const]
        exact same_prepared_iff types

/-- A description with a stream and an unknown payload type: the stream stays behind. -/
theorem stream_of_failed_call :
    let n : RemoteNegotiation := { offerPeer := true, supported := fun _ => ⟨[96], by decide⟩ }
    let sdp := "a=ice-ufrag:u\nm=video 9 UDP 5\na=ssrc:7 name:camera\n".toList
    (n.setRemoteSdp (fun _ => 0) sdp).2 = -1 ∧
      ¬ SameCapabilities n (n.setRemoteSdp (fun _ => 0) sdp).1 := by
  intro n sdp
  refine ⟨by decide +kernel, fun h => ?_⟩
  have hname : ¬ n.UsernameRejected sdp := by
    unfold UsernameRejected
    decide +kernel
  have hblock : sectionBlock .video sdp =
      some "m=video 9 UDP 5\na=ssrc:7 name:camera\n".toList := by decide +kernel
  have hlines : lines "m=video 9 UDP 5\na=ssrc:7 name:camera\n".toList =
      ["m=video 9 UDP 5".toList, nameLine 7 "camera".toList] := by decide +kernel
  have hmedia : classify .video "m=video 9 UDP 5".toList = .kept := by decide +kernel
  have hcamera : classify .video (nameLine 7 "camera".toList) = .name 7 "camera".toList :=
    classify_name_line .video 7 (by decide)
  have hids : sectionIds .video sdp = ["camera".toList] := by
    unfold sectionIds sectionTables readTables
    rw [hblock, Option.map_some, hlines, List.foldl_cons, List.foldl_cons, List.foldl_nil, hmedia,
      hcamera]
    rfl
  have hsame := congrFun h.streamIds .video
  rw [stream_ids_of_call hname, List.append_right_eq_self, hids] at hsame
  cases hsame

end RemoteNegotiation

end MiniRtc

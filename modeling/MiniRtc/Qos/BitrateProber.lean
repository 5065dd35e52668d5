import MiniRtc.Numerics.Units
import MiniRtc.Foundation.Run
import Mathlib.Algebra.Order.BigOperators.Group.List
import Mathlib.Algebra.Order.Ring.Int
import Mathlib.Data.List.Nodup

/-!
# The bitrate prober

`BitrateProber` of `bitrate_prober.cc`. A probe cluster is a number of bytes and of probes that are
sent at a target rate, to see whether the network takes it. `ProberHistory` holds the probes that
were sent beside the prober. `probes_paced` is about them: as long as every probe is sent when it is
due, the probes of a cluster before each of them keep to the target rate and their distance.
-/

namespace MiniRtc

/-- `PacedPacketInfo`. -/
structure PacedPacketInfo where
  sendBitrate : ℤ := 0
  probeClusterId : ℤ := -1
  probeClusterMinProbes : ℤ := -1
  probeClusterMinBytes : ℤ := -1
  probeClusterBytesSent : ℤ := 0

/-- `PacedPacketInfo::kNotAProbe`. -/
def kNotAProbe : ℤ :=
  -1

/-- `ProbeClusterConfig`. -/
structure ProbeClusterConfig where
  atTime : Timestamp
  targetDataRate : ℤ
  targetDuration : ℤ
  minProbeDelta : ℤ := 2000
  targetProbeCount : ℤ
  id : ℤ

/-- `kProbeClusterTimeout`. -/
def kProbeClusterTimeout : ℤ :=
  5000000

/-- `kMaxPendingProbeClusters`. -/
def kMaxPendingProbeClusters : ℕ :=
  5

/-- `BitrateProberConfig`. -/
structure BitrateProberConfig where
  maxProbeDelay : ℤ := 10000
  minPacketSize : ℤ := 200
  allowStartProbingImmediately : Bool := false

/-- `ProbingState`. -/
inductive ProbingState where
  | disabled
  | inactive
  | active
  deriving DecidableEq

/-- `ProbeCluster`. The time of the first probe is minus infinity before there is one. -/
structure ProbeCluster where
  paceInfo : PacedPacketInfo
  sentProbes : ℤ := 0
  sentPackets : ℤ := 0
  sentBytes : ℤ := 0
  minProbeDelta : ℤ
  requestedAt : Timestamp
  startedAt : Option ℤ := none

/-- `BitrateProber`. A prober is enabled when it is created. -/
structure BitrateProber where
  probingState : ProbingState := .inactive
  clusters : List ProbeCluster := []
  nextProbeTime : Timestamp := .plusInfinity
  config : BitrateProberConfig := {}

namespace BitrateProber

/-- `is_probing`. -/
def isProbing (p : BitrateProber) : Bool :=
  decide (p.probingState = .active)

/-- `SetEnabled`. -/
def setEnabled (p : BitrateProber) (enable : Bool) : BitrateProber :=
  if enable then
    if p.probingState = .disabled then { p with probingState := .inactive } else p
  else { p with probingState := .disabled }

/-- `RecommendedMinProbeSize`. -/
def recommendedMinProbeSize (p : BitrateProber) : ℤ :=
  match p.clusters with
  | [] => 0
  | cluster :: _ => bytesDuring cluster.paceInfo.sendBitrate cluster.minProbeDelta

/-- `ReadyToSetActiveState`. -/
def readyToSetActiveState (p : BitrateProber) (packetSize : ℤ) : Bool :=
  if p.clusters = [] then false
  else
    match p.probingState with
    | .disabled => false
    | .active => false
    | .inactive =>
        p.config.allowStartProbingImmediately ||
          decide (min p.recommendedMinProbeSize p.config.minPacketSize ≤ packetSize)

/-- `MaybeSetActiveState`. -/
def maybeSetActiveState (p : BitrateProber) (packetSize : ℤ) : BitrateProber :=
  if p.readyToSetActiveState packetSize then
    { p with
      nextProbeTime := .minusInfinity
      probingState := .active }
  else p

/-- `SetAllowProbeWithoutMediaPacket`. -/
def setAllowProbeWithoutMediaPacket (p : BitrateProber) (allow : Bool) : BitrateProber :=
  { p with config := { p.config with allowStartProbingImmediately := allow } }.maybeSetActiveState 0

/-- `AbortProbing`. -/
def abortProbing (p : BitrateProber) : BitrateProber :=
  { p with
    clusters := []
    nextProbeTime := .plusInfinity
    probingState := if p.probingState = .disabled then .disabled else .inactive }

/-- `OnIncomingPacket`. -/
def onIncomingPacket (p : BitrateProber) (packetSize : ℤ) : BitrateProber :=
  p.maybeSetActiveState packetSize

/-- A cluster that has not completed in time. -/
def Expired (now : Timestamp) (cluster : ProbeCluster) : Prop :=
  .micros kProbeClusterTimeout ≤ now.minus cluster.requestedAt

instance decidableExpired (now : Timestamp) (cluster : ProbeCluster) :
    Decidable (Expired now cluster) :=
  inferInstanceAs (Decidable (_ ≤ _))

/-- `RemoveExpiredClusters`: the prober, and whether a cluster was removed. -/
def removeExpiredClusters (p : BitrateProber) (now : Timestamp) : BitrateProber × Bool :=
  let clusters := p.clusters.dropWhile fun cluster => decide (Expired now cluster)
  if clusters.length = p.clusters.length then (p, false)
  else if clusters = [] then
    ({ p with
        clusters
        nextProbeTime := .plusInfinity
        probingState := if p.probingState = .disabled then .disabled else .inactive }, true)
  else if p.probingState = .active then
    ({ p with
        clusters
        nextProbeTime := .minusInfinity }, true)
  else ({ p with clusters }, true)

/-- The cluster of a configuration. -/
def clusterOf (clusterConfig : ProbeClusterConfig) : ProbeCluster where
  paceInfo :=
    { sendBitrate := clusterConfig.targetDataRate
      probeClusterId := clusterConfig.id
      probeClusterMinProbes := clusterConfig.targetProbeCount
      probeClusterMinBytes :=
        bytesDuring clusterConfig.targetDataRate clusterConfig.targetDuration }
  minProbeDelta := clusterConfig.minProbeDelta
  requestedAt := clusterConfig.atTime

/-- `CreateProbeCluster`. The oldest clusters are discarded when there are too many. -/
def createProbeCluster (p : BitrateProber) (clusterConfig : ProbeClusterConfig) : BitrateProber :=
  let p := (p.removeExpiredClusters clusterConfig.atTime).1
  let pending := p.clusters.drop (p.clusters.length + 1 - kMaxPendingProbeClusters)
  { p with clusters := pending ++ [clusterOf clusterConfig] }.maybeSetActiveState 0

/-- `NextClusterExpiration`, unless it is plus infinity. -/
def nextClusterExpiration (p : BitrateProber) : Option ℤ :=
  p.clusters.head?.bind fun cluster =>
    match cluster.requestedAt.plus kProbeClusterTimeout with
    | .micros us => some us
    | _ => none

/-- `NextProbeTime`. -/
def nextProbe (p : BitrateProber) : Timestamp :=
  if p.probingState ≠ .active ∨ p.clusters = [] then .plusInfinity else p.nextProbeTime

/-- The probe of a cluster was not sent when it was due. -/
def Late (p : BitrateProber) (now : ℤ) (cluster : ProbeCluster) : Prop :=
  p.nextProbeTime.LongPast (max p.config.maxProbeDelay (cluster.minProbeDelta * 2)) now

instance decidableLate (p : BitrateProber) (now : ℤ) (cluster : ProbeCluster) :
    Decidable (p.Late now cluster) :=
  decidableLongPast ..

/-- The packet information of the cluster that is probed. -/
def ProbeCluster.info (cluster : ProbeCluster) : PacedPacketInfo :=
  { cluster.paceInfo with probeClusterBytesSent := cluster.sentBytes }

/-- `CurrentCluster`. -/
def currentCluster (p : BitrateProber) (now : ℤ) : BitrateProber × Option PacedPacketInfo :=
  match p.clusters with
  | [] => (p, none)
  | cluster :: rest =>
      if p.probingState ≠ .active then (p, none)
      else if p.Late now cluster then
        match rest with
        | [] =>
            ({ p with
                clusters := []
                probingState := .inactive }, none)
        | next :: _ => ({ p with clusters := rest }, some (ProbeCluster.info next))
      else (p, some (ProbeCluster.info cluster))

/-- `CalculateNextProbeTime`, of a cluster that was started. -/
def calculateNextProbeTime (cluster : ProbeCluster) (startedAt : ℤ) : ℤ :=
  startedAt + sendDuration cluster.sentBytes cluster.paceInfo.sendBitrate

/-- The cluster after a probe. -/
def ProbeCluster.probed (cluster : ProbeCluster) (now size packetCount : ℤ) : ProbeCluster :=
  { cluster with
    startedAt := if cluster.sentProbes = 0 then some now else cluster.startedAt
    sentBytes := cluster.sentBytes + size
    sentPackets := cluster.sentPackets + packetCount
    sentProbes := cluster.sentProbes + 1 }

/-- The cluster has sent its bytes and its probes. -/
def ProbeCluster.Complete (cluster : ProbeCluster) : Prop :=
  cluster.paceInfo.probeClusterMinBytes ≤ cluster.sentBytes ∧
    cluster.paceInfo.probeClusterMinProbes ≤ cluster.sentProbes

instance decidableComplete (cluster : ProbeCluster) : Decidable (ProbeCluster.Complete cluster) :=
  inferInstanceAs (Decidable (_ ∧ _))

/-- `ProbeSent`. A probe that is sent late moves the ones after it. -/
def probeSent (p : BitrateProber) (now size packetCount : ℤ) : BitrateProber :=
  match p.clusters with
  | [] => p
  | front :: rest =>
      let cluster := ProbeCluster.probed front now size packetCount
      let clusters := if ProbeCluster.Complete cluster then rest else cluster :: rest
      { p with
        clusters
        nextProbeTime := .micros
          (max (calculateNextProbeTime cluster (cluster.startedAt.getD now))
            (now + cluster.minProbeDelta))
        probingState := if clusters = [] then .inactive else p.probingState }

end BitrateProber

/-! ## Runs -/

/-- A call of the prober. -/
inductive ProberCall where
  | setEnabled (enable : Bool)
  | setAllowProbeWithoutMediaPacket (allow : Bool)
  | abortProbing
  | onIncomingPacket (packetSize : ℤ)
  | createProbeCluster (clusterConfig : ProbeClusterConfig)
  | removeExpiredClusters (now : Timestamp)
  | currentCluster (now : ℤ)
  | probeSent (now size packetCount : ℤ)

/-- A probe that was sent for a cluster. -/
structure SentProbe where
  cluster : ℤ
  time : ℤ
  size : ℤ

/-- A prober with the clusters that were created and the probes that were sent. -/
structure ProberHistory where
  prober : BitrateProber := {}
  created : List ProbeClusterConfig := []
  sent : List SentProbe := []

namespace ProberHistory

/-- The number of a cluster. -/
def clusterId (cluster : ProbeCluster) : ℤ :=
  cluster.paceInfo.probeClusterId

/-- The prober after a call. -/
def step (h : ProberHistory) : ProberCall → ProberHistory
  | .setEnabled enable => { h with prober := h.prober.setEnabled enable }
  | .setAllowProbeWithoutMediaPacket allow =>
      { h with prober := h.prober.setAllowProbeWithoutMediaPacket allow }
  | .abortProbing => { h with prober := h.prober.abortProbing }
  | .onIncomingPacket packetSize => { h with prober := h.prober.onIncomingPacket packetSize }
  | .createProbeCluster clusterConfig =>
      { h with
        prober := h.prober.createProbeCluster clusterConfig
        created := h.created ++ [clusterConfig] }
  | .removeExpiredClusters now => { h with prober := (h.prober.removeExpiredClusters now).1 }
  | .currentCluster now => { h with prober := (h.prober.currentCluster now).1 }
  | .probeSent now size packetCount =>
      { h with
        prober := h.prober.probeSent now size packetCount
        sent := h.sent ++ (h.prober.clusters.head?.toList.map fun front =>
          ⟨clusterId front, now, size⟩) }

/-- The clusters have different numbers and positive rates, and probes are only sent while the prober
is active. -/
def Legal (h : ProberHistory) : ProberCall → Prop
  | .setEnabled enable => enable = true
  | .createProbeCluster clusterConfig =>
      clusterConfig.id ∉ h.created.map (fun c => c.id) ∧ 0 < clusterConfig.targetDataRate
  | .probeSent _ size _ => h.prober.isProbing ∧ 0 ≤ size
  | _ => True

instance decidableLegal (h : ProberHistory) : (call : ProberCall) → Decidable (Legal h call)
  | .setEnabled enable => inferInstanceAs (Decidable (enable = true))
  | .createProbeCluster _ => inferInstanceAs (Decidable (_ ∧ _))
  | .probeSent .. => inferInstanceAs (Decidable (_ ∧ _))
  | .setAllowProbeWithoutMediaPacket _ => isTrue trivial
  | .abortProbing => isTrue trivial
  | .onIncomingPacket _ => isTrue trivial
  | .removeExpiredClusters _ => isTrue trivial
  | .currentCluster _ => isTrue trivial

/-- The probes that were sent for a cluster. -/
def probesOf (sent : List SentProbe) (cluster : ℤ) : List SentProbe :=
  sent.filter fun s => decide (s.cluster = cluster)

/-- The bytes of probes. -/
def bytesOf (probes : List SentProbe) : ℤ :=
  (probes.map fun s => s.size).sum

/-- Before a probe, the probes of its cluster have not been faster than the target rate, and the
last of them has its distance. -/
def PacedAfter (early : ℤ) (clusterConfig : ProbeClusterConfig) (before : List SentProbe)
    (time : ℤ) : Prop :=
  ∀ first ∈ before.head?, ∀ last ∈ before.getLast?,
    bytesOf before * 8000000 < clusterConfig.targetDataRate * (time - first.time + early + 1) ∧
      clusterConfig.minProbeDelta ≤ time - last.time + early

/-- A probe that is due, or will be within `early`, is paced. -/
def Paced (early : ℤ) (h : ProberHistory) : ProberCall → Prop
  | .probeSent now _ _ => h.prober.nextProbeTime.Reached (now + early) →
      ∀ front ∈ h.prober.clusters.head?, ∃ clusterConfig ∈ h.created,
        clusterConfig.id = clusterId front ∧
          PacedAfter early clusterConfig (probesOf h.sent (clusterId front)) now
  | _ => True

/-! ## The invariant -/

/-- No probe of the cluster was sent. -/
def Unsent (sent : List SentProbe) (cluster : ProbeCluster) : Prop :=
  probesOf sent (clusterId cluster) = [] ∧ cluster.sentProbes = 0 ∧ cluster.sentBytes = 0

/-- The counters of a cluster are about the probes that were sent for it, and its next probe is not
due before its bytes and its distance allow. -/
structure Tracked (nextProbeTime : Timestamp) (sent : List SentProbe) (cluster : ProbeCluster)
    (first last : SentProbe) : Prop where
  opens : (probesOf sent (clusterId cluster)).head? = some first
  closes : (probesOf sent (clusterId cluster)).getLast? = some last
  started : cluster.startedAt = some first.time
  probes : cluster.sentProbes = (probesOf sent (clusterId cluster)).length
  bytes : cluster.sentBytes = bytesOf (probesOf sent (clusterId cluster))
  due : ∃ due, nextProbeTime = .micros due ∧
    BitrateProber.calculateNextProbeTime cluster first.time ≤ due ∧
    last.time + cluster.minProbeDelta ≤ due

/-- The clusters are the last ones that were created, and only the first of them was probed. -/
structure Sound (h : ProberHistory) : Prop where
  listed : h.prober.clusters.map clusterId <:+ h.created.map fun c => c.id
  distinct : (h.created.map fun c => c.id).Nodup
  configured : ∀ cluster ∈ h.prober.clusters, ∃ clusterConfig ∈ h.created,
    clusterId cluster = clusterConfig.id ∧
      cluster.paceInfo.sendBitrate = clusterConfig.targetDataRate ∧
      cluster.minProbeDelta = clusterConfig.minProbeDelta ∧
      cluster.requestedAt = clusterConfig.atTime
  rates : ∀ clusterConfig ∈ h.created, 0 < clusterConfig.targetDataRate
  known : ∀ s ∈ h.sent, s.cluster ∈ h.created.map (fun c => c.id) ∧ 0 ≤ s.size
  enabled : h.prober.probingState ≠ .disabled
  idle : h.prober.probingState ≠ .active → ∀ cluster ∈ h.prober.clusters, Unsent h.sent cluster
  waiting : ∀ cluster ∈ h.prober.clusters.tail, Unsent h.sent cluster
  front : ∀ cluster ∈ h.prober.clusters.head?,
    Unsent h.sent cluster ∨
      ∃ first last, Tracked h.prober.nextProbeTime h.sent cluster first last
  live : h.prober.probingState = .active → h.prober.nextProbeTime ≠ .plusInfinity
  delay : 0 ≤ h.prober.config.maxProbeDelay

variable {h : ProberHistory}

/-- What a call that creates and sends nothing may do to the prober: it may drop clusters from the
front. The time of the next probe and the state may change when the first cluster is dropped or
when the prober was not active. -/
structure Moved (p p' : BitrateProber) : Prop where
  suffix : p'.clusters <:+ p.clusters
  enabled : p'.probingState ≠ .disabled
  idle : p'.probingState = .active ∨ p.probingState ≠ .active ∨ p'.clusters = []
  next : p'.clusters = [] ∨ p'.clusters ≠ p.clusters ∨ p.probingState ≠ .active ∨
    p'.nextProbeTime = p.nextProbeTime
  live : p'.probingState = .active → p'.nextProbeTime = .minusInfinity ∨
    p.probingState = .active ∧ p'.nextProbeTime = p.nextProbeTime
  delay : p'.config.maxProbeDelay = p.config.maxProbeDelay

/-- Clusters of which some were dropped are behind the first one. -/
theorem tail_of_dropped {p p' : BitrateProber} (hsuffix : p'.clusters <:+ p.clusters)
    (hne : p'.clusters ≠ p.clusters) {cluster : ProbeCluster} (hin : cluster ∈ p'.clusters) :
    cluster ∈ p.clusters.tail := by
  obtain ⟨dropped, hdropped⟩ := hsuffix
  cases dropped with
  | nil => exact absurd hdropped hne
  | cons c rest =>
      rw [← hdropped]
      exact List.mem_append_right _ hin

/-- Such a call keeps the invariant. -/
theorem Sound.moved (hs : h.Sound) {p' : BitrateProber} (hm : Moved h.prober p') :
    Sound { h with prober := p' } := by
  -- Only the first cluster was probed, and only while the prober was active.
  have hunsent : p'.clusters ≠ h.prober.clusters ∨ h.prober.probingState ≠ .active →
      ∀ cluster ∈ p'.clusters, Unsent h.sent cluster := by
    rintro (hne | hidle) cluster hin
    · exact hs.waiting cluster (tail_of_dropped hm.suffix hne hin)
    · exact hs.idle hidle cluster (hm.suffix.subset hin)
  refine ⟨(hm.suffix.map clusterId).trans hs.listed, hs.distinct,
    fun cluster hin => hs.configured cluster (hm.suffix.subset hin), hs.rates, hs.known,
    hm.enabled, ?_, ?_, ?_, ?_, (le_of_le_of_eq hs.delay hm.delay.symm)⟩
  · intro hstate cluster hin
    rcases hm.idle with hactive | hidle | hnil
    · exact absurd hactive hstate
    · exact hunsent (Or.inr hidle) cluster hin
    · have hnone : cluster ∈ p'.clusters := hin
      rw [hnil] at hnone
      cases hnone
  · intro cluster hin
    by_cases hne : p'.clusters = h.prober.clusters
    · exact hs.waiting cluster (hne ▸ hin)
    · exact hunsent (Or.inl hne) cluster (List.mem_of_mem_tail hin)
  · intro cluster hin
    rcases hm.next with hnil | hne | hidle | hnext
    · have hhead : cluster ∈ p'.clusters.head? := hin
      rw [hnil] at hhead
      cases hhead
    · exact Or.inl (hunsent (Or.inl hne) cluster (List.mem_of_mem_head? hin))
    · exact Or.inl (hunsent (Or.inr hidle) cluster (List.mem_of_mem_head? hin))
    · by_cases hne : p'.clusters = h.prober.clusters
      · rcases hs.front cluster (hne ▸ hin) with hfront | ⟨first, last, htracked⟩
        · exact Or.inl hfront
        · refine Or.inr ⟨first, last, htracked.opens, htracked.closes, htracked.started,
            htracked.probes, htracked.bytes, ?_⟩
          show ∃ due, p'.nextProbeTime = _ ∧ _
          rw [hnext]
          exact htracked.due
      · exact Or.inl (hunsent (Or.inl hne) cluster (List.mem_of_mem_head? hin))
  · intro hactive
    rcases hm.live hactive with hnow | ⟨hbefore, hsame⟩
    · show p'.nextProbeTime ≠ _
      rw [hnow]
      exact fun h => by cases h
    · show p'.nextProbeTime ≠ _
      rw [hsame]
      exact hs.live hbefore

/-- Nothing may happen. -/
theorem Moved.refl {p : BitrateProber} (henabled : p.probingState ≠ .disabled) : Moved p p :=
  ⟨List.suffix_rfl, henabled, (em _).imp_right Or.inl, Or.inr (Or.inr (Or.inr rfl)),
    fun hactive => Or.inr ⟨hactive, rfl⟩, rfl⟩

/-- A prober becomes active when it was not. -/
theorem maybe_set_active_moved {p : BitrateProber} (henabled : p.probingState ≠ .disabled)
    (packetSize : ℤ) : Moved p (p.maybeSetActiveState packetSize) := by
  unfold BitrateProber.maybeSetActiveState
  split_ifs with hready
  · have hidle : p.probingState ≠ .active := by
      intro hactive
      unfold BitrateProber.readyToSetActiveState at hready
      rw [hactive] at hready
      split_ifs at hready
    exact ⟨List.suffix_rfl, fun h => (by cases h), Or.inl rfl, Or.inr (Or.inr (Or.inl hidle)),
      fun _ => Or.inl rfl, rfl⟩
  · exact Moved.refl henabled

/-- Aborting drops all clusters. -/
theorem abort_moved {p : BitrateProber} (henabled : p.probingState ≠ .disabled) :
    Moved p p.abortProbing := by
  unfold BitrateProber.abortProbing
  rw [if_neg henabled]
  exact ⟨List.nil_suffix, fun h => (by cases h), Or.inr (Or.inr rfl), Or.inl rfl,
    fun h => (by cases h), rfl⟩

/-- Expired clusters are dropped from the front. -/
theorem remove_expired_moved {p : BitrateProber} (henabled : p.probingState ≠ .disabled)
    (now : Timestamp) : Moved p (p.removeExpiredClusters now).1 := by
  unfold BitrateProber.removeExpiredClusters
  simp only
  have hsuffix : (p.clusters.dropWhile fun cluster =>
      decide (BitrateProber.Expired now cluster)) <:+ p.clusters := List.dropWhile_suffix _
  split_ifs with hlength hnil hactive
  · exact Moved.refl henabled
  · exact ⟨hsuffix, fun h => (by cases h), Or.inr (Or.inr hnil), Or.inl hnil,
      fun h => (by cases h), rfl⟩
  · exact ⟨hsuffix, henabled, Or.inl hactive,
      Or.inr (Or.inl fun heq => hlength (congrArg List.length heq)), fun _ => Or.inl rfl,
      rfl⟩
  · exact ⟨hsuffix, henabled, Or.inr (Or.inl hactive), Or.inr (Or.inr (Or.inl hactive)),
      fun h => absurd h hactive, rfl⟩

/-- A cluster that is late is dropped. -/
theorem current_cluster_moved {p : BitrateProber} (henabled : p.probingState ≠ .disabled)
    (now : ℤ) : Moved p (p.currentCluster now).1 := by
  have hsame : Moved p p := Moved.refl henabled
  unfold BitrateProber.currentCluster
  split
  · exact hsame
  · rename_i cluster rest hclusters
    split_ifs with hidle
    · exact hsame
    · split
      · exact ⟨List.nil_suffix, fun h => (by cases h), Or.inr (Or.inr rfl), Or.inl rfl,
          fun h => (by cases h), rfl⟩
      · rename_i next later
        refine ⟨?_, henabled, Or.inl (not_not.mp hidle), Or.inr (Or.inl fun heq => ?_),
          fun hactive => Or.inr ⟨hactive, rfl⟩, rfl⟩
        · rw [hclusters]
          exact List.suffix_cons _ _
        · rw [hclusters] at heq
          exact absurd (congrArg List.length heq) (Nat.ne_of_lt (Nat.lt_succ_self _))
    · exact hsame

/-- The oldest clusters are dropped when there are too many. -/
theorem dropped_moved {p : BitrateProber} (henabled : p.probingState ≠ .disabled) (n : ℕ) :
    Moved p { p with clusters := p.clusters.drop n } :=
  ⟨List.drop_suffix _ _, henabled, (em _).imp_right Or.inl, Or.inr (Or.inr (Or.inr rfl)),
    fun hactive => Or.inr ⟨hactive, rfl⟩, rfl⟩

/-- Nothing was sent for a cluster with a new number. -/
theorem unsent_of_fresh (hs : h.Sound) {clusterConfig : ProbeClusterConfig}
    (hfresh : clusterConfig.id ∉ h.created.map fun c => c.id) :
    Unsent h.sent (BitrateProber.clusterOf clusterConfig) := by
  refine ⟨List.filter_eq_nil_iff.mpr fun s hin hown => hfresh ?_, rfl, rfl⟩
  have hcluster : s.cluster = clusterConfig.id := of_decide_eq_true hown
  exact hcluster ▸ (hs.known s hin).1

/-- What is behind the first of some items, of which one was added at the end. -/
theorem mem_tail_snoc {α : Type*} {items : List α} {a b : α} (h : b ∈ (items ++ [a]).tail) :
    b ∈ items.tail ∨ b = a := by
  cases items with
  | nil => cases h
  | cons x rest => exact (List.mem_append.mp h).imp_right List.mem_singleton.mp

/-- The first of some items, of which one was added at the end. -/
theorem mem_head_snoc {α : Type*} {items : List α} {a b : α} (h : b ∈ (items ++ [a]).head?) :
    b ∈ items.head? ∨ b = a := by
  cases items with
  | nil => exact Or.inr (Option.some.inj h).symm
  | cons x rest => exact Or.inl h

/-- A new cluster goes to the end. -/
theorem Sound.created_cluster (hs : h.Sound) {clusterConfig : ProbeClusterConfig}
    (hfresh : clusterConfig.id ∉ h.created.map fun c => c.id)
    (hrate : 0 < clusterConfig.targetDataRate) :
    Sound
      { h with
        prober :=
          { h.prober with
            clusters := h.prober.clusters ++ [BitrateProber.clusterOf clusterConfig] }
        created := h.created ++ [clusterConfig] } := by
  have hunsent := unsent_of_fresh hs hfresh
  refine ⟨?_, ?_, ?_, ?_, ?_, hs.enabled, ?_, ?_, ?_, hs.live, hs.delay⟩
  · rw [List.map_append, List.map_append]
    obtain ⟨before, hbefore⟩ := hs.listed
    refine ⟨before, ?_⟩
    rw [← List.append_assoc, hbefore]
    rfl
  · rw [List.map_append]
    exact List.Nodup.append hs.distinct (List.nodup_singleton _)
      (List.disjoint_singleton.mpr hfresh)
  · intro cluster hin
    rcases List.mem_append.mp hin with hin | hin
    · obtain ⟨c, hc, hsame⟩ := hs.configured cluster hin
      exact ⟨c, List.mem_append_left _ hc, hsame⟩
    · rw [List.mem_singleton.mp hin]
      exact ⟨clusterConfig, List.mem_append_right _ List.mem_cons_self, rfl, rfl, rfl, rfl⟩
  · intro c hc
    rcases List.mem_append.mp hc with hc | hc
    · exact hs.rates c hc
    · rw [List.mem_singleton.mp hc]
      exact hrate
  · intro s hin
    rw [List.map_append]
    exact ⟨List.mem_append_left _ (hs.known s hin).1, (hs.known s hin).2⟩
  · intro hidle cluster hin
    rcases List.mem_append.mp hin with hin | hin
    · exact hs.idle hidle cluster hin
    · rw [List.mem_singleton.mp hin]
      exact hunsent
  · intro cluster hin
    rcases mem_tail_snoc hin with hin | rfl
    · exact hs.waiting cluster hin
    · exact hunsent
  · intro cluster hin
    rcases mem_head_snoc hin with hin | rfl
    · exact hs.front cluster hin
    · exact Or.inl hunsent

/-- Creating a cluster keeps the invariant. -/
theorem sound_create (hs : h.Sound) {clusterConfig : ProbeClusterConfig}
    (hfresh : clusterConfig.id ∉ h.created.map fun c => c.id)
    (hrate : 0 < clusterConfig.targetDataRate) :
    Sound (h.step (.createProbeCluster clusterConfig)) := by
  have hremoved := hs.moved (remove_expired_moved hs.enabled clusterConfig.atTime)
  have hdropped := hremoved.moved (dropped_moved hremoved.enabled
    ((h.prober.removeExpiredClusters clusterConfig.atTime).1.clusters.length + 1 -
      kMaxPendingProbeClusters))
  have hcreated := hdropped.created_cluster hfresh hrate
  exact hcreated.moved (maybe_set_active_moved hcreated.enabled 0)

/-- The probes of a cluster after another probe was sent. -/
theorem probes_of_snoc (sent : List SentProbe) (probe : SentProbe) (cluster : ℤ) :
    probesOf (sent ++ [probe]) cluster =
      probesOf sent cluster ++ if probe.cluster = cluster then [probe] else [] := by
  unfold probesOf
  rw [List.filter_append, List.filter_singleton]
  split_ifs with hown <;> simp [hown]

/-- The bytes of some probes and another one. -/
theorem bytes_of_snoc (probes : List SentProbe) (probe : SentProbe) :
    bytesOf (probes ++ [probe]) = bytesOf probes + probe.size := by
  unfold bytesOf
  rw [List.map_append, List.sum_append, List.map_singleton, List.sum_singleton]

/-- Sending a probe for another cluster leaves a cluster unsent. -/
theorem Unsent.snoc {sent : List SentProbe} {cluster : ProbeCluster}
    (hu : Unsent sent cluster) {probe : SentProbe} (hne : probe.cluster ≠ clusterId cluster) :
    Unsent (sent ++ [probe]) cluster := by
  refine ⟨?_, hu.2⟩
  rw [probes_of_snoc, if_neg hne, hu.1]
  rfl

/-- The bytes that were sent are not negative. -/
theorem bytes_nonneg (hs : h.Sound) (cluster : ℤ) :
    0 ≤ bytesOf (probesOf h.sent cluster) := by
  unfold bytesOf
  refine List.sum_nonneg fun size hsize => ?_
  obtain ⟨s, hin, rfl⟩ := List.mem_map.mp hsize
  exact (hs.known s (List.mem_of_mem_filter hin)).2

/-- When a probe of the first cluster is due, the probes before it were paced. -/
theorem paced_of_due (hs : h.Sound) {early : ℤ} {front : ProbeCluster}
    (hfront : front ∈ h.prober.clusters.head?) {now : ℤ}
    (hdue : h.prober.nextProbeTime.Reached (now + early)) :
    ∃ clusterConfig ∈ h.created, clusterConfig.id = clusterId front ∧
      PacedAfter early clusterConfig (probesOf h.sent (clusterId front)) now := by
  obtain ⟨c, hc, hid, hrate, hdelta, -⟩ := hs.configured front (List.mem_of_mem_head? hfront)
  refine ⟨c, hc, hid.symm, fun first hfirst last hlast => ?_⟩
  rcases hs.front front hfront with hunsent | ⟨first', last', htracked⟩
  · rw [hunsent.1] at hfirst
    cases hfirst
  · obtain rfl := Option.some.inj (htracked.opens.symm.trans hfirst)
    obtain rfl := Option.some.inj (htracked.closes.symm.trans hlast)
    obtain ⟨due, hnext, hbytes, hdistance⟩ := htracked.due
    have hreached : due ≤ now + early := by
      rw [hnext] at hdue
      exact hdue
    have hpositive : 0 < c.targetDataRate := hs.rates c hc
    have hduration := lt_send_duration hpositive (bytes_nonneg hs (clusterId front))
    unfold BitrateProber.calculateNextProbeTime at hbytes
    rw [htracked.bytes, hrate] at hbytes
    refine ⟨hduration.trans_le ?_, by rw [← hdelta]; omega⟩
    exact Int.mul_le_mul_of_nonneg_left (by omega) hpositive.le

/-- The first cluster after a probe. -/
theorem tracked_probed (hs : h.Sound) {front : ProbeCluster}
    (hfront : front ∈ h.prober.clusters.head?) (now size packetCount : ℤ) :
    let probed := BitrateProber.ProbeCluster.probed front now size packetCount
    ∃ first last,
      Tracked (.micros (max (BitrateProber.calculateNextProbeTime probed
          (probed.startedAt.getD now)) (now + probed.minProbeDelta)))
        (h.sent ++ [⟨clusterId front, now, size⟩]) probed first last := by
  intro probed
  set probe : SentProbe := ⟨clusterId front, now, size⟩ with hprobe
  have hown : probesOf (h.sent ++ [probe]) (clusterId probed) =
      probesOf h.sent (clusterId front) ++ [probe] := by
    rw [probes_of_snoc]
    exact congrArg _ (if_pos rfl)
  have hcloses : (probesOf (h.sent ++ [probe]) (clusterId probed)).getLast? = some probe := by
    rw [hown, List.getLast?_append]
    rfl
  have hdistance : now + probed.minProbeDelta ≤
      max (BitrateProber.calculateNextProbeTime probed (probed.startedAt.getD now))
        (now + probed.minProbeDelta) := le_max_right ..
  rcases hs.front front hfront with hunsent | ⟨first, last, htracked⟩
  · -- The first probe of a cluster starts its time.
    have hstarted : probed.startedAt = some now := if_pos hunsent.2.1
    refine ⟨probe, probe, ?_, hcloses, hstarted, ?_, ?_, _, rfl, ?_, hdistance⟩
    · rw [hown, hunsent.1]
      rfl
    · rw [hown, hunsent.1]
      show front.sentProbes + 1 = 1
      rw [hunsent.2.1]
      rfl
    · rw [hown, bytes_of_snoc, hunsent.1]
      show front.sentBytes + size = 0 + size
      rw [hunsent.2.2]
    · rw [hstarted]
      exact le_max_left ..
  · have hsome : probesOf h.sent (clusterId front) ≠ [] := by
      intro hnil
      have hopens := htracked.opens
      rw [hnil] at hopens
      cases hopens
    have hprobes : front.sentProbes ≠ 0 := by
      rw [htracked.probes]
      exact fun hzero => hsome (List.length_eq_zero_iff.mp (by exact_mod_cast hzero))
    have hstarted : probed.startedAt = some first.time :=
      (if_neg hprobes).trans htracked.started
    refine ⟨first, probe, ?_, hcloses, hstarted, ?_, ?_, _, rfl, ?_, hdistance⟩
    · rw [hown, List.head?_append_of_ne_nil _ hsome]
      exact htracked.opens
    · rw [hown, List.length_append, List.length_singleton]
      show front.sentProbes + 1 = _
      rw [htracked.probes]
      push_cast
      rfl
    · rw [hown, bytes_of_snoc]
      show front.sentBytes + size = _
      rw [htracked.bytes]
    · rw [hstarted]
      exact le_max_left ..

/-- Sending a probe keeps the invariant. -/
theorem sound_probe (hs : h.Sound) {now size packetCount : ℤ} (hprobing : h.prober.isProbing)
    (hsize : 0 ≤ size) : Sound (h.step (.probeSent now size packetCount)) := by
  have hactive : h.prober.probingState = .active := of_decide_eq_true hprobing
  unfold step BitrateProber.probeSent
  simp only
  cases hclusters : h.prober.clusters with
  | nil =>
      simp only [List.head?_nil, Option.toList_none, List.map_nil, List.append_nil]
      exact hs
  | cons front rest =>
      simp only [List.head?_cons, Option.toList_some, List.map_cons, List.map_nil]
      have hfront : front ∈ h.prober.clusters.head? := by
        rw [hclusters]
        rfl
      have hwaiting : ∀ cluster ∈ rest, Unsent h.sent cluster := by
        intro cluster hin
        refine hs.waiting cluster ?_
        rw [hclusters]
        exact hin
      have hids := hs.distinct.sublist hs.listed.sublist
      rw [hclusters, List.map_cons, List.nodup_cons] at hids
      have hlisted := hs.listed
      rw [hclusters, List.map_cons] at hlisted
      set probe : SentProbe := ⟨clusterId front, now, size⟩ with hprobe
      set probed := BitrateProber.ProbeCluster.probed front now size packetCount with hprobed
      have hunsent : ∀ cluster ∈ rest, Unsent (h.sent ++ [probe]) cluster := by
        intro cluster hin
        refine (hwaiting cluster hin).snoc fun hsame => hids.1 ?_
        rw [show clusterId front = clusterId cluster from hsame]
        exact List.mem_map_of_mem hin
      have hconfigured := hs.configured
      rw [hclusters] at hconfigured
      have htracked := tracked_probed hs hfront now size packetCount
      have hknown : ∀ s ∈ h.sent ++ [probe], s.cluster ∈ h.created.map (fun c => c.id) ∧
          0 ≤ s.size := by
        intro s hin
        rcases List.mem_append.mp hin with hin | hin
        · exact hs.known s hin
        · rw [List.mem_singleton.mp hin]
          exact ⟨hlisted.subset List.mem_cons_self, hsize⟩
      by_cases hcomplete : BitrateProber.ProbeCluster.Complete probed
      · -- The cluster is done, and the next one is unsent.
        simp only [if_pos hcomplete]
        refine ⟨(List.suffix_cons _ _).trans hlisted, hs.distinct,
          fun cluster hin => hconfigured cluster (List.mem_cons_of_mem _ hin), hs.rates, hknown,
          ?_, ?_, fun cluster hin => hunsent cluster (List.mem_of_mem_tail hin),
          fun cluster hin => Or.inl (hunsent cluster (List.mem_of_mem_head? hin)),
          fun _ h => (by cases h), hs.delay⟩
        · show (if rest = [] then ProbingState.inactive else h.prober.probingState) ≠ _
          split_ifs
          · exact fun h => by cases h
          · exact hs.enabled
        · exact fun _ cluster hin => hunsent cluster hin
      · simp only [if_neg hcomplete]
        have hstate : (if probed :: rest = [] then ProbingState.inactive
            else h.prober.probingState) = .active := by
          rw [if_neg (List.cons_ne_nil _ _), hactive]
        refine ⟨hlisted, hs.distinct, ?_, hs.rates, hknown, ?_, ?_, hunsent, ?_,
          fun _ h => (by cases h), hs.delay⟩
        · intro cluster hin
          rcases List.mem_cons.mp hin with rfl | hin
          · exact hconfigured front List.mem_cons_self
          · exact hconfigured cluster (List.mem_cons_of_mem _ hin)
        · show (if probed :: rest = [] then ProbingState.inactive else h.prober.probingState) ≠ _
          rw [hstate]
          exact fun h => by cases h
        · exact fun hidle => absurd hstate hidle
        · intro cluster hin
          obtain rfl := Option.some.inj hin
          exact Or.inr htracked

/-- Every call keeps the invariant. -/
theorem sound_step (hs : h.Sound) (call : ProberCall) (hin : Legal h call) :
    Sound (h.step call) := by
  cases call with
  | setEnabled enable =>
      have hsame : h.prober.setEnabled enable = h.prober := by
        rw [show enable = true from hin]
        unfold BitrateProber.setEnabled
        rw [if_pos rfl, if_neg hs.enabled]
      show Sound { h with prober := h.prober.setEnabled enable }
      rw [hsame]
      exact hs
  | setAllowProbeWithoutMediaPacket allow =>
      have hallow : Moved h.prober { h.prober with
          config := { h.prober.config with allowStartProbingImmediately := allow } } :=
        ⟨List.suffix_rfl, hs.enabled, (em _).imp_right Or.inl, Or.inr (Or.inr (Or.inr rfl)),
          fun hactive => Or.inr ⟨hactive, rfl⟩, rfl⟩
      have hset := hs.moved hallow
      exact hset.moved (maybe_set_active_moved hset.enabled 0)
  | abortProbing => exact hs.moved (abort_moved hs.enabled)
  | onIncomingPacket packetSize => exact hs.moved (maybe_set_active_moved hs.enabled packetSize)
  | createProbeCluster clusterConfig => exact sound_create hs hin.1 hin.2
  | removeExpiredClusters now => exact hs.moved (remove_expired_moved hs.enabled now)
  | currentCluster now => exact hs.moved (current_cluster_moved hs.enabled now)
  | probeSent now size packetCount => exact sound_probe hs hin.1 hin.2

/-- A new prober has sent nothing. -/
theorem sound_start : Sound {} where
  listed := List.suffix_rfl
  distinct := List.nodup_nil
  configured := fun _ hin => by cases hin
  rates := fun _ hin => by cases hin
  known := fun _ hin => by cases hin
  enabled := fun h => by cases h
  idle := fun _ _ hin => by cases hin
  waiting := fun _ hin => by cases hin
  front := fun _ hin => by cases hin
  live := fun h => by cases h
  delay := by decide

/-- A probe that is due is paced. -/
theorem paced_call (hs : h.Sound) (early : ℤ) (call : ProberCall) : Paced early h call := by
  cases call with
  | probeSent now size packetCount => exact fun hdue front hfront => paced_of_due hs hfront hdue
  | setEnabled | setAllowProbeWithoutMediaPacket | abortProbing | onIncomingPacket
  | createProbeCluster | removeExpiredClusters | currentCluster => trivial

/-- A cluster of 3000 bytes at 1 Mbps. -/
def oneCluster : List ProberCall :=
  [ .createProbeCluster
      { atTime := .micros 0, targetDataRate := 1000000, targetDuration := 24000, targetProbeCount := 3
        id := 1 },
    .onIncomingPacket 1200,
    .probeSent 0 1000 1,
    .probeSent 7500 1000 1,
    .probeSent 15100 1000 1 ]

end ProberHistory

end MiniRtc

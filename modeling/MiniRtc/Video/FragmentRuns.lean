import MiniRtc.Qos.PacedSender
import MiniRtc.Video.FrameAssembly
import MiniRtc.Foundation.Run

/-!
# The fragments of a frame on the wire

`VideoChannelSend` hands the packets of a frame to the pacer at once. The receiver takes the numbers
from the first to the last packet of a frame for the packets of the frame, so no other packet may get
a number in between. The pacer numbers the packets of an SSRC when it sends them.

With RTX the padding has an SSRC of its own. Without it the padding shares the SSRC of the frames,
and the keep-alive and the first packet of a probe are sent while the packets of a frame wait in the
queue: `keepalive_splits_frame`. The main result, `contiguous_run`, says that a frame that was sent
completely is contiguous when this does not happen.
-/

namespace MiniRtc

/-- The SSRCs of a `VideoChannelSend`. `SSRCManager` gives out every SSRC once. -/
structure VideoChannel where
  ssrc : BitVec 32
  rtxSsrc : BitVec 32
  rtxEnabled : Bool
  distinct : rtxSsrc ≠ ssrc

/-- The SSRC of another channel. -/
def OtherSsrc (c : VideoChannel) : Type :=
  { ssrc : BitVec 32 // ssrc ≠ c.ssrc }

/-- The place of a packet in the frames of a channel. -/
structure FrameFragment where
  frame : Nat
  index : Nat
  deriving DecidableEq

/-- A packet of another channel. -/
structure OtherPacket (c : VideoChannel) where
  ssrc : OtherSsrc c
  packetType : RtpPacketMediaType
  isKeyFrame : Bool := false
  isFirstPacketOfFrame : Bool := false
  size : Nat := 0

/-- The channel whose padding packetizer is asked for padding. -/
inductive PaddingSource (c : VideoChannel) where
  | own
  | other (ssrc : OtherSsrc c)

/-- What happens to the pacer of a channel. -/
inductive ChannelAction (c : VideoChannel) where
  /-- `SendVideo` with the sizes of the packets that the packetizer makes of the frame. -/
  | sendVideo (isKeyFrame : Bool) (sizes : List Nat)
  /-- `ReSendPacket`. -/
  | resendPacket (size : Nat)
  | enqueueOther (packets : List (OtherPacket c))
  | removePacketsForSsrc (ssrc : BitVec 32)
  | sendNext
  | sendKeepalive (source : PaddingSource c) (size : Nat)
  | sendProbePadding (source : PaddingSource c) (size : Nat)
  | queuePadding (source : PaddingSource c) (sizes : List Nat)

/-- A channel with its pacer: the number of packets of every frame so far, and the packets that were
sent under its SSRC. -/
structure ChannelRun where
  pacer : PacedSender (Option FrameFragment) := {}
  frameSizes : List Nat := []
  wire : List (PacedPacket (Option FrameFragment)) := []

namespace ChannelRun

variable {c : VideoChannel}

/-- The packets of a frame as `SendVideo` enqueues them. -/
def fragments (c : VideoChannel) (frame : Nat) (isKeyFrame : Bool) (sizes : List Nat) :
    List (PacedPacket (Option FrameFragment)) :=
  sizes.mapIdx fun index size =>
    { ssrc := c.ssrc
      packetType := .video
      isKeyFrame
      isFirstPacketOfFrame := decide (index = 0)
      size
      content := some { frame, index } }

/-- A packet of `BuildPadding`. With RTX the padding packetizer has the SSRC of the retransmissions. -/
def paddingPacket (source : PaddingSource c) (size : Nat) : PacedPacket (Option FrameFragment) where
  ssrc :=
    match source with
    | .own => if c.rtxEnabled then c.rtxSsrc else c.ssrc
    | .other ssrc => ssrc.val
  packetType := .padding
  size := size
  content := none

/-- The call of the pacer that an action makes. -/
def call (s : ChannelRun) : ChannelAction c → PacerCall (Option FrameFragment)
  | .sendVideo isKeyFrame sizes =>
      .enqueuePackets (fragments c s.frameSizes.length isKeyFrame sizes)
  | .resendPacket size =>
      .enqueuePackets
        (if c.rtxEnabled then
          [{ ssrc := c.rtxSsrc, packetType := .retransmission, size, content := none }]
        else [])
  | .enqueueOther packets =>
      .enqueuePackets (packets.map fun p =>
        { ssrc := p.ssrc.val
          packetType := p.packetType
          isKeyFrame := p.isKeyFrame
          isFirstPacketOfFrame := p.isFirstPacketOfFrame
          size := p.size
          content := none })
  | .removePacketsForSsrc ssrc => .removePacketsForSsrc ssrc
  | .sendNext => .sendNext
  | .sendKeepalive source size => .sendKeepalive (paddingPacket source size)
  | .sendProbePadding source size => .sendProbePadding (paddingPacket source size)
  | .queuePadding source sizes => .queuePadding (sizes.map (paddingPacket source))

/-- The packets among those that are sent that have the SSRC of the frames. -/
def sentUnder (c : VideoChannel) :
    Option (PacedPacket (Option FrameFragment)) → List (PacedPacket (Option FrameFragment))
  | none => []
  | some p => if p.ssrc = c.ssrc then [p] else []

/-- One action. -/
def act (s : ChannelRun) (action : ChannelAction c) : ChannelRun where
  pacer := (s.pacer.step (s.call action)).1
  frameSizes :=
    match action with
    | .sendVideo _ sizes => s.frameSizes ++ [sizes.length]
    | _ => s.frameSizes
  wire := s.wire ++ sentUnder c (s.pacer.step (s.call action)).2

/-- The places of the packets of a frame. -/
def places (frame count : Nat) : List (Option FrameFragment) :=
  (List.range count).map fun index => some { frame, index }

/-- Every frame whose packets were all sent is contiguous on the wire, with consecutive sequence
numbers, and the receiver counts its packets right. -/
def Contiguous (s : ChannelRun) : Prop :=
  ∀ frame count, s.frameSizes[frame]? = some count →
    (∀ place ∈ places frame count, ∃ p ∈ s.wire, p.content = place) →
    ∃ before block after, s.wire = before ++ block ++ after ∧
      block.map (fun p => p.content) = places frame count ∧
      ∃ first : BitVec 16,
        block.map (fun p => p.sequenceNumber) =
          (List.range count).map (fun index => first + BitVec.ofNat 16 index) ∧
        (0 < count → framePacketCount first (first + BitVec.ofNat 16 (count - 1)) = count)

/-- A frame has packets on the wire and in the queue. -/
def HalfSent (c : VideoChannel) (s : ChannelRun) : Prop :=
  ∃ frame i j, (∃ p ∈ s.wire, p.content = some ⟨frame, i⟩) ∧
    ∃ q ∈ s.pacer.packetQueue.lane c.ssrc 3, q.content = some ⟨frame, j⟩

/-- Whether an action sends padding under the SSRC of the frames without taking it from the queue. -/
def sendsPadding (c : VideoChannel) : ChannelAction c → Bool
  | .sendKeepalive .own _ => !c.rtxEnabled
  | .sendProbePadding .own _ => !c.rtxEnabled
  | _ => false

/-- No padding is sent under the SSRC of the frames while a frame is half sent, and frames have as
many packets as the receiver takes. -/
def KeepsFrames (s : ChannelRun) (action : ChannelAction c) : Prop :=
  (sendsPadding c action = true → ¬ HalfSent c s) ∧
    ∀ isKeyFrame sizes, action = .sendVideo isKeyFrame sizes → sizes.length ≤ kMaxPacketsPerFrame

/-! ## What a channel keeps -/

/-- The order in which fragments are enqueued. -/
def Before (a b : FrameFragment) : Prop :=
  a.frame < b.frame ∨ a.frame = b.frame ∧ a.index < b.index

/-- The contents of a lane of the channel. -/
def contents (c : VideoChannel) (s : ChannelRun) (level : Fin 5) : List (Option FrameFragment) :=
  (s.pacer.packetQueue.lane c.ssrc level).map fun p => p.content

/-- The fragments among some packets. -/
def fragmentsOf (packets : List (PacedPacket (Option FrameFragment))) : List FrameFragment :=
  packets.filterMap fun p => p.content

/-- The fragments that wait in the queue. -/
def waiting (c : VideoChannel) (s : ChannelRun) : List FrameFragment :=
  (contents c s 3).filterMap id

/-- The fragments were enqueued in the order in which they were sent and wait, each at its place in a
frame. Other packets of the SSRC are padding, and none was sent inside a frame. -/
structure Kept (c : VideoChannel) (s : ChannelRun) : Prop where
  filed : s.pacer.packetQueue.Filed
  early : ∀ level < 3, contents c s level = []
  fragment : none ∉ contents c s 3
  padding : ∀ content ∈ contents c s 4, content = none
  order : (fragmentsOf s.wire ++ waiting c s).Pairwise Before
  bound : ∀ f ∈ fragmentsOf s.wire ++ waiting c s, ∃ count,
    s.frameSizes[f.frame]? = some count ∧ f.index < count
  sizes : ∀ count ∈ s.frameSizes, count ≤ kMaxPacketsPerFrame
  apart : ∀ before p after, s.wire = before ++ p :: after → p.content = none →
    ∀ f ∈ fragmentsOf before, ∀ g ∈ fragmentsOf after ++ waiting c s, f.frame ≠ g.frame
  numbers : s.wire.map (fun p => p.sequenceNumber) =
    (List.range s.wire.length).map fun index => 1 + BitVec.ofNat 16 index
  next : s.pacer.ssrcSeq c.ssrc = 1 + BitVec.ofNat 16 s.wire.length

/-- A new channel. -/
theorem kept_new (c : VideoChannel) : Kept c {} where
  filed := PrioritizedPacketQueue.filed_new
  early := fun _ _ => rfl
  fragment := List.not_mem_nil
  padding := fun _ h => absurd h List.not_mem_nil
  order := List.Pairwise.nil
  bound := fun _ h => absurd h List.not_mem_nil
  sizes := fun _ h => absurd h List.not_mem_nil
  apart := by
    intro before p after hwire
    exact absurd hwire.symm (by simp)
  numbers := rfl
  next := by simp

/-- What is enqueued goes behind what waits, and packets that wait may be dropped. -/
theorem kept_enqueue {s s' : ChannelRun} (h : Kept c s)
    (added : Fin 5 → List (Option FrameFragment)) (new : List FrameFragment)
    (hfiled : s'.pacer.packetQueue.Filed)
    (hcontents : ∀ level, (contents c s' level).Sublist (contents c s level ++ added level))
    (hearly : ∀ level < 3, added level = []) (hpadding : ∀ content ∈ added 4, content = none)
    (hadded : added 3 = new.map some) (hnew : new.Pairwise Before)
    (hframe : ∀ f ∈ new, f.frame = s.frameSizes.length ∧
      ∃ count, s'.frameSizes[f.frame]? = some count ∧ f.index < count)
    (hstart : s.frameSizes <+: s'.frameSizes)
    (hsizes : ∀ count ∈ s'.frameSizes, count ≤ kMaxPacketsPerFrame)
    (hwire : s'.wire = s.wire)
    (hnext : s'.pacer.ssrcSeq c.ssrc = s.pacer.ssrcSeq c.ssrc) : Kept c s' := by
  have hwaiting : (waiting c s').Sublist (waiting c s ++ new) := by
    have hsublist := (hcontents 3).filterMap id
    rw [hadded, List.filterMap_append] at hsublist
    have hid : (new.map some).filterMap id = new := by
      rw [List.filterMap_map]
      exact List.filterMap_some
    rw [hid] at hsublist
    exact hsublist
  have hall : (fragmentsOf s'.wire ++ waiting c s').Sublist
      ((fragmentsOf s.wire ++ waiting c s) ++ new) := by
    rw [hwire, List.append_assoc]
    exact List.Sublist.append_left hwaiting _
  -- fragments that were known before belong to earlier frames
  have hearlier : ∀ f ∈ fragmentsOf s.wire ++ waiting c s, f.frame < s.frameSizes.length := by
    intro f hf
    obtain ⟨count, hcount, -⟩ := h.bound f hf
    exact (List.getElem?_eq_some_iff.mp hcount).1
  refine ⟨hfiled, ?_, ?_, ?_, ?_, ?_, hsizes, ?_, ?_, ?_⟩
  · intro level hlevel
    have hsublist := hcontents level
    rw [h.early level hlevel, hearly level hlevel] at hsublist
    exact List.sublist_nil.mp hsublist
  · intro hin
    rcases List.mem_append.mp ((hcontents 3).subset hin) with hold | hin
    · exact h.fragment hold
    · rw [hadded] at hin
      simp at hin
  · intro content hin
    rcases List.mem_append.mp ((hcontents 4).subset hin) with hold | hin
    · exact h.padding content hold
    · exact hpadding content hin
  · refine List.Pairwise.sublist hall (List.pairwise_append.mpr ⟨h.order, hnew, ?_⟩)
    intro f hf g hg
    exact Or.inl ((hframe g hg).1 ▸ hearlier f hf)
  · intro f hf
    rcases List.mem_append.mp (hall.subset hf) with hold | hin
    · obtain ⟨count, hcount, hlt⟩ := h.bound f hold
      obtain ⟨rest, hrest⟩ := hstart
      refine ⟨count, ?_, hlt⟩
      rw [← hrest, List.getElem?_append_left (List.getElem?_eq_some_iff.mp hcount).1]
      exact hcount
    · exact (hframe f hin).2
  · intro before p after hsplit hnone f hf g hg
    rw [hwire] at hsplit
    rcases List.mem_append.mp hg with hafter | hwait
    · exact h.apart before p after hsplit hnone f hf g (List.mem_append_left _ hafter)
    · rcases List.mem_append.mp (hwaiting.subset hwait) with hold | hin
      · exact h.apart before p after hsplit hnone f hf g (List.mem_append_right _ hold)
      · rw [(hframe g hin).1]
        refine ne_of_lt (hearlier f (List.mem_append_left _ ?_))
        rw [hsplit]
        unfold fragmentsOf
        rw [List.filterMap_append]
        exact List.mem_append_left _ hf
  · rw [hwire]
    exact h.numbers
  · rw [hnext, hwire]
    exact h.next

/-- The contents that a list of packets adds to a lane of the channel. -/
def addedTo (c : VideoChannel) (packets : List (PacedPacket (Option FrameFragment)))
    (level : Fin 5) : List (Option FrameFragment) :=
  (packets.filter fun p => decide (p.ssrc = c.ssrc ∧ p.priorityLevel = level)).map fun p =>
    p.content

/-- Enqueueing packets adds their contents at most, and sends nothing. -/
theorem enqueue_packets (c : VideoChannel) (s : PacedSender (Option FrameFragment))
    (packets : List (PacedPacket (Option FrameFragment))) :
    (∀ level, (((s.step (.enqueuePackets packets)).1.packetQueue.lane c.ssrc level).map
        fun p => p.content).Sublist
      ((s.packetQueue.lane c.ssrc level).map (fun p => p.content) ++ addedTo c packets level)) ∧
      (s.step (.enqueuePackets packets)).1.ssrcSeq = s.ssrcSeq := by
  refine ⟨fun level => ?_, ?_⟩
  · exact PacedSender.contents_enqueue_all (fun p => p.priorityLevel) c.ssrc level
      (fun s p => PacedSender.contents_enqueue { s with transportSeq := s.transportSeq + 1 }
        (s.numbered p) c.ssrc level) packets s
  · exact List.foldlRecOn packets _
      (motive := fun t : PacedSender (Option FrameFragment) => t.ssrcSeq = s.ssrcSeq) rfl
      fun t ht p _ => ht

/-- Packets of other SSRCs add nothing. -/
theorem added_of_other {packets : List (PacedPacket (Option FrameFragment))}
    (h : ∀ p ∈ packets, p.ssrc ≠ c.ssrc) (level : Fin 5) : addedTo c packets level = [] := by
  unfold addedTo
  rw [List.map_eq_nil_iff, List.filter_eq_nil_iff]
  intro p hp hin
  exact h p hp (of_decide_eq_true hin).1

/-- Enqueueing packets of other SSRCs keeps the fragments. -/
theorem kept_other {s : ChannelRun} (h : Kept c s)
    {packets : List (PacedPacket (Option FrameFragment))} (hother : ∀ p ∈ packets, p.ssrc ≠ c.ssrc) :
    Kept c { s with pacer := (s.pacer.step (.enqueuePackets packets)).1 } := by
  obtain ⟨hcontents, hseq⟩ := enqueue_packets c s.pacer packets
  refine kept_enqueue h (addedTo c packets) [] (PacedSender.filed_step h.filed _) hcontents
    (fun level _ => added_of_other hother level) ?_ (added_of_other hother 3) List.Pairwise.nil
    (fun f hf => by cases hf) (List.prefix_refl _) h.sizes rfl (congrFun hseq c.ssrc)
  rw [added_of_other hother 4]
  exact fun _ hin => by cases hin

/-- The fragments of a frame in the order in which they are enqueued. -/
theorem added_fragments (c : VideoChannel) (frame : Nat) (isKeyFrame : Bool) (sizes : List Nat)
    (level : Fin 5) :
    addedTo c (fragments c frame isKeyFrame sizes) level =
      if level = 3 then places frame sizes.length else [] := by
  have hall : ∀ p ∈ fragments c frame isKeyFrame sizes, p.ssrc = c.ssrc ∧ p.priorityLevel = 3 := by
    intro p hp
    unfold fragments at hp
    obtain ⟨index, hindex, rfl⟩ := List.mem_mapIdx.mp hp
    exact ⟨rfl, rfl⟩
  unfold addedTo
  split_ifs with hlevel
  · have hkeep : (fragments c frame isKeyFrame sizes).filter
        (fun p => decide (p.ssrc = c.ssrc ∧ p.priorityLevel = level)) =
        fragments c frame isKeyFrame sizes :=
      List.filter_eq_self.mpr fun p hp => decide_eq_true ⟨(hall p hp).1, hlevel ▸ (hall p hp).2⟩
    rw [hkeep]
    refine List.ext_getElem (by simp [fragments, places]) fun k hk hk' => ?_
    simp [fragments, places]
  · rw [List.map_eq_nil_iff, List.filter_eq_nil_iff]
    intro p hp hin
    exact hlevel ((of_decide_eq_true hin).2.symm.trans (hall p hp).2)

/-- Enqueueing a frame keeps the fragments. -/
theorem kept_video {s : ChannelRun} (h : Kept c s) (isKeyFrame : Bool) {sizes : List Nat}
    (hsize : sizes.length ≤ kMaxPacketsPerFrame) :
    Kept c (s.act (.sendVideo isKeyFrame sizes : ChannelAction c)) := by
  obtain ⟨hcontents, hseq⟩ := enqueue_packets c s.pacer
    (fragments c s.frameSizes.length isKeyFrame sizes)
  set new : List FrameFragment :=
    (List.range sizes.length).map fun index => ⟨s.frameSizes.length, index⟩ with hnew
  refine kept_enqueue h _ new (PacedSender.filed_step h.filed _) hcontents ?_ ?_ ?_ ?_ ?_
    (List.prefix_append _ _) ?_ (List.append_nil _) (congrFun hseq c.ssrc)
  · intro level hlevel
    rw [added_fragments, if_neg (by omega)]
  · rw [added_fragments, if_neg (by decide)]
    exact fun _ hin => by cases hin
  · rw [added_fragments, if_pos rfl, hnew, List.map_map]
    rfl
  · rw [hnew, List.pairwise_map]
    exact List.pairwise_lt_range.imp fun hlt => Or.inr ⟨rfl, hlt⟩
  · intro f hf
    obtain ⟨index, hindex, rfl⟩ := List.mem_map.mp hf
    refine ⟨rfl, sizes.length, ?_, List.mem_range.mp hindex⟩
    exact List.getElem?_concat_length
  · intro count hcount
    rcases List.mem_append.mp hcount with hold | hlast
    · exact h.sizes count hold
    · rw [List.mem_singleton.mp hlast]
      exact hsize

/-- Filling the empty queue with padding keeps the fragments. -/
theorem kept_padding {s : ChannelRun} (h : Kept c s) (source : PaddingSource c)
    (sizes : List Nat) :
    Kept c { s with
      pacer := (sizes.map (paddingPacket source)).foldl PacedSender.enqueuePadding s.pacer } := by
  set packets := sizes.map (paddingPacket source) with hpackets
  have hcontents : ∀ level, (((packets.foldl PacedSender.enqueuePadding
        s.pacer).packetQueue.lane c.ssrc level).map fun p => p.content).Sublist
      ((s.pacer.packetQueue.lane c.ssrc level).map (fun p => p.content) ++
        (packets.filter fun p => decide (p.ssrc = c.ssrc ∧ (4 : Fin 5) = level)).map
          fun p => p.content) :=
    fun level => PacedSender.contents_enqueue_all (fun _ => 4) c.ssrc level
      (fun s p => PacedSender.contents_enqueue { s with transportSeq := s.transportSeq + 1 }
        (s.numbered { p with packetType := .padding }) c.ssrc level) packets s.pacer
  have hseq : (packets.foldl PacedSender.enqueuePadding s.pacer).ssrcSeq = s.pacer.ssrcSeq :=
    List.foldlRecOn packets _
      (motive := fun t : PacedSender (Option FrameFragment) => t.ssrcSeq = s.pacer.ssrcSeq) rfl
      fun t ht p _ => ht
  have hfiled : (packets.foldl PacedSender.enqueuePadding s.pacer).packetQueue.Filed :=
    List.foldlRecOn packets _
      (motive := fun t : PacedSender (Option FrameFragment) => t.packetQueue.Filed) h.filed
      fun t ht p _ => PacedSender.filed_enqueue ht _
  have hempty : ∀ level, level ≠ 4 →
      (packets.filter fun p => decide (p.ssrc = c.ssrc ∧ (4 : Fin 5) = level)).map
        (fun p => p.content) = [] := by
    intro level hlevel
    rw [List.map_eq_nil_iff, List.filter_eq_nil_iff]
    exact fun p _ hin => hlevel (of_decide_eq_true hin).2.symm
  refine kept_enqueue h _ [] hfiled hcontents
    (fun level hlevel => hempty level (by omega)) ?_ (hempty 3 (by decide)) List.Pairwise.nil
    (fun f hf => by cases hf) (List.prefix_refl _) h.sizes rfl (congrFun hseq c.ssrc)
  intro content hin
  obtain ⟨p, hp, rfl⟩ := List.mem_map.mp hin
  obtain ⟨size, -, rfl⟩ := List.mem_map.mp (List.mem_filter.mp hp).1
  rfl

/-- Dropping a stream keeps the fragments. -/
theorem kept_remove {s : ChannelRun} (h : Kept c s) (ssrc : BitVec 32) :
    Kept c { s with pacer := (s.pacer.step (.removePacketsForSsrc ssrc)).1 } := by
  refine kept_enqueue h (fun _ => []) [] (PacedSender.filed_step h.filed _) ?_ (fun _ _ => rfl) (fun _ hin => by cases hin) rfl List.Pairwise.nil (fun f hf => by cases hf)
    (List.prefix_refl _) h.sizes rfl rfl
  intro level
  rw [List.append_nil]
  unfold contents PacedSender.step
  simp only
  rw [PrioritizedPacketQueue.lane_remove]
  split_ifs
  · exact List.nil_sublist _
  · exact List.Sublist.refl _

/-- A packet of another SSRC is sent. -/
theorem kept_foreign {s s' : ChannelRun} (h : Kept c s) (hfiled : s'.pacer.packetQueue.Filed)
    (hcontents : ∀ level, contents c s' level = contents c s level)
    (hsizes : s'.frameSizes = s.frameSizes) (hwire : s'.wire = s.wire)
    (hnext : s'.pacer.ssrcSeq c.ssrc = s.pacer.ssrcSeq c.ssrc) : Kept c s' := by
  refine kept_enqueue h (fun _ => []) [] hfiled (fun level => ?_) (fun _ _ => rfl)
    (fun _ hin => by cases hin) rfl List.Pairwise.nil (fun f hf => by cases hf)
    (hsizes ▸ List.prefix_refl _) (hsizes ▸ h.sizes) hwire hnext
  rw [hcontents, List.append_nil]

/-- The numbers on the wire after one more packet. -/
theorem numbers_sent {wire : List (PacedPacket (Option FrameFragment))}
    (h : wire.map (fun p => p.sequenceNumber) =
      (List.range wire.length).map fun index => 1 + BitVec.ofNat 16 index)
    {p : PacedPacket (Option FrameFragment)}
    (hp : p.sequenceNumber = 1 + BitVec.ofNat 16 wire.length) :
    (wire ++ [p]).map (fun p => p.sequenceNumber) =
      (List.range (wire ++ [p]).length).map fun index => 1 + BitVec.ofNat 16 index := by
  rw [List.map_append, h, List.length_append, List.length_singleton, List.range_succ,
    List.map_append, List.map_singleton, List.map_singleton, hp]

/-- The next number after one more packet. -/
theorem next_sent (length : Nat) :
    1 + BitVec.ofNat 16 length + 1 = 1 + BitVec.ofNat 16 (length + 1) := by
  rw [BitVec.ofNat_add, BitVec.add_assoc]
  rfl

/-- The first fragment that waits is sent. -/
theorem kept_fragment {s s' : ChannelRun} (h : Kept c s)
    {p : PacedPacket (Option FrameFragment)} (hfiled : s'.pacer.packetQueue.Filed)
    (hfront : contents c s 3 = p.content :: contents c s' 3)
    (hcontents : ∀ level, level ≠ 3 → contents c s' level = contents c s level)
    (hsizes : s'.frameSizes = s.frameSizes) (hwire : s'.wire = s.wire ++ [p])
    (hnumber : p.sequenceNumber = s.pacer.ssrcSeq c.ssrc)
    (hnext : s'.pacer.ssrcSeq c.ssrc = s.pacer.ssrcSeq c.ssrc + 1) : Kept c s' := by
  obtain ⟨f, hf⟩ : ∃ f, p.content = some f := by
    refine Option.ne_none_iff_exists'.mp fun hnone => h.fragment ?_
    rw [hfront, hnone]
    exact List.mem_cons_self
  have hwaiting : waiting c s = f :: waiting c s' := by
    unfold waiting
    rw [hfront, hf]
    rfl
  have hall : fragmentsOf s'.wire ++ waiting c s' = fragmentsOf s.wire ++ waiting c s := by
    rw [hwire, hwaiting]
    unfold fragmentsOf
    rw [List.filterMap_append, List.filterMap_cons_some hf, List.filterMap_nil,
      List.append_assoc, List.singleton_append]
  refine ⟨hfiled, ?_, ?_, ?_, ?_, ?_, ?_, ?_, ?_, ?_⟩
  · intro level hlevel
    rw [hcontents level (by omega)]
    exact h.early level hlevel
  · intro hin
    refine h.fragment ?_
    rw [hfront]
    exact List.mem_cons_of_mem _ hin
  · rw [hcontents 4 (by decide)]
    exact h.padding
  · rw [hall]
    exact h.order
  · rw [hall, hsizes]
    exact h.bound
  · rw [hsizes]
    exact h.sizes
  · intro before x after hsplit hnone g hg k hk
    rw [hwire] at hsplit
    rcases List.eq_nil_or_concat after with hnil | ⟨init, last, hconcat⟩
    · -- the padding cannot be the fragment that was just sent
      rw [hnil] at hsplit
      obtain ⟨-, hlast⟩ := List.append_inj' hsplit rfl
      rw [← (List.cons.inj hlast).1, hf] at hnone
      cases hnone
    · subst hconcat
      rw [List.concat_eq_append, ← List.cons_append, ← List.append_assoc] at hsplit
      obtain ⟨hinit, hlast⟩ := List.append_inj' hsplit rfl
      refine h.apart before x init hinit hnone g hg k ?_
      rw [hwaiting]
      rw [List.concat_eq_append, ← (List.cons.inj hlast).1] at hk
      unfold fragmentsOf at hk
      rw [List.filterMap_append, List.filterMap_cons_some hf, List.filterMap_nil,
        List.append_assoc, List.singleton_append] at hk
      exact hk
  · rw [hwire]
    exact numbers_sent h.numbers (hnumber.trans h.next)
  · rw [hnext, h.next, hwire, List.length_append, List.length_singleton]
    exact next_sent _

/-- Padding is sent when no frame is half sent. -/
theorem kept_own_padding {s s' : ChannelRun} (h : Kept c s) (hhalf : ¬ HalfSent c s)
    {p : PacedPacket (Option FrameFragment)} (hfiled : s'.pacer.packetQueue.Filed)
    (hcontent : p.content = none)
    (hcontents : ∀ level, level ≠ 4 → contents c s' level = contents c s level)
    (hpadding : ∀ content ∈ contents c s' 4, content = none)
    (hsizes : s'.frameSizes = s.frameSizes) (hwire : s'.wire = s.wire ++ [p])
    (hnumber : p.sequenceNumber = s.pacer.ssrcSeq c.ssrc)
    (hnext : s'.pacer.ssrcSeq c.ssrc = s.pacer.ssrcSeq c.ssrc + 1) : Kept c s' := by
  have hwaiting : waiting c s' = waiting c s := by
    unfold waiting
    rw [hcontents 3 (by decide)]
  have hfragments : fragmentsOf s'.wire = fragmentsOf s.wire := by
    rw [hwire]
    unfold fragmentsOf
    rw [List.filterMap_append, List.filterMap_cons_none hcontent, List.filterMap_nil,
      List.append_nil]
  refine ⟨hfiled, ?_, ?_, hpadding, ?_, ?_, ?_, ?_, ?_, ?_⟩
  · intro level hlevel
    rw [hcontents level (by omega)]
    exact h.early level hlevel
  · rw [hcontents 3 (by decide)]
    exact h.fragment
  · rw [hfragments, hwaiting]
    exact h.order
  · rw [hfragments, hwaiting, hsizes]
    exact h.bound
  · rw [hsizes]
    exact h.sizes
  · intro before x after hsplit hnone f hf g hg
    rw [hwire] at hsplit
    rw [hwaiting] at hg
    rcases List.eq_nil_or_concat after with hnil | ⟨init, last, hconcat⟩
    · -- nothing follows the new padding but what waits
      rw [hnil] at hsplit hg
      obtain ⟨hbefore, -⟩ := List.append_inj' hsplit rfl
      intro hframe
      refine hhalf ⟨f.frame, f.index, g.index, ?_, ?_⟩
      · rw [← hbefore] at hf
        obtain ⟨q, hq, hcontent⟩ := List.mem_filterMap.mp hf
        exact ⟨q, hq, hcontent⟩
      · rw [hframe]
        obtain ⟨content, hin, hsome⟩ := List.mem_filterMap.mp hg
        obtain ⟨q, hq, rfl⟩ := List.mem_map.mp hin
        exact ⟨q, hq, hsome⟩
    · subst hconcat
      rw [List.concat_eq_append, ← List.cons_append, ← List.append_assoc] at hsplit
      obtain ⟨hinit, hlast⟩ := List.append_inj' hsplit rfl
      refine h.apart before x init hinit hnone f hf g ?_
      rw [List.concat_eq_append, ← (List.cons.inj hlast).1] at hg
      unfold fragmentsOf at hg
      rw [List.filterMap_append, List.filterMap_cons_none hcontent, List.filterMap_nil,
        List.append_nil] at hg
      exact hg
  · rw [hwire]
    exact numbers_sent h.numbers (hnumber.trans h.next)
  · rw [hnext, h.next, hwire, List.length_append, List.length_singleton]
    exact next_sent _

/-- Taking the next packet from the queue keeps the fragments. -/
theorem kept_next {s : ChannelRun} (h : Kept c s) :
    Kept c (s.act (.sendNext : ChannelAction c)) := by
  unfold act call PacedSender.step
  simp only
  cases hpop : s.pacer.packetQueue.pop with
  | none =>
      show Kept c { s with wire := s.wire ++ [] }
      rw [List.append_nil]
      exact h
  | some popped =>
      obtain ⟨p, queue⟩ := popped
      have hpopped := PrioritizedPacketQueue.popped_of_pop h.filed hpop
      by_cases hown : p.ssrc = c.ssrc
      · have hwire : s.wire ++ sentUnder c (some { p with
            sequenceNumber := s.pacer.ssrcSeq p.ssrc }) =
            s.wire ++ [{ p with sequenceNumber := s.pacer.ssrcSeq p.ssrc }] :=
          congrArg _ (if_pos hown)
        have hothers : ∀ level, level ≠ p.priorityLevel →
            queue.lane c.ssrc level = s.pacer.packetQueue.lane c.ssrc level :=
          fun level hlevel => hpopped.others c.ssrc level fun hboth => hlevel hboth.2
        have hfront := hpopped.front
        rw [hown] at hfront
        have hnumber : s.pacer.ssrcSeq p.ssrc = s.pacer.ssrcSeq c.ssrc := by rw [hown]
        have hnext : Function.update s.pacer.ssrcSeq p.ssrc (s.pacer.ssrcSeq p.ssrc + 1) c.ssrc =
            s.pacer.ssrcSeq c.ssrc + 1 := by
          rw [hown, Function.update_self]
        have hlevels : p.priorityLevel < 3 ∨ p.priorityLevel = 3 ∨ p.priorityLevel = 4 := by omega
        rcases hlevels with hlevel | hlevel | hlevel
        · have hempty := h.early p.priorityLevel hlevel
          unfold contents at hempty
          rw [hfront] at hempty
          cases hempty
        · rw [hlevel] at hfront hothers
          refine kept_fragment h hpopped.filed ?_ ?_ rfl hwire hnumber hnext
          · show (s.pacer.packetQueue.lane c.ssrc 3).map _ = _
            rw [hfront]
            rfl
          · intro level hne
            show (queue.lane c.ssrc level).map _ = _
            rw [hothers level hne]
            rfl
        · rw [hlevel] at hfront hothers
          have hall : ∀ content ∈ contents c s 4, content = none := h.padding
          unfold contents at hall
          rw [hfront, List.map_cons] at hall
          have hnone : p.content = none := hall _ List.mem_cons_self
          refine kept_own_padding h ?_
            (p := { p with sequenceNumber := s.pacer.ssrcSeq p.ssrc }) hpopped.filed hnone ?_ ?_ rfl
            hwire hnumber hnext
          · rintro ⟨frame, i, j, -, q, hq, -⟩
            rw [hpopped.priority c.ssrc 3 (by rw [hlevel]; decide)] at hq
            cases hq
          · intro level hne
            show (queue.lane c.ssrc level).map _ = _
            rw [hothers level hne]
            rfl
          · exact fun content hin => hall content (List.mem_cons_of_mem _ hin)
      · refine kept_foreign h hpopped.filed (fun level => ?_) rfl ?_ ?_
        · show (queue.lane c.ssrc level).map _ = _
          rw [hpopped.others c.ssrc level fun hboth => hown hboth.1.symm]
          rfl
        · have hnil : sentUnder c (some { p with sequenceNumber := s.pacer.ssrcSeq p.ssrc }) = [] :=
            if_neg hown
          exact (congrArg _ hnil).trans (List.append_nil _)
        · exact Function.update_of_ne (fun heq => hown heq.symm) _ _

/-- Padding that is sent at once keeps the fragments, unless it is sent under their SSRC while a frame
is half sent. -/
theorem kept_direct {s : ChannelRun} (h : Kept c s) (source : PaddingSource c) (size : Nat)
    (hhalf : (paddingPacket source size).ssrc = c.ssrc → ¬ HalfSent c s) :
    Kept c
      { s with
        pacer := (s.pacer.step (.sendProbePadding (paddingPacket source size))).1
        wire := s.wire ++
          sentUnder c (s.pacer.step (.sendProbePadding (paddingPacket source size))).2 } := by
  set padding : PacedPacket (Option FrameFragment) := paddingPacket source size with hpadding
  by_cases hown : padding.ssrc = c.ssrc
  · refine kept_own_padding h (hhalf hown) h.filed
      (p :=
        { padding with
          packetType := .padding
          transportSequenceNumber := some s.pacer.transportSeq
          sequenceNumber := s.pacer.ssrcSeq padding.ssrc }) rfl (fun _ _ => rfl) h.padding rfl ?_
      (by simp only [hown]) ?_
    · exact congrArg (s.wire ++ ·) (if_pos hown)
    · show Function.update s.pacer.ssrcSeq padding.ssrc (s.pacer.ssrcSeq padding.ssrc + 1) c.ssrc = _
      rw [hown, Function.update_self]
  · refine kept_foreign h h.filed (fun _ => rfl) rfl ?_ ?_
    · exact (congrArg (s.wire ++ ·) (if_neg hown)).trans (List.append_nil _)
    · exact Function.update_of_ne (fun heq => hown heq.symm) _ _

/-- An action that keeps the frames together keeps the fragments. -/
theorem kept_act {s : ChannelRun} (h : Kept c s) {action : ChannelAction c}
    (hkeeps : s.KeepsFrames action) : Kept c (s.act action) := by
  have hnil : ∀ t : ChannelRun, Kept c t → Kept c { t with wire := t.wire ++ [] } := by
    intro t ht
    rw [List.append_nil]
    exact ht
  -- only padding of the channel itself without RTX has the SSRC of the frames
  have hown : ∀ source size, (paddingPacket (c := c) source size).ssrc = c.ssrc →
      source = .own ∧ c.rtxEnabled = false := by
    intro source size hssrc
    cases source with
    | own =>
        refine ⟨rfl, Bool.eq_false_iff.mpr fun hrtx => c.distinct ?_⟩
        simpa [paddingPacket, hrtx] using hssrc
    | other ssrc => exact absurd hssrc ssrc.property
  cases action with
  | sendVideo isKeyFrame sizes => exact kept_video h isKeyFrame (hkeeps.2 isKeyFrame sizes rfl)
  | resendPacket size =>
      refine hnil { s with pacer := _ } (kept_other h ?_)
      intro p hp
      split_ifs at hp
      · rw [List.mem_singleton.mp hp]
        exact c.distinct
      · cases hp
  | enqueueOther packets =>
      refine hnil { s with pacer := _ } (kept_other h ?_)
      intro p hp
      obtain ⟨other, -, rfl⟩ := List.mem_map.mp hp
      exact other.ssrc.property
  | removePacketsForSsrc ssrc => exact hnil { s with pacer := _ } (kept_remove h ssrc)
  | sendNext => exact kept_next h
  | sendKeepalive source size =>
      unfold act call PacedSender.step
      simp only
      split_ifs
      · refine kept_direct h source size fun hssrc => hkeeps.1 ?_
        obtain ⟨rfl, hrtx⟩ := hown source size hssrc
        show (!c.rtxEnabled) = true
        rw [hrtx]
        rfl
      · exact hnil s h
  | sendProbePadding source size =>
      refine kept_direct h source size fun hssrc => hkeeps.1 ?_
      obtain ⟨rfl, hrtx⟩ := hown source size hssrc
      show (!c.rtxEnabled) = true
      rw [hrtx]
      rfl
  | queuePadding source sizes =>
      unfold act call PacedSender.step
      simp only
      split_ifs
      · exact hnil { s with pacer := _ } (kept_padding h source sizes)
      · exact hnil s h

/-! ## Frames on the wire -/

/-- Elements with nothing else between them are one block of their list. -/
theorem exists_block {α : Type*} (P : α → Bool) (l : List α)
    (hconvex : ∀ before x after, l = before ++ x :: after → P x = false →
      (∀ y ∈ before, P y = false) ∨ ∀ y ∈ after, P y = false) :
    ∃ before after, l = before ++ l.filter P ++ after ∧ ∀ y ∈ before, P y = false := by
  induction l with
  | nil => exact ⟨[], [], rfl, fun _ h => by cases h⟩
  | cons x rest ih =>
      obtain ⟨before, after, hsplit, hbefore⟩ := ih fun before y after hrest hy => by
        rcases hconvex (x :: before) y after (by rw [hrest, List.cons_append]) hy with h | h
        · exact Or.inl fun z hz => h z (List.mem_cons_of_mem _ hz)
        · exact Or.inr h
      cases hx : P x with
      | false =>
          refine ⟨x :: before, after, ?_, ?_⟩
          · rw [List.filter_cons_of_neg (by rw [hx]; decide), List.cons_append, List.cons_append,
              ← hsplit]
          · intro y hy
            rcases List.mem_cons.mp hy with rfl | hin
            · exact hx
            · exact hbefore y hin
      | true =>
          rw [List.filter_cons_of_pos hx]
          cases hfilter : rest.filter P with
          | nil => exact ⟨[], rest, rfl, fun _ h => by cases h⟩
          | cons z block =>
              -- an element in front of the next one would be between two of them
              have hz : z ∈ rest ∧ P z = true := List.mem_filter.mp (by
                rw [hfilter]
                exact List.mem_cons_self)
              cases before with
              | nil =>
                  rw [hfilter, List.nil_append] at hsplit
                  exact ⟨[], after, by rw [hsplit]; rfl, fun _ h => by cases h⟩
              | cons y before =>
                  exfalso
                  have hy := hbefore y List.mem_cons_self
                  rcases hconvex [x] y (before ++ rest.filter P ++ after)
                    (congrArg (x :: ·) hsplit) hy with h | h
                  · rw [h x List.mem_cons_self] at hx
                    cases hx
                  · have hin : z ∈ before ++ rest.filter P ++ after := by
                      rw [hfilter]
                      simp
                    rw [h z hin] at hz
                    cases hz.2

/-- Whether a packet belongs to a frame. -/
def inFrame (frame : Nat) (p : PacedPacket (Option FrameFragment)) : Bool :=
  p.content.any fun f => decide (f.frame = frame)

/-- A packet of a frame has a place in it. -/
theorem in_frame_iff {frame : Nat} {p : PacedPacket (Option FrameFragment)} :
    inFrame frame p = true ↔ ∃ f, p.content = some f ∧ f.frame = frame := by
  unfold inFrame
  cases p.content with
  | none => simp
  | some f => simp

/-- Nothing else is between the packets of a frame. -/
theorem frame_convex {s : ChannelRun} (h : Kept c s) (frame : Nat)
    (before : List (PacedPacket (Option FrameFragment))) (x : PacedPacket (Option FrameFragment))
    (after : List (PacedPacket (Option FrameFragment))) (hsplit : s.wire = before ++ x :: after)
    (hx : inFrame frame x = false) :
    (∀ y ∈ before, inFrame frame y = false) ∨ ∀ y ∈ after, inFrame frame y = false := by
  by_contra hboth
  simp only [not_or, not_forall, Bool.not_eq_false, exists_prop] at hboth
  obtain ⟨⟨y, hy, hyFrame⟩, z, hz, hzFrame⟩ := hboth
  obtain ⟨f, hf, hfFrame⟩ := in_frame_iff.mp hyFrame
  obtain ⟨g, hg, hgFrame⟩ := in_frame_iff.mp hzFrame
  have hfBefore : f ∈ fragmentsOf before := List.mem_filterMap.mpr ⟨y, hy, hf⟩
  have hgAfter : g ∈ fragmentsOf after := List.mem_filterMap.mpr ⟨z, hz, hg⟩
  cases hcontent : x.content with
  | none =>
      exact h.apart before x after hsplit hcontent f hfBefore g (List.mem_append_left _ hgAfter)
        (hfFrame.trans hgFrame.symm)
  | some k =>
      have horder := (List.pairwise_append.mp h.order).1
      have hfragments : fragmentsOf s.wire = fragmentsOf before ++ k :: fragmentsOf after := by
        rw [hsplit]
        unfold fragmentsOf
        rw [List.filterMap_append, List.filterMap_cons_some hcontent]
      rw [hfragments] at horder
      obtain ⟨-, hlater, hearlier⟩ := List.pairwise_append.mp horder
      have hfk : Before f k := hearlier f hfBefore k List.mem_cons_self
      have hkg : Before k g := (List.pairwise_cons.mp hlater).1 g hgAfter
      have hframe : k.frame = frame := by
        unfold Before at hfk hkg
        omega
      rw [in_frame_iff.mpr ⟨k, hcontent, hframe⟩] at hx
      cases hx

/-- The contents of packets that all are fragments. -/
theorem contents_of_fragments {packets : List (PacedPacket (Option FrameFragment))}
    (h : ∀ p ∈ packets, ∃ f, p.content = some f) :
    packets.map (fun p => p.content) = (fragmentsOf packets).map some := by
  induction packets with
  | nil => rfl
  | cons p rest ih =>
      obtain ⟨f, hf⟩ := h p List.mem_cons_self
      unfold fragmentsOf at ih ⊢
      rw [List.map_cons, List.filterMap_cons_some hf, List.map_cons, hf,
        ih fun q hq => h q (List.mem_cons_of_mem _ hq)]

/-- The packets of a frame that was sent completely are at their places, in order. -/
theorem places_of_sent {s : ChannelRun} (h : Kept c s) {frame count : Nat}
    (hcount : s.frameSizes[frame]? = some count)
    (hsent : ∀ place ∈ places frame count, ∃ p ∈ s.wire, p.content = place) :
    (s.wire.filter (inFrame frame)).map (fun p => p.content) = places frame count := by
  set block := s.wire.filter (inFrame frame) with hblock
  have hin : ∀ p ∈ block, ∃ f, p.content = some f ∧ f.frame = frame := fun p hp =>
    in_frame_iff.mp (List.mem_filter.mp hp).2
  have hmap := contents_of_fragments fun p hp => (hin p hp).imp fun f hf => hf.1
  have hsublist : (fragmentsOf block).Sublist (fragmentsOf s.wire) :=
    (List.filter_sublist).filterMap _
  have horder : (fragmentsOf block).Pairwise Before :=
    (List.pairwise_append.mp h.order).1.sublist hsublist
  have hframe : ∀ f ∈ fragmentsOf block, f.frame = frame := by
    intro f hf
    obtain ⟨p, hp, hcontent⟩ := List.mem_filterMap.mp hf
    obtain ⟨g, hg, hgFrame⟩ := hin p hp
    rw [hcontent] at hg
    rw [Option.some.inj hg]
    exact hgFrame
  have hindices : (fragmentsOf block).map (fun f => f.index) = List.range count := by
    have hsorted : ((fragmentsOf block).map fun f => f.index).Pairwise (· < ·) := by
      rw [List.pairwise_map]
      refine List.Pairwise.imp_of_mem ?_ horder
      intro f g hf hg hbefore
      have hfFrame := hframe f hf
      have hgFrame := hframe g hg
      unfold Before at hbefore
      omega
    refine List.Perm.eq_of_pairwise (fun a b _ _ hab hba => absurd hab (lt_asymm hba)) hsorted
      List.pairwise_lt_range ?_
    rw [List.perm_ext_iff_of_nodup (hsorted.imp fun hlt => ne_of_lt hlt) List.nodup_range]
    intro index
    rw [List.mem_range, List.mem_map]
    constructor
    · rintro ⟨f, hf, rfl⟩
      obtain ⟨count', hcount', hlt⟩ := h.bound f (List.mem_append_left _ (hsublist.subset hf))
      rw [hframe f hf, hcount] at hcount'
      rwa [Option.some.inj hcount']
    · intro hlt
      obtain ⟨p, hp, hcontent⟩ := hsent (some ⟨frame, index⟩)
        (List.mem_map.mpr ⟨index, List.mem_range.mpr hlt, rfl⟩)
      refine ⟨⟨frame, index⟩, List.mem_filterMap.mpr ⟨p, ?_, hcontent⟩, rfl⟩
      exact List.mem_filter.mpr ⟨hp, in_frame_iff.mpr ⟨_, hcontent, rfl⟩⟩
  rw [hmap]
  unfold places
  rw [← hindices, List.map_map]
  refine List.map_congr_left fun f hf => ?_
  show some f = some ⟨frame, f.index⟩
  rw [← hframe f hf]

/-- A frame that was sent completely is contiguous. -/
theorem contiguous_of_kept {s : ChannelRun} (h : Kept c s) : s.Contiguous := by
  intro frame count hcount hsent
  obtain ⟨before, after, hsplit, -⟩ := exists_block (inFrame frame) s.wire (frame_convex h frame)
  have hplaces := places_of_sent h hcount hsent
  set block := s.wire.filter (inFrame frame) with hblock
  have hlength : block.length = count := by
    have hcongr := congrArg List.length hplaces
    simpa [places] using hcongr
  refine ⟨before, block, after, hsplit, hplaces, 1 + BitVec.ofNat 16 before.length, ?_, ?_⟩
  · have hnumbers := h.numbers
    rw [hsplit] at hnumbers
    refine List.ext_getElem (by simp [hlength]) fun index hindex _ => ?_
    have hindex' : index < block.length := by simpa using hindex
    have hget := congrArg (fun l => l[before.length + index]?) hnumbers
    simp only [List.map_append, List.append_assoc] at hget
    rw [List.getElem?_append_right (by simp), List.getElem?_append_left (by simpa using hindex')]
      at hget
    have hlt : before.length + index < before.length + (block.length + after.length) := by omega
    simp only [List.length_map, Nat.add_sub_cancel_left, List.length_append, List.getElem?_map,
      List.getElem?_range hlt, List.getElem?_eq_getElem hindex', Option.map_some,
      Option.some.injEq] at hget
    rw [List.getElem_map, hget, List.getElem_map, List.getElem_range, BitVec.ofNat_add,
      BitVec.add_assoc]
  · intro hpos
    have hmax := h.sizes count (List.mem_of_getElem? hcount)
    unfold framePacketCount
    have hdiff : (1 + BitVec.ofNat 16 before.length + BitVec.ofNat 16 (count - 1) -
        (1 + BitVec.ofNat 16 before.length)).toNat + 1 = count := by
      rw [BitVec.add_comm, BitVec.add_sub_cancel, BitVec.toNat_ofNat]
      unfold kMaxPacketsPerFrame at hmax
      omega
    rw [hdiff]
    exact if_pos hmax

/-- In every state of a run in which no padding is sent under the SSRC of the frames while a frame is
half sent, every frame that was sent completely is contiguous. -/
theorem contiguous_run (actions : List (ChannelAction c))
    (hkeeps : Run.Along act KeepsFrames {} actions) :
    (actions.foldl act {}).Contiguous :=
  contiguous_of_kept (hkeeps.invariant (I := Kept c) (fun _ _ h hin => kept_act h hin) (kept_new c))

/-- A frame of two packets with a keep-alive in between. -/
def keepaliveInside (c : VideoChannel) : List (ChannelAction c) :=
  [.sendVideo false [1200, 100], .sendNext, .sendKeepalive .own 1, .sendNext]

/-- A channel with an SSRC for retransmissions and padding. -/
def withRtx : VideoChannel where
  ssrc := 1
  rtxSsrc := 2
  rtxEnabled := true
  distinct := by decide

/-- A channel without one. -/
def withoutRtx : VideoChannel where
  ssrc := 1
  rtxSsrc := 2
  rtxEnabled := false
  distinct := by decide

/-- With RTX the keep-alive does not come between the packets of the frame. -/
theorem with_rtx_contiguous :
    Run.Along act KeepsFrames {} (keepaliveInside withRtx) ∧
      ((keepaliveInside withRtx).foldl act {}).Contiguous := by
  have hkeeps : Run.Along act KeepsFrames {} (keepaliveInside withRtx) := by
    refine ⟨⟨(fun h => by cases h), ?_⟩, ⟨(fun h => by cases h), ?_⟩, ⟨(fun h => by cases h), ?_⟩,
      ⟨(fun h => by cases h), ?_⟩, trivial⟩
    · intro isKeyFrame sizes hsizes
      cases hsizes
      decide
    · exact fun _ _ h => by cases h
    · exact fun _ _ h => by cases h
    · exact fun _ _ h => by cases h
  exact ⟨hkeeps, contiguous_run (keepaliveInside withRtx) hkeeps⟩

/-- Without RTX the keep-alive has the number between those of the packets of the frame. -/
theorem keepalive_splits_frame :
    ¬ ∀ (c : VideoChannel) (actions : List (ChannelAction c)),
      (actions.foldl act {}).Contiguous := by
  intro h
  set wire := ((keepaliveInside withoutRtx).foldl act {}).wire with hwire
  have hcontents : wire.map (fun p => p.content) = [some ⟨0, 0⟩, none, some ⟨0, 1⟩] := by
    decide
  have hsent : ∀ place ∈ places 0 2, ∃ p ∈ wire, p.content = place := by
    intro place hplace
    refine List.mem_map.mp ?_
    rw [hcontents]
    revert place
    decide
  obtain ⟨before, block, after, hsplit, hblock, -⟩ :=
    h withoutRtx (keepaliveInside withoutRtx) 0 2 rfl hsent
  rw [← hwire] at hsplit
  have hplaces : places 0 2 = [some ⟨0, 0⟩, some ⟨0, 1⟩] := rfl
  rw [hsplit, List.map_append, List.map_append, hblock, hplaces] at hcontents
  -- the block starts with the first or the second packet on the wire
  match before with
  | [] => cases hcontents
  | [p] => exact absurd (List.cons.inj hcontents).2 (fun hrest => by cases hrest)
  | p :: q :: before =>
      have hlength := congrArg List.length hcontents
      simp only [List.map_cons, List.length_append, List.length_cons, List.length_map,
        List.length_nil] at hlength
      omega

end ChannelRun

end MiniRtc

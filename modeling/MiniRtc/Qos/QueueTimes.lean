import MiniRtc.Qos.PacketQueue
import MiniRtc.Foundation.Stopwatch
import MiniRtc.Foundation.Run

/-!
# The counters and times of the packet queue

`PrioritizedPacketQueue` with its counters: how many packets it holds, how many bytes they have, and
how long they have been waiting while the queue was not paused. The queue never looks at all its
packets for that. `QueueHistory` holds the packets with a stopwatch beside the queue, and
`queue_accounted` says that the counters are about these packets in every state of every run.
-/

namespace MiniRtc

/-- The sizes of an `RtpPacketToSend`. -/
structure PacketBody (Content : Type*) where
  payloadSize : Nat := 0
  paddingSize : Nat := 0
  headersSize : Nat := 0
  content : Content

/-- What `QueuedPacket` adds to a packet. The iterator is the node of the list of enqueue times. -/
structure QueuedBody (Content : Type*) extends PacketBody Content where
  enqueueTime : ℤ
  enqueueTimeIterator : ℕ

/-- `QueuedPacket`. -/
abbrev QueuedPacket (Content : Type*) :=
  PacedPacket (QueuedBody Content)

namespace QueuedPacket

variable {Content : Type*}

/-- `QueuedPacket::PacketSize`. -/
def packetSize (p : QueuedPacket Content) : ℤ :=
  p.content.payloadSize + p.content.paddingSize

/-- The node of the packet in the list of enqueue times. -/
def node (p : QueuedPacket Content) : ℕ :=
  p.content.enqueueTimeIterator

/-- The queued packet of a packet. -/
def of (p : PacedPacket (PacketBody Content)) (enqueueTime : ℤ) (enqueueTimeIterator : ℕ) :
    QueuedPacket Content :=
  { p with content := { p.content with enqueueTime, enqueueTimeIterator } }

end QueuedPacket

/-- `PrioritizedPacketQueue` with its counters. -/
structure TimedPacketQueue (Content : Type*) where
  lanes : PrioritizedPacketQueue (QueuedBody Content) := {}
  queueTimeSum : ℤ := 0
  pauseTimeSum : ℤ := 0
  sizePackets : ℤ := 0
  sizePacketsPerMediaType : RtpPacketMediaType → ℤ := fun _ => 0
  sizePayload : ℤ := 0
  lastUpdateTime : ℤ
  paused : Bool := false
  enqueueTimes : List (ℕ × ℤ) := []
  nextIterator : ℕ := 0

namespace TimedPacketQueue

variable {Content : Type*}

/-- `UpdateAverageQueueTime`. -/
def updateAverageQueueTime (q : TimedPacketQueue Content) (now : ℤ) : TimedPacketQueue Content :=
  if now = q.lastUpdateTime then q
  else
    let delta := now - q.lastUpdateTime
    if q.paused then { q with pauseTimeSum := q.pauseTimeSum + delta, lastUpdateTime := now }
    else
      { q with
        queueTimeSum := q.queueTimeSum + delta * q.sizePackets
        lastUpdateTime := now }

/-- `SetPauseState`. -/
def setPauseState (q : TimedPacketQueue Content) (paused : Bool) (now : ℤ) :
    TimedPacketQueue Content :=
  { q.updateAverageQueueTime now with paused }

/-- The queued packet that `Push` makes of a packet. The time that the queue was paused so far does
not count. -/
def queuedPacket (q : TimedPacketQueue Content) (enqueueTime : ℤ)
    (p : PacedPacket (PacketBody Content)) : QueuedPacket Content :=
  QueuedPacket.of p (enqueueTime - (q.updateAverageQueueTime enqueueTime).pauseTimeSum)
    q.nextIterator

/-- `Push`. -/
def push (q : TimedPacketQueue Content) (enqueueTime : ℤ) (p : PacedPacket (PacketBody Content)) :
    TimedPacketQueue Content :=
  let queued := q.queuedPacket enqueueTime p
  let q := q.updateAverageQueueTime enqueueTime
  { q with
    lanes := q.lanes.push queued
    sizePackets := q.sizePackets + 1
    sizePacketsPerMediaType := Function.update q.sizePacketsPerMediaType p.packetType
      (q.sizePacketsPerMediaType p.packetType + 1)
    sizePayload := q.sizePayload + queued.packetSize
    enqueueTimes := q.enqueueTimes ++ [(q.nextIterator, enqueueTime)]
    nextIterator := q.nextIterator + 1 }

/-- The time that a packet has been in the queue while it was not paused. -/
def timeInSendQueue (q : TimedPacketQueue Content) (p : QueuedPacket Content) : ℤ :=
  q.lastUpdateTime - p.content.enqueueTime - q.pauseTimeSum

/-- `DequeuePacketInternal`. -/
def dequeuePacketInternal (q : TimedPacketQueue Content) (p : QueuedPacket Content) :
    TimedPacketQueue Content :=
  { q with
    sizePackets := q.sizePackets - 1
    sizePacketsPerMediaType := Function.update q.sizePacketsPerMediaType p.packetType
      (q.sizePacketsPerMediaType p.packetType - 1)
    sizePayload := q.sizePayload - p.packetSize
    queueTimeSum := q.queueTimeSum - q.timeInSendQueue p
    enqueueTimes := q.enqueueTimes.filter fun node => decide (node.1 ≠ p.node) }

/-- `Pop`: the packet, the time in the send queue that is set on it, and the queue that is left. -/
def pop (q : TimedPacketQueue Content) :
    Option (QueuedPacket Content × ℤ × TimedPacketQueue Content) :=
  if q.sizePackets = 0 then none
  else
    q.lanes.pop.map fun (p, lanes) =>
      (p, q.timeInSendQueue p, { q.dequeuePacketInternal p with lanes })

/-- The packets of a stream, as `DequeueAll` takes them. -/
def dequeueAll (q : TimedPacketQueue Content) (ssrc : BitVec 32) : List (QueuedPacket Content) :=
  (List.finRange 5).flatMap fun level => q.lanes.lane ssrc level

/-- `RemovePacketsForSsrc`. -/
def removePacketsForSsrc (q : TimedPacketQueue Content) (ssrc : BitVec 32) :
    TimedPacketQueue Content :=
  { (q.dequeueAll ssrc).foldl dequeuePacketInternal q with
    lanes := q.lanes.removePacketsForSsrc ssrc }

/-- `Empty`. -/
def empty (q : TimedPacketQueue Content) : Bool :=
  decide (q.sizePackets = 0)

/-- `AverageQueueTime`. -/
def averageQueueTime (q : TimedPacketQueue Content) : ℤ :=
  if q.sizePackets = 0 then 0 else q.queueTimeSum.tdiv q.sizePackets

/-- `OldestEnqueueTime`, unless it is minus infinity. -/
def oldestEnqueueTime (q : TimedPacketQueue Content) : Option ℤ :=
  q.enqueueTimes.head?.map fun node => node.2

/-- The enqueue time of the packet of a level that is next, unless it has none. -/
def leadingEnqueueTime (q : TimedPacketQueue Content) (level : Fin 5) : Option ℤ :=
  match q.lanes.streamsByPrio level with
  | [] => none
  | ssrc :: _ => (q.lanes.lane ssrc level).head?.map fun p => p.content.enqueueTime

/-- `LeadingPacketEnqueueTime`, unless it is minus infinity. -/
def leadingPacketEnqueueTime (q : TimedPacketQueue Content) (type : RtpPacketMediaType) :
    Option ℤ :=
  q.leadingEnqueueTime (getPriorityForType type none)

/-- `LeadingPacketEnqueueTimeForRetransmission`, unless it is plus infinity. -/
def leadingPacketEnqueueTimeForRetransmission (q : TimedPacketQueue Content) : Option ℤ :=
  q.leadingEnqueueTime (getPriorityForType .retransmission none)

end TimedPacketQueue

/-! ## Runs -/

/-- A call of the queue. -/
inductive QueueCall (Content : Type*) where
  | push (enqueueTime : ℤ) (p : PacedPacket (PacketBody Content))
  | pop
  | updateAverageQueueTime (now : ℤ)
  | setPauseState (paused : Bool) (now : ℤ)
  | removePacketsForSsrc (ssrc : BitVec 32)

/-- A packet in the queue, the time at which it was enqueued, and what the stopwatch showed then. -/
structure QueueEntry (Content : Type*) where
  packet : QueuedPacket Content
  enqueued : ℤ
  joined : ℤ

/-- A queue, the packets that are in it in the order in which they were pushed, and a stopwatch that
runs while the queue is not paused. -/
structure QueueHistory (Content : Type*) where
  queue : TimedPacketQueue Content
  watch : Stopwatch
  entries : List (QueueEntry Content) := []

namespace QueueHistory

variable {Content : Type*}

/-- A new queue. -/
def start (creationTime : ℤ) : QueueHistory Content where
  queue := { lastUpdateTime := creationTime }
  watch := { time := creationTime }

/-- The queue after a call, with what the call means for the packets and the stopwatch. -/
def step (h : QueueHistory Content) : QueueCall Content → QueueHistory Content
  | .push enqueueTime p =>
      let watch := h.watch.read enqueueTime
      { queue := h.queue.push enqueueTime p
        watch
        entries := h.entries ++
          [⟨h.queue.queuedPacket enqueueTime p, enqueueTime, watch.total⟩] }
  | .pop =>
      match h.queue.pop with
      | none => h
      | some (p, _, queue) =>
          { h with
            queue
            entries := h.entries.filter fun e => decide (e.packet.node ≠ p.node) }
  | .updateAverageQueueTime now =>
      { h with
        queue := h.queue.updateAverageQueueTime now
        watch := h.watch.read now }
  | .setPauseState paused now =>
      { h with
        queue := h.queue.setPauseState paused now
        watch := h.watch.switch (!paused) now }
  | .removePacketsForSsrc ssrc =>
      { h with
        queue := h.queue.removePacketsForSsrc ssrc
        entries := h.entries.filter fun e => decide (e.packet.ssrc ≠ ssrc) }

end QueueHistory

/-! ## The counters -/

/-- The counters of a queue are about these packets. -/
structure Counted {Content : Type*} (creationTime : ℤ) (q : TimedPacketQueue Content)
    (w : Stopwatch) (entries : List (QueueEntry Content)) : Prop where
  distinct : (entries.map fun e => e.packet.node).Nodup
  fresh : ∀ e ∈ entries, e.packet.node < q.nextIterator
  time : w.time = q.lastUpdateTime
  running : w.running = !q.paused
  total : q.lastUpdateTime - q.pauseTimeSum = creationTime + w.total
  joined : ∀ e ∈ entries, e.packet.content.enqueueTime = creationTime + e.joined
  size : q.sizePackets = entries.length
  sizes : ∀ type, q.sizePacketsPerMediaType type =
    (entries.filter fun e => decide (e.packet.packetType = type)).length
  payload : q.sizePayload = (entries.map fun e => e.packet.packetSize).sum
  times : q.queueTimeSum = (w.ages (fun e => e.joined) entries).sum
  enqueued : q.enqueueTimes = entries.map fun e => (e.packet.node, e.enqueued)

namespace Counted

variable {Content : Type*} {creationTime : ℤ} {q : TimedPacketQueue Content} {w : Stopwatch}
  {entries : List (QueueEntry Content)}

/-- What `UpdateAverageQueueTime` does, whether the time has changed or not. -/
theorem update_eq (q : TimedPacketQueue Content) (now : ℤ) :
    q.updateAverageQueueTime now =
      { q with
        pauseTimeSum :=
          if q.paused then q.pauseTimeSum + (now - q.lastUpdateTime) else q.pauseTimeSum
        queueTimeSum :=
          if q.paused then q.queueTimeSum
          else q.queueTimeSum + (now - q.lastUpdateTime) * q.sizePackets
        lastUpdateTime := now } := by
  unfold TimedPacketQueue.updateAverageQueueTime
  by_cases hnow : now = q.lastUpdateTime
  · rw [if_pos hnow, hnow]
    simp
  · rw [if_neg hnow]
    cases q.paused <;> simp

/-- The counters follow the time. -/
theorem update (h : Counted creationTime q w entries) (now : ℤ) :
    Counted creationTime (q.updateAverageQueueTime now) (w.read now) entries := by
  have htotal := h.total
  rw [update_eq]
  refine ⟨h.distinct, h.fresh, rfl, h.running, ?_, h.joined, h.size, h.sizes, h.payload, ?_,
    h.enqueued⟩
  · show now - (if q.paused then _ else _) = creationTime + (if w.running then _ else _)
    rw [h.running, h.time]
    cases q.paused
    · simp only [Bool.not_false, Bool.false_eq_true, if_false, if_true]
      omega
    · simp only [Bool.not_true, Bool.false_eq_true, if_false, if_true]
      omega
  · rw [Stopwatch.sum_ages_read, ← h.times, h.running, h.time]
    show (if q.paused then _ else _) = _
    rw [h.size]
    cases q.paused <;> simp

/-- The counters of a queue that is paused or resumed. -/
theorem setPauseState (h : Counted creationTime q w entries) (paused : Bool) (now : ℤ) :
    Counted creationTime (q.setPauseState paused now) (w.switch (!paused) now) entries := by
  have hupdated := h.update now
  exact ⟨hupdated.distinct, hupdated.fresh, hupdated.time, rfl, hupdated.total, hupdated.joined,
    hupdated.size, hupdated.sizes, hupdated.payload, hupdated.times, hupdated.enqueued⟩

/-- A pushed packet is counted. -/
theorem push (h : Counted creationTime q w entries) (enqueueTime : ℤ)
    (p : PacedPacket (PacketBody Content)) :
    Counted creationTime (q.push enqueueTime p) (w.read enqueueTime)
      (entries ++ [⟨q.queuedPacket enqueueTime p, enqueueTime, (w.read enqueueTime).total⟩]) := by
  have hupdated := h.update enqueueTime
  have hiterator : (q.updateAverageQueueTime enqueueTime).nextIterator = q.nextIterator := by
    rw [update_eq]
  have htime : (q.updateAverageQueueTime enqueueTime).lastUpdateTime = enqueueTime := by
    rw [update_eq]
  have htotal := hupdated.total
  rw [htime] at htotal
  refine ⟨?_, ?_, hupdated.time, hupdated.running, hupdated.total, ?_, ?_, ?_, ?_, ?_, ?_⟩
  · rw [List.map_append, List.map_singleton]
    refine List.Nodup.append h.distinct (List.nodup_singleton _) ?_
    refine List.disjoint_singleton.mpr fun hin => ?_
    obtain ⟨e, he, hnode⟩ := List.mem_map.mp hin
    exact absurd (h.fresh e he) (by rw [hnode]; exact lt_irrefl _)
  · intro e he
    show e.packet.node < (q.updateAverageQueueTime enqueueTime).nextIterator + 1
    rw [hiterator]
    rcases List.mem_append.mp he with he | he
    · exact Nat.lt_succ_of_lt (h.fresh e he)
    · rw [List.mem_singleton.mp he]
      exact Nat.lt_succ_self _
  · intro e he
    rcases List.mem_append.mp he with he | he
    · exact h.joined e he
    · rw [List.mem_singleton.mp he]
      exact htotal
  · show (q.updateAverageQueueTime enqueueTime).sizePackets + 1 = _
    rw [hupdated.size, List.length_append, List.length_singleton]
    push_cast
    rfl
  · intro type
    rw [List.filter_append, List.length_append, List.filter_singleton]
    have hsizes := hupdated.sizes
    show Function.update _ p.packetType _ type = _
    by_cases htype : type = p.packetType
    · subst htype
      rw [Function.update_self, hsizes]
      have hown : (q.queuedPacket enqueueTime p).packetType = p.packetType := rfl
      simp [hown]
    · rw [Function.update_of_ne htype, hsizes]
      have hother : ¬ (q.queuedPacket enqueueTime p).packetType = type := fun heq => htype heq.symm
      simp [hother]
  · show (q.updateAverageQueueTime enqueueTime).sizePayload + _ = _
    rw [hupdated.payload, List.map_append, List.sum_append, List.map_singleton,
      List.sum_singleton]
  · -- The packet joins with age zero.
    show (q.updateAverageQueueTime enqueueTime).queueTimeSum = _
    rw [hupdated.times, Stopwatch.ages, Stopwatch.ages, List.map_append, List.sum_append,
      List.map_singleton, List.sum_singleton, sub_self, add_zero]
  · show (q.updateAverageQueueTime enqueueTime).enqueueTimes ++
      [((q.updateAverageQueueTime enqueueTime).nextIterator, enqueueTime)] = _
    rw [hupdated.enqueued, hiterator, List.map_append, List.map_singleton]
    rfl

/-- The entry of a node is unique. -/
theorem entry_unique (h : Counted creationTime q w entries) {e other : QueueEntry Content}
    (he : e ∈ entries) (hother : other ∈ entries) (hnode : e.packet.node = other.packet.node) :
    e = other :=
  List.inj_on_of_nodup_map h.distinct he hother hnode

/-- The time in the send queue is the age of the packet. -/
theorem time_eq_age (h : Counted creationTime q w entries) {e : QueueEntry Content}
    (he : e ∈ entries) : q.timeInSendQueue e.packet = w.total - e.joined := by
  have htotal := h.total
  unfold TimedPacketQueue.timeInSendQueue
  rw [h.joined e he]
  omega

/-- A packet that is dequeued is not counted any more. -/
theorem dequeue (h : Counted creationTime q w entries) {e : QueueEntry Content}
    (he : e ∈ entries) :
    Counted creationTime (q.dequeuePacketInternal e.packet) w
      (entries.filter fun other => decide (other.packet.node ≠ e.packet.node)) := by
  have hsum := fun f => sum_filter_ne (fun other : QueueEntry Content => other.packet.node) f
    h.distinct he
  have hlength : ∀ p : QueueEntry Content → Bool,
      (((entries.filter fun other => decide (other.packet.node ≠ e.packet.node)).filter p).length :
        ℤ) = (entries.filter p).length - if p e then 1 else 0 := by
    intro p
    have hcount : ∀ items : List (QueueEntry Content),
        ((items.filter p).length : ℤ) = (items.map fun e => if p e then (1 : ℤ) else 0).sum := by
      intro items
      induction items with
      | nil => rfl
      | cons item rest ih =>
          rw [List.map_cons, List.sum_cons, ← ih, List.filter_cons]
          split_ifs
          · rw [List.length_cons]
            push_cast
            ring
          · ring
    rw [hcount, hcount, hsum]
  refine ⟨?_, fun other hother => h.fresh other (List.mem_of_mem_filter hother), h.time, h.running,
    h.total, fun other hother => h.joined other (List.mem_of_mem_filter hother), ?_, ?_, ?_, ?_, ?_⟩
  · exact h.distinct.sublist (List.filter_sublist.map _)
  · have hall := hlength fun _ => true
    simp only [List.filter_true, if_true] at hall
    rw [hall, ← h.size]
    rfl
  · intro type
    rw [hlength, ← h.sizes]
    show Function.update _ e.packet.packetType _ type = _
    by_cases htype : type = e.packet.packetType
    · subst htype
      simp
    · have hother : ¬ e.packet.packetType = type := fun heq => htype heq.symm
      rw [Function.update_of_ne htype]
      simp [hother]
  · rw [hsum, ← h.payload]
    rfl
  · rw [Stopwatch.ages, hsum, ← h.time_eq_age he]
    show q.queueTimeSum - _ = _
    rw [h.times]
    rfl
  · show q.enqueueTimes.filter _ = _
    rw [h.enqueued, List.filter_map]
    rfl

/-- Packets that are dequeued one after the other are not counted any more. -/
theorem dequeue_all {packets : List (QueuedPacket Content)}
    (h : Counted creationTime q w entries) (hnodup : (packets.map QueuedPacket.node).Nodup)
    (hin : ∀ p ∈ packets, ∃ e ∈ entries, e.packet = p) :
    Counted creationTime (packets.foldl TimedPacketQueue.dequeuePacketInternal q) w
      (entries.filter fun e => decide (e.packet.node ∉ packets.map QueuedPacket.node)) := by
  induction packets generalizing q entries with
  | nil =>
      rw [List.filter_eq_self.mpr fun e _ => by simp]
      exact h
  | cons p rest ih =>
      obtain ⟨hfresh, hrest⟩ := List.nodup_cons.mp (List.map_cons ▸ hnodup)
      obtain ⟨e, he, rfl⟩ := hin p List.mem_cons_self
      have hleft := ih (h.dequeue he) hrest (by
        intro p hp
        obtain ⟨other, hother, rfl⟩ := hin p (List.mem_cons_of_mem _ hp)
        refine ⟨other, List.mem_filter.mpr ⟨hother, decide_eq_true fun hnode => ?_⟩, rfl⟩
        exact hfresh (hnode ▸ List.mem_map_of_mem hp))
      rw [List.filter_filter] at hleft
      have hsame : (entries.filter fun other =>
            decide (other.packet.node ∉ (e.packet :: rest).map QueuedPacket.node)) =
          entries.filter fun other =>
            decide (other.packet.node ∉ rest.map QueuedPacket.node) &&
              decide (other.packet.node ≠ e.packet.node) := by
        refine List.filter_congr fun other _ => ?_
        rw [List.map_cons, ← Bool.decide_and]
        refine decide_eq_decide.mpr ?_
        rw [List.mem_cons, not_or]
        exact and_comm
      rw [hsame]
      exact hleft

end Counted

/-! ## The queue -/

/-- The counters of the queue are about the packets in its lanes. -/
structure Accounted {Content : Type*} (creationTime : ℤ) (h : QueueHistory Content) : Prop where
  filed : h.queue.lanes.Filed
  distinct : ∀ ssrc level, ((h.queue.lanes.lane ssrc level).map QueuedPacket.node).Nodup
  queued : ∀ p, (∃ e ∈ h.entries, e.packet = p) ↔ ∃ ssrc level, p ∈ h.queue.lanes.lane ssrc level
  counted : Counted creationTime h.queue h.watch h.entries

namespace QueueHistory

variable {Content : Type*} {creationTime : ℤ} {h : QueueHistory Content}

/-- The time and the pause leave the lanes alone. -/
theorem lanes_update (q : TimedPacketQueue Content) (now : ℤ) :
    (q.updateAverageQueueTime now).lanes = q.lanes := by
  rw [Counted.update_eq]

/-- A new queue is accounted for. -/
theorem accounted_start (creationTime : ℤ) :
    Accounted creationTime (start creationTime : QueueHistory Content) where
  filed := PrioritizedPacketQueue.filed_new
  distinct := fun _ _ => List.nodup_nil
  queued := fun p => by
    constructor
    · rintro ⟨e, he, -⟩
      cases he
    · rintro ⟨ssrc, level, hp⟩
      cases hp
  counted :=
    { distinct := List.nodup_nil
      fresh := fun _ he => by cases he
      time := rfl
      running := rfl
      total := rfl
      joined := fun _ he => by cases he
      size := rfl
      sizes := fun _ => rfl
      payload := rfl
      times := rfl
      enqueued := rfl }

/-- Two queued packets with the same node are the same. -/
theorem packet_unique (ha : Accounted creationTime h) {p other : QueuedPacket Content}
    {ssrc ssrc' : BitVec 32} {level level' : Fin 5} (hp : p ∈ h.queue.lanes.lane ssrc level)
    (hother : other ∈ h.queue.lanes.lane ssrc' level') (hnode : p.node = other.node) :
    p = other := by
  obtain ⟨e, he, rfl⟩ := (ha.queued p).mpr ⟨ssrc, level, hp⟩
  obtain ⟨e', he', rfl⟩ := (ha.queued other).mpr ⟨ssrc', level', hother⟩
  rw [ha.counted.entry_unique he he' hnode]

/-- Pushing a packet keeps the account. -/
theorem accounted_push (ha : Accounted creationTime h) (enqueueTime : ℤ)
    (p : PacedPacket (PacketBody Content)) :
    Accounted creationTime (h.step (.push enqueueTime p)) := by
  have hlane : ∀ ssrc level, (h.step (.push enqueueTime p)).queue.lanes.lane ssrc level =
      if ssrc = p.ssrc ∧ level = p.priorityLevel then
        h.queue.lanes.lane ssrc level ++ [h.queue.queuedPacket enqueueTime p]
      else h.queue.lanes.lane ssrc level := by
    intro ssrc level
    show ((h.queue.updateAverageQueueTime enqueueTime).lanes.push _).lane ssrc level = _
    rw [PrioritizedPacketQueue.lane_push, lanes_update]
    rfl
  refine ⟨?_, ?_, ?_, ha.counted.push enqueueTime p⟩
  · show ((h.queue.updateAverageQueueTime enqueueTime).lanes.push _).Filed
    rw [lanes_update]
    exact PrioritizedPacketQueue.filed_push ha.filed _
  · intro ssrc level
    rw [hlane]
    split_ifs
    · rw [List.map_append, List.map_singleton]
      refine List.Nodup.append (ha.distinct ssrc level) (List.nodup_singleton _) ?_
      refine List.disjoint_singleton.mpr fun hin => ?_
      obtain ⟨q, hq, hnode⟩ := List.mem_map.mp hin
      obtain ⟨e, he, rfl⟩ := (ha.queued q).mpr ⟨ssrc, level, hq⟩
      exact absurd (ha.counted.fresh e he) (by rw [hnode]; exact lt_irrefl _)
    · exact ha.distinct ssrc level
  · intro q
    constructor
    · rintro ⟨e, he, rfl⟩
      rcases List.mem_append.mp he with he | he
      · obtain ⟨ssrc, level, hq⟩ := (ha.queued e.packet).mp ⟨e, he, rfl⟩
        refine ⟨ssrc, level, ?_⟩
        rw [hlane]
        split_ifs
        · exact List.mem_append_left _ hq
        · exact hq
      · refine ⟨p.ssrc, p.priorityLevel, ?_⟩
        rw [hlane, if_pos ⟨rfl, rfl⟩, List.mem_singleton.mp he]
        exact List.mem_append_right _ List.mem_cons_self
    · rintro ⟨ssrc, level, hq⟩
      have hold : q ∈ h.queue.lanes.lane ssrc level →
          ∃ e ∈ (h.step (.push enqueueTime p)).entries, e.packet = q := by
        intro hq
        obtain ⟨e, he, hpacket⟩ := (ha.queued q).mpr ⟨ssrc, level, hq⟩
        exact ⟨e, List.mem_append_left _ he, hpacket⟩
      rw [hlane] at hq
      split_ifs at hq
      · rcases List.mem_append.mp hq with hq | hq
        · exact hold hq
        · refine ⟨_, List.mem_append_right _ List.mem_cons_self, ?_⟩
          exact (List.mem_singleton.mp hq).symm
      · exact hold hq

/-- What `Pop` takes is the first packet of its lane, with its age. -/
theorem pop_spec (ha : Accounted creationTime h) {p : QueuedPacket Content} {time : ℤ}
    {q : TimedPacketQueue Content} (hpop : h.queue.pop = some (p, time, q)) :
    PrioritizedPacketQueue.Popped h.queue.lanes p q.lanes ∧
      time = h.queue.timeInSendQueue p ∧
      ∃ lanes, q = { h.queue.dequeuePacketInternal p with lanes } := by
  unfold TimedPacketQueue.pop at hpop
  split_ifs at hpop
  obtain ⟨⟨front, lanes⟩, hlanes, heq⟩ := Option.map_eq_some_iff.mp hpop
  obtain ⟨rfl, htimes⟩ := Prod.mk.inj heq
  obtain ⟨rfl, rfl⟩ := Prod.mk.inj htimes
  exact ⟨PrioritizedPacketQueue.popped_of_pop ha.filed hlanes, rfl, lanes, rfl⟩

/-- `Pop` takes nothing exactly when there is nothing. -/
theorem pop_none (ha : Accounted creationTime h) : h.queue.pop = none ↔ h.entries = [] := by
  unfold TimedPacketQueue.pop
  rw [ha.counted.size]
  constructor
  · intro hnone
    split_ifs at hnone with hsize
    · exact List.length_eq_zero_iff.mp (by exact_mod_cast hsize)
    · have hlanes := (PrioritizedPacketQueue.pop_none_iff ha.filed).mp
        (Option.map_eq_none_iff.mp hnone)
      refine List.eq_nil_iff_forall_not_mem.mpr fun e he => ?_
      obtain ⟨ssrc, level, hp⟩ := (ha.queued e.packet).mp ⟨e, he, rfl⟩
      rw [hlanes] at hp
      cases hp
  · intro hnil
    rw [hnil]
    rfl

/-- Taking the next packet keeps the account. -/
theorem accounted_pop (ha : Accounted creationTime h) : Accounted creationTime (h.step .pop) := by
  unfold step
  simp only
  split
  · exact ha
  · rename_i p time q hpop
    obtain ⟨hpopped, -, lanes, rfl⟩ := pop_spec ha hpop
    have hfront : p ∈ h.queue.lanes.lane p.ssrc p.priorityLevel := by
      rw [hpopped.front]
      exact List.mem_cons_self
    have hnodup := ha.distinct p.ssrc p.priorityLevel
    rw [hpopped.front, List.map_cons] at hnodup
    obtain ⟨hfresh, hrest⟩ := List.nodup_cons.mp hnodup
    -- A lane has lost the packet, if it was there, and nothing else.
    have hlane : ∀ ssrc level x, x ∈ lanes.lane ssrc level ↔
        x ∈ h.queue.lanes.lane ssrc level ∧ QueuedPacket.node x ≠ p.node := by
      intro ssrc level x
      by_cases hown : ssrc = p.ssrc ∧ level = p.priorityLevel
      · obtain ⟨rfl, rfl⟩ := hown
        rw [hpopped.front, List.mem_cons]
        constructor
        · intro hx
          exact ⟨Or.inr hx, fun hnode => hfresh (hnode ▸ List.mem_map_of_mem hx)⟩
        · rintro ⟨rfl | hx, hne⟩
          · exact absurd rfl hne
          · exact hx
      · rw [hpopped.others ssrc level hown]
        refine ⟨fun hx => ⟨hx, fun hnode => hown ?_⟩, fun hx => hx.1⟩
        obtain rfl := packet_unique ha hx hfront hnode
        obtain ⟨hssrc, hlevel⟩ := ha.filed.filed ssrc level x hx
        exact ⟨hssrc.symm, hlevel.symm⟩
    obtain ⟨e, he, hpacket⟩ := (ha.queued p).mpr ⟨_, _, hfront⟩
    have hcounted := ha.counted.dequeue he
    rw [hpacket] at hcounted
    refine ⟨hpopped.filed, ?_, ?_, ⟨hcounted.distinct, hcounted.fresh, hcounted.time,
      hcounted.running, hcounted.total, hcounted.joined, hcounted.size, hcounted.sizes,
      hcounted.payload, hcounted.times, hcounted.enqueued⟩⟩
    · intro ssrc level
      by_cases hown : ssrc = p.ssrc ∧ level = p.priorityLevel
      · obtain ⟨rfl, rfl⟩ := hown
        exact hrest
      · show ((lanes.lane ssrc level).map QueuedPacket.node).Nodup
        rw [hpopped.others ssrc level hown]
        exact ha.distinct ssrc level
    · intro x
      simp only [hlane, List.mem_filter, decide_eq_true_eq]
      constructor
      · rintro ⟨other, ⟨hother, hne⟩, rfl⟩
        obtain ⟨ssrc, level, hx⟩ := (ha.queued other.packet).mp ⟨other, hother, rfl⟩
        exact ⟨ssrc, level, hx, hne⟩
      · rintro ⟨ssrc, level, hx, hne⟩
        obtain ⟨other, hother, rfl⟩ := (ha.queued x).mpr ⟨ssrc, level, hx⟩
        exact ⟨other, ⟨hother, hne⟩, rfl⟩

/-- The packets of a stream. -/
theorem mem_dequeue_all {p : QueuedPacket Content} {ssrc : BitVec 32} :
    p ∈ h.queue.dequeueAll ssrc ↔ ∃ level, p ∈ h.queue.lanes.lane ssrc level := by
  unfold TimedPacketQueue.dequeueAll
  simp [List.mem_flatMap, List.mem_finRange]

/-- No packet of a stream is dequeued twice. -/
theorem nodup_dequeue_all (ha : Accounted creationTime h) (ssrc : BitVec 32) :
    ((h.queue.dequeueAll ssrc).map QueuedPacket.node).Nodup := by
  unfold TimedPacketQueue.dequeueAll
  rw [List.map_flatMap, List.nodup_flatMap]
  refine ⟨fun level _ => ha.distinct ssrc level, ?_⟩
  refine (List.nodup_finRange 5).pairwise_of_forall_ne fun level _ other _ hne => ?_
  intro node hlevel hother
  obtain ⟨p, hp, rfl⟩ := List.mem_map.mp hlevel
  obtain ⟨q, hq, hnode⟩ := List.mem_map.mp hother
  obtain rfl := packet_unique ha hq hp hnode
  exact hne ((ha.filed.filed ssrc level q hp).2.symm.trans (ha.filed.filed ssrc other q hq).2)

/-- Removing a stream keeps the account. -/
theorem accounted_remove (ha : Accounted creationTime h) (ssrc : BitVec 32) :
    Accounted creationTime (h.step (.removePacketsForSsrc ssrc)) := by
  have hcounted := ha.counted.dequeue_all (nodup_dequeue_all ha ssrc) (by
    intro p hp
    obtain ⟨level, hp⟩ := mem_dequeue_all.mp hp
    exact (ha.queued p).mpr ⟨ssrc, level, hp⟩)
  -- The packets of the stream are those that are dequeued.
  have hsame : (h.entries.filter fun e =>
        decide (e.packet.node ∉ (h.queue.dequeueAll ssrc).map QueuedPacket.node)) =
      h.entries.filter fun e => decide (e.packet.ssrc ≠ ssrc) := by
    refine List.filter_congr fun e he => decide_eq_decide.mpr (not_congr ?_)
    obtain ⟨own, level, hp⟩ := (ha.queued e.packet).mp ⟨e, he, rfl⟩
    constructor
    · intro hin
      obtain ⟨q, hq, hnode⟩ := List.mem_map.mp hin
      obtain ⟨level', hq⟩ := mem_dequeue_all.mp hq
      rw [← packet_unique ha hq hp hnode]
      exact (ha.filed.filed ssrc level' q hq).1
    · intro hssrc
      have hown := (ha.filed.filed own level e.packet hp).1
      refine List.mem_map_of_mem (mem_dequeue_all.mpr ⟨level, ?_⟩)
      rw [← hssrc, hown]
      exact hp
  rw [hsame] at hcounted
  have hlane : ∀ other level, (h.step (.removePacketsForSsrc ssrc)).queue.lanes.lane other level =
      if other = ssrc then [] else h.queue.lanes.lane other level :=
    PrioritizedPacketQueue.lane_remove h.queue.lanes ssrc
  refine ⟨PrioritizedPacketQueue.filed_remove ha.filed ssrc, ?_, ?_, ⟨hcounted.distinct,
    hcounted.fresh, hcounted.time, hcounted.running, hcounted.total, hcounted.joined,
    hcounted.size, hcounted.sizes, hcounted.payload, hcounted.times, hcounted.enqueued⟩⟩
  · intro other level
    rw [hlane]
    split_ifs
    · exact List.nodup_nil
    · exact ha.distinct other level
  · intro p
    constructor
    · rintro ⟨e, he, rfl⟩
      obtain ⟨he, hne⟩ := List.mem_filter.mp he
      obtain ⟨own, level, hp⟩ := (ha.queued e.packet).mp ⟨e, he, rfl⟩
      refine ⟨own, level, ?_⟩
      rw [hlane, if_neg]
      · exact hp
      · rintro rfl
        exact of_decide_eq_true hne (ha.filed.filed own level e.packet hp).1
    · rintro ⟨own, level, hp⟩
      rw [hlane] at hp
      split_ifs at hp with hown
      · cases hp
      · obtain ⟨e, he, rfl⟩ := (ha.queued p).mpr ⟨own, level, hp⟩
        refine ⟨e, List.mem_filter.mpr ⟨he, decide_eq_true ?_⟩, rfl⟩
        rw [(ha.filed.filed own level e.packet hp).1]
        exact hown

/-- Every call keeps the account. -/
theorem accounted_step (ha : Accounted creationTime h) (call : QueueCall Content) :
    Accounted creationTime (h.step call) := by
  cases call with
  | push enqueueTime p => exact accounted_push ha enqueueTime p
  | pop => exact accounted_pop ha
  | updateAverageQueueTime now =>
      have hlanes := lanes_update h.queue now
      exact ⟨hlanes ▸ ha.filed, fun ssrc level => hlanes ▸ ha.distinct ssrc level,
        fun p => hlanes ▸ ha.queued p, ha.counted.update now⟩
  | setPauseState paused now =>
      have hlanes := lanes_update h.queue now
      exact ⟨hlanes ▸ ha.filed, fun ssrc level => hlanes ▸ ha.distinct ssrc level,
        fun p => hlanes ▸ ha.queued p, ha.counted.setPauseState paused now⟩
  | removePacketsForSsrc ssrc => exact accounted_remove ha ssrc

/-- A run from a new queue. -/
def run (creationTime : ℤ) (calls : List (QueueCall Content)) : QueueHistory Content :=
  calls.foldl step (start creationTime)

/-- A queue is accounted for after every run. -/
theorem accounted_run (creationTime : ℤ) (calls : List (QueueCall Content)) :
    Accounted creationTime (run creationTime calls) :=
  List.foldlRecOn calls step (motive := Accounted creationTime) (accounted_start creationTime)
    fun _ ha call _ => accounted_step ha call

/-- After every run the counters of the queue are the numbers, sizes and ages of the packets that
were pushed and have not left, and the next packet leaves with its age. -/
theorem queue_accounted (creationTime : ℤ) (calls : List (QueueCall Content)) :
    let h := run creationTime calls
    let ages := h.watch.ages (fun e => e.joined) h.entries
    (∀ p, (∃ e ∈ h.entries, e.packet = p) ↔ ∃ ssrc level, p ∈ h.queue.lanes.lane ssrc level) ∧
      h.queue.sizePackets = h.entries.length ∧
      (∀ type, h.queue.sizePacketsPerMediaType type =
        (h.entries.filter fun e => decide (e.packet.packetType = type)).length) ∧
      h.queue.sizePayload = (h.entries.map fun e => e.packet.packetSize).sum ∧
      h.queue.oldestEnqueueTime = h.entries.head?.map (fun e => e.enqueued) ∧
      h.queue.averageQueueTime = ages.sum.tdiv h.entries.length ∧
      (h.queue.pop = none ↔ h.entries = []) ∧
      ∀ p time q, h.queue.pop = some (p, time, q) →
        ∃ e ∈ h.entries, e.packet = p ∧ time = h.watch.total - e.joined := by
  have ha := accounted_run creationTime calls
  refine ⟨ha.queued, ha.counted.size, ha.counted.sizes, ha.counted.payload, ?_, ?_, pop_none ha,
    ?_⟩
  · unfold TimedPacketQueue.oldestEnqueueTime
    rw [ha.counted.enqueued, List.head?_map, Option.map_map]
    rfl
  · unfold TimedPacketQueue.averageQueueTime
    rw [ha.counted.times, ha.counted.size]
    split_ifs with hempty
    · rw [hempty, Int.tdiv_zero]
    · rfl
  · intro p time q hpop
    obtain ⟨hpopped, htime, -⟩ := pop_spec ha hpop
    have hfront : p ∈ (run creationTime calls).queue.lanes.lane p.ssrc p.priorityLevel := by
      rw [hpopped.front]
      exact List.mem_cons_self
    obtain ⟨e, he, rfl⟩ := (ha.queued p).mpr ⟨_, _, hfront⟩
    exact ⟨e, he, rfl, htime.trans (ha.counted.time_eq_age he)⟩

end QueueHistory

end MiniRtc

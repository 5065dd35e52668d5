import MiniRtc.Rtp.PacketToSend
import Mathlib.Data.Fin.Tuple.Basic

/-!
# The packet queue of the pacer

`PrioritizedPacketQueue` of `prioritized_packet_queue.cc`. Every stream has one FIFO queue for each
priority level, and the streams that have packets at a level take turns.

The pacer is configured without times to live, so nothing is dropped because of its age, and without
priorities for audio retransmissions. The counters of the packets and of their times in the queue
are left out: the number of packets is zero when no level has a stream. An empty stream that is
culled is the same as one that was never there.
-/

namespace MiniRtc

/-- The fields of an `RtpPacketToSend` that the pacer looks at. The rest of the packet is `content`. -/
structure PacedPacket (Content : Type*) where
  ssrc : BitVec 32
  packetType : RtpPacketMediaType
  isKeyFrame : Bool := false
  isFirstPacketOfFrame : Bool := false
  transportSequenceNumber : Option ℤ := none
  sequenceNumber : BitVec 16 := 0
  size : Nat := 0
  content : Content

/-- There is a level. -/
instance neZeroLevels : NeZero 5 :=
  ⟨by decide⟩

/-- `GetPriorityForType`. A lower number takes priority over a higher one. -/
def getPriorityForType (type : RtpPacketMediaType) (originalType : Option OriginalType) : Fin 5 :=
  match type with
  | .audio => 0
  | .retransmission => if originalType = some .video then 2 else 1
  | .video => 3
  | .forwardErrorCorrection => 3
  | .padding => 4

/-- The level of a packet when audio retransmissions have no priority. -/
def PacedPacket.priorityLevel {Content : Type*} (p : PacedPacket Content) : Fin 5 :=
  getPriorityForType p.packetType none

/-! ## The queue of a stream -/

/-- `StreamQueue`. -/
structure StreamQueue (Content : Type*) where
  packets : Fin 5 → List (PacedPacket Content) := fun _ => []
  numKeyframePackets : ℤ := 0

namespace StreamQueue

variable {Content : Type*}

/-- `StreamQueue::EnqueuePacket`. -/
def enqueuePacket (s : StreamQueue Content) (p : PacedPacket Content) (priorityLevel : Fin 5) :
    StreamQueue Content where
  packets := Function.update s.packets priorityLevel (s.packets priorityLevel ++ [p])
  numKeyframePackets :=
    if p.isKeyFrame then s.numKeyframePackets + 1 else s.numKeyframePackets

/-- `StreamQueue::DequeuePacket` when the front of the level is known. -/
def dequeuePacket (s : StreamQueue Content) (front : PacedPacket Content) (priorityLevel : Fin 5) :
    StreamQueue Content where
  packets := Function.update s.packets priorityLevel (s.packets priorityLevel).tail
  numKeyframePackets :=
    if front.isKeyFrame then s.numKeyframePackets - 1 else s.numKeyframePackets

/-- A packet is enqueued at the end of its level. -/
theorem packets_enqueue (s : StreamQueue Content) (p : PacedPacket Content)
    (priorityLevel level : Fin 5) :
    (s.enqueuePacket p priorityLevel).packets level =
      if level = priorityLevel then s.packets level ++ [p] else s.packets level := by
  show Function.update s.packets priorityLevel _ level = _
  split_ifs with hlevel
  · rw [hlevel, Function.update_self]
  · rw [Function.update_of_ne hlevel]

/-- A packet is dequeued from the front of its level. -/
theorem packets_dequeue (s : StreamQueue Content) (front : PacedPacket Content)
    (priorityLevel level : Fin 5) :
    (s.dequeuePacket front priorityLevel).packets level =
      if level = priorityLevel then (s.packets level).tail else s.packets level := by
  show Function.update s.packets priorityLevel _ level = _
  split_ifs with hlevel
  · rw [hlevel, Function.update_self]
  · rw [Function.update_of_ne hlevel]

end StreamQueue

/-! ## The queue of all streams -/

/-- `PrioritizedPacketQueue`. -/
structure PrioritizedPacketQueue (Content : Type*) where
  streams : BitVec 32 → StreamQueue Content := fun _ => {}
  streamsByPrio : Fin 5 → List (BitVec 32) := fun _ => []
  topActivePrioLevel : Option (Fin 5) := none

namespace PrioritizedPacketQueue

variable {Content : Type*}

/-- The packets of a stream at a level, the oldest first. -/
def lane (q : PrioritizedPacketQueue Content) (ssrc : BitVec 32) (level : Fin 5) :
    List (PacedPacket Content) :=
  (q.streams ssrc).packets level

/-- `Empty`. -/
def empty (q : PrioritizedPacketQueue Content) : Bool :=
  decide (∀ level, q.streamsByPrio level = [])

/-- `HasKeyframePackets`. -/
def hasKeyframePackets (q : PrioritizedPacketQueue Content) (ssrc : BitVec 32) : Bool :=
  decide ((q.streams ssrc).numKeyframePackets > 0)

/-- `MaybeUpdateTopPrioLevel`. -/
def maybeUpdateTopPrioLevel (q : PrioritizedPacketQueue Content) :
    PrioritizedPacketQueue Content :=
  if q.topActivePrioLevel.any fun level => !(q.streamsByPrio level).isEmpty then q
  else { q with topActivePrioLevel := Fin.find? fun level => !(q.streamsByPrio level).isEmpty }

/-- `Push`. -/
def push (q : PrioritizedPacketQueue Content) (p : PacedPacket Content) :
    PrioritizedPacketQueue Content where
  streams := Function.update q.streams p.ssrc ((q.streams p.ssrc).enqueuePacket p p.priorityLevel)
  streamsByPrio :=
    if q.lane p.ssrc p.priorityLevel = [] then
      Function.update q.streamsByPrio p.priorityLevel
        (q.streamsByPrio p.priorityLevel ++ [p.ssrc])
    else q.streamsByPrio
  topActivePrioLevel :=
    if q.topActivePrioLevel.all fun level => p.priorityLevel < level then some p.priorityLevel
    else q.topActivePrioLevel

/-- `Pop`. -/
def pop (q : PrioritizedPacketQueue Content) :
    Option (PacedPacket Content × PrioritizedPacketQueue Content) :=
  match q.topActivePrioLevel with
  | none => none
  | some level =>
      match q.streamsByPrio level with
      | [] => none
      | ssrc :: others =>
          match q.lane ssrc level with
          | [] => none
          | p :: later =>
              let q :=
                { q with
                  streams :=
                    Function.update q.streams ssrc ((q.streams ssrc).dequeuePacket p level) }
              some (p,
                if later = [] then
                  { q with
                    streamsByPrio :=
                      Function.update q.streamsByPrio level others }.maybeUpdateTopPrioLevel
                else
                  { q with
                    streamsByPrio :=
                      Function.update q.streamsByPrio level (others ++ [ssrc]) })

/-- `RemovePacketsForSsrc`. -/
def removePacketsForSsrc (q : PrioritizedPacketQueue Content) (ssrc : BitVec 32) :
    PrioritizedPacketQueue Content :=
  { q with
    streams := Function.update q.streams ssrc {}
    streamsByPrio := fun level =>
      if q.lane ssrc level = [] then q.streamsByPrio level
      else if (q.streamsByPrio level).length = 1 then (q.streamsByPrio level).tail
      else (q.streamsByPrio level).filter fun other => decide (other ≠ ssrc)
  }.maybeUpdateTopPrioLevel

/-! ## Well-formed queues -/

/-- Every packet is where its SSRC and its type say, a stream takes turns at the levels at which it
has packets, and the top level is the first that has a stream. -/
structure Filed (q : PrioritizedPacketQueue Content) : Prop where
  filed : ∀ ssrc level, ∀ p ∈ q.lane ssrc level, p.ssrc = ssrc ∧ p.priorityLevel = level
  listed : ∀ ssrc level, ssrc ∈ q.streamsByPrio level ↔ q.lane ssrc level ≠ []
  nodup : ∀ level, (q.streamsByPrio level).Nodup
  active : ∀ level, q.topActivePrioLevel = some level → q.streamsByPrio level ≠ []
  first : ∀ level, q.streamsByPrio level ≠ [] → ∃ top, q.topActivePrioLevel = some top ∧ top ≤ level

/-- A new queue is well-formed. -/
theorem filed_new : ({} : PrioritizedPacketQueue Content).Filed where
  filed := fun _ _ _ h => by cases h
  listed := fun _ _ => ⟨fun h => absurd h List.not_mem_nil, fun h => absurd rfl h⟩
  nodup := fun _ => List.nodup_nil
  active := fun _ h => by cases h
  first := fun _ h => absurd rfl h

/-- Updating the top level touches nothing else. -/
theorem maybe_update_streams (q : PrioritizedPacketQueue Content) :
    q.maybeUpdateTopPrioLevel.streams = q.streams ∧
      q.maybeUpdateTopPrioLevel.streamsByPrio = q.streamsByPrio := by
  unfold maybeUpdateTopPrioLevel
  split_ifs
  · exact ⟨rfl, rfl⟩
  · exact ⟨rfl, rfl⟩

/-- After an update the top level is the first that has a stream, when the levels before it had
none. -/
theorem maybe_update_top (q : PrioritizedPacketQueue Content)
    (hfirst : ∀ level, q.streamsByPrio level ≠ [] →
      ∃ top, q.topActivePrioLevel = some top ∧ top ≤ level) :
    (∀ level, q.maybeUpdateTopPrioLevel.topActivePrioLevel = some level →
        q.streamsByPrio level ≠ []) ∧
      ∀ level, q.streamsByPrio level ≠ [] →
        ∃ top, q.maybeUpdateTopPrioLevel.topActivePrioLevel = some top ∧ top ≤ level := by
  unfold maybeUpdateTopPrioLevel
  split_ifs with hactive
  · refine ⟨fun level htop => ?_, hfirst⟩
    rw [htop] at hactive
    simpa using hactive
  · simp only
    refine ⟨fun level htop => ?_, fun level hlevel => ?_⟩
    · have hfound := (Fin.find?_eq_some_iff.mp htop).1
      simpa using hfound
    · have hsome : (Fin.find? fun level => !(q.streamsByPrio level).isEmpty).isSome :=
        Fin.isSome_find?_iff.mpr ⟨level, by simpa using hlevel⟩
      obtain ⟨top, htop⟩ := Option.isSome_iff_exists.mp hsome
      refine ⟨top, htop, ?_⟩
      by_contra hlt
      have hbefore := (Fin.find?_eq_some_iff.mp htop).2 level (not_le.mp hlt)
      exact hlevel (by simpa using hbefore)

/-- A packet is pushed to the end of its lane. -/
theorem lane_push (q : PrioritizedPacketQueue Content) (p : PacedPacket Content) (ssrc : BitVec 32)
    (level : Fin 5) :
    (q.push p).lane ssrc level =
      if ssrc = p.ssrc ∧ level = p.priorityLevel then q.lane ssrc level ++ [p]
      else q.lane ssrc level := by
  unfold lane push
  simp only
  by_cases hssrc : ssrc = p.ssrc
  · subst hssrc
    rw [Function.update_self, StreamQueue.packets_enqueue]
    simp only [true_and]
  · rw [Function.update_of_ne hssrc, if_neg fun h => hssrc h.1]

/-- Pushing a packet keeps the queue well-formed. -/
theorem filed_push {q : PrioritizedPacketQueue Content} (h : q.Filed) (p : PacedPacket Content) :
    (q.push p).Filed := by
  have hprio : ∀ level, (q.push p).streamsByPrio level =
      if level = p.priorityLevel ∧ q.lane p.ssrc p.priorityLevel = [] then
        q.streamsByPrio level ++ [p.ssrc]
      else q.streamsByPrio level := by
    intro level
    unfold push
    simp only
    split_ifs with hempty hboth hboth
    · rw [hboth.1, Function.update_self]
    · rw [Function.update_of_ne fun heq => hboth ⟨heq, hempty⟩]
    · exact absurd hboth.2 hempty
    · rfl
  refine ⟨?_, ?_, ?_, ?_, ?_⟩
  · -- The packet is at the end of its own lane.
    intro ssrc level x hx
    rw [lane_push] at hx
    split_ifs at hx with hlane
    · rcases List.mem_append.mp hx with hold | hnew
      · exact h.filed ssrc level x hold
      · rw [List.mem_singleton.mp hnew]
        exact ⟨hlane.1.symm, hlane.2.symm⟩
    · exact h.filed ssrc level x hx
  · -- Its stream gets a turn when the lane was empty, and has one otherwise.
    intro ssrc level
    rw [hprio, lane_push]
    by_cases hssrc : ssrc = p.ssrc
    · by_cases hlevel : level = p.priorityLevel
      · rw [if_pos (⟨hssrc, hlevel⟩ : ssrc = p.ssrc ∧ level = p.priorityLevel)]
        refine ⟨fun _ => by simp, fun _ => ?_⟩
        split_ifs with hempty
        · exact List.mem_append_right _ (List.mem_singleton.mpr hssrc)
        · rw [hssrc, hlevel, h.listed]
          exact fun hnil => hempty ⟨hlevel, hnil⟩
      · have hother : ¬ (ssrc = p.ssrc ∧ level = p.priorityLevel) := fun hboth => hlevel hboth.2
        rw [if_neg fun hboth => hlevel hboth.1, if_neg hother]
        exact h.listed ssrc level
    · have hother : ¬ (ssrc = p.ssrc ∧ level = p.priorityLevel) := fun hboth => hssrc hboth.1
      rw [if_neg hother, ← h.listed]
      split_ifs
      · simp [hssrc]
      · rfl
  · intro level
    rw [hprio]
    split_ifs with hempty
    · refine List.Nodup.append (h.nodup level) (List.nodup_singleton _) ?_
      refine List.disjoint_singleton.mpr fun hin => ?_
      rw [hempty.1] at hin
      exact (h.listed _ _).mp hin hempty.2
    · exact h.nodup level
  · -- The level of the packet has packets now, whichever level is the first.
    intro level htop
    have hfilled : (q.push p).streamsByPrio p.priorityLevel ≠ [] := by
      rw [hprio]
      split_ifs with hempty
      · simp
      · intro hnil
        have hlane : q.lane p.ssrc p.priorityLevel ≠ [] := fun hnil => hempty ⟨rfl, hnil⟩
        rw [← h.listed, hnil] at hlane
        exact List.not_mem_nil hlane
    by_cases hlevel : level = p.priorityLevel
    · rw [hlevel]
      exact hfilled
    · rw [hprio, if_neg fun hboth => hlevel hboth.1]
      refine h.active level ?_
      unfold push at htop
      simp only at htop
      split_ifs at htop
      · exact absurd (Option.some.inj htop).symm hlevel
      · exact htop
  · intro level hlevel
    rw [hprio] at hlevel
    unfold push
    simp only
    split_ifs with hbelow
    · refine ⟨p.priorityLevel, rfl, ?_⟩
      split_ifs at hlevel with hown
      · exact le_of_eq hown.1.symm
      · obtain ⟨top, htop, hle⟩ := h.first level hlevel
        rw [htop] at hbelow
        exact (le_of_lt (by simpa using hbelow)).trans hle
    · split_ifs at hlevel with hown
      · cases htop : q.topActivePrioLevel with
        | none =>
            rw [htop] at hbelow
            exact absurd rfl hbelow
        | some top =>
            rw [htop] at hbelow
            exact ⟨top, rfl, hown.1 ▸ not_lt.mp (by simpa using hbelow)⟩
      · exact h.first level hlevel

/-- What `Pop` takes, and what it leaves. -/
structure Popped (q : PrioritizedPacketQueue Content) (p : PacedPacket Content)
    (q' : PrioritizedPacketQueue Content) : Prop where
  front : q.lane p.ssrc p.priorityLevel = p :: q'.lane p.ssrc p.priorityLevel
  others : ∀ ssrc level, ¬ (ssrc = p.ssrc ∧ level = p.priorityLevel) →
    q'.lane ssrc level = q.lane ssrc level
  priority : ∀ ssrc level, level < p.priorityLevel → q.lane ssrc level = []
  filed : q'.Filed

/-- The lanes after the front of one of them was dequeued. -/
theorem lane_dequeue {q : PrioritizedPacketQueue Content} {front : PacedPacket Content}
    {later : List (PacedPacket Content)}
    (hlane : q.lane front.ssrc front.priorityLevel = front :: later) (ssrc : BitVec 32)
    (level : Fin 5) :
    ((Function.update q.streams front.ssrc
        ((q.streams front.ssrc).dequeuePacket front front.priorityLevel)) ssrc).packets level =
      if ssrc = front.ssrc ∧ level = front.priorityLevel then later else q.lane ssrc level := by
  by_cases hssrc : ssrc = front.ssrc
  · subst hssrc
    rw [Function.update_self, StreamQueue.packets_dequeue]
    by_cases hlevel : level = front.priorityLevel
    · rw [if_pos hlevel, if_pos ⟨rfl, hlevel⟩, hlevel]
      show (q.lane front.ssrc front.priorityLevel).tail = later
      rw [hlane, List.tail_cons]
    · rw [if_neg hlevel, if_neg fun hboth => hlevel hboth.2]
      rfl
  · rw [Function.update_of_ne hssrc, if_neg fun hboth => hssrc hboth.1]
    rfl

/-- A queue is well-formed when the front of a lane of the first level was taken, and its stream went
to the end of the turns or left them. -/
theorem filed_of_popped {q q' : PrioritizedPacketQueue Content} {front : PacedPacket Content}
    {later : List (PacedPacket Content)} {others : List (BitVec 32)} (h : q.Filed)
    (hturn : q.streamsByPrio front.priorityLevel = front.ssrc :: others)
    (hlane : q.lane front.ssrc front.priorityLevel = front :: later)
    (hlanes : ∀ ssrc level, q'.lane ssrc level =
      if ssrc = front.ssrc ∧ level = front.priorityLevel then later else q.lane ssrc level)
    (hprio : ∀ level, q'.streamsByPrio level =
      if level = front.priorityLevel then others ++ (if later = [] then [] else [front.ssrc])
      else q.streamsByPrio level)
    (hactive : ∀ level, q'.topActivePrioLevel = some level → q'.streamsByPrio level ≠ [])
    (hfirst : ∀ level, q'.streamsByPrio level ≠ [] →
      ∃ top, q'.topActivePrioLevel = some top ∧ top ≤ level) : q'.Filed := by
  obtain ⟨hnotin, hothers⟩ := List.nodup_cons.mp (hturn ▸ h.nodup front.priorityLevel)
  refine ⟨?_, ?_, ?_, hactive, hfirst⟩
  · intro ssrc level p hp
    rw [hlanes] at hp
    split_ifs at hp with hown
    · refine h.filed ssrc level p ?_
      rw [hown.1, hown.2, hlane]
      exact List.mem_cons_of_mem _ hp
    · exact h.filed ssrc level p hp
  · intro ssrc level
    rw [hlanes, hprio]
    by_cases hlevel : level = front.priorityLevel
    · -- The stream keeps a turn just when its lane has later packets.
      subst hlevel
      rw [if_pos rfl]
      by_cases hssrc : ssrc = front.ssrc
      · have hown : ssrc = front.ssrc ∧ front.priorityLevel = front.priorityLevel := ⟨hssrc, rfl⟩
        rw [if_pos hown, hssrc]
        split_ifs with hlater
        · simp [hlater, hnotin]
        · simp [hlater]
      · have hother : ¬ (ssrc = front.ssrc ∧ front.priorityLevel = front.priorityLevel) :=
          fun hboth => hssrc hboth.1
        have hlisted := h.listed ssrc front.priorityLevel
        rw [hturn, List.mem_cons] at hlisted
        rw [if_neg hother, ← hlisted]
        split_ifs
        · simp [hssrc]
        · simp [hssrc]
    · rw [if_neg hlevel, if_neg fun hboth => hlevel hboth.2]
      exact h.listed ssrc level
  · intro level
    rw [hprio]
    split_ifs
    · rw [List.append_nil]
      exact hothers
    · exact List.Nodup.append hothers (List.nodup_singleton _)
        (List.disjoint_singleton.mpr hnotin)
    · exact h.nodup level

/-- `Pop` takes the front of a lane of the first level that has packets. -/
theorem popped_of_pop {q q' : PrioritizedPacketQueue Content} {p : PacedPacket Content}
    (h : q.Filed) (hpop : q.pop = some (p, q')) : Popped q p q' := by
  unfold pop at hpop
  split at hpop
  · cases hpop
  rename_i level htop
  split at hpop
  · cases hpop
  rename_i ssrc others hturn
  split at hpop
  · cases hpop
  rename_i front later hlane
  obtain ⟨rfl, hq'⟩ := Prod.mk.inj (Option.some.inj hpop)
  obtain ⟨hssrc, hlevel⟩ := h.filed ssrc level front (by rw [hlane]; exact List.mem_cons_self)
  subst hssrc hlevel
  have hlanes : ∀ ssrc level, q'.lane ssrc level =
      if ssrc = front.ssrc ∧ level = front.priorityLevel then later else q.lane ssrc level := by
    intro ssrc level
    rw [← lane_dequeue hlane, ← hq']
    split_ifs
    · show ((maybeUpdateTopPrioLevel _).streams ssrc).packets level = _
      rw [(maybe_update_streams _).1]
    · rfl
  have hfirst : ∀ level, q.streamsByPrio level ≠ [] →
      ∃ top, q.topActivePrioLevel = some top ∧ top ≤ level := h.first
  refine ⟨?_, ?_, ?_, ?_⟩
  · rw [hlane, hlanes, if_pos ⟨rfl, rfl⟩]
  · intro ssrc level hother
    rw [hlanes, if_neg hother]
  · intro ssrc level hbelow
    by_contra hfilled
    obtain ⟨top, htop', hle⟩ := h.first level
      (List.ne_nil_of_mem ((h.listed ssrc level).mpr hfilled))
    rw [htop] at htop'
    exact absurd hbelow (not_lt.mpr (Option.some.inj htop' ▸ hle))
  · by_cases hlater : later = []
    · -- The lane is empty, and with it perhaps the level: the first level is searched again.
      rw [if_pos hlater] at hq'
      set left : PrioritizedPacketQueue Content :=
        { q with
          streams := Function.update q.streams front.ssrc
            ((q.streams front.ssrc).dequeuePacket front front.priorityLevel)
          streamsByPrio := Function.update q.streamsByPrio front.priorityLevel others } with hleft
      have hprio : ∀ level, left.streamsByPrio level =
          if level = front.priorityLevel then others else q.streamsByPrio level := by
        intro level
        show Function.update q.streamsByPrio front.priorityLevel others level = _
        split_ifs with hlevel
        · rw [hlevel, Function.update_self]
        · rw [Function.update_of_ne hlevel]
      have htops := maybe_update_top left (by
        intro level hfilled
        rw [hprio] at hfilled
        split_ifs at hfilled with hlevel
        · exact ⟨_, htop, le_of_eq hlevel.symm⟩
        · exact h.first level hfilled)
      have hkept := (maybe_update_streams left).2
      rw [hq'] at htops hkept
      refine filed_of_popped h hturn hlane hlanes ?_ ?_ ?_
      · intro level
        rw [hkept, hprio, if_pos hlater, List.append_nil]
      · rw [hkept]
        exact htops.1
      · rw [hkept]
        exact htops.2
    · -- The stream goes to the end of the turns, and the first level stays.
      rw [if_neg hlater] at hq'
      have hprio : ∀ level, q'.streamsByPrio level =
          if level = front.priorityLevel then others ++ [front.ssrc]
          else q.streamsByPrio level := by
        intro level
        rw [← hq']
        show Function.update q.streamsByPrio front.priorityLevel _ level = _
        split_ifs with hlevel
        · rw [hlevel, Function.update_self]
        · rw [Function.update_of_ne hlevel]
      have hsame : q'.topActivePrioLevel = some front.priorityLevel := by
        rw [← hq']
        exact htop
      refine filed_of_popped h hturn hlane hlanes ?_ ?_ ?_
      · intro level
        rw [hprio, if_neg hlater]
      · intro level hlevel
        rw [hsame] at hlevel
        rw [hprio, if_pos (Option.some.inj hlevel).symm]
        simp
      · intro level hfilled
        rw [hprio] at hfilled
        rw [hsame, ← htop]
        split_ifs at hfilled with hlevel
        · exact ⟨_, htop, le_of_eq hlevel.symm⟩
        · exact h.first level hfilled

/-- `Pop` takes a packet exactly if the queue is not empty. -/
theorem pop_none_iff {q : PrioritizedPacketQueue Content} (h : q.Filed) :
    q.pop = none ↔ ∀ ssrc level, q.lane ssrc level = [] := by
  constructor
  · intro hnone ssrc level
    by_contra hfilled
    obtain ⟨top, htop, -⟩ := h.first level
      (List.ne_nil_of_mem ((h.listed ssrc level).mpr hfilled))
    obtain ⟨turn, others, hturn⟩ := List.exists_cons_of_ne_nil (h.active top htop)
    have hlane : q.lane turn top ≠ [] :=
      (h.listed turn top).mp (by rw [hturn]; exact List.mem_cons_self)
    obtain ⟨front, later, hfront⟩ := List.exists_cons_of_ne_nil hlane
    unfold pop at hnone
    simp only [htop, hturn, hfront] at hnone
    cases hnone
  · intro hempty
    unfold pop
    split
    · rfl
    · split
      · rfl
      · rw [hempty]

/-- Removing a stream empties its lanes and no others. -/
theorem lane_remove (q : PrioritizedPacketQueue Content) (ssrc other : BitVec 32) (level : Fin 5) :
    (q.removePacketsForSsrc ssrc).lane other level =
      if other = ssrc then [] else q.lane other level := by
  unfold lane removePacketsForSsrc
  rw [(maybe_update_streams _).1]
  simp only
  split_ifs with hssrc
  · rw [hssrc, Function.update_self]
  · rw [Function.update_of_ne hssrc]

/-- Removing a stream keeps the queue well-formed. -/
theorem filed_remove {q : PrioritizedPacketQueue Content} (h : q.Filed) (ssrc : BitVec 32) :
    (q.removePacketsForSsrc ssrc).Filed := by
  have hprio : ∀ level, (q.removePacketsForSsrc ssrc).streamsByPrio level =
      (q.streamsByPrio level).filter fun other => decide (other ≠ ssrc) := by
    intro level
    unfold removePacketsForSsrc
    rw [(maybe_update_streams _).2]
    simp only
    -- The source tells apart a stream without packets and one that is alone on its level.
    split_ifs with hempty hone
    · refine (List.filter_eq_self.mpr fun other hother => decide_eq_true ?_).symm
      rintro rfl
      exact (h.listed other level).mp hother hempty
    · obtain ⟨only, honly⟩ := List.length_eq_one_iff.mp hone
      have hin := (h.listed ssrc level).mpr hempty
      rw [honly, List.mem_singleton] at hin
      rw [honly, ← hin]
      simp
    · rfl
  have htops := maybe_update_top
    { q with
      streams := Function.update q.streams ssrc {}
      streamsByPrio := fun level =>
        if q.lane ssrc level = [] then q.streamsByPrio level
        else if (q.streamsByPrio level).length = 1 then (q.streamsByPrio level).tail
        else (q.streamsByPrio level).filter fun other => decide (other ≠ ssrc) } (by
      intro level hfilled
      refine h.first level ?_
      simp only at hfilled
      split_ifs at hfilled
      · exact hfilled
      · exact fun hnil => hfilled (by rw [hnil]; rfl)
      · exact fun hnil => hfilled (by rw [hnil]; rfl))
  have hkept : (q.removePacketsForSsrc ssrc).streamsByPrio = _ := (maybe_update_streams _).2
  refine ⟨?_, ?_, ?_, ?_, ?_⟩
  · intro other level p hp
    rw [lane_remove] at hp
    split_ifs at hp
    · cases hp
    · exact h.filed other level p hp
  · intro other level
    rw [hprio, lane_remove, List.mem_filter, h.listed]
    split_ifs with hother
    · simp [hother]
    · simp [hother]
  · intro level
    rw [hprio]
    exact (h.nodup level).filter _
  · rw [hkept]
    exact htops.1
  · rw [hkept]
    exact htops.2

end PrioritizedPacketQueue

end MiniRtc

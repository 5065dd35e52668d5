import MiniRtc.Foundation.Inventory
import MiniRtc.Qos.PacerRefinement

/-!
# What becomes of packets

Every packet that the pacer numbers is handed over once, or it waits in its lane, or it was dropped
because the packets of its stream were removed or a key frame arrived. The pacer keeps no record of
that; `PacerHistory` keeps one beside it, in an inventory. `packet_fates` says it for the pacing
controller, which refines the pacer.
-/

namespace MiniRtc

namespace PacedPacket

variable {Content : Type*}

/-- The packet without the sequence number that it gets when it is sent. -/
def unsent (p : PacedPacket Content) : PacedPacket Content :=
  { p with sequenceNumber := 0 }

/-- The packet without its numbers. -/
def bare (p : PacedPacket Content) : PacedPacket Content :=
  { p with
    transportSequenceNumber := none
    sequenceNumber := 0 }

/-- The first packet of a key frame. -/
def OpensKeyFrame (p : PacedPacket Content) : Prop :=
  p.packetType = .video ∧ p.isKeyFrame = true ∧ p.isFirstPacketOfFrame = true

/-- Whether the packet belongs in a lane. -/
def own (ssrc : BitVec 32) (level : Fin 5) (p : PacedPacket Content) : Bool :=
  decide (p.ssrc = ssrc ∧ p.priorityLevel = level)

/-- Whether a packet has the number of another. -/
def sameNumber (p q : PacedPacket Content) : Bool :=
  decide (q.transportSequenceNumber = p.transportSequenceNumber)

end PacedPacket

open PacedPacket

/-! ## What is held -/

/-- The lanes of the queue hold these packets, in this order. -/
def PrioritizedPacketQueue.Holds {Content : Type*} (q : PrioritizedPacketQueue Content)
    (held : List (PacedPacket Content)) : Prop :=
  ∀ ssrc level, q.lane ssrc level = held.filter (own ssrc level)

namespace PrioritizedPacketQueue

variable {Content : Type*} {q q' : PrioritizedPacketQueue Content}
  {held : List (PacedPacket Content)}

theorem Holds.push (h : q.Holds held) (p : PacedPacket Content) :
    (q.push p).Holds (held ++ [p]) := by
  intro ssrc level
  rw [lane_push, List.filter_append, ← h ssrc level]
  by_cases hown : p.ssrc = ssrc ∧ p.priorityLevel = level
  · have hbelongs : own ssrc level p = true := decide_eq_true hown
    rw [if_pos ⟨hown.1.symm, hown.2.symm⟩, List.filter_cons_of_pos hbelongs, List.filter_nil]
  · have hother : own ssrc level p = false := decide_eq_false hown
    rw [if_neg fun hboth => hown ⟨hboth.1.symm, hboth.2.symm⟩,
      List.filter_cons_of_neg (by rw [hother]; exact Bool.false_ne_true), List.filter_nil,
      List.append_nil]

theorem Holds.remove (h : q.Holds held) (ssrc : BitVec 32) :
    (q.removePacketsForSsrc ssrc).Holds (held.filter fun p => !decide (p.ssrc = ssrc)) := by
  intro other level
  rw [lane_remove, h other level, List.filter_filter]
  split_ifs with hother
  · refine (List.filter_eq_nil_iff.mpr fun p _ hp => ?_).symm
    obtain ⟨hown, hssrc⟩ := Bool.and_eq_true_iff.mp hp
    have hsame := (of_decide_eq_true hown).1
    simp only [Bool.not_eq_true', decide_eq_false_iff_not] at hssrc
    exact hssrc (hsame.trans hother)
  · refine List.filter_congr fun p _ => ?_
    by_cases hown : p.ssrc = other ∧ p.priorityLevel = level
    · have hbelongs : own other level p = true := decide_eq_true hown
      have hssrc : ¬ p.ssrc = ssrc := fun heq => hother (hown.1.symm.trans heq)
      rw [hbelongs, decide_eq_false hssrc]
      rfl
    · have hbelongs : own other level p = false := decide_eq_false hown
      rw [hbelongs]
      rfl

/-- A packet that is taken is held no more. -/
theorem Holds.popped (h : q.Holds held) {p : PacedPacket Content} (hpop : Popped q p q')
    (hnumbers : (held.map fun p => p.transportSequenceNumber).Nodup) :
    p ∈ held ∧ q'.Holds (held.filter fun x => !p.sameNumber x) := by
  have hp : p ∈ held := by
    have hfront : p ∈ q.lane p.ssrc p.priorityLevel := hpop.front ▸ List.mem_cons_self
    rw [h] at hfront
    exact List.mem_of_mem_filter hfront
  -- No other packet has its number.
  have honly : ∀ x ∈ held, p.sameNumber x = true → x = p := fun x hx hsame =>
    List.inj_on_of_nodup_map hnumbers hx hp (of_decide_eq_true hsame)
  refine ⟨hp, fun ssrc level => ?_⟩
  have hlane : held.filter (own ssrc level) = q.lane ssrc level := (h ssrc level).symm
  have hcomm : (held.filter fun x => !p.sameNumber x).filter (own ssrc level) =
      (held.filter (own ssrc level)).filter fun x => !p.sameNumber x := by
    rw [List.filter_filter, List.filter_filter]
    exact List.filter_congr fun x _ => Bool.and_comm _ _
  rw [hcomm, hlane]
  by_cases hown : ssrc = p.ssrc ∧ level = p.priorityLevel
  · obtain ⟨rfl, rfl⟩ := hown
    have hfront := hpop.front
    have hdistinct : ((p :: q'.lane p.ssrc p.priorityLevel).map
        fun p => p.transportSequenceNumber).Nodup := by
      rw [← hfront, ← hlane]
      exact hnumbers.sublist (List.filter_sublist.map _)
    rw [hfront, List.filter_cons_of_neg (by simp [PacedPacket.sameNumber])]
    refine (List.filter_eq_self.mpr fun x hx => ?_).symm
    have hne : x.transportSequenceNumber ≠ p.transportSequenceNumber := fun heq =>
      (List.nodup_cons.mp hdistinct).1 (List.mem_map.mpr ⟨x, hx, heq⟩)
    simpa [PacedPacket.sameNumber] using hne
  · rw [← hpop.others ssrc level hown] at hlane ⊢
    refine (List.filter_eq_self.mpr fun x hx => ?_).symm
    by_contra hsame
    have hin : x ∈ held.filter (own ssrc level) := hlane ▸ hx
    have hx' := honly x (List.mem_of_mem_filter hin) (by simpa using hsame)
    have hbelongs : own ssrc level x = true := List.of_mem_filter hin
    rw [hx'] at hbelongs
    have hplace := of_decide_eq_true hbelongs
    exact hown ⟨hplace.1.symm, hplace.2.symm⟩

end PrioritizedPacketQueue

/-! ## Histories -/

/-- The pacer with what became of its packets. -/
structure PacerHistory (Content : Type*) where
  pacer : PacedSender Content := {}
  inventory : Inventory (PacedPacket Content) := {}

namespace PacerHistory

variable {Content : Type*}

/-- A packet is numbered and enqueued. -/
def enqueue (h : PacerHistory Content) (p : PacedPacket Content) : PacerHistory Content :=
  let numbered := h.pacer.numbered p
  { pacer := h.pacer.enqueuePacketOnQueue p
    inventory :=
      (if h.pacer.flushes numbered then h.inventory.drop fun q => decide (q.ssrc = p.ssrc)
      else h.inventory).accept numbered }

/-- Padding is numbered and sent at once. -/
def sendPadding (h : PacerHistory Content) (padding : PacedPacket Content) :
    PacerHistory Content :=
  let made := h.pacer.generatePadding padding
  { pacer := (made.1.sendPacket made.2).1
    inventory := (h.inventory.accept made.2).hand made.2.sameNumber }

/-- A call, and what becomes of packets in it. -/
def step (h : PacerHistory Content) : PacerCall Content → PacerHistory Content
  | .enqueuePackets packets => packets.foldl enqueue h
  | .removePacketsForSsrc ssrc =>
      { pacer := (h.pacer.step (.removePacketsForSsrc ssrc)).1
        inventory := h.inventory.drop fun q => decide (q.ssrc = ssrc) }
  | .sendNext =>
      match h.pacer.packetQueue.pop with
      | none => h
      | some (p, packetQueue) =>
          { pacer := ({ h.pacer with packetQueue }.sendPacket p).1
            inventory := h.inventory.hand p.sameNumber }
  | .sendKeepalive padding => if h.pacer.seenFirstPacket then h.sendPadding padding else h
  | .sendProbePadding padding => h.sendPadding padding
  | .queuePadding padding =>
      if h.pacer.packetQueue.empty then
        padding.foldl (fun h p => h.enqueue { p with packetType := .padding }) h
      else h

/-- The pacer of a history. -/
theorem step_pacer (h : PacerHistory Content) (call : PacerCall Content) :
    (h.step call).pacer = (h.pacer.step call).1 := by
  have hfold : ∀ (enqueue' : PacedSender Content → PacedPacket Content → PacedSender Content)
      (step' : PacerHistory Content → PacedPacket Content → PacerHistory Content),
      (∀ h p, (step' h p).pacer = enqueue' h.pacer p) → ∀ (packets : List (PacedPacket Content)) h,
        (packets.foldl step' h).pacer = packets.foldl enqueue' h.pacer := by
    intro enqueue' step' hone packets
    induction packets with
    | nil => exact fun h => rfl
    | cons p rest ih => exact fun h => (ih (step' h p)).trans (by rw [hone]; rfl)
  cases call with
  | enqueuePackets packets => exact hfold _ _ (fun h p => rfl) packets h
  | removePacketsForSsrc ssrc => rfl
  | sendNext =>
      unfold step PacedSender.step
      cases hpop : h.pacer.packetQueue.pop with
      | none => rfl
      | some popped => rfl
  | sendKeepalive padding =>
      unfold step PacedSender.step
      simp only
      split_ifs
      · rfl
      · rfl
  | sendProbePadding padding => rfl
  | queuePadding padding =>
      unfold step PacedSender.step
      simp only
      split_ifs
      · exact hfold _ _ (fun h p => rfl) padding h
      · rfl

/-! ## The inventory is right -/

/-- The inventory is about the packets of the pacer. -/
structure Kept (h : PacerHistory Content) : Prop where
  balanced : h.inventory.Balanced
  next : h.pacer.transportSeq = h.inventory.accepted.length
  numbers : h.inventory.accepted.map (fun p => p.transportSequenceNumber) =
    (List.range h.inventory.accepted.length).map fun n : ℕ => some (n : ℤ)
  holds : h.pacer.packetQueue.Holds h.inventory.held
  filed : h.pacer.packetQueue.Filed

/-- The history of a new pacer. -/
theorem kept_new : Kept ({} : PacerHistory Content) where
  balanced := Inventory.balanced_new
  next := rfl
  numbers := rfl
  holds := fun _ _ => rfl
  filed := PrioritizedPacketQueue.filed_new

variable {h : PacerHistory Content}

/-- Numbers from zero on are different. -/
theorem numbers_nodup {packets : List (PacedPacket Content)}
    (hnumbers : packets.map (fun p => p.transportSequenceNumber) =
      (List.range packets.length).map fun n : ℕ => some (n : ℤ)) :
    (packets.map fun p => p.transportSequenceNumber).Nodup := by
  rw [hnumbers]
  refine List.Nodup.map (fun m n heq => ?_) List.nodup_range
  exact_mod_cast Option.some.inj heq

/-- The numbers after a packet with the next number. -/
theorem numbers_accept {l : Inventory (PacedPacket Content)}
    (hnumbers : l.accepted.map (fun p => p.transportSequenceNumber) =
      (List.range l.accepted.length).map fun n : ℕ => some (n : ℤ)) {p : PacedPacket Content}
    (hp : p.transportSequenceNumber = some (l.accepted.length : ℤ)) :
    (l.accept p).accepted.map (fun p => p.transportSequenceNumber) =
      (List.range (l.accept p).accepted.length).map fun n : ℕ => some (n : ℤ) := by
  show (l.accepted ++ [p]).map _ = (List.range (l.accepted ++ [p]).length).map _
  rw [List.length_append, List.length_singleton, List.range_succ, List.map_append, List.map_append,
    hnumbers, List.map_singleton, List.map_singleton, hp]

theorem Kept.enqueue (hk : Kept h) (p : PacedPacket Content) : Kept (h.enqueue p) := by
  have hnumber : (h.pacer.numbered p).transportSequenceNumber =
      some (h.inventory.accepted.length : ℤ) := congrArg some hk.next
  have hnext : (h.enqueue p).pacer.transportSeq = (h.enqueue p).inventory.accepted.length := by
    show h.pacer.transportSeq + 1 = ((_ ++ [_] : List _).length : ℤ)
    rw [hk.next, List.length_append, List.length_singleton]
    split_ifs
    · exact (Nat.cast_succ _).symm
    · exact (Nat.cast_succ _).symm
  have hfiled : (h.enqueue p).pacer.packetQueue.Filed := PacedSender.filed_enqueue hk.filed _
  unfold PacerHistory.enqueue at hnext hfiled ⊢
  simp only at hnext hfiled ⊢
  by_cases hflush : h.pacer.flushes (h.pacer.numbered p)
  · simp only [hflush, if_true] at hnext ⊢
    refine ⟨(hk.balanced.drop _).accept _, hnext, numbers_accept hk.numbers hnumber, ?_, hfiled⟩
    show PrioritizedPacketQueue.Holds (PrioritizedPacketQueue.push
      (if h.pacer.flushes (h.pacer.numbered p) then _ else _) _) _
    rw [if_pos hflush]
    exact (hk.holds.remove p.ssrc).push _
  · simp only [hflush] at hnext ⊢
    refine ⟨hk.balanced.accept _, hnext, numbers_accept hk.numbers hnumber, ?_, hfiled⟩
    show PrioritizedPacketQueue.Holds (PrioritizedPacketQueue.push
      (if h.pacer.flushes (h.pacer.numbered p) then _ else _) _) _
    rw [if_neg hflush]
    exact hk.holds.push _

/-- Padding that is sent is accepted and handed over. -/
theorem Kept.send_padding (hk : Kept h) (padding : PacedPacket Content) :
    Kept (h.sendPadding padding) ∧
      (h.sendPadding padding).inventory.handed =
        h.inventory.handed ++ [(h.pacer.generatePadding padding).2] := by
  have hnumber : (h.pacer.generatePadding padding).2.transportSequenceNumber =
      some (h.inventory.accepted.length : ℤ) := congrArg some hk.next
  set made := (h.pacer.generatePadding padding).2 with hmade
  have haccepted := hk.balanced.accept made
  have hnumbers := numbers_accept hk.numbers hnumber
  have hdistinct := haccepted.held_nodup (numbers_nodup hnumbers)
  have hdistinct' : ((h.inventory.held ++ [made]).map fun p => p.transportSequenceNumber).Nodup :=
    hdistinct
  have hleaves : (h.inventory.held ++ [made]).filter made.sameNumber = [made] :=
    Inventory.filter_key hdistinct (List.mem_append_right _ List.mem_cons_self)
  have hstays : (h.inventory.held ++ [made]).filter (fun q => !made.sameNumber q) =
      h.inventory.held := by
    rw [List.filter_append, List.filter_cons_of_neg (by simp [PacedPacket.sameNumber]),
      List.filter_nil, List.append_nil]
    refine List.filter_eq_self.mpr fun q hq => ?_
    rw [List.map_append, List.nodup_append] at hdistinct'
    have hne := hdistinct'.2.2 _ (List.mem_map_of_mem hq) made.transportSequenceNumber
      (by simp)
    simpa [PacedPacket.sameNumber] using hne
  refine ⟨⟨haccepted.hand _, ?_, hnumbers, ?_, hk.filed⟩, ?_⟩
  · show h.pacer.transportSeq + 1 = ((_ ++ [_] : List _).length : ℤ)
    rw [hk.next, List.length_append, List.length_singleton]
    exact (Nat.cast_succ _).symm
  · show h.pacer.packetQueue.Holds ((h.inventory.held ++ [made]).filter _)
    rw [hstays]
    exact hk.holds
  · show h.inventory.handed ++ (h.inventory.held ++ [made]).filter made.sameNumber = _
    rw [hleaves]

/-- The inventory stays right, and what a call hands over is handed over in the inventory. -/
theorem Kept.step (hk : Kept h) (call : PacerCall Content) :
    Kept (h.step call) ∧ (h.step call).inventory.handed.map unsent =
      h.inventory.handed.map unsent ++ (h.pacer.step call).2.toList.map unsent := by
  -- Packets and padding are enqueued one by one.
  have hfold : ∀ (change : PacedPacket Content → PacedPacket Content)
      (packets : List (PacedPacket Content)) (h : PacerHistory Content), Kept h →
      Kept (packets.foldl (fun h p => h.enqueue (change p)) h) ∧
        (packets.foldl (fun h p => h.enqueue (change p)) h).inventory.handed =
          h.inventory.handed := by
    intro change packets
    induction packets with
    | nil => exact fun h hk => ⟨hk, rfl⟩
    | cons p rest ih =>
        intro h hk
        obtain ⟨hkept, hhanded⟩ := ih _ (hk.enqueue (change p))
        refine ⟨hkept, hhanded.trans ?_⟩
        unfold PacerHistory.enqueue
        simp only
        split_ifs
        · rfl
        · rfl
  cases call with
  | enqueuePackets packets =>
      obtain ⟨hkept, hhanded⟩ := hfold id packets h hk
      refine ⟨hkept, ?_⟩
      show ((packets.foldl (fun h p => h.enqueue (id p)) h).inventory.handed.map unsent) = _
      rw [hhanded]
      exact (List.append_nil _).symm
  | removePacketsForSsrc ssrc =>
      refine ⟨⟨hk.balanced.drop _, hk.next, hk.numbers, hk.holds.remove ssrc,
        PrioritizedPacketQueue.filed_remove hk.filed ssrc⟩, ?_⟩
      exact (List.append_nil _).symm
  | sendNext =>
      unfold PacerHistory.step PacedSender.step
      cases hpop : h.pacer.packetQueue.pop with
      | none => exact ⟨hk, (List.append_nil _).symm⟩
      | some popped =>
          obtain ⟨p, packetQueue⟩ := popped
          have hpopped := PrioritizedPacketQueue.popped_of_pop hk.filed hpop
          -- The packets that wait have different numbers, so only this one is handed over.
          have hdistinct := hk.balanced.held_nodup (numbers_nodup hk.numbers)
          obtain ⟨hp, hholds⟩ := hk.holds.popped hpopped hdistinct
          refine ⟨⟨hk.balanced.hand _, hk.next, hk.numbers, hholds, hpopped.filed⟩, ?_⟩
          have hleaves : h.inventory.held.filter p.sameNumber = [p] :=
            Inventory.filter_key hdistinct hp
          show (h.inventory.handed ++ h.inventory.held.filter p.sameNumber).map unsent = _
          rw [hleaves, List.map_append]
          rfl
  | sendKeepalive padding =>
      unfold PacerHistory.step PacedSender.step
      simp only
      split_ifs
      · obtain ⟨hkept, hhanded⟩ := hk.send_padding padding
        refine ⟨hkept, ?_⟩
        rw [hhanded, List.map_append]
        rfl
      · exact ⟨hk, (List.append_nil _).symm⟩
  | sendProbePadding padding =>
      obtain ⟨hkept, hhanded⟩ := hk.send_padding padding
      refine ⟨hkept, ?_⟩
      show (h.sendPadding padding).inventory.handed.map unsent = _
      rw [hhanded, List.map_append]
      rfl
  | queuePadding padding =>
      unfold PacerHistory.step PacedSender.step
      simp only
      split_ifs
      · obtain ⟨hkept, hhanded⟩ := hfold (fun p => { p with packetType := .padding }) padding h hk
        refine ⟨hkept, ?_⟩
        rw [hhanded]
        exact (List.append_nil _).symm
      · exact ⟨hk, (List.append_nil _).symm⟩

/-! ## What is accepted and dropped -/

/-- The packets that a call enqueues. -/
def enqueuedBy : PacerCall Content → List (PacedPacket Content)
  | .enqueuePackets packets => packets
  | _ => []

/-- A call that may drop the packets of a stream. -/
def Drops : PacerCall Content → BitVec 32 → Prop
  | .removePacketsForSsrc removed, ssrc => removed = ssrc
  | .enqueuePackets packets, ssrc => ∃ p ∈ packets, p.OpensKeyFrame ∧ p.ssrc = ssrc
  | _, _ => False

/-- What the enqueueing of a packet adds to the inventory. -/
theorem inventory_enqueue (h : PacerHistory Content) (p : PacedPacket Content) :
    (h.enqueue p).inventory.accepted = h.inventory.accepted ++ [h.pacer.numbered p] ∧
      ∃ new, (h.enqueue p).inventory.dropped = h.inventory.dropped ++ new ∧
        ∀ q ∈ new, p.OpensKeyFrame ∧ p.ssrc = q.ssrc := by
  unfold PacerHistory.enqueue
  simp only
  split_ifs with hflush
  · refine ⟨rfl, _, rfl, fun q hq => ⟨?_, ?_⟩⟩
    · unfold PacedSender.flushes at hflush
      simp only [Bool.and_eq_true] at hflush
      exact ⟨of_decide_eq_true hflush.1.1.1, hflush.1.1.2, hflush.1.2⟩
    · exact (of_decide_eq_true (List.mem_filter.mp hq).2).symm
  · exact ⟨rfl, [], (List.append_nil _).symm, fun q hq => by cases hq⟩

/-- What the enqueueing of a list of packets adds to the inventory. -/
theorem inventory_enqueue_all (packets : List (PacedPacket Content)) (h : PacerHistory Content) :
    (∃ new, (packets.foldl enqueue h).inventory.accepted = h.inventory.accepted ++ new ∧
        new.map bare = packets.map bare) ∧
      ∃ new, (packets.foldl enqueue h).inventory.dropped = h.inventory.dropped ++ new ∧
        ∀ q ∈ new, ∃ p ∈ packets, p.OpensKeyFrame ∧ p.ssrc = q.ssrc := by
  induction packets generalizing h with
  | nil =>
      exact ⟨⟨[], (List.append_nil _).symm, rfl⟩, [], (List.append_nil _).symm,
        fun q hq => by cases hq⟩
  | cons p rest ih =>
      obtain ⟨haccepted, new, hdropped, hreason⟩ := inventory_enqueue h p
      obtain ⟨⟨new', haccepted', hbare⟩, new'', hdropped', hreason'⟩ := ih (h.enqueue p)
      refine ⟨⟨h.pacer.numbered p :: new', ?_, ?_⟩, new ++ new'', ?_, fun q hq => ?_⟩
      · rw [List.foldl_cons, haccepted', haccepted, List.append_assoc, List.singleton_append]
      · rw [List.map_cons, List.map_cons, hbare]
        rfl
      · rw [List.foldl_cons, hdropped', hdropped, List.append_assoc]
      · rcases List.mem_append.mp hq with hin | hin
        · exact ⟨p, List.mem_cons_self, hreason q hin⟩
        · obtain ⟨x, hx, hopens⟩ := hreason' q hin
          exact ⟨x, List.mem_cons_of_mem _ hx, hopens⟩

/-- What a call adds to the inventory. -/
theorem inventory_step (h : PacerHistory Content) (call : PacerCall Content) :
    (∃ new, (h.step call).inventory.accepted = h.inventory.accepted ++ new ∧
        ((enqueuedBy call).map bare).Sublist (new.map bare)) ∧
      ∃ new, (h.step call).inventory.dropped = h.inventory.dropped ++ new ∧
        ∀ q ∈ new, Drops call q.ssrc := by
  have hnothing : ∀ l : Inventory (PacedPacket Content), ∃ new, l.dropped = l.dropped ++ new ∧
      ∀ q ∈ new, Drops call q.ssrc := fun l =>
    ⟨[], (List.append_nil _).symm, fun q hq => by cases hq⟩
  have hsame : ∀ l : Inventory (PacedPacket Content), ∃ new, l.accepted = l.accepted ++ new ∧
      (([] : List (PacedPacket Content)).map bare).Sublist (new.map bare) := fun l =>
    ⟨[], (List.append_nil _).symm, List.nil_sublist _⟩
  cases call with
  | enqueuePackets packets =>
      obtain ⟨⟨new, haccepted, hbare⟩, hdropped⟩ := inventory_enqueue_all packets h
      exact ⟨⟨new, haccepted, hbare ▸ List.Sublist.refl _⟩, hdropped⟩
  | removePacketsForSsrc ssrc =>
      refine ⟨hsame h.inventory, _, rfl, fun q hq => ?_⟩
      exact (of_decide_eq_true (List.mem_filter.mp hq).2).symm
  | sendNext =>
      unfold PacerHistory.step
      cases hpop : h.pacer.packetQueue.pop with
      | none => exact ⟨hsame h.inventory, hnothing h.inventory⟩
      | some popped => exact ⟨hsame h.inventory, hnothing h.inventory⟩
  | sendKeepalive padding =>
      unfold PacerHistory.step
      simp only
      split_ifs
      · exact ⟨⟨_, rfl, List.nil_sublist _⟩, hnothing h.inventory⟩
      · exact ⟨hsame h.inventory, hnothing h.inventory⟩
  | sendProbePadding padding => exact ⟨⟨_, rfl, List.nil_sublist _⟩, hnothing h.inventory⟩
  | queuePadding padding =>
      unfold PacerHistory.step
      simp only
      split_ifs
      · -- Padding opens no key frame.
        obtain ⟨⟨new, haccepted, -⟩, new', hdropped, hreason⟩ := inventory_enqueue_all
          (padding.map fun p => { p with packetType := .padding }) h
        rw [List.foldl_map] at haccepted hdropped
        refine ⟨⟨new, haccepted, List.nil_sublist _⟩, new', hdropped, fun q hq => ?_⟩
        obtain ⟨p, hp, hopens, -⟩ := hreason q hq
        obtain ⟨x, -, rfl⟩ := List.mem_map.mp hp
        cases hopens.1
      · exact ⟨hsame h.inventory, hnothing h.inventory⟩

/-- What a run adds to the inventory. -/
theorem inventory_run (calls : List (PacerCall Content)) (h : PacerHistory Content) :
    (∃ new, (calls.foldl step h).inventory.accepted = h.inventory.accepted ++ new ∧
        ((calls.flatMap enqueuedBy).map bare).Sublist (new.map bare)) ∧
      ∃ new, (calls.foldl step h).inventory.dropped = h.inventory.dropped ++ new ∧
        ∀ q ∈ new, ∃ call ∈ calls, Drops call q.ssrc := by
  induction calls generalizing h with
  | nil =>
      exact ⟨⟨[], (List.append_nil _).symm, List.nil_sublist _⟩, [], (List.append_nil _).symm,
        fun q hq => by cases hq⟩
  | cons call rest ih =>
      obtain ⟨⟨new, haccepted, hsub⟩, dropped, hdropped, hreason⟩ := inventory_step h call
      obtain ⟨⟨new', haccepted', hsub'⟩, dropped', hdropped', hreason'⟩ := ih (h.step call)
      refine ⟨⟨new ++ new', ?_, ?_⟩, dropped ++ dropped', ?_, fun q hq => ?_⟩
      · rw [List.foldl_cons, haccepted', haccepted, List.append_assoc]
      · rw [List.flatMap_cons, List.map_append, List.map_append]
        exact hsub.append hsub'
      · rw [List.foldl_cons, hdropped', hdropped, List.append_assoc]
      · rcases List.mem_append.mp hq with hin | hin
        · exact ⟨call, List.mem_cons_self, hreason q hin⟩
        · obtain ⟨x, hx, hdrops⟩ := hreason' q hin
          exact ⟨x, List.mem_cons_of_mem _ hx, hdrops⟩

/-- A run and its history hand over the same packets. -/
theorem handed_run {h : PacerHistory (QueuedBody Content)} (hk : Kept h)
    (calls : List (PacerCall (QueuedBody Content))) :
    Kept (calls.foldl step h) ∧
      (calls.foldl step h).pacer = (Machine.run PacedSender.hand h.pacer calls).1 ∧
      (calls.foldl step h).inventory.handed.map (fun p => (PacingController.ofQueued p).unsent) =
        h.inventory.handed.map (fun p => (PacingController.ofQueued p).unsent) ++
          (Machine.run PacedSender.hand h.pacer calls).2.map unsent := by
  induction calls generalizing h with
  | nil => exact ⟨hk, rfl, (List.append_nil _).symm⟩
  | cons call rest ih =>
      obtain ⟨hkept, hhanded⟩ := hk.step call
      obtain ⟨hend, hpacer, hall⟩ := ih hkept
      have hone : (h.step call).inventory.handed.map (fun p => (PacingController.ofQueued p).unsent) =
          h.inventory.handed.map (fun p => (PacingController.ofQueued p).unsent) ++
            (h.pacer.hand call).2.map unsent := by
        have hmapped := congrArg (List.map PacingController.ofQueued) hhanded
        rw [List.map_append, List.map_map, List.map_map, List.map_map] at hmapped
        unfold PacedSender.hand
        rw [List.map_map]
        exact hmapped
      rw [step_pacer] at hpacer hall
      refine ⟨hend, hpacer, ?_⟩
      rw [List.foldl_cons, hall, hone, Machine.run_cons, List.map_append, List.append_assoc]
      rfl

end PacerHistory

/-! ## The pacing controller -/

namespace PacingController

variable {Env Content : Type*}

/-- The packets that a call enqueues. -/
def enqueuedBy : PacingCall Content → List (PacedPacket (PacketBody Content))
  | .enqueuePacket p => [p]
  | _ => []

/-- A call that may drop the packets of a stream. -/
def Drops : PacingCall Content → BitVec 32 → Prop
  | .removePacketsForSsrc removed, ssrc => removed = ssrc
  | .enqueuePacket p, ssrc => p.OpensKeyFrame ∧ p.ssrc = ssrc
  | _, _ => False

/-- The inventory says what became of the packets in a run: of the calls, of the controller at the
end, and of the packets that were handed over. -/
structure Fates (calls : List (PacingCall Content)) (s : PacingController Env Content)
    (handed : List (PacedPacket (PacketBody Content)))
    (inventory : Inventory (PacedPacket (PacketBody Content))) : Prop where
  numbers : inventory.accepted.map (fun p => p.transportSequenceNumber) =
    (List.range inventory.accepted.length).map fun n : ℕ => some (n : ℤ)
  next : s.packetSender.transportSeq = inventory.accepted.length
  enqueued : ((calls.flatMap enqueuedBy).map bare).Sublist (inventory.accepted.map bare)
  waiting : ∀ ssrc level, (s.packetQueue.lanes.lane ssrc level).map ofQueued =
    inventory.held.filter (own ssrc level)
  handed : inventory.handed.map unsent = handed.map unsent
  dropped : ∀ p ∈ inventory.dropped, ∃ call ∈ calls, Drops call p.ssrc
  balanced : inventory.Balanced

/-- The blocks that carry out calls enqueue their packets, and drop only what the calls drop. -/
theorem enqueued_blocks {calls : List (PacingCall Content)}
    {blocks : List (List (PacerCall (QueuedBody Content)))}
    (h : List.Forall₂ Carries calls blocks) :
    (blocks.flatten.flatMap PacerHistory.enqueuedBy).map ofQueued = calls.flatMap enqueuedBy ∧
      ∀ pacerCall ∈ blocks.flatten, ∀ ssrc, PacerHistory.Drops pacerCall ssrc →
        ∃ call ∈ calls, Drops call ssrc := by
  induction h with
  | nil => exact ⟨rfl, fun _ hin => by cases hin⟩
  | @cons call block calls blocks hcarries _ ih =>
      have hone : (block.flatMap PacerHistory.enqueuedBy).map ofQueued = enqueuedBy call ∧
          ∀ pacerCall ∈ block, ∀ ssrc, PacerHistory.Drops pacerCall ssrc → Drops call ssrc := by
        cases call with
        | enqueuePacket p =>
            obtain ⟨q, rfl, rfl⟩ := hcarries
            refine ⟨rfl, fun pacerCall hin ssrc hdrops => ?_⟩
            obtain rfl := List.mem_singleton.mp hin
            obtain ⟨x, hx, hopens⟩ := hdrops
            obtain rfl := List.mem_singleton.mp hx
            exact hopens
        | removePacketsForSsrc removed =>
            obtain rfl := hcarries
            refine ⟨rfl, fun pacerCall hin ssrc hdrops => ?_⟩
            obtain rfl := List.mem_singleton.mp hin
            exact hdrops
        | processPackets =>
            refine ⟨?_, fun pacerCall hin ssrc hdrops => ?_⟩
            · show _ = []
              rw [List.map_eq_nil_iff, List.flatMap_eq_nil_iff]
              intro pacerCall hin
              have hprocessing := hcarries pacerCall hin
              cases pacerCall with
              | enqueuePackets => exact hprocessing.elim
              | _ => rfl
            · have hprocessing := hcarries pacerCall hin
              cases pacerCall with
              | enqueuePackets => exact hprocessing.elim
              | removePacketsForSsrc => exact hprocessing.elim
              | _ => exact hdrops.elim
        | _ =>
            obtain rfl := hcarries
            exact ⟨rfl, fun pacerCall hin => by cases hin⟩
      refine ⟨?_, fun pacerCall hin ssrc hdrops => ?_⟩
      · rw [List.flatten_cons, List.flatMap_append, List.map_append, hone.1, ih.1]
        rfl
      · rcases List.mem_append.mp hin with hfirst | hrest
        · exact ⟨call, List.mem_cons_self, hone.2 pacerCall hfirst ssrc hdrops⟩
        · obtain ⟨x, hx, hcall⟩ := ih.2 pacerCall hrest ssrc hdrops
          exact ⟨x, List.mem_cons_of_mem _ hx, hcall⟩

/-- A packet of a delta frame, and the first packet of a key frame of the same stream. -/
def keyFrameArrives : List (PacingCall Unit) :=
  [.setPacingRates 1000000 0,
    .enqueuePacket
      { ssrc := 7, packetType := .video, content := { payloadSize := 1000, content := () } },
    .enqueuePacket
      { ssrc := 7, packetType := .video, isKeyFrame := true, isFirstPacketOfFrame := true,
        content := { payloadSize := 1000, content := () } },
    .processPackets]

end PacingController

end MiniRtc

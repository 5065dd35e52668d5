import Mathlib.Order.Interval.Finset.Basic
import Mathlib.Data.Int.Interval
import MiniRtc.Foundation.Circle
import MiniRtc.Foundation.Run
import MiniRtc.Statistics.IOStatistics

/-!
# The loss counters of the statistics

`UpdateVideoPacketLossCount`, `UpdateAudioPacketLossCount` and `UpdateDataPacketLossCount` of
`io_statistics.cpp`, between two reports. The packets of a stream arrive under unwrapped sequence
numbers, of which the counters see 16 bits. `Reception` keeps the unwrapped numbers beside the
counters, and `lost` is what the counter should say.

The sequence number 0 also says that no packet has arrived yet. `loss_count_exact_iff` says when
that matters: a counter is exact as long as only the next packet follows a highest number that is a
multiple of 65536, and as long as its 32 bits are enough.
-/

namespace MiniRtc

open Circle Run

/-! ## The packets of a stream -/

/-- The packets of a stream that have arrived, under their unwrapped sequence numbers, and the
statistics. -/
structure Reception where
  first : ℤ
  highest : ℤ
  received : List ℤ
  statistics : IOStatistics

namespace Reception

open IOStatistics

variable {medium : Medium} {s : Reception} {p : ℤ}

/-- The first packet of a stream. -/
def start (medium : Medium) (p : ℤ) : Reception where
  first := p
  highest := p
  received := [p]
  statistics := updatePacketLossCount medium {} (BitVec.ofInt 16 p)

/-- A packet arrives. -/
def receive (medium : Medium) (s : Reception) (p : ℤ) : Reception where
  first := s.first
  highest := max s.highest p
  received := p :: s.received
  statistics := updatePacketLossCount medium s.statistics (BitVec.ofInt 16 p)

/-- The numbers up to the highest one that have not arrived. -/
def lost (s : Reception) : ℤ :=
  s.highest - s.first + 1 - s.received.length

/-- The packet is new, it is not older than the first one, and it is less than half the circle away
from the highest one. -/
def Near (s : Reception) (p : ℤ) : Prop :=
  p ∉ s.received ∧ s.first ≤ p ∧ |p - s.highest| < 2 ^ 15

/-- The counter of the medium is exact. -/
def Exact (medium : Medium) (s : Reception) : Prop :=
  ((s.statistics.loss medium).rtpPktLossCnt.toNat : ℤ) = s.lost

/-- A packet that follows a multiple of 65536 is the next one, and the packets that are lost can be
counted in 32 bits. -/
def Countable (s : Reception) (p : ℤ) : Prop :=
  (s.highest % 65536 = 0 → p = s.highest + 1) ∧
    max s.highest p - s.first - s.received.length < 2 ^ 32

instance (s : Reception) (p : ℤ) : Decidable (s.Near p) :=
  inferInstanceAs (Decidable (_ ∧ _))

instance (s : Reception) (p : ℤ) : Decidable (s.Countable p) :=
  inferInstanceAs (Decidable (_ ∧ _))

/-- The invariant of a counter that has been exact. -/
structure Counted (medium : Medium) (s : Reception) : Prop where
  exact : s.Exact medium
  last : (s.statistics.loss medium).lastReceivedRtpPktSeq = BitVec.ofInt 16 s.highest
  distinct : s.received.Nodup
  highest : s.highest ∈ s.received
  within : ∀ q ∈ s.received, s.first ≤ q ∧ q ≤ s.highest

/-! ## Updates -/

/-- A counter that has seen no packet, or one with the number 0, takes any packet as the first. -/
theorem update_zero {c : RtpPktLoss} (h : c.lastReceivedRtpPktSeq = 0) (seqNum : BitVec 16) :
    c.update seqNum = { c with lastReceivedRtpPktSeq := seqNum } := by
  unfold RtpPktLoss.update
  rw [if_pos h]

/-- A packet ahead of the highest one adds the numbers between them. -/
theorem update_ahead {c : RtpPktLoss} {n : ℤ} (hlast : c.lastReceivedRtpPktSeq = BitVec.ofInt 16 n)
    (hzero : c.lastReceivedRtpPktSeq ≠ 0) (hlt : n < p) (hnear : p < n + 2 ^ 15) :
    c.update (BitVec.ofInt 16 p) =
      { lastReceivedRtpPktSeq := BitVec.ofInt 16 p
        rtpPktLossCnt := c.rtpPktLossCnt + BitVec.ofNat 32 (p - n - 1).toNat } := by
  have hdiff : ((BitVec.ofInt 16 p - c.lastReceivedRtpPktSeq).toNat : ℤ) = p - n := by
    rw [hlast]
    exact fwd_of_int_of_le hlt.le (by omega)
  have hne : BitVec.ofInt 16 p - c.lastReceivedRtpPktSeq ≠ 0 := by
    intro hsame
    rw [hsame] at hdiff
    have hnothing : (0 : ℤ) = p - n := hdiff
    omega
  unfold RtpPktLoss.update
  rw [if_neg hzero]
  simp only
  rw [if_neg hne, if_pos (by unfold halfSeqRange; omega)]
  by_cases hgap : 1 < (BitVec.ofInt 16 p - c.lastReceivedRtpPktSeq).toNat
  · rw [if_pos hgap]
    have hcount : (BitVec.ofInt 16 p - c.lastReceivedRtpPktSeq).toNat - 1 = (p - n - 1).toNat := by
      omega
    rw [hcount]
  · rw [if_neg hgap]
    have hcount : (p - n - 1).toNat = 0 := by omega
    rw [hcount]
    simp

/-- A packet behind the highest one was counted as lost. -/
theorem update_late {c : RtpPktLoss} {n : ℤ} (hlast : c.lastReceivedRtpPktSeq = BitVec.ofInt 16 n)
    (hzero : c.lastReceivedRtpPktSeq ≠ 0) (hlt : p < n) (hnear : n < p + 2 ^ 15)
    (hcounted : 0 < c.rtpPktLossCnt.toNat) :
    c.update (BitVec.ofInt 16 p) = { c with rtpPktLossCnt := c.rtpPktLossCnt - 1 } := by
  have hdiff : ((BitVec.ofInt 16 p - c.lastReceivedRtpPktSeq).toNat : ℤ) = p - n + 65536 := by
    rw [hlast]
    have hfwd := fwd_of_int (w := 16) n p
    have hmod : (p - n) % 65536 = p - n + 65536 := by omega
    exact hfwd.trans hmod
  have hne : BitVec.ofInt 16 p - c.lastReceivedRtpPktSeq ≠ 0 := by
    intro hsame
    rw [hsame] at hdiff
    have hnothing : (0 : ℤ) = p - n + 65536 := hdiff
    omega
  unfold RtpPktLoss.update
  rw [if_neg hzero]
  simp only
  rw [if_neg hne, if_neg (by unfold halfSeqRange; omega), if_pos hcounted]

/-! ## Steps -/

/-- What is lost after one more packet. -/
theorem lost_receive : (s.receive medium p).lost = max s.highest p - s.first - s.received.length := by
  show max s.highest p - s.first + 1 - ((p :: s.received).length : ℤ) = _
  rw [List.length_cons]
  push_cast
  omega

/-- A packet that is missing below the highest one has been counted. -/
theorem lost_of_late (hs : s.Counted medium) (hnew : p ∉ s.received) (hfirst : s.first ≤ p)
    (hlate : p < s.highest) : 1 ≤ s.lost := by
  have hnodup : (p :: s.received).Nodup := List.nodup_cons.mpr ⟨hnew, hs.distinct⟩
  have hsubset : (p :: s.received).toFinset ⊆ Finset.Icc s.first s.highest := by
    intro q hq
    rw [List.mem_toFinset] at hq
    rw [Finset.mem_Icc]
    rcases List.mem_cons.mp hq with rfl | hold
    · exact ⟨hfirst, hlate.le⟩
    · exact hs.within q hold
  have hcard := Finset.card_le_card hsubset
  rw [List.toFinset_card_of_nodup hnodup, List.length_cons, Int.card_Icc] at hcard
  unfold lost
  omega

/-- The sequence number is zero at the multiples of 65536. -/
theorem seq_eq_zero (n : ℤ) : BitVec.ofInt 16 n = 0 ↔ n % 65536 = 0 := by
  constructor
  · intro h
    have htoNat := congrArg BitVec.toNat h
    rw [BitVec.toNat_ofInt] at htoNat
    have hnonneg : 0 ≤ n % (2 ^ 16 : Nat) := Int.emod_nonneg _ (by decide)
    have hzero : (n % (2 ^ 16 : Nat)).toNat = 0 := htoNat
    omega
  · intro h
    apply BitVec.eq_of_toNat_eq
    rw [BitVec.toNat_ofInt]
    show (n % 65536).toNat = 0
    rw [h]
    rfl

/-- A packet after the number 0 changes no counter, so it has to be the next one. -/
theorem exact_at_zero (hs : s.Counted medium) (hp : s.Near p) (hzero : s.highest % 65536 = 0) :
    (s.receive medium p).Exact medium ↔ p = s.highest + 1 := by
  have hexact := hs.exact
  have hlast : (s.statistics.loss medium).lastReceivedRtpPktSeq = 0 := by
    rw [hs.last]
    exact (seq_eq_zero s.highest).mpr hzero
  have hnew : p ≠ s.highest := fun hsame => hp.1 (hsame ▸ hs.highest)
  unfold Exact at hexact ⊢
  rw [lost_receive]
  show ((((updatePacketLossCount medium s.statistics (BitVec.ofInt 16 p)).loss
    medium).rtpPktLossCnt.toNat : ℤ) = _) ↔ _
  rw [loss_update, update_zero hlast]
  show (((s.statistics.loss medium).rtpPktLossCnt.toNat : ℤ) = _) ↔ _
  rw [hexact]
  unfold lost
  rcases lt_or_gt_of_ne hnew with hlate | hahead
  · rw [max_eq_left hlate.le]
    omega
  · rw [max_eq_right hahead.le]
    omega

/-- Elsewhere the counter stays exact as long as its bits are enough. -/
theorem exact_elsewhere (hs : s.Counted medium) (hp : s.Near p) (hzero : s.highest % 65536 ≠ 0) :
    (s.receive medium p).Exact medium ↔
      max s.highest p - s.first - s.received.length < 2 ^ 32 := by
  have hexact := hs.exact
  obtain ⟨hnew, hfirst, hnear⟩ := hp
  have hlast : (s.statistics.loss medium).lastReceivedRtpPktSeq ≠ 0 := by
    rw [hs.last]
    exact fun h => hzero ((seq_eq_zero s.highest).mp h)
  have hne : p ≠ s.highest := fun hsame => hnew (hsame ▸ hs.highest)
  have hbits := (s.statistics.loss medium).rtpPktLossCnt.isLt
  rw [abs_lt] at hnear
  unfold Exact at hexact ⊢
  rw [lost_receive]
  show ((((updatePacketLossCount medium s.statistics (BitVec.ofInt 16 p)).loss
    medium).rtpPktLossCnt.toNat : ℤ) = _) ↔ _
  rw [loss_update]
  rcases lt_or_gt_of_ne hne with hlate | hahead
  · have hcounted := lost_of_late hs hnew hfirst hlate
    have hpositive : 0 < (s.statistics.loss medium).rtpPktLossCnt.toNat := by omega
    rw [update_late hs.last hlast hlate (by omega) hpositive, max_eq_left hlate.le]
    show (((s.statistics.loss medium).rtpPktLossCnt - 1).toNat : ℤ) = _ ↔ _
    have hless : ((s.statistics.loss medium).rtpPktLossCnt - 1).toNat =
        (s.statistics.loss medium).rtpPktLossCnt.toNat - 1 := by
      rw [BitVec.toNat_sub_of_le]
      · rfl
      · show 1 ≤ (s.statistics.loss medium).rtpPktLossCnt.toNat
        omega
    rw [hless]
    unfold lost at hexact
    omega
  · rw [update_ahead hs.last hlast hahead (by omega), max_eq_right hahead.le]
    show (((s.statistics.loss medium).rtpPktLossCnt +
      BitVec.ofNat 32 (p - s.highest - 1).toNat).toNat : ℤ) = _ ↔ _
    have hmore : ((s.statistics.loss medium).rtpPktLossCnt +
        BitVec.ofNat 32 (p - s.highest - 1).toNat).toNat =
        ((s.statistics.loss medium).rtpPktLossCnt.toNat + (p - s.highest - 1).toNat) % 2 ^ 32 := by
      rw [BitVec.toNat_add, BitVec.toNat_ofNat, Nat.add_mod_mod]
    rw [hmore]
    unfold lost at hexact
    omega

/-- A step keeps the counter exact if and only if its packet is countable. -/
theorem exact_step (hs : s.Counted medium) (hp : s.Near p) :
    (s.receive medium p).Exact medium ↔ s.Countable p := by
  unfold Countable
  by_cases hzero : s.highest % 65536 = 0
  · rw [exact_at_zero hs hp hzero]
    constructor
    · intro hnext
      refine ⟨fun _ => hnext, ?_⟩
      have hexact := hs.exact
      have hbits := (s.statistics.loss medium).rtpPktLossCnt.isLt
      unfold Exact lost at hexact
      rw [max_eq_right (by omega)]
      omega
    · intro h
      exact h.1 hzero
  · rw [exact_elsewhere hs hp hzero]
    constructor
    · intro hbits
      exact ⟨fun h => absurd h hzero, hbits⟩
    · intro h
      exact h.2

theorem counted_start (medium : Medium) (p : ℤ) : (start medium p).Counted medium where
  exact := by
    show ((((updatePacketLossCount medium {} (BitVec.ofInt 16 p)).loss
      medium).rtpPktLossCnt.toNat : ℤ) = p - p + 1 - 1)
    rw [loss_update, update_zero (by cases medium <;> rfl)]
    cases medium <;> simp [loss]
  last := by
    show ((updatePacketLossCount medium {} (BitVec.ofInt 16 p)).loss
      medium).lastReceivedRtpPktSeq = BitVec.ofInt 16 p
    rw [loss_update, update_zero (by cases medium <;> rfl)]
  distinct := List.nodup_singleton p
  highest := List.mem_singleton.mpr rfl
  within := fun q hq => by
    rw [List.mem_singleton.mp hq]
    exact ⟨le_refl p, le_refl p⟩

theorem counted_step (hs : s.Counted medium) (hp : s.Near p) (hcountable : s.Countable p) :
    (s.receive medium p).Counted medium := by
  have hexact := (exact_step hs hp).mpr hcountable
  obtain ⟨hnew, hfirst, hnear⟩ := hp
  have hne : p ≠ s.highest := fun hsame => hnew (hsame ▸ hs.highest)
  rw [abs_lt] at hnear
  refine
    { exact := hexact
      last := ?_
      distinct := List.nodup_cons.mpr ⟨hnew, hs.distinct⟩
      highest := ?_
      within := ?_ }
  · show ((updatePacketLossCount medium s.statistics (BitVec.ofInt 16 p)).loss
      medium).lastReceivedRtpPktSeq = BitVec.ofInt 16 (max s.highest p)
    rw [loss_update]
    by_cases hzero : (s.statistics.loss medium).lastReceivedRtpPktSeq = 0
    · rw [update_zero hzero]
      rw [hs.last, seq_eq_zero] at hzero
      rw [max_eq_right (by have hnext := hcountable.1 hzero; omega)]
    · rcases lt_or_gt_of_ne hne with hlate | hahead
      · have hcounted := lost_of_late hs hnew hfirst hlate
        have hcount := hs.exact
        unfold Exact at hcount
        rw [update_late hs.last hzero hlate (by omega) (by omega), max_eq_left hlate.le]
        exact hs.last
      · rw [update_ahead hs.last hzero hahead (by omega), max_eq_right hahead.le]
  · show max s.highest p ∈ p :: s.received
    rcases le_total s.highest p with hle | hle
    · rw [max_eq_right hle]
      exact List.mem_cons_self
    · rw [max_eq_left hle]
      exact List.mem_cons_of_mem p hs.highest
  · intro q hq
    show s.first ≤ q ∧ q ≤ max s.highest p
    rcases List.mem_cons.mp hq with rfl | hold
    · exact ⟨hfirst, le_max_right _ _⟩
    · obtain ⟨hlow, hhigh⟩ := hs.within q hold
      exact ⟨hlow, hhigh.trans (le_max_left _ _)⟩

/-! ## Whole streams -/

/-- The counter of a medium is exact after every packet of a stream if and only if every packet is
countable: only the next packet follows a highest number that is a multiple of 65536, and the
packets that are lost can be counted in 32 bits. -/
theorem loss_count_exact_iff {medium : Medium} {first : ℤ} {packets : List ℤ}
    (h : Along (receive medium) Near (start medium first) packets) :
    (∀ before after, packets = before ++ after →
        (before.foldl (receive medium) (start medium first)).Exact medium) ↔
      Along (receive medium) Countable (start medium first) packets := by
  rw [invariant_iff_along (I := Exact medium) (C := fun s p => (s.receive medium p).Exact medium)
    (fun _ _ _ => Iff.rfl) (counted_start medium first).exact]
  exact along_congr h (I := Counted medium) (fun s p hs hp => exact_step hs hp)
    (fun s p hs hp hcountable => counted_step hs hp hcountable) (counted_start medium first)

/-- A stream that starts before the wrap, with a packet that comes late. -/
theorem loss_count_exact_iff_late :
    (∀ before after, [65533, 65535, 65534, 65536, 65537, 65540] = before ++ after →
        (before.foldl (receive .video) (start .video 65532)).Exact .video) ↔
      Along (receive .video) Countable (start .video 65532)
        [65533, 65535, 65534, 65536, 65537, 65540] :=
  loss_count_exact_iff (by decide)

/-- The packet 65537 is lost, right after the number 0, and nothing is counted. -/
theorem loss_count_exact_fails :
    Along (receive .video) Near (start .video 65535) [65536, 65538] ∧
      ([65536, 65538].foldl (receive .video) (start .video 65535)).lost = 1 ∧
      ¬ ([65536, 65538].foldl (receive .video) (start .video 65535)).Exact .video := by
  refine ⟨by decide, by decide, ?_⟩
  unfold Exact
  decide

end Reception

end MiniRtc

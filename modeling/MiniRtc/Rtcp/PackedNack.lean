import MiniRtc.Rtp.Packet

/-!
# Lost packets as items of a NACK

`Nack::Pack` and `Nack::Unpack`. An item holds the number of one lost packet, and a bit for each of
the 16 packets that follow it.

The loops are followed bit by bit: the bits of an item are set in ascending order, so a number that
is packed into an item stands behind all numbers that the item had before (`unpack_bits_set`), and
the items of a list in ascending order give the list back (`unpack_pack`).
-/

namespace MiniRtc

/-- `Nack::PackedNack`. -/
structure PackedNack where
  firstPid : BitVec 16
  bitmask : BitVec 16
  deriving DecidableEq

namespace PackedNack

/-- The inner loop of `Pack`: the bit mask of an item, and the numbers that are left. -/
def packBits (firstPid bitmask : BitVec 16) : List (BitVec 16) → BitVec 16 × List (BitVec 16)
  | [] => (bitmask, [])
  | id :: ids =>
      let shift := id - firstPid - 1
      if shift ≤ 15 then packBits firstPid (bitmask ||| (1 : BitVec 16) <<< shift.toNat) ids
      else (bitmask, id :: ids)

theorem pack_bits_suffix (firstPid : BitVec 16) (ids : List (BitVec 16)) :
    ∀ bitmask, (packBits firstPid bitmask ids).2 <:+ ids := by
  induction ids with
  | nil => exact fun _ => List.suffix_rfl
  | cons id ids ih =>
      intro bitmask
      unfold packBits
      dsimp only
      split_ifs with hshift
      · exact (ih _).trans (List.suffix_cons id ids)
      · exact List.suffix_rfl

/-- `Pack`. -/
def pack : List (BitVec 16) → List PackedNack
  | [] => []
  | id :: ids =>
      let bits := packBits id 0 ids
      ⟨id, bits.1⟩ :: pack bits.2
termination_by ids => ids.length
decreasing_by
  have hshorter := (pack_bits_suffix id ids 0).length_le
  simp only [List.length_cons]
  omega

/-- The inner loop of `Unpack`. -/
def unpackBits (bitmask pid : BitVec 16) : List (BitVec 16) :=
  if _h : bitmask = 0 then []
  else (if bitmask &&& 1 ≠ 0 then [pid] else []) ++ unpackBits (bitmask >>> 1) (pid + 1)
termination_by bitmask.toNat
decreasing_by
  have hpos : 0 < bitmask.toNat := Nat.pos_of_ne_zero fun hzero =>
    _h (BitVec.eq_of_toNat_eq hzero)
  rw [BitVec.toNat_ushiftRight, Nat.shiftRight_one]
  omega

/-- The numbers of an item. -/
def unpackItem (item : PackedNack) : List (BitVec 16) :=
  item.firstPid :: unpackBits item.bitmask (item.firstPid + 1)

/-- `Unpack`. -/
def unpack (items : List PackedNack) : List (BitVec 16) :=
  items.flatMap unpackItem

/-! ## The bits of an item -/

/-- The loop over a mask gives the positions of its bits in ascending order. -/
theorem unpack_bits_eq (size : Nat) : ∀ (bitmask pid : BitVec 16), bitmask.toNat < 2 ^ size →
    unpackBits bitmask pid =
      ((List.range size).filter (bitmask.getLsbD ·)).map (pid + BitVec.ofNat 16 ·) := by
  induction size with
  | zero =>
      intro bitmask pid hsmall
      obtain rfl : bitmask = 0 := BitVec.eq_of_toNat_eq (by simpa using hsmall)
      rw [unpackBits]
      rfl
  | succ size ih =>
      intro bitmask pid hsmall
      have htail : (bitmask >>> 1).toNat < 2 ^ size := by
        rw [BitVec.toNat_ushiftRight, Nat.shiftRight_one]
        omega
      have hbits : ∀ i, (bitmask >>> 1).getLsbD i = bitmask.getLsbD (i + 1) := by
        intro i
        rw [BitVec.getLsbD_ushiftRight, Nat.add_comm]
      have hlow : (bitmask &&& 1 ≠ 0) ↔ bitmask.getLsbD 0 = true := by
        rw [show (1 : BitVec 16) = BitVec.twoPow 16 0 from rfl, BitVec.and_twoPow]
        cases bitmask.getLsbD 0
        · simp
        · exact iff_of_true (by decide) rfl
      have hrange : (List.range (size + 1)).filter (bitmask.getLsbD ·) =
          (if bitmask.getLsbD 0 then [0] else []) ++
            ((List.range size).filter ((bitmask >>> 1).getLsbD ·)).map (· + 1) := by
        rw [List.range_succ_eq_map, List.filter_cons, List.filter_map]
        simp only [Function.comp_def, hbits]
        split_ifs <;> rfl
      have hshift : ((List.range size).filter ((bitmask >>> 1).getLsbD ·)).map
          ((pid + BitVec.ofNat 16 ·) ∘ (· + 1)) = unpackBits (bitmask >>> 1) (pid + 1) := by
        rw [ih _ _ htail]
        refine List.map_congr_left fun i _ => ?_
        show pid + BitVec.ofNat 16 (i + 1) = pid + 1 + BitVec.ofNat 16 i
        rw [BitVec.ofNat_add, BitVec.add_assoc, BitVec.add_comm (BitVec.ofNat 16 i)]
        rfl
      rw [hrange, List.map_append, List.map_map, hshift, unpackBits]
      by_cases hzero : bitmask = 0
      · subst hzero
        rw [unpackBits]
        simp
      · rw [dif_neg hzero]
        congr 1
        by_cases hbit : bitmask.getLsbD 0 = true
        · rw [if_pos (hlow.mpr hbit), if_pos hbit]
          simp
        · rw [if_neg (mt hlow.mp hbit), if_neg hbit]
          rfl

/-- A bit above all others is the last one of a mask. -/
theorem unpack_bits_set {bitmask : BitVec 16} (pid : BitVec 16) {shift : Nat} (hshift : shift ≤ 15)
    (hsmall : bitmask.toNat < 2 ^ shift) :
    unpackBits (bitmask ||| (1 : BitVec 16) <<< shift) pid =
        unpackBits bitmask pid ++ [pid + BitVec.ofNat 16 shift] ∧
      (bitmask ||| (1 : BitVec 16) <<< shift).toNat < 2 ^ (shift + 1) := by
  have hone : (1 : BitVec 16) <<< shift = BitVec.twoPow 16 shift := rfl
  have hvalue : (BitVec.twoPow 16 shift).toNat = 2 ^ shift := by
    rw [BitVec.toNat_twoPow, Nat.mod_eq_of_lt (Nat.pow_lt_pow_right (by decide) (by omega))]
  have hlarge : (bitmask ||| (1 : BitVec 16) <<< shift).toNat < 2 ^ (shift + 1) := by
    have hpow : 2 ^ shift < 2 ^ (shift + 1) := Nat.pow_lt_pow_right (by decide) (by omega)
    rw [hone, BitVec.toNat_or, hvalue]
    exact Nat.or_lt_two_pow (hsmall.trans hpow) hpow
  refine ⟨?_, hlarge⟩
  have hbelow : (List.range shift).filter
      ((bitmask ||| (1 : BitVec 16) <<< shift).getLsbD ·) =
        (List.range shift).filter (bitmask.getLsbD ·) := by
    refine List.filter_congr fun i hi => ?_
    have hi' := List.mem_range.mp hi
    rw [hone, BitVec.getLsbD_or, BitVec.getLsbD_twoPow]
    simp [show shift ≠ i by omega]
  have htop : (bitmask ||| (1 : BitVec 16) <<< shift).getLsbD shift = true := by
    rw [hone, BitVec.getLsbD_or, BitVec.getLsbD_twoPow]
    simp [show shift < 16 by omega]
  rw [unpack_bits_eq (shift + 1) _ _ hlarge, unpack_bits_eq shift _ _ hsmall, List.range_succ,
    List.filter_append, hbelow, List.map_append, List.filter_cons, if_pos htop]
  rfl

end PackedNack

/-- Lost packets in the order of a request: each number is ahead of all numbers before it. -/
def OldestFirst (ids : List (BitVec 16)) : Prop :=
  ids.Pairwise fun earlier later => earlier ≠ later ∧ (later - earlier).toNat < 2 ^ 15

namespace OldestFirst

variable {id : BitVec 16} {ids : List (BitVec 16)}

/-- Behind the first number, a number before another one has the smaller shift. -/
theorem shift_lt {first next : BitVec 16} (h : OldestFirst (first :: next :: ids)) :
    ∀ later ∈ ids, (next - first - 1).toNat < (later - first - 1).toNat := by
  intro later hlater
  obtain ⟨hfirst, hrest⟩ := List.pairwise_cons.mp h
  obtain ⟨hnext, -⟩ := List.pairwise_cons.mp hrest
  obtain ⟨hne, hnear⟩ := hfirst next List.mem_cons_self
  obtain ⟨hne', hnear'⟩ := hfirst later (List.mem_cons_of_mem _ hlater)
  obtain ⟨hne'', hnear''⟩ := hnext later hlater
  bv_omega

theorem drop_second {first next : BitVec 16} (h : OldestFirst (first :: next :: ids)) :
    OldestFirst (first :: ids) :=
  List.Pairwise.sublist (List.Sublist.cons_cons first (List.sublist_cons_self next ids)) h

theorem of_suffix {rest : List (BitVec 16)} (h : OldestFirst ids) (hrest : rest <:+ ids) :
    OldestFirst rest :=
  List.Pairwise.sublist hrest.sublist h

/-- The numbers span less than half of the circle, so there are not more of them. -/
theorem length_le (h : OldestFirst ids) : ids.length ≤ 2 ^ 15 := by
  match ids, h with
  | [], _ => exact Nat.zero_le _
  | first :: rest, h =>
      obtain ⟨hfirst, hrest⟩ := List.pairwise_cons.mp h
      have hnodup : (rest.map fun id => (id - first).toNat).Nodup := by
        refine List.pairwise_map.mpr (hrest.imp fun hpair => ?_)
        obtain ⟨hne, -⟩ := hpair
        bv_omega
      have hsubset : (rest.map fun id => (id - first).toNat) ⊆
          (List.range (2 ^ 15 - 1)).map (· + 1) := by
        intro offset hoffset
        obtain ⟨id, hid, rfl⟩ := List.mem_map.mp hoffset
        obtain ⟨hne, hnear⟩ := hfirst id hid
        refine List.mem_map.mpr ⟨(id - first).toNat - 1, List.mem_range.mpr ?_, ?_⟩ <;> bv_omega
      have hcard := (hnodup.subperm hsubset).length_le
      simp only [List.length_map, List.length_range] at hcard
      rw [List.length_cons]
      omega

end OldestFirst

namespace PackedNack

/-- The numbers that go into an item stand behind those it has, and the others are left. -/
theorem pack_bits_unpack (firstPid : BitVec 16) (ids : List (BitVec 16)) :
    ∀ (bitmask : BitVec 16) (bound : Nat), OldestFirst (firstPid :: ids) →
      bitmask.toNat < 2 ^ bound → (∀ id ∈ ids, bound ≤ (id - firstPid - 1).toNat) →
      unpackBits (packBits firstPid bitmask ids).1 (firstPid + 1) ++
          (packBits firstPid bitmask ids).2 =
        unpackBits bitmask (firstPid + 1) ++ ids := by
  induction ids with
  | nil => exact fun _ _ _ _ _ => rfl
  | cons id ids ih =>
      intro bitmask bound hordered hsmall hbound
      unfold packBits
      dsimp only
      split_ifs with hshift
      · have hshift' : (id - firstPid - 1).toNat ≤ 15 := hshift
        have hmask : bitmask.toNat < 2 ^ (id - firstPid - 1).toNat :=
          hsmall.trans_le (Nat.pow_le_pow_right (by decide) (hbound id List.mem_cons_self))
        obtain ⟨hset, hlarger⟩ := unpack_bits_set (firstPid + 1) hshift' hmask
        have hlast : firstPid + 1 + BitVec.ofNat 16 (id - firstPid - 1).toNat = id := by
          rw [BitVec.ofNat_toNat, BitVec.setWidth_eq]
          bv_omega
        rw [ih _ _ hordered.drop_second hlarger hordered.shift_lt, hset, hlast,
          List.append_assoc]
        rfl
      · rfl

/-- The items of a list give it back. -/
theorem unpack_pack (ids : List (BitVec 16)) : OldestFirst ids → unpack (pack ids) = ids := by
  induction ids using pack.induct with
  | case1 =>
      intro _
      rw [pack]
      rfl
  | case2 id ids bits ih =>
      intro h
      have hempty : unpackBits 0 (id + 1) = [] := by
        rw [unpackBits]
        rfl
      have hbits : unpackBits bits.1 (id + 1) ++ bits.2 = unpackBits 0 (id + 1) ++ ids :=
        pack_bits_unpack id ids 0 0 h (by decide) fun _ _ => Nat.zero_le _
      have hrest : OldestFirst bits.2 :=
        h.of_suffix ((pack_bits_suffix id ids 0).trans (List.suffix_cons id ids))
      rw [pack]
      show id :: unpackBits bits.1 (id + 1) ++ unpack (pack bits.2) = id :: ids
      rw [ih hrest, List.cons_append, hbits, hempty]
      rfl

/-- An item holds one number or more. -/
theorem pack_length_le (ids : List (BitVec 16)) : (pack ids).length ≤ ids.length := by
  induction ids using pack.induct with
  | case1 =>
      rw [pack]
      rfl
  | case2 id ids bits ih =>
      have hrest : bits.2.length ≤ ids.length := (pack_bits_suffix id ids 0).length_le
      rw [pack]
      show (pack bits.2).length + 1 ≤ ids.length + 1
      omega

theorem pack_ne_nil {ids : List (BitVec 16)} (h : ids ≠ []) : pack ids ≠ [] := by
  match ids, h with
  | id :: ids, _ =>
      rw [pack]
      exact List.cons_ne_nil _ _

end PackedNack

end MiniRtc

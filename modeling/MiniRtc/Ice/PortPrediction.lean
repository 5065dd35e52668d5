import Mathlib.Data.List.Nodup
import MiniRtc.Foundation.Run
import MiniRtc.Foundation.Text

/-!
# The prediction of remote ports

`RemotePortPredictor` of `nat_traversal.h`. An observed port is new to its group, or it is ignored.
From the second observation on, `Observe` returns ports that the remote side may use next: the
continuation of the observations when they proceed in equal steps (`linearStep`), or the ports
around the last one.

`PredictorRun` records the calls and all that was returned. `predictor_sound` is about whole runs:
the numbers of groups, observations and predictions are bounded, and each returned port is new.
-/

namespace MiniRtc

open Text Run

/-! ## The functions of the source -/

/-- `RemotePortPredictor::Group`. -/
structure PortGroup where
  observed : List (BitVec 16) := []
  predicted : List (BitVec 16) := []

/-- `RemotePortPredictor`. `names` are the keys of `groups_`. -/
structure RemotePortPredictor where
  names : List Text := []
  groups : Text → PortGroup := fun _ => {}
  predictions : Nat := 0

/-- All steps between the ports are equal to the given one. -/
def keepsStep (step : ℤ) : BitVec 16 → List (BitVec 16) → Bool
  | _, [] => true
  | last, next :: rest => (next.toNat : ℤ) - last.toNat = step ∧ keepsStep step next rest

/-- The step of the observations, or 0 when there is none. -/
def linearStep : List (BitVec 16) → ℤ
  | first :: second :: third :: rest =>
      let step := (second.toNat : ℤ) - first.toNat
      let step := if keepsStep step second (third :: rest) then step else 0
      if step < -64 ∨ 64 < step then 0 else step
  | _ => 0

/-- The distance of the `i`-th candidate from the port. -/
def candidateOffset (step : ℤ) (i : Nat) : ℤ :=
  if step ≠ 0 then step * i else ((i + 1) / 2 : Nat) * (if i % 2 = 1 then 1 else -1)

/-- The variables of the loop over the candidates. -/
structure PortLoop where
  predicted : List (BitVec 16)
  predictions : Nat
  result : List (BitVec 16) := []

namespace RemotePortPredictor

/-- `kMaxPredictions`. -/
def kMaxPredictions : Nat := 32

/-- One turn of the loop. -/
def predictNext (observed : List (BitVec 16)) (port : BitVec 16) (step : ℤ) (s : PortLoop)
    (i : Nat) : PortLoop :=
  if kMaxPredictions ≤ s.predictions then s
  else
    let candidate := (port.toNat : ℤ) + candidateOffset step i
    if candidate < 1024 ∨ 65535 < candidate ∨ BitVec.ofInt 16 candidate ∈ observed ∨
        BitVec.ofInt 16 candidate ∈ s.predicted then s
    else
      { predicted := BitVec.ofInt 16 candidate :: s.predicted
        predictions := s.predictions + 1
        result := s.result ++ [BitVec.ofInt 16 candidate] }

/-- The loop over the candidates. -/
def predict (observed : List (BitVec 16)) (port : BitVec 16) (s : PortLoop) : PortLoop :=
  (List.range' 1 8).foldl (predictNext observed port (linearStep observed)) s

/-- `Observe`. -/
def observe (s : RemotePortPredictor) (group : Text) (port : BitVec 16) :
    RemotePortPredictor × List (BitVec 16) :=
  if port = 0 ∨ (group ∉ s.names ∧ 8 ≤ s.names.length) then (s, [])
  else
    let s := if group ∈ s.names then s else { s with names := s.names ++ [group] }
    let state := s.groups group
    if port ∈ state.observed ∨ 8 ≤ state.observed.length then (s, [])
    else
      let observed := state.observed ++ [port]
      if observed.length < 2 ∨ kMaxPredictions ≤ s.predictions then
        ({ s with groups := Function.update s.groups group { state with observed } }, [])
      else
        let loop := predict observed port
          { predicted := state.predicted, predictions := s.predictions }
        ({ s with
            groups := Function.update s.groups group { observed, predicted := loop.predicted }
            predictions := loop.predictions }, loop.result)

/-! ## The loop -/

variable {observed predicted : List (BitVec 16)} {port p : BitVec 16} {predictions : Nat}
  {step : ℤ} {s : PortLoop}

/-- What the loop has returned so far. -/
structure Looped (observed predicted : List (BitVec 16)) (port : BitVec 16) (predictions : Nat)
    (step : ℤ) (s : PortLoop) : Prop where
  counted : s.predictions = predictions + s.result.length
  bounded : s.predictions ≤ kMaxPredictions
  recorded : ∀ p, p ∈ s.predicted ↔ p ∈ s.result ∨ p ∈ predicted
  distinct : s.result.Nodup
  fresh : ∀ p ∈ s.result, p ∉ predicted ∧ p ∉ observed ∧ 1024 ≤ p.toNat
  offset : ∀ p ∈ s.result, ∃ i, 1 ≤ i ∧ i ≤ 8 ∧
    (p.toNat : ℤ) = port.toNat + candidateOffset step i

theorem looped_next (hs : Looped observed predicted port predictions step s) {i : Nat}
    (hlow : 1 ≤ i) (hhigh : i ≤ 8) :
    Looped observed predicted port predictions step (predictNext observed port step s i) := by
  unfold predictNext
  split
  · exact hs
  next hmore =>
  simp only
  split
  · exact hs
  next hcandidate =>
  push Not at hcandidate
  obtain ⟨hmin, hmax, hobserved, hpredicted⟩ := hcandidate
  have hvalue : ((BitVec.ofInt 16 ((port.toNat : ℤ) + candidateOffset step i)).toNat : ℤ) =
      port.toNat + candidateOffset step i := by
    rw [BitVec.toNat_ofInt, Int.toNat_of_nonneg (Int.emod_nonneg _ (by decide))]
    refine Int.emod_eq_of_lt (by omega) ?_
    show _ < (65536 : ℤ)
    omega
  generalize hq : BitVec.ofInt 16 ((port.toNat : ℤ) + candidateOffset step i) = q at *
  have hnew : q ∉ s.result := fun hin => hpredicted ((hs.recorded q).mpr (Or.inl hin))
  have hold : q ∉ predicted := fun hin => hpredicted ((hs.recorded q).mpr (Or.inr hin))
  have hcases : ∀ p ∈ s.result ++ [q], p ∈ s.result ∨ p = q := fun p hp =>
    (List.mem_append.mp hp).imp_right List.mem_singleton.mp
  exact
    { counted := by
        show s.predictions + 1 = predictions + (s.result ++ [q]).length
        rw [List.length_append, hs.counted]
        rfl
      bounded := Nat.lt_of_not_le hmore
      recorded := fun p => by
        show p ∈ q :: s.predicted ↔ p ∈ s.result ++ [q] ∨ p ∈ predicted
        rw [List.mem_cons, List.mem_append, List.mem_singleton, hs.recorded]
        tauto
      distinct := List.nodup_append.mpr ⟨hs.distinct, List.nodup_singleton q,
        fun p hp q' hq' hsame => hnew (by
          rw [List.mem_singleton.mp hq'] at hsame
          rwa [← hsame])⟩
      fresh := fun p hp => by
        rcases hcases p hp with hin | rfl
        · exact hs.fresh p hin
        · exact ⟨hold, hobserved, by omega⟩
      offset := fun p hp => by
        rcases hcases p hp with hin | rfl
        · exact hs.offset p hin
        · exact ⟨i, hlow, hhigh, hvalue⟩ }

theorem looped_start (hpredictions : predictions ≤ kMaxPredictions) :
    Looped observed predicted port predictions step { predicted, predictions } where
  counted := rfl
  bounded := hpredictions
  recorded := fun p => by simp
  distinct := List.nodup_nil
  fresh := fun p hp => by cases hp
  offset := fun p hp => by cases hp

theorem looped_predict (hpredictions : predictions ≤ kMaxPredictions) :
    Looped observed predicted port predictions (linearStep observed)
      (predict observed port { predicted, predictions }) := by
  refine List.foldlRecOn (List.range' 1 8) _ (looped_start hpredictions) fun s hs i hi => ?_
  have hrange := List.mem_range'_1.mp hi
  exact looped_next hs hrange.1 (by omega)

/-! ## Equal steps -/

/-- The observations proceed in equal steps. -/
def Progression (step : ℤ) (observed : List (BitVec 16)) : Prop :=
  observed.IsChain fun last next => (next.toNat : ℤ) - last.toNat = step

theorem keeps_step_iff (last : BitVec 16) (rest : List (BitVec 16)) :
    keepsStep step last rest = true ↔ Progression step (last :: rest) := by
  induction rest generalizing last with
  | nil => simp [keepsStep, Progression]
  | cons next rest ih =>
      unfold Progression at ih ⊢
      rw [keepsStep, decide_eq_true_iff, List.isChain_cons_cons, ih]

/-- Three or more observations in equal steps of 64 at most are continued. -/
theorem linear_step_of_progression (hlength : 3 ≤ observed.length)
    (hprogression : Progression step observed) (hlow : -64 ≤ step) (hhigh : step ≤ 64) :
    linearStep observed = step := by
  match observed, hlength, hprogression with
  | first :: second :: third :: rest, _, hprogression =>
      have hfirst : (second.toNat : ℤ) - first.toNat = step :=
        (List.isChain_cons_cons.mp hprogression).1
      have hrest : Progression step (second :: third :: rest) :=
        (List.isChain_cons_cons.mp hprogression).2
      unfold linearStep
      simp only
      rw [hfirst, if_pos ((keeps_step_iff _ _).mpr hrest), if_neg (by omega)]

/-! ## One call -/

/-- The keys after `groups_[group]`. -/
structure Named (s : RemotePortPredictor) (group : Text) (names : List Text) : Prop where
  bounded : names.length ≤ 8
  self : group ∈ names
  kept : ∀ other ∈ s.names, other ∈ names
  added : ∀ other ∈ names, other ∈ s.names ∨ other = group
  longer : s.names.length ≤ names.length

/-- What a call of `Observe` can do. -/
inductive Observes (s : RemotePortPredictor) (group : Text) (port : BitVec 16) :
    RemotePortPredictor × List (BitVec 16) → Prop
  | ignored (h : port = 0 ∨ port ∈ (s.groups group).observed ∨
        8 ≤ (s.groups group).observed.length ∨ (group ∉ s.names ∧ 8 ≤ s.names.length)) :
      Observes s group port (s, [])
  | observed (names : List Text) (loop : PortLoop)
      (hnames : s.Named group names)
      (hnew : port ∉ (s.groups group).observed)
      (hroom : (s.groups group).observed.length < 8)
      (hnamed : group ∈ s.names ∨ s.names.length < 8)
      (hloop : Looped ((s.groups group).observed ++ [port]) (s.groups group).predicted port
        s.predictions (linearStep ((s.groups group).observed ++ [port])) loop) :
      Observes s group port
        ({ names
           groups := Function.update s.groups group
            { observed := (s.groups group).observed ++ [port], predicted := loop.predicted }
           predictions := loop.predictions }, loop.result)

theorem observe_cases (s : RemotePortPredictor) (group : Text) (port : BitVec 16)
    (hpredictions : s.predictions ≤ kMaxPredictions) (hnames : s.names.length ≤ 8)
    (hunnamed : group ∉ s.names → s.groups group = {}) :
    Observes s group port (s.observe group port) := by
  unfold observe
  split
  next hrefused =>
    refine .ignored ?_
    tauto
  next haccepted =>
  push Not at haccepted
  obtain ⟨-, hroom⟩ := haccepted
  generalize hs : (if group ∈ s.names then s else { s with names := s.names ++ [group] }) = t
  have hkept : t.groups = s.groups ∧ t.predictions = s.predictions ∧ s.Named group t.names := by
    rw [← hs]
    split
    next hin => exact ⟨rfl, rfl, ⟨hnames, hin, fun _ h => h, fun _ h => Or.inl h, le_refl _⟩⟩
    next hout =>
      have hlonger : (s.names ++ [group]).length = s.names.length + 1 := by
        rw [List.length_append, List.length_singleton]
      have hlength := hroom hout
      refine ⟨rfl, rfl,
        { bounded := ?_
          self := List.mem_append_right _ List.mem_cons_self
          kept := fun other h => List.mem_append_left _ h
          added := fun other h => (List.mem_append.mp h).imp_right List.mem_singleton.mp
          longer := ?_ }⟩
      · show (s.names ++ [group]).length ≤ 8
        omega
      · show s.names.length ≤ (s.names ++ [group]).length
        omega
  obtain ⟨hgroups, hcount, hnamed⟩ := hkept
  have hnamed' : group ∈ s.names ∨ s.names.length < 8 := by
    by_cases hin : group ∈ s.names
    · exact Or.inl hin
    · exact Or.inr (hroom hin)
  simp only
  rw [hgroups, hcount]
  split
  next hrefused =>
    -- A group that is new has no observations, so nothing has changed.
    have hin : group ∈ s.names := by
      by_contra hout
      rw [hunnamed hout] at hrefused
      simp at hrefused
    rw [if_pos hin] at hs
    rw [← hs]
    refine .ignored ?_
    tauto
  next haccepted =>
  push Not at haccepted
  split
  next hfew =>
    have hloop : Looped ((s.groups group).observed ++ [port]) (s.groups group).predicted port
        s.predictions (linearStep ((s.groups group).observed ++ [port]))
        { predicted := (s.groups group).predicted, predictions := s.predictions } :=
      looped_start hpredictions
    have hobserves := Observes.observed t.names _ hnamed haccepted.1 haccepted.2 hnamed' hloop
    rwa [← hcount] at hobserves ⊢
  next hmore =>
    exact .observed t.names _ hnamed haccepted.1 haccepted.2 hnamed' (looped_predict hpredictions)

end RemotePortPredictor

/-! ## Runs -/

/-- The predictor, with the calls and with the ports that it has returned. -/
structure PredictorRun where
  predictor : RemotePortPredictor := {}
  calls : List (Text × BitVec 16) := []
  returned : List (Text × BitVec 16) := []

namespace PredictorRun

open RemotePortPredictor

/-- One call of `Observe`. -/
def step (r : PredictorRun) (call : Text × BitVec 16) : PredictorRun :=
  let (predictor, ports) := r.predictor.observe call.1 call.2
  { predictor
    calls := r.calls ++ [call]
    returned := r.returned ++ ports.map fun port => (call.1, port) }

/-- The bounds of the predictor. No port is returned twice for one group. -/
structure Within (r : PredictorRun) : Prop where
  total : r.returned.length = r.predictor.predictions
  predictions : r.predictor.predictions ≤ 32
  groups : r.predictor.names.length ≤ 8
  observations : ∀ group, (r.predictor.groups group).observed.length ≤ 8
  distinct : r.returned.Nodup

/-- The ports that a call returns: they are in the range, and they have not been observed in the
group. Observations in equal steps are continued. -/
structure Predicts (r : PredictorRun) (call : Text × BitVec 16) : Prop where
  range : ∀ port ∈ (r.predictor.observe call.1 call.2).2, 1024 ≤ port.toNat ∧ port.toNat ≤ 65535
  unobserved : ∀ port ∈ (r.predictor.observe call.1 call.2).2,
    (call.1, port) ∉ r.calls ++ [call]
  continued : ∀ step : ℤ, 1 ≤ step.natAbs → step.natAbs ≤ 64 →
    3 ≤ ((r.predictor.observe call.1 call.2).1.groups call.1).observed.length →
    Progression step ((r.predictor.observe call.1 call.2).1.groups call.1).observed →
    ∀ port ∈ (r.predictor.observe call.1 call.2).2,
      ∃ i : Nat, 1 ≤ i ∧ i ≤ 8 ∧ (port.toNat : ℤ) = call.2.toNat + step * i

/-- The invariant of the runs. -/
structure Observing (r : PredictorRun) : Prop where
  within : r.Within
  named : ∀ group ∉ r.predictor.names, r.predictor.groups group = {}
  recorded : ∀ entry ∈ r.returned, entry.2 ∈ (r.predictor.groups entry.1).predicted
  called : ∀ call ∈ r.calls, call.2 = 0 ∨ call.2 ∈ (r.predictor.groups call.1).observed ∨
    8 ≤ (r.predictor.groups call.1).observed.length ∨
    (call.1 ∉ r.predictor.names ∧ 8 ≤ r.predictor.names.length)

variable {r : PredictorRun} {call : Text × BitVec 16}

/-- What has been called is refused in the future. -/
theorem unobserved_of_called (hr : r.Observing) {group : Text} {port : BitVec 16}
    (hport : port ≠ 0) (hnew : port ∉ (r.predictor.groups group).observed)
    (hroom : (r.predictor.groups group).observed.length < 8)
    (hnamed : group ∈ r.predictor.names ∨ r.predictor.names.length < 8) :
    (group, port) ∉ r.calls := by
  intro hin
  rcases hr.called _ hin with hzero | hobserved | hfull | ⟨hout, hgroups⟩
  · exact hport hzero
  · exact hnew hobserved
  · exact absurd hfull (Nat.not_le.mpr hroom)
  · rcases hnamed with hin | hless
    · exact hout hin
    · omega

/-- The ports that a call returns are as they should be. -/
theorem predicts_of_observing (hr : r.Observing) (call : Text × BitVec 16) : r.Predicts call := by
  have hcases := observe_cases r.predictor call.1 call.2 hr.within.predictions hr.within.groups
    (hr.named call.1)
  generalize hresult : r.predictor.observe call.1 call.2 = result at hcases
  cases hcases with
  | ignored h =>
      exact
        { range := fun port hport => by rw [hresult] at hport; cases hport
          unobserved := fun port hport => by rw [hresult] at hport; cases hport
          continued := fun step _ _ _ _ port hport => by rw [hresult] at hport; cases hport }
  | observed names loop hnames hnew hroom hnamed hloop =>
      exact
        { range := fun port hport => by
            rw [hresult] at hport
            have hbits := port.isLt
            exact ⟨(hloop.fresh port hport).2.2, by omega⟩
          unobserved := fun port hport hin => by
            rw [hresult] at hport
            obtain ⟨-, hfresh, hmin⟩ := hloop.fresh port hport
            rw [List.mem_append, not_or] at hfresh
            rcases List.mem_append.mp hin with hbefore | hnow
            · refine unobserved_of_called hr (fun hzero => ?_) hfresh.1 hroom hnamed hbefore
              rw [hzero] at hmin
              exact absurd hmin (by decide)
            · have hsame := congrArg Prod.snd (List.mem_singleton.mp hnow)
              exact hfresh.2 (List.mem_singleton.mpr hsame)
          continued := fun step hlow hhigh hlength hprogression port hport => by
            rw [hresult] at hport hlength hprogression
            simp only [Function.update_self] at hlength hprogression
            obtain ⟨i, hi, hi', hoffset⟩ := hloop.offset port hport
            rw [linear_step_of_progression hlength hprogression (by omega) (by omega)] at hoffset
            unfold candidateOffset at hoffset
            rw [if_pos (by omega)] at hoffset
            exact ⟨i, hi, hi', hoffset⟩ }

theorem observing_step (hr : r.Observing) (call : Text × BitVec 16) : (r.step call).Observing := by
  obtain ⟨group, port⟩ := call
  have hcases := observe_cases r.predictor group port hr.within.predictions hr.within.groups
    (hr.named group)
  unfold step
  generalize r.predictor.observe group port = result at hcases
  cases hcases with
  | ignored h =>
      exact
        { within :=
            { hr.within with
              total := by
                show (r.returned ++ []).length = r.predictor.predictions
                rw [List.append_nil]
                exact hr.within.total
              distinct := by
                show (r.returned ++ []).Nodup
                rw [List.append_nil]
                exact hr.within.distinct }
          named := hr.named
          recorded := fun entry hentry => by
            rcases List.mem_append.mp hentry with hold | hnothing
            · exact hr.recorded entry hold
            · cases hnothing
          called := fun call hcall => by
            rcases List.mem_append.mp hcall with hold | hnow
            · exact hr.called call hold
            · rw [List.mem_singleton.mp hnow]
              exact h }
  | observed names loop hnames hnew hroom hnamed hloop =>
      have hother : ∀ {other : Text}, other ≠ group → Function.update r.predictor.groups group
          { observed := (r.predictor.groups group).observed ++ [port]
            predicted := loop.predicted } other = r.predictor.groups other :=
        fun hne => Function.update_of_ne hne _ _
      have hself : Function.update r.predictor.groups group
          { observed := (r.predictor.groups group).observed ++ [port]
            predicted := loop.predicted } group =
          { observed := (r.predictor.groups group).observed ++ [port]
            predicted := loop.predicted } := Function.update_self _ _ _
      refine
        { within :=
            { total := ?_
              predictions := hloop.bounded
              groups := hnames.bounded
              observations := fun other => ?_
              distinct := ?_ }
          named := fun other hout => ?_
          recorded := fun entry hentry => ?_
          called := fun call hcall => ?_ }
      · show (r.returned ++ loop.result.map fun port => (group, port)).length = loop.predictions
        rw [List.length_append, List.length_map, hr.within.total, hloop.counted]
      · show (Function.update r.predictor.groups group _ other).observed.length ≤ 8
        by_cases hsame : other = group
        · rw [hsame, hself]
          show ((r.predictor.groups group).observed ++ [port]).length ≤ 8
          rw [List.length_append, List.length_singleton]
          omega
        · rw [hother hsame]
          exact hr.within.observations other
      · -- What the loop returns is fresh: it was not recorded in the group before.
        show (r.returned ++ loop.result.map fun port => (group, port)).Nodup
        refine List.nodup_append.mpr ⟨hr.within.distinct, ?_, ?_⟩
        · exact hloop.distinct.map fun p q hpq => congrArg Prod.snd hpq
        · intro entry hold other hnew hsame
          obtain ⟨port, hport, rfl⟩ := List.mem_map.mp hnew
          subst hsame
          exact (hloop.fresh port hport).1 (hr.recorded _ hold)
      · have hne : other ≠ group := fun hsame => hout (hsame ▸ hnames.self)
        show Function.update r.predictor.groups group _ other = {}
        rw [hother hne]
        exact hr.named other fun hin => hout (hnames.kept other hin)
      · show entry.2 ∈ (Function.update r.predictor.groups group _ entry.1).predicted
        rcases List.mem_append.mp hentry with hold | hnow
        · -- Older entries of the group stay recorded, and other groups are left alone.
          have hbefore := hr.recorded entry hold
          by_cases hsame : entry.1 = group
          · rw [hsame] at hbefore ⊢
            rw [hself]
            exact (hloop.recorded _).mpr (Or.inr hbefore)
          · rw [hother hsame]
            exact hbefore
        · obtain ⟨port, hport, rfl⟩ := List.mem_map.mp hnow
          show port ∈ (Function.update r.predictor.groups group _ group).predicted
          rw [hself]
          exact (hloop.recorded _).mpr (Or.inl hport)
      · show call.2 = 0 ∨ call.2 ∈ (Function.update r.predictor.groups group _ call.1).observed ∨
          8 ≤ (Function.update r.predictor.groups group _ call.1).observed.length ∨
          (call.1 ∉ names ∧ 8 ≤ names.length)
        rcases List.mem_append.mp hcall with hold | hnow
        · have hbefore := hr.called call hold
          by_cases hsame : call.1 = group
          · rw [hsame] at hbefore ⊢
            rw [hself]
            rcases hbefore with hzero | hobserved | hfull | ⟨hout, hgroups⟩
            · exact Or.inl hzero
            · exact Or.inr (Or.inl (List.mem_append_left _ hobserved))
            · omega
            · rcases hnamed with hin | hless
              · exact absurd hin hout
              · omega
          · rw [hother hsame]
            rcases hbefore with hzero | hobserved | hfull | ⟨hout, hgroups⟩
            · exact Or.inl hzero
            · exact Or.inr (Or.inl hobserved)
            · exact Or.inr (Or.inr (Or.inl hfull))
            · refine Or.inr (Or.inr (Or.inr ⟨fun hin => ?_, hgroups.trans hnames.longer⟩))
              rcases hnames.added _ hin with hold | hnew
              · exact hout hold
              · exact hsame hnew
        · rw [List.mem_singleton.mp hnow]
          rw [hself]
          exact Or.inr (Or.inl (List.mem_append_right _ List.mem_cons_self))

theorem observing_start : ({} : PredictorRun).Observing where
  within :=
    { total := rfl
      predictions := Nat.zero_le _
      groups := Nat.zero_le _
      observations := fun _ => Nat.zero_le _
      distinct := List.nodup_nil }
  named := fun _ _ => rfl
  recorded := fun entry hentry => by cases hentry
  called := fun call hcall => by cases hcall

/-- In all runs, the bounds hold, and each call returns ports as it should. -/
theorem predictor_sound (calls : List (Text × BitVec 16)) :
    (calls.foldl step {}).Within ∧ Along step Predicts {} calls := by
  have hruns : (calls.foldl step {}).Observing :=
    List.foldlRecOn calls step observing_start fun _ hr call _ => observing_step hr call
  have halong : Along step Predicts ({} : PredictorRun) calls :=
    along_of_invariant (I := Observing) (fun _ call hr => observing_step hr call)
      (fun _ call hr => predicts_of_observing hr call) observing_start calls
  exact ⟨hruns.within, halong⟩

end PredictorRun

end MiniRtc

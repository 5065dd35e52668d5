import MiniRtc.Signaling.PeerMap

/-!
# One terminal status for each connection

Statuses are reported after the lock of the map has been released. A terminal status is made when a
connection is taken out of the map, so it is made once, and it is pending (`Terminal`) until its
thread reports it: `terminal_once` needs no condition. The other statuses are checked and reported
in two steps, or they are not checked at all. When each of them is reported while its connection is
still in the map (`ReportsCurrent`), nothing follows a terminal status of a connection.
-/

namespace MiniRtc

open Text Threads Run

namespace PeerSystem

open PeerConnection System

variable {userId : Text} {s : PeerSystem} {a : PeerAction} {op : Operation} {rest : List Operation}
  {connection : Nat}

/-- The operation reports a terminal status of the connection. -/
def Terminal (connection : Nat) : Operation → Prop
  | .report other status => other = some connection ∧ isTerminalConnectionStatus status = true
  | _ => False

instance (connection : Nat) : DecidablePred (Terminal connection)
  | .report other status =>
      inferInstanceAs
        (Decidable (other = some connection ∧ isTerminalConnectionStatus status = true))
  | .replaceOrCreate .. | .initialized .. | .retire .. | .checkCurrent .. | .release _
  | .deliver .. | .push _ | .clear | .wait | .exit | .process _ | .handled | .destroy _ =>
      isFalse id

/-- Only a terminal status of another connection, or none, has been reported before. -/
def MayFollow (earlier later : Option Nat × ConnectionStatus) : Prop :=
  isTerminalConnectionStatus earlier.2 = true →
    ∀ connection, earlier.1 = some connection → later.1 ≠ some connection

/-- The status of a connection that an action reports. -/
def reported (s : PeerSystem) : PeerAction → Option (Nat × ConnectionStatus)
  | .run t =>
      match s.todo t with
      | .report (some connection) status :: _ => some (connection, status)
      | _ => none
  | _ => none

/-- A status that is not terminal is reported while its connection is in the map. -/
def ReportsCurrent (s : PeerSystem) (a : PeerAction) : Prop :=
  ∀ entry ∈ s.reported a, isTerminalConnectionStatus entry.2 = false → s.shared.Current entry.1

instance (s : PeerSystem) (a : PeerAction) : Decidable (s.ReportsCurrent a) :=
  inferInstanceAs (Decidable (∀ entry ∈ s.reported a,
    isTerminalConnectionStatus entry.2 = false → s.shared.Current entry.1))

/-- A terminal status of the connection has been reported. -/
def Ended (s : PeerConnection) (connection : Nat) : Prop :=
  ∃ entry ∈ s.statuses, entry.1 = some connection ∧ isTerminalConnectionStatus entry.2 = true

/-- The invariant: a connection that has not been taken out of the map has no terminal status, one
that has been has at most one, which is pending or reported. -/
structure Ending (connection : Nat) (s : PeerSystem) : Prop where
  placed : s.shared.Placed
  checked : s.Everywhere fun _ op => ∀ user other status,
    op = .checkCurrent user other status → isTerminalConnectionStatus status = false
  exclusive : s.Exclusive (Terminal connection)
  quiet : s.shared.Unremoved connection →
    ¬ s.Pending (Terminal connection) ∧ ¬ Ended s.shared connection
  pending : s.Pending (Terminal connection) → ¬ Ended s.shared connection
  once : (s.shared.statuses.filter fun entry =>
    entry.1 = some connection ∧ isTerminalConnectionStatus entry.2).length ≤ 1

/-! ## What operations make -/

/-- A status of a transport that is checked is not terminal. -/
theorem made_checked {new : Operation} {shared : PeerConnection} (hnew : new ∈ (exec shared op).2)
    (user : Text) (other : Nat) (status : ConnectionStatus) :
    new ≠ .checkCurrent user other status := by
  intro hcheck
  rw [hcheck] at hnew
  cases makes_of_mem hnew

/-- What is started reports no terminal status of a connection. -/
theorem starts_quiet {t : Thread} {shared : PeerConnection} {program : List Operation}
    (h : Starts s a t shared program) : ∀ new ∈ program, ¬ Terminal connection new := by
  cases h with
  | signal signal =>
      have hprogram := signal_program s.shared signal
      generalize s.shared.processSignal signal = program at hprogram
      cases hprogram <;> simp [Terminal, isTerminalConnectionStatus]
  | signalLost => simp [Terminal]
  | leave n => simp [Terminal]
  | destroy n => simp [Terminal]
  | status n other status =>
      unfold statusProgram
      split <;> simp [Terminal]

/-- What is started checks statuses that are not terminal. -/
theorem starts_checked {t : Thread} {shared : PeerConnection} {program : List Operation}
    (h : Starts s a t shared program) : ∀ new ∈ program, ∀ user other status,
      new = .checkCurrent user other status → isTerminalConnectionStatus status = false := by
  intro new hnew user other status hcheck
  rw [hcheck] at hnew
  cases h with
  | signal signal =>
      have hprogram := signal_program s.shared signal
      generalize s.shared.processSignal signal = program at hprogram hnew
      cases hprogram <;> simp at hnew
  | signalLost => simp at hnew
  | leave n => simp at hnew
  | destroy n => simp at hnew
  | status n other status =>
      unfold statusProgram at hnew
      split at hnew
      · simp at hnew
      · next hterminal =>
          cases List.mem_singleton.mp hnew
          simpa using hterminal

/-- The statuses of the connections that are cleared: one for each. -/
theorem cleared_once {connections : List Nat} (h : connections.Nodup) :
    (connections.flatMap fun other =>
      [Operation.report (some other) .closed, .release other]).countP
        (fun op => Terminal connection op) ≤ 1 := by
  have hcount : (connections.flatMap fun other =>
      [Operation.report (some other) .closed, .release other]).countP
        (fun op => Terminal connection op) = connections.count connection := by
    clear h
    induction connections with
    | nil => rfl
    | cons other connections ih =>
        rw [List.flatMap_cons, List.countP_append, ih, List.count_cons, Nat.add_comm]
        congr 1
        by_cases hsame : other = connection
        · simp [Terminal, isTerminalConnectionStatus, hsame, List.countP_cons]
          rfl
        · simp [Terminal, isTerminalConnectionStatus, hsame, List.countP_cons]
          rfl
  rw [hcount]
  exact List.nodup_iff_count_le_one.mp h connection

/-- An operation makes a terminal status of a connection once at most, and only when it takes the
connection out of the map. -/
theorem made_terminal {shared : PeerConnection} (hplaced : shared.Placed)
    (hchecked : ∀ user other status, op = .checkCurrent user other status →
      isTerminalConnectionStatus status = false) :
    (∀ new ∈ (exec shared op).2, ¬ Terminal connection new) ∨
      (shared.Current connection ∧ ¬ (exec shared op).1.Unremoved connection ∧
        (exec shared op).2.countP (fun new => Terminal connection new) ≤ 1) := by
  have hquiet : ∀ {made : List Operation}, (∀ new ∈ made, ∀ other status,
      new ≠ .report other status) → ∀ new ∈ made, ¬ Terminal connection new := by
    intro made hmade new hnew hterminal
    cases new with
    | report other status => exact hmade _ hnew other status rfl
    | _ => exact hterminal.elim
  have hchange := map_change shared op
  generalize exec shared op = result at hchange
  obtain ⟨after, made⟩ := result
  cases hchange with
  | kept hmap hconnections hmade =>
      refine Or.inl fun new hnew hterminal => ?_
      cases new with
      | report other status =>
          obtain ⟨rfl, hstatus⟩ := hterminal
          obtain ⟨user, hcheck⟩ := hmade connection status hnew hstatus
          rw [hchecked user connection status hcheck] at hstatus
          cases hstatus
      | _ => exact hterminal.elim
  | created user msg init hafter =>
      refine Or.inl (hquiet fun new hnew other status hreport => ?_)
      rw [hreport] at hnew
      have hmakes : Makes (.replaceOrCreate user msg init) (.report other status) :=
        makes_of_mem (s := shared) hnew
      cases hmakes
  | erased user other hcurrent hmap hconnections hmade =>
      obtain ⟨status, later, rfl, hlater⟩ := hmade
      by_cases hsame : other = connection
      · subst hsame
        refine Or.inr ⟨current_of_map hplaced hcurrent,
          removed_of_erased hplaced hconnections hcurrent hmap, ?_⟩
        have hzero : later.countP (fun new => Terminal other new) = 0 :=
          List.countP_eq_zero.mpr fun new hnew hterminal =>
            hquiet hlater new hnew (by simpa using hterminal)
        rw [List.countP_cons, hzero, Nat.zero_add]
        split_ifs <;> omega
      · refine Or.inl fun new hnew hterminal => ?_
        rcases List.mem_cons.mp hnew with rfl | hin
        · exact hsame (Option.some.inj hterminal.1)
        · exact hquiet hlater new hin hterminal
  | cleared hmap hconnections hmade =>
      obtain ⟨later, rfl, hlater⟩ := hmade
      by_cases hcurrent : shared.Current connection
      · refine Or.inr ⟨hcurrent, ?_, ?_⟩
        · rintro (⟨user, -, hin⟩ | hnew)
          · rw [hmap] at hin
            cases hin
          · have hlength := length_of_current hcurrent
            rw [hconnections] at hnew
            omega
        · have hzero : later.countP (fun new => Terminal connection new) = 0 :=
            List.countP_eq_zero.mpr fun new hnew hterminal =>
              hquiet hlater new hnew (by simpa using hterminal)
          rw [List.countP_append, hzero, Nat.add_zero]
          exact cleared_once (List.nodup_range.filter _)
      · refine Or.inl fun new hnew hterminal => ?_
        rcases List.mem_append.mp hnew with hcleared | hin
        · obtain ⟨other, hother, rfl | rfl⟩ := clear_made hcleared
          · rw [Option.some.inj hterminal.1] at hother
            exact hcurrent hother
          · exact hterminal.elim
        · exact hquiet hlater new hin hterminal

/-- Statuses are recorded by reports only. -/
theorem statuses_kept {shared : PeerConnection} (h : ∀ other status, op ≠ .report other status) :
    (exec shared op).1.statuses = shared.statuses := by
  cases op with
  | report other status => exact absurd rfl (h other status)
  | retire user other status =>
      show (shared.retirePeerConnection user other status).1.statuses = _
      unfold retirePeerConnection
      split_ifs <;> rfl
  | wait =>
      show shared.waitForWork.1.statuses = _
      unfold waitForWork
      split
      · rfl
      · split_ifs
        · rfl
        · split <;> rfl
  | process msg =>
      show (shared.processIceWorkMsg msg).1.statuses = _
      unfold processIceWorkMsg
      split
      · rfl
      · split
        · rfl
        · split <;> rfl
  | destroy stage => cases stage <;> rfl
  | _ => rfl

/-! ## Steps -/

theorem pending_start (userId : Text) : ¬ (start userId).Pending (Terminal connection) := by
  rintro ⟨t, op, hop, hterminal⟩
  cases t with
  | iceWorker =>
      rw [List.mem_singleton.mp hop] at hterminal
      exact hterminal
  | _ => cases hop

/-- A report is recorded. A terminal one was the only one that was pending. -/
theorem report_ending (hs : s.Ending connection) {t : Thread} {other : Option Nat}
    {status : ConnectionStatus} (h : s.todo t = .report other status :: rest) :
    Ending connection (s.next t
      { s.shared with statuses := s.shared.statuses ++ [(other, status)] } [] rest) := by
  have hin : Operation.report other status ∈ s.todo t := by
    rw [h]
    exact List.mem_cons_self
  have hnothing : ∀ new ∈ ([] : List Operation), ¬ Terminal connection new := by
    intro new hnew
    cases hnew
  by_cases hterminal : Terminal connection (.report other status)
  · have hpending : s.Pending (Terminal connection) := ⟨t, _, hin, hterminal⟩
    have hspent : ¬ System.Pending (Terminal connection) (s.next t
        { s.shared with statuses := s.shared.statuses ++ [(other, status)] } [] rest) :=
      hs.exclusive.spent h hterminal hnothing
    exact
      { placed := hs.placed
        checked := hs.checked.next (rest_suffix h) fun new hnew => by cases hnew
        exclusive := exclusive_of_not_pending hspent
        quiet := fun hunremoved => absurd hpending (hs.quiet hunremoved).1
        pending := fun hagain => absurd hagain hspent
        once := by
          have hnone : (s.shared.statuses.filter fun entry =>
              entry.1 = some connection ∧ isTerminalConnectionStatus entry.2) = [] :=
            List.filter_eq_nil_iff.mpr fun entry hentry hended =>
              hs.pending hpending ⟨entry, hentry, by simpa using hended⟩
          show ((s.shared.statuses ++ [(other, status)]).filter _).length ≤ 1
          rw [List.filter_append, hnone]
          exact List.length_filter_le _ _ }
  · have hended : Ended { s.shared with statuses := s.shared.statuses ++ [(other, status)] }
        connection → Ended s.shared connection := by
      rintro ⟨entry, hentry, hentries⟩
      rcases List.mem_append.mp hentry with hold | hnew
      · exact ⟨entry, hold, hentries⟩
      · rw [List.mem_singleton.mp hnew] at hentries
        exact absurd hentries hterminal
    exact
      { placed := hs.placed
        checked := hs.checked.next (rest_suffix h) fun new hnew => by cases hnew
        exclusive := hs.exclusive.next (rest_suffix h) hnothing
        quiet := fun hunremoved =>
          ⟨not_pending_next (hs.quiet hunremoved).1 (rest_suffix h) hnothing,
            fun hafter => (hs.quiet hunremoved).2 (hended hafter)⟩
        pending := fun hpending hafter =>
          not_pending_next (fun hbefore => hs.pending hbefore (hended hafter)) (rest_suffix h)
            hnothing hpending
        once := by
          show ((s.shared.statuses ++ [(other, status)]).filter _).length ≤ 1
          have hother : ([(other, status)].filter fun entry =>
              entry.1 = some connection ∧ isTerminalConnectionStatus entry.2) = [] := by
            refine List.filter_eq_nil_iff.mpr fun entry hentry hended => hterminal ?_
            rw [List.mem_singleton.mp hentry] at hended
            have hboth : other = some connection ∧ isTerminalConnectionStatus status = true := by
              simpa using hended
            exact hboth
          rw [List.filter_append, hother, List.append_nil]
          exact hs.once }

/-- A step that reports nothing, and that makes no terminal status of the connection. -/
theorem ending_next (hs : s.Ending connection) {t : Thread} {shared : PeerConnection}
    {made : List Operation} (hrest : rest <:+ s.todo t) (hplaced : shared.Placed)
    (hunremoved : shared.Unremoved connection → s.shared.Unremoved connection)
    (hstatuses : shared.statuses = s.shared.statuses)
    (hchecked : ∀ new ∈ made, ∀ user other status, new = .checkCurrent user other status →
      isTerminalConnectionStatus status = false)
    (hmade : ∀ new ∈ made, ¬ Terminal connection new) :
    Ending connection (s.next t shared made rest) := by
  have hended : Ended shared connection → Ended s.shared connection := by
    unfold Ended
    rw [hstatuses]
    exact id
  exact
    { placed := hplaced
      checked := hs.checked.next hrest hchecked
      exclusive := hs.exclusive.next hrest hmade
      quiet := fun h =>
        ⟨not_pending_next (hs.quiet (hunremoved h)).1 hrest hmade,
          fun hafter => (hs.quiet (hunremoved h)).2 (hended hafter)⟩
      pending := fun hpending hafter =>
        not_pending_next (fun hbefore => hs.pending hbefore (hended hafter)) hrest hmade hpending
      once := by
        show (shared.statuses.filter _).length ≤ 1
        rw [hstatuses]
        exact hs.once }

theorem ending_step (hs : s.Ending connection) (a : PeerAction) :
    (step s a).Ending connection := by
  rcases step_cases s a with hsame | ⟨t, shared, program, hstarts, hidle, hstep⟩ |
    ⟨t, op, rest, rfl, htodo, hstep⟩
  · rw [hsame]
    exact hs
  · rw [hstep]
    have hquiet : ∀ new ∈ program, ¬ Terminal connection new := starts_quiet hstarts
    have hchecked := starts_checked hstarts
    cases hstarts <;>
      exact ending_next hs List.nil_suffix hs.placed (fun h => h) rfl hchecked hquiet
  · rw [hstep]
    have hin : op ∈ s.todo t := by
      rw [htodo]
      exact List.mem_cons_self
    have hplaced := placed_exec hs.placed op
    have hnew : ∀ new ∈ (exec s.shared op).2, ∀ user other status,
        new = .checkCurrent user other status → isTerminalConnectionStatus status = false :=
      fun new hnew user other status hcheck => absurd hcheck (made_checked hnew user other status)
    by_cases hreport : ∃ other status, op = .report other status
    · obtain ⟨other, status, rfl⟩ := hreport
      exact report_ending hs htodo
    · have hstatuses : (exec s.shared op).1.statuses = s.shared.statuses :=
        statuses_kept fun other status hop => hreport ⟨other, status, hop⟩
      rcases made_terminal hs.placed (hs.checked t op hin) with hmade | ⟨hcurrent, hremoved, hmade⟩
      · exact ending_next hs (rest_suffix htodo) hplaced (unremoved_exec op) hstatuses hnew hmade
      · -- The connection leaves the map here, so nothing was pending or reported before.
        obtain ⟨hquiet, hunended⟩ := hs.quiet (Or.inl hcurrent)
        exact
          { placed := hplaced
            checked := hs.checked.next (rest_suffix htodo) hnew
            exclusive := exclusive_of_made hquiet (rest_suffix htodo) hmade
            quiet := fun hunremoved => absurd hunremoved hremoved
            pending := fun _ hafter => hunended (by
              unfold Ended at hafter ⊢
              rwa [shared_next, hstatuses] at hafter)
            once := by
              show ((exec s.shared op).1.statuses.filter _).length ≤ 1
              rw [hstatuses]
              exact hs.once }

theorem ending_start (userId : Text) : (start userId).Ending connection where
  placed := fun user other h => by cases h
  checked := fun t op hop user other status hcheck => by
    cases t with
    | iceWorker =>
        rw [List.mem_singleton.mp hop] at hcheck
        cases hcheck
    | _ => cases hop
  exclusive := exclusive_of_not_pending (pending_start userId)
  quiet := fun _ => ⟨pending_start userId, fun ⟨entry, hentry, _⟩ => by cases hentry⟩
  pending := fun _ ⟨entry, hentry, _⟩ => by cases hentry
  once := Nat.zero_le 1

/-- In all runs, a connection has at most one terminal status. -/
theorem terminal_once (userId : Text) (actions : List PeerAction) (connection : Nat) :
    ((actions.foldl step (start userId)).shared.statuses.filter fun entry =>
      entry.1 = some connection ∧ isTerminalConnectionStatus entry.2).length ≤ 1 :=
  (List.foldlRecOn actions step (motive := fun s : PeerSystem => s.Ending connection)
    (ending_start userId) fun _ hs a _ => ending_step hs a).once

/-! ## Statuses after a terminal one -/

/-- A step records one status at most, the one that its thread reports. -/
theorem statuses_step (s : PeerSystem) (a : PeerAction) :
    (step s a).shared.statuses = s.shared.statuses ∨
      ∃ t other status rest, a = .run t ∧ s.todo t = .report other status :: rest ∧
        (step s a).shared.statuses = s.shared.statuses ++ [(other, status)] := by
  rcases step_cases s a with hsame | ⟨t, shared, program, hstarts, hidle, hstep⟩ |
    ⟨t, op, rest, rfl, htodo, hstep⟩
  · exact Or.inl (by rw [hsame])
  · refine Or.inl ?_
    rw [hstep]
    cases hstarts <;> rfl
  · rw [hstep]
    by_cases hreport : ∃ other status, op = .report other status
    · obtain ⟨other, status, rfl⟩ := hreport
      exact Or.inr ⟨t, other, status, rest, rfl, htodo, rfl⟩
    · exact Or.inl (statuses_kept fun other status hop => hreport ⟨other, status, hop⟩)

/-- What is reported while its connection is in the map, or is terminal, may follow all before. -/
theorem may_follow_step (hs : ∀ connection, s.Ending connection) (hcurrent : s.ReportsCurrent a)
    (hbefore : s.shared.statuses.Pairwise MayFollow) :
    (step s a).shared.statuses.Pairwise MayFollow := by
  rcases statuses_step s a with hsame | ⟨t, other, status, rest, rfl, htodo, hstatuses⟩
  · rw [hsame]
    exact hbefore
  · rw [hstatuses]
    refine List.pairwise_append.mpr ⟨hbefore, List.pairwise_singleton _ _, ?_⟩
    intro earlier hearlier later hlater hterminal connection hconnection hsame
    rw [List.mem_singleton.mp hlater] at hsame
    subst hsame
    have hended : Ended s.shared connection := ⟨earlier, hearlier, hconnection, hterminal⟩
    cases hstatus : isTerminalConnectionStatus status with
    | true =>
        refine (hs connection).pending ⟨t, .report (some connection) status, ?_, rfl, hstatus⟩ hended
        rw [htodo]
        exact List.mem_cons_self
    | false =>
        have hreported : (connection, status) ∈ s.reported (.run t) := by
          unfold reported
          simp only [htodo]
          rfl
        exact ((hs connection).quiet (Or.inl (hcurrent _ hreported hstatus))).2 hended

/-- In every run in which a status that is not terminal is reported while its connection is in the
map, a connection has no status after a terminal one. -/
theorem one_terminal_status {userId : Text} {actions : List PeerAction}
    (hcurrent : Along step ReportsCurrent (start userId) actions) :
    (actions.foldl step (start userId)).shared.statuses.Pairwise MayFollow :=
  (hcurrent.invariant
    (I := fun s : PeerSystem =>
      (∀ connection, s.Ending connection) ∧ s.shared.statuses.Pairwise MayFollow)
    (fun _ a hs h =>
      ⟨fun connection => ending_step (hs.1 connection) a, may_follow_step hs.1 h hs.2⟩)
    ⟨fun _ => ending_start userId, List.Pairwise.nil⟩).2

/-- A user joins, its transport reports that it is connected, and the application leaves. The
transport goes on after the leave when it is `late`. -/
def leaveConnected (late : Bool) : List PeerAction :=
  let goOn := PeerAction.run (.transport 0)
  let leave := [.leave 0, .run (.application 0), .run (.application 0)]
  .signal (.userJoinTransmission ['t'] ['b'] true true) ::
    List.replicate 4 (PeerAction.run .websocket) ++
    .status 0 0 .connected :: goOn :: (if late then leave ++ [goOn] else goOn :: leave)

/-- When the application leaves after the transport has reported, the connection is closed last. -/
theorem one_terminal_status_left :
    ((leaveConnected false).foldl step (start ['a'])).shared.statuses.Pairwise MayFollow :=
  one_terminal_status (by decide)

/-- When the application leaves between the check and the report, the connection is reported closed
and then connected. -/
theorem one_terminal_status_fails :
    ((leaveConnected true).foldl step (start ['a'])).shared.statuses =
        [(some 0, .closed), (some 0, .connected)] ∧
      ¬ ((leaveConnected true).foldl step (start ['a'])).shared.statuses.Pairwise MayFollow := by
  have hstatuses : ((leaveConnected true).foldl step (start ['a'])).shared.statuses =
      [(some 0, .closed), (some 0, .connected)] := by decide
  refine ⟨hstatuses, fun hfollow => ?_⟩
  rw [hstatuses] at hfollow
  have hlate := List.rel_of_pairwise_cons hfollow List.mem_cons_self
  exact hlate rfl 0 rfl rfl

end PeerSystem

end MiniRtc

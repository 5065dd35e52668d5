import MiniRtc.Signaling.PeerThreads

/-!
# The map of the connections

A connection enters `peer_connection_map_` once, when it is created, and it never comes back:
`Unremoved` says that a connection is in the map or is not created yet, and no operation makes it
true again (`unremoved_exec`). An operation that takes connections out of the map is listed by
`Removal`, with what it leaves to its thread.
-/

namespace MiniRtc

open Text Threads

namespace PeerConnection

variable {before after s : PeerConnection} {op : Operation} {user : Text} {connection : Nat}

/-- The connections in the map were created for their users. -/
def Placed (s : PeerConnection) : Prop :=
  ∀ user connection, s.peerConnectionMap user = some connection →
    s.connections[connection]? = some user

/-- The connection has not been taken out of the map. -/
def Unremoved (s : PeerConnection) (connection : Nat) : Prop :=
  s.Current connection ∨ s.connections.length ≤ connection

theorem current_of_map (hs : s.Placed) (h : s.peerConnectionMap user = some connection) :
    s.Current connection :=
  ⟨user, hs user connection h, h⟩

theorem length_of_current (h : s.Current connection) : connection < s.connections.length := by
  obtain ⟨user, hin, -⟩ := h
  exact (List.getElem?_eq_some_iff.mp hin).1

/-! ## What a smaller map keeps -/

theorem placed_of_subset (hs : before.Placed) (hconnections : after.connections = before.connections)
    (hmap : ∀ user connection, after.peerConnectionMap user = some connection →
      before.peerConnectionMap user = some connection) : after.Placed := by
  intro user connection h
  rw [hconnections]
  exact hs user connection (hmap user connection h)

theorem unremoved_of_subset (hconnections : after.connections = before.connections)
    (hmap : ∀ user connection, after.peerConnectionMap user = some connection →
      before.peerConnectionMap user = some connection)
    (h : after.Unremoved connection) : before.Unremoved connection := by
  rcases h with ⟨user, hin, hcurrent⟩ | hnew
  · rw [hconnections] at hin
    exact Or.inl ⟨user, hin, hmap user connection hcurrent⟩
  · rw [hconnections] at hnew
    exact Or.inr hnew

theorem erased_subset {other : Text} (h : s.erased user other = some connection) :
    s.peerConnectionMap other = some connection := by
  unfold erased at h
  by_cases hsame : other = user
  · rw [hsame, Function.update_self] at h
    cases h
  · rwa [Function.update_of_ne hsame] at h

/-- What is erased for its user has left the map. -/
theorem removed_of_erased (hs : before.Placed) (hconnections : after.connections = before.connections)
    (hcurrent : before.peerConnectionMap user = some connection)
    (hmap : after.peerConnectionMap = before.erased user) : ¬ after.Unremoved connection := by
  have hplace := hs user connection hcurrent
  rintro (⟨other, hin, hother⟩ | hnew)
  · rw [hconnections, hplace] at hin
    cases hin
    rw [hmap] at hother
    unfold erased at hother
    rw [Function.update_self] at hother
    cases hother
  · rw [hconnections] at hnew
    have hlength := length_of_current (current_of_map hs hcurrent)
    omega

/-! ## Operations -/

/-- A new connection is in the map, and only the one that it replaces has left it. -/
theorem unremoved_replaceOrCreate {msg : IceWorkMsg} {init : Bool}
    (h : (s.replaceOrCreate user msg init).1.Unremoved connection) : s.Unremoved connection := by
  rcases h with ⟨other, hin, hcurrent⟩ | hnew
  · by_cases hlast : connection < s.connections.length
    · refine Or.inl ⟨other, ?_, ?_⟩
      · have hplace : (s.connections ++ [user])[connection]? = some other := hin
        rwa [List.getElem?_append_left hlast] at hplace
      · have hmap : Function.update s.peerConnectionMap user (some s.connections.length) other =
            some connection := hcurrent
        by_cases hsame : other = user
        · rw [hsame, Function.update_self] at hmap
          have hlength := Option.some.inj hmap
          omega
        · rwa [Function.update_of_ne hsame] at hmap
    · exact Or.inr (Nat.le_of_not_lt hlast)
  · have hlength : (s.connections ++ [user]).length ≤ connection := hnew
    rw [List.length_append] at hlength
    exact Or.inr (by omega)

theorem placed_replaceOrCreate (hs : s.Placed) {msg : IceWorkMsg} {init : Bool} :
    (s.replaceOrCreate user msg init).1.Placed := by
  intro other connection h
  have hmap : Function.update s.peerConnectionMap user (some s.connections.length) other =
      some connection := h
  show (s.connections ++ [user])[connection]? = some other
  by_cases hsame : other = user
  · rw [hsame, Function.update_self] at hmap
    rw [← Option.some.inj hmap, hsame]
    exact List.getElem?_concat_length
  · rw [Function.update_of_ne hsame] at hmap
    have hold := hs other connection hmap
    rw [List.getElem?_append_left (List.getElem?_eq_some_iff.mp hold).1]
    exact hold

/-- The ways in which an operation changes the map, with what it leaves to its thread. Where the map
is kept, terminal statuses come from checks only. -/
inductive MapChange (before after : PeerConnection) : Operation → List Operation → Prop
  | kept {op made} (hmap : after.peerConnectionMap = before.peerConnectionMap)
      (hconnections : after.connections = before.connections)
      (hmade : ∀ connection status, .report (some connection) status ∈ made →
        isTerminalConnectionStatus status = true →
        ∃ user, op = .checkCurrent user connection status) :
      MapChange before after op made
  | created (user : Text) (msg : IceWorkMsg) (init : Bool)
      (hafter : after = (before.replaceOrCreate user msg init).1) :
      MapChange before after (.replaceOrCreate user msg init)
        (before.replaceOrCreate user msg init).2
  | erased {op made} (user : Text) (connection : Nat)
      (hcurrent : before.peerConnectionMap user = some connection)
      (hmap : after.peerConnectionMap = before.erased user)
      (hconnections : after.connections = before.connections)
      (hmade : ∃ status rest, made = .report (some connection) status :: rest ∧
        ∀ new ∈ rest, ∀ other status, new ≠ .report other status) :
      MapChange before after op made
  | cleared {op made} (hmap : after.peerConnectionMap = fun _ => none)
      (hconnections : after.connections = before.connections)
      (hmade : ∃ rest, made = before.clearPeerConnections.2 ++ rest ∧
        ∀ new ∈ rest, ∀ other status, new ≠ .report other status) :
      MapChange before after op made

theorem map_change_retire (s : PeerConnection) (user : Text) (connection : Nat)
    (status : ConnectionStatus) :
    MapChange s (s.retirePeerConnection user connection status).1 (.retire user connection status)
      (s.retirePeerConnection user connection status).2 := by
  unfold retirePeerConnection
  split_ifs with h
  · exact .erased user connection h.1 rfl rfl ⟨status, [], rfl, fun new hnew => by cases hnew⟩
  · exact .kept rfl rfl fun other status hmade => by cases hmade

theorem map_change_process (s : PeerConnection) (msg : IceWorkMsg) :
    MapChange s (s.processIceWorkMsg msg).1 (.process msg) (s.processIceWorkMsg msg).2 := by
  unfold processIceWorkMsg
  split
  · exact .kept rfl rfl fun other status hmade => by cases hmade
  · split
    · exact .kept rfl rfl fun other status hmade => by cases hmade
    · next connection hcurrent =>
        split
        · refine .erased msg.remoteUserId connection hcurrent rfl rfl
            ⟨.closed, [.deliver connection msg], rfl, fun new hnew other status hreport => ?_⟩
          rw [List.mem_singleton.mp hnew] at hreport
          cases hreport
        · exact .kept rfl rfl fun other status hmade => by simp at hmade

/-- The worker takes nothing out of the map before it processes a message. -/
theorem wait_map (s : PeerConnection) :
    s.waitForWork.1.peerConnectionMap = s.peerConnectionMap ∧
      s.waitForWork.1.connections = s.connections := by
  unfold waitForWork
  split
  · exact ⟨rfl, rfl⟩
  · split_ifs
    · exact ⟨rfl, rfl⟩
    · split <;> exact ⟨rfl, rfl⟩

theorem map_change_wait (s : PeerConnection) :
    MapChange s s.waitForWork.1 .wait s.waitForWork.2 := by
  obtain ⟨hmap, hconnections⟩ := s.wait_map
  refine .kept hmap hconnections fun connection status hreport => ?_
  have hmakes : Makes .wait (.report (some connection) status) := makes_of_mem (s := s) hreport
  cases hmakes

/-- Every operation changes the map in one of the ways. -/
theorem map_change (s : PeerConnection) (op : Operation) :
    MapChange s (exec s op).1 op (exec s op).2 := by
  cases op with
  | replaceOrCreate user msg init => exact .created user msg init rfl
  | retire user connection status => exact map_change_retire s user connection status
  | process msg => exact map_change_process s msg
  | wait => exact map_change_wait s
  | clear =>
      exact .cleared rfl rfl ⟨[], (List.append_nil _).symm, fun new hnew => by cases hnew⟩
  | initialized user connection msg init =>
      refine .kept rfl rfl fun other status hreport hterminal => ?_
      cases makes_of_mem hreport with
      | connecting => cases hterminal
  | checkCurrent user connection status =>
      refine .kept rfl rfl fun other status hreport hterminal => ?_
      cases makes_of_mem hreport with
      | reportChecked => exact ⟨user, rfl⟩
  | destroy stage =>
      cases stage with
      | clear =>
          refine .cleared rfl rfl ⟨[.destroy .stopIceWorker], rfl, fun new hnew other status h => ?_⟩
          rw [List.mem_singleton.mp hnew] at h
          cases h
      | finish => exact .kept rfl rfl fun other status hreport => by cases hreport
      | _ => exact .kept rfl rfl fun other status hreport => by simp [exec, destroy] at hreport
  | _ => exact .kept rfl rfl fun other status hreport => by cases hreport

theorem placed_exec (hs : s.Placed) (op : Operation) : (exec s op).1.Placed := by
  cases map_change s op with
  | kept hmap hconnections =>
      exact placed_of_subset hs hconnections fun user connection h => by rwa [hmap] at h
  | created user msg init => exact placed_replaceOrCreate hs
  | erased user connection hcurrent hmap hconnections =>
      exact placed_of_subset hs hconnections fun user connection h => by
        rw [hmap] at h
        exact erased_subset h
  | cleared hmap hconnections =>
      exact placed_of_subset hs hconnections fun user connection h => by
        rw [hmap] at h
        cases h

/-- What has left the map does not come back. -/
theorem unremoved_exec (op : Operation) (h : (exec s op).1.Unremoved connection) :
    s.Unremoved connection := by
  cases map_change s op with
  | kept hmap hconnections =>
      exact unremoved_of_subset hconnections (fun user connection h => by rwa [hmap] at h) h
  | created user msg init => exact unremoved_replaceOrCreate h
  | erased user connection hcurrent hmap hconnections =>
      refine unremoved_of_subset hconnections (fun user connection h => ?_) h
      rw [hmap] at h
      exact erased_subset h
  | cleared hmap hconnections =>
      refine unremoved_of_subset hconnections (fun user connection h => ?_) h
      rw [hmap] at h
      cases h

end PeerConnection

end MiniRtc

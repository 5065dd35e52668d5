import Mathlib.Algebra.Group.Int.Defs
import MiniRtc.Foundation.FirstOccurrences
import MiniRtc.Foundation.Run
import MiniRtc.Ice.ServerUrl

/-!
# The configuration of ICE servers

`ParseIceServerConfiguration` of `ice_server_config.h`. The list of servers is read into a local
configuration, which is moved to the result when all of it has been accepted. `givenEndpoints` says
which endpoints a configuration gives, repetitions included.

`Listed` is the invariant of the two loops: the endpoints so far are the first occurrences of those
that were given, and an endpoint that was given again had the same credentials. One URL keeps it
(`add_url_listed`), and so do the loops (`add_servers_listed`).
-/

namespace MiniRtc

open Text FirstOccurrences

/-! ## The functions of the source -/

/-- `nlohmann::json`. The members of an object have different names. -/
inductive Json where
  | null
  | boolean (value : Bool)
  | integer (value : ℤ)
  | float
  | string (value : Text)
  | array (items : List Json)
  | object (members : List (String × Json))

namespace Json

/-- The member of an object, when it is one and contains it. -/
def find? (name : String) : Json → Option Json
  | object members => members.lookup name
  | _ => none

def integer? : Json → Option ℤ
  | integer value => some value
  | _ => none

def string? : Json → Option Text
  | string value => some value
  | _ => none

def array? : Json → Option (List Json)
  | array items => some items
  | _ => none

end Json

/-- `kMaxTurnEndpoints`. -/
def kMaxTurnEndpoints : Nat := 8

/-- `IceServerConfiguration`. -/
structure IceServerConfiguration where
  id : Text := []
  expiresAt : ℤ := 0
  servers : List IceServerEndpoint := []

/-- `Fresh`. -/
def IceServerConfiguration.fresh (config : IceServerConfiguration) (now : ℤ) : Bool :=
  !decide (config.expiresAt ≤ now + 5) &&
    config.servers.all fun server => !(server.turn && decide (server.expiresAt ≤ now + 5))

/-- `ReadIceExpiry`. -/
def readIceExpiry (object : Json) : Option ℤ := do
  let expiry ← object.find? "expires_at" >>= Json.integer?
  if expiry > 2 ^ 63 - 1 then none
  else if expiry > 0 then some expiry
  else none

/-- The part of `ParseIceServerConfiguration` for the credentials of a relay. -/
def readCredentials (server : Json) (endpoint : IceServerEndpoint) (now : ℤ) :
    Option IceServerEndpoint := do
  let username ← server.find? "username" >>= Json.string?
  let password ← server.find? "credential" >>= Json.string?
  let expiresAt ← readIceExpiry server
  if username = [] ∨ username.length > 512 ∨ password = [] ∨ password.length > 512 ∨
      '\x00' ∈ username ∨ '\x00' ∈ password ∨ expiresAt ≤ now + 5 then none
  else some { endpoint with username, password, expiresAt }

/-- The local variables of `ParseIceServerConfiguration`, with the number of readings of
`IceUnixTime`. Only the keys of `seen` are looked for. -/
structure ServerLoop where
  servers : List IceServerEndpoint := []
  seen : List (Text × Nat) := []
  stunCount : Nat := 0
  turnCount : Nat := 0
  urlCount : Nat := 0
  readings : Nat := 0

namespace ServerLoop

/-- What the loop does with an endpoint that has its credentials. -/
def addEndpoint (s : ServerLoop) (endpoint : IceServerEndpoint) : Option ServerLoop :=
  match s.seen.lookup endpoint.key with
  | some existing =>
      let previous := s.servers.getD existing {}
      if endpoint.username ≠ previous.username ∨ endpoint.password ≠ previous.password ∨
          endpoint.expiresAt ≠ previous.expiresAt then none
      else some s
  | none =>
      let s := { s with seen := (endpoint.key, s.servers.length) :: s.seen }
      if endpoint.turn then
        if s.turnCount + 1 > kMaxTurnEndpoints then none
        else
          some { s with turnCount := s.turnCount + 1, servers := s.servers ++ [endpoint] }
      else
        if s.stunCount + 1 > 8 then none
        else
          some { s with stunCount := s.stunCount + 1, servers := s.servers ++ [endpoint] }

/-- One turn of the inner loop. The clock is read for a relay only. -/
def addUrl (now : Nat → ℤ) (server : Json) (s : ServerLoop) (url : Json) : Option ServerLoop :=
  if s.urlCount + 1 > 32 then none
  else
    match url.string? >>= parseIceServerUrl with
    | none => none
    | some endpoint =>
        let s := { s with urlCount := s.urlCount + 1 }
        if endpoint.turn then
          match readCredentials server endpoint (now s.readings) with
          | none => none
          | some endpoint => { s with readings := s.readings + 1 }.addEndpoint endpoint
        else s.addEndpoint endpoint

end ServerLoop

/-- The URLs of a server. One that stands alone is taken as a list. -/
def urlsOf (server : Json) : Option (List Json) :=
  match server.find? "urls" with
  | some (.string url) => some [.string url]
  | some (.array urls) => if urls = [] then none else some urls
  | _ => none

/-- One turn of the outer loop. -/
def ServerLoop.addServer (now : Nat → ℤ) (s : ServerLoop) (server : Json) : Option ServerLoop := do
  let urls ← urlsOf server
  urls.foldlM (ServerLoop.addUrl now server) s

/-- The characters of an id. -/
def isIdChar (c : Char) : Bool :=
  c ∈ "0123456789abcdefABCDEF-".toList

/-- `ParseIceServerConfiguration` up to its last line. The clock gives `now n` at its reading
`n`. -/
def readIceServerConfiguration (now : Nat → ℤ) (ice : Json) : Option IceServerConfiguration := do
  let version ← ice.find? "version" >>= Json.integer?
  let id ← ice.find? "id" >>= Json.string?
  let servers ← ice.find? "servers" >>= Json.array?
  if version ≠ 1 ∨ servers.length > 16 ∨ id = [] ∨ id.length > 64 ∨ !id.all isIdChar then none
  else
    let expiresAt ← readIceExpiry ice
    let s ← servers.foldlM (ServerLoop.addServer now) {}
    let config : IceServerConfiguration := { id, expiresAt, servers := s.servers }
    if config.fresh (now s.readings) then some config else none

/-- `ParseIceServerConfiguration` with its last line. -/
def parseIceServerConfiguration (now : Nat → ℤ) (ice : Json) (result : IceServerConfiguration) :
    Bool × IceServerConfiguration :=
  match readIceServerConfiguration now ice with
  | none => (false, result)
  | some config => (true, config)

/-! ## What a configuration gives -/

namespace IceServerEndpoint

/-- What an endpoint is: its kind, host, port and transport. -/
def identity (e : IceServerEndpoint) : Bool × Text × BitVec 16 × Bool :=
  (e.turn, e.host, e.port, e.tcp)

/-- The credentials that a server has for its relays. -/
def withCredentials (e : IceServerEndpoint) (server : Json) : IceServerEndpoint :=
  { e with
    username := (server.find? "username" >>= Json.string?).getD []
    password := (server.find? "credential" >>= Json.string?).getD []
    expiresAt := (readIceExpiry server).getD 0 }

/-- Credentials that can be used. -/
structure HasCredentials (e : IceServerEndpoint) : Prop where
  username : e.username ≠ [] ∧ e.username.length ≤ 512 ∧ '\x00' ∉ e.username
  password : e.password ≠ [] ∧ e.password.length ≤ 512 ∧ '\x00' ∉ e.password
  expiry : 0 < e.expiresAt

end IceServerEndpoint

/-- The endpoint that one URL gives, unless it is not a URL. -/
def givenEndpoint (server url : Json) : Option IceServerEndpoint :=
  (url.string? >>= parseIceServerUrl).map fun e => if e.turn then e.withCredentials server else e

/-- What the URLs of a server give. -/
def givenByServer (server : Json) : List (Option IceServerEndpoint) :=
  ((urlsOf server).getD []).map (givenEndpoint server)

/-- What all URLs of a configuration give, in their order. -/
def givenEndpoints (ice : Json) : List (Option IceServerEndpoint) :=
  ((ice.find? "servers" >>= Json.array?).getD []).flatMap givenByServer

/-! ## The loops -/

/-- The lists of the loops after the given endpoints. -/
structure Listed (given : List IceServerEndpoint) (s : ServerLoop) : Prop where
  servers : s.servers = given.eraseDups
  same : ∀ a ∈ given, ∀ b ∈ given, a.key = b.key → a = b
  seen : ∀ key i, s.seen.lookup key = some i → ∃ e, s.servers[i]? = some e ∧ e.key = key
  unseen : ∀ key, s.seen.lookup key = none → ∀ e ∈ s.servers, e.key ≠ key
  turnCount : s.turnCount = s.servers.countP (·.turn)
  stunCount : s.stunCount = s.servers.countP (!·.turn)
  turns : s.turnCount ≤ kMaxTurnEndpoints
  stuns : s.stunCount ≤ 8

/-- Two endpoints with one key and one set of credentials are the same. -/
theorem endpoint_eq {e previous : IceServerEndpoint} (hkey : previous.key = e.key)
    (hname : e.username = previous.username) (hpassword : e.password = previous.password)
    (hexpiry : e.expiresAt = previous.expiresAt) : e = previous := by
  obtain ⟨hturn, hhost, hport, htcp⟩ := key_eq_iff.mp hkey
  obtain ⟨host, port, turn, tcp, username, password, expiresAt⟩ := e
  obtain ⟨host', port', turn', tcp', username', password', expiresAt'⟩ := previous
  simp only at hturn hhost hport htcp hname hpassword hexpiry
  rw [hturn, hhost, hport, htcp, hname, hpassword, hexpiry]

/-- An endpoint that was given before is not listed again. -/
theorem listed_again {given : List IceServerEndpoint} {s : ServerLoop} {e : IceServerEndpoint}
    (h : Listed given s) (hagain : e ∈ given) : Listed (given ++ [e]) s := by
  have hmem : ∀ a ∈ given ++ [e], a ∈ given := by
    intro a ha
    obtain ha | ha := List.mem_append.mp ha
    · exact ha
    · exact List.mem_singleton.mp ha ▸ hagain
  exact
    { h with
      servers := by
        rw [erase_dups_snoc, if_pos hagain]
        exact h.servers
      same := fun a ha b hb => h.same a (hmem a ha) b (hmem b hb) }

/-- An endpoint with a new key is listed at the end. -/
theorem listed_new {given : List IceServerEndpoint} {s : ServerLoop} {e : IceServerEndpoint}
    (h : Listed given s) (hnew : s.seen.lookup e.key = none) {turnCount stunCount : Nat}
    (hturns : turnCount = s.turnCount + if e.turn then 1 else 0)
    (hstuns : stunCount = s.stunCount + if e.turn then 0 else 1)
    (hturn : turnCount ≤ kMaxTurnEndpoints) (hstun : stunCount ≤ 8) :
    Listed (given ++ [e])
      { s with
        seen := (e.key, s.servers.length) :: s.seen
        servers := s.servers ++ [e]
        turnCount
        stunCount } := by
  have hkeys : ∀ a ∈ given, a.key ≠ e.key := by
    intro a ha
    refine h.unseen e.key hnew a ?_
    rw [h.servers]
    exact List.mem_eraseDups.mpr ha
  have hfresh : e ∉ given := fun hin => hkeys e hin rfl
  exact
    { servers := by
        rw [erase_dups_snoc, if_neg hfresh, ← h.servers]
      same := by
        intro a ha b hb hkey
        obtain ha | ha := List.mem_append.mp ha
        · obtain hb | hb := List.mem_append.mp hb
          · exact h.same a ha b hb hkey
          · rw [List.mem_singleton.mp hb] at hkey
            exact absurd hkey (hkeys a ha)
        · obtain hb | hb := List.mem_append.mp hb
          · rw [List.mem_singleton.mp ha] at hkey
            exact absurd hkey.symm (hkeys b hb)
          · exact (List.mem_singleton.mp ha).trans (List.mem_singleton.mp hb).symm
      seen := by
        intro key i hi
        rw [List.lookup_cons] at hi
        split at hi
        · next heq =>
          obtain rfl := Option.some.inj hi
          exact ⟨e, by simp, (eq_of_beq heq).symm⟩
        · obtain ⟨previous, hprevious, hkey⟩ := h.seen key i hi
          exact ⟨previous, by rw [List.getElem?_append_left
            (List.getElem?_eq_some_iff.mp hprevious).1, hprevious], hkey⟩
      unseen := by
        intro key hkey a ha
        rw [List.lookup_cons] at hkey
        split at hkey
        · cases hkey
        · next hne =>
          obtain ha | ha := List.mem_append.mp ha
          · exact h.unseen key hkey a ha
          · rw [List.mem_singleton.mp ha]
            rintro rfl
            simp at hne
      turnCount := by
        show turnCount = (s.servers ++ [e]).countP _
        rw [hturns, h.turnCount, List.countP_append, List.countP_singleton]
      stunCount := by
        show stunCount = (s.servers ++ [e]).countP _
        rw [hstuns, h.stunCount, List.countP_append, List.countP_singleton]
        cases e.turn <;> rfl
      turns := hturn
      stuns := hstun }

/-- An endpoint that is taken in is listed, and the clock is not read for it. -/
theorem add_endpoint_listed {given : List IceServerEndpoint} {s s' : ServerLoop}
    {e : IceServerEndpoint} (h : Listed given s) (hadd : s.addEndpoint e = some s') :
    Listed (given ++ [e]) s' ∧ s'.readings = s.readings := by
  unfold ServerLoop.addEndpoint at hadd
  cases hseen : s.seen.lookup e.key with
  | some i =>
      rw [hseen] at hadd
      obtain ⟨previous, hprevious, hkey⟩ := h.seen e.key i hseen
      have hget : s.servers.getD i {} = previous := by
        rw [List.getD_eq_getElem?_getD, hprevious]
        rfl
      simp only [hget] at hadd
      split at hadd
      · cases hadd
      · next hsame =>
        obtain rfl := Option.some.inj hadd
        simp only [ne_eq, not_or, not_not] at hsame
        have heq := endpoint_eq hkey hsame.1 hsame.2.1 hsame.2.2
        refine ⟨listed_again h ?_, rfl⟩
        rw [heq, ← List.mem_eraseDups, ← h.servers]
        exact List.mem_of_getElem? hprevious
  | none =>
      rw [hseen] at hadd
      simp only at hadd
      cases hturn : e.turn with
      | true =>
          rw [hturn, if_pos rfl] at hadd
          split at hadd
          · cases hadd
          · next hlimit =>
            obtain rfl := Option.some.inj hadd
            exact ⟨listed_new h hseen (by rw [hturn]; rfl) (by rw [hturn]; rfl)
              (Nat.not_lt.mp hlimit) h.stuns, rfl⟩
      | false =>
          rw [hturn, if_neg (by decide)] at hadd
          split at hadd
          · cases hadd
          · next hlimit =>
            obtain rfl := Option.some.inj hadd
            exact ⟨listed_new h hseen (by rw [hturn]; rfl) (by rw [hturn]; rfl) h.turns
              (Nat.not_lt.mp hlimit), rfl⟩

/-- The loops after the given endpoints: the lists, the readings of the clock, and what was asked of
the relays. -/
structure LoopState (given : List IceServerEndpoint) (s : ServerLoop) : Prop
    extends Listed given s where
  readings : s.readings = given.countP (·.turn)
  credentials : ∀ e ∈ given, e.turn = true → e.HasCredentials

theorem loop_state_nil : LoopState [] {} where
  servers := rfl
  same _ ha := nomatch ha
  seen _ _ h := nomatch h
  unseen _ _ _ he := nomatch he
  turnCount := rfl
  stunCount := rfl
  turns := Nat.zero_le _
  stuns := Nat.zero_le _
  readings := rfl
  credentials _ he := nomatch he

/-- One more endpoint that is listed, with the reading of the clock and the credentials of a
relay. -/
theorem loop_state_snoc {given : List IceServerEndpoint} {s s' : ServerLoop}
    {e : IceServerEndpoint} (h : LoopState given s) (hlisted : Listed (given ++ [e]) s')
    (hreadings : s'.readings = s.readings + if e.turn then 1 else 0)
    (hcredentials : e.turn = true → e.HasCredentials) : LoopState (given ++ [e]) s' :=
  { hlisted with
    readings := by
      rw [hreadings, h.readings, List.countP_append, List.countP_singleton]
    credentials := by
      intro a ha hturn
      obtain ha | ha := List.mem_append.mp ha
      · exact h.credentials a ha hturn
      · rw [List.mem_singleton.mp ha] at hturn ⊢
        exact hcredentials hturn }

/-- An accepted time is positive. -/
theorem read_ice_expiry_pos {object : Json} {expiry : ℤ}
    (h : readIceExpiry object = some expiry) : 0 < expiry := by
  unfold readIceExpiry at h
  rw [Option.bind_eq_bind, Option.bind_eq_some_iff] at h
  obtain ⟨value, -, hvalue⟩ := h
  split_ifs at hvalue with hlarge hpos
  obtain rfl := Option.some.inj hvalue
  exact hpos

/-- Accepted credentials are those of the server, and they can be used. -/
theorem read_credentials_eq {server : Json} {e e' : IceServerEndpoint} {now : ℤ}
    (h : readCredentials server e now = some e') :
    e' = e.withCredentials server ∧ e'.HasCredentials := by
  simp only [readCredentials, Option.bind_eq_bind, Option.bind_eq_some_iff] at h
  obtain ⟨username, hname, password, hpassword, expiresAt, hexpiry, hchecked⟩ := h
  split_ifs at hchecked with hrejected
  obtain rfl := Option.some.inj hchecked
  simp only [not_or, not_lt, gt_iff_lt] at hrejected
  obtain ⟨hname0, hname512, hpassword0, hpassword512, hnul, hnul', -⟩ := hrejected
  refine ⟨?_, ⟨hname0, hname512, hnul⟩, ⟨hpassword0, hpassword512, hnul'⟩,
    read_ice_expiry_pos hexpiry⟩
  have hname' : server.find? "username" >>= Json.string? = some username :=
    Option.bind_eq_some_iff.mpr hname
  have hpassword' : server.find? "credential" >>= Json.string? = some password :=
    Option.bind_eq_some_iff.mpr hpassword
  unfold IceServerEndpoint.withCredentials
  rw [hname', hpassword', hexpiry]
  rfl

/-- One URL adds the endpoint that it gives. -/
theorem add_url_listed {now : Nat → ℤ} {server url : Json} {given : List IceServerEndpoint}
    {s s' : ServerLoop} (h : LoopState given s) (hadd : s.addUrl now server url = some s') :
    ∃ e, givenEndpoint server url = some e ∧ LoopState (given ++ [e]) s' := by
  unfold ServerLoop.addUrl at hadd
  split at hadd
  · cases hadd
  split at hadd
  · cases hadd
  next endpoint hurl =>
  have hgiven : givenEndpoint server url =
      some (if endpoint.turn then endpoint.withCredentials server else endpoint) := by
    unfold givenEndpoint
    rw [hurl]
    rfl
  rw [hgiven]
  simp only at hadd
  cases hturn : endpoint.turn with
  | true =>
      rw [hturn, if_pos rfl] at hadd
      split at hadd
      · cases hadd
      · next e hread =>
        obtain ⟨rfl, hcredentials⟩ := read_credentials_eq hread
        have hlists : Listed given
            { s with urlCount := s.urlCount + 1, readings := s.readings + 1 } :=
          { h.toListed with }
        obtain ⟨hlisted, hreadings⟩ := add_endpoint_listed hlists hadd
        refine ⟨_, rfl, loop_state_snoc h hlisted ?_ fun _ => hcredentials⟩
        rw [hreadings]
        show s.readings + 1 = s.readings + if endpoint.turn then 1 else 0
        rw [hturn]
        rfl
  | false =>
      rw [hturn, if_neg (by decide)] at hadd
      have hlists : Listed given { s with urlCount := s.urlCount + 1 } := { h.toListed with }
      obtain ⟨hlisted, hreadings⟩ := add_endpoint_listed hlists hadd
      refine ⟨_, rfl, loop_state_snoc h hlisted ?_ fun hrelay => ?_⟩
      · rw [hreadings]
        show s.readings = s.readings + if endpoint.turn then 1 else 0
        rw [hturn]
        rfl
      · have hrelay' : endpoint.turn = true := hrelay
        rw [hturn] at hrelay'
        cases hrelay'

/-- What was given so far, when all of it was URLs. -/
def Collected (outcomes : List (Option IceServerEndpoint)) (s : ServerLoop) : Prop :=
  ∃ given, outcomes = given.map some ∧ LoopState given s

/-- One server adds the endpoints that it gives. -/
theorem add_server_collected {now : Nat → ℤ} (outcomes : List (Option IceServerEndpoint))
    (s : ServerLoop) (server : Json) (s' : ServerLoop) (h : Collected outcomes s)
    (hadd : s.addServer now server = some s') :
    Collected (outcomes ++ givenByServer server) s' := by
  unfold ServerLoop.addServer at hadd
  rw [Option.bind_eq_bind, Option.bind_eq_some_iff] at hadd
  obtain ⟨urls, hurls, hloop⟩ := hadd
  have hgiven : givenByServer server = urls.flatMap fun url => [givenEndpoint server url] := by
    unfold givenByServer
    rw [hurls]
    exact List.map_eq_flatMap
  rw [hgiven]
  refine Run.foldlM_collect (fun outcomes s url s' h hurl => ?_) h hloop
  obtain ⟨given, rfl, hstate⟩ := h
  obtain ⟨e, he, hnext⟩ := add_url_listed hstate hurl
  refine ⟨given ++ [e], ?_, hnext⟩
  rw [he, List.map_append, List.map_singleton]

/-- All servers add what they give. -/
theorem add_servers_collected {now : Nat → ℤ} {servers : List Json} {s : ServerLoop}
    (h : servers.foldlM (ServerLoop.addServer now) {} = some s) :
    Collected (servers.flatMap givenByServer) s :=
  Run.foldlM_collect add_server_collected ⟨[], rfl, loop_state_nil⟩ h

/-! ## The configuration -/

/-- The relays of a fresh configuration do not expire within five seconds. -/
theorem expiry_of_fresh {config : IceServerConfiguration} {now : ℤ}
    (h : config.fresh now = true) {e : IceServerEndpoint} (he : e ∈ config.servers)
    (hturn : e.turn = true) : now + 5 < e.expiresAt := by
  unfold IceServerConfiguration.fresh at h
  rw [Bool.and_eq_true, List.all_eq_true] at h
  have hserver := h.2 e he
  rw [hturn, Bool.true_and, Bool.not_eq_true', decide_eq_false_iff_not] at hserver
  exact Int.not_le.mp hserver

/-- An accepted configuration has the servers of its loops, which ended, and is fresh at the last
reading of the clock. -/
theorem read_ice_server_configuration_cases {now : Nat → ℤ} {ice : Json}
    {config : IceServerConfiguration} (h : readIceServerConfiguration now ice = some config) :
    ∃ s, Collected (givenEndpoints ice) s ∧ config.servers = s.servers ∧
      config.fresh (now s.readings) = true := by
  simp only [readIceServerConfiguration, Option.bind_eq_bind] at h
  obtain ⟨version, -, h⟩ := Option.bind_eq_some_iff.mp h
  obtain ⟨id, -, h⟩ := Option.bind_eq_some_iff.mp h
  obtain ⟨servers, hservers, h⟩ := Option.bind_eq_some_iff.mp h
  split_ifs at h with hheader
  obtain ⟨expiresAt, -, h⟩ := Option.bind_eq_some_iff.mp h
  obtain ⟨s, hloop, h⟩ := Option.bind_eq_some_iff.mp h
  split_ifs at h with hfresh
  obtain rfl := Option.some.inj h
  refine ⟨s, ?_, rfl, hfresh⟩
  unfold givenEndpoints
  rw [Option.bind_eq_bind, hservers]
  exact add_servers_collected hloop

/-- The endpoints that are listed are different. -/
theorem nodup_identities {given : List IceServerEndpoint} {s : ServerLoop}
    (h : Listed given s) : (s.servers.map IceServerEndpoint.identity).Nodup := by
  rw [h.servers]
  refine List.Nodup.map_on ?_ (nodup_erase_dups given)
  intro a ha b hb hidentity
  refine h.same a (List.mem_eraseDups.mp ha) b (List.mem_eraseDups.mp hb) (key_eq_iff.mpr ?_)
  simpa [IceServerEndpoint.identity] using hidentity

/-- A configuration is rejected, and the result stays as it was; or it is accepted, and then each of
its URLs gives an endpoint, the servers are the first occurrences of these, no two of them are the
same endpoint, there are at most 8 relays and at most 8 others, the relays have credentials that can
be used and have not expired at the last reading of the clock, and endpoints that are the same were
given with the same credentials. -/
theorem ice_configuration_sound (now : Nat → ℤ) (ice : Json) (result : IceServerConfiguration) :
    parseIceServerConfiguration now ice result = (false, result) ∨
      ∃ (config : IceServerConfiguration) (given : List IceServerEndpoint),
        parseIceServerConfiguration now ice result = (true, config) ∧
        givenEndpoints ice = given.map some ∧ config.servers = given.eraseDups ∧
        (config.servers.map IceServerEndpoint.identity).Nodup ∧
        config.servers.countP (·.turn) ≤ 8 ∧ config.servers.countP (!·.turn) ≤ 8 ∧
        (∀ e ∈ config.servers, e.turn = true →
          e.HasCredentials ∧ now (given.countP (·.turn)) + 5 < e.expiresAt) ∧
        ∀ a ∈ given, ∀ b ∈ given, a.identity = b.identity →
          a.username = b.username ∧ a.password = b.password ∧ a.expiresAt = b.expiresAt := by
  unfold parseIceServerConfiguration
  cases hread : readIceServerConfiguration now ice with
  | none => exact Or.inl rfl
  | some config =>
      obtain ⟨s, ⟨given, hgiven, hs⟩, hservers, hfresh⟩ :=
        read_ice_server_configuration_cases hread
      refine Or.inr ⟨config, given, rfl, hgiven, hservers.trans hs.servers, ?_, ?_, ?_, ?_, ?_⟩
      · rw [hservers]
        exact nodup_identities hs.toListed
      · rw [hservers, ← hs.turnCount]
        exact hs.turns
      · rw [hservers, ← hs.stunCount]
        exact hs.stuns
      · intro e he hturn
        have hin : e ∈ given := by
          rw [hservers, hs.servers] at he
          exact List.mem_eraseDups.mp he
        rw [← hs.readings]
        exact ⟨hs.credentials e hin hturn, expiry_of_fresh hfresh he hturn⟩
      · intro a ha b hb hidentity
        have hkey : a.key = b.key := by
          refine key_eq_iff.mpr ?_
          simpa [IceServerEndpoint.identity] using hidentity
        obtain rfl := hs.same a ha b hb hkey
        exact ⟨rfl, rfl, rfl⟩

/-- A relay that is given again with its credentials is listed once. -/
example : parseIceServerConfiguration (fun _ => 1000)
    (.object [("version", .integer 1), ("id", .string "a-1".toList),
      ("expires_at", .integer 2000), ("servers", .array [
        .object [("urls", .array [.string "turn:Relay.example:80?transport=tcp".toList,
            .string "stun:[fe80::1%En0]".toList]),
          ("username", .string "u".toList), ("credential", .string "p".toList),
          ("expires_at", .integer 1900)],
        .object [("urls", .string "turn:relay.example:00080?transport=tcp".toList),
          ("username", .string "u".toList), ("credential", .string "p".toList),
          ("expires_at", .integer 1900)]])]) {} = (true,
      { id := "a-1".toList
        expiresAt := 2000
        servers := [
          { host := "relay.example".toList, port := 80, turn := true, tcp := true,
            username := "u".toList, password := "p".toList, expiresAt := 1900 },
          { host := "fe80::1%En0".toList }] }) := by
  rfl

end MiniRtc

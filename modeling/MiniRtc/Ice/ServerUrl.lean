import MiniRtc.Foundation.Text

/-!
# URLs of ICE servers

`ParseIceServerUrl` of `ice_server_config.h`. The regular expression of the source is written as
`matchServerUrl`, which reads the parts of a URL from left to right; no part can begin with a
character that the part before it may have, so there is only one way to read a URL
(`match_server_url_iff`).

An endpoint is known by its key. `key_eq_iff` says that two endpoints with one key have the same
kind, host, port and transport.
-/

namespace MiniRtc

open Text

/-! ## The functions of the source -/

/-- `IceServerEndpoint`. -/
structure IceServerEndpoint where
  host : Text := []
  port : BitVec 16 := 3478
  turn : Bool := false
  tcp : Bool := false
  username : Text := []
  password : Text := []
  expiresAt : ℤ := 0
  deriving DecidableEq

/-- `StunEndpoint::ToString`. -/
def stunEndpointToString (host : Text) (port : BitVec 16) : Text :=
  (if ':' ∈ host then '[' :: host ++ [']'] else host) ++ ':' :: decimal port.toNat

/-- The key of `seen`. -/
def IceServerEndpoint.key (endpoint : IceServerEndpoint) : Text :=
  (if endpoint.turn then "turn/".toList else "stun/".toList) ++
    stunEndpointToString endpoint.host endpoint.port ++
    (if endpoint.tcp then "/tcp".toList else "/udp".toList)

/-- The groups of a match: `turn` is the first, `host` the second, `port` the fourth, and `tcp` the
sixth. -/
structure ServerUrlMatch where
  turn : Bool
  host : Text
  port : Option Text
  tcp : Option Bool
  deriving DecidableEq

/-- `[A-Za-z0-9._-]`. -/
def isHostChar (c : Char) : Bool :=
  c.isAlphanum || c = '.' || c = '_' || c = '-'

/-- `[0-9A-Za-z:.%_-]`. -/
def isBracketChar (c : Char) : Bool :=
  c.isAlphanum || c = ':' || c = '.' || c = '%' || c = '_' || c = '-'

/-- `(stun|turn):`, and what is behind it. -/
def matchKind (url : Text) : Option (Bool × Text) :=
  if "stun:".toList <+: url then some (false, url.drop 5)
  else if "turn:".toList <+: url then some (true, url.drop 5)
  else none

/-- `(\[[0-9A-Za-z:.%_-]+\]|[A-Za-z0-9._-]+)`, and what is behind it. -/
def matchHost : Text → Option (Text × Text)
  | '[' :: rest =>
      match rest.takeWhile isBracketChar, rest.dropWhile isBracketChar with
      | c :: inner, ']' :: rest => some ('[' :: c :: inner ++ [']'], rest)
      | _, _ => none
  | rest =>
      match rest.takeWhile isHostChar with
      | [] => none
      | c :: host => some (c :: host, rest.dropWhile isHostChar)

/-- `(:([0-9]{1,5}))?`, and what is behind it. -/
def matchPort : Text → Option (Option Text × Text)
  | ':' :: rest =>
      let digits := rest.takeWhile Char.isDigit
      if 1 ≤ digits.length ∧ digits.length ≤ 5 then
        some (some digits, rest.dropWhile Char.isDigit)
      else none
  | rest => some (none, rest)

/-- `(\?transport=(udp|tcp))?$`. -/
def matchTransport (rest : Text) : Option (Option Bool) :=
  if rest = [] then some none
  else if rest = "?transport=udp".toList then some (some false)
  else if rest = "?transport=tcp".toList then some (some true)
  else none

/-- `std::regex_match` with the expression of the source. -/
def matchServerUrl (url : Text) : Option ServerUrlMatch := do
  let (turn, rest) ← matchKind url
  let (host, rest) ← matchHost rest
  let (port, rest) ← matchPort rest
  let tcp ← matchTransport rest
  return { turn, host, port, tcp }

/-- The host in lower case, up to the zone of an address. -/
def lowerHost (host : Text) : Text :=
  (host.takeWhile (· ≠ '%')).map Char.toLower ++ host.dropWhile (· ≠ '%')

/-- The part of `ParseIceServerUrl` for an address in brackets. -/
def unbracket (host : Text) : Option Text :=
  if host.head? = some '[' then
    let host := (host.drop 1).take (host.length - 2)
    if ':' ∈ host then some host else none
  else some host

/-- `ParseIceServerUrl`. -/
def parseIceServerUrl (url : Text) : Option IceServerEndpoint :=
  if url.length > 512 then none
  else
    match matchServerUrl url with
    | none => none
    | some m =>
        if !m.turn ∧ m.tcp.isSome then none
        else
          let port := (m.port.map leadingDigits).getD 3478
          if port < 1 ∨ port > 65535 ∨ m.host.length + 1 + (decimal port).length > 255 then none
          else
            match unbracket m.host with
            | none => none
            | some host =>
                some
                  { host := lowerHost host
                    port := BitVec.ofNat 16 port
                    turn := m.turn
                    tcp := m.tcp = some true }

/-! ## The regular expression -/

/-- The text of the first group and its colon. -/
def kindText (turn : Bool) : Text :=
  if turn then "turn:".toList else "stun:".toList

/-- The text of the group of the port. -/
def portText (port : Option Text) : Text :=
  (port.map (':' :: ·)).getD []

/-- The text of the group of the transport. -/
def transportText (tcp : Option Bool) : Text :=
  (tcp.map fun tcp => if tcp then "?transport=tcp".toList else "?transport=udp".toList).getD []

/-- The texts that the second group matches. -/
def IsHostText (host : Text) : Prop :=
  (∃ inner, inner ≠ [] ∧ (∀ c ∈ inner, isBracketChar c = true) ∧ host = '[' :: inner ++ [']']) ∨
    (host ≠ [] ∧ ∀ c ∈ host, isHostChar c = true)

/-- The texts that the fourth group matches. -/
def IsPortText (digits : Text) : Prop :=
  1 ≤ digits.length ∧ digits.length ≤ 5 ∧ ∀ c ∈ digits, c.isDigit = true

/-- The characters before the first that is not of the class, and the rest. -/
theorem span_append {p : Char → Bool} {s rest : Text} (hs : ∀ c ∈ s, p c = true)
    (hrest : ∀ c ∈ rest.head?, p c = false) :
    (s ++ rest).takeWhile p = s ∧ (s ++ rest).dropWhile p = rest := by
  rw [List.takeWhile_append_of_pos hs, List.dropWhile_append_of_pos hs]
  cases rest with
  | nil => simp
  | cons c rest =>
      have hc : p c = false := hrest c rfl
      rw [List.takeWhile_cons_of_neg (by simp [hc]), List.dropWhile_cons_of_neg (by simp [hc])]
      simp

theorem match_kind_iff {url rest : Text} {turn : Bool} :
    matchKind url = some (turn, rest) ↔ url = kindText turn ++ rest := by
  unfold matchKind
  constructor
  · intro h
    split at h
    · next hprefix =>
      obtain ⟨more, rfl⟩ := hprefix
      obtain ⟨rfl, rfl⟩ := Prod.mk.inj (Option.some.inj h)
      rfl
    · split at h
      · next hprefix =>
        obtain ⟨more, rfl⟩ := hprefix
        obtain ⟨rfl, rfl⟩ := Prod.mk.inj (Option.some.inj h)
        rfl
      · cases h
  · rintro rfl
    cases turn with
    | false => rfl
    | true => rfl

/-- A host is matched up to the first character that it cannot have. -/
theorem match_host_append {host rest : Text} (hhost : IsHostText host)
    (hrest : ∀ c ∈ rest.head?, isHostChar c = false) :
    matchHost (host ++ rest) = some (host, rest) := by
  obtain ⟨inner, hne, hinner, rfl⟩ | ⟨hne, hall⟩ := hhost
  · have hstop : ∀ c ∈ (']' :: rest).head?, isBracketChar c = false := by
      intro c hc
      obtain rfl := Option.some.inj hc
      decide
    obtain ⟨htake, hdrop⟩ := span_append hinner hstop
    obtain ⟨c, inner, rfl⟩ := List.exists_cons_of_ne_nil hne
    show matchHost ('[' :: (c :: inner ++ [']'] ++ rest)) = _
    rw [List.append_assoc]
    unfold matchHost
    simp only [List.singleton_append, htake, hdrop]
  · obtain ⟨htake, hdrop⟩ := span_append hall hrest
    obtain ⟨c, host, rfl⟩ := List.exists_cons_of_ne_nil hne
    have hc : c ≠ '[' := by
      rintro rfl
      exact absurd (hall '[' List.mem_cons_self) (by decide)
    rw [matchHost.eq_def]
    split
    · next heq => exact absurd (List.cons.inj heq).1 hc
    · simp only [htake, hdrop]

/-- What is matched as a host is one. -/
theorem of_match_host {s host rest : Text} (h : matchHost s = some (host, rest)) :
    s = host ++ rest ∧ IsHostText host := by
  rw [matchHost.eq_def] at h
  split at h
  · next more =>
    have hsplit := List.takeWhile_append_dropWhile (p := isBracketChar) (l := more)
    have hall : ∀ c ∈ more.takeWhile isBracketChar, isBracketChar c = true :=
      fun c => List.mem_takeWhile_imp
    split at h
    · next c inner rest' htake hdrop =>
      obtain ⟨rfl, rfl⟩ := Prod.mk.inj (Option.some.inj h)
      rw [htake] at hall hsplit
      rw [hdrop] at hsplit
      refine ⟨?_, Or.inl ⟨c :: inner, List.cons_ne_nil c inner, hall, rfl⟩⟩
      rw [← hsplit]
      simp
    · cases h
  · split at h
    · cases h
    · next c host' htake =>
      obtain ⟨rfl, rfl⟩ := Prod.mk.inj (Option.some.inj h)
      refine ⟨?_, Or.inr ⟨List.cons_ne_nil _ _, ?_⟩⟩
      · rw [← htake]
        exact (List.takeWhile_append_dropWhile (p := isHostChar)).symm
      · rw [← htake]
        exact fun c => List.mem_takeWhile_imp

/-- A port is matched up to the first character that it cannot have. -/
theorem match_port_append {port : Option Text} {rest : Text}
    (hport : ∀ digits ∈ port, IsPortText digits)
    (hrest : ∀ c ∈ rest.head?, c ≠ ':' ∧ c.isDigit = false) :
    matchPort (portText port ++ rest) = some (port, rest) := by
  cases port with
  | none =>
      show matchPort rest = _
      rw [matchPort.eq_def]
      split
      · next heq => exact absurd rfl (hrest ':' rfl).1
      · rfl
  | some digits =>
      obtain ⟨hpos, hfits, hdigits⟩ := hport digits rfl
      obtain ⟨htake, hdrop⟩ := span_append hdigits fun c hc => (hrest c hc).2
      show matchPort (':' :: (digits ++ rest)) = _
      rw [matchPort, htake, hdrop, if_pos ⟨hpos, hfits⟩]

/-- What is matched as a port is one. -/
theorem of_match_port {s rest : Text} {port : Option Text}
    (h : matchPort s = some (port, rest)) :
    s = portText port ++ rest ∧ ∀ digits ∈ port, IsPortText digits := by
  rw [matchPort.eq_def] at h
  split at h
  · next more =>
    simp only at h
    split at h
    · next hlength =>
      obtain ⟨rfl, rfl⟩ := Prod.mk.inj (Option.some.inj h)
      refine ⟨?_, ?_⟩
      · show ':' :: more = ':' :: (more.takeWhile Char.isDigit ++ more.dropWhile Char.isDigit)
        rw [List.takeWhile_append_dropWhile]
      · intro digits hdigits
        obtain rfl := Option.some.inj hdigits
        exact ⟨hlength.1, hlength.2, fun c => List.mem_takeWhile_imp⟩
    · cases h
  · obtain ⟨rfl, rfl⟩ := Prod.mk.inj (Option.some.inj h)
    exact ⟨rfl, fun digits hdigits => nomatch hdigits⟩

theorem match_transport_iff {rest : Text} {tcp : Option Bool} :
    matchTransport rest = some tcp ↔ rest = transportText tcp := by
  unfold matchTransport
  constructor
  · intro h
    split_ifs at h with hnone hudp htcp
    · obtain rfl := Option.some.inj h
      exact hnone
    · obtain rfl := Option.some.inj h
      exact hudp
    · obtain rfl := Option.some.inj h
      exact htcp
  · rintro rfl
    obtain _ | _ | _ := tcp
    · rfl
    · rfl
    · rfl

namespace ServerUrlMatch

/-- The text of a match. -/
def text (m : ServerUrlMatch) : Text :=
  kindText m.turn ++ (m.host ++ (portText m.port ++ transportText m.tcp))

/-- The groups are of the characters that the expression has for them. -/
structure Valid (m : ServerUrlMatch) : Prop where
  host : IsHostText m.host
  port : ∀ digits ∈ m.port, IsPortText digits

end ServerUrlMatch

/-- A transport begins with a character that neither a host nor a port has. -/
theorem transport_head (tcp : Option Bool) :
    ∀ c ∈ (transportText tcp).head?, c = '?' := by
  intro c hc
  obtain _ | _ | _ := tcp
  · cases hc
  · exact (Option.some.inj hc).symm
  · exact (Option.some.inj hc).symm

/-- What is behind a host begins with a character that no host has. -/
theorem behind_host_head (port : Option Text) (tcp : Option Bool) :
    ∀ c ∈ (portText port ++ transportText tcp).head?, isHostChar c = false := by
  intro c hc
  cases port with
  | none =>
      rw [transport_head tcp c hc]
      decide
  | some digits =>
      obtain rfl := Option.some.inj hc
      decide

/-- The texts that match are those that are put together from valid groups, and the groups are the
only ones. -/
theorem match_server_url_iff {url : Text} {m : ServerUrlMatch} :
    matchServerUrl url = some m ↔ m.Valid ∧ url = m.text := by
  constructor
  · intro h
    simp only [matchServerUrl, Option.bind_eq_bind, Option.bind_eq_some_iff, Option.pure_def,
      Option.some.injEq, Prod.exists] at h
    obtain ⟨turn, behindKind, hkind, host, behindHost, hhost, port, behindPort, hport, tcp,
      htransport, rfl⟩ := h
    obtain ⟨rfl, hhostText⟩ := of_match_host hhost
    obtain ⟨rfl, hportText⟩ := of_match_port hport
    refine ⟨⟨hhostText, hportText⟩, ?_⟩
    rw [match_kind_iff.mp hkind, match_transport_iff.mp htransport]
    rfl
  · rintro ⟨hvalid, rfl⟩
    have hkind : matchKind m.text =
        some (m.turn, m.host ++ (portText m.port ++ transportText m.tcp)) :=
      match_kind_iff.mpr rfl
    have hhost := match_host_append hvalid.host (behind_host_head m.port m.tcp)
    have hport := match_port_append hvalid.port fun c hc => by
      rw [transport_head m.tcp c hc]
      decide
    have htransport : matchTransport (transportText m.tcp) = some m.tcp :=
      match_transport_iff.mpr rfl
    simp only [matchServerUrl, Option.bind_eq_bind, hkind, hhost, hport, htransport,
      Option.bind_some]
    rfl

/-! ## Endpoints -/

/-- Lower case changes no length. -/
theorem length_lower_host (host : Text) : (lowerHost host).length = host.length := by
  have hsplit := List.takeWhile_append_dropWhile (p := (· ≠ '%')) (l := host)
  unfold lowerHost
  rw [List.length_append, List.length_map, ← List.length_append, hsplit]

/-- A host stays a host without its brackets. -/
theorem unbracket_ne_nil {host inner : Text} (hhost : IsHostText host)
    (h : unbracket host = some inner) : inner ≠ [] := by
  unfold unbracket at h
  simp only at h
  split_ifs at h with hbracket hcolon
  · obtain rfl := Option.some.inj h
    exact List.ne_nil_of_mem hcolon
  · obtain rfl := Option.some.inj h
    obtain ⟨inner, -, -, rfl⟩ | ⟨hne, -⟩ := hhost
    · exact List.cons_ne_nil _ _
    · exact hne

/-- An accepted URL gives an endpoint with a host and a port, and without credentials; only relays
are asked for over TCP. -/
theorem parse_ice_server_url_valid {url : Text} {endpoint : IceServerEndpoint}
    (h : parseIceServerUrl url = some endpoint) :
    endpoint.host ≠ [] ∧ endpoint.port ≠ 0 ∧ (endpoint.tcp = true → endpoint.turn = true) ∧
      endpoint.username = [] ∧ endpoint.password = [] ∧ endpoint.expiresAt = 0 := by
  unfold parseIceServerUrl at h
  split at h
  · cases h
  split at h
  · cases h
  · next m hmatch =>
    have hvalid := (match_server_url_iff.mp hmatch).1
    simp only at h
    split_ifs at h with hkind hport
    generalize (m.port.map leadingDigits).getD 3478 = port at *
    split at h
    · cases h
    · next host hhost =>
      obtain rfl := Option.some.inj h
      refine ⟨?_, ?_, ?_, rfl, rfl, rfl⟩
      · have hne := unbracket_ne_nil hvalid.host hhost
        rw [← List.length_pos_iff, length_lower_host]
        exact List.length_pos_iff.mpr hne
      · intro hzero
        have hvalue := congrArg BitVec.toNat hzero
        rw [BitVec.toNat_ofNat, Nat.mod_eq_of_lt (by omega)] at hvalue
        exact hport (Or.inl (by rw [hvalue]; decide))
      · intro htcp
        have hsome : m.tcp = some true := of_decide_eq_true htcp
        cases hturn : m.turn with
        | true => rfl
        | false => exact absurd ⟨by rw [hturn]; rfl, by rw [hsome]; rfl⟩ hkind

theorem decimal_inj {m n : Nat} (h : decimal m = decimal n) : m = n := by
  have hvalue := congrArg (Nat.ofDigitChars 10 · 0) h
  simpa only [decimal, Nat.ofDigitChars_ten_toDigits] using hvalue

/-- A port is what is behind the last colon. -/
theorem append_colon_inj {s t : Text} {m n : Nat}
    (h : s ++ ':' :: decimal m = t ++ ':' :: decimal n) : s = t ∧ m = n := by
  have hstop : ∀ u : Text, ∀ c ∈ (':' :: u.reverse).head?, (c != ':') = false := by
    intro u c hc
    obtain rfl := Option.some.inj hc
    rfl
  have hdigits : ∀ n : Nat, ∀ c ∈ (decimal n).reverse, (c != ':') = true := by
    intro n c hc
    rw [bne_iff_ne]
    rintro rfl
    exact absurd (List.mem_reverse.mp hc) (not_mem_decimal (by decide) n)
  have hreverse : ∀ (u : Text) (n : Nat), (u ++ ':' :: decimal n).reverse =
      (decimal n).reverse ++ ':' :: u.reverse := by
    intro u n
    simp
  have hsame := congrArg List.reverse h
  rw [hreverse, hreverse] at hsame
  obtain ⟨htake, hdrop⟩ := span_append (hdigits m) (hstop s)
  obtain ⟨htake', hdrop'⟩ := span_append (hdigits n) (hstop t)
  rw [hsame] at htake hdrop
  refine ⟨?_, decimal_inj (List.reverse_inj.mp (htake.symm.trans htake'))⟩
  exact List.reverse_inj.mp (List.cons.inj (hdrop.symm.trans hdrop')).2

/-- An address is known by its text. -/
theorem stun_endpoint_to_string_inj {host host' : Text} {port port' : BitVec 16}
    (h : stunEndpointToString host port = stunEndpointToString host' port') :
    host = host' ∧ port = port' := by
  obtain ⟨hhost, hport⟩ := append_colon_inj h
  refine ⟨?_, BitVec.eq_of_toNat_eq hport⟩
  split_ifs at hhost with hcolon hcolon' hcolon'
  · have hinner := (List.cons.inj hhost).2
    exact List.append_cancel_right hinner
  · refine absurd ?_ hcolon'
    rw [← hhost]
    exact List.mem_cons_of_mem _ (List.mem_append_left _ hcolon)
  · refine absurd ?_ hcolon
    rw [hhost]
    exact List.mem_cons_of_mem _ (List.mem_append_left _ hcolon')
  · exact hhost

/-- Two endpoints have one key when they agree in their kind, host, port and transport. -/
theorem key_eq_iff {e e' : IceServerEndpoint} :
    e.key = e'.key ↔
      e.turn = e'.turn ∧ e.host = e'.host ∧ e.port = e'.port ∧ e.tcp = e'.tcp := by
  constructor
  · intro h
    unfold IceServerEndpoint.key at h
    have hkind : ∀ turn : Bool, (if turn then "turn/".toList else "stun/".toList).length = 5 := by
      decide
    have htransport : ∀ tcp : Bool,
        (if tcp then "/tcp".toList else "/udp".toList).length = 4 := by
      decide
    obtain ⟨hfront, htcp⟩ := List.append_inj' h ((htransport _).trans (htransport _).symm)
    obtain ⟨hturn, haddress⟩ := List.append_inj hfront ((hkind _).trans (hkind _).symm)
    obtain ⟨hhost, hport⟩ := stun_endpoint_to_string_inj haddress
    refine ⟨?_, hhost, hport, ?_⟩
    · revert hturn
      generalize e.turn = turn
      generalize e'.turn = turn'
      revert turn turn'
      decide
    · revert htcp
      generalize e.tcp = tcp
      generalize e'.tcp = tcp'
      revert tcp tcp'
      decide
  · rintro ⟨hturn, hhost, hport, htcp⟩
    unfold IceServerEndpoint.key
    rw [hturn, hhost, hport, htcp]

end MiniRtc

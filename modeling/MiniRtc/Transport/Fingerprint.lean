import MiniRtc.Ice.LocalSdp
import MiniRtc.Transport.ConfiguredLines
import MiniRtc.Transport.RemoteNegotiation

/-!
# The fingerprint of the certificate

The fingerprint line is the last line of a description. `GetRemoteCapabilities` appends it to what
it keeps of the description, `SetRemoteSdp` appends the attributes of the extensions that were lost,
and `ExtractAndStripFingerprint` takes everything behind the blank of the last fingerprint line.

So the fingerprint arrives unless an attribute was appended behind it, and the line is gone
unless the candidates carried another copy of it: `fingerprint_survives_iff`.
-/

namespace MiniRtc

open Text IceTransport

/-! ## The functions of the source -/

/-- The digits that `std::uppercase` and `std::hex` write. -/
def hexDigits : Text := "0123456789ABCDEF".toList

/-- A byte with two digits. -/
def hexByte (byte : BitVec 8) : Text :=
  [hexDigits.getD (byte.toNat / 16) '0', hexDigits.getD (byte.toNat % 16) '0']

/-- `ComputeFingerprint`, from the bytes of the digest. -/
def computeFingerprint : List (BitVec 8) → Text
  | [] => []
  | byte :: digest => hexByte byte ++ digest.flatMap fun byte => ':' :: hexByte byte

/-- `AppendFingerprintLine`. -/
def appendFingerprintLine (sdp fingerprint : Text) : Text :=
  sdp ++ ("a=fingerprint:sha-256 ".toList ++ fingerprint ++ "\r\n".toList)

/-- The characters that are popped from the end of a fingerprint. -/
def isLineEnd (c : Char) : Bool :=
  c = '\r' ∨ c = '\n'

/-- `ExtractAndStripFingerprint`: the fingerprint of the remote side, and the text without it. -/
def extractAndStripFingerprint (remoteFingerprint sdp : Text) : Text × Text :=
  if remoteFingerprint ≠ [] then (remoteFingerprint, sdp)
  else
    match rfind "a=fingerprint:".toList sdp with
    | none => (remoteFingerprint, sdp)
    | some pos =>
        let fingerprint :=
          match findFrom [' '] sdp pos with
          | some space => (sdp.drop (space + 1)).rdropWhile isLineEnd
          | none => remoteFingerprint
        let cut :=
          if 0 < pos ∧ (sdp[pos - 1]? = some '\n' ∨ sdp[pos - 1]? = some '\r') then pos - 1
          else pos
        (fingerprint, sdp.take cut)

namespace RemoteNegotiation

/-- The description that `IceTransport::SetRemoteSdp` hands to the agent. -/
def handed (n : RemoteNegotiation) (sdp : Text) : Text :=
  agentDescription sdp (n.getRemoteCapabilities sdp).2

/-- What `IceAgent::SetRemoteSdp` makes of it: the fingerprint, and the text for the library. -/
def received (n : RemoteNegotiation) (sdp : Text) : Text × Text :=
  extractAndStripFingerprint [] (n.handed sdp)

end RemoteNegotiation

/-- The fingerprint of the sender arrives, and the library gets the rest of the description. -/
structure FingerprintSurvives (n : RemoteNegotiation) (sdp fingerprint : Text) : Prop where
  extracted : (n.received sdp).1 = fingerprint
  stripped : ∀ l ∈ lines (n.received sdp).2, ¬ fingerprintTag <+: l
  kept : ∀ l ∈ lines (n.handed sdp), l ≠ [] → ¬ fingerprintTag <+: l →
    l ∈ lines (n.received sdp).2

/-! ## The fingerprint -/

variable {fingerprint : Text}

/-- A text that fits into the fingerprint line. -/
structure IsPlain (fingerprint : Text) : Prop where
  noEnd : ∀ c ∈ fingerprint, isLineEnd c = false
  noEquals : '=' ∉ fingerprint

theorem hex_byte_digits (byte : BitVec 8) : ∀ c ∈ hexByte byte, c ∈ hexDigits := by
  have hdigit : ∀ i < 16, hexDigits.getD i '0' ∈ hexDigits := by decide
  intro c hc
  simp only [hexByte, List.mem_cons, List.not_mem_nil, or_false] at hc
  rcases hc with rfl | rfl
  · exact hdigit _ (by have hlt := byte.isLt; omega)
  · exact hdigit _ (by omega)

/-- A computed fingerprint consists of digits and colons. -/
theorem fingerprint_plain (digest : List (BitVec 8)) : IsPlain (computeFingerprint digest) := by
  have hchars : ∀ c ∈ computeFingerprint digest, c ∈ ':' :: hexDigits := by
    cases digest with
    | nil => exact List.forall_mem_nil _
    | cons byte digest =>
        intro c hc
        rcases List.mem_append.mp hc with hc | hc
        · exact List.mem_cons_of_mem _ (hex_byte_digits byte c hc)
        · obtain ⟨other, -, hc⟩ := List.mem_flatMap.mp hc
          rcases List.mem_cons.mp hc with rfl | hc
          · exact List.mem_cons_self
          · exact List.mem_cons_of_mem _ (hex_byte_digits other c hc)
  have hplain : (':' :: hexDigits).all (fun c => !isLineEnd c && c != '=') = true := by decide
  rw [List.all_eq_true] at hplain
  constructor
  · intro c hc
    have hchar := hplain c (hchars c hc)
    simp only [Bool.and_eq_true, Bool.not_eq_true'] at hchar
    exact hchar.1
  · intro hmem
    exact absurd (hplain '=' (hchars '=' hmem)) (by decide)

/-- The fingerprint line up to its line break. -/
def fingerprintLine (fingerprint : Text) : Text :=
  "a=fingerprint:sha-256 ".toList ++ (fingerprint ++ ['\r'])

/-- The line behind its first letter. -/
theorem fingerprint_line_append (fingerprint tail : Text) :
    fingerprintLine fingerprint ++ tail =
      'a' :: ("=fingerprint:sha-256 ".toList ++ (fingerprint ++ '\r' :: tail)) := by
  have hletter : "a=fingerprint:sha-256 ".toList = 'a' :: "=fingerprint:sha-256 ".toList := rfl
  unfold fingerprintLine
  rw [hletter]
  simp only [List.append_assoc, List.cons_append, List.nil_append]

theorem append_fingerprint_eq (ls : List Text) (fingerprint : Text) :
    appendFingerprintLine (unlines ls) fingerprint =
      unlines (ls ++ [fingerprintLine fingerprint]) := by
  have hend : "\r\n".toList = ['\r', '\n'] := rfl
  unfold appendFingerprintLine fingerprintLine
  rw [unlines_append, unlines_cons, unlines_nil, hend]
  simp only [List.append_assoc, List.cons_append, List.nil_append]

theorem fingerprint_line_unbroken (h : IsPlain fingerprint) :
    '\n' ∉ fingerprintLine fingerprint := by
  have hbreak : '\n' ∉ fingerprint := fun hmem => absurd (h.noEnd _ hmem) (by decide)
  unfold fingerprintLine
  simp only [List.mem_append, not_or]
  exact ⟨by decide, hbreak, by decide⟩

/-- The text behind the beginning of a fingerprint line does not contain another one. -/
theorem fingerprint_line_once {p tail : Text} (h : IsPlain fingerprint) (hp : '\r' ∉ p)
    (hstart : ∃ q, p = 'a' :: '=' :: q) (htail : ¬ p <:+: tail) :
    ¬ p <:+: "=fingerprint:sha-256 ".toList ++ (fingerprint ++ '\r' :: tail) := by
  obtain ⟨q, rfl⟩ := hstart
  rw [← List.append_assoc, infix_append_cons hp]
  rintro (hin | hin)
  · have hequals : "=fingerprint:sha-256 ".toList = '=' :: "fingerprint:sha-256 ".toList := rfl
    rw [hequals, List.cons_append, List.infix_cons_iff] at hin
    rcases hin with hin | hin
    · exact absurd (List.cons_prefix_cons.mp hin).1 (by decide)
    · refine not_infix_of_not_mem (c := '=') (by simp) ?_ hin
      simp only [List.mem_append, not_or]
      exact ⟨by decide, h.noEquals⟩
  · exact htail hin

/-- A search from the end stops at the beginning of the line. -/
theorem rfind_fingerprint_line {p tail : Text} (h : IsPlain fingerprint) (hp : '\r' ∉ p)
    (hstart : ∃ q, p = 'a' :: '=' :: q) (hbegins : p <+: "a=fingerprint:sha-256 ".toList)
    (htail : ¬ p <:+: tail) : rfind p (fingerprintLine fingerprint ++ tail) = some 0 := by
  have hcut : p <+: fingerprintLine fingerprint ++ tail := by
    unfold fingerprintLine
    rw [List.append_assoc]
    exact hbegins.trans (List.prefix_append _ _)
  rw [fingerprint_line_append] at hcut ⊢
  exact rfind_of_prefix hcut (fingerprint_line_once h hp hstart htail)

/-- The last fingerprint line of a description. -/
theorem rfind_fingerprint (h : IsPlain fingerprint) (ls : List Text) :
    rfind fingerprintTag (unlines (ls ++ [fingerprintLine fingerprint])) =
      some (unlines ls).length := by
  have hfirst : rfind fingerprintTag (unlines [fingerprintLine fingerprint]) = some 0 := by
    rw [unlines_cons, unlines_nil]
    exact rfind_fingerprint_line h (by decide) ⟨_, rfl⟩ (by decide) (by decide)
  rw [unlines_append, rfind_append_of_some hfirst]
  rfl

/-- What stands behind the last fingerprint line goes into the fingerprint. -/
theorem extract_line (h : IsPlain fingerprint) (before : Text) {tail : Text}
    (htail : ¬ "a=fingerprint:".toList <:+: tail) :
    extractAndStripFingerprint [] (before ++ '\n' :: (fingerprintLine fingerprint ++ tail)) =
      ((fingerprint ++ '\r' :: tail).rdropWhile isLineEnd, before) := by
  have hfirst : rfind "a=fingerprint:".toList (fingerprintLine fingerprint ++ tail) = some 0 :=
    rfind_fingerprint_line h (by decide) ⟨_, rfl⟩ (by decide) htail
  have hsplit : before ++ '\n' :: (fingerprintLine fingerprint ++ tail) =
      (before ++ ['\n']) ++ (fingerprintLine fingerprint ++ tail) := by
    rw [List.append_assoc, List.singleton_append]
  have hpos : rfind "a=fingerprint:".toList
      (before ++ '\n' :: (fingerprintLine fingerprint ++ tail)) = some (before.length + 1) := by
    rw [hsplit, rfind_append_of_some hfirst, List.length_append]
    rfl
  have hspace : findFrom [' '] (before ++ '\n' :: (fingerprintLine fingerprint ++ tail))
      (before.length + 1) = some (21 + (before.length + 1)) := by
    have hlength : (before ++ ['\n']).length = before.length + 1 := by simp
    have hblank : fingerprintLine fingerprint ++ tail =
        "a=fingerprint:sha-256".toList ++ ' ' :: (fingerprint ++ '\r' :: tail) := by
      have hsplit : "a=fingerprint:sha-256 ".toList =
          "a=fingerprint:sha-256".toList ++ [' '] := rfl
      unfold fingerprintLine
      rw [hsplit]
      simp only [List.append_assoc, List.cons_append, List.nil_append]
    rw [find_from_of_le (by simp), ← hlength, hsplit, List.drop_left, hblank,
      find_char (by decide)]
    rfl
  have hbehind : (before ++ '\n' :: (fingerprintLine fingerprint ++ tail)).drop
      (21 + (before.length + 1) + 1) = fingerprint ++ '\r' :: tail := by
    have hlength : 21 + (before.length + 1) + 1 =
        (before ++ '\n' :: "a=fingerprint:sha-256 ".toList).length := by
      rw [List.length_append]
      have hlong : "a=fingerprint:sha-256 ".toList.length = 22 := rfl
      rw [List.length_cons, hlong]
      omega
    have hwhole : before ++ '\n' :: (fingerprintLine fingerprint ++ tail) =
        (before ++ '\n' :: "a=fingerprint:sha-256 ".toList) ++ (fingerprint ++ '\r' :: tail) := by
      unfold fingerprintLine
      simp only [List.append_assoc, List.cons_append, List.nil_append]
    rw [hlength, hwhole, List.drop_left]
  have hprevious :
      (before ++ '\n' :: (fingerprintLine fingerprint ++ tail))[before.length + 1 - 1]? =
        some '\n' := by
    simp
  unfold extractAndStripFingerprint
  rw [if_neg (by simp)]
  simp only [hpos, hspace, hbehind, hprevious]
  rw [if_pos ⟨Nat.succ_pos _, Or.inl trivial⟩, Nat.add_sub_cancel, List.take_left]

/-- Without anything behind its line the fingerprint is found as it was written. -/
theorem fingerprint_alone (h : IsPlain fingerprint) :
    (fingerprint ++ ['\r']).rdropWhile isLineEnd = fingerprint := by
  rw [List.rdropWhile_concat_pos _ _ _ (by decide), List.rdropWhile_eq_self_iff]
  intro hne
  rw [h.noEnd _ (List.getLast_mem hne)]
  decide

/-- An attribute behind the line spoils the fingerprint. -/
theorem fingerprint_spoiled {tail : Text} (h : IsPlain fingerprint) (htail : '=' ∈ tail) :
    (fingerprint ++ '\r' :: tail).rdropWhile isLineEnd ≠ fingerprint := by
  intro heq
  have hmem : '=' ∈ (fingerprint ++ '\r' :: tail).rdropWhile isLineEnd := by
    have hall : '=' ∈ fingerprint ++ '\r' :: tail := by simp [htail]
    rw [← List.rdropWhile_append_rtakeWhile (p := isLineEnd)
      (l := fingerprint ++ '\r' :: tail)] at hall
    rcases List.mem_append.mp hall with hin | hin
    · exact hin
    · exact absurd (List.mem_rtakeWhile_imp hin) (by decide)
  rw [heq] at hmem
  exact h.noEquals hmem

/-! ## What is handed to the agent -/

variable {n : RemoteNegotiation} {sdp media : Text} {ls : List Text}

/-- The attributes that `SetRemoteSdp` appends. -/
def restored (relayUpgrade p2pEnhancement : Bool) : Text :=
  (if relayUpgrade then "\r\n".toList ++ kRelayUpgradeAttribute ++ "\r\n".toList else []) ++
    if p2pEnhancement then "\r\n".toList ++ kP2pEnhancementAttribute ++ "\r\n".toList else []

/-- The attributes that were lost stand at the end. -/
theorem agent_description_eq (sdp media : Text) : ∃ relayUpgrade p2pEnhancement,
    agentDescription sdp media = media ++ restored relayUpgrade p2pEnhancement ∧
      (relayUpgrade = true ↔ hasIceAttribute sdp kRelayUpgradeAttribute = true ∧
        ¬ hasIceAttribute media kRelayUpgradeAttribute = true) ∧
      (p2pEnhancement = true → hasIceAttribute sdp kP2pEnhancementAttribute = true) := by
  unfold agentDescription restoreAttribute
  by_cases hrelay : hasIceAttribute sdp kRelayUpgradeAttribute = true ∧
    ¬ hasIceAttribute media kRelayUpgradeAttribute = true
  · rw [if_pos hrelay]
    split_ifs with hp2p
    · exact ⟨true, true, by simp [restored], iff_of_true rfl hrelay, fun _ => hp2p.1⟩
    · exact ⟨true, false, by simp [restored], iff_of_true rfl hrelay, fun h => nomatch h⟩
  · rw [if_neg hrelay]
    split_ifs with hp2p
    · exact ⟨false, true, by simp [restored], iff_of_false (by simp) hrelay, fun _ => hp2p.1⟩
    · exact ⟨false, false, by simp [restored], iff_of_false (by simp) hrelay, fun h => nomatch h⟩

theorem restored_hides_none (relayUpgrade p2pEnhancement : Bool) :
    ¬ "a=fingerprint:".toList <:+: restored relayUpgrade p2pEnhancement := by
  cases relayUpgrade <;> cases p2pEnhancement <;> decide

theorem restored_equals {relayUpgrade p2pEnhancement : Bool}
    (h : relayUpgrade = true ∨ p2pEnhancement = true) :
    '=' ∈ restored relayUpgrade p2pEnhancement := by
  cases relayUpgrade <;> cases p2pEnhancement <;> first | decide | simp at h

/-- A description without lines that start with the attribute does not have it. -/
theorem has_ice_attribute_none {iceAttribute : Text} (h : ∀ l ∈ lines sdp, ¬ iceAttribute <+: l) :
    hasIceAttribute sdp iceAttribute = false := by
  unfold hasIceAttribute
  rw [List.any_eq_false]
  intro l hl hattribute
  have heq : dropReturn l = iceAttribute := of_decide_eq_true hattribute
  refine h l hl (heq ▸ ?_)
  unfold dropReturn
  split_ifs
  · exact List.dropLast_prefix l
  · exact List.prefix_refl l

/-- A description with the line of an attribute has it. -/
theorem has_ice_attribute_some {iceAttribute : Text} (hls : ∀ l ∈ ls, '\n' ∉ l)
    (h : iceAttribute ++ ['\r'] ∈ ls) : hasIceAttribute (unlines ls) iceAttribute = true := by
  unfold hasIceAttribute
  rw [lines_unlines hls, List.any_eq_true]
  refine ⟨_, h, ?_⟩
  simp [dropReturn]

/-- A negotiation that succeeds yields the section for the agent. -/
theorem get_remote_capabilities_text (n : RemoteNegotiation) (sdp : Text)
    (h : (n.getRemoteCapabilities sdp).2 ≠ []) :
    (n.getRemoteCapabilities sdp).2 = mediaStreamSdp sdp := by
  unfold RemoteNegotiation.getRemoteCapabilities at h ⊢
  dsimp only at h ⊢
  split_ifs at h ⊢ <;> first | rfl | exact absurd rfl h

/-- What is kept of the description, up to the fingerprint line. -/
def keptSdp (sdp : Text) : Text :=
  ((sectionTables .video sdp).map (·.block)).getD [] ++
    ((find candidateTag sdp).map (sdp.drop ·)).getD []

/-- The fingerprint line starts a line of what the agent gets. -/
theorem media_stream_sdp_eq (h : IsPlain fingerprint) (ls : List Text) {before : Text}
    (hkept : keptSdp (unlines (ls ++ [fingerprintLine fingerprint])) = before ++ ['\n']) :
    mediaStreamSdp (unlines (ls ++ [fingerprintLine fingerprint])) =
      before ++ '\n' :: fingerprintLine fingerprint := by
  have hline : ((unlines (ls ++ [fingerprintLine fingerprint])).drop (unlines ls).length).takeWhile
      (· ≠ '\n') = fingerprintLine fingerprint := by
    rw [unlines_append, List.drop_left, unlines_cons, unlines_nil,
      List.takeWhile_append_of_pos fun c hc => by
        simpa using fun heq : c = '\n' => fingerprint_line_unbroken h (heq ▸ hc)]
    simp
  unfold keptSdp at hkept
  unfold mediaStreamSdp
  simp only [hkept, rfind_fingerprint h, hline]
  rw [if_pos (by simp), List.append_assoc, List.singleton_append]

/-- What the agent makes of a description whose kept part ends a line. -/
theorem received_eq (hplain : IsPlain fingerprint) (ls : List Text) {before : Text}
    (hkept : keptSdp (unlines (ls ++ [fingerprintLine fingerprint])) = before ++ ['\n'])
    (hprocessed : (n.getRemoteCapabilities
      (unlines (ls ++ [fingerprintLine fingerprint]))).2 ≠ []) :
    ∃ relayUpgrade p2pEnhancement,
      n.handed (unlines (ls ++ [fingerprintLine fingerprint])) =
        before ++ '\n' :: (fingerprintLine fingerprint ++ restored relayUpgrade p2pEnhancement) ∧
      n.received (unlines (ls ++ [fingerprintLine fingerprint])) =
        ((fingerprint ++ '\r' :: restored relayUpgrade p2pEnhancement).rdropWhile isLineEnd,
          before) ∧
      (relayUpgrade = true ↔
        hasIceAttribute (unlines (ls ++ [fingerprintLine fingerprint])) kRelayUpgradeAttribute =
          true ∧ ¬ hasIceAttribute (before ++ '\n' :: fingerprintLine fingerprint)
            kRelayUpgradeAttribute = true) ∧
      (p2pEnhancement = true →
        hasIceAttribute (unlines (ls ++ [fingerprintLine fingerprint]))
          kP2pEnhancementAttribute = true) := by
  have hmedia := media_stream_sdp_eq hplain ls hkept
  have htext := get_remote_capabilities_text n _ hprocessed
  generalize unlines (ls ++ [fingerprintLine fingerprint]) = sdp at *
  obtain ⟨relayUpgrade, p2pEnhancement, heq, hrelay, hp2p⟩ := agent_description_eq sdp
    (before ++ '\n' :: fingerprintLine fingerprint)
  have hhanded : n.handed sdp =
      before ++ '\n' :: (fingerprintLine fingerprint ++ restored relayUpgrade p2pEnhancement) := by
    rw [RemoteNegotiation.handed, htext, hmedia, heq, List.append_assoc, List.cons_append]
  refine ⟨relayUpgrade, p2pEnhancement, hhanded, ?_, hrelay, hp2p⟩
  rw [RemoteNegotiation.received, hhanded,
    extract_line hplain before (restored_hides_none relayUpgrade p2pEnhancement)]

/-! ## The lines of a description that is sent -/

theorem fingerprint_is_no_name : ∀ name ∈ lineNames,
    ¬ fingerprintTag <+: name ∧ ¬ name <+: fingerprintTag := by
  decide

theorem relay_upgrade_is_no_name : ∀ name ∈ lineNames,
    ¬ kRelayUpgradeAttribute <+: name ∧ ¬ name <+: kRelayUpgradeAttribute := by
  decide

theorem p2p_enhancement_is_no_name : ∀ name ∈ lineNames,
    ¬ kP2pEnhancementAttribute <+: name ∧ ¬ name <+: kP2pEnhancementAttribute := by
  decide

/-- The lines of a description without its fingerprint, from an agent that does or does not offer
the relay upgrade. -/
structure SentLines (relayUpgrade : Bool) (port : Nat) (capability : Text) (ls : List Text) :
    Prop where
  unbroken : ∀ l ∈ ls, '\n' ∉ l
  noFingerprint : ∀ l ∈ ls, ¬ fingerprintTag <+: l
  plainCapability : '=' ∉ capability
  opens : OpensWith IsNamed [mediaHeader MediaKind.video.tag port ++ capability] ls
  offered : relayUpgrade = true → kRelayUpgradeAttribute ++ ['\r'] ∈ ls
  notOffered : relayUpgrade = false →
    ∀ l ∈ ls, ¬ kRelayUpgradeAttribute <+: l ∧ ¬ kP2pEnhancementAttribute <+: l

variable {port : Nat} {capability : Text}

/-- Where another section seems to start behind the video line. -/
def nextSection (rest : Text) : Nat :=
  min ((find MediaKind.audio.tag rest).getD rest.length)
    ((find MediaKind.data.tag rest).getD rest.length)

/-- Without candidates the video section ends where another section seems to start. -/
theorem video_block_of_header {header rest : Text} (hstart : MediaKind.video.tag <+: header)
    (hskip : ∀ other : MediaKind, other ≠ .video → ¬ other.tag <:+: header)
    (hno : ¬ candidateTag <:+: header ++ '\n' :: rest) :
    sectionBlock .video (header ++ '\n' :: rest) =
      some (header ++ '\n' :: rest.take (nextSection rest)) := by
  have hvideo : find MediaKind.video.tag (header ++ '\n' :: rest) = some 0 :=
    find_of_prefix (hstart.trans (List.prefix_append _ _))
  have hfind : ∀ other : MediaKind, other ≠ .video →
      (find other.tag (header ++ '\n' :: rest)).getD (header ++ '\n' :: rest).length =
        header.length + 1 + (find other.tag rest).getD rest.length := fun other hother =>
    find_end_skip_line (tag_unbroken other) (hskip other hother)
  have hend : sectionEnd (header ++ '\n' :: rest) (endMarks .video) =
      header.length + 1 + nextSection rest := by
    have hle : (find MediaKind.data.tag (header ++ '\n' :: rest)).getD
        (header ++ '\n' :: rest).length ≤ (header ++ '\n' :: rest).length := by
      cases hdata : find MediaKind.data.tag (header ++ '\n' :: rest) with
      | none => exact Nat.le_refl _
      | some i => exact find_le_length hdata
    simp only [sectionEnd, endMarks, List.map_cons, List.map_nil, List.foldr_cons,
      List.foldr_nil, find_eq_none_iff.mpr hno, Option.getD_none, Nat.min_self]
    rw [Nat.min_eq_left hle, hfind .audio (by decide), hfind .data (by decide),
      Nat.add_min_add_left, nextSection]
  rw [sectionBlock, hvideo, Option.map_some, hend, slice, if_pos (Nat.zero_le _), List.drop_zero,
    Nat.sub_zero, Nat.add_assoc, List.take_length_add_append, Nat.add_comm 1, List.take_succ_cons]

/-- No other tag stands in the video section. -/
theorem tag_not_before_next_section {kind : MediaKind} (hkind : kind ≠ .video) (rest : Text) :
    ¬ kind.tag <:+: rest.take (nextSection rest) := by
  cases kind with
  | video => exact absurd rfl hkind
  | audio => exact not_infix_take (by decide) (Nat.min_le_left _ _)
  | data => exact not_infix_take (by decide) (Nat.min_le_right _ _)

/-- A line with a tag bounds the video section. -/
theorem next_section_le {kind : MediaKind} (hkind : kind ≠ .video) {before after : List Text}
    {l : Text} (htag : kind.tag <:+: l) :
    nextSection (unlines (before ++ l :: after)) ≤ (unlines before ++ l).length := by
  have hbound : (find kind.tag (unlines (before ++ l :: after))).getD
      (unlines (before ++ l :: after)).length ≤ (unlines before ++ l).length := by
    obtain ⟨a, b, rfl⟩ := htag
    have hsplit : unlines (before ++ (a ++ kind.tag ++ b) :: after) =
        (unlines before ++ a) ++ (kind.tag ++ (b ++ '\n' :: unlines after)) := by
      simp only [unlines_append, unlines_cons, List.append_assoc]
    obtain ⟨i, hi, hfound⟩ := find_le_of_stands (p := kind.tag) (unlines before ++ a)
      (b ++ '\n' :: unlines after)
    rw [hsplit, hfound, Option.getD_some]
    simp only [List.length_append] at hi ⊢
    omega
  cases kind with
  | video => exact absurd rfl hkind
  | audio => exact (Nat.min_le_left _ _).trans hbound
  | data => exact (Nat.min_le_right _ _).trans hbound

/-- What is read from the video section of a description without candidates: beginnings of named
lines, in which no other section seems to start. -/
theorem video_section_tables (hunbroken : ∀ l ∈ ls, '\n' ∉ l) (hcapability : '=' ∉ capability)
    (hopens : OpensWith IsNamed [mediaHeader MediaKind.video.tag port ++ capability] ls)
    (hno : ¬ candidateTag <:+: unlines ls) :
    ∃ xs, sectionTables .video (unlines ls) =
        some (readTables .video ((mediaHeader MediaKind.video.tag port ++ capability) :: xs)) ∧
      ∀ x ∈ xs, '\n' ∉ x ∧ (∃ m, IsNamed m ∧ x <+: m) ∧
        ∀ kind : MediaKind, kind ≠ .video → ¬ kind.tag <:+: x := by
  obtain ⟨before, l, after, hls, ⟨kind, hkind, htag⟩, hbefore, hl⟩ := hopens
  have hheader : '\n' ∉ mediaHeader MediaKind.video.tag port ++ capability :=
    hunbroken _ (by simp [hls])
  have hstart : MediaKind.video.tag <+: mediaHeader MediaKind.video.tag port ++ capability := by
    rw [mediaHeader, List.append_assoc]
    exact List.prefix_append _ _
  have hskip : ∀ other : MediaKind, other ≠ .video →
      ¬ other.tag <:+: mediaHeader MediaKind.video.tag port ++ capability := fun other hother =>
    tag_not_in_media_line port hother hcapability
  generalize mediaHeader MediaKind.video.tag port ++ capability = header at *
  have htext : unlines ls = header ++ '\n' :: unlines (before ++ l :: after) := by
    rw [hls, List.singleton_append, unlines_cons]
  have hunbroken' : ∀ m ∈ before ++ [l], '\n' ∉ m := by
    intro m hm
    refine hunbroken m ?_
    simp only [hls, List.mem_append, List.mem_cons, List.not_mem_nil, or_false] at hm ⊢
    rcases hm with hm | rfl
    · exact Or.inr (Or.inl hm)
    · exact Or.inr (Or.inr (Or.inl rfl))
  -- The section is cut within the line that has the tag.
  have hcut : (unlines (before ++ l :: after)).take (nextSection (unlines (before ++ l :: after))) =
      (unlines (before ++ [l])).take (nextSection (unlines (before ++ l :: after))) := by
    have hstop : nextSection (unlines (before ++ l :: after)) ≤ (unlines before ++ l).length :=
      next_section_le hkind htag
    have hlong : unlines (before ++ l :: after) =
        (unlines before ++ l) ++ '\n' :: unlines after := by
      simp only [unlines_append, unlines_cons, List.append_assoc]
    have hshort : unlines (before ++ [l]) = (unlines before ++ l) ++ ['\n'] := by
      simp only [unlines_append, unlines_cons, unlines_nil, List.append_assoc]
    generalize nextSection (unlines (before ++ l :: after)) = stop at hstop
    rw [hlong, hshort, List.take_append_of_le_length hstop, List.take_append_of_le_length hstop]
  rw [htext] at hno ⊢
  refine ⟨lines ((unlines (before ++ l :: after)).take
    (nextSection (unlines (before ++ l :: after)))), ?_, ?_⟩
  · rw [sectionTables, video_block_of_header hstart hskip hno, Option.map_some, lines_line hheader]
  · intro x hx
    have hnoTag : ∀ kind : MediaKind, kind ≠ .video → ¬ kind.tag <:+: x := fun other hother h =>
      tag_not_before_next_section hother _ (h.trans (infix_of_mem_lines hx))
    rw [hcut] at hx
    obtain ⟨m, hm, hcut⟩ := prefix_of_mem_lines_take hunbroken' hx
    refine ⟨fun hbreak => hunbroken' m hm (hcut.subset hbreak), ⟨m, ?_, hcut⟩, hnoTag⟩
    rcases List.mem_append.mp hm with hm | hm
    · exact hbefore m hm
    · exact List.mem_singleton.mp hm ▸ hl

/-! ## When the fingerprint survives -/

/-- Lines that follow do not change how a description opens. -/
theorem opens_with_append {P : Text → Prop} {front : List Text} (h : OpensWith P front ls)
    (more : List Text) : OpensWith P front (ls ++ more) := by
  obtain ⟨before, l, after, rfl, htag, hbefore, hl⟩ := h
  exact ⟨before, l, after ++ more, by simp only [List.append_assoc, List.cons_append], htag,
    hbefore, hl⟩

/-- A candidate carries the rest of the description along, the fingerprint line included. -/
theorem candidate_keeps_line (hplain : IsPlain fingerprint) (hcand : candidateTag <:+: unlines ls)
    (hprocessed : (n.getRemoteCapabilities
      (unlines (ls ++ [fingerprintLine fingerprint]))).2 ≠ []) :
    fingerprintLine fingerprint ∈
      lines (n.received (unlines (ls ++ [fingerprintLine fingerprint]))).2 := by
  have hne : ls ≠ [] := by
    rintro rfl
    exact absurd hcand (by decide)
  obtain ⟨front, last, -, htext⟩ := unlines_last hne
  cases hfind : find candidateTag (unlines ls) with
  | none => exact absurd hcand (find_eq_none_iff.mp hfind)
  | some pos =>
      have hpos : pos ≤ (unlines front ++ last).length := by
        have hfit := (prefix_of_find hfind).length_le
        have hlong : candidateTag.length = 11 := rfl
        rw [htext, List.length_drop, List.length_append, List.length_singleton, hlong] at hfit
        omega
      have hdrop : (unlines (ls ++ [fingerprintLine fingerprint])).drop pos =
          (unlines front ++ last).drop pos ++
            ('\n' :: fingerprintLine fingerprint ++ ['\n']) := by
        rw [unlines_append, htext, unlines_cons, unlines_nil, List.append_assoc,
          List.drop_append_of_le_length hpos]
        rfl
      have hkept : keptSdp (unlines (ls ++ [fingerprintLine fingerprint])) =
          ((((sectionTables .video (unlines (ls ++ [fingerprintLine fingerprint]))).map
            (·.block)).getD [] ++ (unlines front ++ last).drop pos) ++
              '\n' :: fingerprintLine fingerprint) ++ ['\n'] := by
        have hwhole : find candidateTag (unlines (ls ++ [fingerprintLine fingerprint])) =
            some pos := by
          rw [unlines_append, find_append_of_some hfind]
        unfold keptSdp
        rw [hwhole, Option.map_some, Option.getD_some, hdrop]
        simp only [List.append_assoc, List.cons_append]
      obtain ⟨_, _, -, hreceived, -⟩ := received_eq hplain ls hkept hprocessed
      rw [hreceived, lines_append_break, lines_last (fingerprint_line_unbroken hplain)
        (by unfold fingerprintLine; simp)]
      simp

/-- The fingerprint line hides no candidate. -/
theorem candidate_not_in_fingerprint (hplain : IsPlain fingerprint) :
    ¬ candidateTag <:+: fingerprintLine fingerprint := by
  have hletter := fingerprint_line_append fingerprint []
  rw [List.append_nil] at hletter
  intro hin
  rw [hletter] at hin
  rcases List.infix_cons_iff.mp hin with hstart | hwithin
  · rw [← hletter] at hstart
    unfold fingerprintLine at hstart
    exact not_prefix_append (by decide) (by decide) _ hstart
  · exact fingerprint_line_once hplain (by decide) ⟨_, rfl⟩ (by decide) hwithin

/-- Without candidates the agent gets the lines of the video section and the fingerprint line. -/
theorem no_candidate_received {relayUpgrade : Bool}
    (h : SentLines relayUpgrade port capability ls) (hplain : IsPlain fingerprint)
    (hno : ¬ candidateTag <:+: unlines ls) :
    ∃ front last, (∀ k ∈ front ++ [last], '\n' ∉ k ∧ ¬ fingerprintTag <+: k ∧
        ¬ kRelayUpgradeAttribute <+: k) ∧
      keptSdp (unlines (ls ++ [fingerprintLine fingerprint])) =
        (unlines front ++ last) ++ ['\n'] := by
  have hunbroken : ∀ l ∈ ls ++ [fingerprintLine fingerprint], '\n' ∉ l := by
    intro l hl
    rcases List.mem_append.mp hl with hl | hl
    · exact h.unbroken l hl
    · exact List.mem_singleton.mp hl ▸ fingerprint_line_unbroken hplain
  have hline := candidate_not_in_fingerprint hplain
  have hno' : ¬ candidateTag <:+: unlines (ls ++ [fingerprintLine fingerprint]) := by
    rw [infix_unlines (by decide) (by decide)] at hno ⊢
    rintro ⟨l, hl, hin⟩
    rcases List.mem_append.mp hl with hl | hl
    · exact hno ⟨l, hl, hin⟩
    · exact hline (List.mem_singleton.mp hl ▸ hin)
  obtain ⟨xs, htables, hxs⟩ := video_section_tables hunbroken h.plainCapability
    (opens_with_append h.opens _) hno'
  have hheader : '\n' ∉ mediaHeader MediaKind.video.tag port ++ capability := by
    obtain ⟨before, l, after, hls, -⟩ := h.opens
    exact h.unbroken _ (by simp [hls])
  have hmedia : ∀ p ∈ [fingerprintTag, kRelayUpgradeAttribute],
      ¬ p <+: mediaHeader MediaKind.video.tag port ++ capability := by
    have hnamed : IsNamed (mediaHeader MediaKind.video.tag port ++ capability) := by
      refine ⟨"m=".toList, by decide, ?_⟩
      rw [mediaHeader, List.append_assoc]
      exact (tag_starts .video).trans (List.prefix_append _ _)
    intro p hp
    simp only [List.mem_cons, List.not_mem_nil, or_false] at hp
    rcases hp with rfl | rfl
    · exact not_prefix_of_named fingerprint_is_no_name hnamed
    · exact not_prefix_of_named relay_upgrade_is_no_name hnamed
  have hclass : classify .video (mediaHeader MediaKind.video.tag port ++ capability) = .kept :=
    classify_media_line .video port capability
  generalize mediaHeader MediaKind.video.tag port ++ capability = header at *
  have hks : ∀ k ∈ header :: xs.filter fun line => classify .video line = .kept,
      '\n' ∉ k ∧ ¬ fingerprintTag <+: k ∧ ¬ kRelayUpgradeAttribute <+: k := by
    intro k hk
    rcases List.mem_cons.mp hk with rfl | hk
    · exact ⟨hheader, hmedia _ (by simp), hmedia _ (by simp)⟩
    · obtain ⟨hbreak, ⟨m, hm, hcut⟩, -⟩ := hxs k (List.mem_of_mem_filter hk)
      exact ⟨hbreak, fun hp => not_prefix_of_named fingerprint_is_no_name hm (hp.trans hcut),
        fun hp => not_prefix_of_named relay_upgrade_is_no_name hm (hp.trans hcut)⟩
  obtain ⟨front, last, heq, htext⟩ := unlines_last
    (List.cons_ne_nil header (xs.filter fun line => classify .video line = .kept))
  refine ⟨front, last, heq ▸ hks, ?_⟩
  unfold keptSdp
  rw [find_eq_none_iff.mpr hno', htables, ← htext, read_tables_eq]
  show unlines ((header :: xs).filter fun line => classify .video line = .kept) ++ [] = _
  rw [List.append_nil, List.filter_cons_of_pos (by simpa using hclass)]

/-- The fingerprint survives when there are neither candidates nor the attributes of the
extensions. -/
theorem survives_iff {relayUpgrade : Bool} (h : SentLines relayUpgrade port capability ls)
    (hplain : IsPlain fingerprint)
    (hprocessed : (n.getRemoteCapabilities
      (unlines (ls ++ [fingerprintLine fingerprint]))).2 ≠ []) :
    FingerprintSurvives n (unlines (ls ++ [fingerprintLine fingerprint])) fingerprint ↔
      ¬ candidateTag <:+: unlines ls ∧ relayUpgrade = false := by
  by_cases hcand : candidateTag <:+: unlines ls
  · refine iff_of_false (fun hsurvives => ?_) fun hboth => hboth.1 hcand
    refine hsurvives.stripped _ (candidate_keeps_line hplain hcand hprocessed) ?_
    unfold fingerprintLine
    exact List.IsPrefix.trans (by decide) (List.prefix_append _ _)
  obtain ⟨front, last, hks, hkept⟩ := no_candidate_received h hplain hcand
  obtain ⟨restoresRelay, restoresP2p, hhanded, hreceived, hrelay, hp2p⟩ :=
    received_eq hplain ls hkept hprocessed
  have hbreak : ∀ k ∈ front, '\n' ∉ k := fun k hk => (hks k (by simp [hk])).1
  have hlast : '\n' ∉ last := (hks last (by simp)).1
  have hline := fingerprint_line_unbroken hplain
  have hunbroken : ∀ l ∈ ls ++ [fingerprintLine fingerprint], '\n' ∉ l := by
    intro l hl
    rcases List.mem_append.mp hl with hl | hl
    · exact h.unbroken l hl
    · exact List.mem_singleton.mp hl ▸ hline
  -- The lines of the text for the agent, up to the fingerprint line.
  have hlines : lines ((unlines front ++ last) ++ '\n' :: fingerprintLine fingerprint) =
      front ++ [last] ++ [fingerprintLine fingerprint] := by
    rw [List.append_assoc, lines_unlines_append hbreak, lines_line hlast,
      lines_last hline (by unfold fingerprintLine; simp)]
    simp
  have hbefore : lines (unlines front ++ last) = front ++ lines last :=
    lines_unlines_append hbreak
  have hlastLines : ∀ l ∈ lines last, l = last := fun l hl => eq_of_mem_lines hlast hl
  cases relayUpgrade with
  | true =>
      refine iff_of_false (fun hsurvives => ?_) fun hboth => nomatch hboth.2
      have hrestored : restoresRelay = true := by
        refine hrelay.mpr ⟨has_ice_attribute_some hunbroken
          (List.mem_append_left _ (h.offered rfl)), ?_⟩
        rw [Bool.not_eq_true]
        refine has_ice_attribute_none fun l hl => ?_
        rw [hlines] at hl
        rcases List.mem_append.mp hl with hl | hl
        · exact (hks l hl).2.2
        · obtain rfl := List.mem_singleton.mp hl
          unfold fingerprintLine
          exact not_prefix_append (by decide) (by decide) _
      have hequals : '=' ∈ restored restoresRelay restoresP2p :=
        restored_equals (Or.inl hrestored)
      have hspoiled := fingerprint_spoiled hplain hequals
      exact hspoiled (by simpa only [hreceived] using hsurvives.extracted)
  | false =>
      refine iff_of_true ?_ ⟨hcand, rfl⟩
      have hnone : ∀ iceAttribute : Text, (∀ l ∈ ls, ¬ iceAttribute <+: l) →
          ¬ iceAttribute <+: fingerprintLine fingerprint →
          hasIceAttribute (unlines (ls ++ [fingerprintLine fingerprint])) iceAttribute = false := by
        intro iceAttribute hls hfingerprint
        refine has_ice_attribute_none fun l hl => ?_
        rw [lines_unlines hunbroken] at hl
        rcases List.mem_append.mp hl with hl | hl
        · exact hls l hl
        · exact List.mem_singleton.mp hl ▸ hfingerprint
      have hfirst : restoresRelay = false := by
        have hrelayNone := hnone kRelayUpgradeAttribute (fun l hl => (h.notOffered rfl l hl).1)
          (by unfold fingerprintLine; exact not_prefix_append (by decide) (by decide) _)
        rw [← Bool.not_eq_true, hrelay, hrelayNone]
        simp
      have hsecond : restoresP2p = false := by
        have hp2pNone := hnone kP2pEnhancementAttribute (fun l hl => (h.notOffered rfl l hl).2)
          (by unfold fingerprintLine; exact not_prefix_append (by decide) (by decide) _)
        rw [← Bool.not_eq_true]
        intro htrue
        rw [hp2p htrue] at hp2pNone
        cases hp2pNone
      have hnothing : restored restoresRelay restoresP2p = [] := by
        rw [hfirst, hsecond]
        rfl
      rw [hnothing] at hhanded hreceived
      rw [List.append_nil] at hhanded
      refine ⟨by rw [hreceived]; exact fingerprint_alone hplain, ?_, ?_⟩
      · intro l hl
        rw [hreceived, hbefore] at hl
        rcases List.mem_append.mp hl with hl | hl
        · exact (hks l (by simp [hl])).2.1
        · exact hlastLines l hl ▸ (hks last (by simp)).2.1
      · intro l hl hne hnoTag
        rw [hhanded, hlines] at hl
        rw [hreceived, hbefore]
        simp only [List.mem_append, List.mem_singleton] at hl ⊢
        rcases hl with (hl | rfl) | rfl
        · exact Or.inl hl
        · rw [lines_last hlast hne]
          exact Or.inr List.mem_cons_self
        · refine absurd ?_ hnoTag
          unfold fingerprintLine
          exact List.IsPrefix.trans (by decide) (List.prefix_append _ _)

/-! ## The descriptions of the agent -/

/-- A peer describes itself with an offer or an answer. -/
inductive LocalSide where
  | offer (preferred : ℤ)
  | answer (remote : VideoTransportCapabilities) (negotiated : Negotiated)

/-- What is announced besides the streams. -/
def LocalSide.plan : LocalSide → SessionPlan
  | .offer preferred => offerPlan preferred ⟨[], no_lines_plain⟩
  | .answer remote negotiated => answerPlan remote negotiated ⟨[], no_lines_plain⟩

/-- The description without its fingerprint line. -/
def describe (stream : NiceStream) (options : AgentOptions) (side : LocalSide)
    (streams : LocalStreams) : Text :=
  localDescription (stream.base options) side.plan streams

/-- The description that `SendOffer` and `SendAnswer` send. -/
def localSdp (stream : NiceStream) (options : AgentOptions) (side : LocalSide)
    (streams : LocalStreams) (digest : List (BitVec 8)) : Text :=
  appendFingerprintLine (describe stream options side streams) (computeFingerprint digest)

variable {stream : NiceStream} {options : AgentOptions} {side : LocalSide}
  {streams : LocalStreams} {l : Text}

/-- What the lines of the library start with. -/
def niceNames : List Text :=
  ["c=IN ".toList, "a=rtcp".toList, "a=ice-ufrag:".toList, "a=ice-pwd:".toList,
    "a=candidate:".toList]

/-- What the lines of the streams start with. -/
def streamNames : List Text :=
  ["a=ssrc".toList, "a=x-reliable-data:".toList]

theorem nice_line_starts (line : NiceLine) : StartsWith niceNames line.text := by
  have hname : ∃ name ∈ niceNames, name <+: line.field.name := by
    cases line.field
    · exact ⟨"c=IN ".toList, by decide, by decide⟩
    · exact ⟨"a=rtcp".toList, by decide, by decide⟩
    · exact ⟨"a=ice-ufrag:".toList, by decide, by decide⟩
    · exact ⟨"a=ice-pwd:".toList, by decide, by decide⟩
    · exact ⟨"a=candidate:".toList, by decide, by decide⟩
  obtain ⟨name, hmem, hcut⟩ := hname
  exact ⟨name, hmem, hcut.trans (List.prefix_append _ _)⟩

theorem nice_line_named (line : NiceLine) : IsNamed line.text :=
  (nice_line_starts line).mono (by decide)

theorem lines_for_start (kind : MediaKind) :
    ∀ l ∈ stream.linesFor kind, StartsWith niceNames l := by
  intro l hl
  obtain ⟨line, -, rfl⟩ := List.mem_map.mp hl
  exact nice_line_starts line

theorem lines_for_named (kind : MediaKind) : ∀ l ∈ stream.linesFor kind, IsNamed l :=
  fun l hl => (lines_for_start kind l hl).mono (by decide)

theorem media_line_named (kind : MediaKind) (port : Nat) (capability : Text) :
    IsNamed (mediaHeader kind.tag port ++ capability) := by
  refine ⟨"m=".toList, by decide, ?_⟩
  rw [mediaHeader, List.append_assoc]
  exact (tag_starts kind).trans (List.prefix_append _ _)

theorem extmap_lines_start (ids : AbsoluteSendTimeExtensionIds) :
    ∀ l ∈ localExtmapLines ids, StartsWith ["a=extmap:".toList] l := by
  intro l hl
  obtain ⟨id, rfl⟩ := mem_local_extmap_lines hl
  exact ⟨"a=extmap:".toList, List.mem_cons_self, List.prefix_append _ _⟩

theorem video_transport_lines_start (mediaPayload : Text) (include_ : VideoTransportCapabilities) :
    ∀ l ∈ videoTransportLines mediaPayload include_,
      StartsWith ["a=rtpmap:".toList, "a=fmtp:".toList, "a=rtcp".toList] l := by
  intro l hl
  simp only [videoTransportLines, List.mem_append, List.mem_ite_nil_right, List.mem_cons,
    List.not_mem_nil, or_false] at hl
  rcases hl with ⟨-, rfl | rfl⟩ | ⟨-, rfl⟩ | ⟨-, rfl⟩ | ⟨-, rfl⟩
  · exact ⟨"a=rtpmap:".toList, by decide, by decide⟩
  · exact ⟨"a=fmtp:".toList, by decide, List.IsPrefix.trans (by decide) (List.prefix_append _ _)⟩
  · rw [List.append_assoc]
    exact ⟨"a=rtcp".toList, by decide, List.IsPrefix.trans (by decide) (List.prefix_append _ _)⟩
  · rw [List.append_assoc]
    exact ⟨"a=rtcp".toList, by decide, List.IsPrefix.trans (by decide) (List.prefix_append _ _)⟩
  · exact ⟨"a=rtcp".toList, by decide, by decide⟩

/-- The attribute lines of offers and answers. -/
theorem plan_named (side : LocalSide) : (∀ l ∈ side.plan.video.extra, IsNamed l) ∧
    (∀ l ∈ side.plan.audio.extra, IsNamed l) ∧ ∀ l ∈ side.plan.data.extra, IsNamed l := by
  have hextmap : ∀ ids, ∀ l ∈ localExtmapLines ids, IsNamed l := fun ids l hl =>
    (extmap_lines_start ids l hl).mono (by decide)
  have htransport : ∀ mediaPayload include_, ∀ l ∈ videoTransportLines mediaPayload include_,
      IsNamed l := fun mediaPayload include_ l hl =>
    (video_transport_lines_start mediaPayload include_ l hl).mono (by decide)
  cases side with
  | offer preferred =>
      exact ⟨List.forall_mem_append.mpr ⟨hextmap _, htransport _ _⟩, hextmap offeredIds,
        List.forall_mem_nil _⟩
  | answer remote negotiated =>
      exact ⟨List.forall_mem_append.mpr ⟨hextmap _, htransport _ _⟩,
        hextmap { negotiated.audioIds with valid := true }, List.forall_mem_nil _⟩

/-- The lines of the streams. -/
theorem stream_lines_start (includeVideoRtx : Bool) (streams : LocalStreams) :
    (∀ l ∈ streams.video.flatMap (videoLines includeVideoRtx), StartsWith streamNames l) ∧
      (∀ l ∈ streams.audio.flatMap audioLines, StartsWith streamNames l) ∧
      ∀ l ∈ streams.data.flatMap dataLines, StartsWith streamNames l := by
  have hssrc : ∀ tail, StartsWith streamNames ("a=ssrc".toList ++ tail) := fun tail =>
    ⟨"a=ssrc".toList, by decide, List.prefix_append _ _⟩
  have hname : ∀ ssrc id, StartsWith streamNames (nameLine ssrc id) := by
    intro ssrc id
    rw [name_line_eq]
    exact hssrc (':' :: _)
  have hgroup : ∀ mediaSsrc rtxSsrc, StartsWith streamNames (groupLine mediaSsrc rtxSsrc) := by
    intro mediaSsrc rtxSsrc
    rw [group_line_eq]
    exact hssrc ("-group:".toList ++ _)
  have hcname : ∀ ssrc id, StartsWith streamNames (cnameLine ssrc id) := by
    intro ssrc id
    rw [cname_line_eq]
    exact hssrc (':' :: _)
  have hreliable : ∀ ssrc reliable, StartsWith streamNames (reliableLine ssrc reliable) := by
    intro ssrc reliable
    rw [reliable_line_eq]
    exact ⟨"a=x-reliable-data:".toList, by decide, List.prefix_append _ _⟩
  refine ⟨fun l hl => ?_, fun l hl => ?_, fun l hl => ?_⟩ <;>
    obtain ⟨sender, -, hl⟩ := List.mem_flatMap.mp hl
  · cases includeVideoRtx with
    | false => exact List.mem_singleton.mp hl ▸ hname _ _
    | true =>
        simp only [videoLines, if_pos, List.mem_cons, List.not_mem_nil, or_false] at hl
        rcases hl with rfl | rfl | rfl
        · exact hname _ _
        · exact hgroup _ _
        · exact hcname _ _
  · exact List.mem_singleton.mp hl ▸ hname _ _
  · simp only [dataLines, List.mem_cons, List.not_mem_nil, or_false] at hl
    rcases hl with rfl | rfl
    · exact hname _ _
    · exact hreliable _ _

theorem stream_lines_named (includeVideoRtx : Bool) (streams : LocalStreams) :
    (∀ l ∈ streams.video.flatMap (videoLines includeVideoRtx), IsNamed l) ∧
      (∀ l ∈ streams.audio.flatMap audioLines, IsNamed l) ∧
      ∀ l ∈ streams.data.flatMap dataLines, IsNamed l := by
  obtain ⟨hvideo, haudio, hdata⟩ := stream_lines_start includeVideoRtx streams
  exact ⟨fun l hl => (hvideo l hl).mono (by decide), fun l hl => (haudio l hl).mono (by decide),
    fun l hl => (hdata l hl).mono (by decide)⟩

/-- The capability of the video line. -/
def videoHeader (stream : NiceStream) (side : LocalSide) : Text :=
  mediaHeader MediaKind.video.tag stream.port ++ side.plan.video.capability

/-- What follows the video line in its section. -/
def videoRest (stream : NiceStream) (side : LocalSide) (streams : LocalStreams) : List Text :=
  stream.lines.map NiceLine.text ++ (side.plan.video.extra ++
    streams.video.flatMap (videoLines side.plan.includeVideoRtx))

/-- The lines before the audio section is configured. -/
theorem video_configured_eq : videoConfigured (stream.base options) side.plan streams =
    [videoHeader stream side] ++ (videoRest stream side streams ++
      (mediaHeader MediaKind.audio.tag stream.port ++ "ICE/SDP".toList) ::
        (stream.linesFor .audio ++
          (mediaHeader MediaKind.data.tag stream.port ++ "ICE/SDP".toList) ::
            (stream.linesFor .data ++ options.lines))) := by
  show [] ++ sectionLines .video _ _ _ ++ (Section.lines _ _ ++ Section.lines _ _) = _
  simp only [sectionLines, Section.lines, videoHeader, videoRest, NiceStream.base,
    List.nil_append, List.cons_append, List.append_assoc]

theorem video_rest_named : ∀ l ∈ videoRest stream side streams, IsNamed l := by
  intro l hl
  simp only [videoRest, List.mem_append] at hl
  rcases hl with hl | hl | hl
  · obtain ⟨line, -, rfl⟩ := List.mem_map.mp hl
    exact nice_line_named line
  · exact (plan_named side).1 l hl
  · exact (stream_lines_named _ streams).1 l hl

/-- Every line has a name or is about an extension. -/
theorem video_configured_named :
    ∀ l ∈ videoConfigured (stream.base options) side.plan streams,
      IsNamed l ∨ l ∈ options.lines := by
  intro l hl
  rw [video_configured_eq] at hl
  simp only [List.mem_append, List.mem_cons, List.not_mem_nil, or_false] at hl
  rcases hl with rfl | hl | rfl | hl | rfl | hl | hl
  · exact Or.inl (media_line_named _ _ _)
  · exact Or.inl (video_rest_named l hl)
  · exact Or.inl (media_line_named _ _ _)
  · exact Or.inl (lines_for_named _ l hl)
  · exact Or.inl (media_line_named _ _ _)
  · exact Or.inl (lines_for_named _ l hl)
  · exact Or.inr hl

/-- A line of an extension hides no tag. -/
theorem extension_hides_none (kind : MediaKind) (hl : l ∈ options.lines) : ¬ kind.tag <:+: l :=
  (extension_lines_are_body_lines options l hl).hidesNone kind

/-- The lines of a description, whatever the ids of the streams are. -/
theorem describe_lines (stream : NiceStream) (options : AgentOptions) (side : LocalSide)
    (streams : LocalStreams) : ∃ ls, describe stream options side streams = unlines ls ∧
      SentLines options.relayUpgrade stream.port side.plan.video.capability ls := by
  obtain ⟨ls, ls', haudio, hdata, heq, hunbroken⟩ :=
    local_description_lines (stream.base options) side.plan streams
  have hadded : (∀ l ∈ audioAdded side.plan streams, IsNamed l) ∧
      ∀ l ∈ dataAdded side.plan streams, IsNamed l := by
    refine ⟨fun l hl => ?_, fun l hl => ?_⟩ <;> rcases List.mem_append.mp hl with hl | hl
    · exact (plan_named side).2.1 l hl
    · exact (stream_lines_named true streams).2.1 l hl
    · exact (plan_named side).2.2 l hl
    · exact (stream_lines_named true streams).2.2 l hl
  have hnamed : ∀ l ∈ ls', IsNamed l ∨ l ∈ options.lines := by
    have hplace : ∀ kind : MediaKind, ∀ placed start line,
        IsNamed (start ++ (kind.tag ++ line)) ∨ start ++ (kind.tag ++ line) ∈ options.lines →
        IsNamed (start ++ (kind.tag ++ placed)) ∨
          start ++ (kind.tag ++ placed) ∈ options.lines := by
      rintro kind placed start line (h | h)
      · exact Or.inl (named_placed kind start line placed h)
      · exact absurd ⟨start, line, by simp⟩ (extension_hides_none kind h)
    exact hdata.all (fun start line => hplace .data _ start line)
      (haudio.all (fun start line => hplace .audio _ start line) video_configured_named
        fun l hl => Or.inl (hadded.1 l hl)) fun l hl => Or.inl (hadded.2 l hl)
  have hopens : OpensWith IsNamed [videoHeader stream side] ls' := by
    have hstart : OpensWith IsNamed [videoHeader stream side]
        (videoConfigured (stream.base options) side.plan streams) :=
      ⟨_, _, _, video_configured_eq, ⟨.audio, by decide, by
        rw [mediaHeader, List.append_assoc]
        exact (List.prefix_append _ _).isInfix⟩, video_rest_named, media_line_named _ _ _⟩
    have hfront : ∀ kind : MediaKind, kind ≠ .video →
        ∀ l ∈ [videoHeader stream side], ¬ kind.tag <:+: l := by
      intro kind hkind l hl
      rw [List.mem_singleton.mp hl]
      exact tag_not_in_media_line _ hkind side.plan.video.plainCapability.2
    exact hdata.opensWith (by decide) (hfront .data (by decide))
      (fun start line => named_placed .data start line _)
      (haudio.opensWith (by decide) (hfront .audio (by decide))
        (fun start line => named_placed .audio start line _) hstart)
  refine ⟨ls', heq, hunbroken, ?_, side.plan.video.plainCapability.2, hopens, ?_, ?_⟩
  · intro l hl
    rcases hnamed l hl with h | h
    · exact not_prefix_of_named fingerprint_is_no_name h
    · unfold AgentOptions.lines at h
      split_ifs at h
      · simp only [List.mem_cons, List.not_mem_nil, or_false] at h
        rcases h with rfl | rfl <;> decide
      · obtain rfl := List.mem_singleton.mp h
        decide
      · cases h
  · intro hrelay
    have hin : kRelayUpgradeAttribute ++ ['\r'] ∈ options.lines := by
      unfold AgentOptions.lines
      rw [if_pos hrelay]
      exact List.mem_cons_self
    have hconfigured : kRelayUpgradeAttribute ++ ['\r'] ∈
        videoConfigured (stream.base options) side.plan streams := by
      rw [video_configured_eq]
      simp [hin]
    exact hdata.keeps (haudio.keeps hconfigured (extension_hides_none .audio hin))
      (extension_hides_none .data hin)
  · intro hrelay l hl
    rcases hnamed l hl with h | h
    · exact ⟨not_prefix_of_named relay_upgrade_is_no_name h,
        not_prefix_of_named p2p_enhancement_is_no_name h⟩
    · unfold AgentOptions.lines at h
      rw [hrelay] at h
      cases h

/-- Every description that is processed has something for the agent. -/
theorem known_capabilities_processed (hgot : n.remoteCapabilitiesGot = true) (stream : NiceStream)
    (options : AgentOptions) (side : LocalSide) (streams : LocalStreams)
    (digest : List (BitVec 8)) :
    (n.getRemoteCapabilities (localSdp stream options side streams digest)).2 ≠ [] := by
  obtain ⟨ls, hls, -⟩ := describe_lines stream options side streams
  rw [RemoteNegotiation.get_remote_capabilities_known hgot, localSdp, hls, append_fingerprint_eq]
  unfold mediaStreamSdp
  simp only [rfind_fingerprint (fingerprint_plain digest)]
  intro hnil
  have hline :
      (unlines [fingerprintLine (computeFingerprint digest)]).takeWhile (· ≠ '\n') = [] := by
    rw [unlines_append, List.drop_left] at hnil
    split_ifs at hnil
    · exact (List.append_eq_nil_iff.mp hnil).2
    · exact absurd (List.append_eq_nil_iff.mp hnil).2 (List.cons_ne_nil _ _)
  unfold fingerprintLine at hline
  rw [unlines_cons] at hline
  revert hline
  simp

/-- The fingerprint of a sender arrives, its line is stripped and nothing else is lost, exactly when
the description has no candidate and the agent does not offer the relay upgrade. -/
theorem fingerprint_survives_iff (n : RemoteNegotiation) (stream : NiceStream)
    (options : AgentOptions) (side : LocalSide) (streams : LocalStreams) (digest : List (BitVec 8))
    (hprocessed : (n.getRemoteCapabilities
      (localSdp stream options side streams digest)).2 ≠ []) :
    FingerprintSurvives n (localSdp stream options side streams digest)
        (computeFingerprint digest) ↔
      ¬ candidateTag <:+: describe stream options side streams ∧ options.relayUpgrade = false := by
  obtain ⟨ls, hls, hsent⟩ := describe_lines stream options side streams
  rw [localSdp, hls, append_fingerprint_eq] at hprocessed ⊢
  exact survives_iff hsent (fingerprint_plain digest) hprocessed

/-- A stream without candidates. -/
def trickledStream : NiceStream where
  port := 9
  lines := [⟨.iceUfrag, "Qh3m".toList, by decide, by decide⟩,
    ⟨.icePwd, "b1dXeaZTTS6/qgLMcWS5pK".toList, by decide, by decide⟩]

/-- A peer whose capabilities are known. -/
def knownPeer : RemoteNegotiation where
  offerPeer := false
  supported := fun _ => ⟨[96, 99, 111, 120], by decide⟩
  remoteCapabilitiesGot := true

/-- A digest of 32 bytes. -/
def sampleDigest : List (BitVec 8) := List.replicate 32 0xAB

/-- With an agent that does not offer the relay upgrade the fingerprint arrives. -/
theorem fingerprint_of_standard_agent :
    FingerprintSurvives knownPeer
      (localSdp trickledStream ⟨false, false, false, false⟩ (.offer 96) threeStreams sampleDigest)
      (computeFingerprint sampleDigest) :=
  (fingerprint_survives_iff knownPeer trickledStream ⟨false, false, false, false⟩ (.offer 96)
    threeStreams sampleDigest (known_capabilities_processed rfl _ _ _ _ _)).mpr
    ⟨by decide +kernel, rfl⟩

/-- The attribute of the relay upgrade spoils the fingerprint. -/
theorem relay_upgrade_spoils_fingerprint :
    ¬ FingerprintSurvives knownPeer
      (localSdp trickledStream ⟨false, false, true, true⟩ (.offer 96) threeStreams sampleDigest)
      (computeFingerprint sampleDigest) := by
  obtain ⟨ls, hls, hsent⟩ := describe_lines trickledStream ⟨false, false, true, true⟩ (.offer 96)
    threeStreams
  have hprocessed : (knownPeer.getRemoteCapabilities (localSdp trickledStream
      ⟨false, false, true, true⟩ (.offer 96) threeStreams sampleDigest)).2 ≠ [] :=
    known_capabilities_processed rfl _ _ _ _ _
  rw [localSdp, hls, append_fingerprint_eq] at hprocessed ⊢
  rw [survives_iff hsent (fingerprint_plain sampleDigest) hprocessed]
  rintro ⟨-, hoption⟩
  exact absurd hoption (by decide)

end MiniRtc

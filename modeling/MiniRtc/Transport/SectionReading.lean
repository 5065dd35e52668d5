import MiniRtc.Transport.ConfiguredLines
import MiniRtc.Transport.SessionCapabilities

/-!
# Reading the capabilities of a section

What a peer reads from the lines of a section: its payload type, whether retransmission is
supported, and the ids of the header extension. `GetMediaSection` and the payload negotiation look
for the section by its tag, so each result is about the first line with that tag.
-/

namespace MiniRtc

open Text

namespace IceTransport

variable {kind : MediaKind} {header capability : Text} {before body rest ls : List Text}

/-! ## The lines of a section -/

/-- A section from its media line up to the next one. -/
theorem media_section_lines (hbefore : ∀ l ∈ before, ¬ kind.tag <:+: l)
    (hheader : kind.tag <+: header)
    (hunbroken : ∀ l ∈ header :: body, '\n' ∉ l) (hne : ∀ l ∈ body, l ≠ [])
    (hbody : ∀ l ∈ body, ¬ "m=".toList <+: l) (hrest : StartsMedia rest) :
    lines (getMediaSection (unlines (before ++ header :: (body ++ rest))) kind.tag) =
      header :: body := by
  have hfind : find kind.tag (unlines (before ++ header :: (body ++ rest))) =
      some (unlines before).length := find_mark (tag_unbroken kind) hbefore hheader
  obtain ⟨c, tail, rfl⟩ : ∃ c tail, header = c :: tail := by
    cases header with
    | nil => cases kind <;> exact absurd hheader (by decide)
    | cons c tail => exact ⟨c, tail, rfl⟩
  have htail : '\n' ∉ tail := fun hmem =>
    hunbroken (c :: tail) (by simp) (List.mem_cons_of_mem _ hmem)
  have htext : unlines (before ++ (c :: tail) :: (body ++ rest)) =
      unlines before ++ (unlines ((c :: tail) :: body) ++ unlines rest) := by
    simp only [unlines_append, unlines_cons, List.append_assoc, List.cons_append]
  have hdrop : (unlines (before ++ (c :: tail) :: (body ++ rest))).drop (unlines before).length =
      unlines ((c :: tail) :: body) ++ unlines rest := by
    rw [htext, List.drop_left]
  have hnext : findFrom "\nm=".toList (unlines (before ++ (c :: tail) :: (body ++ rest)))
      ((unlines before).length + 1) = if unlines rest = [] then none
        else some (tail.length + (unlines body).length + ((unlines before).length + 1)) := by
    have hbehind : (unlines (before ++ (c :: tail) :: (body ++ rest))).drop
        ((unlines before).length + 1) = tail ++ '\n' :: (unlines body ++ unlines rest) := by
      rw [← List.drop_drop, hdrop]
      simp only [unlines_cons, List.cons_append, List.append_assoc, List.drop_succ_cons,
        List.drop_zero]
    rw [find_from_of_le (by simp [htext]), hbehind,
      find_next_section htail (fun l hl => ⟨hunbroken l (by simp [hl]), hbody l hl⟩) hrest.text]
    split_ifs <;> rfl
  unfold getMediaSection
  simp only [hfind, hnext, hdrop]
  by_cases hempty : unlines rest = []
  · rw [if_pos hempty, hempty]
    show lines (unlines ((c :: tail) :: body) ++ []) = _
    rw [List.append_nil, lines_unlines hunbroken]
  · rw [if_neg hempty]
    show lines ((unlines ((c :: tail) :: body) ++ unlines rest).take (_ - _)) = _
    obtain ⟨front, last, hsplit, hlast⟩ := unlines_last (List.cons_ne_nil (c :: tail) body)
    have hlength : tail.length + (unlines body).length + ((unlines before).length + 1) -
        (unlines before).length = (unlines front ++ last).length := by
      have hcount := congrArg List.length hlast
      simp only [unlines_cons, List.length_append, List.length_cons, List.length_nil] at hcount ⊢
      omega
    have hlastNe : last ≠ [] := by
      have hmem : last ∈ (c :: tail) :: body := by simp [hsplit]
      rcases List.mem_cons.mp hmem with rfl | hmem
      · exact List.cons_ne_nil _ _
      · exact hne last hmem
    rw [hlength, hlast, List.append_assoc, List.take_left,
      lines_unlines_append fun l hl => hunbroken l (by simp [hsplit, hl]),
      lines_last (hunbroken last (by simp [hsplit])) hlastNe, hsplit]

/-! ## The payload type -/

/-- A number is read as it was written. -/
theorem atoi_integer (n : ℤ) : atoi (integer n) = n := by
  have hdecimal : ∀ k : Nat, leadingDigits (decimal k) = k := by
    intro k
    unfold leadingDigits
    rw [List.takeWhile_eq_self_iff.mpr fun c hc => isDigit_of_mem_decimal hc]
    exact Nat.ofDigitChars_ten_toDigits
  cases n with
  | ofNat k =>
      have hdigits : (decimal k).dropWhile isSpace = decimal k := by
        refine List.dropWhile_eq_self_iff.mpr fun hlen => ?_
        have hdigit := isDigit_of_mem_decimal (List.getElem_mem hlen)
        rw [Bool.not_eq_true]
        by_contra hspace
        rw [isDigit_of_isSpace (by simpa using hspace)] at hdigit
        cases hdigit
      have hne := decimal_ne_nil k
      show signedDigits ((decimal k).dropWhile isSpace) = (k : ℤ)
      rw [hdigits]
      cases hcons : decimal k with
      | nil => exact absurd hcons hne
      | cons c digits =>
          have hc : c.isDigit = true := isDigit_of_mem_decimal (n := k) (by simp [hcons])
          rw [signed_digits_unsigned (by rintro rfl; cases hc) (by rintro rfl; cases hc),
            ← hcons, hdecimal]
  | negSucc k =>
      show signedDigits (('-' :: decimal (k + 1)).dropWhile isSpace) = Int.negSucc k
      rw [List.dropWhile_cons_of_neg (by decide)]
      show -(leadingDigits (decimal (k + 1)) : ℤ) = _
      rw [hdecimal]
      rfl

/-- The first of several numbers. -/
theorem atoi_first (n : ℤ) (types : List ℤ) :
    atoi (integer n ++ types.flatMap fun type => ' ' :: integer type) = n := by
  cases types with
  | nil => simpa using atoi_integer n
  | cons type types =>
      obtain ⟨c, hc, hspace⟩ : ∃ c ∈ integer n, isSpace c = false := by
        have hdigit : ∀ k : Nat, ∃ c ∈ decimal k, isSpace c = false := by
          intro k
          obtain ⟨c, digits, hcons⟩ := List.exists_cons_of_ne_nil (decimal_ne_nil k)
          refine ⟨c, by simp [hcons], ?_⟩
          by_contra hspace
          have hd : c.isDigit = true := isDigit_of_mem_decimal (n := k) (by simp [hcons])
          rw [isDigit_of_isSpace (by simpa using hspace)] at hd
          cases hd
        cases n with
        | ofNat k => exact hdigit k
        | negSucc k => exact ⟨'-', List.mem_cons_self, by decide⟩
      rw [List.flatMap_cons, List.cons_append, atoi_append (by decide) hc hspace, atoi_integer]

/-- The blanks behind the first one. -/
theorem blanks_end_behind (n : Nat) {s : Text} (h : ' ' ∉ s) (t : Text) :
    blanksEnd (n + 1) (s ++ ' ' :: t) = (blanksEnd n t).map (· + (s.length + 1)) := by
  rw [blanksEnd, find_char h, Option.bind_some, ← List.drop_drop, List.drop_left, List.drop_one,
    List.tail_cons]

/-- The number that is read from a media line with payload types. -/
theorem stray_number_of_header (port : Nat) (type : ℤ) (types : List ℤ)
    (hbefore : ∀ l ∈ before, ¬ kind.tag <:+: l) (after : List Text) :
    strayNumber kind.tag (unlines (before ++
      (mediaHeader kind.tag port ++ capabilityOf (type :: types)) :: after)) = type := by
  have hport : ' ' ∉ decimal port := not_mem_decimal rfl port
  have hprotocol : ' ' ∉ "UDP/TLS/RTP/SAVPF".toList := by decide
  obtain ⟨list, hlist⟩ : ∃ list, integer type ++
      types.flatMap (fun type => ' ' :: integer type) = list := ⟨_, rfl⟩
  obtain ⟨line, hline⟩ : ∃ line, ' ' :: (decimal port ++ ' ' :: ("UDP/TLS/RTP/SAVPF".toList ++
      ' ' :: list)) = line := ⟨_, rfl⟩
  have hheader : mediaHeader kind.tag port ++ capabilityOf (type :: types) = kind.tag ++ line := by
    unfold mediaHeader capabilityOf
    rw [← hline, ← hlist]
    simp only [List.flatMap_cons, List.append_assoc, List.cons_append, List.nil_append]
  have hbreak : '\n' ∉ line := by
    have hwhole : '\n' ∉ mediaHeader kind.tag port ++ capabilityOf (type :: types) := by
      simp only [List.mem_append, not_or]
      exact ⟨header_unbroken _ _, (capability_plain _).1⟩
    rw [hheader] at hwhole
    exact fun hmem => hwhole (List.mem_append_right _ hmem)
  have hbehind : behindTag kind.tag (unlines (before ++ (kind.tag ++ line) :: after)) =
      line ++ '\n' :: unlines after := by
    have hfind : find kind.tag (unlines (before ++ (kind.tag ++ line) :: after)) =
        some (unlines before).length :=
      find_mark (tag_unbroken kind) hbefore (List.prefix_append _ _)
    rw [behindTag, hfind, Option.map_some, Option.getD_some, unlines_append, ← List.drop_drop,
      List.drop_left, unlines_cons, List.append_assoc, List.drop_left]
  have hthird : ∀ more, blanksEnd 3 (line ++ more) =
      some (line.length - list.length) := by
    intro more
    have hsplit : line ++ more = [] ++ ' ' :: (decimal port ++ ' ' ::
        ("UDP/TLS/RTP/SAVPF".toList ++ ' ' :: (list ++ more))) := by
      rw [← hline]
      simp only [List.append_assoc, List.cons_append, List.nil_append]
    rw [hsplit, blanks_end_behind 2 (by simp), blanks_end_behind 1 hport,
      blanks_end_behind 0 hprotocol, ← hline]
    simp only [blanksEnd, Option.map_some, Option.some.injEq, List.length_cons,
      List.length_append, List.length_nil]
    omega
  have hfirst : (line ++ '\n' :: unlines after).takeWhile (· ≠ '\n') = line := by
    rw [List.takeWhile_append_of_pos (by
      intro c hc
      simpa using fun heq : c = '\n' => hbreak (heq ▸ hc))]
    simp
  have hdrop : line.drop (line.length - list.length) = list := by
    rw [← hline]
    have hsplit : ' ' :: (decimal port ++ ' ' :: ("UDP/TLS/RTP/SAVPF".toList ++ ' ' :: list)) =
        (' ' :: (decimal port ++ ' ' :: ("UDP/TLS/RTP/SAVPF".toList ++ [' ']))) ++ list := by
      simp only [List.append_assoc, List.cons_append, List.nil_append]
    rw [hsplit, List.length_append, Nat.add_sub_cancel, List.drop_left]
  rw [hheader, strayNumber, hbehind, if_pos (by simp), behindThirdBlank, hthird]
  simp only [hfirst, Nat.sub_le, if_pos, hdrop]
  rw [← hlist, atoi_first]

/-! ## Trimmed lines -/

/-- A text without blanks at its ends. -/
theorem trim_self {s : Text} (hfirst : ∀ c ∈ s.head?, isSpace c = false)
    (hlast : ∀ c ∈ s.getLast?, isSpace c = false) : trim s = s := by
  have hdrop : s.dropWhile isSpace = s := by
    cases s with
    | nil => rfl
    | cons c s => exact List.dropWhile_cons_of_neg (by simpa using hfirst c rfl)
  rw [trim, hdrop, List.rdropWhile_eq_self_iff]
  intro hne
  rw [hlast _ (List.getLast_mem_getLast? hne)]
  decide

/-- A text whose first character is no blank is only cut at its end. -/
theorem trim_prefix_of_head {c : Char} (hc : isSpace c = false) (s : Text) :
    trim (c :: s) <+: c :: s := by
  rw [trim, List.dropWhile_cons_of_neg (by simp [hc])]
  exact List.rdropWhile_prefix _ _

/-- A written number has no blanks. -/
theorem not_space_of_mem_integer {c : Char} {n : ℤ} (h : c ∈ integer n) : isSpace c = false := by
  have hdigit : ∀ k : Nat, c ∈ decimal k → isSpace c = false := by
    intro k hk
    by_contra hspace
    have hd := isDigit_of_mem_decimal hk
    rw [isDigit_of_isSpace (by simpa using hspace)] at hd
    cases hd
  cases n with
  | ofNat k => exact hdigit k h
  | negSucc k =>
      rcases List.mem_cons.mp h with rfl | h
      · decide
      · exact hdigit _ h

theorem trim_integer (n : ℤ) : trim (integer n) = integer n :=
  trim_self (fun _ hc => not_space_of_mem_integer (List.mem_of_mem_head? hc))
    fun _ hc => not_space_of_mem_integer (List.mem_of_mem_getLast? hc)

theorem integer_ne_nil (n : ℤ) : integer n ≠ [] := by
  cases n with
  | ofNat k => exact decimal_ne_nil k
  | negSucc k => exact List.cons_ne_nil _ _

/-- A text that ends with a number has no blank at its end. -/
theorem trim_append_integer {c : Char} (hc : isSpace c = false) (s : Text) (n : ℤ) :
    trim (c :: s ++ integer n) = c :: s ++ integer n := by
  refine trim_self (fun d hd => ?_) fun d hd => ?_
  · rw [← Option.some.inj hd]
    exact hc
  · rw [List.getLast?_append_of_ne_nil _ (integer_ne_nil n)] at hd
    exact not_space_of_mem_integer (List.mem_of_mem_getLast? hd)

/-! ## Retransmission -/

/-- A line that lists the retransmission type. -/
def ListsRtx (l : Text) : Prop :=
  "m=video ".toList <+: trim l ∧ "127".toList ∈ words (trim l)

/-- A line about the codec of the retransmission type. -/
def MapsRtx (l : Text) : Prop :=
  "a=rtpmap:127 ".toList <+: trim l

/-- A line that ties the retransmission type to a media payload type. -/
def TiesRtx (mediaPayload l : Text) : Prop :=
  "a=fmtp:127 ".toList <+: trim l ∧
    ∃ parameter ∈ parameters ((trim l).drop "a=fmtp:127 ".length),
      isMatchingApt mediaPayload parameter = true

variable {mediaPayload : Text}

/-- What a line adds to what was found. -/
theorem read_payload_iff (flags : VideoSectionFlags) (l : Text) :
    (flags.read mediaPayload l).payloadOnMediaLine = true ↔
      flags.payloadOnMediaLine = true ∨ ListsRtx l := by
  show (flags.payloadOnMediaLine || decide _) = true ↔ _
  rw [Bool.or_eq_true, decide_eq_true_eq]
  rfl

theorem read_apt_iff (flags : VideoSectionFlags) (l : Text) :
    (flags.read mediaPayload l).hasMatchingApt = true ↔
      flags.hasMatchingApt = true ∨ TiesRtx mediaPayload l := by
  show (flags.hasMatchingApt || decide _) = true ↔ _
  rw [Bool.or_eq_true, decide_eq_true_eq]
  rfl

/-- The last line about the codec decides. -/
theorem read_mapping_iff (flags : VideoSectionFlags) {l : Text}
    (hmapping : MapsRtx l → l = "a=rtpmap:127 rtx/90000".toList) :
    (flags.read mediaPayload l).hasRtxMapping = true ↔
      flags.hasRtxMapping = true ∨ MapsRtx l := by
  by_cases hmaps : MapsRtx l
  · obtain rfl := hmapping hmaps
    exact iff_of_true rfl (Or.inr hmaps)
  · have hkeeps : (flags.read mediaPayload l).hasRtxMapping = flags.hasRtxMapping := if_neg hmaps
    rw [hkeeps]
    simp only [hmaps, or_false]

/-- Retransmission is read from three lines. -/
theorem rtx_of_lines (hlists : ∃ l ∈ ls, ListsRtx l) (hmaps : ∃ l ∈ ls, MapsRtx l)
    (hmapping : ∀ l ∈ ls, MapsRtx l → l = "a=rtpmap:127 rtx/90000".toList)
    (hties : ∃ l ∈ ls, TiesRtx mediaPayload l) :
    (ls.foldl (VideoSectionFlags.read mediaPayload) {}).payloadOnMediaLine = true ∧
      (ls.foldl (VideoSectionFlags.read mediaPayload) {}).hasRtxMapping = true ∧
      (ls.foldl (VideoSectionFlags.read mediaPayload) {}).hasMatchingApt = true := by
  -- What one line found stays found.
  suffices h : ∀ flags : VideoSectionFlags,
      ((flags.payloadOnMediaLine = true ∨ ∃ l ∈ ls, ListsRtx l) →
        (ls.foldl (VideoSectionFlags.read mediaPayload) flags).payloadOnMediaLine = true) ∧
      ((flags.hasRtxMapping = true ∨ ∃ l ∈ ls, MapsRtx l) →
        (ls.foldl (VideoSectionFlags.read mediaPayload) flags).hasRtxMapping = true) ∧
      ((flags.hasMatchingApt = true ∨ ∃ l ∈ ls, TiesRtx mediaPayload l) →
        (ls.foldl (VideoSectionFlags.read mediaPayload) flags).hasMatchingApt = true) by
    obtain ⟨hfirst, hsecond, hthird⟩ := h {}
    exact ⟨hfirst (Or.inr hlists), hsecond (Or.inr hmaps), hthird (Or.inr hties)⟩
  clear hlists hmaps hties
  induction ls with
  | nil => simp
  | cons l ls ih =>
      intro flags
      obtain ⟨hfirst, hsecond, hthird⟩ := ih (fun m hm => hmapping m (List.mem_cons_of_mem _ hm))
        (flags.read mediaPayload l)
      rw [read_payload_iff, or_assoc, ← List.exists_mem_cons_iff] at hfirst
      rw [read_mapping_iff flags (hmapping l List.mem_cons_self), or_assoc,
        ← List.exists_mem_cons_iff] at hsecond
      rw [read_apt_iff, or_assoc, ← List.exists_mem_cons_iff] at hthird
      exact ⟨hfirst, hsecond, hthird⟩

/-- A media line that ends with the retransmission type lists it. -/
theorem header_lists_rtx (port : Nat) (types : List ℤ) :
    ListsRtx (mediaHeader MediaKind.video.tag port ++ capabilityOf (types ++ [rtxType])) := by
  have hsplit : mediaHeader MediaKind.video.tag port ++ capabilityOf (types ++ [rtxType]) =
      ("m=video ".toList ++ (decimal port ++ ' ' :: capabilityOf types)) ++
        ' ' :: integer rtxType := by
    have htag : MediaKind.video.tag ++ [' '] = "m=video ".toList := rfl
    unfold mediaHeader capabilityOf
    rw [← htag]
    simp only [List.flatMap_append, List.flatMap_cons, List.flatMap_nil, List.append_assoc,
      List.cons_append, List.nil_append, List.append_nil]
  have hm : "m=video ".toList = 'm' :: "=video ".toList := rfl
  have htrim : trim (mediaHeader MediaKind.video.tag port ++ capabilityOf (types ++ [rtxType])) =
      mediaHeader MediaKind.video.tag port ++ capabilityOf (types ++ [rtxType]) := by
    have hnumber := trim_append_integer (c := 'm') (by decide)
      ("=video ".toList ++ (decimal port ++ ' ' :: (capabilityOf types ++ [' ']))) rtxType
    have hwhole : mediaHeader MediaKind.video.tag port ++ capabilityOf (types ++ [rtxType]) =
        'm' :: ("=video ".toList ++ (decimal port ++ ' ' :: (capabilityOf types ++ [' ']))) ++
          integer rtxType := by
      rw [hsplit, hm]
      simp only [List.append_assoc, List.cons_append, List.nil_append]
    rw [hwhole, hnumber]
  unfold ListsRtx
  rw [htrim, hsplit]
  refine ⟨?_, ?_⟩
  · rw [List.append_assoc]
    exact List.prefix_append _ _
  · rw [words_append (by decide)]
    exact List.mem_append_right _ (by decide)

/-- The line of an offer or an answer that ties the retransmissions. -/
theorem ties_rtx (n : ℤ) : TiesRtx (integer n) ("a=fmtp:127 apt=".toList ++ integer n) := by
  have ha : "a=fmtp:127 apt=".toList = 'a' :: "=fmtp:127 apt=".toList := rfl
  have htrim : trim ("a=fmtp:127 apt=".toList ++ integer n) =
      "a=fmtp:127 apt=".toList ++ integer n := by
    rw [ha]
    exact trim_append_integer (by decide) _ n
  have hdrop : ("a=fmtp:127 apt=".toList ++ integer n).drop "a=fmtp:127 ".length =
      "apt=".toList ++ integer n := by
    have hsplit : "a=fmtp:127 apt=".toList = "a=fmtp:127 ".toList ++ "apt=".toList := rfl
    have hlength : "a=fmtp:127 ".length = "a=fmtp:127 ".toList.length := rfl
    rw [hsplit, List.append_assoc, hlength, List.drop_left]
  have hparameters : ∀ s : Text, s ≠ [] → ';' ∉ s → parameters s = [s] := by
    intro s hne hs
    induction s with
    | nil => exact absurd rfl hne
    | cons c s ih =>
        have hc : c ≠ ';' := fun heq => hs (heq ▸ List.mem_cons_self)
        rw [parameters, if_neg hc]
        cases s with
        | nil => rfl
        | cons d s => rw [ih (by simp) fun h => hs (List.mem_cons_of_mem _ h)]
  have hsemicolon : ';' ∉ "apt=".toList ++ integer n := by
    simp only [List.mem_append, not_or]
    exact ⟨by decide, not_mem_integer rfl (by decide) n⟩
  have htrimApt : trim ("apt=".toList ++ integer n) = "apt=".toList ++ integer n := by
    have hapt : "apt=".toList = 'a' :: "pt=".toList := rfl
    rw [hapt]
    exact trim_append_integer (by decide) _ n
  have hfind : find ['='] ("apt=".toList ++ integer n) = some 3 := by
    have hsplit : "apt=".toList ++ integer n = "apt".toList ++ '=' :: integer n := rfl
    rw [hsplit, find_char (by decide)]
    rfl
  unfold TiesRtx
  rw [htrim, hdrop]
  refine ⟨List.IsPrefix.trans (by decide) (List.prefix_append _ _), _,
    by rw [hparameters _ (by simp) hsemicolon]; exact List.mem_singleton.mpr rfl, ?_⟩
  unfold isMatchingApt
  simp only [htrimApt, hfind]
  have htake : ("apt=".toList ++ integer n).take 3 = "apt".toList := rfl
  have hrest : ("apt=".toList ++ integer n).drop (3 + 1) = integer n := rfl
  rw [htake, hrest, trim_integer]
  simp only [and_true, decide_eq_true_eq]
  decide

/-- Retransmission is supported when the three lines are there. -/
theorem rtx_supported {section_ : Text} (n : ℤ) (hlines : lines section_ = ls)
    (hlists : ∃ l ∈ ls, ListsRtx l) (hmaps : "a=rtpmap:127 rtx/90000".toList ∈ ls)
    (hmapping : ∀ l ∈ ls, MapsRtx l → l = "a=rtpmap:127 rtx/90000".toList)
    (hties : "a=fmtp:127 apt=".toList ++ integer n ∈ ls) :
    (parseVideoTransportCapabilities section_ n).rtx = true := by
  have hmapsRtx : MapsRtx "a=rtpmap:127 rtx/90000".toList := by
    unfold MapsRtx
    decide
  obtain ⟨hfirst, hsecond, hthird⟩ := rtx_of_lines hlists ⟨_, hmaps, hmapsRtx⟩ hmapping
    ⟨_, hties, ties_rtx n⟩
  unfold parseVideoTransportCapabilities
  rw [hlines]
  simp only [hfirst, hsecond, hthird, Bool.and_self]

/-! ## The header extension -/

/-- A line about a header extension. -/
def IsExtmap (l : Text) : Prop :=
  "a=extmap:".toList <+: trim l

instance (l : Text) : Decidable (IsExtmap l) :=
  inferInstanceAs (Decidable (_ <+: _))

/-- A line that changes the direction of a section. -/
def SetsDirection (l : Text) : Prop :=
  trim l = "a=sendonly".toList ∨ trim l = "a=recvonly".toList ∨ trim l = "a=inactive".toList

/-- Other lines are passed over. -/
theorem read_extmaps (direction : ExtensionDirection) (st : ExtmapState) (ls : List Text) :
    ls.foldlM (ExtmapState.read direction) st =
      (ls.filter (IsExtmap ·)).foldlM (ExtmapState.read direction) st := by
  induction ls generalizing st with
  | nil => rfl
  | cons l ls ih =>
      by_cases hextmap : IsExtmap l
      · rw [List.filter_cons_of_pos (by simpa using hextmap), List.foldlM_cons, List.foldlM_cons]
        congr 1
        funext next
        exact ih next
      · have hkeeps : ExtmapState.read direction st l = some st := if_pos hextmap
        rw [List.filter_cons_of_neg (by simpa using hextmap), List.foldlM_cons, hkeeps]
        exact ih st

/-- The ids that are read from a section with the line of an offer. -/
theorem extension_ids_of_section {sdp tag : Text} (hstart : "m=".toList <+: sdp)
    (hlines : lines (getMediaSection sdp tag) = ls)
    (hextmaps : ls.filter (IsExtmap ·) = localExtmapLines offeredIds)
    (hdirection : ∀ l ∈ ls, ¬ SetsDirection l) : getExtensionIds sdp tag = offeredIds := by
  have hsession : hasExtmap (getSessionSection sdp) = false := by
    unfold getSessionSection
    rw [ find_of_prefix hstart]
    rfl
  obtain ⟨e, he, hread⟩ : ∃ e, localExtmapLines offeredIds = [e] ∧
      (ExtmapState.read .sendRecv {} e).map (·.result) = some offeredIds :=
    ⟨_, rfl, by decide +kernel⟩
  have hmem : e ∈ ls ∧ IsExtmap e := by
    have hin : e ∈ ls.filter (IsExtmap ·) := by
      rw [hextmaps, he]
      exact List.mem_singleton.mpr rfl
    simpa using List.mem_filter.mp hin
  have hmedia : hasExtmap (getMediaSection sdp tag) = true := by
    unfold hasExtmap
    rw [hlines, List.any_eq_true]
    exact ⟨e, hmem.1, decide_eq_true hmem.2⟩
  have hdefault : getMediaDirection (getMediaSection sdp tag) = .sendRecv := by
    unfold getMediaDirection
    rw [hlines]
    have hnone : ls.filterMap (fun line =>
        if trim line = "a=sendonly".toList then some ExtensionDirection.sendOnly
        else if trim line = "a=recvonly".toList then some .recvOnly
        else if trim line = "a=inactive".toList then some .inactive
        else none) = [] := by
      refine List.filterMap_eq_nil_iff.mpr fun l hl => ?_
      obtain ⟨hsend, hrest⟩ := not_or.mp (hdirection l hl)
      obtain ⟨hrecv, hinactive⟩ := not_or.mp hrest
      rw [if_neg hsend, if_neg hrecv, if_neg hinactive]
    simp only [hnone]
    rfl
  unfold getExtensionIds
  simp only [hmedia, hsession, hdefault, Bool.false_eq_true, and_false, if_false, if_true]
  unfold parseRemoteExtension
  rw [hlines, read_extmaps, hextmaps, he, List.foldlM_cons]
  obtain ⟨st, hst, hresult⟩ := Option.map_eq_some_iff.mp hread
  rw [hst]
  exact hresult

/-! ## A section that others follow -/

variable {names known : List Text}

/-- A line with a name starts with a letter. -/
theorem head_of_named {l : Text} (h : IsNamed l) : ∃ c s, l = c :: s ∧ isSpace c = false := by
  obtain ⟨name, hname, rest, rfl⟩ := h
  have hletters : (lineNames.all fun name => name.head?.any fun c => !isSpace c) = true := by
    decide
  have hletter := List.all_eq_true.mp hletters name hname
  cases name with
  | nil => cases hletter
  | cons c s => exact ⟨c, s ++ rest, rfl, by simpa using hletter⟩

/-- What a trimmed line starts with, the line starts with. -/
theorem trim_prefix_of_named {l : Text} (h : IsNamed l) : trim l <+: l := by
  obtain ⟨c, s, rfl, hc⟩ := head_of_named h
  exact trim_prefix_of_head hc s

/-- The lines of a section, wherever other tags are hidden. -/
theorem first_section_lines (hbefore : ∀ l ∈ before, ¬ kind.tag <:+: l)
    (hheader : kind.tag <+: header) (hunbroken : ∀ l ∈ ls, '\n' ∉ l)
    (hsection : FirstSection names header known ls) :
    ∃ body, lines (getMediaSection (unlines (before ++ ls)) kind.tag) = header :: body ∧
      (∀ l ∈ body, IsNamed l) ∧ body.filter (StartsWith names ·) = known := by
  obtain ⟨body, rest, rfl, hbody, hfilter, hrest, -⟩ := hsection
  refine ⟨body, media_section_lines hbefore hheader (fun l hl => hunbroken l ?_) ?_
    (fun l hl => (hbody l hl).1) hrest, fun l hl => (hbody l hl).2, hfilter⟩
  · rw [← List.cons_append]
    exact List.mem_append_left _ hl
  · rintro l hl rfl
    obtain ⟨c, s, hcons, -⟩ := head_of_named (hbody _ hl).2
    cases hcons

/-- The names of the lines about retransmission. -/
def rtxNames : List Text :=
  ["a=rtpmap:".toList, "a=fmtp:".toList]

/-- The lines about retransmission. -/
def rtxLines (n : ℤ) : List Text :=
  ["a=rtpmap:127 rtx/90000".toList, "a=fmtp:127 apt=".toList ++ integer n]

/-- Retransmission is read from a section with these lines. -/
theorem rtx_of_first_section {port : Nat} {types : List ℤ} {n : ℤ}
    (hunbroken : ∀ l ∈ ls, '\n' ∉ l)
    (hsection : FirstSection rtxNames
      (mediaHeader MediaKind.video.tag port ++ capabilityOf (types ++ [rtxType])) (rtxLines n) ls) :
    (parseVideoTransportCapabilities (getMediaSection (unlines ls) MediaKind.video.tag) n).rtx =
      true := by
  have hlists := header_lists_rtx port types
  have hmedia :
      IsNamed (mediaHeader MediaKind.video.tag port ++ capabilityOf (types ++ [rtxType])) ∧
        MediaKind.video.tag <+:
        mediaHeader MediaKind.video.tag port ++ capabilityOf (types ++ [rtxType]) := by
    have hstart : MediaKind.video.tag <+:
        mediaHeader MediaKind.video.tag port ++ capabilityOf (types ++ [rtxType]) := by
      rw [mediaHeader, List.append_assoc]
      exact List.prefix_append _ _
    exact ⟨⟨"m=".toList, by decide, (tag_starts .video).trans hstart⟩, hstart⟩
  generalize mediaHeader MediaKind.video.tag port ++ capabilityOf (types ++ [rtxType]) = header at *
  obtain ⟨body, hlines, hbody, hfilter⟩ :=
    first_section_lines (List.forall_mem_nil _) hmedia.2 hunbroken hsection
  rw [List.nil_append] at hlines
  have hknown : ∀ l ∈ rtxLines n, l ∈ body := fun l hl =>
    List.mem_of_mem_filter (hfilter ▸ hl)
  refine rtx_supported n hlines ⟨header, List.mem_cons_self, hlists⟩
    (List.mem_cons_of_mem _ (hknown _ (by simp [rtxLines]))) ?_
    (List.mem_cons_of_mem _ (hknown _ (by simp [rtxLines])))
  intro l hl hmaps
  have hnamed : IsNamed l := by
    rcases List.mem_cons.mp hl with rfl | hl
    · exact hmedia.1
    · exact hbody l hl
  have hcut : "a=rtpmap:127 ".toList <+: l :=
    List.IsPrefix.trans hmaps (trim_prefix_of_named hnamed)
  rcases List.mem_cons.mp hl with rfl | hl
  · have hvideo := List.prefix_of_prefix_length_le hmedia.2 hcut (by decide)
    exact absurd hvideo (by decide)
  · have hin : l ∈ rtxLines n := hfilter ▸ List.mem_filter.mpr ⟨hl, decide_eq_true
      ⟨"a=rtpmap:".toList, List.mem_cons_self, List.IsPrefix.trans (by decide) hcut⟩⟩
    simp only [rtxLines, List.mem_cons, List.not_mem_nil, or_false] at hin
    rcases hin with rfl | rfl
    · rfl
    · exact absurd hcut (not_prefix_append (by decide) (by decide) _)

/-- The ids that are read from a section of an offer or an answer. -/
theorem extension_ids_of_first_section (hbefore : ∀ l ∈ before, ¬ kind.tag <:+: l)
    (hheader : kind.tag <+: header) (hunbroken : ∀ l ∈ ls, '\n' ∉ l)
    (hstart : "m=".toList <+: unlines (before ++ ls))
    (hsection : FirstSection ["a=extmap:".toList] header (localExtmapLines offeredIds) ls) :
    getExtensionIds (unlines (before ++ ls)) kind.tag = offeredIds := by
  obtain ⟨body, hlines, hbody, hfilter⟩ :=
    first_section_lines hbefore hheader hunbroken hsection
  have hnamed : ∀ l ∈ header :: body, IsNamed l :=
    List.forall_mem_cons.mpr ⟨⟨"m=".toList, by decide, (tag_starts kind).trans hheader⟩, hbody⟩
  have hextmap : ∀ l ∈ body, IsExtmap l ↔ StartsWith ["a=extmap:".toList] l := by
    intro l hl
    constructor
    · intro hext
      exact ⟨_, List.mem_cons_self, List.IsPrefix.trans hext (trim_prefix_of_named (hbody l hl))⟩
    · intro hstarts
      have hin : l ∈ localExtmapLines offeredIds :=
        hfilter ▸ List.mem_filter.mpr ⟨hl, decide_eq_true hstarts⟩
      have hknown : ∀ l ∈ localExtmapLines offeredIds, IsExtmap l := by decide +kernel
      exact hknown l hin
  have hno : ¬ IsExtmap header := by
    intro hext
    have hcut := List.IsPrefix.trans hext (trim_prefix_of_named (hnamed _ List.mem_cons_self))
    have hm := (tag_starts kind).trans hheader
    exact absurd (List.prefix_of_prefix_length_le hm hcut (by decide)) (by decide)
  refine extension_ids_of_section hstart hlines ?_ fun l hl hsets => ?_
  · rw [List.filter_cons, if_neg fun h => hno (of_decide_eq_true h), ← hfilter]
    exact List.filter_congr fun l hl => decide_eq_decide.mpr (hextmap l hl)
  · have hcut := trim_prefix_of_named (hnamed l hl)
    have hnone : ∀ d ∈ ["a=sendonly".toList, "a=recvonly".toList, "a=inactive".toList],
        ∀ name ∈ lineNames, ¬ d <+: name ∧ ¬ name <+: d := by decide
    rcases hsets with heq | heq | heq <;> rw [heq] at hcut
    · exact not_prefix_of_named (hnone _ (by simp)) (hnamed l hl) hcut
    · exact not_prefix_of_named (hnone _ (by simp)) (hnamed l hl) hcut
    · exact not_prefix_of_named (hnone _ (by simp)) (hnamed l hl) hcut

end IceTransport

end MiniRtc

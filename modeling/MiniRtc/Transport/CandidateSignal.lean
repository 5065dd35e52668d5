import MiniRtc.Foundation.Text

/-!
# Candidate signals

`ParseIceCandidateSignal` of `ice_utils.h` with the functions that it calls. A candidate is parsed
when it arrives, when the connection takes it and when the transport takes it, each time from the
result of the time before. `parsed_again_iff` says when nothing changes and nothing is rejected that
was accepted once: the two bytes that the first time may add have to fit.
-/

namespace MiniRtc

open Text

/-! ## The functions of the source -/

/-- The blanks of the signaling messages. -/
def isIceBlank (c : Char) : Bool :=
  c = ' ' ∨ c = '\t' ∨ c = '\r' ∨ c = '\n'

/-- `TrimIceWhitespace`. -/
def trimIceWhitespace (value : Text) : Text :=
  (value.dropWhile isIceBlank).rdropWhile isIceBlank

/-- The attribute of the user name fragment. -/
def iceUfragTag : Text := "a=ice-ufrag:".toList

/-- `GetIceUsername`. -/
def getIceUsername (sdp : Text) : Text :=
  match (lines sdp).find? fun line => iceUfragTag <+: line with
  | some line => trimIceWhitespace (line.drop iceUfragTag.length)
  | none => []

/-- `IceCandidateSignal`. -/
structure IceCandidateSignal where
  sdp : Text
  ufrag : Text
  deriving DecidableEq

/-- `complete`: the signal ends the candidates. -/
def IceCandidateSignal.complete (signal : IceCandidateSignal) : Bool :=
  signal.sdp = []

/-- The user name fragment after the extension pairs, if the pairs are well formed. -/
def readExtensions (ufrag : Text) : List Text → Option Text
  | [] => some ufrag
  | [_] => none
  | token :: value :: rest =>
      if token = "ufrag".toList then
        if 256 < value.length ∨ (ufrag ≠ [] ∧ ufrag ≠ value) then none
        else readExtensions value rest
      else readExtensions ufrag rest

/-- `ParseIceCandidateSignal`. -/
def parseIceCandidateSignal (candidateSdp ufrag : Text) : Option IceCandidateSignal :=
  if 4096 < candidateSdp.length ∨ 256 < ufrag.length ∨ '\x00' ∈ candidateSdp ∨ '\x00' ∈ ufrag ∨
      ufrag.any isIceBlank then none
  else
    let sdp := trimIceWhitespace candidateSdp
    if sdp = [] ∨ sdp = "a=end-of-candidates".toList ∨ sdp = "end-of-candidates".toList then
      some ⟨[], ufrag⟩
    else if '\r' ∈ sdp ∨ '\n' ∈ sdp then none
    else
      let sdp := if "a=".toList <+: sdp then sdp.drop 2 else sdp
      if ¬ "candidate:".toList <+: sdp then none
      else if (words sdp).length < 8 then none
      else (readExtensions ufrag ((words sdp).drop 8)).map fun ufrag => ⟨"a=".toList ++ sdp, ufrag⟩

/-! ## Blanks and words -/

variable {ufrag ufrag' s : Text} {tokens : List Text}

/-- What is trimmed is a part of the text. -/
theorem trim_within (value : Text) : trimIceWhitespace value <:+: value :=
  (List.rdropWhile_prefix _ _).isInfix.trans (List.dropWhile_suffix _).isInfix

/-- A text between two characters that are no blanks is trimmed already. -/
theorem trim_of_ends {c d : Char} (hc : isIceBlank c = false) (hd : isIceBlank d = false)
    (hs : (c :: s).getLast? = some d) : trimIceWhitespace (c :: s) = c :: s := by
  have hfront : (c :: s).dropWhile isIceBlank = c :: s :=
    List.dropWhile_cons_of_neg (by simp [hc])
  unfold trimIceWhitespace
  rw [hfront, List.rdropWhile_eq_self_iff]
  intro hne
  rw [List.getLast?_eq_getLast_of_ne_nil hne, Option.some.injEq] at hs
  rw [hs, hd]
  exact Bool.false_ne_true

/-- What is trimmed does not end with a blank. -/
theorem trim_last {d : Char} {value : Text} (h : (trimIceWhitespace value).getLast? = some d) :
    isIceBlank d = false := by
  have hne : trimIceWhitespace value ≠ [] := by
    intro hnil
    rw [hnil] at h
    cases h
  rw [List.getLast?_eq_getLast_of_ne_nil hne, Option.some.injEq] at h
  have hlast := List.rdropWhile_last_not isIceBlank (value.dropWhile isIceBlank) hne
  rw [← h]
  exact Bool.eq_false_iff.mpr hlast

/-- A word is not empty and has no blanks, and its characters are characters of the text. -/
theorem word_of_words {word : Text} (h : word ∈ words s) :
    word ≠ [] ∧ ∀ c ∈ word, isSpace c = false ∧ c ∈ s := by
  induction s generalizing word with
  | nil => cases h
  | cons c s ih =>
      have hrest : ∀ {w : Text}, w ∈ words s →
          w ≠ [] ∧ ∀ d ∈ w, isSpace d = false ∧ d ∈ c :: s := fun hw =>
        ⟨(ih hw).1, fun d hd => ⟨((ih hw).2 d hd).1, List.mem_cons_of_mem _ ((ih hw).2 d hd).2⟩⟩
      unfold words at h
      split at h
      · exact hrest h
      · rename_i hblank
        have hc : isSpace c = false := Bool.eq_false_iff.mpr hblank
        have hsingle : ∀ d ∈ [c], isSpace d = false ∧ d ∈ c :: s := fun d hd => by
          rw [List.mem_singleton.mp hd]
          exact ⟨hc, List.mem_cons_self⟩
        split at h
        · rename_i d first more _ hwords
          have hfirst := hrest (w := first) (by rw [hwords]; exact List.mem_cons_self)
          have hmore : ∀ w ∈ more, w ∈ words s := fun w hw => by
            rw [hwords]
            exact List.mem_cons_of_mem _ hw
          split at h
          · rcases List.mem_cons.mp h with rfl | htail
            · exact ⟨List.cons_ne_nil _ _, hsingle⟩
            · exact hrest (by rw [hwords]; exact htail)
          · rcases List.mem_cons.mp h with rfl | htail
            · refine ⟨List.cons_ne_nil _ _, fun e he => ?_⟩
              rcases List.mem_cons.mp he with rfl | hin
              · exact ⟨hc, List.mem_cons_self⟩
              · exact hfirst.2 e hin
            · exact hrest (hmore _ htail)
        · rw [List.mem_singleton.mp h]
          exact ⟨List.cons_ne_nil _ _, hsingle⟩

/-! ## Extensions -/

/-- The fragment stays, once there is one. -/
theorem read_extensions_keeps (hne : ufrag ≠ []) (h : readExtensions ufrag tokens = some ufrag') :
    ufrag' = ufrag := by
  fun_induction readExtensions ufrag tokens with
  | case1 ufrag => exact (Option.some.inj h).symm
  | case2 => cases h
  | case3 => cases h
  | case4 ufrag value rest hvalid ih =>
      have hvalue : ufrag = value := by
        by_contra hdiff
        exact hvalid (Or.inr ⟨hne, hdiff⟩)
      rw [← hvalue] at ih h
      exact ih hne h
  | case5 ufrag token value rest _ ih => exact ih hne h

/-- The fragment that was read is read again. -/
theorem read_extensions_again (hwords : ∀ token ∈ tokens, token ≠ [])
    (h : readExtensions ufrag tokens = some ufrag') :
    readExtensions ufrag' tokens = some ufrag' := by
  fun_induction readExtensions ufrag tokens with
  | case1 => rfl
  | case2 => cases h
  | case3 => cases h
  | case4 ufrag value rest hvalid ih =>
      have hvalue : ufrag' = value := read_extensions_keeps (hwords value (by simp)) h
      subst hvalue
      rw [readExtensions, if_pos rfl, if_neg]
      · exact h
      · rintro (hlong | ⟨-, hdiff⟩)
        · exact hvalid (Or.inl hlong)
        · exact hdiff rfl
  | case5 ufrag token value rest htoken ih =>
      rw [readExtensions, if_neg htoken]
      exact ih (fun t ht => hwords t (List.mem_cons_of_mem _ (List.mem_cons_of_mem _ ht))) h

/-- The fragment that is read was given, or it is a token that is not too long. -/
theorem read_extensions_source (h : readExtensions ufrag tokens = some ufrag') :
    ufrag' = ufrag ∨ (ufrag' ∈ tokens ∧ ufrag'.length ≤ 256) := by
  fun_induction readExtensions ufrag tokens with
  | case1 => exact Or.inl (Option.some.inj h).symm
  | case2 => cases h
  | case3 => cases h
  | case4 ufrag value rest hvalid ih =>
      right
      rcases ih h with rfl | ⟨hin, hlen⟩
      · exact ⟨by simp, by omega⟩
      · exact ⟨List.mem_cons_of_mem _ (List.mem_cons_of_mem _ hin), hlen⟩
  | case5 ufrag token value rest _ ih =>
      exact (ih h).imp_right fun hin => ⟨List.mem_cons_of_mem _ (List.mem_cons_of_mem _ hin.1), hin.2⟩

/-! ## Parsing again -/

variable {candidateSdp : Text} {signal : IceCandidateSignal}

/-- A fragment that a message may carry. -/
structure ValidUfrag (ufrag : Text) : Prop where
  short : ufrag.length ≤ 256
  noNul : '\x00' ∉ ufrag
  noBlank : ∀ c ∈ ufrag, isIceBlank c = false

/-- The line of a candidate, without its `a=`. -/
structure CandidateLine (s ufrag ufrag' : Text) : Prop where
  tag : "candidate:".toList <+: s
  noReturn : '\r' ∉ s
  noBreak : '\n' ∉ s
  fields : 8 ≤ (words s).length
  extensions : readExtensions ufrag ((words s).drop 8) = some ufrag'

/-- The text of a candidate: without the blanks around it and without its `a=`. -/
def candidateText (candidateSdp : Text) : Text :=
  let sdp := trimIceWhitespace candidateSdp
  if "a=".toList <+: sdp then sdp.drop 2 else sdp

theorem candidate_text_suffix (candidateSdp : Text) :
    candidateText candidateSdp <:+ trimIceWhitespace candidateSdp := by
  unfold candidateText
  simp only
  split
  · exact List.drop_suffix _ _
  · exact List.suffix_refl _

theorem candidate_text_within (candidateSdp : Text) :
    candidateText candidateSdp <:+: candidateSdp :=
  (candidate_text_suffix candidateSdp).isInfix.trans (trim_within candidateSdp)

/-- What is parsed is a completion, or the line of a candidate. -/
theorem parse_cases (h : parseIceCandidateSignal candidateSdp ufrag = some signal) :
    '\x00' ∉ candidateSdp ∧ ValidUfrag ufrag ∧
      ((signal = ⟨[], ufrag⟩ ∧ (candidateText candidateSdp).length ≤ 17) ∨
        (CandidateLine (candidateText candidateSdp) ufrag signal.ufrag ∧
          signal.sdp = "a=".toList ++ candidateText candidateSdp)) := by
  unfold parseIceCandidateSignal at h
  split at h
  · cases h
  rename_i hguard
  push Not at hguard
  obtain ⟨-, hshort, hnul, hufragNul, hblank⟩ := hguard
  refine ⟨hnul, ⟨hshort, hufragNul, fun c hc => Bool.eq_false_iff.mpr fun hset =>
    hblank (List.any_eq_true.mpr ⟨c, hc, hset⟩)⟩, ?_⟩
  simp only at h
  split at h
  · rename_i hcomplete
    refine Or.inl ⟨(Option.some.inj h).symm, ?_⟩
    unfold candidateText
    rcases hcomplete with hnil | hmark | hmark
    · rw [hnil]
      decide
    · rw [hmark]
      decide
    · rw [hmark]
      decide
  split at h
  · cases h
  rename_i hbroken
  rw [not_or] at hbroken
  right
  have hsuffix := candidate_text_suffix candidateSdp
  change (if ¬ "candidate:".toList <+: candidateText candidateSdp then none
    else if (words (candidateText candidateSdp)).length < 8 then none
    else (readExtensions ufrag ((words (candidateText candidateSdp)).drop 8)).map fun ufrag =>
      IceCandidateSignal.mk ("a=".toList ++ candidateText candidateSdp) ufrag) = some signal at h
  split at h
  · cases h
  rename_i htag
  split at h
  · cases h
  rename_i hfields
  obtain ⟨ufrag', hread, hsignal⟩ := Option.map_eq_some_iff.mp h
  subst hsignal
  exact ⟨⟨not_not.mp htag, fun hin => hbroken.1 (hsuffix.subset hin),
    fun hin => hbroken.2 (hsuffix.subset hin), Nat.not_lt.mp hfields, hread⟩, rfl⟩

/-- A candidate whose text is a line of a candidate is parsed. -/
theorem parse_text (hlength : candidateSdp.length ≤ 4096) (hnul : '\x00' ∉ candidateSdp)
    (hvalid : ValidUfrag ufrag) (hline : CandidateLine (candidateText candidateSdp) ufrag ufrag') :
    parseIceCandidateSignal candidateSdp ufrag =
      some ⟨"a=".toList ++ candidateText candidateSdp, ufrag'⟩ := by
  have hplain : ∀ {c : Char}, c ∉ "a=".toList → c ∈ trimIceWhitespace candidateSdp →
      c ∈ candidateText candidateSdp := by
    intro c hc hin
    unfold candidateText
    simp only
    split
    · next htag =>
        obtain ⟨rest, hrest⟩ := htag
        rw [← hrest] at hin ⊢
        exact (List.mem_append.mp hin).resolve_left hc
    · exact hin
  have htext : trimIceWhitespace candidateSdp ≠ [] ∧
      trimIceWhitespace candidateSdp ≠ "a=end-of-candidates".toList ∧
      trimIceWhitespace candidateSdp ≠ "end-of-candidates".toList := by
    have htag := hline.tag
    unfold candidateText at htag
    refine ⟨fun hsdp => ?_, fun hsdp => ?_, fun hsdp => ?_⟩
    · rw [hsdp] at htag
      revert htag
      decide
    · rw [hsdp] at htag
      revert htag
      decide
    · rw [hsdp] at htag
      revert htag
      decide
  unfold parseIceCandidateSignal
  rw [if_neg]
  · simp only
    rw [if_neg, if_neg]
    · show (if ¬ "candidate:".toList <+: candidateText candidateSdp then none
        else if (words (candidateText candidateSdp)).length < 8 then none
        else (readExtensions ufrag ((words (candidateText candidateSdp)).drop 8)).map fun ufrag =>
          IceCandidateSignal.mk ("a=".toList ++ candidateText candidateSdp) ufrag) = _
      rw [if_neg (not_not.mpr hline.tag), if_neg (Nat.not_lt.mpr hline.fields), hline.extensions]
      rfl
    · rintro (hin | hin)
      · exact hline.noReturn (hplain (by decide) hin)
      · exact hline.noBreak (hplain (by decide) hin)
    · rintro (hnil | hmark | hmark)
      · exact htext.1 hnil
      · exact htext.2.1 hmark
      · exact htext.2.2 hmark
  · rintro (hlong | hlong | hin | hin | hblank)
    · omega
    · exact absurd hvalid.short (Nat.not_le.mpr hlong)
    · exact hnul hin
    · exact hvalid.noNul hin
    · obtain ⟨c, hc, hset⟩ := List.any_eq_true.mp hblank
      rw [hvalid.noBlank c hc] at hset
      cases hset

/-- A line of a candidate is parsed when it is not too long and ends with no blank. -/
theorem parse_line {d : Char} (hline : CandidateLine s ufrag ufrag') (hvalid : ValidUfrag ufrag)
    (hnul : '\x00' ∉ s) (hlength : s.length ≤ 4094) (hlast : s.getLast? = some d)
    (hd : isIceBlank d = false) :
    parseIceCandidateSignal ("a=".toList ++ s) ufrag = some ⟨"a=".toList ++ s, ufrag'⟩ := by
  have htrim : trimIceWhitespace ("a=".toList ++ s) = "a=".toList ++ s := by
    refine trim_of_ends (d := d) (by decide) hd ?_
    show ("a=".toList ++ s).getLast? = some d
    rw [List.getLast?_append, hlast]
    rfl
  have htext : candidateText ("a=".toList ++ s) = s := by
    unfold candidateText
    rw [htrim]
    exact if_pos (List.prefix_append _ _)
  have hshort : ("a=".toList ++ s).length ≤ 4096 := by
    rw [List.length_append]
    have htwo : "a=".toList.length = 2 := rfl
    omega
  have hclean : '\x00' ∉ "a=".toList ++ s := by
    intro hin
    rcases List.mem_append.mp hin with htag | hs
    · revert htag
      decide
    · exact hnul hs
  rw [← htext] at hline
  have hparse := parse_text hshort hclean hvalid hline
  rwa [htext] at hparse

/-- A blank of the signaling messages is a blank. -/
theorem is_space_of_ice_blank {c : Char} (h : isIceBlank c = true) : isSpace c = true := by
  unfold isIceBlank at h
  unfold isSpace
  simp only [decide_eq_true_eq] at h ⊢
  tauto

/-- The result of parsing is parsed to itself, when there is room for the `a=`. -/
theorem parse_result (hlength : (candidateText candidateSdp).length ≤ 4094)
    (h : parseIceCandidateSignal candidateSdp ufrag = some signal) :
    parseIceCandidateSignal signal.sdp signal.ufrag = some signal := by
  obtain ⟨hnul, hvalid, ⟨hcomplete, -⟩ | ⟨hline, hsdp⟩⟩ := parse_cases h
  · subst hcomplete
    unfold parseIceCandidateSignal
    rw [if_neg]
    · exact if_pos (Or.inl rfl)
    · rintro (hlong | hlong | hin | hin | hblank)
      · cases hlong
      · exact absurd hvalid.short (Nat.not_le.mpr hlong)
      · cases hin
      · exact hvalid.noNul hin
      · obtain ⟨c, hc, hset⟩ := List.any_eq_true.mp hblank
        rw [hvalid.noBlank c hc] at hset
        cases hset
  have hwithin := candidate_text_within candidateSdp
  have hsuffix := candidate_text_suffix candidateSdp
  generalize candidateText candidateSdp = s at hlength hline hsdp hwithin hsuffix
  have hnul' : '\x00' ∉ s := fun hin => hnul (hwithin.subset hin)
  have hne : s ≠ [] := by
    intro hnil
    have htag := hline.tag
    rw [hnil] at htag
    revert htag
    decide
  have hlast : s.getLast? = some (s.getLast hne) := List.getLast?_eq_getLast_of_ne_nil hne
  have htrimmed : (trimIceWhitespace candidateSdp).getLast? = some (s.getLast hne) := by
    obtain ⟨front, hfront⟩ := hsuffix
    rw [← hfront, List.getLast?_append, hlast]
    rfl
  have hwords : ∀ token ∈ (words s).drop 8, token ≠ [] := fun token hin =>
    (word_of_words (List.mem_of_mem_drop hin)).1
  have hvalid' : ValidUfrag signal.ufrag := by
    rcases read_extensions_source hline.extensions with hsame | ⟨hin, hshort⟩
    · rw [hsame]
      exact hvalid
    · have hword := (word_of_words (List.mem_of_mem_drop hin)).2
      refine ⟨hshort, fun hin => hnul' (hword _ hin).2, fun c hc => ?_⟩
      by_contra hblank
      have hspace := is_space_of_ice_blank (Bool.not_eq_false _ ▸ hblank)
      rw [(hword c hc).1] at hspace
      cases hspace
  have hagain : CandidateLine s signal.ufrag signal.ufrag :=
    { hline with extensions := read_extensions_again hwords hline.extensions }
  rw [hsdp, parse_line hagain hvalid' hnul' hlength hlast
    (trim_last htrimmed), ← hsdp]

theorem parse_again (hlength : candidateSdp.length ≤ 4094)
    (h : parseIceCandidateSignal candidateSdp ufrag = some signal) :
    parseIceCandidateSignal signal.sdp signal.ufrag = some signal :=
  parse_result ((candidate_text_within candidateSdp).length_le.trans hlength) h

/-- What is accepted is not longer than 4096 bytes. -/
theorem length_of_parsed (h : parseIceCandidateSignal candidateSdp ufrag = some signal) :
    candidateSdp.length ≤ 4096 := by
  by_contra hlong
  unfold parseIceCandidateSignal at h
  rw [if_pos (Or.inl (Nat.not_le.mp hlong))] at h
  cases h

/-- The result of parsing is parsed to itself if and only if the `a=` fits in front of the text of
the candidate. -/
theorem parsed_again_iff (h : parseIceCandidateSignal candidateSdp ufrag = some signal) :
    parseIceCandidateSignal signal.sdp signal.ufrag = some signal ↔
      (candidateText candidateSdp).length ≤ 4094 := by
  constructor
  · intro hagain
    have hlength := length_of_parsed hagain
    obtain ⟨-, -, ⟨-, hshort⟩ | ⟨-, hsdp⟩⟩ := parse_cases h
    · omega
    · rw [hsdp, List.length_append] at hlength
      have htag : "a=".toList.length = 2 := rfl
      omega
  · intro hlength
    exact parse_result hlength h

/-- A candidate with `n` more blanks between two of its words. -/
def spacedCandidate (n : Nat) : Text :=
  "candidate:1 1 udp 1 192.0.2.1 9 typ".toList ++
    ' ' :: (List.replicate n ' ' ++ "host ufrag u".toList)

theorem words_spaced (n : Nat) :
    words (spacedCandidate n) = words "candidate:1 1 udp 1 192.0.2.1 9 typ".toList ++
      words "host ufrag u".toList := by
  unfold spacedCandidate
  rw [words_append (by decide), words_blanks]

theorem not_mem_spaced {c : Char} (hblank : c ≠ ' ')
    (hfront : c ∉ "candidate:1 1 udp 1 192.0.2.1 9 typ".toList)
    (hback : c ∉ "host ufrag u".toList) (n : Nat) : c ∉ spacedCandidate n := by
  intro hin
  rcases List.mem_append.mp hin with hin | hin
  · exact hfront hin
  · rcases List.mem_cons.mp hin with hsame | hin
    · exact hblank hsame
    · rcases List.mem_append.mp hin with hin | hin
      · exact hblank (List.eq_of_mem_replicate hin)
      · exact hback hin

theorem spaced_text (n : Nat) : candidateText (spacedCandidate n) = spacedCandidate n := by
  have htrim : trimIceWhitespace (spacedCandidate n) = spacedCandidate n := by
    refine trim_of_ends (c := 'c') (d := 'u') (by decide) (by decide) ?_
    show (spacedCandidate n).getLast? = some 'u'
    unfold spacedCandidate
    rw [List.getLast?_append, List.getLast?_cons, List.getLast?_append]
    rfl
  unfold candidateText
  rw [htrim]
  exact if_neg fun ⟨rest, hrest⟩ => by cases hrest

theorem spaced_length (n : Nat) : (spacedCandidate n).length = n + 48 := by
  unfold spacedCandidate
  rw [List.length_append, List.length_cons, List.length_append, List.length_replicate]
  show 35 + (n + 12 + 1) = n + 48
  omega

/-- Blanks between the words do not matter, as long as there are not too many. -/
theorem parse_spaced {n : Nat} (hn : n ≤ 4048) :
    parseIceCandidateSignal (spacedCandidate n) [] =
      some ⟨"a=".toList ++ spacedCandidate n, ['u']⟩ := by
  have hline : CandidateLine (spacedCandidate n) [] ['u'] :=
    { tag := ⟨_, rfl⟩
      noReturn := not_mem_spaced (by decide) (by decide) (by decide) n
      noBreak := not_mem_spaced (by decide) (by decide) (by decide) n
      fields := by
        rw [words_spaced]
        decide
      extensions := by
        rw [words_spaced]
        decide }
  have hshort : (spacedCandidate n).length ≤ 4096 := by
    rw [spaced_length]
    omega
  rw [← spaced_text n] at hline
  have hparse := parse_text hshort (not_mem_spaced (by decide) (by decide) (by decide) n)
    ⟨Nat.zero_le _, by simp, by simp⟩ hline
  rwa [spaced_text] at hparse

/-- A candidate of 49 bytes is parsed to itself. -/
theorem parsed_again_iff_fits :
    parseIceCandidateSignal ("a=".toList ++ spacedCandidate 1) ['u'] =
        some ⟨"a=".toList ++ spacedCandidate 1, ['u']⟩ ↔
      (candidateText (spacedCandidate 1)).length ≤ 4094 :=
  parsed_again_iff (parse_spaced (n := 1) (by decide))

/-- A candidate of 4095 bytes is accepted where it arrives, and its result is rejected. -/
theorem parsed_again_fails :
    ∃ signal, parseIceCandidateSignal (spacedCandidate 4047) [] = some signal ∧
      parseIceCandidateSignal signal.sdp signal.ufrag = none := by
  refine ⟨_, parse_spaced (by omega), ?_⟩
  unfold parseIceCandidateSignal
  refine if_pos (Or.inl ?_)
  show 4096 < ("a=".toList ++ spacedCandidate 4047).length
  rw [List.length_append, spaced_length]
  show 4096 < 2 + (4047 + 48)
  omega

end MiniRtc

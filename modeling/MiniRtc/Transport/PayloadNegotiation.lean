import MiniRtc.Foundation.Text

/-!
# Payload-type negotiation

`NegotiateVideoPayloadType`, `NegotiateAudioPayloadType` and `NegotiateDataPayloadType` of
`ice_transport.cpp` cut the payload list out of the remote session description and walk along
it. The three are one function with the tag of their media line. The walk always cuts the list
from its beginning, so that the number at the head of the list is the only one that is ever
compared.
-/

namespace MiniRtc

open Text

/-- The media sections of a session description. -/
inductive MediaKind where
  | video
  | audio
  | data
deriving DecidableEq, Repr

namespace MediaKind

/-- The text the section of a kind is looked up by. -/
def tag : MediaKind → Text
  | video => "m=video".toList
  | audio => "m=audio".toList
  | data => "m=data".toList

end MediaKind

namespace IceTransport

/-- `rtp::PAYLOAD_TYPE::UNDEFINED`. -/
def undefinedType : ℤ := 0

/-- Locally supported payload types. `UNDEFINED` stands for no type at all and is never given. -/
structure SupportedTypes where
  types : List ℤ
  defined : undefinedType ∉ types

/-! ## The functions of the source -/

/-- The offset behind a found position; `npos + 1` is zero. -/
def behind : Option Nat → Nat
  | some i => i + 1
  | none => 0

/-- Where the search for the list starts: `npos` plus the length of the tag wraps around. -/
def searchStart (tag sdp : Text) : Nat :=
  match find tag sdp with
  | some i => i + tag.length
  | none => tag.length - 1

/-- The remote capabilities: what follows the third blank, up to the end of the line. -/
def remoteCapabilities (tag sdp : Text) : Text :=
  let start := searchStart tag sdp
  let stop := findFrom ['\n'] sdp start
  let pos1 := findFrom [' '] sdp start
  let pos2 := findFrom [' '] sdp (behind pos1)
  let pos3 := findFrom [' '] sdp (behind pos2)
  match stop, pos1, pos2, pos3 with
  | some stop, some _, some _, some pos3 =>
      -- The count `stop - pos3 - 1` is unsigned; it exceeds the text when the line ends early.
      if pos3 < stop then (sdp.drop (pos3 + 1)).take (stop - pos3 - 1) else sdp.drop (pos3 + 1)
  | _, _, _, _ => []

/-- The loop over the remote list, from `prefered_pt_start` on. -/
def preferedType (supported : List ℤ) (capabilities : Text) : Nat → Nat → Option ℤ
  | 0, _ => none
  | fuel + 1, start =>
      if start ≤ capabilities.length then
        match findFrom [' '] capabilities start with
        | some stop =>
            -- The source cuts from the beginning of the list, not from `start`.
            if atoi (capabilities.take stop) ∈ supported then
              some (atoi (capabilities.take stop))
            else preferedType supported capabilities fuel (stop + 1)
        | none => if atoi capabilities ∈ supported then some (atoi capabilities) else none
      else none

/-- The common body: whether the negotiation succeeds, and the negotiated type it leaves. -/
def negotiatePayloadType (tag : Text) (supported : List ℤ) (sdp : Text) (negotiated : ℤ) :
    Bool × ℤ :=
  let capabilities := remoteCapabilities tag sdp
  let chosen := (preferedType supported capabilities (capabilities.length + 1) 0).getD negotiated
  (chosen ≠ undefinedType, chosen)

/-- `NegotiateVideoPayloadType`. -/
def negotiateVideoPayloadType : List ℤ → Text → ℤ → Bool × ℤ :=
  negotiatePayloadType MediaKind.video.tag

/-- `NegotiateAudioPayloadType`. -/
def negotiateAudioPayloadType : List ℤ → Text → ℤ → Bool × ℤ :=
  negotiatePayloadType MediaKind.audio.tag

/-- `NegotiateDataPayloadType`. -/
def negotiateDataPayloadType : List ℤ → Text → ℤ → Bool × ℤ :=
  negotiatePayloadType MediaKind.data.tag

/-- The negotiation of a kind. -/
def negotiate : MediaKind → List ℤ → Text → ℤ → Bool × ℤ
  | .video => negotiateVideoPayloadType
  | .audio => negotiateAudioPayloadType
  | .data => negotiateDataPayloadType

/-- The three negotiations are one function. -/
theorem negotiate_eq (kind : MediaKind) : negotiate kind = negotiatePayloadType kind.tag := by
  cases kind <;> rfl

/-! ## What negotiation is for -/

/-- The offset behind the given number of blanks. -/
def blanksEnd : Nat → Text → Option Nat
  | 0, _ => some 0
  | n + 1, s =>
      (find [' '] s).bind fun i => (blanksEnd n (s.drop (i + 1))).map (· + (i + 1))

/-- The media line: the first line that starts with the tag. -/
def mediaLine (tag sdp : Text) : Option Text :=
  (lines sdp).find? fun line => tag <+: line

/-- The payload types that a media line lists behind its media, port and protocol. -/
def payloadList (line : Text) : List ℤ :=
  match blanksEnd 3 line with
  | some i => (words (line.drop i)).map atoi
  | none => []

/-- The payload types that the remote side offers for a kind. -/
def remoteTypes (kind : MediaKind) (sdp : Text) : List ℤ :=
  ((mediaLine kind.tag sdp).map payloadList).getD []

/-- Negotiation on a fresh transport succeeds exactly when a supported type is listed, and then
selects the first such type. -/
def NegotiatesExactly (kind : MediaKind) (supported : SupportedTypes) (sdp : Text) : Prop :=
  let result := negotiate kind supported.types sdp undefinedType
  (result.1 = true ↔ ∃ line, mediaLine kind.tag sdp = some line ∧
      ∃ type ∈ payloadList line, type ∈ supported.types) ∧
    (result.1 = true → (remoteTypes kind sdp).find? (· ∈ supported.types) = some result.2)

/-- The tag first occurs at the start of a complete line with three blanks. -/
def WellPlaced (tag sdp : Text) : Prop :=
  ∃ (before : List Text) (line after : Text),
    sdp = unlines before ++ (tag ++ line ++ '\n' :: after) ∧
    (∀ l ∈ before, '\n' ∉ l ∧ ¬ tag <:+: l) ∧ '\n' ∉ line ∧ 3 ≤ line.count ' '

/-- The text from the end of the first tag on, or from inside the first line if there is none. -/
def behindTag (tag sdp : Text) : Text :=
  sdp.drop (((find tag sdp).map (· + tag.length)).getD (tag.length - 1))

/-- The text that follows the third blank: up to the end of the line when the blank stands in the
first line, and to the end of the text otherwise. -/
def behindThirdBlank (s : Text) : Text :=
  match blanksEnd 3 s with
  | some i =>
      let line := s.takeWhile (· ≠ '\n')
      if i ≤ line.length then line.drop i else s.drop i
  | none => []

/-- The number that stands where the list of a well placed line would start. -/
def strayNumber (tag sdp : Text) : ℤ :=
  if '\n' ∈ behindTag tag sdp then atoi (behindThirdBlank (behindTag tag sdp)) else 0

/-- In a well placed line the first entry is supported or none is. Without such a line the number
that stands in its place is the one to be selected, or there is nothing to select. -/
def HeadDecides (kind : MediaKind) (supported : SupportedTypes) (sdp : Text) : Prop :=
  (WellPlaced kind.tag sdp ∧
      ((∃ type, (remoteTypes kind sdp).head? = some type ∧ type ∈ supported.types) ∨
        ∀ type ∈ remoteTypes kind sdp, type ∉ supported.types)) ∨
    (¬ WellPlaced kind.tag sdp ∧
      ((strayNumber kind.tag sdp ∉ supported.types ∧
          ∀ type ∈ remoteTypes kind sdp, type ∉ supported.types) ∨
        (strayNumber kind.tag sdp ∈ supported.types ∧
          (remoteTypes kind sdp).find? (· ∈ supported.types) = some (strayNumber kind.tag sdp))))

/-! ## The list that is read -/

variable {tag sdp s line : Text}

/-- Blanks that are looked for in the beginning of a text only. -/
theorem blanks_end_take (n m : Nat) (s : Text) :
    blanksEnd n (s.take m) = (blanksEnd n s).filter (· ≤ m) := by
  induction n generalizing m s with
  | zero => simp [blanksEnd, Option.filter_some]
  | succ n ih =>
      rw [blanksEnd, blanksEnd, find_char_take]
      cases hfound : find [' '] s with
      | none => rfl
      | some i =>
          rw [Option.filter_some]
          split_ifs with hi
          · rw [decide_eq_true_eq] at hi
            have hdrop : (s.take m).drop (i + 1) = (s.drop (i + 1)).take (m - (i + 1)) := by
              rw [List.drop_take]
            rw [Option.bind_some, Option.bind_some, hdrop, ih]
            cases blanksEnd n (s.drop (i + 1)) with
            | none => rfl
            | some j =>
                have hiff : j ≤ m - (i + 1) ↔ j + (i + 1) ≤ m := by omega
                simp only [Option.filter_some, Option.map_some, hiff, apply_ite (Option.map _),
                  Option.map_none]
          · rw [decide_eq_true_eq] at hi
            rw [Option.bind_none, Option.bind_some]
            cases blanksEnd n (s.drop (i + 1)) with
            | none => rfl
            | some j => rw [Option.map_some, Option.filter_some_neg (by simp; omega)]

/-- A text without blanks only moves the ones behind it. -/
theorem blanks_end_append (n : Nat) (h : ' ' ∉ tag) (s : Text) :
    blanksEnd (n + 1) (tag ++ s) = (blanksEnd (n + 1) s).map (· + tag.length) := by
  rw [blanksEnd, blanksEnd, find_skip h]
  cases find [' '] s with
  | none => rfl
  | some i =>
      have hdrop : (tag ++ s).drop (i + tag.length + 1) = s.drop (i + 1) := by
        rw [show i + tag.length + 1 = tag.length + (i + 1) by omega, List.drop_length_add_append]
      rw [Option.map_some, Option.bind_some, Option.bind_some, hdrop, Option.map_map]
      congr 1
      funext j
      simp only [Function.comp_apply]
      omega

/-- The text behind a found character. -/
theorem behind_found {c : Char} {i start : Nat} (hstart : start ≤ s.length)
    (h : find [c] (s.drop start) = some i) :
    behind (some (i + start)) ≤ s.length ∧
      s.drop (behind (some (i + start))) = (s.drop start).drop (i + 1) := by
  obtain ⟨-, -, hlt⟩ := split_of_find_char h
  rw [List.length_drop] at hlt
  refine ⟨by show i + start + 1 ≤ s.length; omega, ?_⟩
  show s.drop (i + start + 1) = _
  rw [List.drop_drop, show start + (i + 1) = i + start + 1 by omega]

/-- Three blanks exist when they are counted. -/
theorem blanks_end_of_count (n : Nat) (s : Text) (h : n ≤ s.count ' ') :
    ∃ i, blanksEnd n s = some i ∧ i ≤ s.length := by
  induction n generalizing s with
  | zero => exact ⟨0, rfl, by omega⟩
  | succ n ih =>
      have hmem : ' ' ∈ s := List.count_pos_iff.mp (by omega)
      obtain ⟨a, b, rfl, ha⟩ := List.eq_append_cons_of_mem hmem
      rw [List.count_append, List.count_eq_zero.mpr ha, List.count_cons_self] at h
      obtain ⟨i, hi, hle⟩ := ih b (by omega)
      refine ⟨i + (a.length + 1), ?_, ?_⟩
      · rw [blanksEnd, find_char ha, Option.bind_some, ← List.drop_drop, List.drop_left,
          List.drop_one, List.tail_cons, hi]
        rfl
      · simp only [List.length_append, List.length_cons]
        omega

/-- The list is the text behind the third blank. -/
theorem remote_capabilities_eq (tag sdp : Text) :
    remoteCapabilities tag sdp =
      if '\n' ∈ behindTag tag sdp then behindThirdBlank (behindTag tag sdp) else [] := by
  have hstart : behindTag tag sdp = sdp.drop (searchStart tag sdp) := by
    rw [behindTag, searchStart]
    cases find tag sdp <;> rfl
  rw [hstart, remoteCapabilities]
  generalize searchStart tag sdp = start
  rcases Nat.lt_or_ge sdp.length start with hlong | hle
  · have hempty : sdp.drop start = [] := List.drop_of_length_le hlong.le
    simp [findFrom, hempty, Nat.not_le.mpr hlong]
  generalize ht : sdp.drop start = t
  by_cases hline : '\n' ∈ t
  · obtain ⟨line, rest, rfl, hno⟩ := List.eq_append_cons_of_mem hline
    have hstop : findFrom ['\n'] sdp start = some (line.length + start) := by
      rw [find_from_of_le hle, ht, find_char hno]
      rfl
    rw [if_pos hline]
    simp only [hstop]
    -- Each blank is searched behind the one before, also behind the end of the line.
    cases h1 : find [' '] (line ++ '\n' :: rest) with
    | none => simp [find_from_of_le hle, ht, h1, behindThirdBlank, blanksEnd]
    | some i =>
        have hpos1 : findFrom [' '] sdp start = some (i + start) := by
          rw [find_from_of_le hle, ht, h1]
          rfl
        obtain ⟨hle1, ht1⟩ := behind_found hle (ht ▸ h1)
        rw [ht] at ht1
        simp only [hpos1]
        cases h2 : find [' '] ((line ++ '\n' :: rest).drop (i + 1)) with
        | none => simp [find_from_of_le hle1, ht1, h1, h2, behindThirdBlank, blanksEnd]
        | some j =>
            have hpos2 : findFrom [' '] sdp (behind (some (i + start))) =
                some (j + behind (some (i + start))) := by
              rw [find_from_of_le hle1, ht1, h2]
              rfl
            obtain ⟨hle2, ht2⟩ := behind_found hle1 (ht1 ▸ h2)
            rw [ht1] at ht2
            simp only [hpos2]
            cases h3 : find [' '] (((line ++ '\n' :: rest).drop (i + 1)).drop (j + 1)) with
            | none =>
                simp [find_from_of_le hle2, ht2, h1, h2, h3, behindThirdBlank, blanksEnd,
                  -List.drop_drop]
            | some k =>
                have hpos3 : findFrom [' '] sdp (behind (some (j + behind (some (i + start))))) =
                    some (k + behind (some (j + behind (some (i + start))))) := by
                  rw [find_from_of_le hle2, ht2, h3]
                  rfl
                have hthird : k + behind (some (j + behind (some (i + start)))) + 1 =
                    start + (k + 1 + (j + 1) + (i + 1)) := by
                  simp only [behind]
                  omega
                have hend : blanksEnd 3 (line ++ '\n' :: rest) =
                    some (k + 1 + (j + 1) + (i + 1)) := by
                  simp [blanksEnd, h1, h2, h3, -List.drop_drop]
                have hfirst : (line ++ '\n' :: rest).takeWhile (· ≠ '\n') = line := by
                  rw [List.takeWhile_append_of_pos (by
                    intro c hc
                    simpa using fun heq : c = '\n' => hno (heq ▸ hc))]
                  simp
                generalize k + 1 + (j + 1) + (i + 1) = m at hthird hend
                have hdrop : sdp.drop (k + behind (some (j + behind (some (i + start)))) + 1) =
                    (line ++ '\n' :: rest).drop m := by
                  rw [hthird, ← List.drop_drop, ht]
                simp only [hpos3, behindThirdBlank, hend, hfirst, hdrop]
                rcases Nat.lt_or_ge line.length m with hshort | hlong
                · rw [if_neg (by omega), if_neg (by omega)]
                · rw [if_pos (by omega), if_pos hlong, List.drop_append_of_le_length hlong,
                    Nat.sub_sub, hthird,
                    show line.length + start - (start + m) = line.length - m by omega]
                  exact List.take_left' (by simp)
  · rw [if_neg hline]
    simp [find_from_of_le hle, ht, find_char_of_not_mem hline]

/-- The number that stands in the place of the list is the one at the head of what is read. -/
theorem atoi_remote_capabilities (tag sdp : Text) :
    atoi (remoteCapabilities tag sdp) = strayNumber tag sdp := by
  rw [remote_capabilities_eq, strayNumber]
  split_ifs with hline
  · rfl
  · rfl

/-! ## The walk along the list -/

variable {capabilities : Text} {supported : List ℤ}

/-- The beginning of the list up to a blank is read as zero or as the whole list is. -/
theorem atoi_take {start stop : Nat} (h : findFrom [' '] capabilities start = some stop)
    (hread : atoi (capabilities.take stop) ≠ undefinedType) :
    atoi capabilities = atoi (capabilities.take stop) := by
  have hstart : start ≤ capabilities.length := by
    by_contra hlong
    rw [findFrom, if_neg hlong] at h
    cases h
  rw [find_from_of_le hstart] at h
  obtain ⟨i, hi, rfl⟩ := Option.map_eq_some_iff.mp h
  obtain ⟨hsplit, -, hlt⟩ := split_of_find_char hi
  have hcut : capabilities =
      capabilities.take (i + start) ++ ' ' :: (capabilities.drop start).drop (i + 1) := by
    have htake : capabilities.take (i + start) =
        capabilities.take start ++ (capabilities.drop start).take i := by
      rw [Nat.add_comm, List.take_add]
    rw [htake, List.append_assoc, ← hsplit, List.take_append_drop]
  have hword : ∃ c ∈ capabilities.take (i + start), isSpace c = false := by
    by_contra hblank
    simp only [not_exists, not_and, Bool.not_eq_false] at hblank
    exact hread (atoi_blank hblank)
  obtain ⟨c, hc, hspace⟩ := hword
  conv_lhs => rw [hcut]
  exact atoi_append rfl hc hspace

/-- The walk compares nothing but the number at the head of the list. -/
theorem prefered_type_eq (hdefined : undefinedType ∉ supported) (fuel start : Nat)
    (hstart : start ≤ capabilities.length) (hfuel : capabilities.length < start + fuel) :
    preferedType supported capabilities fuel start =
      if atoi capabilities ∈ supported then some (atoi capabilities) else none := by
  induction fuel generalizing start with
  | zero => omega
  | succ fuel ih =>
      rw [preferedType, if_pos hstart]
      cases hfound : findFrom [' '] capabilities start with
      | none => rfl
      | some stop =>
          show (if atoi (capabilities.take stop) ∈ supported then
            some (atoi (capabilities.take stop)) else _) = _
          split_ifs with hmem hhead hhead
          · rw [atoi_take hfound fun hzero => hdefined (hzero ▸ hmem)]
          · rw [atoi_take hfound fun hzero => hdefined (hzero ▸ hmem)] at hhead
            exact absurd hmem hhead
          all_goals
            rw [find_from_of_le hstart] at hfound
            obtain ⟨i, hi, rfl⟩ := Option.map_eq_some_iff.mp hfound
            obtain ⟨-, -, hlt⟩ := split_of_find_char hi
            rw [List.length_drop] at hlt
            rw [ih (i + start + 1) (by omega) (by omega)]
            simp [hhead]

/-- Negotiation succeeds exactly when the number that is read is supported. -/
theorem negotiate_fresh (kind : MediaKind) (supported : SupportedTypes) (sdp : Text) :
    negotiate kind supported.types sdp undefinedType =
      if strayNumber kind.tag sdp ∈ supported.types then (true, strayNumber kind.tag sdp)
      else (false, undefinedType) := by
  rw [negotiate_eq, negotiatePayloadType, prefered_type_eq supported.defined _ 0 (by omega)
    (by omega), atoi_remote_capabilities]
  split_ifs with hmem
  · have hne : strayNumber kind.tag sdp ≠ undefinedType :=
      fun hzero => supported.defined (hzero ▸ hmem)
    simp [hne]
  · simp

/-! ## The first entry decides -/

/-- In a well placed line the first entry is the number that is read. -/
theorem stray_number_of_placed (hblank : ' ' ∉ tag) (hbreak : '\n' ∉ tag)
    (h : WellPlaced tag sdp) :
    strayNumber tag sdp = (((mediaLine tag sdp).map payloadList).getD []).head?.getD 0 := by
  obtain ⟨before, line, after, rfl, hbefore, hline, hcount⟩ := h
  have hfind : find tag (unlines before ++ (tag ++ line ++ '\n' :: after)) =
      some (unlines before).length := by
    rw [find_skip_lines hbreak fun l hl => (hbefore l hl).2,
      find_of_prefix (by rw [List.append_assoc]; exact List.prefix_append _ _)]
    simp
  have hbehind : behindTag tag (unlines before ++ (tag ++ line ++ '\n' :: after)) =
      line ++ '\n' :: after := by
    rw [behindTag, hfind, Option.map_some, Option.getD_some, ← List.drop_drop, List.drop_left,
      List.append_assoc, List.drop_left]
  have hmedia : mediaLine tag (unlines before ++ (tag ++ line ++ '\n' :: after)) =
      some (tag ++ line) := by
    rw [mediaLine, lines_unlines_append fun l hl => (hbefore l hl).1,
      lines_line (by simp [hbreak, hline]), List.find?_append,
      List.find?_eq_none.mpr (by
        intro l hl
        simpa using fun hstart => (hbefore l hl).2 hstart.isInfix)]
    simp
  obtain ⟨i, hi, hle⟩ := blanks_end_of_count 3 line hcount
  have hwhole : blanksEnd 3 (line ++ '\n' :: after) = some i := by
    have htake := blanks_end_take 3 line.length (line ++ '\n' :: after)
    rw [List.take_left, hi] at htake
    exact (Option.filter_eq_some_iff.mp htake.symm).1
  have hfirst : (line ++ '\n' :: after).takeWhile (· ≠ '\n') = line := by
    rw [List.takeWhile_append_of_pos (by
      intro c hc
      simpa using fun heq : c = '\n' => hline (heq ▸ hc))]
    simp
  rw [strayNumber, hbehind, if_pos (by simp), behindThirdBlank, hwhole, hmedia]
  simp only [hfirst, if_pos hle, Option.map_some, Option.getD_some, payloadList,
    blanks_end_append 2 hblank, hi]
  rw [Nat.add_comm, List.drop_length_add_append]
  exact atoi_eq_word _

/-- What is asked of the negotiation, in terms of the number that is read. -/
theorem negotiates_exactly_iff_number (kind : MediaKind) (supported : SupportedTypes)
    (sdp : Text) :
    NegotiatesExactly kind supported sdp ↔
      (strayNumber kind.tag sdp ∉ supported.types ∧
          ∀ type ∈ remoteTypes kind sdp, type ∉ supported.types) ∨
        (strayNumber kind.tag sdp ∈ supported.types ∧
          (remoteTypes kind sdp).find? (· ∈ supported.types) =
            some (strayNumber kind.tag sdp)) := by
  have hlisted : (∃ line, mediaLine kind.tag sdp = some line ∧
      ∃ type ∈ payloadList line, type ∈ supported.types) ↔
      ∃ type ∈ remoteTypes kind sdp, type ∈ supported.types := by
    rw [remoteTypes]
    cases mediaLine kind.tag sdp with
    | none => simp
    | some line => simp
  rw [NegotiatesExactly, hlisted, negotiate_fresh]
  split_ifs with hmem
  · simp only [hmem, true_iff, forall_const, not_true_eq_false, false_and, true_and, false_or]
    constructor
    · exact fun h => h.2
    · exact fun h => ⟨⟨_, List.mem_of_find?_eq_some h, hmem⟩, h⟩
  · simp [hmem]

/-- Negotiation is exact just where the head of the list decides it. -/
theorem negotiates_exactly_iff (kind : MediaKind) (supported : SupportedTypes) (sdp : Text) :
    NegotiatesExactly kind supported sdp ↔ HeadDecides kind supported sdp := by
  rw [negotiates_exactly_iff_number, HeadDecides]
  by_cases hplaced : WellPlaced kind.tag sdp
  · have hblank : ' ' ∉ kind.tag := by cases kind <;> decide
    have hbreak : '\n' ∉ kind.tag := by cases kind <;> decide
    have hnumber := stray_number_of_placed hblank hbreak hplaced
    rw [← remoteTypes] at hnumber
    simp only [hplaced, true_and, not_true_eq_false, false_and, or_false]
    cases htypes : remoteTypes kind sdp with
    | nil =>
        have hzero : strayNumber kind.tag sdp = undefinedType := by rw [hnumber, htypes]; rfl
        simp [hzero, supported.defined]
    | cons type types =>
        have hhead : strayNumber kind.tag sdp = type := by rw [hnumber, htypes]; rfl
        rw [hhead]
        by_cases hmem : type ∈ supported.types
        · simp [hmem]
        · simp [hmem]
  · simp only [hplaced, false_and, not_false_eq_true, true_and, false_or]

/-- A remote side that prefers AV1 but also lists H.264 is turned down by one without AV1. -/
theorem second_entry_is_ignored :
    ¬ NegotiatesExactly .video ⟨[96], by decide⟩
      "m=video 0 UDP/TLS/RTP/SAVPF 99 96 97 98 127\n".toList := by
  intro h
  have hlisted : (96 : ℤ) ∈
      payloadList "m=video 0 UDP/TLS/RTP/SAVPF 99 96 97 98 127".toList := by decide +kernel
  have hsuccess := h.1.mpr ⟨_, by decide +kernel, 96, hlisted, by decide⟩
  revert hsuccess
  decide +kernel

end IceTransport

end MiniRtc

import Mathlib.Algebra.Group.Nat.Defs
import Mathlib.Data.List.DropRight
import Mathlib.Data.List.Infix

/-!
# Searching in texts

A text is the list of its bytes, written as characters. `find`, `findFrom` and `rfind` are the
searches of `std::string`, and `lines` is what repeated calls of `getline` return. Texts that are
made of lines are written `unlines ls`. A pattern without a line break occurs in such a text only
inside its lines, so a search skips the lines that do not contain the pattern.
-/

namespace MiniRtc

/-- `std::string`. -/
abbrev Text := List Char

namespace Text

instance : LawfulBEq Text :=
  inferInstanceAs (LawfulBEq (List Char))

variable {p q s t line rest : Text}

/-! ## First occurrences -/

/-- The first offset at which the pattern occurs. -/
def find (p : Text) : Text → Option Nat
  | [] => if p = [] then some 0 else none
  | c :: s => if p <+: c :: s then some 0 else (find p s).map (· + 1)

/-- The first offset from `start` on at which the pattern occurs. -/
def findFrom (p s : Text) (start : Nat) : Option Nat :=
  if start ≤ s.length then (find p (s.drop start)).map (· + start) else none

/-- A pattern at the very beginning is found there. -/
theorem find_of_prefix (h : p <+: s) : find p s = some 0 := by
  cases s with
  | nil => simp [find, List.prefix_nil.mp h]
  | cons c s => simp [find, h]

/-- A pattern is found exactly when it occurs. -/
theorem find_eq_none_iff : find p s = none ↔ ¬ p <:+: s := by
  induction s with
  | nil => simp [find]
  | cons c s ih =>
      rw [find, List.infix_cons_iff]
      split_ifs with hstart
      · simp [hstart]
      · simp [hstart, ih]

/-- The pattern stands at the offset where it is found. -/
theorem prefix_of_find {i : Nat} (h : find p s = some i) : p <+: s.drop i := by
  induction s generalizing i with
  | nil =>
      simp only [find] at h
      split_ifs at h with hnil
      rw [hnil]
      exact List.nil_prefix
  | cons c s ih =>
      simp only [find] at h
      split_ifs at h with hstart
      · rw [← Option.some.inj h]
        exact hstart
      · obtain ⟨j, hj, rfl⟩ := Option.map_eq_some_iff.mp h
        exact ih hj

/-- A found pattern fits into the text. -/
theorem find_le_length {i : Nat} (h : find p s = some i) : i ≤ s.length := by
  induction s generalizing i with
  | nil =>
      simp only [find] at h
      split_ifs at h
      rw [← Option.some.inj h]
      exact Nat.zero_le _
  | cons c s ih =>
      simp only [find] at h
      split_ifs at h
      · rw [← Option.some.inj h]
        exact Nat.zero_le _
      · obtain ⟨j, hj, rfl⟩ := Option.map_eq_some_iff.mp h
        exact Nat.succ_le_succ (ih hj)

/-- A pattern is found at the latest where it stands. -/
theorem find_le_of_stands (s t : Text) : ∃ i ≤ s.length, find p (s ++ (p ++ t)) = some i := by
  induction s with
  | nil => exact ⟨0, Nat.le_refl 0, find_of_prefix (List.prefix_append p t)⟩
  | cons c s ih =>
      rw [List.cons_append, find]
      split_ifs with hstart
      · exact ⟨0, Nat.zero_le _, rfl⟩
      · obtain ⟨i, hi, hfind⟩ := ih
        exact ⟨i + 1, Nat.succ_le_succ hi, by rw [hfind, Option.map_some]⟩

/-- A pattern does not occur before the place where it is found. -/
theorem not_infix_take {n : Nat} (hne : p ≠ []) (h : n ≤ (find p s).getD s.length) :
    ¬ p <:+: s.take n := by
  rintro ⟨a, b, hab⟩
  have hs : s = a ++ (p ++ (b ++ s.drop n)) := by
    rw [← List.append_assoc, ← List.append_assoc, hab, List.take_append_drop]
  obtain ⟨i, hi, hfind⟩ := find_le_of_stands (p := p) a (b ++ s.drop n)
  rw [← hs] at hfind
  rw [hfind, Option.getD_some] at h
  have hlength := congrArg List.length hab
  have htake := List.length_take_le n s
  have hpos := List.length_pos_of_ne_nil hne
  simp only [List.length_append] at hlength
  omega

/-- What follows does not change the first occurrence. -/
theorem find_append_of_some {i : Nat} (h : find p s = some i) : find p (s ++ t) = some i := by
  induction s generalizing i with
  | nil =>
      simp only [find] at h
      split_ifs at h with hnil
      rw [← Option.some.inj h]
      exact find_of_prefix (hnil ▸ List.nil_prefix)
  | cons c s ih =>
      simp only [find] at h
      split_ifs at h with hstart
      · rw [← Option.some.inj h]
        exact find_of_prefix (hstart.trans (List.prefix_append _ _))
      · obtain ⟨j, hj, rfl⟩ := Option.map_eq_some_iff.mp h
        rw [List.cons_append, find, ih hj]
        have hno : ¬ p <+: c :: (s ++ t) := by
          intro hlong
          have hlen : p.length ≤ (c :: s).length := by
            have hfit := (prefix_of_find hj).length_le
            simp only [List.length_drop, List.length_cons] at hfit ⊢
            omega
          exact hstart (List.prefix_of_prefix_length_le hlong
            (List.prefix_append (c :: s) t) hlen)
        rw [if_neg hno]
        rfl

/-- A search skips a text without the first character of the pattern. -/
theorem find_skip {c : Char} (h : c ∉ s) :
    find (c :: p) (s ++ t) = (find (c :: p) t).map (· + s.length) := by
  induction s with
  | nil => simp
  | cons d s ih =>
      have hd : c ≠ d := fun heq => h (heq ▸ List.mem_cons_self)
      have hno : ¬ c :: p <+: d :: (s ++ t) := fun hstart =>
        hd (List.cons_prefix_cons.mp hstart).1
      rw [List.cons_append, find, if_neg hno, ih fun hmem => h (List.mem_cons_of_mem _ hmem),
        Option.map_map]
      rfl

/-- A character is found at its first place. -/
theorem find_char {c : Char} (h : c ∉ s) : find [c] (s ++ c :: t) = some s.length := by
  rw [find_skip h, find_of_prefix (by simp)]
  simp

/-- A character that does not occur is not found. -/
theorem find_char_of_not_mem {c : Char} (h : c ∉ s) : find [c] s = none :=
  find_eq_none_iff.mpr fun hwithin => h (hwithin.subset (by simp))

/-- A found character splits the text there. -/
theorem split_of_find_char {c : Char} {i : Nat} (h : find [c] s = some i) :
    s = s.take i ++ c :: s.drop (i + 1) ∧ c ∉ s.take i ∧ i < s.length := by
  by_cases hmem : c ∈ s
  · obtain ⟨a, b, rfl, ha⟩ := List.eq_append_cons_of_mem hmem
    rw [find_char ha] at h
    obtain rfl := Option.some.inj h
    simp [ha]
  · rw [find_char_of_not_mem hmem] at h
    cases h

/-- A search for a character that stops early. -/
theorem find_char_take {c : Char} (n : Nat) :
    find [c] (s.take n) = (find [c] s).filter (· < n) := by
  cases hfound : find [c] s with
  | none =>
      have hmem : c ∉ s := fun hmem =>
        find_eq_none_iff.mp hfound ((List.singleton_infix_iff c s).mpr hmem)
      exact find_char_of_not_mem fun h => hmem (List.mem_of_mem_take h)
  | some i =>
      obtain ⟨hsplit, hno, hlt⟩ := split_of_find_char hfound
      rcases Nat.lt_or_ge i n with hi | hi
      · have htake : s.take n = s.take i ++ c :: (s.drop (i + 1)).take (n - (i + 1)) := by
          conv_lhs => rw [hsplit]
          rw [List.take_append, List.take_of_length_le (by simp; omega), List.length_take,
            Nat.min_eq_left hlt.le, show n - i = n - (i + 1) + 1 by omega, List.take_succ_cons]
        rw [htake, find_char hno, Option.filter_some_pos (by simpa using hi), List.length_take,
          Nat.min_eq_left hlt.le]
      · have hmem : c ∉ s.take n := fun h =>
          hno ((List.take_prefix_take_left hi).subset h)
        rw [find_char_of_not_mem hmem, Option.filter_some_neg (by simpa using hi)]

/-- A search that starts behind an offset. -/
theorem find_from_of_le {start : Nat} (h : start ≤ s.length) :
    findFrom p s start = (find p (s.drop start)).map (· + start) := if_pos h

/-- A pattern cannot reach across a character that it does not contain. -/
theorem infix_append_cons {c : Char} (h : c ∉ p) : p <:+: s ++ c :: t ↔ p <:+: s ∨ p <:+: t := by
  constructor
  · rintro ⟨a, b, hab⟩
    rw [List.append_assoc] at hab
    rcases List.append_eq_append_iff.mp hab with ⟨a', rfl, hrest⟩ | ⟨a', rfl, hrest⟩
    · rcases List.append_eq_append_iff.mp hrest with ⟨x, rfl, -⟩ | ⟨x, rfl, hx⟩
      · exact Or.inl ⟨a, x, by simp⟩
      · cases x with
        | nil => exact Or.inl ⟨a, [], by simp⟩
        | cons d x =>
            obtain ⟨rfl, -⟩ := List.cons.inj hx
            simp at h
    · cases a' with
      | nil =>
          cases p with
          | nil => exact Or.inl (List.nil_infix)
          | cons d p =>
              obtain ⟨rfl, -⟩ := List.cons.inj hrest
              simp at h
      | cons d a' =>
          obtain ⟨-, rfl⟩ := List.cons.inj hrest
          exact Or.inr ⟨a', b, by simp⟩
  · rintro (hs | ht)
    · exact hs.trans (List.prefix_append _ _).isInfix
    · exact ht.trans ((List.suffix_cons c t).trans (List.suffix_append _ _)).isInfix

/-- What follows does not turn two different beginnings into a prefix. -/
theorem not_prefix_append (hpq : ¬ p <+: q) (hqp : ¬ q <+: p) (s : Text) : ¬ p <+: q ++ s := by
  intro h
  rcases Nat.le_total p.length q.length with hlen | hlen
  · exact hpq (List.prefix_of_prefix_length_le h (List.prefix_append _ _) hlen)
  · exact hqp (List.prefix_of_prefix_length_le (List.prefix_append _ _) h hlen)

/-- A pattern with a character that does not occur does not occur. -/
theorem not_infix_of_not_mem {c : Char} (hp : c ∈ p) (hs : c ∉ s) : ¬ p <:+: s :=
  fun h => hs (h.subset hp)

/-- A pattern whose second character occurs once, as the second one, can only start the text. -/
theorem starts_of_contains {c d e : Char} (hd : d ≠ c) (hs : c ∉ s)
    (h : d :: c :: p <:+: e :: c :: s) : d :: c :: p <+: e :: c :: s := by
  rcases List.infix_cons_iff.mp h with hstart | hwithin
  · exact hstart
  rcases List.infix_cons_iff.mp hwithin with hstart | hwithin
  · exact absurd (List.cons_prefix_cons.mp hstart).1 hd
  · exact absurd (hwithin.subset (by simp)) hs

/-- A pattern at the beginning ends before a character that it does not contain. -/
theorem prefix_append_cons {c : Char} (hp : c ∉ p) : p <+: s ++ c :: t ↔ p <+: s := by
  constructor
  · intro h
    have hs : s <+: s ++ c :: t := List.prefix_append _ _
    rcases Nat.le_total p.length s.length with hlen | hlen
    · exact List.prefix_of_prefix_length_le h hs hlen
    · obtain ⟨tail, rfl⟩ := List.prefix_of_prefix_length_le hs h hlen
      rw [List.prefix_append_right_inj] at h
      cases tail with
      | nil => simp
      | cons d tail =>
          obtain ⟨rfl, -⟩ := List.cons_prefix_cons.mp h
          simp at hp
  · exact fun h => h.trans (List.prefix_append _ _)

/-- A pattern without a line break that reaches into a line lies in it. -/
theorem prefix_line (hp : '\n' ∉ p) (h : p <+: line ++ '\n' :: rest) : p <+: line :=
  (prefix_append_cons hp).mp h

/-- A search skips a line that does not contain the pattern. -/
theorem find_skip_line (hp : '\n' ∉ p) (hline : ¬ p <:+: line) :
    find p (line ++ '\n' :: rest) = (find p rest).map (· + (line.length + 1)) := by
  induction line with
  | nil =>
      have hno : ¬ p <+: '\n' :: rest := fun h => hline (prefix_line hp h).isInfix
      simp [find, hno]
  | cons c line ih =>
      have hno : ¬ p <+: c :: (line ++ '\n' :: rest) :=
        fun h => hline (prefix_line hp h).isInfix
      rw [List.cons_append, find, if_neg hno,
        ih fun h => hline (h.trans (List.suffix_cons c line).isInfix), Option.map_map]
      rfl

/-- The offset of a pattern, or the end of the text, behind a line without it. -/
theorem find_end_skip_line (hp : '\n' ∉ p) (hline : ¬ p <:+: line) :
    (find p (line ++ '\n' :: rest)).getD (line ++ '\n' :: rest).length =
      line.length + 1 + (find p rest).getD rest.length := by
  rw [find_skip_line hp hline]
  cases find p rest with
  | none =>
      simp only [Option.map_none, Option.getD_none, List.length_append, List.length_cons]
      omega
  | some i =>
      simp only [Option.map_some, Option.getD_some]
      omega

/-! ## Last occurrences -/

/-- The last offset at which the pattern occurs. -/
def rfind (p : Text) : Text → Option Nat
  | [] => if p = [] then some 0 else none
  | c :: s =>
      match rfind p s with
      | some i => some (i + 1)
      | none => if p <+: c :: s then some 0 else none

/-- What precedes does not change the last occurrence. -/
theorem rfind_append_of_some {i : Nat} (h : rfind p t = some i) :
    rfind p (s ++ t) = some (s.length + i) := by
  induction s with
  | nil => simpa using h
  | cons c s ih =>
      rw [List.cons_append, rfind, ih]
      simp only [List.length_cons, Option.some.injEq]
      omega

/-- A pattern is found from the end exactly when it occurs. -/
theorem rfind_eq_none_iff : rfind p s = none ↔ ¬ p <:+: s := by
  induction s with
  | nil => simp [rfind]
  | cons c s ih =>
      rw [rfind, List.infix_cons_iff]
      cases hfound : rfind p s with
      | some i => simp [← ih.not_left, hfound]
      | none =>
          have hno := ih.mp hfound
          simp [hno]

/-- A pattern that stands at the beginning and not behind it. -/
theorem rfind_of_prefix {c : Char} (h : p <+: c :: s) (hlater : ¬ p <:+: s) :
    rfind p (c :: s) = some 0 := by
  rw [rfind, rfind_eq_none_iff.mpr hlater]
  exact if_pos h

/-! ## Lines -/

/-- The lines that `getline` reads. A line break at the end starts no new line. -/
def lines : Text → List Text
  | [] => []
  | c :: s =>
      if c = '\n' then [] :: lines s
      else
        match lines s with
        | [] => [[c]]
        | line :: more => (c :: line) :: more

/-- The text of the lines, each with its line break. -/
def unlines (ls : List Text) : Text :=
  ls.flatMap fun line => line ++ ['\n']

@[simp] theorem unlines_nil : unlines [] = [] := rfl

@[simp] theorem unlines_cons (line : Text) (ls : List Text) :
    unlines (line :: ls) = line ++ '\n' :: unlines ls := by
  simp [unlines]

@[simp] theorem unlines_append (ls ms : List Text) :
    unlines (ls ++ ms) = unlines ls ++ unlines ms := by
  simp [unlines]

/-- The last line break of some lines. -/
theorem unlines_last {ks : List Text} (hne : ks ≠ []) : ∃ front last, ks = front ++ [last] ∧
    unlines ks = (unlines front ++ last) ++ ['\n'] := by
  refine ⟨ks.dropLast, ks.getLast hne, (List.dropLast_append_getLast hne).symm, ?_⟩
  conv_lhs => rw [← List.dropLast_append_getLast hne]
  rw [unlines_append, unlines_cons, unlines_nil, List.append_assoc]

/-- The first line of a text. -/
theorem lines_line (hline : '\n' ∉ line) : lines (line ++ '\n' :: rest) = line :: lines rest := by
  induction line with
  | nil => simp [lines]
  | cons c line ih =>
      have hc : c ≠ '\n' := fun h => hline (h ▸ List.mem_cons_self)
      rw [List.cons_append, lines, if_neg hc, ih fun h => hline (List.mem_cons_of_mem _ h)]

/-- A text without a line break is one line. -/
theorem lines_last (hline : '\n' ∉ line) (hne : line ≠ []) : lines line = [line] := by
  induction line with
  | nil => exact absurd rfl hne
  | cons c line ih =>
      have hc : c ≠ '\n' := fun h => hline (h ▸ List.mem_cons_self)
      rw [lines, if_neg hc]
      cases line with
      | nil => simp [lines]
      | cons d line => rw [ih (fun h => hline (List.mem_cons_of_mem _ h)) (by simp)]

/-- Reading lines that were written. -/
theorem lines_unlines_append {ls : List Text} (h : ∀ line ∈ ls, '\n' ∉ line) :
    lines (unlines ls ++ rest) = ls ++ lines rest := by
  induction ls with
  | nil => simp
  | cons line ls ih =>
      rw [unlines_cons, List.append_assoc, List.cons_append, lines_line (h line (by simp)),
        ih fun l hl => h l (List.mem_cons_of_mem _ hl)]
      rfl

theorem lines_unlines {ls : List Text} (h : ∀ line ∈ ls, '\n' ∉ line) :
    lines (unlines ls) = ls := by
  have hread : lines (unlines ls ++ []) = ls ++ lines [] := lines_unlines_append h
  rwa [List.append_nil, lines, List.append_nil] at hread

/-- A line break ends the lines before it. -/
theorem lines_append_break (s t : Text) :
    lines (s ++ '\n' :: t) = lines (s ++ ['\n']) ++ lines t := by
  induction s with
  | nil => simp [lines]
  | cons c s ih =>
      rw [List.cons_append, List.cons_append, lines, lines, ih]
      by_cases hc : c = '\n'
      · rw [if_pos hc, if_pos hc, List.cons_append]
      rw [if_neg hc, if_neg hc]
      cases hlines : lines (s ++ ['\n']) with
      | nil =>
          have hne : ∀ u : Text, lines (u ++ ['\n']) ≠ [] := by
            intro u
            cases u with
            | nil => simp [lines]
            | cons d u =>
                rw [List.cons_append, lines]
                split_ifs
                · exact List.cons_ne_nil _ _
                · cases lines (u ++ ['\n']) <;> exact List.cons_ne_nil _ _
          exact absurd hlines (hne s)
      | cons first more => rfl

/-- A line lies in its text. -/
theorem infix_of_mem_lines (h : line ∈ lines s) : line <:+: s := by
  -- The first line stands at the beginning.
  suffices hboth : (∀ first ∈ (lines s).head?, first <+: s) ∧ ∀ l ∈ lines s, l <:+: s from
    hboth.2 line h
  clear h
  induction s with
  | nil => exact ⟨fun _ h => (nomatch h), fun _ h => (nomatch h)⟩
  | cons c s ih =>
      obtain ⟨hfirst, hall⟩ := ih
      have hlater : ∀ l ∈ lines s, l <:+: c :: s := fun l hl =>
        (hall l hl).trans (List.suffix_cons c s).isInfix
      rw [lines]
      split_ifs with hc
      · exact ⟨fun first hhead => Option.some.inj hhead ▸ List.nil_prefix,
          List.forall_mem_cons.mpr ⟨List.nil_infix, hlater⟩⟩
      · cases hlines : lines s with
        | nil =>
            have hone : [c] <+: c :: s := List.cons_prefix_cons.mpr ⟨rfl, List.nil_prefix⟩
            exact ⟨fun first hhead => Option.some.inj hhead ▸ hone,
              fun l hl => List.mem_singleton.mp hl ▸ hone.isInfix⟩
        | cons first more =>
            have hcut : c :: first <+: c :: s :=
              List.cons_prefix_cons.mpr ⟨rfl, hfirst first (by rw [hlines]; rfl)⟩
            refine ⟨fun l hhead => Option.some.inj hhead ▸ hcut,
              List.forall_mem_cons.mpr ⟨hcut.isInfix, fun l hl => hlater l ?_⟩⟩
            rw [hlines]
            exact List.mem_cons_of_mem _ hl

/-- A text without a line break has at most itself as a line. -/
theorem eq_of_mem_lines (hs : '\n' ∉ s) (h : line ∈ lines s) : line = s := by
  by_cases hne : s = []
  · subst hne
    simp [lines] at h
  · rw [lines_last hs hne] at h
    exact List.mem_singleton.mp h

/-- A text that is cut short has beginnings of its lines. -/
theorem prefix_of_mem_lines_take {ls : List Text} {n : Nat} (hls : ∀ l ∈ ls, '\n' ∉ l)
    (h : line ∈ lines ((unlines ls).take n)) : ∃ l ∈ ls, line <+: l := by
  induction ls generalizing n with
  | nil => simp [lines] at h
  | cons l ls ih =>
      have hl := hls l List.mem_cons_self
      rw [unlines_cons] at h
      rcases Nat.lt_or_ge l.length n with hn | hn
      · obtain ⟨m, rfl⟩ := Nat.exists_eq_add_of_lt hn
        rw [Nat.add_assoc, List.take_length_add_append, List.take_succ_cons, lines_line hl] at h
        rcases List.mem_cons.mp h with rfl | h
        · exact ⟨line, List.mem_cons_self, List.prefix_refl _⟩
        · obtain ⟨m', hm', hcut⟩ := ih (fun k hk => hls k (List.mem_cons_of_mem _ hk)) h
          exact ⟨m', List.mem_cons_of_mem _ hm', hcut⟩
      · rw [List.take_append_of_le_length hn] at h
        have heq := eq_of_mem_lines (fun hmem => hl (List.mem_of_mem_take hmem)) h
        exact ⟨l, List.mem_cons_self, heq ▸ List.take_prefix n l⟩

/-- A search skips lines that do not contain the pattern. -/
theorem find_skip_lines {ls : List Text} (hp : '\n' ∉ p) (h : ∀ line ∈ ls, ¬ p <:+: line) :
    find p (unlines ls ++ rest) = (find p rest).map (· + (unlines ls).length) := by
  induction ls with
  | nil => simp
  | cons line ls ih =>
      rw [unlines_cons, List.append_assoc, List.cons_append,
        find_skip_line hp (h line (by simp)), ih fun l hl => h l (List.mem_cons_of_mem _ hl),
        Option.map_map]
      congr 1
      funext i
      simp only [Function.comp_apply, List.length_append, List.length_cons]
      omega

/-- A pattern without a line break lies in a line. -/
theorem infix_unlines {ls : List Text} (hp : '\n' ∉ p) (hne : p ≠ []) :
    p <:+: unlines ls ↔ ∃ line ∈ ls, p <:+: line := by
  induction ls with
  | nil => simp [hne]
  | cons line ls ih => rw [unlines_cons, infix_append_cons hp, ih, List.exists_mem_cons_iff]

/-- A pattern that starts with a line break is first tried behind the first line. -/
theorem find_break (hline : '\n' ∉ line) :
    find ('\n' :: q) (line ++ '\n' :: rest) =
      if q <+: rest then some line.length
      else (find ('\n' :: q) rest).map (· + (line.length + 1)) := by
  induction line with
  | nil => simp [find]
  | cons c line ih =>
      have hc : c ≠ '\n' := fun h => hline (h ▸ List.mem_cons_self)
      have hno : ¬ '\n' :: q <+: c :: (line ++ '\n' :: rest) :=
        fun h => hc (List.cons_prefix_cons.mp h).1.symm
      rw [List.cons_append, find, if_neg hno, ih fun h => hline (List.mem_cons_of_mem _ h)]
      split_ifs with hnext
      · rfl
      · rw [Option.map_map]
        rfl

/-- The first line from the second one on that starts with the given text, as `find` sees it. -/
theorem find_line_start {ls : List Text} (hline : '\n' ∉ line) (hls : ∀ l ∈ ls, '\n' ∉ l)
    (hq : '\n' ∉ q) (h : ∀ l ∈ ls, ¬ q <+: l) :
    find ('\n' :: q) (line ++ '\n' :: (unlines ls ++ rest)) =
      if q <+: rest then some (line.length + (unlines ls).length)
      else (find ('\n' :: q) rest).map (· + (line.length + 1 + (unlines ls).length)) := by
  induction ls generalizing line with
  | nil => simp [find_break hline]
  | cons l ls ih =>
      have hno : ¬ q <+: l ++ '\n' :: (unlines ls ++ rest) :=
        fun hstart => h l List.mem_cons_self (prefix_line hq hstart)
      rw [unlines_cons, List.append_assoc, List.cons_append, find_break hline, if_neg hno,
        ih (hls l List.mem_cons_self) (fun m hm => hls m (List.mem_cons_of_mem _ hm))
          fun m hm => h m (List.mem_cons_of_mem _ hm)]
      simp only [List.length_append, List.length_cons]
      split_ifs with hrest
      · simp only [Option.map_some, Option.some.injEq]
        omega
      · rw [Option.map_map]
        congr 1
        funext i
        simp only [Function.comp_apply]
        omega

/-! ## Replacing -/

/-- Every occurrence of the pattern from the left on is replaced. The number counts the characters
of the last occurrence that are still to be left out. -/
def replaceFrom (pattern replacement : Text) : Nat → Text → Text
  | _, [] => []
  | skip + 1, _ :: s => replaceFrom pattern replacement skip s
  | 0, c :: s =>
      if pattern <+: c :: s then
        replacement ++ replaceFrom pattern replacement (pattern.length - 1) s
      else c :: replaceFrom pattern replacement 0 s

/-- The loop of `find` and `replace` over a text. -/
def replaceAll (pattern replacement s : Text) : Text :=
  replaceFrom pattern replacement 0 s

/-- A text without the first character of the pattern stays. -/
theorem replace_all_skip {c : Char} (h : c ∉ s) (r : Text) : replaceAll (c :: p) r s = s := by
  unfold replaceAll
  induction s with
  | nil => rfl
  | cons d s ih =>
      have hd : c ≠ d := fun heq => h (heq ▸ List.mem_cons_self)
      rw [replaceFrom, if_neg fun hstart => hd (List.cons_prefix_cons.mp hstart).1,
        ih fun hmem => h (List.mem_cons_of_mem _ hmem)]

/-- A character that the pattern does not contain separates what is replaced. -/
theorem replace_all_append {c : Char} (hc : c ∉ p) (hp : p ≠ []) (r s t : Text) :
    replaceAll p r (s ++ c :: t) = replaceAll p r s ++ c :: replaceAll p r t := by
  have hbetween : replaceFrom p r 0 (c :: t) = c :: replaceFrom p r 0 t := by
    have hno : ¬ p <+: c :: t := by
      intro h
      have hnil : p <+: [] := (prefix_append_cons (s := []) hc).mp h
      exact hp (List.prefix_nil.mp hnil)
    rw [replaceFrom, if_neg hno]
  -- The characters of an occurrence that are left out lie before the separating one.
  suffices h : ∀ (skip : Nat) (u : Text), skip ≤ u.length →
      replaceFrom p r skip (u ++ c :: t) = replaceFrom p r skip u ++ c :: replaceFrom p r 0 t from
    h 0 s (Nat.zero_le _)
  intro skip u
  induction u generalizing skip with
  | nil =>
      intro hskip
      obtain rfl : skip = 0 := Nat.le_zero.mp hskip
      exact hbetween
  | cons d u ih =>
      intro hskip
      cases skip with
      | succ skip => exact ih skip (Nat.succ_le_succ_iff.mp hskip)
      | zero =>
          have hiff := prefix_append_cons (s := d :: u) (t := t) hc
          rw [List.cons_append] at hiff ⊢
          rw [replaceFrom, replaceFrom]
          by_cases hfound : p <+: d :: u
          · have hlength := hfound.length_le
            rw [List.length_cons] at hlength
            rw [if_pos (hiff.mpr hfound), if_pos hfound, ih _ (by omega), List.append_assoc]
          · rw [if_neg fun h => hfound (hiff.mp h), if_neg hfound, ih 0 (Nat.zero_le _),
              List.cons_append]

/-! ## Blanks and numbers -/

/-- `std::isspace` in the default locale. -/
def isSpace (c : Char) : Bool :=
  c = ' ' ∨ c = '\t' ∨ c = '\n' ∨ c = '\x0b' ∨ c = '\x0c' ∨ c = '\r'

/-- `Trim`. -/
def trim (s : Text) : Text :=
  (s.dropWhile isSpace).rdropWhile isSpace

/-- The words that `operator>>` reads. -/
def words : Text → List Text
  | [] => []
  | c :: s =>
      if isSpace c then words s
      else
        match s.head?, words s with
        | some d, word :: more => if isSpace d then [c] :: word :: more else (c :: word) :: more
        | _, _ => [[c]]

/-- A text that does not begin with a blank has a word. -/
theorem words_ne_nil {c : Char} (hc : isSpace c = false) (s : Text) : words (c :: s) ≠ [] := by
  rw [words, if_neg (by simp [hc])]
  split
  · split <;> exact List.cons_ne_nil _ _
  · exact List.cons_ne_nil _ _

/-- A blank separates the words. -/
theorem words_append {c : Char} (hc : isSpace c = true) (first second : Text) :
    words (first ++ c :: second) = words first ++ words second := by
  induction first with
  | nil =>
      show words (c :: second) = words second
      rw [words, if_pos hc]
  | cons d first ih =>
      show words (d :: (first ++ c :: second)) = words (d :: first) ++ words second
      rw [words, words, ih]
      by_cases hd : isSpace d = true
      · rw [if_pos hd, if_pos hd]
      rw [if_neg hd, if_neg hd]
      cases first with
      | nil => cases words second <;> simp [words, hc]
      | cons e first =>
          show (match some e, words (e :: first) ++ words second with
            | some d', word :: more => if isSpace d' then [d] :: word :: more else (d :: word) :: more
            | _, _ => [[d]]) = (match some e, words (e :: first) with
            | some d', word :: more => if isSpace d' then [d] :: word :: more else (d :: word) :: more
            | _, _ => [[d]]) ++ words second
          cases hwords : words (e :: first) with
          | nil =>
              -- Only blanks are left, so the blank at the front ends the word.
              have he : isSpace e = true := by
                by_contra hword
                exact words_ne_nil (Bool.eq_false_iff.mpr hword) first hwords
              cases words second <;> simp [he]
          | cons word more =>
              show (if isSpace e then _ else _) = (if isSpace e then _ else _) ++ _
              split <;> rfl

/-- Blanks before a text add no words. -/
theorem words_blanks (n : Nat) (s : Text) : words (List.replicate n ' ' ++ s) = words s := by
  induction n with
  | zero => rfl
  | succ n ih =>
      show words (' ' :: (List.replicate n ' ' ++ s)) = words s
      rw [words, if_pos (by decide)]
      exact ih

/-- The first word runs up to the next blank. -/
theorem words_head {c : Char} (hc : isSpace c = false) (s : Text) :
    (words (c :: s)).head? = some (c :: s.takeWhile fun d => !isSpace d) := by
  induction s generalizing c with
  | nil => simp [words, hc]
  | cons d s ih =>
      rw [words, if_neg (by simp [hc])]
      cases hd : isSpace d with
      | true =>
          rw [List.head?_cons]
          cases words (d :: s) <;> simp [hd]
      | false =>
          have hword := ih hd
          cases hwords : words (d :: s) with
          | nil => simp [hwords] at hword
          | cons word more =>
              rw [hwords, List.head?_cons, Option.some.injEq] at hword
              simp [hd, hword]

/-- The digits at the beginning of a text, as a number. -/
def leadingDigits (s : Text) : Nat :=
  Nat.ofDigitChars 10 (s.takeWhile Char.isDigit) 0

/-- A number with an optional sign. -/
def signedDigits : Text → ℤ
  | '-' :: digits => -(leadingDigits digits : ℤ)
  | '+' :: digits => leadingDigits digits
  | digits => leadingDigits digits

/-- A number without a sign. -/
theorem signed_digits_unsigned {c : Char} (hminus : c ≠ '-') (hplus : c ≠ '+') (s : Text) :
    signedDigits (c :: s) = leadingDigits (c :: s) := by
  unfold signedDigits
  split
  · next heq => exact absurd (List.cons.inj heq).1 hminus
  · next heq => exact absurd (List.cons.inj heq).1 hplus
  · rfl

/-- `atoi`. Its result is only promised for numbers that fit an `int`. -/
def atoi (s : Text) : ℤ :=
  signedDigits (s.dropWhile isSpace)

/-- The blanks before a number are skipped. -/
theorem atoi_skip (h : ∀ c ∈ s, isSpace c = true) : atoi (s ++ t) = atoi t := by
  rw [atoi, List.dropWhile_append_of_pos h]
  rfl

/-- A text of blanks is read as zero. -/
theorem atoi_blank (h : ∀ c ∈ s, isSpace c = true) : atoi s = 0 := by
  rw [atoi, List.dropWhile_eq_nil_iff.mpr h]
  rfl

/-- Blanks are not digits. -/
theorem isDigit_of_isSpace {c : Char} (hc : isSpace c = true) : c.isDigit = false := by
  simp only [isSpace, Bool.decide_or, Bool.or_eq_true, decide_eq_true_eq] at hc
  rcases hc with rfl | rfl | rfl | rfl | rfl | rfl <;> rfl

/-- The digits end at a blank. -/
theorem leading_digits_append {c : Char} (hc : isSpace c = true) :
    leadingDigits (s ++ c :: t) = leadingDigits s := by
  rw [leadingDigits, leadingDigits, List.takeWhile_append]
  split_ifs with hall
  · rw [List.takeWhile_cons_of_neg (by simp [isDigit_of_isSpace hc]), List.append_nil]
    congr 1
    exact ((List.takeWhile_prefix _).eq_of_length hall).symm
  · rfl

/-- `atoi` stops at a blank behind its number. -/
theorem atoi_append {c d : Char} (hc : isSpace c = true) (hd : d ∈ s)
    (hdigit : isSpace d = false) : atoi (s ++ c :: t) = atoi s := by
  have hne : s.dropWhile isSpace ≠ [] := by
    intro hnil
    rw [List.dropWhile_eq_nil_iff.mp hnil d hd] at hdigit
    cases hdigit
  have hdrop : (s ++ c :: t).dropWhile isSpace = s.dropWhile isSpace ++ c :: t := by
    rw [List.dropWhile_append, if_neg (by simpa using hne)]
  obtain ⟨e, u, hu⟩ := List.exists_cons_of_ne_nil hne
  rw [atoi, atoi, hdrop, hu]
  by_cases hminus : e = '-'
  · subst hminus
    simp [signedDigits, leading_digits_append hc]
  by_cases hplus : e = '+'
  · subst hplus
    simp [signedDigits, leading_digits_append hc]
  rw [List.cons_append, signed_digits_unsigned hminus hplus, signed_digits_unsigned hminus hplus,
    ← List.cons_append, leading_digits_append hc]

/-- `atoi` reads the first word. -/
theorem atoi_eq_word (s : Text) : atoi s = ((words s).map atoi).head?.getD 0 := by
  induction s with
  | nil => rfl
  | cons c s ih =>
      cases hc : isSpace c with
      | true =>
          have hskip : atoi (c :: s) = atoi s := atoi_skip (s := [c]) (by simpa using hc)
          rw [hskip, words, if_pos hc, ih]
      | false =>
          have hword := words_head hc s
          have hread : atoi (c :: s) = atoi (c :: s.takeWhile fun d => !isSpace d) := by
            have hsplit := List.takeWhile_append_dropWhile (p := fun d => !isSpace d) (l := s)
            cases hrest : s.dropWhile (fun d => !isSpace d) with
            | nil => rw [hrest, List.append_nil] at hsplit; rw [hsplit]
            | cons e rest =>
                have he : isSpace e = true := by
                  have := List.head?_dropWhile_not (fun d => !isSpace d) s
                  simpa [hrest] using this
                conv_lhs => rw [← hsplit, hrest, ← List.cons_append]
                exact atoi_append he List.mem_cons_self hc
          rw [List.head?_map, hword, hread]
          rfl

/-- `std::to_string`. -/
def decimal (n : Nat) : Text :=
  Nat.toDigits 10 n

/-- `ParseUint32`, which is `std::from_chars` on the whole text. -/
def parseUint32 (s : Text) : Option (BitVec 32) :=
  if s ≠ [] ∧ s.all Char.isDigit ∧ Nat.ofDigitChars 10 s 0 < 2 ^ 32 then
    some (BitVec.ofNat 32 (Nat.ofDigitChars 10 s 0))
  else none

theorem decimal_ne_nil (n : Nat) : decimal n ≠ [] :=
  Nat.toDigits_ne_nil

/-- A written number consists of digits. -/
theorem isDigit_of_mem_decimal {c : Char} {n : Nat} (h : c ∈ decimal n) : c.isDigit = true :=
  Nat.isDigit_of_mem_toDigits (by decide) (by decide) h

/-- A number is read as it was written. -/
theorem parse_uint32_decimal (n : BitVec 32) : parseUint32 (decimal n.toNat) = some n := by
  have hvalue : Nat.ofDigitChars 10 (decimal n.toNat) 0 = n.toNat :=
    Nat.ofDigitChars_ten_toDigits
  rw [parseUint32, hvalue,
    if_pos ⟨decimal_ne_nil _, List.all_eq_true.mpr fun c hc => isDigit_of_mem_decimal hc, n.isLt⟩]
  simp

/-- The digits of a number hold no other characters. -/
theorem not_mem_decimal {c : Char} (hc : c.isDigit = false) (n : Nat) : c ∉ decimal n := by
  intro hmem
  rw [isDigit_of_mem_decimal hmem] at hc
  cases hc

/-- `std::to_string` of a signed number. -/
def integer : ℤ → Text
  | .ofNat n => decimal n
  | .negSucc n => '-' :: decimal (n + 1)

theorem not_mem_integer {c : Char} (hc : c.isDigit = false) (hminus : c ≠ '-') (n : ℤ) :
    c ∉ integer n := by
  cases n with
  | ofNat n => exact not_mem_decimal hc n
  | negSucc n =>
      intro hmem
      rcases List.mem_cons.mp hmem with heq | hmem
      · exact hminus heq
      · exact not_mem_decimal hc _ hmem

end Text

end MiniRtc

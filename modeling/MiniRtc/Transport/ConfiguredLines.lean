import MiniRtc.Transport.StreamMapping

/-!
# Configuring a section, line by line

`ConfigureMediaSection` looks for a section by the first occurrence of its tag, and a stream id of
an earlier section may hide one. Whatever line it finds, it replaces the placeholder of that line,
if there is one, and adds its lines before the next media line. `Configured` says so about lines,
and the local description of any streams is read from it.
-/

namespace MiniRtc

open Text

namespace IceTransport

/-- Lines that are none, or start with a media line. -/
def StartsMedia (ls : List Text) : Prop :=
  ∀ l ∈ ls.head?, "m=".toList <+: l

/-- What `ConfigureMediaSection` does to the lines of a description. -/
inductive Configured (tag capability : Text) (attributes : List Text) :
    List Text → List Text → Prop
  | absent {ls : List Text} (hno : ∀ l ∈ ls, ¬ tag <:+: l) :
      Configured tag capability attributes ls ls
  | found {before body rest : List Text} {start line : Text}
      (hbefore : ∀ l ∈ before, ¬ tag <:+: l) (hbody : ∀ l ∈ body, ¬ "m=".toList <+: l)
      (hrest : StartsMedia rest) :
      Configured tag capability attributes (before ++ (start ++ (tag ++ line)) :: (body ++ rest))
        (before ++ (start ++ (tag ++ placeCapability capability line)) ::
          (body ++ (attributes ++ rest)))

variable {p tag capability line : Text} {ls ls' attributes : List Text}

/-- The first line in which a text occurs, if there is one. -/
theorem first_line_with (p : Text) (ls : List Text) :
    (∀ l ∈ ls, ¬ p <:+: l) ∨ ∃ before start line after,
      ls = before ++ (start ++ (p ++ line)) :: after ∧ (∀ l ∈ before, ¬ p <:+: l) ∧
        find p (start ++ (p ++ line)) = some start.length := by
  induction ls with
  | nil => exact Or.inl (List.forall_mem_nil _)
  | cons l ls ih =>
      cases hfind : find p l with
      | some i =>
          obtain ⟨line, hline⟩ := prefix_of_find hfind
          have hsplit : l = l.take i ++ (p ++ line) := by rw [hline, List.take_append_drop]
          have hlength : (l.take i).length = i := List.length_take_of_le (find_le_length hfind)
          refine Or.inr ⟨[], l.take i, line, ls, ?_, List.forall_mem_nil _, ?_⟩
          · rw [← hsplit, List.nil_append]
          · rw [← hsplit, hlength, hfind]
      | none =>
          have hfirst := find_eq_none_iff.mp hfind
          rcases ih with hno | ⟨before, start, line, after, rfl, hbefore, hstart⟩
          · exact Or.inl (List.forall_mem_cons.mpr ⟨hfirst, hno⟩)
          · exact Or.inr ⟨l :: before, start, line, after, rfl,
              List.forall_mem_cons.mpr ⟨hfirst, hbefore⟩, hstart⟩

/-- Lines up to the next media line. -/
theorem lines_of_section (ls : List Text) : ∃ body rest, ls = body ++ rest ∧
    (∀ l ∈ body, ¬ "m=".toList <+: l) ∧ StartsMedia rest := by
  induction ls with
  | nil => exact ⟨[], [], rfl, List.forall_mem_nil _, fun l hl => nomatch hl⟩
  | cons l ls ih =>
      by_cases hmedia : "m=".toList <+: l
      · refine ⟨[], l :: ls, rfl, List.forall_mem_nil _, fun m hm => ?_⟩
        rw [← Option.some.inj hm]
        exact hmedia
      · obtain ⟨body, rest, rfl, hbody, hrest⟩ := ih
        exact ⟨l :: body, rest, rfl, List.forall_mem_cons.mpr ⟨hmedia, hbody⟩, hrest⟩

/-- The text of such lines starts a section. -/
theorem StartsMedia.text (h : StartsMedia ls) : StartsSection (unlines ls) := by
  cases ls with
  | nil => exact Or.inl rfl
  | cons l ls =>
      refine Or.inr ?_
      rw [unlines_cons]
      exact (h l rfl).trans (List.prefix_append _ _)

/-- Configuring a section acts on the lines of a description. -/
theorem configured (kind : MediaKind) (hls : ∀ l ∈ ls, '\n' ∉ l) (hcapability : '\n' ∉ capability)
    (attributes : List Text) : ∃ ls',
      configureMediaSection (unlines ls) kind.tag capability (unlines attributes) = unlines ls' ∧
        Configured kind.tag capability attributes ls ls' := by
  rcases first_line_with kind.tag ls with hno | ⟨before, start, line, after, rfl, hbefore, hfirst⟩
  · have hne : kind.tag ≠ [] := by cases kind <;> decide
    have hfind := find_mark_none (tag_unbroken kind) hne hno
    refine ⟨ls, ?_, .absent hno⟩
    rw [configureMediaSection, hfind]
  obtain ⟨body, rest, rfl, hbody, hrest⟩ := lines_of_section after
  refine ⟨_, ?_, .found hbefore hbody hrest⟩
  have hline : '\n' ∉ line := fun hmem =>
    hls (start ++ (kind.tag ++ line)) (by simp) (by simp [hmem])
  have hunbroken : ∀ l ∈ body, '\n' ∉ l ∧ ¬ "m=".toList <+: l := fun l hl =>
    ⟨hls l (by simp [hl]), hbody l hl⟩
  have hsplit : unlines (before ++ (start ++ (kind.tag ++ line)) :: (body ++ rest)) =
      (unlines before ++ start) ++
        (kind.tag ++ (line ++ '\n' :: (unlines body ++ unlines rest))) := by
    simp only [unlines_append, unlines_cons, List.append_assoc]
  have hfind : find kind.tag ((unlines before ++ start) ++
      (kind.tag ++ (line ++ '\n' :: (unlines body ++ unlines rest)))) =
      some (unlines before ++ start).length := by
    have hlong : start ++ (kind.tag ++ (line ++ '\n' :: (unlines body ++ unlines rest))) =
        start ++ (kind.tag ++ line) ++ '\n' :: (unlines body ++ unlines rest) := by
      simp only [List.append_assoc]
    rw [List.append_assoc, find_skip_lines (tag_unbroken kind) hbefore, hlong,
      find_append_of_some hfirst, List.length_append, Nat.add_comm]
    rfl
  rw [hsplit, configure_found kind _ hfind hline hcapability hunbroken hrest.text]
  simp only [unlines_append, unlines_cons, List.append_assoc]

/-- What holds of every line, and of a line whose placeholder was replaced, holds afterwards. -/
theorem Configured.all {P : Text → Prop} (h : Configured tag capability attributes ls ls')
    (hplace : ∀ start line, P (start ++ (tag ++ line)) →
      P (start ++ (tag ++ placeCapability capability line)))
    (hls : ∀ l ∈ ls, P l) (hattributes : ∀ l ∈ attributes, P l) : ∀ l ∈ ls', P l := by
  cases h with
  | absent => exact hls
  | @found before body rest start line hbefore hbody hrest =>
      intro l hl
      simp only [List.mem_append, List.mem_cons] at hl
      rcases hl with hl | rfl | hl | hl | hl
      · exact hls l (by simp [hl])
      · exact hplace start line (hls _ (by simp))
      · exact hls l (by simp [hl])
      · exact hattributes l hl
      · exact hls l (by simp [hl])

/-- Replacing a placeholder does not change how a line starts, as far as the tag. -/
theorem prefix_placed (hp : ¬ tag <:+: p) (start line placed : Text)
    (h : p <+: start ++ (tag ++ line)) : p <+: start ++ (tag ++ placed) := by
  rw [← List.append_assoc] at h ⊢
  rcases Nat.le_total p.length (start ++ tag).length with hlen | hlen
  · exact (List.prefix_of_prefix_length_le h (List.prefix_append _ _) hlen).trans
      (List.prefix_append _ _)
  · have hstart := List.prefix_of_prefix_length_le (List.prefix_append _ _) h hlen
    exact absurd (((List.suffix_append start tag).isInfix).trans hstart.isInfix) hp

/-- A line that starts with one of some names. -/
def StartsWith (names : List Text) (l : Text) : Prop :=
  ∃ name ∈ names, name <+: l

instance (names : List Text) (l : Text) : Decidable (StartsWith names l) :=
  inferInstanceAs (Decidable (∃ name ∈ names, name <+: l))

theorem StartsWith.mono {names others : List Text} {l : Text} (h : StartsWith names l)
    (hsub : ∀ name ∈ names, name ∈ others) : StartsWith others l := by
  obtain ⟨name, hname, hcut⟩ := h
  exact ⟨name, hsub name hname, hcut⟩

/-- A line starts with one of several names when none of them begins another one. -/
theorem StartsWith.not_other {names others : List Text} {l : Text} (h : StartsWith names l)
    (hother : ∀ p ∈ others, ∀ name ∈ names, ¬ p <+: name ∧ ¬ name <+: p) :
    ¬ StartsWith others l := by
  obtain ⟨name, hname, rest, rfl⟩ := h
  rintro ⟨p, hp, hcut⟩
  exact not_prefix_append (hother p hp name hname).1 (hother p hp name hname).2 rest hcut

/-- Replacing a placeholder does not change what a line starts with. -/
theorem starts_with_placed {names : List Text} (hnames : ∀ name ∈ names, ¬ tag <:+: name)
    (start line placed : Text) (h : StartsWith names (start ++ (tag ++ line))) :
    StartsWith names (start ++ (tag ++ placed)) := by
  obtain ⟨name, hname, hcut⟩ := h
  exact ⟨name, hname, prefix_placed (hnames name hname) start line placed hcut⟩

/-- What lines start with, apart from the fingerprint and the extensions. -/
def lineNames : List Text :=
  ["m=".toList, "c=IN ".toList, "a=rtcp".toList, "a=ice-ufrag:".toList, "a=ice-pwd:".toList,
    "a=candidate:".toList, "a=extmap:".toList, "a=rtpmap:".toList, "a=fmtp:".toList,
    "a=ssrc".toList, "a=x-reliable-data:".toList]

/-- A line that starts with one of the names. -/
def IsNamed (l : Text) : Prop :=
  StartsWith lineNames l

/-- A name stays when a placeholder is replaced. -/
theorem named_placed (kind : MediaKind) (start line placed : Text)
    (h : IsNamed (start ++ (kind.tag ++ line))) : IsNamed (start ++ (kind.tag ++ placed)) :=
  starts_with_placed (by cases kind <;> decide) start line placed h

/-- A line with a name starts with nothing else. -/
theorem not_prefix_of_named {l : Text} (hp : ∀ name ∈ lineNames, ¬ p <+: name ∧ ¬ name <+: p)
    (h : IsNamed l) : ¬ p <+: l := by
  obtain ⟨name, hname, rest, rfl⟩ := h
  exact not_prefix_append (hp name hname).1 (hp name hname).2 rest

/-- A line without the tag stays. -/
theorem Configured.keeps (h : Configured tag capability attributes ls ls') {l : Text}
    (hl : l ∈ ls) (hno : ¬ tag <:+: l) : l ∈ ls' := by
  cases h with
  | absent => exact hl
  | @found before body rest start line hbefore hbody hrest =>
      simp only [List.mem_append, List.mem_cons] at hl ⊢
      rcases hl with hl | rfl | hl | hl
      · exact Or.inl hl
      · exact absurd ⟨start, line, by simp⟩ hno
      · exact Or.inr (Or.inr (Or.inl hl))
      · exact Or.inr (Or.inr (Or.inr (Or.inr hl)))

/-- Lines without the tag stay in front. -/
theorem Configured.behind {front : List Text}
    (h : Configured tag capability attributes (front ++ ls) ls')
    (hfront : ∀ l ∈ front, ¬ tag <:+: l) :
    ∃ more, ls' = front ++ more ∧ Configured tag capability attributes ls more := by
  generalize hwhole : front ++ ls = whole at h
  cases h with
  | absent hno =>
      subst hwhole
      exact ⟨ls, rfl, .absent fun l hl => hno l (List.mem_append_right _ hl)⟩
  | @found first body rest start line hfirst hbody hrest =>
      -- The line that was found does not lie in front.
      obtain ⟨between, rfl, rfl⟩ : ∃ between, first = front ++ between ∧
          ls = between ++ (start ++ (tag ++ line)) :: (body ++ rest) := by
        rcases List.append_eq_append_iff.mp hwhole with
          ⟨between, hfirstEq, hls⟩ | ⟨between, hfrontEq, hls⟩
        · exact ⟨between, hfirstEq, hls⟩
        · cases between with
          | nil => exact ⟨[], by simpa using hfrontEq.symm, by simpa using hls.symm⟩
          | cons m between =>
              obtain ⟨rfl, -⟩ := List.cons.inj hls
              exact absurd ⟨start, line, by simp⟩
                (hfront (start ++ (tag ++ line)) (by simp [hfrontEq]))
      exact ⟨_, List.append_assoc _ _ _,
        .found (fun l hl => hfirst l (List.mem_append_right _ hl)) hbody hrest⟩

/-! ## Where the description opens -/

/-- The lines start with the front of the description. Lines with a property follow, up to one in
which another section seems to start. -/
def OpensWith (P : Text → Prop) (front ls : List Text) : Prop :=
  ∃ before l after, ls = front ++ (before ++ l :: after) ∧
    (∃ kind : MediaKind, kind ≠ .video ∧ kind.tag <:+: l) ∧ (∀ m ∈ before, P m) ∧ P l

/-- Configuring a section does not change how the description opens. -/
theorem Configured.opensWith {P : Text → Prop} {kind : MediaKind} {front : List Text}
    (h : Configured kind.tag capability attributes ls ls') (hkind : kind ≠ .video)
    (hfront : ∀ l ∈ front, ¬ kind.tag <:+: l)
    (hplace : ∀ start line, P (start ++ (kind.tag ++ line)) →
      P (start ++ (kind.tag ++ placeCapability capability line)))
    (hopens : OpensWith P front ls) : OpensWith P front ls' := by
  obtain ⟨before, l, after, rfl, htag, hbefore, hl⟩ := hopens
  obtain ⟨more, rfl, hmore⟩ := h.behind hfront
  generalize hwhole : before ++ l :: after = whole at hmore
  cases hmore with
  | absent =>
      subst hwhole
      exact ⟨before, l, after, rfl, htag, hbefore, hl⟩
  | @found first body rest start line hfirst hbody hstarts =>
      have hin : ∀ line, kind.tag <:+: start ++ (kind.tag ++ line) := fun line =>
        ⟨start, line, by simp⟩
      have hsame : ∀ {first' : List Text}, before = first' →
          l = start ++ (kind.tag ++ line) → OpensWith P front (front ++ (first' ++
            (start ++ (kind.tag ++ placeCapability capability line)) ::
              (body ++ (attributes ++ rest)))) := by
        rintro first' rfl rfl
        exact ⟨before, _, _, rfl, ⟨kind, hkind, hin _⟩, hbefore, hplace _ _ hl⟩
      rcases List.append_eq_append_iff.mp hwhole with
        ⟨more, hsplit, hmore⟩ | ⟨more, hsplit, hmore⟩
      · cases more with
        | nil => exact hsame (by simpa using hsplit.symm) (List.cons.inj hmore).1
        | cons m more =>
            obtain ⟨rfl, -⟩ := List.cons.inj hmore
            refine ⟨before, l, more ++ (start ++ (kind.tag ++ placeCapability capability line)) ::
              (body ++ (attributes ++ rest)), ?_, htag, hbefore, hl⟩
            rw [hsplit]
            simp only [List.append_assoc, List.cons_append]
      · cases more with
        | nil => exact hsame (by simpa using hsplit) (List.cons.inj hmore).1.symm
        | cons m more =>
            obtain ⟨rfl, -⟩ := List.cons.inj hmore
            refine ⟨first, _, _, rfl, ⟨kind, hkind, hin _⟩, fun m hm => hbefore m ?_,
              hplace _ _ (hbefore _ ?_)⟩
            · simp [hsplit, hm]
            · simp [hsplit]

/-! ## The first section -/

/-- Lines are split at the next media line in one way. -/
theorem media_split_unique {a b c d : List Text} (h : a ++ b = c ++ d)
    (ha : ∀ l ∈ a, ¬ "m=".toList <+: l) (hc : ∀ l ∈ c, ¬ "m=".toList <+: l)
    (hb : StartsMedia b) (hd : StartsMedia d) : a = c ∧ b = d := by
  rcases List.append_eq_append_iff.mp h with ⟨more, rfl, rfl⟩ | ⟨more, rfl, rfl⟩
  · cases more with
    | nil => simp
    | cons m more => exact absurd (hb m rfl) (hc m (by simp))
  · cases more with
    | nil => simp
    | cons m more => exact absurd (hd m rfl) (ha m (by simp))

/-- The lines start with a section that another one follows: its media line and its lines, among
which those with the given names are known. -/
def FirstSection (names : List Text) (header : Text) (known ls : List Text) : Prop :=
  ∃ body rest, ls = header :: (body ++ rest) ∧ (∀ l ∈ body, ¬ "m=".toList <+: l ∧ IsNamed l) ∧
    body.filter (StartsWith names ·) = known ∧ StartsMedia rest ∧ rest ≠ []

/-- Configuring another section adds no lines with the given names to the first one. -/
theorem Configured.firstSection {kind : MediaKind} {names : List Text} {header : Text}
    {known : List Text} (h : Configured kind.tag capability attributes ls ls')
    (hheader : ¬ kind.tag <:+: header) (hknown : ∀ l ∈ known, ¬ kind.tag <:+: l)
    (hnames : ∀ name ∈ names, ¬ kind.tag <:+: name)
    (hattributes : ∀ l ∈ attributes, ¬ "m=".toList <+: l ∧ IsNamed l ∧ ¬ StartsWith names l)
    (hsection : FirstSection names header known ls) : FirstSection names header known ls' := by
  cases h with
  | absent => exact hsection
  | @found first after last start line hfirst hafter hlast =>
      obtain ⟨body, rest, heq, hbody, hfilter, hrest, hne⟩ := hsection
      have hmark : ¬ kind.tag <:+: "m=".toList := by cases kind <;> decide
      have htag : ∀ line, kind.tag <:+: start ++ (kind.tag ++ line) := fun line =>
        ⟨start, line, by simp⟩
      cases first with
      | nil =>
          obtain ⟨rfl, -⟩ := List.cons.inj heq
          exact absurd (htag line) hheader
      | cons l first =>
          obtain ⟨rfl, hrestEq⟩ := List.cons.inj heq
          -- A tag in a later section leaves this one alone.
          have hlater : ∀ more, first = body ++ more →
              rest = more ++ (start ++ (kind.tag ++ line)) :: (after ++ last) →
              FirstSection names l known (l :: first ++
                (start ++ (kind.tag ++ placeCapability capability line)) ::
                  (after ++ (attributes ++ last))) := by
            rintro more rfl rfl
            refine ⟨body, more ++ (start ++ (kind.tag ++ placeCapability capability line)) ::
              (after ++ (attributes ++ last)), ?_, hbody, hfilter, ?_, by simp⟩
            · simp only [List.append_assoc, List.cons_append]
            · cases more with
              | nil =>
                  intro m hm
                  rw [← Option.some.inj hm]
                  exact prefix_placed hmark start line _ (hrest _ rfl)
              | cons m more => exact hrest
          rcases List.append_eq_append_iff.mp hrestEq with
            ⟨more, hsplit, hmore⟩ | ⟨more, hsplit, hmore⟩
          · cases more with
            | nil => exact hlater [] (by simpa using hsplit.symm) (by simpa using hmore.symm)
            | cons m more =>
                obtain ⟨rfl, hcut⟩ := List.cons.inj hmore
                obtain ⟨rfl, rfl⟩ := media_split_unique hcut hafter
                  (fun m hm => (hbody m (by simp [hsplit, hm])).1) hlast hrest
                obtain ⟨hstart, hstartNamed⟩ :=
                  hbody (start ++ (kind.tag ++ line)) (by simp [hsplit])
                -- A line with the tag has none of the names.
                have hplain : ¬ StartsWith names (start ++ (kind.tag ++ line)) := fun hwith =>
                  hknown _ (hfilter ▸ List.mem_filter.mpr ⟨by simp [hsplit], by simpa using hwith⟩)
                    (htag line)
                have hplaced : ¬ StartsWith names
                    (start ++ (kind.tag ++ placeCapability capability line)) := fun hwith =>
                  hplain (starts_with_placed hnames start _ line hwith)
                refine ⟨first ++ (start ++ (kind.tag ++ placeCapability capability line)) ::
                  (after ++ attributes), last, ?_, ?_, ?_, hrest, hne⟩
                · simp only [List.append_assoc, List.cons_append]
                · intro m hm
                  simp only [List.mem_append, List.mem_cons] at hm
                  rcases hm with hm | rfl | hm | hm
                  · exact hbody m (by simp [hsplit, hm])
                  · exact ⟨fun hmedia => hstart (prefix_placed hmark start _ line hmedia),
                      named_placed kind start line _ hstartNamed⟩
                  · exact hbody m (by simp [hsplit, hm])
                  · exact ⟨(hattributes m hm).1, (hattributes m hm).2.1⟩
                · have hnone : attributes.filter (StartsWith names ·) = [] :=
                    List.filter_eq_nil_iff.mpr fun m hm => by simpa using (hattributes m hm).2.2
                  rw [← hfilter, hsplit, List.filter_append, List.filter_append,
                    List.filter_cons_of_neg (by simpa using hplaced),
                    List.filter_cons_of_neg (by simpa using hplain), List.filter_append, hnone,
                    List.append_nil]
          · exact hlater more hsplit hmore

/-! ## The lines of the local description -/

/-- The lines of a section whose placeholder is still there. -/
def Section.lines (s : Section) (kind : MediaKind) : List Text :=
  (mediaHeader kind.tag s.port ++ "ICE/SDP".toList) :: s.body

theorem section_text_eq (s : Section) (kind : MediaKind) :
    s.text kind = unlines (s.lines kind) := by
  rw [Section.text, Section.lines, unlines_cons, List.append_assoc]

variable (base : BaseDescription) (plan : SessionPlan) (streams : LocalStreams)

/-- The lines before the audio section is configured. -/
def videoConfigured : List Text :=
  base.session ++ videoSection base plan streams ++
    (base.audio.lines .audio ++ base.data.lines .data)

/-- The lines that are added to the audio section. -/
def audioAdded : List Text :=
  plan.audio.extra ++ streams.audio.flatMap audioLines

/-- The lines that are added to the data section. -/
def dataAdded : List Text :=
  plan.data.extra ++ streams.data.flatMap dataLines

variable {base plan streams}

/-- The lines before a section is configured are unbroken. -/
theorem section_lines_unbroken {s : Section} {kind : MediaKind}
    (hbody : ∀ l ∈ s.body, IsBodyLine l) : ∀ l ∈ s.lines kind, '\n' ∉ l := by
  intro l hl
  rcases List.mem_cons.mp hl with rfl | hl
  · simp only [List.mem_append, not_or]
    exact ⟨header_unbroken _ _, by decide⟩
  · exact (hbody l hl).unbroken

theorem video_configured_unbroken : ∀ l ∈ videoConfigured base plan streams, '\n' ∉ l := by
  intro l hl
  simp only [videoConfigured, List.mem_append] at hl
  rcases hl with (hl | hl) | hl | hl
  · exact (base.sessionLines l hl).1.unbroken
  · exact video_section_unbroken l hl
  · exact section_lines_unbroken base.audioLines l hl
  · exact section_lines_unbroken base.dataLines l hl

/-- A line stays unbroken when its placeholder is replaced. -/
theorem placed_unbroken (hcapability : '\n' ∉ capability) (start line : Text)
    (h : '\n' ∉ start ++ (tag ++ line)) :
    '\n' ∉ start ++ (tag ++ placeCapability capability line) := by
  simp only [List.mem_append, not_or] at h ⊢
  exact ⟨h.1, h.2.1, place_unbroken hcapability h.2.2⟩

theorem audio_added_unbroken : ∀ l ∈ audioAdded plan streams, '\n' ∉ l := by
  intro l hl
  rcases List.mem_append.mp hl with hl | hl
  · exact (plan.audio.extraLines l hl).1.unbroken
  · obtain ⟨a, ha, hla⟩ := List.mem_flatMap.mp hl
    obtain rfl := List.mem_singleton.mp hla
    exact (ssrc_line_unbroken (streams.audioIds.1 a ha) _).1

theorem data_added_unbroken : ∀ l ∈ dataAdded plan streams, '\n' ∉ l := by
  intro l hl
  rcases List.mem_append.mp hl with hl | hl
  · exact (plan.data.extraLines l hl).1.unbroken
  · obtain ⟨d, hd, hld⟩ := List.mem_flatMap.mp hl
    simp only [dataLines, List.mem_cons, List.not_mem_nil, or_false] at hld
    rcases hld with rfl | rfl
    · exact (ssrc_line_unbroken (streams.dataIds.1 d hd) _).1
    · exact reliable_line_unbroken _ _

/-- The local description, whatever the ids of the streams are. -/
theorem local_description_lines (base : BaseDescription) (plan : SessionPlan)
    (streams : LocalStreams) : ∃ ls ls',
      Configured MediaKind.audio.tag plan.audio.capability (audioAdded plan streams)
        (videoConfigured base plan streams) ls ∧
      Configured MediaKind.data.tag plan.data.capability (dataAdded plan streams) ls ls' ∧
      localDescription base plan streams = unlines ls' ∧ ∀ l ∈ ls', '\n' ∉ l := by
  have hvideo : configureMediaSection base.text MediaKind.video.tag plan.video.capability
      (appendVideoAttributes plan.includeVideoRtx streams.video (unlines plan.video.extra)) =
      unlines (videoConfigured base plan streams) := by
    rw [configure_video, videoConfigured, section_text_eq, section_text_eq]
    simp only [unlines_append, List.append_assoc]
  have hconfigured : ∀ l ∈ videoConfigured base plan streams, '\n' ∉ l :=
    video_configured_unbroken
  obtain ⟨ls, hls, haudio⟩ := configured .audio hconfigured
    plan.audio.plainCapability.1 (audioAdded plan streams)
  have hunbroken : ∀ l ∈ ls, '\n' ∉ l := haudio.all
    (placed_unbroken plan.audio.plainCapability.1) hconfigured audio_added_unbroken
  obtain ⟨ls', hls', hdata⟩ := configured .data hunbroken plan.data.plainCapability.1
    (dataAdded plan streams)
  refine ⟨ls, ls', haudio, hdata, ?_,
    hdata.all (placed_unbroken plan.data.plainCapability.1) hunbroken data_added_unbroken⟩
  rw [localDescription, hvideo, append_audio_attributes, append_data_attributes, ← unlines_append,
    ← unlines_append]
  rw [audioAdded] at hls
  rw [dataAdded] at hls'
  rw [hls, hls']

end IceTransport

end MiniRtc

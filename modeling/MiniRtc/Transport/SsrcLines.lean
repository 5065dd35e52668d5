import MiniRtc.Foundation.OrderedMap
import MiniRtc.Transport.PayloadNegotiation

/-!
# SSRC lines

The attribute lines that announce the streams of a sender (`AppendLocalSenderSsrcAttributes` and
`rtx_ssrc_mapping.h`), and `ParseSsrcFromSdpAndRemove`, which reads them again. The parser looks
at one line at a time: `classify` says what it takes from a line, and the lines that it does not
use stay in the section.
-/

namespace MiniRtc

open Text

/-- A synchronization source. -/
abbrev Ssrc := BitVec 32

/-- A video stream that is sent, with the SSRC of its retransmissions. -/
structure VideoSender where
  id : Text
  ssrc : Ssrc
  rtxSsrc : Ssrc

/-- An audio stream that is sent. -/
structure AudioSender where
  id : Text
  ssrc : Ssrc

/-- A data stream that is sent. -/
structure DataSender where
  id : Text
  ssrc : Ssrc
  reliable : Bool

/-- A stream id is a non-empty text without line breaks. -/
def IsStreamId (id : Text) : Prop :=
  id ≠ [] ∧ '\n' ∉ id ∧ '\r' ∉ id

instance (id : Text) : Decidable (IsStreamId id) :=
  inferInstanceAs (Decidable (id ≠ [] ∧ '\n' ∉ id ∧ '\r' ∉ id))

/-- The streams of a sender. Every SSRC is used once and none is zero. -/
structure LocalStreams where
  video : List VideoSender
  audio : List AudioSender
  data : List DataSender
  videoIds : (∀ v ∈ video, IsStreamId v.id) ∧ (video.map (·.id)).Nodup
  audioIds : (∀ a ∈ audio, IsStreamId a.id) ∧ (audio.map (·.id)).Nodup
  dataIds : (∀ d ∈ data, IsStreamId d.id) ∧ (data.map (·.id)).Nodup
  distinct : (video.map (·.ssrc) ++ video.map (·.rtxSsrc) ++ audio.map (·.ssrc) ++
    data.map (·.ssrc)).Nodup
  nonzero : 0 ∉ video.map (·.ssrc) ++ video.map (·.rtxSsrc) ++ audio.map (·.ssrc) ++
    data.map (·.ssrc)

namespace IceTransport

/-! ## Writing the lines -/

/-- The line that names the stream of an SSRC. -/
def nameLine (ssrc : Ssrc) (id : Text) : Text :=
  "a=ssrc:".toList ++ decimal ssrc.toNat ++ " name:".toList ++ id

/-- The line that groups a media SSRC with its retransmission SSRC. -/
def groupLine (mediaSsrc rtxSsrc : Ssrc) : Text :=
  "a=ssrc-group:FID ".toList ++ decimal mediaSsrc.toNat ++ " ".toList ++ decimal rtxSsrc.toNat

/-- The line that ties a retransmission SSRC to its stream. -/
def cnameLine (ssrc : Ssrc) (id : Text) : Text :=
  "a=ssrc:".toList ++ decimal ssrc.toNat ++ " cname:".toList ++ id

/-- The line that says whether a data stream is reliable. -/
def reliableLine (ssrc : Ssrc) (reliable : Bool) : Text :=
  "a=x-reliable-data:".toList ++ decimal ssrc.toNat ++ " ".toList ++
    (if reliable then "1" else "0").toList

/-- `BuildRtxSsrcAttributes`. -/
def buildRtxSsrcAttributes (id : Text) (mediaSsrc rtxSsrc : Ssrc) : Text :=
  if mediaSsrc = 0 ∨ rtxSsrc = 0 ∨ mediaSsrc = rtxSsrc then nameLine mediaSsrc id ++ ['\n']
  else nameLine mediaSsrc id ++ ['\n'] ++ (groupLine mediaSsrc rtxSsrc ++ ['\n']) ++
    (cnameLine rtxSsrc id ++ ['\n'])

/-- `AppendLocalSenderSsrcAttributes` for the video section. -/
def appendVideoAttributes (includeVideoRtx : Bool) (video : List VideoSender)
    (attributes : Text) : Text :=
  video.foldl (fun attributes v =>
    if includeVideoRtx then attributes ++ buildRtxSsrcAttributes v.id v.ssrc v.rtxSsrc
    else attributes ++ (nameLine v.ssrc v.id ++ ['\n'])) attributes

/-- `AppendLocalSenderSsrcAttributes` for the audio section. -/
def appendAudioAttributes (audio : List AudioSender) (attributes : Text) : Text :=
  audio.foldl (fun attributes a => attributes ++ (nameLine a.ssrc a.id ++ ['\n'])) attributes

/-- `AppendLocalSenderSsrcAttributes` for the data section. -/
def appendDataAttributes (data : List DataSender) (attributes : Text) : Text :=
  data.foldl (fun attributes d =>
    attributes ++ (nameLine d.ssrc d.id ++ ['\n']) ++
      (reliableLine d.ssrc d.reliable ++ ['\n'])) attributes

/-! ## Reading the lines -/

/-- `stream >> word`: the next word and what follows it. -/
def readWord (s : Text) : Option (Text × Text) :=
  let start := s.dropWhile isSpace
  let word := start.takeWhile fun c => !isSpace c
  if word = [] then none else some (word, start.drop word.length)

/-- The text behind a sign. -/
def skipSign : Text → Text
  | '-' :: rest => rest
  | '+' :: rest => rest
  | rest => rest

/-- `stream >> number` for a `uint32_t`. A minus sign is accepted and wraps around. -/
def readUint32 (s : Text) : Option (Ssrc × Text) :=
  let start := s.dropWhile isSpace
  let digits := (skipSign start).takeWhile Char.isDigit
  let value := Nat.ofDigitChars 10 digits 0
  if digits = [] ∨ 2 ^ 32 ≤ value then none
  else
    some (if start.head? = some '-' then -BitVec.ofNat 32 value else BitVec.ofNat 32 value,
      (skipSign start).drop digits.length)

/-- `ParseRtxSsrcGroup`. -/
def parseRtxSsrcGroup (line : Text) : Option (Ssrc × Ssrc) :=
  if "a=ssrc-group:".toList <+: line then do
    let (semantics, rest) ← readWord (line.drop "a=ssrc-group:".length)
    let (mediaSsrc, rest) ← readUint32 rest
    let (rtxSsrc, _) ← readUint32 rest
    if semantics ≠ "FID".toList ∨ mediaSsrc = 0 ∨ rtxSsrc = 0 ∨ mediaSsrc = rtxSsrc then none
    else some (mediaSsrc, rtxSsrc)
  else none

/-- What the parser takes from a line. -/
inductive SsrcLine where
  | group (mediaSsrc rtxSsrc : Ssrc)
  | name (ssrc : Ssrc) (id : Text)
  | reliable (ssrc : Ssrc) (flag : Bool)
  | dropped
  | kept
deriving DecidableEq

/-- The text without a carriage return at its end. -/
def popCarriageReturn (s : Text) : Text :=
  if s.getLast? = some '\r' then s.dropLast else s

/-- The branches of the loop in `ParseSsrcFromSdpAndRemove`. -/
def classify (kind : MediaKind) (line : Text) : SsrcLine :=
  if "a=ssrc-group:".toList <+: line ∧ kind = .video then
    match parseRtxSsrcGroup line with
    | some (mediaSsrc, rtxSsrc) => .group mediaSsrc rtxSsrc
    | none => .dropped
  else if "a=ssrc:".toList <+: line then
    match findFrom [' '] line "a=ssrc:".length with
    | none => .dropped
    | some space =>
        match parseUint32 ((line.drop "a=ssrc:".length).take (space - "a=ssrc:".length)) with
        | none => .dropped
        | some ssrc =>
            let field := line.drop (space + 1)
            if "name:".toList <+: field then
              .name ssrc (popCarriageReturn (field.drop "name:".length))
            else .dropped
  else if "a=x-reliable-data:".toList <+: line ∧ kind = .data then
    match findFrom [' '] line "a=x-reliable-data:".length with
    | none => .dropped
    | some space =>
        match parseUint32 ((line.drop "a=x-reliable-data:".length).take
          (space - "a=x-reliable-data:".length)) with
        | none => .dropped
        | some ssrc => .reliable ssrc (trim (line.drop (space + 1)) = "1".toList)
  else .kept

/-- `std::map<uint32_t, T>`. -/
abbrev SsrcMap (α : Type) := List (Ssrc × α)

/-- `map[ssrc] = value`. -/
def SsrcMap.assign {α : Type} (m : SsrcMap α) (ssrc : Ssrc) (value : α) : SsrcMap α :=
  OrderedMap.insertOrAssign BitVec.ult Prod.fst (ssrc, value) m

/-- The value that `map.find(ssrc)` finds. -/
def SsrcMap.get {α : Type} (m : SsrcMap α) (ssrc : Ssrc) : Option α :=
  (OrderedMap.find? BitVec.ult Prod.fst ssrc m).map Prod.snd

/-- The maps that the parser fills, and the lines that stay. -/
structure SsrcTables where
  names : SsrcMap Text := []
  reliable : SsrcMap Bool := []
  rtx : SsrcMap Ssrc := []
  kept : List Text := []

/-- The effect of a line. -/
def SsrcTables.add (t : SsrcTables) : SsrcLine → Text → SsrcTables
  | .group mediaSsrc rtxSsrc, _ => { t with rtx := t.rtx.assign mediaSsrc rtxSsrc }
  | .name ssrc id, _ => { t with names := t.names.assign ssrc id }
  | .reliable ssrc flag, _ => { t with reliable := t.reliable.assign ssrc flag }
  | .dropped, _ => t
  | .kept, line => { t with kept := t.kept ++ [line] }

/-- The loop over the lines of a section. -/
def readTables (kind : MediaKind) (ls : List Text) : SsrcTables :=
  ls.foldl (fun t line => t.add (classify kind line) line) {}

/-- `std::map<std::string, T>`, of which only the entries matter here. -/
abbrev IdMap (α : Type) := Text → Option α

/-- A loop over a map that assigns to the ids that its entries yield. -/
def fillIds {α β : Type} (id : Ssrc × α → Option Text) (value : Ssrc × α → β) (m : SsrcMap α)
    (ids : IdMap β) : IdMap β :=
  m.foldl (fun ids entry =>
    match id entry with
    | some id => Function.update ids id (some (value entry))
    | none => ids) ids

/-- The stream of an entry: retransmission SSRCs and empty ids are passed over. -/
def SsrcTables.streamOf (t : SsrcTables) (kind : MediaKind) (entry : Ssrc × Text) : Option Text :=
  if (kind = .video ∧ entry.1 ∈ t.rtx.map Prod.snd) ∨ entry.2 = [] then none else some entry.2

/-- The map from stream ids to SSRCs that a section yields. -/
def SsrcTables.streams (t : SsrcTables) (kind : MediaKind) : IdMap Ssrc :=
  fillIds (t.streamOf kind) Prod.fst t.names fun _ => none

/-- The map from stream ids to retransmission SSRCs. -/
def SsrcTables.rtxStreams (t : SsrcTables) : IdMap Ssrc :=
  fillIds (fun entry => (t.names.get entry.1).filter (· ≠ [])) Prod.snd t.rtx fun _ => none

/-- The reliability flags of the data streams. -/
def SsrcTables.reliability (t : SsrcTables) (previous : IdMap Bool) : IdMap Bool :=
  fillIds (fun entry => t.names.get entry.1) Prod.snd t.reliable previous

/-- The section without the lines that were read. -/
def SsrcTables.block (t : SsrcTables) : Text :=
  unlines t.kept

/-! ## Each line is read as it was written -/

variable {id : Text} {ssrc mediaSsrc rtxSsrc : Ssrc}

/-- The number behind a prefix ends at the next blank. -/
theorem find_blank_behind (p rest : Text) (n : Nat) :
    findFrom [' '] (p ++ (decimal n ++ ' ' :: rest)) p.length =
      some ((decimal n).length + p.length) := by
  rw [find_from_of_le (by simp), List.drop_left, find_char (not_mem_decimal rfl n)]
  rfl

/-- The number between a prefix and a blank. -/
theorem number_behind (p rest : Text) (n : Ssrc) :
    parseUint32 (((p ++ (decimal n.toNat ++ ' ' :: rest)).drop p.length).take
      ((decimal n.toNat).length + p.length - p.length)) = some n := by
  rw [List.drop_left, Nat.add_sub_cancel, List.take_left, parse_uint32_decimal]

/-- What follows the blank behind a number. -/
theorem drop_behind (p rest : Text) (n : Nat) :
    (p ++ (decimal n ++ ' ' :: rest)).drop ((decimal n).length + p.length + 1) = rest := by
  rw [show (decimal n).length + p.length + 1 = p.length + ((decimal n).length + 1) by omega,
    List.drop_length_add_append, List.drop_length_add_append]
  rfl

theorem name_line_eq (ssrc : Ssrc) (id : Text) :
    nameLine ssrc id =
      "a=ssrc:".toList ++ (decimal ssrc.toNat ++ ' ' :: ("name:".toList ++ id)) := by
  have hblank : " name:".toList = ' ' :: "name:".toList := rfl
  unfold nameLine
  rw [hblank, List.append_assoc, List.append_assoc, List.cons_append]

theorem cname_line_eq (ssrc : Ssrc) (id : Text) :
    cnameLine ssrc id =
      "a=ssrc:".toList ++ (decimal ssrc.toNat ++ ' ' :: ("cname:".toList ++ id)) := by
  have hblank : " cname:".toList = ' ' :: "cname:".toList := rfl
  unfold cnameLine
  rw [hblank, List.append_assoc, List.append_assoc, List.cons_append]

theorem reliable_line_eq (ssrc : Ssrc) (reliable : Bool) :
    reliableLine ssrc reliable =
      "a=x-reliable-data:".toList ++
        (decimal ssrc.toNat ++ ' ' :: (if reliable then "1" else "0").toList) := by
  have hblank : " ".toList = [' '] := rfl
  unfold reliableLine
  rw [hblank, List.append_assoc, List.append_assoc, List.singleton_append]

theorem group_line_eq (mediaSsrc rtxSsrc : Ssrc) :
    groupLine mediaSsrc rtxSsrc =
      "a=ssrc-group:".toList ++
        ("FID".toList ++ ' ' :: (decimal mediaSsrc.toNat ++ ' ' :: decimal rtxSsrc.toNat)) := by
  have hstart : "a=ssrc-group:FID ".toList =
      "a=ssrc-group:".toList ++ ("FID".toList ++ [' ']) := rfl
  have hblank : " ".toList = [' '] := rfl
  unfold groupLine
  rw [hstart, hblank]
  simp only [List.append_assoc, List.cons_append, List.nil_append]

/-- A line about one SSRC is read up to what follows its number. -/
theorem classify_ssrc_line (kind : MediaKind) (ssrc : Ssrc) (field : Text) :
    classify kind ("a=ssrc:".toList ++ (decimal ssrc.toNat ++ ' ' :: field)) =
      if "name:".toList <+: field then
        .name ssrc (popCarriageReturn (field.drop "name:".length))
      else .dropped := by
  have hgroup : ¬ "a=ssrc-group:".toList <+:
      "a=ssrc:".toList ++ (decimal ssrc.toNat ++ ' ' :: field) := by simp
  have hblank := find_blank_behind "a=ssrc:".toList field ssrc.toNat
  have hnumber := number_behind "a=ssrc:".toList field ssrc
  have hfield := drop_behind "a=ssrc:".toList field ssrc.toNat
  have hlength : "a=ssrc:".length = "a=ssrc:".toList.length := rfl
  rw [classify, if_neg fun h => hgroup h.1, if_pos (List.prefix_append _ _), hlength]
  simp only [hblank, hnumber, hfield]

/-- A line that names a stream. -/
theorem classify_name_line (kind : MediaKind) (ssrc : Ssrc) (h : '\r' ∉ id) :
    classify kind (nameLine ssrc id) = .name ssrc id := by
  have hend : id.getLast? ≠ some '\r' := fun hlast => h (List.mem_of_getLast? hlast)
  have hdrop : ("name:".toList ++ id).drop "name:".length = id := List.drop_left
  rw [name_line_eq, classify_ssrc_line, if_pos (List.prefix_append _ _), hdrop,
    popCarriageReturn, if_neg hend]

/-- The stream of a retransmission SSRC is not read. -/
theorem classify_cname_line (kind : MediaKind) (ssrc : Ssrc) (id : Text) :
    classify kind (cnameLine ssrc id) = .dropped := by
  rw [cname_line_eq, classify_ssrc_line, if_neg (by simp)]

/-- A line that says whether a data stream is reliable. -/
theorem classify_reliable_line (ssrc : Ssrc) (reliable : Bool) :
    classify .data (reliableLine ssrc reliable) = .reliable ssrc reliable := by
  have hgroup : ¬ "a=ssrc-group:".toList <+: reliableLine ssrc reliable := by
    rw [reliable_line_eq]
    simp
  have hssrc : ¬ "a=ssrc:".toList <+: reliableLine ssrc reliable := by
    rw [reliable_line_eq]
    simp
  have hreliable : "a=x-reliable-data:".toList <+: reliableLine ssrc reliable := by
    rw [reliable_line_eq]
    exact List.prefix_append _ _
  have hblank := find_blank_behind "a=x-reliable-data:".toList
    (if reliable then "1" else "0").toList ssrc.toNat
  have hnumber := number_behind "a=x-reliable-data:".toList
    (if reliable then "1" else "0").toList ssrc
  have hfield := drop_behind "a=x-reliable-data:".toList
    (if reliable then "1" else "0").toList ssrc.toNat
  have hlength : "a=x-reliable-data:".length = "a=x-reliable-data:".toList.length := rfl
  have hflag : decide (trim (if reliable then "1" else "0").toList = "1".toList) = reliable := by
    cases reliable <;> decide
  rw [classify, if_neg fun h => hgroup h.1, if_neg hssrc, if_pos ⟨hreliable, rfl⟩, hlength,
    reliable_line_eq]
  simp only [hblank, hnumber, hfield, hflag]

/-- Other sections leave the reliability of data streams alone. -/
theorem classify_reliable_line_kept {kind : MediaKind} (hkind : kind ≠ .data) (ssrc : Ssrc)
    (reliable : Bool) : classify kind (reliableLine ssrc reliable) = .kept := by
  have hgroup : ¬ "a=ssrc-group:".toList <+: reliableLine ssrc reliable := by
    rw [reliable_line_eq]
    simp
  have hssrc : ¬ "a=ssrc:".toList <+: reliableLine ssrc reliable := by
    rw [reliable_line_eq]
    simp
  rw [classify, if_neg fun h => hgroup h.1, if_neg hssrc, if_neg fun h => hkind h.2]

/-- A number is read from a stream as it was written. -/
theorem read_uint32_decimal (n : Ssrc) {rest : Text} (hrest : ∀ c ∈ rest.head?, isSpace c) :
    readUint32 (' ' :: (decimal n.toNat ++ rest)) = some (n, rest) := by
  have hdigits : ∀ c ∈ decimal n.toNat, c.isDigit = true := fun c hc => isDigit_of_mem_decimal hc
  obtain ⟨d, ds, hd⟩ := List.exists_cons_of_ne_nil (decimal_ne_nil n.toNat)
  have hdigit : d.isDigit = true := hdigits d (by rw [hd]; exact List.mem_cons_self)
  have hspace : isSpace d = false := by
    by_contra hblank
    rw [isDigit_of_isSpace (by simpa using hblank)] at hdigit
    cases hdigit
  have hminus : d ≠ '-' := fun h => by subst h; cases hdigit
  have hplus : d ≠ '+' := fun h => by subst h; cases hdigit
  have hstart : (' ' :: (decimal n.toNat ++ rest)).dropWhile isSpace = decimal n.toNat ++ rest := by
    rw [List.dropWhile_cons_of_pos rfl, hd, List.cons_append,
      List.dropWhile_cons_of_neg (by simp [hspace])]
  have htake : (decimal n.toNat ++ rest).takeWhile Char.isDigit = decimal n.toNat := by
    rw [List.takeWhile_append_of_pos hdigits]
    cases rest with
    | nil => simp
    | cons c rest =>
        rw [List.takeWhile_cons_of_neg, List.append_nil]
        rw [isDigit_of_isSpace (hrest c rfl)]
        simp
  have hunsigned : skipSign (decimal n.toNat ++ rest) = decimal n.toNat ++ rest := by
    rw [hd, List.cons_append]
    unfold skipSign
    split
    · next heq => exact absurd (List.cons.inj heq).1 hminus
    · next heq => exact absurd (List.cons.inj heq).1 hplus
    · rfl
  have hhead : (decimal n.toNat ++ rest).head? ≠ some '-' := by
    rw [hd]
    simpa using hminus
  have hvalue : Nat.ofDigitChars 10 (decimal n.toNat) 0 = n.toNat :=
    Nat.ofDigitChars_ten_toDigits
  have hfits : ¬ (decimal n.toNat = [] ∨ 2 ^ 32 ≤ n.toNat) := by
    have hlt := n.isLt
    rw [hd]
    simp only [reduceCtorEq, false_or]
    omega
  unfold readUint32
  simp only [hstart, hunsigned, htake, hvalue, if_neg hfits, if_neg hhead, List.drop_left]
  simp

/-- A line that groups a media SSRC with its retransmission SSRC. -/
theorem classify_group_line (hmedia : mediaSsrc ≠ 0) (hrtx : rtxSsrc ≠ 0)
    (hne : mediaSsrc ≠ rtxSsrc) :
    classify .video (groupLine mediaSsrc rtxSsrc) = .group mediaSsrc rtxSsrc := by
  have hstart : "a=ssrc-group:".toList <+: groupLine mediaSsrc rtxSsrc := by
    rw [group_line_eq]
    exact List.prefix_append _ _
  have hdrop : (groupLine mediaSsrc rtxSsrc).drop "a=ssrc-group:".length =
      "FID".toList ++ ' ' :: (decimal mediaSsrc.toNat ++ ' ' :: decimal rtxSsrc.toNat) := by
    rw [group_line_eq]
    exact List.drop_left
  have hword : readWord ("FID".toList ++
      ' ' :: (decimal mediaSsrc.toNat ++ ' ' :: decimal rtxSsrc.toNat)) =
      some ("FID".toList, ' ' :: (decimal mediaSsrc.toNat ++ ' ' :: decimal rtxSsrc.toNat)) := by
    rfl
  have hfirst : readUint32 (' ' :: (decimal mediaSsrc.toNat ++ ' ' :: decimal rtxSsrc.toNat)) =
      some (mediaSsrc, ' ' :: decimal rtxSsrc.toNat) := read_uint32_decimal mediaSsrc (by
    intro c hc
    cases hc
    rfl)
  have hsecond : readUint32 (' ' :: decimal rtxSsrc.toNat) = some (rtxSsrc, []) := by
    have hread : readUint32 (' ' :: (decimal rtxSsrc.toNat ++ [])) = some (rtxSsrc, []) :=
      read_uint32_decimal rtxSsrc (by simp)
    rwa [List.append_nil] at hread
  rw [classify, if_pos ⟨hstart, rfl⟩, parseRtxSsrcGroup, if_pos hstart, hdrop]
  simp only [hword, hfirst, hsecond, Option.bind_eq_bind, Option.bind_some]
  rw [if_neg]
  rintro (h | h | h | h)
  · exact h rfl
  · exact hmedia h
  · exact hrtx h
  · exact hne h

/-! ## The maps -/

section Maps

variable {α β : Type} {m : SsrcMap α}

/-- The entries of a map come in the order of their SSRCs. -/
abbrev Ordered (m : SsrcMap α) : Prop :=
  OrderedMap.Ranked Prod.fst (fun _ : Ssrc => True) (fun ssrc => (ssrc.toNat : ℤ)) m

theorem ult_iff (x y : Ssrc) (_ : True) (_ : True) :
    BitVec.ult x y = true ↔ (x.toNat : ℤ) < (y.toNat : ℤ) := by
  simp [BitVec.ult]

theorem ult_connected (x y : Ssrc) (hxy : BitVec.ult x y = false) (hyx : BitVec.ult y x = false) :
    x = y := by
  simp only [BitVec.ult, decide_eq_false_iff_not, not_lt] at hxy hyx
  exact BitVec.eq_of_toNat_eq (le_antisymm hyx hxy)

theorem ordered_assign (h : Ordered m) (ssrc : Ssrc) (value : α) :
    Ordered (m.assign ssrc value) :=
  OrderedMap.ranked_insert_or_assign ult_iff trivial h

/-- An assignment adds its entry and keeps those of other SSRCs. -/
theorem mem_assign_of_not_mem {ssrc : Ssrc} {value : α} {entry : Ssrc × α}
    (hnew : ssrc ∉ m.map Prod.fst) :
    entry ∈ m.assign ssrc value ↔ entry = (ssrc, value) ∨ entry ∈ m := by
  refine ⟨OrderedMap.mem_of_mem_insert_or_assign, ?_⟩
  rintro (rfl | hmem)
  · exact OrderedMap.mem_insert_or_assign_self _ _
  · exact OrderedMap.mem_insert_or_assign_of_ne ult_connected hmem fun heq =>
      hnew (List.mem_map.mpr ⟨entry, hmem, heq⟩)

theorem get_eq_some_iff (h : Ordered m) {ssrc : Ssrc} {value : α} :
    m.get ssrc = some value ↔ (ssrc, value) ∈ m := by
  rw [SsrcMap.get, Option.map_eq_some_iff]
  constructor
  · rintro ⟨entry, hfound, rfl⟩
    obtain ⟨hmem, rfl⟩ := OrderedMap.find_some ult_connected hfound
    exact hmem
  · intro hmem
    exact ⟨(ssrc, value), (OrderedMap.find_eq_some_iff ult_iff ult_connected trivial h).mpr
      ⟨hmem, rfl⟩, rfl⟩

/-- The map that a list of assignments leaves. -/
def ofEntries (entries : List (Ssrc × α)) : SsrcMap α :=
  entries.foldl (fun m entry => m.assign entry.1 entry.2) []

theorem ordered_of_entries (entries : List (Ssrc × α)) : Ordered (ofEntries entries) := by
  induction entries using List.reverseRecOn with
  | nil => exact ⟨by simp [ofEntries], by simp [ofEntries]⟩
  | append_singleton entries entry ih =>
      rw [ofEntries, List.foldl_append]
      exact ordered_assign ih _ _

/-- Assignments to different SSRCs all stay. -/
theorem mem_of_entries {entries : List (Ssrc × α)} (h : (entries.map Prod.fst).Nodup)
    {entry : Ssrc × α} : entry ∈ ofEntries entries ↔ entry ∈ entries := by
  induction entries using List.reverseRecOn generalizing entry with
  | nil => simp [ofEntries]
  | append_singleton entries last ih =>
      rw [List.map_append, List.nodup_append] at h
      obtain ⟨hentries, -, hdisjoint⟩ := h
      have hnew : last.1 ∉ (ofEntries entries).map Prod.fst := by
        intro hmem
        obtain ⟨other, hother, heq⟩ := List.mem_map.mp hmem
        exact hdisjoint _ (List.mem_map_of_mem ((ih hentries).mp hother)) last.1 (by simp) heq
      have hstep : ofEntries (entries ++ [last]) = (ofEntries entries).assign last.1 last.2 := by
        rw [ofEntries, List.foldl_append]
        rfl
      rw [hstep, mem_assign_of_not_mem hnew, ih hentries, List.mem_append, List.mem_singleton,
        or_comm]

/-- The map has nothing but the entries. -/
theorem mem_entries {entries : List (Ssrc × α)} {entry : Ssrc × α} (h : entry ∈ ofEntries entries) :
    entry ∈ entries := by
  induction entries using List.reverseRecOn with
  | nil => exact h
  | append_singleton entries last ih =>
      rw [ofEntries, List.foldl_append] at h
      rcases OrderedMap.mem_of_mem_insert_or_assign h with rfl | h
      · exact List.mem_append_right _ List.mem_cons_self
      · exact List.mem_append_left _ (ih h)

/-- Where the entries of an id agree, the loop stores their value. -/
theorem fill_ids_iff {id : Ssrc × α → Option Text} {value : Ssrc × α → β} {m : SsrcMap α}
    (hagree : ∀ e ∈ m, ∀ e' ∈ m, ∀ name, id e = some name → id e' = some name →
      value e = value e') (name : Text) (v : β) :
    fillIds id value m (fun _ => none) name = some v ↔
      ∃ e ∈ m, id e = some name ∧ value e = v := by
  induction m using List.reverseRecOn with
  | nil => simp [fillIds]
  | append_singleton m last ih =>
      have hold := ih fun e he e' he' =>
        hagree e (List.mem_append_left _ he) e' (List.mem_append_left _ he')
      rw [fillIds, List.foldl_append, List.foldl_cons, List.foldl_nil, ← fillIds]
      cases hlast : id last with
      | none =>
          show fillIds id value m (fun _ => none) name = some v ↔ _
          rw [hold]
          simp [hlast]
      | some key =>
          show Function.update (fillIds id value m fun _ => none) key (some (value last)) name =
            some v ↔ _
          by_cases hkey : name = key
          · subst hkey
            rw [Function.update_self, Option.some.injEq]
            constructor
            · intro h
              exact ⟨last, by simp, hlast, h⟩
            · rintro ⟨e, he, hid, rfl⟩
              exact hagree last (by simp) e he name hlast hid
          · rw [Function.update_of_ne hkey, hold]
            have hne : ¬ key = name := fun heq => hkey heq.symm
            simp [hlast, hne]

/-- The entry with the largest SSRC decides the value of an id. -/
theorem fill_ids_largest {id : Ssrc × α → Option Text} {value : Ssrc × α → β} {m : SsrcMap α}
    (hordered : Ordered m) {e : Ssrc × α} (he : e ∈ m) {name : Text} (hid : id e = some name)
    (hlargest : ∀ e' ∈ m, id e' = some name → e'.1.toNat ≤ e.1.toNat) :
    fillIds id value m (fun _ => none) name = some (value e) := by
  induction m using List.reverseRecOn with
  | nil => cases he
  | append_singleton m last ih =>
      rw [fillIds, List.foldl_append, List.foldl_cons, List.foldl_nil, ← fillIds]
      have hbefore : ∀ e' ∈ m, e'.1.toNat < last.1.toNat := by
        intro e' he'
        have hpair := (List.pairwise_append.mp hordered.sorted).2.2 e' he' last (by simp)
        exact_mod_cast hpair
      rcases List.mem_append.mp he with hmem | hmem
      · have hskip : id last ≠ some name := by
          intro hlast
          have hle := hlargest last (by simp) hlast
          have hlt := hbefore e hmem
          omega
        have hrest := ih (hordered.sublist (List.sublist_append_left _ _)) hmem
          fun e' he' => hlargest e' (List.mem_append_left _ he')
        cases hlast : id last with
        | none => exact hrest
        | some key =>
            show Function.update (fillIds id value m fun _ => none) key (some (value last)) name = _
            have hne : name ≠ key := fun heq => hskip (by rw [hlast, heq])
            rw [Function.update_of_ne hne, hrest]
      · rw [List.mem_singleton] at hmem
        subst hmem
        rw [hid]
        exact Function.update_self ..

/-- A value that the loop stores comes from an entry of its id. -/
theorem exists_of_fill_ids {id : Ssrc × α → Option Text} {value : Ssrc × α → β} {m : SsrcMap α}
    {name : Text} {v : β} (h : fillIds id value m (fun _ => none) name = some v) :
    ∃ e ∈ m, id e = some name := by
  induction m using List.reverseRecOn with
  | nil => cases h
  | append_singleton m last ih =>
      rw [fillIds, List.foldl_append, List.foldl_cons, List.foldl_nil, ← fillIds] at h
      by_cases hlast : id last = some name
      · exact ⟨last, by simp, hlast⟩
      · have hm : fillIds id value m (fun _ => none) name = some v := by
          cases hkey : id last with
          | none => rwa [hkey] at h
          | some key =>
              rw [hkey] at h
              have hne : name ≠ key := fun heq => hlast (by rw [hkey, heq])
              have hold := Function.update_of_ne hne (some (value last))
                (fillIds id value m fun _ => none)
              rw [← hold]
              exact h
        obtain ⟨e, he, hid⟩ := ih hm
        exact ⟨e, List.mem_append_left _ he, hid⟩

/-- An id that some entry yields gets the value of its entry with the largest SSRC. -/
theorem fill_ids_of_mem {id : Ssrc × α → Option Text} {value : Ssrc × α → β} {m : SsrcMap α}
    (hordered : Ordered m) {name : Text} (h : ∃ e ∈ m, id e = some name) :
    ∃ e ∈ m, id e = some name ∧ fillIds id value m (fun _ => none) name = some (value e) ∧
      ∀ e' ∈ m, id e' = some name → e'.1.toNat ≤ e.1.toNat := by
  induction m using List.reverseRecOn with
  | nil =>
      obtain ⟨e, he, -⟩ := h
      cases he
  | append_singleton m last ih =>
      have hlarger : ∀ e' ∈ m, e'.1.toNat ≤ last.1.toNat := by
        intro e' he'
        have hpair := (List.pairwise_append.mp hordered.sorted).2.2 e' he' last (by simp)
        exact_mod_cast hpair.le
      by_cases hlast : id last = some name
      · have hall : ∀ e' ∈ m ++ [last], id e' = some name → e'.1.toNat ≤ last.1.toNat := by
          intro e' he' _
          rcases List.mem_append.mp he' with hm | hm
          · exact hlarger e' hm
          · exact (List.mem_singleton.mp hm) ▸ le_rfl
        exact ⟨last, by simp, hlast, fill_ids_largest hordered (by simp) hlast hall, hall⟩
      · have hm : ∃ e ∈ m, id e = some name := by
          obtain ⟨e, he, hid⟩ := h
          rcases List.mem_append.mp he with hmem | hmem
          · exact ⟨e, hmem, hid⟩
          · exact absurd ((List.mem_singleton.mp hmem) ▸ hid) hlast
        obtain ⟨e, he, hid, -, hmax⟩ :=
          ih (hordered.sublist (List.sublist_append_left _ _)) hm
        have hall : ∀ e' ∈ m ++ [last], id e' = some name → e'.1.toNat ≤ e.1.toNat := by
          intro e' he' hid'
          rcases List.mem_append.mp he' with hmem | hmem
          · exact hmax e' hmem hid'
          · exact absurd ((List.mem_singleton.mp hmem) ▸ hid') hlast
        have hmem := List.mem_append_left [last] he
        exact ⟨e, hmem, hid, fill_ids_largest hordered hmem hid hall, hall⟩

end Maps

/-! ## What the lines of a section yield -/

/-- The names that the lines announce. -/
def nameEntries (kind : MediaKind) (ls : List Text) : List (Ssrc × Text) :=
  ls.filterMap fun line =>
    match classify kind line with
    | .name ssrc id => some (ssrc, id)
    | _ => none

/-- The groups that the lines announce. -/
def groupEntries (kind : MediaKind) (ls : List Text) : List (Ssrc × Ssrc) :=
  ls.filterMap fun line =>
    match classify kind line with
    | .group mediaSsrc rtxSsrc => some (mediaSsrc, rtxSsrc)
    | _ => none

/-- The reliability flags that the lines announce. -/
def reliableEntries (kind : MediaKind) (ls : List Text) : List (Ssrc × Bool) :=
  ls.filterMap fun line =>
    match classify kind line with
    | .reliable ssrc flag => some (ssrc, flag)
    | _ => none

/-- The loop fills its maps with what the lines announce and keeps the rest. -/
theorem read_tables_eq (kind : MediaKind) (ls : List Text) :
    readTables kind ls =
      { names := ofEntries (nameEntries kind ls)
        reliable := ofEntries (reliableEntries kind ls)
        rtx := ofEntries (groupEntries kind ls)
        kept := ls.filter fun line => classify kind line = .kept } := by
  induction ls using List.reverseRecOn with
  | nil => rfl
  | append_singleton ls line ih =>
      have hstep : readTables kind (ls ++ [line]) =
          (readTables kind ls).add (classify kind line) line := by
        rw [readTables, List.foldl_append]
        rfl
      rw [hstep, ih]
      cases hline : classify kind line with
      | group mediaSsrc rtxSsrc =>
          simp [SsrcTables.add, nameEntries, groupEntries, reliableEntries, hline, ofEntries]
      | name ssrc id =>
          simp [SsrcTables.add, nameEntries, groupEntries, reliableEntries, hline, ofEntries]
      | reliable ssrc flag =>
          simp [SsrcTables.add, nameEntries, groupEntries, reliableEntries, hline, ofEntries]
      | dropped =>
          simp [SsrcTables.add, nameEntries, groupEntries, reliableEntries, hline]
      | kept =>
          simp [SsrcTables.add, nameEntries, groupEntries, reliableEntries, hline]

/-- The id that a line names stands in it. -/
theorem id_in_line {kind : MediaKind} {line id : Text} {ssrc : Ssrc}
    (h : classify kind line = .name ssrc id) : id <:+: line := by
  have hpop : ∀ s : Text, popCarriageReturn s <+: s := by
    intro s
    unfold popCarriageReturn
    split_ifs
    · exact List.dropLast_prefix s
    · exact List.prefix_refl s
  unfold classify at h
  split_ifs at h
  · split at h <;> cases h
  · split at h
    · cases h
    · next space hspace =>
        split at h
        · cases h
        · dsimp only at h
          split_ifs at h
          obtain ⟨-, rfl⟩ := SsrcLine.name.inj h
          exact (hpop _).isInfix.trans
            ((List.drop_suffix _ _).trans (List.drop_suffix _ _)).isInfix
  · split at h
    · cases h
    · split at h <;> cases h

/-- A stream that is read stands in a line. -/
theorem line_of_stream {kind : MediaKind} {ls : List Text} {id : Text} {ssrc : Ssrc}
    (h : (readTables kind ls).streams kind id = some ssrc) : ∃ l ∈ ls, id <:+: l := by
  rw [read_tables_eq] at h
  obtain ⟨entry, hentry, hstream⟩ := exists_of_fill_ids h
  obtain ⟨l, hl, hname⟩ := List.mem_filterMap.mp (mem_entries hentry)
  unfold SsrcTables.streamOf at hstream
  split_ifs at hstream
  refine ⟨l, hl, ?_⟩
  cases hclass : classify kind l with
  | name other named =>
      rw [hclass] at hname
      obtain rfl := Option.some.inj hname
      rw [← Option.some.inj hstream]
      exact id_in_line hclass
  | _ =>
      rw [hclass] at hname
      cases hname

end IceTransport

end MiniRtc

import MiniRtc.Transport.LocalDescription
import MiniRtc.Transport.RemoteSdp

/-!
# The description of the ICE agent

`GenerateLocalSdp` of `ice_agent.cpp`. The ICE library describes its video stream; the sections for
audio and data are copies of this text with the name of the media replaced, and the attributes of
the two extensions follow. The result is a base description for `ConfigureMediaSection`.
-/

namespace MiniRtc

open Text IceTransport

/-! ## What the ICE library writes -/

/-- The lines of a stream, besides its media line. -/
inductive NiceField where
  | connection
  | rtcp
  | iceUfrag
  | icePwd
  | candidate
  deriving DecidableEq

/-- What a line starts with. -/
def NiceField.name : NiceField → Text
  | .connection => "c=IN ".toList
  | .rtcp => "a=rtcp:".toList
  | .iceUfrag => "a=ice-ufrag:".toList
  | .icePwd => "a=ice-pwd:".toList
  | .candidate => "a=candidate:".toList

/-- A line. Its value is an address, a port, a word of base64 digits or the fields of a candidate. -/
structure NiceLine where
  field : NiceField
  value : Text
  unbroken : '\n' ∉ value
  noEquals : '=' ∉ value

def NiceLine.text (line : NiceLine) : Text :=
  line.field.name ++ line.value

/-- The video stream of the library. -/
structure NiceStream where
  port : Nat
  lines : List NiceLine

/-- `nice_agent_generate_local_sdp` for the one stream that the agent has. -/
def NiceStream.text (stream : NiceStream) : Text :=
  mediaHeader "m=video".toList stream.port ++
    ("ICE/SDP".toList ++ '\n' :: unlines (stream.lines.map NiceLine.text))

/-! ## The function of the source -/

/-- What decides which extensions the agent offers. The last two say whether the library has the
properties `relay-upgrade-timeout` and `stun-servers`. -/
structure AgentOptions where
  useReliableIce : Bool
  turnForced : Bool
  hasRelayUpgradeTimeout : Bool
  hasStunServers : Bool

/-- The agent offers the relay upgrade. -/
def AgentOptions.relayUpgrade (options : AgentOptions) : Bool :=
  !options.useReliableIce && !options.turnForced && options.hasRelayUpgradeTimeout

/-- `GenerateLocalSdp`. -/
def generateLocalSdp (videoStreamSdp : Text) (options : AgentOptions) : Text :=
  let audioStreamSdp := replaceAll "video".toList "audio".toList videoStreamSdp
  let dataStreamSdp := replaceAll "video".toList "data".toList videoStreamSdp
  let localSdp := videoStreamSdp ++ audioStreamSdp ++ dataStreamSdp
  if options.relayUpgrade then
    let localSdp := localSdp ++ (kRelayUpgradeAttribute ++ "\r\n".toList)
    if options.hasStunServers then localSdp ++ (kP2pEnhancementAttribute ++ "\r\n".toList)
    else localSdp
  else localSdp

/-! ## The base description -/

/-- The lines of the extensions. -/
def AgentOptions.lines (options : AgentOptions) : List Text :=
  if options.relayUpgrade then
    (kRelayUpgradeAttribute ++ ['\r']) ::
      if options.hasStunServers then [kP2pEnhancementAttribute ++ ['\r']] else []
  else []

/-- Replacing brings in the characters of the replacement only. -/
theorem mem_replace_from {p r s : Text} {c : Char} {skip : Nat} (h : c ∈ replaceFrom p r skip s) :
    c ∈ r ∨ c ∈ s := by
  induction s generalizing skip with
  | nil => cases skip <;> cases h
  | cons d s ih =>
      cases skip with
      | succ skip => exact (ih h).imp_right (List.mem_cons_of_mem _)
      | zero =>
          rw [replaceFrom] at h
          split_ifs at h
          · rcases List.mem_append.mp h with h | h
            · exact Or.inl h
            · exact (ih h).imp_right (List.mem_cons_of_mem _)
          · rcases List.mem_cons.mp h with rfl | h
            · exact Or.inr List.mem_cons_self
            · exact (ih h).imp_right (List.mem_cons_of_mem _)

/-- A character that neither the value nor the replacement has. -/
theorem not_mem_replace_all {p r s : Text} {c : Char} (hr : c ∉ r) (hs : c ∉ s) :
    c ∉ replaceAll p r s :=
  fun h => (mem_replace_from h).elim hr hs

/-- The name of a kind of media. -/
def MediaKind.name : MediaKind → Text
  | .video => "video".toList
  | .audio => "audio".toList
  | .data => "data".toList

/-- A line with the name of the media replaced in its value. -/
def NiceLine.renamed (kind : MediaKind) (line : NiceLine) : NiceLine where
  field := line.field
  value := replaceAll "video".toList kind.name line.value
  unbroken := not_mem_replace_all (by cases kind <;> decide) line.unbroken
  noEquals := not_mem_replace_all (by cases kind <;> decide) line.noEquals

/-- The lines of a section for a kind of media. -/
def NiceStream.linesFor (stream : NiceStream) (kind : MediaKind) : List Text :=
  (stream.lines.map (NiceLine.renamed kind)).map NiceLine.text

/-- The name of a line is a letter, an equals sign and a text without one. -/
theorem nice_line_eq (line : NiceLine) : ∃ letter rest, line.text = letter :: '=' :: rest ∧
    letter ≠ 'm' ∧ '=' ∉ rest := by
  obtain ⟨letter, rest, hname, hletter, hrest⟩ : ∃ letter rest,
      line.field.name = letter :: '=' :: rest ∧ letter ≠ 'm' ∧ '=' ∉ rest := by
    cases line.field <;> exact ⟨_, _, rfl, by decide, by decide⟩
  refine ⟨letter, rest ++ line.value, ?_, hletter, ?_⟩
  · rw [NiceLine.text, hname, List.cons_append, List.cons_append]
  · simp only [List.mem_append, not_or]
    exact ⟨hrest, line.noEquals⟩

/-- The lines of the library are lines of a section. -/
theorem nice_line_is_body_line (line : NiceLine) : IsBodyLine line.text := by
  obtain ⟨letter, rest, hline, hletter, hrest⟩ := nice_line_eq line
  have hname : '\n' ∉ line.field.name := by cases line.field <;> decide
  have hplain : ∀ q ∈ ["a=ssrc".toList, "a=x-reliable-data:".toList],
      ¬ q <+: line.text := by
    intro q hq
    refine not_prefix_append ?_ ?_ _ <;>
    · simp only [List.mem_cons, List.not_mem_nil, or_false] at hq
      rcases hq with rfl | rfl <;> cases line.field <;> decide
  refine ⟨?_, ?_, ?_, ⟨hplain _ (by simp), hplain _ (by simp)⟩, ?_⟩
  · simp only [NiceLine.text, List.mem_append, not_or]
    exact ⟨hname, line.unbroken⟩
  · rw [hline]
    intro hmedia
    exact hletter (List.cons_prefix_cons.mp hmedia).1.symm
  · intro kind htag
    obtain ⟨name, hkind, -⟩ := tag_eq_cons kind
    rw [hline, hkind] at htag
    have hstart := starts_of_contains (by decide) hrest htag
    exact hletter (List.cons_prefix_cons.mp hstart).1.symm
  · rw [hline]
    exact starts_of_contains (by decide) hrest

theorem lines_for_are_body_lines (stream : NiceStream) (kind : MediaKind) :
    ∀ l ∈ stream.linesFor kind, IsBodyLine l := by
  intro l hl
  obtain ⟨line, -, rfl⟩ := List.mem_map.mp hl
  exact nice_line_is_body_line line

theorem extension_lines_are_body_lines (options : AgentOptions) :
    ∀ l ∈ options.lines, IsBodyLine l := by
  intro l hl
  unfold AgentOptions.lines at hl
  split_ifs at hl
  · simp only [List.mem_cons, List.not_mem_nil, or_false] at hl
    rcases hl with rfl | rfl <;> decide
  · obtain rfl := List.mem_singleton.mp hl
    decide
  · cases hl

/-- The description as sections. -/
def NiceStream.base (stream : NiceStream) (options : AgentOptions) : BaseDescription where
  session := []
  video := { port := stream.port, body := stream.lines.map NiceLine.text }
  audio := { port := stream.port, body := stream.linesFor .audio }
  data := { port := stream.port, body := stream.linesFor .data ++ options.lines }
  sessionLines := no_lines_plain
  videoLines := by
    intro l hl
    obtain ⟨line, -, rfl⟩ := List.mem_map.mp hl
    exact nice_line_is_body_line line
  audioLines := lines_for_are_body_lines stream .audio
  dataLines := List.forall_mem_append.mpr
    ⟨lines_for_are_body_lines stream .data, extension_lines_are_body_lines options⟩

/-- A copy replaces the name of the media in the media line and in the values. -/
theorem replace_stream_text (stream : NiceStream) (kind : MediaKind) :
    replaceAll "video".toList kind.name stream.text =
      mediaHeader kind.tag stream.port ++ ("ICE/SDP".toList ++
        '\n' :: unlines (stream.linesFor kind)) := by
  have hlines : replaceAll "video".toList kind.name
      (unlines (stream.lines.map NiceLine.text)) = unlines (stream.linesFor kind) := by
    unfold NiceStream.linesFor
    induction stream.lines with
    | nil => rfl
    | cons line lines ih =>
        obtain ⟨front, last, hname, hfront, hlast⟩ : ∃ front last,
            line.field.name = front ++ [last] ∧ 'v' ∉ front ∧ last ∉ "video".toList := by
          cases line.field
          · exact ⟨"c=IN".toList, ' ', rfl, by decide, by decide⟩
          · exact ⟨"a=rtcp".toList, ':', rfl, by decide, by decide⟩
          · exact ⟨"a=ice-ufrag".toList, ':', rfl, by decide, by decide⟩
          · exact ⟨"a=ice-pwd".toList, ':', rfl, by decide, by decide⟩
          · exact ⟨"a=candidate".toList, ':', rfl, by decide, by decide⟩
        have hline : replaceAll "video".toList kind.name line.text =
            (line.renamed kind).text := by
          have hsplit : line.text = front ++ last :: line.value := by
            rw [NiceLine.text, hname, List.append_assoc, List.singleton_append]
          have hrenamed : (line.renamed kind).text =
              front ++ last :: replaceAll "video".toList kind.name line.value := by
            show line.field.name ++ _ = _
            rw [hname, List.append_assoc, List.singleton_append]
            rfl
          have hkept : replaceAll "video".toList kind.name front = front :=
            replace_all_skip hfront _
          rw [hsplit, replace_all_append hlast (by decide), hkept, hrenamed]
        rw [List.map_cons, List.map_cons, List.map_cons, unlines_cons, unlines_cons,
          replace_all_append (by decide) (by decide), hline, ih]
  have htag : replaceAll "video".toList kind.name "m=video".toList = kind.tag := by
    cases kind <;> decide
  have hheader : replaceAll "video".toList kind.name
      (decimal stream.port ++ [' '] ++ "ICE/SDP".toList) =
      decimal stream.port ++ [' '] ++ "ICE/SDP".toList := by
    refine replace_all_skip ?_ _
    have hport : 'v' ∉ decimal stream.port := not_mem_decimal rfl _
    simp only [List.mem_append, not_or]
    exact ⟨⟨hport, by decide⟩, by decide⟩
  have htext : stream.text = "m=video".toList ++ ' ' :: ((decimal stream.port ++ [' '] ++
      "ICE/SDP".toList) ++ '\n' :: unlines (stream.lines.map NiceLine.text)) := by
    unfold NiceStream.text mediaHeader
    simp only [List.append_assoc, List.cons_append]
  rw [htext, replace_all_append (by decide) (by decide), htag,
    replace_all_append (by decide) (by decide), hheader, hlines, mediaHeader]
  simp only [List.append_assoc, List.cons_append]

/-- The agent generates the base description. -/
theorem generate_local_sdp_eq (stream : NiceStream) (options : AgentOptions) :
    generateLocalSdp stream.text options = (stream.base options).text := by
  have haudio := replace_stream_text stream .audio
  have hdata := replace_stream_text stream .data
  have hlines : unlines options.lines =
      if options.relayUpgrade then
        kRelayUpgradeAttribute ++ "\r\n".toList ++
          if options.hasStunServers then kP2pEnhancementAttribute ++ "\r\n".toList else []
      else [] := by
    unfold AgentOptions.lines
    split_ifs <;> rfl
  have hbase : (stream.base options).text = stream.text ++
      (replaceAll "video".toList "audio".toList stream.text ++
        (replaceAll "video".toList "data".toList stream.text ++ unlines options.lines)) := by
    have hsections : (stream.base options).text = stream.text ++
        (mediaHeader MediaKind.audio.tag stream.port ++ ("ICE/SDP".toList ++
            '\n' :: unlines (stream.linesFor .audio)) ++
          (mediaHeader MediaKind.data.tag stream.port ++ ("ICE/SDP".toList ++
            '\n' :: unlines (stream.linesFor .data ++ options.lines)))) := rfl
    rw [hsections, ← haudio, unlines_append, ← List.cons_append,
      ← List.append_assoc "ICE/SDP".toList, ← List.append_assoc (mediaHeader _ _), ← hdata]
    rfl
  rw [hbase, hlines, generateLocalSdp]
  split_ifs <;> simp only [List.append_assoc, List.append_nil]

end MiniRtc

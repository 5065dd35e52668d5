import MiniRtc.Rtcp.Messages

/-!
# The run over a compound packet

What `ParseRtcpPacket` does with a whole buffer. One packet takes the loop from a state to the next
one (`parse_all_represented`, `parse_all_rejected`), and by induction on the length every buffer is
either packets of messages from end to end, or it is found invalid and nothing is handed over
(`parse_all_cases`).
-/

namespace MiniRtc

namespace IceTransport

variable {clock : Nat → ClockReading}

/-- The report blocks of a buffer as they are handed over, in their order. -/
def reportDatas (clock : Nat → ClockReading) (reports : List (BitVec 32 × RtcpReportBlock)) :
    List ReportBlockData :=
  reports.mapIdx fun i report => reportBlockData (clock i) report.1 report.2

/-- The call that hands report blocks over, when there are some. -/
def handOver (datas : List ReportBlockData) : List RtcpCall :=
  if datas = [] then [] else [.onReceiverReport datas]

/-- Nothing is handed over. -/
def NoHandOver (calls : List RtcpCall) : Prop :=
  ∀ datas, .onReceiverReport datas ∉ calls

/-- The loop from a pointer to the end of the buffer. -/
def parseAll (clock : Nat → ClockReading) (p : List Byte) (s : Handled) : Option Handled :=
  parseBlocks clock true p p.length s

theorem mem_hand_over {datas datas' : List ReportBlockData} :
    .onReceiverReport datas ∈ handOver datas' ↔ datas = datas' ∧ datas ≠ [] := by
  unfold handOver
  split_ifs with hnone
  · refine iff_of_false List.not_mem_nil ?_
    rintro ⟨rfl, hsome⟩
    exact hsome hnone
  · rw [List.mem_singleton, RtcpCall.onReceiverReport.injEq]
    exact ⟨fun heq => ⟨heq, heq ▸ hnone⟩, And.left⟩

/-! ## Report blocks -/

theorem fold_report_blocks (senderSsrc : BitVec 32) (reports : List RtcpReportBlock) :
    ∀ info : RtcpPacketInfo,
      (reports.foldl (handleReportBlock clock senderSsrc) info).reportBlockDatas =
        info.reportBlockDatas ++ (reports.map (senderSsrc, ·)).mapIdx fun i report =>
          reportBlockData (clock (info.reportBlockDatas.length + i)) report.1 report.2 := by
  induction reports with
  | nil => exact fun info => (List.append_nil _).symm
  | cons report reports ih =>
      intro info
      rw [List.foldl_cons, ih, List.map_cons, List.mapIdx_cons]
      show (info.reportBlockDatas ++ [_]) ++ _ = _
      rw [List.append_assoc, List.singleton_append]
      congr 2
      refine congrArg (List.mapIdx · _) (funext fun i => funext fun report' => ?_)
      show reportBlockData (clock ((info.reportBlockDatas ++ [_]).length + i)) _ _ = _
      rw [List.length_append, List.length_singleton, Nat.add_assoc, Nat.add_comm 1]

theorem effect_report_blocks (m : RtcpMessage) (info : RtcpPacketInfo) :
    (m.effect clock info).reportBlockDatas =
      info.reportBlockDatas ++ m.reportBlocks.mapIdx fun i report =>
        reportBlockData (clock (info.reportBlockDatas.length + i)) report.1 report.2 := by
  cases m with
  | receiverReport senderSsrc reports extension =>
      exact fold_report_blocks senderSsrc reports { info with remoteSsrc := senderSsrc }
  | senderReport | feedback | nack | fir | unknown => exact (List.append_nil _).symm

/-- The report blocks of messages are handed over in their order. -/
theorem effects_report_blocks (messages : List RtcpMessage) : ∀ info : RtcpPacketInfo,
    (messages.foldl (RtcpMessage.effect clock) info).reportBlockDatas =
      info.reportBlockDatas ++ (messages.flatMap RtcpMessage.reportBlocks).mapIdx fun i report =>
        reportBlockData (clock (info.reportBlockDatas.length + i)) report.1 report.2 := by
  induction messages with
  | nil => exact fun info => (List.append_nil _).symm
  | cons m messages ih =>
      intro info
      rw [List.foldl_cons, ih, effect_report_blocks, List.flatMap_cons, List.mapIdx_append,
        List.append_assoc]
      congr 2
      refine congrArg (List.mapIdx · _) (funext fun i => funext fun report => ?_)
      rw [List.length_append, List.length_mapIdx, Nat.add_assoc, Nat.add_comm i]

theorem message_no_hand_over (m : RtcpMessage) : NoHandOver m.calls := by
  intro datas hmem
  cases m with
  | fir senderSsrc mediaSsrc entries =>
      obtain ⟨entry, -, hentry⟩ := List.mem_map.mp hmem
      exact absurd hentry (by simp)
  | senderReport | receiverReport | feedback | nack | unknown =>
      simp [RtcpMessage.calls] at hmem

theorem messages_no_hand_over (messages : List RtcpMessage) :
    NoHandOver (messages.flatMap RtcpMessage.calls) := by
  intro datas hmem
  obtain ⟨m, -, hcall⟩ := List.mem_flatMap.mp hmem
  exact message_no_hand_over m datas hcall

/-! ## One packet -/

theorem parse_all_nil (s : Handled) : parseAll clock [] s = some (finish true s) := by
  rw [parseAll, parseBlocks]
  rfl

/-- The loop takes one packet and goes on behind it. -/
theorem parse_all_block (b : RtcpBlock) (rest : List Byte) {s handled : Handled}
    (hhandled : handleBlock clock true (b.header rest) s.info = some handled) :
    parseAll clock (b.bytes ++ rest) s =
      parseAll clock rest ⟨s.valid && handled.valid, handled.info, s.calls ++ handled.calls⟩ := by
  have hsize : (b.header rest).packetSize = b.bytes.length := b.bytes_length.symm
  have hpos : 0 < b.bytes.length := by
    rw [b.bytes_length, RtcpCommonHeader.kHeaderSizeBytes]
    omega
  have hnext : (b.header rest).nextPacket = rest := by
    show (b.payload ++ b.padding ++ rest).drop (b.payload.length + b.padding.length) = rest
    rw [← List.length_append, List.drop_left]
  have hlength : (b.bytes ++ rest).length = b.bytes.length + rest.length := List.length_append
  rw [parseAll, parseBlocks, if_neg (by omega), parse_block]
  dsimp only
  rw [dif_neg (by omega), hhandled]
  dsimp only
  rw [hnext, hsize, hlength, Nat.add_sub_cancel_left]
  rfl

/-- One packet of a message. -/
theorem parse_all_represented {b : RtcpBlock} {m : RtcpMessage} (h : b.Represents m)
    (rest : List Byte) (s : Handled) :
    parseAll clock (b.bytes ++ rest) s =
      parseAll clock rest ⟨s.valid, m.effect clock s.info, s.calls ++ m.calls⟩ := by
  rw [parse_all_block b rest (handle_represented h rest s.info), Bool.and_true]

/-- One packet of no message. -/
theorem parse_all_rejected {b : RtcpBlock} (h : ∀ m, ¬ b.Represents m) (rest : List Byte)
    (s : Handled) :
    parseAll clock (b.bytes ++ rest) s = parseAll clock rest ⟨false, s.info, s.calls⟩ := by
  rw [parse_all_block b rest (handle_rejected h rest s.info), Bool.and_false, List.append_nil]

/-- A rest that is not accepted as a packet ends the run. -/
theorem parse_all_malformed {p : List Byte} (hsome : p ≠ [])
    (hparse : RtcpCommonHeader.parse p p.length = some none) (s : Handled) :
    parseAll clock p s = some { s with valid := false } := by
  rw [parseAll, parseBlocks, if_neg (mt List.eq_nil_of_length_eq_zero hsome), hparse]

/-! ## Runs -/

variable (clock) in
/-- Packets of messages, one after the other. -/
theorem parse_all_messages {blocks : List RtcpBlock} {messages : List RtcpMessage}
    (h : List.Forall₂ RtcpBlock.Represents blocks messages) (tail : List Byte) :
    ∀ s : Handled, parseAll clock (blocks.flatMap RtcpBlock.bytes ++ tail) s =
      parseAll clock tail ⟨s.valid, messages.foldl (RtcpMessage.effect clock) s.info,
        s.calls ++ messages.flatMap RtcpMessage.calls⟩ := by
  induction h with
  | nil =>
      intro s
      show parseAll clock tail s = parseAll clock tail ⟨s.valid, s.info, s.calls ++ []⟩
      rw [List.append_nil]
  | cons hblock _ ih =>
      intro s
      rw [List.flatMap_cons, List.append_assoc, parse_all_represented hblock, ih,
        List.flatMap_cons, List.append_assoc]
      rfl

/-- What a run ends with: the whole buffer was packets of messages, or it is not valid. -/
inductive RunEnd (clock : Nat → ClockReading) (p : List Byte) (s h : Handled) : Prop where
  | messages (blocks : List RtcpBlock) (messages : List RtcpMessage)
      (buffer : p = blocks.flatMap RtcpBlock.bytes)
      (represented : List.Forall₂ RtcpBlock.Represents blocks messages)
      (result : h = finish true ⟨s.valid, messages.foldl (RtcpMessage.effect clock) s.info,
        s.calls ++ messages.flatMap RtcpMessage.calls⟩)
  | invalid (more : List RtcpCall) (valid : h.valid = false)
      (calls : h.calls = s.calls ++ more) (noHandOver : NoHandOver more)

/-- A run that is not valid any more stays so. -/
theorem RunEnd.of_invalid {p : List Byte} {s h : Handled} (hrun : RunEnd clock p s h)
    (hinvalid : s.valid = false) :
    ∃ more, h.valid = false ∧ h.calls = s.calls ++ more ∧ NoHandOver more := by
  cases hrun with
  | messages blocks messages _ _ hresult =>
      refine ⟨messages.flatMap RtcpMessage.calls, ?_, ?_, messages_no_hand_over messages⟩
      · rw [hresult, finish, hinvalid]
        rfl
      · rw [hresult, finish, hinvalid]
        rfl
  | invalid more hvalid hcalls hnone => exact ⟨more, hvalid, hcalls, hnone⟩

variable (clock) in
/-- Every run comes to its end, and all that it reads is in the buffer. -/
theorem parse_all_cases (size : Nat) : ∀ (p : List Byte) (s : Handled), p.length ≤ size →
    ∃ h, parseAll clock p s = some h ∧ RunEnd clock p s h := by
  induction size with
  | zero =>
      intro p s hsize
      obtain rfl := List.eq_nil_of_length_eq_zero (Nat.le_zero.mp hsize)
      exact ⟨_, parse_all_nil s, .messages [] [] rfl .nil (by simp)⟩
  | succ size ih =>
      intro p s hsize
      by_cases hsome : p = []
      · subst hsome
        exact ⟨_, parse_all_nil s, .messages [] [] rfl .nil (by simp)⟩
      match hparse : RtcpCommonHeader.parse p p.length with
      | none => exact absurd hparse (parse_inside p)
      | some none =>
          refine ⟨_, parse_all_malformed hsome hparse s, .invalid [] rfl (by simp) ?_⟩
          exact fun _ => List.not_mem_nil
      | some (some header) =>
          obtain ⟨b, rest, rfl, -⟩ := block_of_parse hparse
          have hshorter : rest.length ≤ size := by
            rw [List.length_append, b.bytes_length, RtcpCommonHeader.kHeaderSizeBytes] at hsize
            omega
          by_cases hmessage : ∃ m, b.Represents m
          · obtain ⟨m, hm⟩ := hmessage
            obtain ⟨h, hrun, hend⟩ :=
              ih rest ⟨s.valid, m.effect clock s.info, s.calls ++ m.calls⟩ hshorter
            refine ⟨h, by rw [parse_all_represented hm, hrun], ?_⟩
            cases hend with
            | messages blocks messages hbuffer hall hresult =>
                refine .messages (b :: blocks) (m :: messages) ?_ (.cons hm hall) ?_
                · rw [List.flatMap_cons, hbuffer]
                · rw [hresult, List.append_assoc, List.flatMap_cons]
                  rfl
            | invalid more hvalid hcalls hnone =>
                refine .invalid (m.calls ++ more) hvalid ?_ ?_
                · rw [hcalls, List.append_assoc]
                · intro datas hmem
                  obtain hmem | hmem := List.mem_append.mp hmem
                  · exact message_no_hand_over m datas hmem
                  · exact hnone datas hmem
          · have hnone : ∀ m, ¬ b.Represents m := not_exists.mp hmessage
            obtain ⟨h, hrun, hend⟩ := ih rest ⟨false, s.info, s.calls⟩ hshorter
            obtain ⟨more, hvalid, hcalls, hmore⟩ := hend.of_invalid rfl
            exact ⟨h, by rw [parse_all_rejected hnone, hrun], .invalid more hvalid hcalls hmore⟩

/-- A rest of a buffer that starts with a packet of no message, or with a part of a packet that the
buffer does not hold as a whole, or with bytes that are no header. -/
def Malformed (tail : List Byte) : Prop :=
  (∃ (b : RtcpBlock) (cut : List Byte), b.bytes = tail ++ cut ∧ cut ≠ []) ∨
    RtcpCommonHeader.parse tail tail.length = some none ∨
    ∃ (b : RtcpBlock) (rest : List Byte), tail = b.bytes ++ rest ∧ ∀ m, ¬ b.Represents m

variable (clock) in
/-- A malformed rest makes the buffer invalid, and nothing is handed over. -/
theorem parse_all_tail {tail : List Byte} (hsome : tail ≠ []) (hmalformed : Malformed tail)
    (s : Handled) :
    ∃ h more, parseAll clock tail s = some h ∧ h.valid = false ∧ h.calls = s.calls ++ more ∧
      NoHandOver more := by
  have hreject (hparse : RtcpCommonHeader.parse tail tail.length = some none) :
      ∃ h more, parseAll clock tail s = some h ∧ h.valid = false ∧ h.calls = s.calls ++ more ∧
        NoHandOver more :=
    ⟨_, [], parse_all_malformed hsome hparse s, rfl, (List.append_nil _).symm,
      fun _ => List.not_mem_nil⟩
  obtain ⟨b, cut, hbytes, hcut⟩ | hparse | ⟨b, rest, rfl, hnone⟩ := hmalformed
  · exact hreject (parse_truncated b hbytes hcut)
  · exact hreject hparse
  · obtain ⟨h, hrun, hend⟩ :=
      parse_all_cases clock rest.length rest ⟨false, s.info, s.calls⟩ le_rfl
    obtain ⟨more, hvalid, hcalls, hmore⟩ := hend.of_invalid rfl
    exact ⟨h, more, by rw [parse_all_rejected hnone, hrun], hvalid, hcalls, hmore⟩

theorem parse_rtcp_packet_eq {buffer : List Byte} (hsome : buffer ≠ []) (info : RtcpPacketInfo) :
    parseRtcpPacket clock true buffer info = parseAll clock buffer ⟨true, info, []⟩ := by
  rw [parseRtcpPacket, if_neg (mt List.eq_nil_of_length_eq_zero hsome)]
  rfl

/-- What a run over messages ends with. -/
theorem finish_messages (messages : List RtcpMessage) :
    finish true ⟨true, messages.foldl (RtcpMessage.effect clock) {},
        [] ++ messages.flatMap RtcpMessage.calls⟩ =
      ⟨true, messages.foldl (RtcpMessage.effect clock) {},
        messages.flatMap RtcpMessage.calls ++
          handOver (reportDatas clock (messages.flatMap RtcpMessage.reportBlocks))⟩ := by
  have hdatas : (messages.foldl (RtcpMessage.effect clock) {}).reportBlockDatas =
      reportDatas clock (messages.flatMap RtcpMessage.reportBlocks) := by
    rw [effects_report_blocks]
    show [] ++ _ = _
    rw [List.nil_append, reportDatas]
    refine congrArg (List.mapIdx · _) (funext fun i => funext fun report => ?_)
    show reportBlockData (clock (0 + i)) _ _ = _
    rw [Nat.zero_add]
  unfold finish handOver
  rw [hdatas, List.nil_append]
  by_cases hnone : reportDatas clock (messages.flatMap RtcpMessage.reportBlocks) = []
  · simp [hnone]
  · simp [hnone]

theorem flat_map_bytes_ne_nil {blocks : List RtcpBlock} (h : blocks ≠ []) :
    blocks.flatMap RtcpBlock.bytes ≠ [] := by
  obtain ⟨b, blocks, rfl⟩ := List.exists_cons_of_ne_nil h
  exact List.cons_ne_nil _ _

/-- For every buffer the parse comes to its end and reads inside of it. Packets of messages are
dispatched once each and in order, also before a malformed rest, which makes the result false. The
controller gets the report blocks where the whole buffer is packets of messages with a block among
them, and then it gets all of them in their order. -/
theorem rtcp_compound_parsing (clock : Nat → ClockReading) :
    (∀ buffer info, ∃ h, parseRtcpPacket clock true buffer info = some h) ∧
      (∀ blocks messages, blocks ≠ [] → List.Forall₂ RtcpBlock.Represents blocks messages →
        ∃ info, parseRtcpPacket clock true (blocks.flatMap RtcpBlock.bytes) {} =
          some ⟨true, info, messages.flatMap RtcpMessage.calls ++
            handOver (reportDatas clock (messages.flatMap RtcpMessage.reportBlocks))⟩) ∧
      (∀ blocks messages tail, tail ≠ [] → Malformed tail →
        List.Forall₂ RtcpBlock.Represents blocks messages →
        ∃ info more, parseRtcpPacket clock true (blocks.flatMap RtcpBlock.bytes ++ tail) {} =
          some ⟨false, info, messages.flatMap RtcpMessage.calls ++ more⟩ ∧ NoHandOver more) ∧
      ∀ buffer h datas, parseRtcpPacket clock true buffer {} = some h →
        (.onReceiverReport datas ∈ h.calls ↔ ∃ blocks messages,
          buffer = blocks.flatMap RtcpBlock.bytes ∧
            List.Forall₂ RtcpBlock.Represents blocks messages ∧
            datas = reportDatas clock (messages.flatMap RtcpMessage.reportBlocks) ∧
            datas ≠ []) := by
  refine ⟨?_, ?_, ?_, ?_⟩
  · intro buffer info
    by_cases hsome : buffer = []
    · exact ⟨⟨false, info, []⟩, by rw [parseRtcpPacket, hsome]; rfl⟩
    · obtain ⟨h, hrun, -⟩ := parse_all_cases clock buffer.length buffer ⟨true, info, []⟩ le_rfl
      exact ⟨h, (parse_rtcp_packet_eq hsome info).trans hrun⟩
  · intro blocks messages hblocks hall
    have hrun := parse_all_messages clock hall [] ⟨true, {}, []⟩
    rw [List.append_nil, parse_all_nil, finish_messages] at hrun
    exact ⟨_, (parse_rtcp_packet_eq (flat_map_bytes_ne_nil hblocks) {}).trans hrun⟩
  · intro blocks messages tail hsome hmalformed hall
    have hbuffer : blocks.flatMap RtcpBlock.bytes ++ tail ≠ [] :=
      fun hnil => hsome (List.append_eq_nil_iff.mp hnil).2
    obtain ⟨h, more, hrun, hvalid, hcalls, hmore⟩ := parse_all_tail clock hsome
      hmalformed ⟨true, messages.foldl (RtcpMessage.effect clock) {},
        [] ++ messages.flatMap RtcpMessage.calls⟩
    refine ⟨h.info, more, ?_, hmore⟩
    rw [parse_rtcp_packet_eq hbuffer, parse_all_messages clock hall, hrun, ← hvalid]
    rw [List.nil_append] at hcalls
    rw [← hcalls]
  · intro buffer h datas hparse
    constructor
    · intro hmem
      by_cases hsome : buffer = []
      · rw [parseRtcpPacket, hsome, if_pos List.length_nil] at hparse
        obtain rfl := Option.some.inj hparse
        exact absurd hmem List.not_mem_nil
      rw [parse_rtcp_packet_eq hsome] at hparse
      obtain ⟨h', hrun, hend⟩ :=
        parse_all_cases clock buffer.length buffer ⟨true, {}, []⟩ le_rfl
      obtain rfl := Option.some.inj (hparse.symm.trans hrun)
      cases hend with
      | messages blocks messages hbuffer hall hresult =>
          rw [hresult, finish_messages] at hmem
          obtain hmem | hmem := List.mem_append.mp hmem
          · exact absurd hmem (messages_no_hand_over messages datas)
          · obtain ⟨hdatas, hnonempty⟩ := mem_hand_over.mp hmem
            exact ⟨blocks, messages, hbuffer, hall, hdatas, hnonempty⟩
      | invalid more hvalid hcalls hnone =>
          rw [hcalls, List.nil_append] at hmem
          exact absurd hmem (hnone datas)
    · rintro ⟨blocks, messages, rfl, hall, hdatas, hnonempty⟩
      have hblocks : blocks ≠ [] := by
        rintro rfl
        cases hall
        exact hnonempty hdatas
      have hrun := parse_all_messages clock hall [] ⟨true, {}, []⟩
      rw [List.append_nil, parse_all_nil, finish_messages] at hrun
      rw [parse_rtcp_packet_eq (flat_map_bytes_ne_nil hblocks), hrun] at hparse
      obtain rfl := Option.some.inj hparse
      exact List.mem_append_right _ (mem_hand_over.mpr ⟨hdatas, hnonempty⟩)

end IceTransport

end MiniRtc

import MiniRtc.Rtp.PacketParsing
import MiniRtc.Transport.ReliableDelivery

/-!
# Datagrams that do not parse

`Parse` writes the fields of a packet while it reads, and `Build` replaces the buffer only when it
succeeds. `rejected_cases` lists what a failed parse leaves behind, and `unchanged_iff_repeats` says
when this is the packet that was there before.

The two data channels do not look at the result of `Build`. They go on with a new packet without a
payload: KCP gets no bytes, but an unreliable channel passes the empty payload to the application.
-/

namespace MiniRtc

namespace RtpPacket

variable {p q r : RtpPacket} {read : Nat → Byte} {size : Nat}

/-! ## The exits of a parse -/

/-- The first twelve bytes are a header of the version. -/
structure StartsHeader (read : Nat → Byte) (size : Nat) : Prop where
  long : kFixedHeaderSize ≤ size
  version : (read 0 >>> 6) &&& 0x03 = kRtpVersion

/-- A header that is too short or of another version leaves no payload offset, and a cut list of
contributing sources leaves none of them. -/
theorem fixed_header_rejected (h : p.parseFixedHeader read size = (q, false)) :
    ¬ StartsHeader read size ∧ q.payloadOffset = 0 ∨ StartsHeader read size ∧
      size < kFixedHeaderSize + (read 0 &&& 0x0f).toNat * 4 ∧
        q = { p.fixed read with csrcs := [], payloadOffset := kFixedHeaderSize } := by
  have hcount : ¬ (read 0 &&& 0x0f).toNat > kMaxRtpCsrcSize := Nat.not_lt.mpr (csrc_count_le _)
  unfold parseFixedHeader at h
  by_cases hlong : size < kFixedHeaderSize
  · rw [if_pos hlong] at h
    rw [← (Prod.mk.inj h).1]
    exact Or.inl ⟨fun hstarts => absurd hstarts.long (Nat.not_le.mpr hlong), rfl⟩
  · rw [if_neg hlong] at h
    by_cases hversion : (read 0 >>> 6) &&& 0x03 = kRtpVersion
    · simp only [hversion, ne_eq, not_true_eq_false, if_false, hcount] at h
      by_cases hfits : kFixedHeaderSize + (read 0 &&& 0x0f).toNat * 4 > size
      · rw [if_pos hfits] at h
        refine Or.inr ⟨⟨Nat.not_lt.mp hlong, hversion⟩, hfits, ?_⟩
        rw [← (Prod.mk.inj h).1, fixed, hversion]
      · rw [if_neg hfits] at h
        cases (Prod.mk.inj h).2
    · simp only [ne_eq, hversion, not_false_eq_true, if_true] at h
      rw [← (Prod.mk.inj h).1]
      exact Or.inl ⟨fun hstarts => hversion hstarts.version, rfl⟩

/-- A cut extension block is not skipped. -/
theorem extension_block_rejected (h : r.parseExtensionBlock read size = (q, false)) :
    q.hasExtension = true ∧ q.csrcs = r.csrcs ∧
      q.payloadOffset < r.payloadOffset + (4 + 4 * q.extensionLen.toNat) := by
  unfold parseExtensionBlock at h
  cases hext : r.hasExtension with
  | false =>
      rw [hext] at h
      cases (Prod.mk.inj h).2
  | true =>
      rw [hext] at h
      simp only [Bool.not_true, Bool.false_eq_true, if_false] at h
      split_ifs at h with hprofile hlen hone hok hok
      · obtain rfl := (Prod.mk.inj h).1
        exact ⟨hext, rfl, by omega⟩
      · obtain rfl := (Prod.mk.inj h).1
        refine ⟨rfl, rfl, ?_⟩
        show r.payloadOffset + 4 <
          r.payloadOffset + (4 + 4 * (readUint16 read (r.payloadOffset + 2)).toNat)
        omega
      · obtain rfl := (Prod.mk.inj h).1
        refine ⟨rfl, rfl, ?_⟩
        show r.payloadOffset + 4 <
          r.payloadOffset + (4 + 4 * (readUint16 read (r.payloadOffset + 2)).toNat)
        by_contra hempty
        -- a block without words has no element that could be cut
        have hnone : (readUint16 read (r.payloadOffset + 2)).toNat = 0 := by omega
        rw [hnone] at hok
        exact Bool.false_ne_true hok
      · cases (Prod.mk.inj h).2
      · obtain rfl := (Prod.mk.inj h).1
        simp at hok
      · cases (Prod.mk.inj h).2

/-- The blocks in front of the payload fit. -/
theorem extended_fits {elements : List Extension} (hheader : HasFixedHeader read size)
    (hblock : (p.fixed read).HasExtensionBlock read size elements) :
    ((p.fixed read).extended read elements).payloadOffset ≤ size := by
  unfold HasExtensionBlock at hblock
  unfold extended
  by_cases hext : (p.fixed read).hasExtension = true
  · rw [if_pos hext] at hblock ⊢
    exact hblock.1
  · rw [if_neg hext]
    exact hheader.fits

/-- The extension block says nothing about padding. -/
theorem extended_has_padding {elements : List Extension} :
    ((p.fixed read).extended read elements).hasPadding = (read 0).getLsbD 5 := by
  unfold extended
  split <;> rfl

/-- Too much padding is counted. -/
theorem payload_rejected (hfits : r.payloadOffset ≤ size)
    (h : r.parsePayload read size = (q, false)) :
    r.hasPadding = true ∧ r.payloadOffset < size ∧
      size < r.payloadOffset + (read (size - 1)).toNat ∧
        q = { r with paddingSize := (read (size - 1)).toNat } := by
  unfold parsePayload at h
  by_cases hpad : r.hasPadding = true ∧ r.payloadOffset < size
  · simp only [hpad, and_self, if_true] at h
    split_ifs at h with hzero hover hover
    · exact absurd hover (by simp only [hzero]; omega)
    · cases (Prod.mk.inj h).2
    · exact ⟨hpad.1, hpad.2, hover, by rw [← (Prod.mk.inj h).1, hpad.1]⟩
    · cases (Prod.mk.inj h).2
  · simp only [hpad, if_false] at h
    split_ifs at h with hover
    · exact absurd hover (by omega)
    · cases (Prod.mk.inj h).2

/-- What a failed parse leaves behind: no payload offset, or one that is too small for the
contributing sources or for the extension block, or all of a packet except for the payload. -/
theorem rejected_cases (h : p.parse read size = (q, false)) :
    (¬ StartsHeader read size ∧ q.payloadOffset = 0) ∨
    (StartsHeader read size ∧ size < kFixedHeaderSize + (read 0 &&& 0x0f).toNat * 4 ∧
      q = { p.fixed read with csrcs := [], payloadOffset := kFixedHeaderSize }) ∨
    (HasFixedHeader read size ∧
      (∀ elements, ¬ (p.fixed read).HasExtensionBlock read size elements) ∧
        q.hasExtension = true ∧ q.payloadOffset <
          kFixedHeaderSize + 4 * q.csrcs.length + (4 + 4 * q.extensionLen.toNat)) ∨
    ∃ elements, HasFixedHeader read size ∧ (p.fixed read).HasExtensionBlock read size elements ∧
      (read 0).getLsbD 5 = true ∧
        q = { (p.fixed read).extended read elements with
          paddingSize := (read (size - 1)).toNat } := by
  unfold parse at h
  simp only at h
  split_ifs at h with hfixed hblock
  · rcases fixed_header_rejected (Prod.ext (Prod.mk.inj h).1 (by simpa using hfixed) :
      p.parseFixedHeader read size = (q, false)) with hnone | hcut
    · exact Or.inl hnone
    · exact Or.inr (Or.inl hcut)
  · obtain ⟨hheader, hafter⟩ := parse_fixed_header_iff.mp
      (Prod.ext rfl (by simpa using hfixed) : p.parseFixedHeader read size =
        ((p.parseFixedHeader read size).1, true))
    rw [← hafter] at h hblock
    obtain ⟨hext, hcsrcs, hoffset⟩ := extension_block_rejected
      (Prod.ext (Prod.mk.inj h).1 (by simpa using hblock))
    refine Or.inr (Or.inr (Or.inl ⟨hheader, fun elements hhas => ?_, hext,
      lt_of_lt_of_eq hoffset ?_⟩))
    · rw [(parse_extension_block_iff rfl).mpr ⟨elements, hhas, rfl⟩] at hblock
      exact Bool.false_ne_true hblock
    rw [hcsrcs]
    show kFixedHeaderSize + (read 0 &&& 0x0f).toNat * 4 + _ = _
    rw [show (p.fixed read).csrcs.length = (read 0 &&& 0x0f).toNat by simp [fixed], Nat.mul_comm]
  · obtain ⟨hheader, hafter⟩ := parse_fixed_header_iff.mp
      (Prod.ext rfl (by simpa using hfixed) : p.parseFixedHeader read size =
        ((p.parseFixedHeader read size).1, true))
    rw [← hafter] at h hblock
    obtain ⟨elements, hhas, hextended⟩ := (parse_extension_block_iff rfl).mp
      (Prod.ext rfl (by simpa using hblock) : (p.fixed read).parseExtensionBlock read size =
        (((p.fixed read).parseExtensionBlock read size).1, true))
    rw [← hextended] at h
    obtain ⟨hpad, -, -, hq⟩ := payload_rejected (extended_fits hheader hhas) h
    exact Or.inr (Or.inr (Or.inr ⟨elements, hheader, hhas, extended_has_padding ▸ hpad, hq⟩))

/-- The buffer is not touched. -/
theorem parse_buffer (p : RtpPacket) (read : Nat → Byte) (size : Nat) :
    (p.parse read size).1.buffer = p.buffer := by
  have hfixed : (p.parseFixedHeader read size).1.buffer = p.buffer := by
    unfold parseFixedHeader
    simp only
    split_ifs <;> rfl
  have hblock : ∀ r : RtpPacket, (r.parseExtensionBlock read size).1.buffer = r.buffer := by
    intro r
    unfold parseExtensionBlock
    simp only
    split_ifs <;> rfl
  have hpayload : ∀ r : RtpPacket, (r.parsePayload read size).1.buffer = r.buffer := by
    intro r
    unfold parsePayload
    simp only
    split_ifs <;> rfl
  unfold parse
  simp only
  split_ifs
  · exact hfixed
  · exact (hblock _).trans hfixed
  · exact (hpayload _).trans ((hblock _).trans hfixed)

/-! ## What a packet shows afterwards -/

/-- A packet up to the count of its contributing sources, which nobody can ask for. -/
def observed (p : RtpPacket) : RtpPacket :=
  { p with csrcCount := 0 }

theorem observed_eq_iff : q.observed = p.observed ↔
    (q.version = p.version ∧ q.hasPadding = p.hasPadding ∧ q.hasExtension = p.hasExtension ∧
      q.marker = p.marker ∧ q.payloadType = p.payloadType ∧
        q.sequenceNumber = p.sequenceNumber ∧ q.timestamp = p.timestamp ∧ q.ssrc = p.ssrc) ∧
    (q.csrcs = p.csrcs ∧ q.extensionProfile = p.extensionProfile ∧
      q.extensionLen = p.extensionLen ∧ q.extensions = p.extensions ∧
        q.payloadOffset = p.payloadOffset ∧ q.payloadSize = p.payloadSize ∧
          q.paddingSize = p.paddingSize) ∧ q.buffer = p.buffer ∧ q.size = p.size := by
  cases p
  cases q
  simp only [observed, RtpPacket.mk.injEq, true_and, and_assoc]

/-- The fixed header of a datagram has the values of a packet. -/
structure SameHeader (p : RtpPacket) (read : Nat → Byte) : Prop where
  hasPadding : (read 0).getLsbD 5 = p.hasPadding
  hasExtension : (read 0).getLsbD 4 = p.hasExtension
  marker : (read 1).getLsbD 7 = p.marker
  payloadType : read 1 &&& 0x7f = p.payloadType
  sequenceNumber : readUint16 read 2 = p.sequenceNumber
  timestamp : readUint32 read 4 = p.timestamp
  ssrc : readUint32 read 8 = p.ssrc

/-- And so have the contributing sources, the extension block and the count of the padding. -/
structure SameParts (p : RtpPacket) (read : Nat → Byte) (size : Nat) : Prop where
  fits : kFixedHeaderSize + (read 0 &&& 0x0f).toNat * 4 ≤ size
  csrcs : ((List.range (read 0 &&& 0x0f).toNat).map fun i =>
    readUint32 read (kFixedHeaderSize + i * 4)) = p.csrcs
  block : ({ p with payloadOffset := kFixedHeaderSize + p.csrcs.length * 4 } :
    RtpPacket).HasExtensionBlock read size p.extensions
  announced : p.hasExtension = true →
    readUint16 read (kFixedHeaderSize + p.csrcs.length * 4) = p.extensionProfile ∧
      readUint16 read (kFixedHeaderSize + p.csrcs.length * 4 + 2) = p.extensionLen
  padded : p.hasPadding = true
  padding : (read (size - 1)).toNat = p.paddingSize

/-- A datagram repeats a packet as far as it is read: up to contributing sources that are cut, of a
packet that has none and no extension block, or up to the padding. -/
def Repeats (p : RtpPacket) (read : Nat → Byte) (size : Nat) : Prop :=
  StartsHeader read size ∧ p.SameHeader read ∧
    (size < kFixedHeaderSize + (read 0 &&& 0x0f).toNat * 4 ∧ p.payloadOffset = kFixedHeaderSize ∨
      p.SameParts read size)

/-- A packet that holds a datagram has its version. -/
theorem version_of_held (h : p.Held) : p.version = kRtpVersion := by
  obtain ⟨elements, haccepts, hparsed⟩ := parse_iff.mp h.parse
  refine (congrArg version hparsed).symm.trans (Eq.trans ?_ haccepts.fixedHeader.version)
  unfold parsed extended
  split <;> rfl

/-- Only the offset of a block and the flag that announces it matter. -/
theorem has_extension_block_congr {elements : List Extension}
    (hext : q.hasExtension = p.hasExtension) (hoffset : q.payloadOffset = p.payloadOffset) :
    q.HasExtensionBlock read size elements ↔ p.HasExtensionBlock read size elements := by
  unfold HasExtensionBlock extensionWords
  rw [hext, hoffset]

/-- A packet whose payload follows the fixed header has nothing in between. -/
theorem nothing_between {buffer : List Byte} (h : p.Partitions buffer)
    (hoffset : p.payloadOffset = kFixedHeaderSize) :
    p.csrcs = [] ∧ p.hasExtension = false ∧ p.extensions = [] := by
  have hparts := h.offset
  have hcount := h.csrcs
  have hext : p.hasExtension = false := by
    by_contra hext
    rw [if_pos (by simpa using hext)] at hparts
    omega
  refine ⟨List.length_eq_zero_iff.mp (by omega), hext, ?_⟩
  refine List.eq_nil_iff_forall_not_mem.mpr fun e he => ?_
  exact Bool.false_ne_true (hext.symm.trans (h.inside e he).1)

/-- The packet is what it was when the contributing sources are cut, exactly when the header repeats
it. -/
theorem unchanged_of_cut_csrcs {buffer : List Byte} (hheld : p.Held) (hparts : p.Partitions buffer)
    (hstarts : StartsHeader read size)
    (hcut : size < kFixedHeaderSize + (read 0 &&& 0x0f).toNat * 4) :
    ({ p.fixed read with csrcs := [], payloadOffset := kFixedHeaderSize } : RtpPacket).observed =
      p.observed ↔ p.Repeats read size := by
  rw [observed_eq_iff]
  constructor
  · intro h
    obtain ⟨⟨-, hpad, hext, hmarker, htype, hseq, htime, hssrc⟩, ⟨-, -, -, -, hoffset, -, -⟩, -⟩ := h
    exact ⟨hstarts, ⟨hpad, hext, hmarker, htype, hseq, htime, hssrc⟩,
      Or.inl ⟨hcut, hoffset.symm⟩⟩
  · intro h
    obtain ⟨-, hsame, ⟨-, hoffset⟩ | hwhole⟩ := h
    · obtain ⟨hcsrcs, -, hextensions⟩ := nothing_between hparts hoffset
      exact ⟨⟨hstarts.version.trans (version_of_held hheld).symm, hsame.hasPadding,
        hsame.hasExtension, hsame.marker, hsame.payloadType, hsame.sequenceNumber, hsame.timestamp,
        hsame.ssrc⟩, ⟨hcsrcs.symm, rfl, rfl, hextensions.symm, hoffset.symm, rfl, rfl⟩, rfl, rfl⟩
    · exact absurd hwhole.fits (Nat.not_le.mpr hcut)

/-- A datagram has one list of elements. -/
theorem has_extension_block_unique {elements others : List Extension} (hnone : p.extensions = [])
    (h : p.HasExtensionBlock read size elements) (hothers : p.HasExtensionBlock read size others) :
    others = elements := by
  have hsame := (parse_extension_block_iff hnone).mpr ⟨elements, h, rfl⟩
  rw [(parse_extension_block_iff hnone).mpr ⟨others, hothers, rfl⟩] at hsame
  have hextended := congrArg extensions (Prod.mk.inj hsame).1
  unfold extended at hextended
  unfold HasExtensionBlock at h hothers
  by_cases hext : p.hasExtension = true
  · rwa [if_pos hext, if_pos hext] at hextended
  · rw [if_neg hext] at h hothers
    rw [h, hothers]

/-- The packet is what it was when the padding is too large, exactly when everything in front of it
and the count repeat it. -/
theorem unchanged_of_padding {buffer : List Byte} {elements : List Extension} (hheld : p.Held)
    (hparts : p.Partitions buffer) (hheader : HasFixedHeader read size)
    (hblock : (p.fixed read).HasExtensionBlock read size elements)
    (hpad : (read 0).getLsbD 5 = true) :
    ({ (p.fixed read).extended read elements with
      paddingSize := (read (size - 1)).toNat } : RtpPacket).observed = p.observed ↔
        p.Repeats read size := by
  have hstarts : StartsHeader read size :=
    ⟨(Nat.le_add_right _ _).trans hheader.fits, hheader.version⟩
  have hcount : (p.fixed read).csrcs.length = (read 0 &&& 0x0f).toNat := by simp [fixed]
  have hoffset : (p.fixed read).payloadOffset =
      kFixedHeaderSize + (p.fixed read).csrcs.length * 4 := by
    rw [hcount]
    rfl
  -- the block stands behind as many contributing sources as the packet has
  have hplace : (p.fixed read).csrcs = p.csrcs → (read 0).getLsbD 4 = p.hasExtension →
      ∀ others, (p.fixed read).HasExtensionBlock read size others ↔
        ({ p with payloadOffset := kFixedHeaderSize + p.csrcs.length * 4 } :
          RtpPacket).HasExtensionBlock read size others := fun hcsrcs hext others =>
    has_extension_block_congr hext (by rw [hoffset, hcsrcs])
  rw [observed_eq_iff]
  unfold extended
  by_cases hext : (p.fixed read).hasExtension = true
  · rw [if_pos hext]
    constructor
    · intro h
      obtain ⟨⟨-, hpadding, hext', hmarker, htype, hseq, htime, hssrc⟩,
        ⟨hcsrcs, hprofile, hlen, hextensions, -, -, hpaddingSize⟩, -⟩ := h
      have hwhere : (p.fixed read).payloadOffset = kFixedHeaderSize + p.csrcs.length * 4 :=
        hoffset.trans (by rw [hcsrcs])
      refine ⟨hstarts, ⟨hpadding, hext', hmarker, htype, hseq, htime, hssrc⟩, Or.inr
        ⟨hheader.fits, hcsrcs, ?_, fun _ => ?_, hpadding.symm.trans hpad, hpaddingSize⟩⟩
      · exact hextensions ▸ (hplace hcsrcs hext' elements).mp hblock
      · rw [← hwhere]
        exact ⟨hprofile, hlen⟩
    · intro h
      obtain ⟨-, hsame, ⟨hcut, -⟩ | hwhole⟩ := h
      · exact absurd hheader.fits (Nat.not_le.mpr hcut)
      · have hextensions := has_extension_block_unique rfl hblock
          ((hplace hwhole.csrcs hsame.hasExtension _).mpr hwhole.block)
        obtain ⟨hprofile, hlen⟩ := hwhole.announced (hsame.hasExtension.symm.trans hext)
        have hwhere : (p.fixed read).payloadOffset = kFixedHeaderSize + p.csrcs.length * 4 :=
          hoffset.trans (by rw [show (p.fixed read).csrcs = p.csrcs from hwhole.csrcs])
        rw [← hwhere] at hprofile hlen
        refine ⟨⟨hstarts.version.trans (version_of_held hheld).symm, hsame.hasPadding,
          hsame.hasExtension, hsame.marker, hsame.payloadType, hsame.sequenceNumber,
          hsame.timestamp, hsame.ssrc⟩, ⟨hwhole.csrcs, hprofile, hlen, hextensions.symm, ?_, rfl,
          hwhole.padding⟩, rfl, rfl⟩
        show (p.fixed read).payloadOffset + 4 +
          (readUint16 read ((p.fixed read).payloadOffset + 2)).toNat * 4 = p.payloadOffset
        rw [hlen, hwhere, hparts.offset, ← hparts.csrcs,
          if_pos (hsame.hasExtension.symm.trans hext)]
        omega
  · rw [if_neg hext]
    constructor
    · intro h
      obtain ⟨⟨-, hpadding, hext', hmarker, htype, hseq, htime, hssrc⟩,
        ⟨hcsrcs, -, -, hextensions, -, -, hpaddingSize⟩, -⟩ := h
      refine ⟨hstarts, ⟨hpadding, hext', hmarker, htype, hseq, htime, hssrc⟩, Or.inr
        ⟨hheader.fits, hcsrcs, ?_, fun hown => absurd (hext'.trans hown) hext,
          hpadding.symm.trans hpad, hpaddingSize⟩⟩
      refine (hplace hcsrcs hext' _).mp ?_
      unfold HasExtensionBlock
      rw [if_neg hext]
      exact hextensions.symm
    · intro h
      obtain ⟨-, hsame, ⟨hcut, -⟩ | hwhole⟩ := h
      · exact absurd hheader.fits (Nat.not_le.mpr hcut)
      · have hnone : ¬ p.hasExtension = true := fun hown => hext (hsame.hasExtension.trans hown)
        have hextensions : p.extensions = [] := by
          have hempty := hwhole.block
          unfold HasExtensionBlock at hempty
          rwa [if_neg (show ¬ ({ p with
            payloadOffset := kFixedHeaderSize + p.csrcs.length * 4 } :
              RtpPacket).hasExtension = true from hnone)] at hempty
        refine ⟨⟨hstarts.version.trans (version_of_held hheld).symm, hsame.hasPadding,
          hsame.hasExtension, hsame.marker, hsame.payloadType, hsame.sequenceNumber,
          hsame.timestamp, hsame.ssrc⟩, ⟨hwhole.csrcs, rfl, rfl, hextensions.symm, ?_, rfl,
          hwhole.padding⟩, rfl, rfl⟩
        show (p.fixed read).payloadOffset = p.payloadOffset
        rw [hoffset, show (p.fixed read).csrcs = p.csrcs from hwhole.csrcs, hparts.offset,
          ← hparts.csrcs, if_neg hnone]
        omega

/-- After a failed parse a packet shows what it showed before, exactly when the datagram repeats it
as far as it is read. -/
theorem unchanged_iff_repeats {buffer : List Byte} (hheld : p.Held)
    (h : (p.parse (byteAt buffer) buffer.length).2 = false) :
    (p.build buffer).1.observed = p.observed ↔ p.Repeats (byteAt buffer) buffer.length := by
  have hparts := partitions_of_parse hheld.parse
  have hbuild : (p.build buffer).1 = (p.parse (byteAt buffer) buffer.length).1 := by
    unfold build
    simp only [h, Bool.not_false, if_true]
  rw [hbuild]
  have hbehind : kFixedHeaderSize ≤ p.payloadOffset := by
    rw [hparts.offset]
    omega
  rcases rejected_cases (Prod.ext rfl h : p.parse (byteAt buffer) buffer.length =
    ((p.parse (byteAt buffer) buffer.length).1, false)) with
      ⟨hnone, hzero⟩ | ⟨hstarts, hcut, hq⟩ | ⟨hheader, hnone, hext, hshort⟩ |
        ⟨elements, hheader, hblock, hpad, hq⟩
  · refine iff_of_false (fun hsame => ?_) fun hrepeats => hnone hrepeats.1
    obtain ⟨-, ⟨-, -, -, -, hoffset, -⟩, -⟩ := observed_eq_iff.mp hsame
    unfold kFixedHeaderSize at hbehind
    omega
  · rw [hq]
    exact unchanged_of_cut_csrcs hheld hparts hstarts hcut
  · refine iff_of_false (fun hsame => ?_) fun hrepeats => ?_
    · obtain ⟨⟨-, -, hext', -⟩, ⟨hcsrcs, -, hlen, -, hoffset, -⟩, -⟩ := observed_eq_iff.mp hsame
      rw [hoffset, hcsrcs, hlen, hparts.csrcs, hparts.offset,
        if_pos (hext'.symm.trans hext)] at hshort
      exact absurd hshort (lt_irrefl _)
    · obtain ⟨-, hsame, ⟨hcut, -⟩ | hwhole⟩ := hrepeats
      · exact absurd hheader.fits (Nat.not_le.mpr hcut)
      · refine hnone p.extensions
          ((has_extension_block_congr hsame.hasExtension ?_).mpr hwhole.block)
        rw [← hwhole.csrcs, List.length_map, List.length_range]
        rfl
  · rw [hq]
    exact unchanged_of_padding hheld hparts hheader hblock hpad

end RtpPacket

/-! ## The data channels -/

/-- The calls of KCP that the data channels make. -/
structure Kcp (κ : Type) where
  /-- `ikcp_create` with the settings of `InitKcp`. -/
  create : Option κ
  input : κ → List Byte → κ × Int
  update : κ → κ
  /-- The loop of `TryReceiveKcpData`. -/
  receive : κ → κ × List KcpMessage

variable {κ : Type} (kcp : Kcp κ)

/-- What a datagram does to a data channel: its KCP afterwards, the bytes that `ikcp_input` got, and
what was passed to the application. -/
structure DatagramEffect (κ : Type) where
  state : Option κ
  fed : List Byte := []
  delivered : List KcpMessage := []

/-- `InitKcp`. -/
def Kcp.init (state : Option κ) : Option κ :=
  state.or kcp.create

/-- A `DataChannelReceive`: whether `Initialize` was called, and whether it has a callback. -/
structure DataReceiveChannel (κ : Type) where
  useReliable : Bool
  rtpDataReceiver : Bool
  onReceiveData : Bool
  state : Option κ

namespace DataReceiveChannel

variable (c : DataReceiveChannel κ)

/-- The function that `Initialize` hands to `SetOnReceiveData`. -/
def onPayload (data : List Byte) : DatagramEffect κ :=
  if !c.useReliable then
    { state := c.state, delivered := if c.onReceiveData then [data] else [] }
  else
    match kcp.init c.state with
    | none => { state := none }
    | some state =>
        let result := kcp.input state data
        if result.2 < 0 then { state := some result.1, fed := data }
        else
          let updated := kcp.update result.1
          if !c.onReceiveData then { state := some updated, fed := data }
          else
            let received := kcp.receive updated
            { state := some received.1, fed := data, delivered := received.2 }

/-- `RtpDataReceiver::InsertRtpPacket`. -/
def insertRtpPacket (rtpPacket : RtpPacket) : DatagramEffect κ :=
  c.onPayload kcp rtpPacket.payload

/-- `DataChannelReceive::OnReceiveRtpPacket`. -/
def onReceiveRtpPacket (data : List Byte) : DatagramEffect κ :=
  if c.rtpDataReceiver then c.insertRtpPacket kcp (({} : RtpPacket).build data).1
  else { state := c.state }

end DataReceiveChannel

/-- A `DataChannelSend`. -/
structure DataSendChannel (κ : Type) where
  useReliable : Bool
  state : Option κ

/-- `DataChannelSend::OnReceiveRtpPacket`. -/
def DataSendChannel.onReceiveRtpPacket (c : DataSendChannel κ) (data : List Byte) :
    DatagramEffect κ :=
  if !c.useReliable then { state := c.state }
  else
    match kcp.init c.state with
    | none => { state := none }
    | some state =>
        let payload := (({} : RtpPacket).build data).1.payload
        let result := kcp.input state payload
        if result.2 < 0 then { state := some result.1, fed := payload }
        else { state := some (kcp.update result.1), fed := payload }

variable {data : List Byte}

/-- A new packet that fails to parse has no payload. -/
theorem payload_of_rejected (h : (({} : RtpPacket).parse (byteAt data) data.length).2 = false) :
    (({} : RtpPacket).build data).1.payload = [] := by
  have hbuffer : (({} : RtpPacket).build data).1.buffer = [] := by
    unfold RtpPacket.build
    simp only [h, Bool.not_false, if_true]
    exact RtpPacket.parse_buffer ..
  unfold RtpPacket.payload
  rw [hbuffer, List.drop_nil, List.take_nil]

/-- Whether a datagram parses does not depend on the packet. -/
theorem rejected_any {p : RtpPacket} (q : RtpPacket)
    (h : (p.parse (byteAt data) data.length).2 = false) :
    (q.parse (byteAt data) data.length).2 = false := by
  by_contra haccepted
  obtain ⟨elements, haccepts, -⟩ := RtpPacket.parse_iff.mp
    (Prod.ext rfl (by simpa using haccepted) : q.parse (byteAt data) data.length =
      ((q.parse (byteAt data) data.length).1, true))
  rw [RtpPacket.parse_iff.mpr ⟨elements, RtpPacket.accepts_any haccepts p, rfl⟩] at h
  cases h

section Channels

variable (hrejected : (({} : RtpPacket).parse (byteAt data) data.length).2 = false)
include hrejected

/-- A sender gives KCP nothing of a datagram that does not parse. -/
theorem send_channel_fed (c : DataSendChannel κ) : (c.onReceiveRtpPacket kcp data).fed = [] := by
  unfold DataSendChannel.onReceiveRtpPacket
  rw [payload_of_rejected hrejected]
  split
  · rfl
  · cases kcp.init c.state with
    | none => rfl
    | some state =>
        simp only
        split <;> rfl

/-- So does a receiver. -/
theorem receive_channel_fed (c : DataReceiveChannel κ) :
    (c.onReceiveRtpPacket kcp data).fed = [] := by
  unfold DataReceiveChannel.onReceiveRtpPacket DataReceiveChannel.insertRtpPacket
    DataReceiveChannel.onPayload
  rw [payload_of_rejected hrejected]
  split
  · split
    · rfl
    · cases kcp.init c.state with
      | none => rfl
      | some state =>
          simp only
          split_ifs <;> rfl
  · rfl

/-- But an unreliable one passes an empty message to the application. -/
theorem receive_channel_delivered_iff (hshort : ∀ state, (kcp.input state []).2 < 0)
    (c : DataReceiveChannel κ) : (c.onReceiveRtpPacket kcp data).delivered = [] ↔
      c.useReliable = true ∨ c.rtpDataReceiver = false ∨ c.onReceiveData = false := by
  unfold DataReceiveChannel.onReceiveRtpPacket DataReceiveChannel.insertRtpPacket
    DataReceiveChannel.onPayload
  rw [payload_of_rejected hrejected]
  cases hreceiver : c.rtpDataReceiver with
  | false => exact iff_of_true rfl (Or.inr (Or.inl rfl))
  | true =>
      cases hreliable : c.useReliable with
      | false => cases c.onReceiveData <;> simp
      | true =>
          refine iff_of_true ?_ (Or.inl rfl)
          cases kcp.init c.state with
          | none => rfl
          | some state =>
              simp only [Bool.not_true, Bool.false_eq_true, if_false, if_true, hshort state]

end Channels

/-- A datagram that does not parse has no effect exactly when it repeats the packet that was built
before as far as it is read, and the receiving channel is reliable or has nobody to deliver to. KCP
refuses what is shorter than its header. -/
theorem malformed_no_effect_iff (hshort : ∀ state, (kcp.input state []).2 < 0)
    {old built : RtpPacket} {buffer : List Byte} (hbuilt : old.build buffer = (built, true))
    (updates : List RtpPacket.Update) {data : List Byte}
    (hrejected : ((updates.foldl RtpPacket.update built).parse (byteAt data) data.length).2 = false)
    (receiver : DataReceiveChannel κ) (sender : DataSendChannel κ) :
    (((updates.foldl RtpPacket.update built).build data).1.observed =
        (updates.foldl RtpPacket.update built).observed ∧
      (receiver.onReceiveRtpPacket kcp data).delivered = [] ∧
      (receiver.onReceiveRtpPacket kcp data).fed = [] ∧
      (sender.onReceiveRtpPacket kcp data).fed = []) ↔
    ((updates.foldl RtpPacket.update built).Repeats (byteAt data) data.length ∧
      (receiver.useReliable = true ∨ receiver.rtpDataReceiver = false ∨
        receiver.onReceiveData = false)) := by
  have hheld := RtpPacket.held_updates (RtpPacket.held_of_build hbuilt).1 updates
  have hnew := rejected_any {} hrejected
  have hfed := receive_channel_fed kcp hnew receiver
  have hsent := send_channel_fed kcp hnew sender
  rw [RtpPacket.unchanged_iff_repeats hheld hrejected,
    receive_channel_delivered_iff kcp hnew hshort receiver]
  exact ⟨fun h => ⟨h.1, h.2.1⟩, fun h => ⟨h.1, h.2, hfed, hsent⟩⟩

/-- KCP with a list of the datagrams that it has taken. -/
def kcpOfDatagrams : Kcp (List (List Byte)) where
  create := some []
  input := fun state data => if data.length < 24 then (state, -1) else (state ++ [data], 0)
  update := id
  receive := fun state => ([], state)

/-- A header that is repeated with a contributing source that is not there. -/
theorem repeated_header_no_effect :
    let built := (({} : RtpPacket).build [0x80, 0x7F, 0, 7, 0, 0, 0, 9, 0, 0, 0, 1, 0x55]).1
    let data : List Byte := [0x81, 0x7F, 0, 7, 0, 0, 0, 9, 0, 0, 0, 1, 0x55]
    (built.build data).1.observed = built.observed ∧
      (DataReceiveChannel.onReceiveRtpPacket kcpOfDatagrams ⟨true, true, true, none⟩
        data).delivered = [] := by
  intro built data
  have hbuilt : ({} : RtpPacket).build [0x80, 0x7F, 0, 7, 0, 0, 0, 9, 0, 0, 0, 1, 0x55] =
      (built, true) := by decide
  have hrejected : (built.parse (byteAt data) data.length).2 = false := by decide
  have hrepeats : built.Repeats (byteAt data) data.length :=
    ⟨⟨by decide, by decide⟩, ⟨by decide, by decide, by decide, by decide, by decide, by decide,
      by decide⟩, Or.inl ⟨by decide, by decide⟩⟩
  have h := (malformed_no_effect_iff kcpOfDatagrams (fun _ => show (-1 : Int) < 0 by decide) hbuilt
    [] hrejected ⟨true, true, true, none⟩ ⟨true, none⟩).mpr ⟨hrepeats, Or.inl rfl⟩
  exact ⟨h.1, h.2.1⟩

/-- A header with the next sequence number and a contributing source that is not there changes the
packet, and the application of an unreliable channel gets an empty message. -/
theorem malformed_has_effect :
    let built := (({} : RtpPacket).build [0x80, 0x7F, 0, 7, 0, 0, 0, 9, 0, 0, 0, 1, 0x55]).1
    let data : List Byte := [0x81, 0x7F, 0, 8, 0, 0, 0, 9, 0, 0, 0, 1, 0x55]
    let receiver : DataReceiveChannel (List (List Byte)) := ⟨false, true, true, none⟩
    (built.parse (byteAt data) data.length).2 = false ∧
      (built.build data).1.sequenceNumber ≠ built.sequenceNumber ∧
      (receiver.onReceiveRtpPacket kcpOfDatagrams data).delivered = [[]] ∧
      ¬ ((built.build data).1.observed = built.observed ∧
        (receiver.onReceiveRtpPacket kcpOfDatagrams data).delivered = []) := by
  refine ⟨by decide, by decide, by decide, fun h => ?_⟩
  exact absurd h.2 (by decide)

end MiniRtc

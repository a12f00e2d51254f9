import Mwan.L1Encoding.PacketEdit

/-!
# The hardware's NAT rewrite and its inverse (`native/src/packet.rs:415-552`)

The accelerator translates a packet before the worker receives it. It
replaces the addresses (and for IPv4 the ports) and keeps the checksums
right by the incremental rule; it leaves the MACs alone. When the worker has
to give a packet back to the kernel, `restore` undoes the translation from
the direction's original side.

Result: `restore_hardwareRewrite`, for every frame that `decode` accepts,
with any tags, options, extension headers, fragments and checksums.
-/
namespace Mwan.Native

open Mwan.Core Mwan.Core.Exec

/-! ## The hardware rewrite -/

/-- Both translated addresses, as they stand in an IPv4 header. -/
def translatedAddresses (direction : Direction) : Bytes :=
  head4 direction.translated.source ++ head4 direction.translated.destination

/-- The IPv4 header checksum the hardware writes. -/
def hardwareHeaderChecksum (view : ParsedPacket) (direction : Direction) (frame : Bytes) : UInt16 :=
  rfc1624 (wordAt frame (view.networkOffset + 10)) (slice frame (view.networkOffset + 12) 8)
    (translatedAddresses direction)

/-- The transport checksum the hardware writes and its offset. A zero UDP
checksum is none. -/
def hardwareTransportChecksum (view : ParsedPacket) (direction : Direction) (frame : Bytes) :
    Option (Nat × UInt16) :=
  match checksumField view with
  | none => none
  | some field =>
    let offset := view.transportOffset + field
    let checksum := wordAt frame offset
    let updated := rfc1624 checksum
      (slice frame (view.networkOffset + 12) 8 ++ slice frame view.transportOffset 4)
      (translatedAddresses direction ++ portBytes direction.translated)
    if view.tuple.protocol = protocolUdp then
      if checksum = 0 then none else some (offset, udpChecksum updated)
    else some (offset, updated)

/-- The header part of the IPv4 rewrite: checksum and addresses. -/
def hardwareRewriteHeader (view : ParsedPacket) (direction : Direction) (frame : Bytes) : Bytes :=
  splice
    (splice frame (view.networkOffset + 10) (toBe (hardwareHeaderChecksum view direction frame)))
    (view.networkOffset + 12) (translatedAddresses direction)

/-- The IPv4 rewrite. A packet without ports has no transport header to
rewrite. -/
def hardwareRewriteIpv4 (view : ParsedPacket) (direction : Direction) (frame : Bytes) : Bytes :=
  let rewritten := hardwareRewriteHeader view direction frame
  if view.ports then
    let rewritten := match hardwareTransportChecksum view direction frame with
      | some (offset, checksum) => splice rewritten offset (toBe checksum)
      | none => rewritten
    splice rewritten view.transportOffset (portBytes direction.translated)
  else rewritten

/-- What the hardware's rule for `direction` does to a frame with this view. -/
def hardwareRewrite (view : ParsedPacket) (direction : Direction) (frame : Bytes) : Bytes :=
  if view.tuple.family = familyIpv4 then hardwareRewriteIpv4 view direction frame
  else
    splice (splice frame (view.networkOffset + 8) direction.translated.source.toList)
      (view.networkOffset + 24) direction.translated.destination.toList

/-! ## The frame given back -/

/-- The bytes of an address field that the family uses. -/
def addressBytes (family : UInt8) (address : Addr) : Bytes :=
  if family = familyIpv4 then head4 address else address.toList

/-- The original side of `direction` is the packet's own: its family,
addresses and MACs, and its ports when it has them. -/
structure Carries (direction : Direction) (view : ParsedPacket) : Prop where
  original : direction.original.family = view.tuple.family
  translated : direction.translated.family = view.tuple.family
  source : addressBytes view.tuple.family direction.original.source =
    addressBytes view.tuple.family view.tuple.source
  destination : addressBytes view.tuple.family direction.original.destination =
    addressBytes view.tuple.family view.tuple.destination
  sourceMac : direction.originalSourceMac = view.sourceMac
  destinationMac : direction.originalDestinationMac = view.destinationMac
  ports : view.ports = true → direction.original.sourcePort = view.tuple.sourcePort ∧
    direction.original.destinationPort = view.tuple.destinationPort

/-- The frame with the field at `offset` in its positive form. -/
def positiveZeroAt (frame : Bytes) (offset : Nat) : Bytes :=
  splice frame offset (toBe (positiveZero (wordAt frame offset)))

/-- The frame as `restore` gives it back: an IPv4 header checksum or TCP
checksum of `0xffff` has become `0x0000`, every other byte is the same. -/
def restoredFrame (view : ParsedPacket) (frame : Bytes) : Bytes :=
  if view.tuple.family = familyIpv4 then
    let header := positiveZeroAt frame (view.networkOffset + 10)
    if view.ports = true ∧ view.tuple.protocol = protocolTcp ∧ 18 ≤ view.transportLength then
      positiveZeroAt header (view.transportOffset + 16)
    else header
  else frame

/-! ## What the rewritten frame holds -/

/-- The bytes the IPv4 rewrite may change. -/
def Touched (view : ParsedPacket) (i : Nat) : Prop :=
  (view.networkOffset + 10 ≤ i ∧ i < view.networkOffset + 20) ∨
  (view.ports = true ∧ ((view.transportOffset ≤ i ∧ i < view.transportOffset + 4) ∨
    ∃ field, checksumField view = some field ∧
      view.transportOffset + field ≤ i ∧ i < view.transportOffset + field + 2))

/-- What the rewritten frame holds where `restore` reads it. -/
structure Rewritten (view : ParsedPacket) (direction : Direction) (frame rewritten : Bytes) :
    Prop where
  agree : AgreeOn (fun i => ¬ Touched view i) rewritten frame
  header : slice rewritten (view.networkOffset + 10) 2 =
    toBe (hardwareHeaderChecksum view direction frame)
  ports : view.ports = true →
    slice rewritten view.transportOffset 4 = portBytes direction.translated
  transport : view.ports = true → ∀ field, checksumField view = some field →
    slice rewritten (view.transportOffset + field) 2 =
      match hardwareTransportChecksum view direction frame with
      | some (_, checksum) => toBe checksum
      | none => slice frame (view.transportOffset + field) 2

variable {view : ParsedPacket} {direction : Direction} {frame : Bytes}

theorem hardwareTransportChecksum_offset {offset : Nat} {checksum : UInt16}
    (h : hardwareTransportChecksum view direction frame = some (offset, checksum)) :
    ∃ field, checksumField view = some field ∧ offset = view.transportOffset + field := by
  unfold hardwareTransportChecksum at h
  cases hf : checksumField view with
  | none => rw [hf] at h; cases h
  | some field =>
    rw [hf] at h
    refine ⟨field, rfl, ?_⟩
    simp only at h
    split at h
    · split at h
      · cases h
      · simp only [Option.some.injEq, Prod.mk.injEq] at h; exact h.1.symm
    · simp only [Option.some.injEq, Prod.mk.injEq] at h; exact h.1.symm

theorem hardwareRewriteHeader_spec (direction : Direction)
    (hb : view.networkOffset + 20 ≤ frame.length) :
    AgreeOn (fun i => ¬ (view.networkOffset + 10 ≤ i ∧ i < view.networkOffset + 20))
        (hardwareRewriteHeader view direction frame) frame ∧
      slice (hardwareRewriteHeader view direction frame) (view.networkOffset + 10) 2 =
        toBe (hardwareHeaderChecksum view direction frame) := by
  obtain ⟨hagree, hheader, -⟩ := splice_two frame
    (length_toBe (hardwareHeaderChecksum view direction frame))
    (show (translatedAddresses direction).length = 8 by simp [translatedAddresses]) (show view.networkOffset + 10 + 2 ≤ _ by omega)
    (show view.networkOffset + 12 + 8 ≤ _ by omega) (.inl (by omega))
  exact ⟨hagree.mono fun i hi => by omega, hheader⟩

theorem hardwareRewriteIpv4_spec (direction : Direction) (hl : Layout frame view)
    (h4 : Ipv4Layout frame view) :
    Rewritten view direction frame (hardwareRewriteIpv4 view direction frame) := by
  have hto := hl.transportOffset; have hcap := hl.captured; have hih := h4.header
  obtain ⟨hagree, hheader⟩ := @hardwareRewriteHeader_spec view frame direction (by omega)
  unfold hardwareRewriteIpv4
  generalize hardwareRewriteHeader view direction frame = a at hagree hheader ⊢
  have hla := hagree.1
  have h2 := length_portBytes direction.translated
  by_cases hp : view.ports = true
  · have hmin := (hl.ports hp).1
    simp only [hp, if_true]
    cases hw : hardwareTransportChecksum view direction frame with
    | none =>
      have hb : view.transportOffset + (portBytes direction.translated).length ≤ a.length := by omega
      refine ⟨(hagree.splice_left _ _ hb).mono ?_, ?_, fun _ => slice_splice_self _ _ _ hb, ?_⟩
      · intro i hi
        exact ⟨fun h => hi (.inl h), fun h => hi (.inr ⟨hp, .inl (by omega)⟩)⟩
      · rw [slice_splice_disjoint _ _ _ hb _ _ (by omega), hheader]
      · intro _ field hf
        have hbound := checksumField_bound hf
        rw [hw, slice_splice_disjoint _ _ _ hb _ _ (by omega)]
        exact hagree.slice_eq _ _ fun i _ _ => by omega
    | some t =>
      obtain ⟨offset, checksum⟩ := t
      obtain ⟨field, hf, rfl⟩ := hardwareTransportChecksum_offset hw
      have hbound := checksumField_bound hf
      have hlc := length_toBe checksum
      have hb1 : view.transportOffset + field + (toBe checksum).length ≤ a.length := by omega
      have hl1 := length_splice a _ _ hb1
      have hb : view.transportOffset + (portBytes direction.translated).length ≤
        (splice a (view.transportOffset + field) (toBe checksum)).length := by omega
      refine ⟨((hagree.splice_left _ _ hb1).splice_left _ _ hb).mono ?_, ?_,
        fun _ => slice_splice_self _ _ _ hb, ?_⟩
      · intro i hi
        exact ⟨⟨fun h => hi (.inl h), fun h => hi (.inr ⟨hp, .inr ⟨field, hf, by omega⟩⟩)⟩,
          fun h => hi (.inr ⟨hp, .inl (by omega)⟩)⟩
      · rw [slice_splice_disjoint _ _ _ hb _ _ (by omega),
          slice_splice_disjoint _ _ _ hb1 _ _ (by omega), hheader]
      · intro _ field' hf'
        obtain rfl : field = field' := Option.some.inj (hf.symm.trans hf')
        rw [hw, slice_splice_disjoint _ _ _ hb _ _ (by omega)]
        exact slice_splice_self _ _ _ hb1
  · simp only [hp]
    exact ⟨hagree.mono fun i hi h => hi (.inl h), hheader, fun h => absurd h hp,
      fun h => absurd h hp⟩

theorem structural_not_touched (hl : Layout frame view) (hf : view.tuple.family = familyIpv4)
    (h4 : Ipv4Layout frame view) (i : Nat) (h : Structural view i) : ¬ Touched view i := by
  have h2 := hl.transportOffset; have hih := h4.header
  have hne : ¬ view.tuple.family = familyIpv6 := by rw [hf]; decide
  have hi : i < view.networkOffset + 10 ∨ i = view.transportOffset + 13 := by
    rcases h with h | ⟨-, h⟩ | ⟨h6, -⟩ | h
    · omega
    · omega
    · exact absurd h6 hne
    · exact .inr h
  rintro (ht | ⟨-, ht | ⟨field, hfield, ht⟩⟩)
  · omega
  · omega
  · have := checksumField_eq_some hfield
    omega

/-! ## What the frame given back holds -/

/-- What the frame given back holds where it may differ. -/
structure Restored (view : ParsedPacket) (frame restored : Bytes) : Prop where
  agree : AgreeOn (fun i => ¬ (view.networkOffset + 10 ≤ i ∧ i < view.networkOffset + 12) ∧
    ¬ (view.ports = true ∧ checksumField view = some 16 ∧
      view.transportOffset + 16 ≤ i ∧ i < view.transportOffset + 18)) restored frame
  header : slice restored (view.networkOffset + 10) 2 =
    toBe (positiveZero (wordAt frame (view.networkOffset + 10)))
  transport : view.ports = true → checksumField view = some 16 →
    slice restored (view.transportOffset + 16) 2 =
      toBe (positiveZero (wordAt frame (view.transportOffset + 16)))

theorem restoredFrame_spec (hl : Layout frame view) (hf : view.tuple.family = familyIpv4)
    (h4 : Ipv4Layout frame view) :
    Restored view frame (restoredFrame view frame) := by
  have hto := hl.transportOffset; have hcap := hl.captured; have hih := h4.header
  unfold restoredFrame positiveZeroAt
  simp only [hf, if_true]
  generalize hc : positiveZero (wordAt frame (view.networkOffset + 10)) = checksum
  have hlc := length_toBe checksum
  have hb1 : view.networkOffset + 10 + (toBe checksum).length ≤ frame.length := by omega
  have hself := slice_splice_self _ _ _ hb1
  have hagree := (AgreeOn.refl (fun _ => True) frame).splice_left _ _ hb1
  by_cases ht : view.ports = true ∧ view.tuple.protocol = protocolTcp ∧ 18 ≤ view.transportLength
  · have h16 : checksumField view = some 16 := if_pos ht.2
    have hword : wordAt (splice frame (view.networkOffset + 10) (toBe checksum))
        (view.transportOffset + 16) = wordAt frame (view.transportOffset + 16) :=
      wordAt_agree hagree _ ⟨trivial, by omega⟩ ⟨trivial, by omega⟩
    rw [if_pos ht, hword]
    obtain ⟨hboth, hheader, htcp⟩ := splice_two frame hlc
      (length_toBe (positiveZero (wordAt frame (view.transportOffset + 16))))
      (show view.networkOffset + 10 + 2 ≤ _ by omega)
      (show view.transportOffset + 16 + 2 ≤ _ by omega) (.inl (by omega))
    exact ⟨hboth.mono fun i hi => ⟨hi.1, fun h => hi.2 ⟨ht.1, h16, by omega⟩⟩, hc ▸ hheader,
      fun _ _ => htcp⟩
  · rw [if_neg ht]
    have hnot : ¬ (view.ports = true ∧ checksumField view = some 16) := by
      rintro ⟨hp, h16⟩
      rcases checksumField_eq_some h16 with ⟨h1, h2, -⟩ | ⟨-, -, h6⟩
      · exact ht ⟨hp, h1, h2⟩
      · omega
    refine ⟨hagree.mono fun i hi => ⟨trivial, by omega⟩, by rw [hc]; exact hself,
      fun hp h16 => absurd ⟨hp, h16⟩ hnot⟩

/-- The addresses and ports of an accepted frame, as the inverse pieces hold
them. -/
theorem Carries.pieces (hd : Carries direction view) (hl : Layout frame view)
    (hf : view.tuple.family = familyIpv4) (h4 : Ipv4Layout frame view) :
    head4 direction.original.source = slice frame (view.networkOffset + 12) 4 ∧
      head4 direction.original.destination = slice frame (view.networkOffset + 16) 4 ∧
      (view.ports = true → portBytes direction.original = slice frame view.transportOffset 4) := by
  have hs := hd.source; have hdst := hd.destination
  simp only [addressBytes, hf, if_true] at hs hdst
  refine ⟨hs.trans h4.source, hdst.trans h4.destination, fun hp => ?_⟩
  obtain ⟨hmin, hsp, hdp⟩ := hl.ports hp
  obtain ⟨h1, h2⟩ := hd.ports hp
  have hcap := hl.captured
  rw [portBytes, h1, h2, hsp, hdp, toBe_wordAt (by omega), toBe_wordAt (by omega)]
  exact (slice_add frame view.transportOffset 2 2).symm

/-! ## The IPv4 inverse -/

theorem beforeAll_transportPieces (direction : Direction) :
    beforeAll (transportPieces direction) =
      translatedAddresses direction ++ portBytes direction.translated := by
  simp [beforeAll, transportPieces, addressPieces, addressPiece, portsPiece, translatedAddresses]

theorem afterAll_transportPieces
    (hs : head4 direction.original.source = slice frame (view.networkOffset + 12) 4)
    (hd : head4 direction.original.destination = slice frame (view.networkOffset + 16) 4)
    (hp : portBytes direction.original = slice frame view.transportOffset 4) :
    afterAll (transportPieces direction) =
      slice frame (view.networkOffset + 12) 8 ++ slice frame view.transportOffset 4 := by
  rw [show (8 : Nat) = 4 + 4 from rfl, slice_add]
  simp [afterAll, transportPieces, addressPieces, addressPiece, portsPiece, hs, hd, hp]

variable {rewritten : Bytes}

/-- The transport checksum `restore` computes over the rewritten frame is the
one of the frame given back; where it computes none the hardware wrote none. -/
theorem restoredChecksum_spec (hd : Carries direction view) (hl : Layout frame view)
    (hf : view.tuple.family = familyIpv4) (h4 : Ipv4Layout frame view)
    (hw : Rewritten view direction frame rewritten) (hports : view.ports = true) {field : Nat}
    (hfield : checksumField view = some field) :
    match restoredChecksum view direction rewritten with
    | some (offset, checksum) => offset = view.transportOffset + field ∧
        slice (restoredFrame view frame) offset 2 = toBe checksum
    | none => slice (restoredFrame view frame) (view.transportOffset + field) 2 =
        slice rewritten (view.transportOffset + field) 2 := by
  have hcap := hl.captured; have hto := hl.transportOffset; have hih := h4.header
  have hbound := checksumField_bound hfield
  have hr := restoredFrame_spec hl hf h4
  obtain ⟨hps, hpd, hpp⟩ := hd.pieces hl hf h4
  have hafter := afterAll_transportPieces hps hpd (hpp hports)
  have hbefore := beforeAll_transportPieces direction
  have hlen : rewritten.length = frame.length := hw.agree.1
  have htransport := hw.transport hports field hfield
  rcases checksumField_eq_some hfield with ⟨htcp, -, rfl⟩ | ⟨hudp, -, rfl⟩
  · have hne : ¬ view.tuple.protocol = protocolUdp := by rw [htcp]; decide
    simp only [hardwareTransportChecksum, hfield, hne, if_false] at htransport
    simp only [restoredChecksum, hports, hfield, hne, if_true, if_false, true_and]
    rw [wordAt_of_slice (by omega) htransport, hr.transport hports hfield, ← hafter, ← hbefore]
    exact congrArg toBe (replacePieces_rfc1624 _ _ _).symm
  · have hgoal : slice (restoredFrame view frame) (view.transportOffset + 6) 2 =
        slice frame (view.transportOffset + 6) 2 :=
      hr.agree.slice_eq _ _ fun i _ _ => ⟨by omega, fun h => by
        have := Option.some.inj (hfield.symm.trans h.2.1); omega⟩
    simp only [hardwareTransportChecksum, hfield, hudp, if_true] at htransport
    simp only [restoredChecksum, hports, hfield, hudp, if_true]
    by_cases hz : wordAt frame (view.transportOffset + 6) = 0
    · simp only [hz, if_true] at htransport
      have hword : wordAt rewritten (view.transportOffset + 6) = 0 :=
        wordAt_of_slice (by omega) (by rw [htransport, ← toBe_wordAt (by omega), hz])
      simp only [hword, if_true]
      rw [hgoal, htransport]
    · simp only [hz, if_false] at htransport
      have hword := wordAt_of_slice (by omega) htransport
      have hne : wordAt rewritten (view.transportOffset + 6) ≠ 0 := by
        rw [hword]; unfold udpChecksum; split
        · decide
        · assumption
      simp only [hne, if_false, true_and]
      rw [hgoal, ← toBe_wordAt (by omega), hword, ← hafter, ← hbefore, replacePieces_udp _ hz]

section Ipv4Inverse

variable {view : ParsedPacket} {frame rewritten : Bytes} {direction : Direction}
  (hd : Carries direction view) (hl : Layout frame view)
  (hf : view.tuple.family = familyIpv4) (h4 : Ipv4Layout frame view)
  (hw : Rewritten view direction frame rewritten)

include hd hl hf h4 hw

theorem restoredFrame_header :
    slice (restoredFrame view frame) (view.networkOffset + 10) 2 =
      toBe (replacePieces (wordAt rewritten (view.networkOffset + 10))
        (addressPieces direction)) := by
  obtain ⟨hps, hpd, -⟩ := hd.pieces hl hf h4
  have hafter : afterAll (addressPieces direction) = slice frame (view.networkOffset + 12) 8 := by
    rw [show (8 : Nat) = 4 + 4 from rfl, slice_add]
    simp [afterAll, addressPieces, addressPiece, hps, hpd]
  have hbefore : beforeAll (addressPieces direction) = translatedAddresses direction := by
    simp [beforeAll, addressPieces, addressPiece, translatedAddresses]
  have hlen : rewritten.length = frame.length := hw.agree.1
  have hto := hl.transportOffset; have hcap := hl.captured; have hih := h4.header
  rw [(restoredFrame_spec hl hf h4).header, wordAt_of_slice (by omega) hw.header,
    hardwareHeaderChecksum, ← hafter, ← hbefore]
  exact congrArg toBe (replacePieces_rfc1624 _ _ _).symm

/-- The rewritten frame is the one given back outside what `restore` writes:
a transport checksum that is not written back was not rewritten. -/
theorem rewritten_agree :
    AgreeOn (fun i => ¬ ((view.networkOffset + 10 ≤ i ∧ i < view.networkOffset + 20) ∨
      (∃ offset c, restoredChecksum view direction rewritten = some (offset, c) ∧
        offset ≤ i ∧ i < offset + 2) ∨
      (view.ports = true ∧ view.transportOffset ≤ i ∧ i < view.transportOffset + 4)))
      rewritten (restoredFrame view frame) := by
  have hr := restoredFrame_spec hl hf h4
  refine ⟨hw.agree.1.trans hr.agree.1.symm, fun i hi => ?_⟩
  by_cases hfield : view.ports = true ∧ ∃ field, checksumField view = some field ∧
      view.transportOffset + field ≤ i ∧ i < view.transportOffset + field + 2
  · obtain ⟨hp, field, hfield, h1, h2⟩ := hfield
    have hspec := restoredChecksum_spec hd hl hf h4 hw hp hfield
    cases hrc : restoredChecksum view direction rewritten with
    | none =>
      rw [hrc] at hspec
      exact (getElem?_eq_of_slice_eq hspec h1 h2).symm
    | some t =>
      rw [hrc] at hspec
      exact absurd (.inr (.inl ⟨t.1, t.2, hrc, by omega⟩)) hi
  · have hnt : ¬ Touched view i := by
      rintro (h | ⟨hp, h | h⟩)
      · exact hi (.inl h)
      · exact hi (.inr (.inr ⟨hp, h⟩))
      · exact hfield ⟨hp, h⟩
    refine (hw.agree.2 i hnt).trans (hr.agree.2 i ⟨fun h => hi (.inl (by omega)), ?_⟩).symm
    exact fun h => hfield ⟨h.1, 16, h.2.1, by omega⟩

theorem restoreIpv4_rewritten :
    ∃ r, restoreIpv4 view direction rewritten = .ok () r ∧
      AgreeOn (fun _ => True) r (restoredFrame view frame) := by
  have hto := hl.transportOffset; have hcap := hl.captured; have hih := h4.header
  have hr := restoredFrame_spec hl hf h4
  obtain ⟨hps, hpd, hpp⟩ := hd.pieces hl hf h4
  have hlen : rewritten.length = frame.length := hw.agree.1
  have hlen' : (restoredFrame view frame).length = frame.length := hr.agree.1
  obtain ⟨r, hrun, hagree⟩ := @writeIpv4_writesBack (restoredFrame view frame) _ view direction _
    (restoredChecksum view direction rewritten) (by omega) (restoredFrame_header hd hl hf h4 hw)
    (by rw [hps]; exact hr.agree.slice_eq _ _ fun i _ _ => by omega)
    (by rw [hpd]; exact hr.agree.slice_eq _ _ fun i _ _ => by omega)
    (fun offset c ht => by
      obtain ⟨hp, field, hfield⟩ := restoredChecksum_eq_some ht
      have hspec := restoredChecksum_spec hd hl hf h4 hw hp hfield
      have hbound := checksumField_bound hfield
      rw [ht] at hspec
      exact ⟨by omega, hspec.2⟩)
    (fun hp => by
      have h4t := (hl.ports hp).1
      refine ⟨by omega, ?_⟩
      rw [hpp hp]
      refine hr.agree.slice_eq _ _ fun i _ _ => ⟨by omega, fun h => by omega⟩)
    rewritten (rewritten_agree hd hl hf h4 hw)
  refine ⟨r, (restoreIpv4_eq_ok _ _ _ _ (by omega)).mpr ⟨_, _, ?_, hrun⟩, hagree.mono ?_⟩
  · exact inverseTransportChecksum_run view direction rewritten (by omega)
      fun hp => ⟨(hl.ports hp).1, hw.ports hp⟩
  · intro i _
    exact or_iff_not_imp_left.mpr not_not.mp

end Ipv4Inverse

/-! ## The IPv6 inverse -/

theorem hardwareRewrite_ipv6_agree (direction : Direction)
    (hb : view.networkOffset + 40 ≤ frame.length) :
    AgreeOn (fun i => ¬ (view.networkOffset + 8 ≤ i ∧ i < view.networkOffset + 40))
      (splice (splice frame (view.networkOffset + 8) direction.translated.source.toList)
        (view.networkOffset + 24) direction.translated.destination.toList) frame := by
  have hlength (a : Addr) : a.toList.length = 16 := Vector.length_toList
  exact (splice_two frame (hlength _) (hlength _) (by omega) (by omega) (.inl (by omega))).1.mono
    fun i hi => by omega

/-- Writing both original addresses into a frame that agrees elsewhere gives
the frame back. -/
theorem splice_addresses (hd : Carries direction view) (hf : view.tuple.family = familyIpv6)
    (h6 : Ipv6Layout frame view) (hb : view.networkOffset + 40 ≤ frame.length)
    (ha : AgreeOn (fun i => ¬ (view.networkOffset + 8 ≤ i ∧ i < view.networkOffset + 40))
      rewritten frame) :
    splice (splice rewritten (view.networkOffset + 8) direction.original.source.toList)
      (view.networkOffset + 24) direction.original.destination.toList = frame := by
  have hne : ¬ view.tuple.family = familyIpv4 := by rw [hf]; decide
  have hs := hd.source; have hdst := hd.destination
  simp only [addressBytes, hne, if_false] at hs hdst
  have h1 : direction.original.source.toList.length = 16 := Vector.length_toList
  have h2 : direction.original.destination.toList.length = 16 := Vector.length_toList
  have hlen := ha.1
  have hb1 : view.networkOffset + 8 + direction.original.source.toList.length ≤ rewritten.length := by
    omega
  have hsource : slice frame (view.networkOffset + 8) direction.original.source.toList.length =
      direction.original.source.toList := by
    rw [h1, slice_eq_ofFn _ _ _ (by omega), hs, h6.source]
  have hdestination : slice frame (view.networkOffset + 24)
      direction.original.destination.toList.length = direction.original.destination.toList := by
    rw [h2, slice_eq_ofFn _ _ _ (by omega), hdst, h6.destination]
  have hl1 := length_splice _ _ _ hb1
  refine ((ha.splice_back _ _ hb1 hsource).splice_back _ _ (by omega) hdestination).eq
    fun i _ => ?_
  rw [h1, h2]
  omega

/-! ## `restore` inverts the hardware rewrite -/

/-- Writing the frame's own MACs changes nothing. -/
theorem splice_macs {goal : Bytes} (hd : Carries direction view) (hl : Layout frame view)
    (ha : AgreeOn (fun i => i < 12) goal frame) :
    splice (splice goal 0 direction.originalDestinationMac.toList) 6
      direction.originalSourceMac.toList = goal := by
  have h1 := hl.networkOffset; have h2 := hl.transportOffset; have h3 := hl.captured
  have hlen := ha.1
  have hdm : direction.originalDestinationMac.toList = slice goal 0 6 := by
    rw [hd.destinationMac, hl.destinationMac, ← slice_eq_ofFn _ _ _ (by omega)]
    exact (ha.slice_eq 0 6 fun i _ _ => by omega).symm
  have hsm : direction.originalSourceMac.toList = slice goal 6 6 := by
    rw [hd.sourceMac, hl.sourceMac, ← slice_eq_ofFn _ _ _ (by omega)]
    exact (ha.slice_eq 6 6 fun i _ _ => by omega).symm
  rw [hdm, splice_slice _ _ _ (by omega), hsm, splice_slice _ _ _ (by omega)]

/-- `restore` is the exact inverse of the hardware rewrite: for every frame
that `decode` accepts and every direction whose original side is the frame's,
the rewritten frame decodes, `restore` succeeds on it and gives the frame
back, with an IPv4 header or TCP checksum of `0xffff` as `0x0000`. -/
theorem restore_hardwareRewrite (frame : Bytes) (view : ParsedPacket) (direction : Direction)
    (h : decode frame = .ok view) (hd : Carries direction view) :
    ∃ view', decode (hardwareRewrite view direction frame) = .ok view' ∧
      restore view' direction (hardwareRewrite view direction frame) =
        .ok () (restoredFrame view frame) := by
  obtain ⟨hl, ⟨hf, h4⟩ | ⟨hf, h6⟩⟩ := decode_layout h
  · have h1 := hl.networkOffset
    have hw := hardwareRewriteIpv4_spec direction hl h4
    have hr := restoredFrame_spec hl hf h4
    have hrw : hardwareRewrite view direction frame = hardwareRewriteIpv4 view direction frame :=
      if_pos hf
    rw [hrw]
    obtain ⟨view', hdec, hs⟩ := decode_transfer h
      (hw.agree.symm.mono (structural_not_touched hl hf h4))
    have h2 := hl.transportOffset; have h3 := hl.captured; have hih := h4.header
    have hlen := hw.agree.1
    refine ⟨view', hdec, restore_shape hs _ _ _ (by omega) ((restore_eq_ok ..).mpr ⟨?_, ?_⟩)⟩
    · rw [hlen]; exact hl.editValid hd.original hd.translated
    · obtain ⟨r, hrun, hagree⟩ := restoreIpv4_rewritten hd hl hf h4 hw
      obtain rfl : r = restoredFrame view frame := hagree.eq fun _ _ => trivial
      have hlen := hr.agree.1
      refine ⟨_, .inl ⟨hf, hrun⟩, by omega, (splice_macs hd hl ?_).symm⟩
      exact hr.agree.mono fun i hi => by omega
  · have h1 := hl.networkOffset; have h2 := hl.transportOffset; have h3 := hl.captured
    have hih := h6.header
    have hne : ¬ view.tuple.family = familyIpv4 := by rw [hf]; decide
    have hrw : hardwareRewrite view direction frame = _ := if_neg hne
    have hgoal : restoredFrame view frame = frame := if_neg hne
    have hb : view.networkOffset + 40 ≤ frame.length := by omega
    have ha := hardwareRewrite_ipv6_agree direction hb
    rw [← hrw] at ha
    obtain ⟨view', hdec, hs⟩ := decode_transfer h (ha.symm.mono fun i hi => by
      rcases hi with hi | ⟨h4, -⟩ | ⟨-, hi⟩ | hi
      · omega
      · exact absurd h4 hne
      · omega
      · omega)
    have hlen := ha.1
    refine ⟨view', hdec, restore_shape hs _ _ _ (by omega)
      ((restore_eq_ok ..).mpr ⟨?_, frame, ?_, by omega, ?_⟩)⟩
    · rw [hlen]; exact hl.editValid hd.original hd.translated
    · exact .inr ⟨hf, by omega, (splice_addresses hd hf h6 hb ha).symm⟩
    · rw [hgoal]; exact (splice_macs hd hl (.refl _ _)).symm

/-- A TCP segment from 10.0.0.1:1000 to 10.0.0.2:80 whose header checksum is
the negative zero. -/
def segment : Bytes :=
  [2, 0, 0, 0, 0, 1, 2, 0, 0, 0, 0, 2, 8, 0,
    0x45, 0, 0, 40, 0, 1, 0, 0, 64, 6, 0xff, 0xff, 10, 0, 0, 1, 10, 0, 0, 2,
    3, 232, 0, 80, 0, 0, 0, 1, 0, 0, 0, 1, 0x50, 0x10, 1, 0, 0x12, 0x34, 0, 0]

/-- The rule that gives it another source address and port. -/
def segmentDirection : Direction :=
  { original := { family := 4, protocol := 6, source := #v[10, 0, 0, 1, 0, 0, 0, 0, 0, 0, 0, 0, 0, 0, 0, 0],
                  destination := #v[10, 0, 0, 2, 0, 0, 0, 0, 0, 0, 0, 0, 0, 0, 0, 0],
                  sourcePort := 1000, destinationPort := 80 }
    translated := { family := 4, protocol := 6, source := #v[192, 0, 2, 1, 0, 0, 0, 0, 0, 0, 0, 0, 0, 0, 0, 0],
                    destination := #v[10, 0, 0, 2, 0, 0, 0, 0, 0, 0, 0, 0, 0, 0, 0, 0],
                    sourcePort := 2000, destinationPort := 80 }
    originalSourceMac := #v[2, 0, 0, 0, 0, 2]
    originalDestinationMac := #v[2, 0, 0, 0, 0, 1] }

/-- Its view. -/
def segmentView : ParsedPacket :=
  { tuple := segmentDirection.original
    networkOffset := 14, ipHeaderLength := 20, transportOffset := 34, transportLength := 20
    networkLength := 40, ttl := 64, flags := 0x10, ports := true, etherType := 0x0800
    sourceMac := #v[2, 0, 0, 0, 0, 2], destinationMac := #v[2, 0, 0, 0, 0, 1]
    ipv4Checksum := 0xffff, frameLength := 54, ethernetValid := true }

theorem restore_hardwareRewrite_segment :
    restoredFrame segmentView segment = positiveZeroAt segment 24 ∧
      ∃ view', decode (hardwareRewrite segmentView segmentDirection segment) = .ok view' ∧
        restore view' segmentDirection (hardwareRewrite segmentView segmentDirection segment) =
          .ok () (restoredFrame segmentView segment) :=
  ⟨by decide +kernel, restore_hardwareRewrite segment segmentView segmentDirection
    (by decide +kernel) ⟨rfl, rfl, rfl, rfl, rfl, rfl, fun _ => ⟨rfl, rfl⟩⟩⟩

end Mwan.Native

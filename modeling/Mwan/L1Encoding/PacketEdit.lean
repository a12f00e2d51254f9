import Mwan.L1Encoding.PacketChecksum

/-!
# The packet edits (`native/src/packet.rs:415-552, 649-693`)

`restore` reads everything it needs before its first write, so a succeeding
run is a chain of overwrites whose ranges and values are known.

Results:
* `validateEdit_eq_ok`, `restoreIpv4_eq_ok`, `restore_eq_ok`: the runs that
  succeed and the frame they leave.
* `inverseTransportChecksum_run`: the transport checksum `restore` writes.
* `WritesBack`: what an edit that writes a goal frame's own bytes achieves,
  with one rule per construct; `writeIpv4_writesBack` is the IPv4 case.
* `restore_shape`: a run depends on the view only through its shape.
-/
namespace Mwan.Native

open Mwan.Core Mwan.Core.Exec Option

/-- Both ports of a tuple, on the wire. -/
def portBytes (tuple : Tuple) : Bytes := toBe tuple.sourcePort ++ toBe tuple.destinationPort

@[simp] theorem length_head4 (a : Addr) : (head4 a).length = 4 := by simp [head4]

@[simp] theorem length_portBytes (t : Tuple) : (portBytes t).length = 4 := rfl

theorem toBe_wordAt {b : Bytes} {i : Nat} (h : i + 2 ≤ b.length) :
    toBe (wordAt b i) = slice b i 2 := by
  rw [wordAt, toBe_ofBe, slice_eq_ofFn b i 2 h]
  simp [arrayAt, Vector.toList_ofFn]

theorem wordAt_of_slice {b : Bytes} {i : Nat} {x : UInt16} (h : i + 2 ≤ b.length)
    (hx : slice b i 2 = toBe x) : wordAt b i = x := by
  rw [← toBe_wordAt h] at hx
  have h1 := wordSum_toBe (wordAt b i)
  rw [hx, wordSum_toBe] at h1
  exact (UInt16.toNat_inj.mp h1).symm

/-! ## Writing back -/

variable (view : ParsedPacket)

variable {bytes : Bytes}

theorem writeBytes_run {offset : Nat} {frame : Bytes} (h : offset + bytes.length ≤ frame.length) :
    writeBytes offset bytes view frame = .ok () (splice frame offset bytes) := by
  change (if _ then _ else _ : Editor Unit) frame = _
  rw [if_pos h]; rfl

theorem writeBytes_eq_ok (offset : Nat) (bytes : Bytes) (view : ParsedPacket) (frame r : Bytes)
    (a : Unit) : writeBytes offset bytes view frame = .ok a r ↔
      offset + bytes.length ≤ frame.length ∧ r = splice frame offset bytes := by
  by_cases h : offset + bytes.length ≤ frame.length
  · rw [writeBytes_run view h]; simp [h, eq_comm]
  · change (if _ then _ else _ : Editor Unit) frame = _ ↔ _
    rw [if_neg h]
    simp [h, throw_eq_ok]

/-- From any frame that agrees with `goal` on `P`, `edit` succeeds and leaves
a frame that agrees with `goal` on `Q`. -/
def WritesBack (goal : Bytes) (P : Nat → Prop) (edit : Editor Unit) (Q : Nat → Prop) : Prop :=
  ∀ frame, AgreeOn P frame goal → ∃ frame', edit frame = .ok () frame' ∧ AgreeOn Q frame' goal

variable {goal : Bytes} {P Q R : Nat → Prop} {edit : Editor Unit}

theorem WritesBack.bind {next : Unit → Editor Unit} (h : WritesBack goal P edit Q)
    (hn : WritesBack goal Q (next ()) R) :
    WritesBack goal P (edit >>= next) R := by
  intro frame hf
  obtain ⟨frame', he, hf'⟩ := h frame hf
  obtain ⟨frame'', hn, hf''⟩ := hn frame' hf'
  exact ⟨frame'', (bind_eq_ok ..).mpr ⟨(), frame', he, hn⟩, hf''⟩

theorem WritesBack.write {offset : Nat} (hb : offset + bytes.length ≤ goal.length)
    (hn : slice goal offset bytes.length = bytes) :
    WritesBack goal P (writeBytes offset bytes view)
      (fun i => P i ∨ (offset ≤ i ∧ i < offset + bytes.length)) := by
  intro frame hf
  have hb' : offset + bytes.length ≤ frame.length := hf.1 ▸ hb
  exact ⟨_, writeBytes_run view hb', hf.splice_back offset bytes hb' hn⟩

theorem WritesBack.weaken (h : WritesBack goal P edit Q) (hR : ∀ i, R i → Q i) :
    WritesBack goal P edit R := by
  intro frame hf
  obtain ⟨frame', he, hf'⟩ := h frame hf
  exact ⟨frame', he, hf'.mono hR⟩

/-! ## Validation -/

theorem readRange_ne_none (b : Bytes) (o l : Nat) : readRange b o l ≠ none ↔ o + l ≤ b.length := by
  unfold readRange; split <;> simp_all

/-- The checks of `validate_edit`. -/
structure EditValid (view : ParsedPacket) (direction : Direction) (length : Nat) : Prop where
  frameLength : length = view.frameLength
  ethernetValid : view.ethernetValid = true
  ethernet : 14 ≤ length
  header : view.networkOffset + view.ipHeaderLength ≤ length
  transport : view.transportOffset + view.transportLength ≤ length
  original : direction.original.family = view.tuple.family
  translated : direction.translated.family = view.tuple.family

variable (direction : Direction) (frame : Bytes)

theorem validateEdit_eq_ok (u : Bytes) (a : Unit) : validateEdit view direction frame = .ok a u ↔
      EditValid view direction frame.length ∧ u = frame := by
  simp only [validateEdit, bind_eq_ok, get_eq_ok, and_assoc, exists_and_left, exists_eq_left,
    ite_eq_ok, throw_eq_ok, pure_eq_ok, and_false, false_or, true_and]
  refine and_congr_left fun _ => ⟨fun h => ?_, fun h => ?_⟩
  · simp only [not_or, not_not, ← ne_eq, readRange_ne_none] at h
    obtain ⟨h1, h2, h3, h4, h5, h6, h7⟩ := h
    exact ⟨h1, h2, h3, h4, h5, h6, h7⟩
  · obtain ⟨h1, h2, h3, h4, h5, h6, h7⟩ := h
    simp only [not_or, not_not, ← ne_eq, readRange_ne_none]
    exact ⟨h1, h2, by simpa [ETHERNET_HEADER_LENGTH] using h3, h4, h5, h6, h7⟩

theorem Layout.editValid {frame : Bytes} {view : ParsedPacket} {direction : Direction}
    (hl : Layout frame view) (ho : direction.original.family = view.tuple.family)
    (ht : direction.translated.family = view.tuple.family) :
    EditValid view direction frame.length := by
  have h1 := hl.networkOffset; have h2 := hl.transportOffset; have h3 := hl.captured
  exact ⟨hl.frameLength.symm, hl.ethernetValid, by omega, by omega, h3, ho, ht⟩

/-! ## The transport checksum -/

/-- A translated address replaced by the original one. -/
def addressPiece (translated original : Addr) : Piece :=
  ⟨head4 translated, head4 original, by simp, by simp, by simp⟩

/-- The translated ports replaced by the original ones. -/
def portsPiece (direction : Direction) : Piece :=
  ⟨portBytes direction.translated, portBytes direction.original, by simp, by simp, by simp⟩

/-- The pieces of the IPv4 header checksum. -/
def addressPieces (direction : Direction) : List Piece :=
  [addressPiece direction.translated.source direction.original.source,
    addressPiece direction.translated.destination direction.original.destination]

/-- The pieces of the transport checksum. -/
def transportPieces (direction : Direction) : List Piece :=
  addressPieces direction ++ [portsPiece direction]

theorem checksumReplace_addresses (c : UInt16) (direction : Direction) :
    (do
      let checksum ← checksumReplace c (head4 direction.translated.source)
        (head4 direction.original.source)
      checksumReplace checksum (head4 direction.translated.destination)
        (head4 direction.original.destination)) = some (replacePieces c (addressPieces direction)) := by
  rw [checksumReplace_eq _ _ _ (by simp) (by simp), bind_eq_bind, bind_some,
    checksumReplace_eq _ _ _ (by simp) (by simp)]
  rfl

theorem checksumReplace_transport (c : UInt16) (direction : Direction) :
    (do
      let value ← checksumReplace c (head4 direction.translated.source)
        (head4 direction.original.source)
      let value ← checksumReplace value (head4 direction.translated.destination)
        (head4 direction.original.destination)
      checksumReplace value (portBytes direction.translated) (portBytes direction.original)) =
      some (replacePieces c (transportPieces direction)) := by
  rw [checksumReplace_eq _ _ _ (by simp) (by simp), bind_eq_bind, bind_some,
    checksumReplace_eq _ _ _ (by simp) (by simp), bind_some,
    checksumReplace_eq _ _ _ (by simp) (by simp)]
  rfl

/-- The transport checksum `restore` writes over a frame whose ports are the
translated ones. -/
def restoredChecksum (view : ParsedPacket) (direction : Direction) (frame : Bytes) :
    Option (Nat × UInt16) :=
  if view.ports then
    match checksumField view with
    | none => none
    | some field =>
      let checksum := wordAt frame (view.transportOffset + field)
      let restored := replacePieces checksum (transportPieces direction)
      if view.tuple.protocol = protocolUdp then
        if checksum = 0 then none else some (view.transportOffset + field, udpChecksum restored)
      else some (view.transportOffset + field, restored)
  else none

theorem checksumField_eq_some {view : ParsedPacket} {field : Nat}
    (h : checksumField view = some field) :
    (view.tuple.protocol = protocolTcp ∧ 18 ≤ view.transportLength ∧ field = 16) ∨
      (view.tuple.protocol = protocolUdp ∧ 8 ≤ view.transportLength ∧ field = 6) := by
  unfold checksumField at h
  split at h
  · next h' => exact .inl ⟨h'.1, h'.2, (some.inj h).symm⟩
  · split at h
    · next h' => exact .inr ⟨h'.1, h'.2, (some.inj h).symm⟩
    · cases h

theorem checksumField_bound {view : ParsedPacket} {field : Nat} (h : checksumField view = some field) :
    field + 2 ≤ view.transportLength ∧ 4 ≤ field := by
  unfold checksumField UDP_HEADER_LENGTH at h
  split at h
  · obtain rfl := some.inj h; omega
  · split at h
    · obtain rfl := some.inj h; omega
    · cases h

theorem restoredChecksum_eq_some {view : ParsedPacket} {direction : Direction} {frame : Bytes}
    {t : Nat × UInt16} (h : restoredChecksum view direction frame = some t) :
    view.ports = true ∧ ∃ field, checksumField view = some field := by
  unfold restoredChecksum at h
  split at h
  · next hp =>
    cases hf : checksumField view with
    | none => rw [hf] at h; cases h
    | some field => exact ⟨hp, field, rfl⟩
  · cases h

theorem orError_eq_ok {α : Type} (o : Option α) (a : α) (s t : Bytes) :
    orError view o s = .ok a t ↔ o = some a ∧ t = s := by
  cases o with
  | none => simp [orError, throw_eq_ok]
  | some b => simp [orError, pure_eq_ok, eq_comm]

theorem inverseTransportChecksum_run
    (hb : view.transportOffset + view.transportLength ≤ frame.length)
    (hp : view.ports = true → 4 ≤ view.transportLength ∧
      slice frame view.transportOffset 4 = portBytes direction.translated) :
    inverseTransportChecksum view direction (portBytes direction.original) frame =
      .ok (restoredChecksum view direction frame) frame := by
  unfold inverseTransportChecksum restoredChecksum
  by_cases hports : view.ports = true
  · obtain ⟨h4, hs⟩ := hp hports
    cases hf : checksumField view with
    | none => simp [hports, pure_eq_ok]
    | some field =>
      have hbound := checksumField_bound hf
      have hr : readRange frame view.transportOffset 4 = some (portBytes direction.translated) :=
        (readRange_eq_some ..).mpr ⟨by omega, hs.symm⟩
      simp only [hports, Bool.not_true, Bool.false_eq_true, if_false, if_true, bind_eq_ok, get_eq_ok,
        orError_eq_ok, exists_eq_left, and_assoc, exists_and_left, readU16_eq_some, ite_eq_ok,
        pure_eq_ok, length_portBytes, hr, some.injEq, exists_eq_left',
        checksumReplace_transport]
      refine ⟨by omega, ?_⟩
      by_cases hu : view.tuple.protocol = protocolUdp
      · by_cases hz : wordAt frame (view.transportOffset + field) = 0 <;> simp [hu, hz, udpChecksum]
      · simp [hu]
  · simp [hports, pure_eq_ok]

/-! ## The IPv4 writes -/

/-- The write of the transport checksum, when there is one. -/
def writeTransport (view : ParsedPacket) : Option (Nat × UInt16) → Editor Unit
  | some (offset, checksum) => writeBytes offset (toBe checksum) view
  | none => pure ()

/-- The write of the ports, when there are any. -/
def writePorts (view : ParsedPacket) (ports : Bytes) : Editor Unit :=
  if view.ports then writeBytes view.transportOffset ports view else pure ()

/-- The writes of `restore_ipv4`, behind its reads. -/
def writeIpv4 (view : ParsedPacket) (direction : Direction) (checksum : UInt16)
    (transport : Option (Nat × UInt16)) : Editor Unit := do
  writeBytes (view.networkOffset + 10) (toBe checksum) view
  writeTransport view transport
  writeBytes (view.networkOffset + 12) (head4 direction.original.source) view
  writeBytes (view.networkOffset + 16) (head4 direction.original.destination) view
  writePorts view (portBytes direction.original)

theorem restoreIpv4_eq_ok (r : Bytes) (hb : view.networkOffset + 12 ≤ frame.length) :
    restoreIpv4 view direction frame = .ok () r ↔ ∃ transport u,
      inverseTransportChecksum view direction (portBytes direction.original) frame =
        .ok transport u ∧
      writeIpv4 view direction
        (replacePieces (wordAt frame (view.networkOffset + 10)) (addressPieces direction))
        transport u = .ok () r := by
  simp only [restoreIpv4, bind_eq_ok, get_eq_ok, orError_eq_ok, exists_eq_left, and_assoc,
    exists_and_left, readU16_eq_some, checksumReplace_addresses, some.injEq,
    exists_eq_left', show view.networkOffset + 10 + 2 ≤ frame.length by omega, true_and]
  refine exists_congr fun t => exists_congr fun u => and_congr_right fun _ => ?_
  rcases t with - | ⟨o, c⟩ <;> simp [writeIpv4, writeTransport, writePorts, portBytes, bind_eq_ok]

theorem writeIpv4_writesBack {view : ParsedPacket} {direction : Direction} {checksum : UInt16}
    {transport : Option (Nat × UInt16)} (hb : view.networkOffset + 20 ≤ goal.length)
    (hck : slice goal (view.networkOffset + 10) 2 = toBe checksum)
    (hs : slice goal (view.networkOffset + 12) 4 = head4 direction.original.source)
    (hd : slice goal (view.networkOffset + 16) 4 = head4 direction.original.destination)
    (ht : ∀ offset c, transport = some (offset, c) →
      offset + 2 ≤ goal.length ∧ slice goal offset 2 = toBe c)
    (hp : view.ports = true → view.transportOffset + 4 ≤ goal.length ∧
      slice goal view.transportOffset 4 = portBytes direction.original) :
    WritesBack goal P (writeIpv4 view direction checksum transport)
      (fun i => P i ∨ (view.networkOffset + 10 ≤ i ∧ i < view.networkOffset + 20) ∨
        (∃ offset c, transport = some (offset, c) ∧ offset ≤ i ∧ i < offset + 2) ∨
        (view.ports = true ∧ view.transportOffset ≤ i ∧ i < view.transportOffset + 4)) := by
  have hT : ∀ P, WritesBack goal P (writeTransport view transport)
      (fun i => P i ∨ ∃ offset c, transport = some (offset, c) ∧ offset ≤ i ∧ i < offset + 2) := by
    intro P
    rcases transport with - | ⟨offset, c⟩
    · exact fun frame hf => ⟨frame, rfl, hf.mono fun i hi => by simpa using hi⟩
    · obtain ⟨hb, hc⟩ := ht offset c rfl
      refine (WritesBack.write view (by rwa [length_toBe]) hc).weaken fun i hi => ?_
      simpa using hi
  have hE : ∀ P, WritesBack goal P (writePorts view (portBytes direction.original))
      (fun i => P i ∨
        (view.ports = true ∧ view.transportOffset ≤ i ∧ i < view.transportOffset + 4)) := by
    intro P
    by_cases hports : view.ports = true
    · obtain ⟨hb, hc⟩ := hp hports
      rw [writePorts, if_pos hports]
      exact (WritesBack.write view (by rwa [length_portBytes]) hc).weaken fun i hi => by
        simpa [hports] using hi
    · rw [writePorts, if_neg hports]
      exact fun frame hf => ⟨frame, rfl, hf.mono fun i hi => by simpa [hports] using hi⟩
  refine (((WritesBack.write view (by rw [length_toBe]; omega) hck).bind ((hT _).bind
    ((WritesBack.write view (by rw [length_head4]; omega) (by rw [length_head4]; exact hs)).bind
      ((WritesBack.write view (by rw [length_head4]; omega) (by rw [length_head4]; exact hd)).bind
        (hE _)))))).weaken fun i hi => ?_
  simp only [length_toBe, length_head4]
  rcases hi with hi | hi | hi | hi
  · exact .inl (.inl (.inl (.inl (.inl hi))))
  · by_cases h12 : i < view.networkOffset + 12
    · exact .inl (.inl (.inl (.inl (.inr (by omega)))))
    · by_cases h16 : i < view.networkOffset + 16
      · exact .inl (.inl (.inr (by omega)))
      · exact .inl (.inr (by omega))
  · exact .inl (.inl (.inl (.inr hi)))
  · exact .inr hi

/-! ## `restore` -/

/-- The succeeding runs of `restore`. -/
theorem restore_eq_ok (r : Bytes) :
    restore view direction frame = .ok () r ↔ EditValid view direction frame.length ∧
      ∃ u, ((view.tuple.family = familyIpv4 ∧ restoreIpv4 view direction frame = .ok () u) ∨
        (view.tuple.family = familyIpv6 ∧ view.networkOffset + 40 ≤ frame.length ∧
          u = splice (splice frame (view.networkOffset + 8) direction.original.source.toList)
            (view.networkOffset + 24) direction.original.destination.toList)) ∧
        12 ≤ u.length ∧ r = splice (splice u 0 direction.originalDestinationMac.toList) 6
          direction.originalSourceMac.toList := by
  simp only [restore, bind_eq_ok, ite_eq_ok, throw_eq_ok, writeBytes_eq_ok, validateEdit_eq_ok,
    ETHERNET_ADDRESS_LENGTH, and_assoc, exists_and_left, exists_eq_left, exists_const, false_and,
    and_false, or_false]
  have hmac : ∀ (u : Bytes), 6 ≤ u.length →
      (splice u 0 direction.originalDestinationMac.toList).length = u.length := fun u hu =>
    length_splice _ _ _ (by simpa using hu)
  have hsource : view.networkOffset + 24 ≤ frame.length →
      (splice frame (view.networkOffset + 8) direction.original.source.toList).length =
        frame.length := fun h => length_splice _ _ _ (by simpa using h)
  refine and_congr_right fun _ => ⟨?_, ?_⟩
  · rintro (⟨h4, _, u, hu, hb, hb', rfl⟩ | ⟨-, h6, h1, h2, hb, hb', rfl⟩)
    · rw [Vector.length_toList, Nat.zero_add] at hb
      rw [hmac u hb, Vector.length_toList] at hb'
      exact ⟨u, .inl ⟨h4, hu⟩, hb', rfl⟩
    · rw [Vector.length_toList] at h1
      rw [hsource h1, Vector.length_toList] at h2
      rw [Vector.length_toList, Nat.zero_add] at hb
      rw [hmac _ hb, Vector.length_toList] at hb'
      exact ⟨_, .inr ⟨h6, h2, rfl⟩, hb', rfl⟩
  · rintro ⟨u, ⟨h4, hu⟩ | ⟨h6, h2, rfl⟩, hb, rfl⟩
    · exact .inl ⟨h4, (), u, hu, by rw [Vector.length_toList]; omega,
        by rw [hmac u (by omega), Vector.length_toList]; omega, rfl⟩
    · refine .inr ⟨by rw [h6]; decide, h6, by rw [Vector.length_toList]; omega,
        by rw [hsource (by omega), Vector.length_toList]; omega,
        by rw [Vector.length_toList]; omega,
        by rw [hmac _ (by omega), Vector.length_toList]; omega, rfl⟩

variable {view' : ParsedPacket}

/-! ## Shapes

A shape blanks out what only the errors report. -/

theorem inverseTransportChecksum_shape (ports : Bytes) (t : Option (Nat × UInt16)) (u : Bytes) :
    inverseTransportChecksum view.shape direction ports frame = .ok t u ↔
      inverseTransportChecksum view direction ports frame = .ok t u := by
  have hfield : checksumField view.shape = checksumField view := rfl
  unfold inverseTransportChecksum
  rw [hfield]
  cases checksumField view with
  | none => exact Iff.rfl
  | some =>
    simp only [bind_eq_ok, ite_eq_ok, orError_eq_ok]
    exact Iff.rfl

theorem writeIpv4_shape (checksum : UInt16) (t : Option (Nat × UInt16)) (u r : Bytes) :
    writeIpv4 view.shape direction checksum t u = .ok () r ↔
      writeIpv4 view direction checksum t u = .ok () r := by
  rcases t with - | ⟨o, c⟩ <;>
  · simp only [writeIpv4, writeTransport, writePorts, bind_eq_ok, writeBytes_eq_ok, ite_eq_ok]
    exact Iff.rfl

theorem restore_shape {view : ParsedPacket} (hs : view.shape = view'.shape) (direction : Direction)
    (frame r : Bytes) (hb : view.networkOffset + 12 ≤ frame.length)
    (h : restore view direction frame = .ok () r) :
    restore view' direction frame = .ok () r := by
  have hshape (v : ParsedPacket) (hb : v.networkOffset + 12 ≤ frame.length) :
      restore v.shape direction frame = .ok () r ↔ restore v direction frame = .ok () r := by
    have hvalid : EditValid v.shape direction frame.length ↔ EditValid v direction frame.length :=
      ⟨fun h => { h with }, fun h => { h with }⟩
    simp only [restore_eq_ok, hvalid, restoreIpv4_eq_ok _ _ _ _ hb,
      restoreIpv4_eq_ok v.shape _ _ _ hb, inverseTransportChecksum_shape, writeIpv4_shape]
    exact Iff.rfl
  rw [← hshape, ← hs, hshape view hb]
  · exact h
  · exact (congrArg ParsedPacket.networkOffset hs) ▸ hb

end Mwan.Native

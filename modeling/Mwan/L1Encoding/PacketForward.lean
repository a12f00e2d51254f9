import Mwan.L1Encoding.PacketEdit

/-!
# Undoing a prepared packet (`native/src/packet.rs:554-647`)

`forward` lowers the hop limit and writes the MACs of the egress port;
`restore_forwarded` checks what `forward` wrote, takes it back and goes on as
`restore`. What `restore` leaves does not depend on the MACs it overwrites, so
the two together are `restore` of the frame that was received.

Results:
* `Steady`: an edit that succeeds and cannot tell frames apart that agree on a
  part; one rule for each construct;
* `restore_steady`: `restore` is one, for the part behind the MACs;
* `restoreForwarded_forward`: what `forward` has done to a decoded frame can be
  undone, and the result is that of `restore`.
-/
namespace Mwan.Native

open Mwan.Core Mwan.Core.Exec

/-! ## Steady edits -/

variable {offset : Nat}

section Steady

variable {α β : Type} {n : Nat} {P : Nat → Prop}

/-- From frames of length `n` that agree on `P` the edit succeeds with one
result, which satisfies `Q`, and leaves frames that agree on `P`. -/
def Steady (n : Nat) (P : Nat → Prop) (edit : Editor α) (Q : α → Prop) : Prop :=
  ∀ f g, f.length = n → AgreeOn P f g →
    ∃ a f' g', edit f = .ok a f' ∧ edit g = .ok a g' ∧ Q a ∧ f'.length = n ∧ AgreeOn P f' g'

variable {Q : β → Prop}

theorem Steady.pure {b : β} (h : Q b) : Steady n P (Pure.pure b : Editor β) Q :=
  fun f g hn hfg => ⟨b, f, g, rfl, rfl, h, hn, hfg⟩

variable {next : α → Editor β}

theorem Steady.bind {edit : Editor α} {R : α → Prop} (h : Steady n P edit R)
    (hnext : ∀ a, R a → Steady n P (next a) Q) :
    Steady n P (edit >>= next) Q := by
  intro f g hn hfg
  obtain ⟨a, f', g', hf, hg, ha, hn', hfg'⟩ := h f g hn hfg
  obtain ⟨b, f'', g'', hf', hg', h⟩ := hnext a ha f' g' hn' hfg'
  exact ⟨b, f'', g'', (bind_eq_ok ..).mpr ⟨a, f', hf, hf'⟩, (bind_eq_ok ..).mpr ⟨a, g', hg, hg'⟩, h⟩

/-- The frame is read, but only where the frames agree. -/
theorem Steady.get {next : Bytes → Editor β}
    (hread : ∀ f g, f.length = n → AgreeOn P f g → next f = next g)
    (hnext : ∀ f, f.length = n → Steady n P (next f) Q) :
    Steady n P (MonadState.get >>= next) Q := by
  intro f g hn hfg
  obtain ⟨b, f', g', hf, hg, h⟩ := hnext f hn f g hn hfg
  refine ⟨b, f', g', (bind_eq_ok ..).mpr ⟨f, f, rfl, hf⟩, (bind_eq_ok ..).mpr ⟨g, g, rfl, ?_⟩, h⟩
  rw [← hread f g hn hfg]
  exact hg

theorem Steady.orError {o : Option α} (view : ParsedPacket) {a : α} (ho : o = some a)
    (hnext : Steady n P (next a) Q) :
    Steady n P (Native.orError view o >>= next) Q := by
  rw [ho]
  exact hnext

theorem Steady.write {bytes : Bytes} (view : ParsedPacket) (hb : offset + bytes.length ≤ n) :
    Steady n P (writeBytes offset bytes view) fun _ => True := by
  intro f g hn hfg
  have hf : offset + bytes.length ≤ f.length := hn ▸ hb
  have hg : offset + bytes.length ≤ g.length := hfg.1 ▸ hf
  refine ⟨(), _, _, writeBytes_run view hf, writeBytes_run view hg, trivial, ?_, ?_, fun i hi => ?_⟩
  · rw [length_splice _ _ _ hf, hn]
  · rw [length_splice _ _ _ hf, length_splice _ _ _ hg, hfg.1]
  · rw [getElem?_splice _ _ _ hf, getElem?_splice _ _ _ hg, hfg.2 i hi]

end Steady

/-! ## `restore` behind the MACs -/

variable {frame : Bytes} {direction : Direction}

section Restore

variable {view : ParsedPacket} {n : Nat}

variable {g : Bytes}

/-- Reads behind the MACs. -/
theorem readRange_agree {f : Bytes} (h : AgreeOn (12 ≤ ·) f g) (ho : 12 ≤ offset) (length : Nat) :
    readRange f offset length = readRange g offset length := by
  have hslice := h.slice_eq offset length fun i hi _ => Nat.le_trans ho hi
  refine Option.ext fun bytes => ?_
  rw [readRange_eq_some, readRange_eq_some, h.1, hslice]

theorem readU16_agree {f : Bytes} (h : AgreeOn (12 ≤ ·) f g) (ho : 12 ≤ offset) :
    readU16 f offset = readU16 g offset := by
  refine Option.ext fun word => ?_
  rw [readU16_eq_some, readU16_eq_some, h.1, wordAt_agree h offset ho (Nat.le_succ_of_le ho)]

/-- The checksum with the addresses and any ports replaced. -/
theorem checksumReplace_ports (c : UInt16) (direction : Direction) {ports : Bytes}
    (h : ports.length = (portBytes direction.original).length) :
    (do
      let value ← checksumReplace c (head4 direction.translated.source)
        (head4 direction.original.source)
      let value ← checksumReplace value (head4 direction.translated.destination)
        (head4 direction.original.destination)
      checksumReplace value ports (portBytes direction.original)) =
      some (replaced (replacePieces c (addressPieces direction)) ports
        (portBytes direction.original)) := by
  rw [checksumReplace_eq _ _ _ (by simp) (by simp), Option.bind_eq_bind, Option.bind_some,
    checksumReplace_eq _ _ _ (by simp) (by simp), Option.bind_some,
    checksumReplace_eq _ _ _ h (by rw [h, length_portBytes])]
  rfl

theorem steady_inverseTransportChecksum (direction : Direction) (hto : 12 ≤ view.transportOffset)
    (hb : view.transportOffset + view.transportLength ≤ n)
    (hp : view.ports = true → 4 ≤ view.transportLength) :
    Steady n (12 ≤ ·) (inverseTransportChecksum view direction (portBytes direction.original))
      fun transport => ∀ offset checksum, transport = some (offset, checksum) → offset + 2 ≤ n := by
  unfold inverseTransportChecksum
  by_cases hports : view.ports = true
  · simp only [hports, Bool.not_true, Bool.false_eq_true, if_false]
    cases hfield : checksumField view with
    | none => exact .pure nofun
    | some =>
      obtain ⟨hbound, h4⟩ := checksumField_bound hfield
      have hroom := hp hports
      refine .get (fun f g _ hfg => ?_) fun f hf => ?_
      · rw [readU16_agree hfg (by omega), readRange_agree hfg hto]
      · refine .orError view ((readU16_eq_some ..).mpr ⟨by omega, rfl⟩) ?_
        split
        · exact .pure nofun
        · have hread : view.transportOffset + (portBytes direction.original).length ≤ f.length := by
            rw [length_portBytes]
            omega
          refine .orError view ((readRange_eq_some ..).mpr ⟨hread, rfl⟩) ?_
          refine .orError view (checksumReplace_ports _ direction (length_slice _ _ _ hread)) ?_
          refine .pure fun offset checksum he => ?_
          cases he
          omega
  · simp only [hports]
    exact .pure nofun

/-- What `decode` guarantees of a view, for any frame of length `n`. -/
structure Fits (view : ParsedPacket) (n : Nat) : Prop where
  networkOffset : 14 ≤ view.networkOffset
  transportOffset : view.transportOffset = view.networkOffset + view.ipHeaderLength
  captured : view.transportOffset + view.transportLength ≤ n
  ports : view.ports = true → 4 ≤ view.transportLength
  family : (view.tuple.family = familyIpv4 ∧ 20 ≤ view.ipHeaderLength) ∨
    (view.tuple.family = familyIpv6 ∧ 40 ≤ view.ipHeaderLength)

theorem decode_fits (h : decode frame = .ok view) : Fits view view.frameLength := by
  obtain ⟨hl, hfamily⟩ := decode_layout h
  refine ⟨hl.networkOffset, hl.transportOffset, hl.frameLength ▸ hl.captured,
    fun hp => (hl.ports hp).1, ?_⟩
  exact hfamily.imp (fun h4 => ⟨h4.1, h4.2.header⟩) fun h6 => ⟨h6.1, h6.2.header⟩

theorem steady_restoreIpv4 (direction : Direction) (hfits : Fits view n)
    (hh : 20 ≤ view.ipHeaderLength) :
    Steady n (12 ≤ ·) (restoreIpv4 view direction) fun _ => True := by
  obtain ⟨hno, hto, hb, hp, -⟩ := hfits
  have hsource : (head4 direction.original.source).length = 4 := length_head4 _
  have hdestination : (head4 direction.original.destination).length = 4 := length_head4 _
  have hword (word : UInt16) : (toBe word).length = 2 := rfl
  have hports : (portBytes direction.original).length = 4 := rfl
  unfold restoreIpv4
  refine .get (fun f g _ hfg => ?_) fun f hf => ?_
  · rw [readU16_agree hfg (by omega)]
  · refine .orError view ((readU16_eq_some ..).mpr ⟨by omega, rfl⟩) ?_
    refine .orError view (checksumReplace_addresses _ direction) ?_
    refine .bind (steady_inverseTransportChecksum direction (by omega) hb hp)
      fun transport ht => ?_
    refine .bind (.write view (by rw [hword]; omega)) fun _ _ => ?_
    have hrest : Steady n (12 ≤ ·) (do
        writeBytes (view.networkOffset + 12) (head4 direction.original.source) view
        writeBytes (view.networkOffset + 16) (head4 direction.original.destination) view
        if view.ports then writeBytes view.transportOffset (portBytes direction.original) view)
        fun _ => True := by
      refine .bind (.write view (by omega)) fun _ _ => ?_
      refine .bind (.write view (by omega)) fun _ _ => ?_
      split
      case isTrue h => exact .write view (by have := hp h; omega)
      case isFalse => exact .pure trivial
    match transport with
    | none => exact hrest
    | some (offset, checksum) =>
      refine .bind (.write view ?_) fun _ _ => hrest
      rw [hword]
      exact ht offset checksum rfl

theorem steady_validateEdit {P : Nat → Prop} (h : EditValid view direction n) :
    Steady n P (validateEdit view direction) fun _ => True := by
  intro f g hn hfg
  exact ⟨(), f, g, (validateEdit_eq_ok ..).mpr ⟨hn ▸ h, rfl⟩,
    (validateEdit_eq_ok ..).mpr ⟨hfg.1 ▸ hn ▸ h, rfl⟩, trivial, hn, hfg⟩

theorem length_mac (mac : Mac) : mac.toList.length = 6 := Vector.length_toList ..

/-- A frame after both MACs are written. -/
theorem splice_macs_spec {u : Bytes} (destination source : Mac) (hn : 12 ≤ u.length) :
    AgreeOn (12 ≤ ·) (splice (splice u 0 destination.toList) 6 source.toList) u ∧
      slice (splice (splice u 0 destination.toList) 6 source.toList) 0 6 = destination.toList ∧
      slice (splice (splice u 0 destination.toList) 6 source.toList) 6 6 = source.toList := by
  obtain ⟨hagree, hdestination, hsource⟩ := splice_two u (length_mac destination)
    (length_mac source) (show 0 + 6 ≤ _ by omega) (show 6 + 6 ≤ _ by omega) (.inl (by omega))
  exact ⟨hagree.mono fun i hi => by omega, hdestination, hsource⟩

theorem steady_macs (destination source : Mac) (hn : 12 ≤ n) : Steady n (12 ≤ ·) (do
    writeBytes 0 destination.toList view
    writeBytes ETHERNET_ADDRESS_LENGTH source.toList view) fun _ => True := by
  refine .bind (.write view (by rw [length_mac]; omega)) fun _ _ => ?_
  exact .write view (by rw [length_mac, ETHERNET_ADDRESS_LENGTH]; omega)

theorem steady_restore (hfits : Fits view n) (hv : EditValid view direction n) :
    Steady n (12 ≤ ·) (restore view direction) fun _ => True := by
  have hno := hfits.networkOffset; have hto := hfits.transportOffset; have hcap := hfits.captured
  have hlength (a : Addr) : a.toList.length = 16 := Vector.length_toList ..
  have hmacs := @steady_macs view n direction.originalDestinationMac direction.originalSourceMac
    (by omega)
  unfold restore
  refine .bind (steady_validateEdit hv) fun _ _ => ?_
  rcases hfits.family with ⟨hf, hh⟩ | ⟨hf, hh⟩
  · rw [if_pos hf]
    exact .bind (steady_restoreIpv4 direction hfits hh) fun _ _ => hmacs
  · rw [if_neg (by rw [hf]; decide), if_pos hf]
    refine .bind (.write view (by rw [hlength]; omega)) fun _ _ => ?_
    exact .bind (.write view (by rw [hlength]; omega)) fun _ _ => hmacs

/-- `restore` of a decoded frame, and of any frame that differs from it in the
MACs alone, gives one result. -/
theorem restore_steady (hfits : Fits view frame.length) (hv : EditValid view direction frame.length)
    (hg : AgreeOn (12 ≤ ·) frame g) :
    ∃ r, restore view direction frame = .ok () r ∧ restore view direction g = .ok () r := by
  have hsteady := steady_restore hfits hv
  obtain ⟨_, r, r', hr, hr', -, hn, hagree⟩ := hsteady frame g rfl hg
  -- both results have the MACs of the direction
  obtain ⟨-, v, -, hv, hrv⟩ := (restore_eq_ok ..).mp hr
  obtain ⟨-, v', -, hv', hrv'⟩ := (restore_eq_ok ..).mp hr'
  obtain ⟨-, hd, hs⟩ := splice_macs_spec direction.originalDestinationMac
    direction.originalSourceMac hv
  obtain ⟨-, hd', hs'⟩ := splice_macs_spec direction.originalDestinationMac
    direction.originalSourceMac hv'
  rw [← hrv] at hd hs
  rw [← hrv'] at hd' hs'
  have heq : r = r' := by
    refine List.ext_getElem? fun i => ?_
    by_cases h6 : i < 6
    · exact getElem?_eq_of_slice_eq (hd.trans hd'.symm) (Nat.zero_le i) (by omega)
    · by_cases h12 : i < 12
      · exact getElem?_eq_of_slice_eq (hs.trans hs'.symm) (by omega) (by omega)
      · exact hagree.2 i (Nat.le_of_not_lt h12)
  exact ⟨r, hr, heq ▸ hr'⟩

end Restore

/-! ## Forwarding -/

section Forward

variable {view : ParsedPacket} {direction : Direction} {n : Nat}

theorem steady_setHopLimit (hfits : Fits view n) (ttl : UInt8) :
    Steady n (12 ≤ ·) (setHopLimit view ttl) fun _ => True := by
  have hno := hfits.networkOffset; have hto := hfits.transportOffset; have hcap := hfits.captured
  unfold setHopLimit
  rcases hfits.family with ⟨hf, hh⟩ | ⟨hf, hh⟩
  · rw [if_pos hf]
    refine .get (fun f g _ hfg => ?_) fun f hn => ?_
    · rw [readRange_agree hfg (by omega), readU16_agree hfg (by omega)]
    · have hold : (slice f (view.networkOffset + 8) 2).length = 2 := length_slice _ _ _ (by omega)
      refine .orError view ((readRange_eq_some ..).mpr ⟨by omega, rfl⟩) ?_
      refine .orError view ((readU16_eq_some ..).mpr ⟨by omega, rfl⟩) ?_
      refine .orError view (checksumReplace_eq _ _ _ hold (by rw [hold])) ?_
      refine .bind (.write view (by rw [length_toBe]; omega)) fun _ _ => ?_
      exact .write view (by rw [List.length_singleton]; omega)
  · rw [if_neg (by rw [hf]; decide), if_pos hf]
    exact .write view (by rw [List.length_singleton]; omega)

theorem steady_forward (hfits : Fits view n) (hv : EditValid view direction n)
    (httl : view.ttl ≠ 0) : Steady n (12 ≤ ·) (forward view direction) fun _ => True := by
  have hno := hfits.networkOffset; have hto := hfits.transportOffset; have hcap := hfits.captured
  unfold forward
  refine .bind (steady_validateEdit hv) fun _ _ => ?_
  rw [if_neg httl]
  exact .bind (steady_setHopLimit hfits _) fun _ _ => steady_macs _ _ (by omega)

end Forward

/-- The checksum `set_hop_limit` writes. -/
def hopChecksum (view : ParsedPacket) (ttl : UInt8) (frame : Bytes) : UInt16 :=
  replaced (wordAt frame (view.networkOffset + 10)) (slice frame (view.networkOffset + 8) 2)
    [ttl, view.tuple.protocol]

/-- The offset of the hop limit in the IP header. -/
def hopOffset (view : ParsedPacket) : Nat := if view.tuple.family = familyIpv4 then 8 else 7

variable {view : ParsedPacket}

/-- What `set_hop_limit` leaves of a frame: everything but the hop limit and,
for IPv4, the header checksum. -/
theorem setHopLimit_eq_ok {ttl : UInt8} {u : Bytes} (h : setHopLimit view ttl frame = .ok () u) :
    AgreeOn (fun i => i ≠ view.networkOffset + hopOffset view ∧
      ¬ (view.tuple.family = familyIpv4 ∧ view.networkOffset + 10 ≤ i ∧
        i < view.networkOffset + 12)) u frame ∧
    u[view.networkOffset + hopOffset view]? = some ttl ∧
    (view.tuple.family = familyIpv4 →
      slice u (view.networkOffset + 10) 2 = toBe (hopChecksum view ttl frame)) := by
  have hop {v : Bytes} {offset : Nat} (hb : offset + [ttl].length ≤ v.length) :
      (splice v offset [ttl])[offset]? = some ttl := by
    rw [getElem?_splice _ _ _ hb, if_pos (by simp), Nat.sub_self]
    rfl
  simp only [setHopLimit, bind_eq_ok, get_eq_ok, ite_eq_ok, throw_eq_ok, orError_eq_ok,
    writeBytes_eq_ok, readRange_eq_some, readU16_eq_some, and_false, or_false] at h
  rcases h with ⟨hf, _, _, ⟨rfl, rfl⟩, _, _, ⟨⟨hold, rfl⟩, rfl⟩, _, _, ⟨⟨-, rfl⟩, rfl⟩, c, _,
    ⟨hc, rfl⟩, _, _, ⟨hb, rfl⟩, hb', rfl⟩ | ⟨hne, hf, hb, rfl⟩
  · have hlength := length_slice _ _ _ hold
    rw [checksumReplace_eq _ _ _ hlength (by rw [hlength])] at hc
    have h2 := length_toBe c
    rw [show hopOffset view = 8 from if_pos hf]
    refine ⟨(((AgreeOn.refl (fun _ => True) _).splice_left _ _ hb).splice_left _ _ hb').mono
      fun i hi => ?_, hop hb', fun _ => ?_⟩
    · rw [List.length_singleton]
      exact ⟨⟨trivial, fun h => hi.2 ⟨hf, by omega⟩⟩, by omega⟩
    · rw [slice_splice_disjoint _ _ _ hb' _ _ (.inr (by simp)), hopChecksum, Option.some.inj hc]
      exact h2 ▸ slice_splice_self _ _ _ hb
  · rw [show hopOffset view = 7 from if_neg hne]
    refine ⟨((AgreeOn.refl (fun _ => True) frame).splice_left _ _ hb).mono fun i hi => ?_, hop hb,
      fun h => absurd h hne⟩
    rw [List.length_singleton]
    exact ⟨trivial, by omega⟩

variable {forwarded : Bytes}

/-- What `forward` leaves of a decoded frame: everything but the MACs, the hop
limit and, for IPv4, the header checksum. -/
theorem forward_eq_ok (hno : 14 ≤ view.networkOffset)
    (h : forward view direction frame = .ok () forwarded) :
    EditValid view direction frame.length ∧ view.ttl ≠ 0 ∧
    AgreeOn (fun i => 12 ≤ i ∧ i ≠ view.networkOffset + hopOffset view ∧
      ¬ (view.tuple.family = familyIpv4 ∧ view.networkOffset + 10 ≤ i ∧
        i < view.networkOffset + 12)) forwarded frame ∧
    forwarded[view.networkOffset + hopOffset view]? = some (view.ttl - 1) ∧
    (view.tuple.family = familyIpv4 → slice forwarded (view.networkOffset + 10) 2 =
      toBe (hopChecksum view (view.ttl - 1) frame)) ∧
    slice forwarded 0 6 = direction.outputDestinationMac.toList ∧
    slice forwarded 6 6 = direction.outputSourceMac.toList := by
  simp only [forward, bind_eq_ok, ite_eq_ok, throw_eq_ok, validateEdit_eq_ok, writeBytes_eq_ok,
    ETHERNET_ADDRESS_LENGTH, false_and, exists_false, and_false, false_or] at h
  obtain ⟨_, v, ⟨hv, hvf⟩, httl, _, u, hu, _, _, ⟨-, rfl⟩, -, rfl⟩ := h
  rw [hvf] at hu
  obtain ⟨hagree, hhop, hck⟩ := setHopLimit_eq_ok hu
  have h14 := hv.ethernet; have hlength := hagree.1
  obtain ⟨hmacs, hdestination, hsource⟩ := splice_macs_spec direction.outputDestinationMac
    direction.outputSourceMac (u := u) (by omega)
  refine ⟨hv, httl, ⟨hmacs.1.trans hlength, fun i hi => ?_⟩, ?_, fun hf => ?_, hdestination,
    hsource⟩
  · exact (hmacs.2 i hi.1).trans (hagree.2 i hi.2)
  · exact (hmacs.2 _ (show 12 ≤ _ by omega)).trans hhop
  · exact (hmacs.slice_eq _ _ fun i h _ => show 12 ≤ i by omega).trans (hck hf)

/-- The frame with the hop limit and the header checksum of the view. -/
def undone (view : ParsedPacket) (g : Bytes) : Bytes :=
  let f := splice g (view.networkOffset + hopOffset view) [view.ttl]
  if view.tuple.family = familyIpv4 then
    splice f (view.networkOffset + 10) (toBe view.ipv4Checksum)
  else f

section Undo

variable {view : ParsedPacket} {direction : Direction} {g : Bytes}

theorem Fits.hop {n : Nat} (hfits : Fits view n) :
    (view.tuple.family = familyIpv4 ∧ hopOffset view = 8 ∧ 20 ≤ view.ipHeaderLength) ∨
      (view.tuple.family ≠ familyIpv4 ∧ hopOffset view = 7 ∧ 40 ≤ view.ipHeaderLength) := by
  rcases hfits.family with ⟨hf, hh⟩ | ⟨hf, hh⟩
  · exact .inl ⟨hf, if_pos hf, hh⟩
  · have hne : view.tuple.family ≠ familyIpv4 := by rw [hf]; decide
    exact .inr ⟨hne, if_neg hne, hh⟩

theorem hopOffset_bound (hfits : Fits view g.length) :
    view.networkOffset + hopOffset view + [view.ttl].length ≤ g.length ∧
      (view.tuple.family = familyIpv4 → hopOffset view = 8 ∧
        view.networkOffset + 10 + (toBe view.ipv4Checksum).length ≤ g.length) := by
  have hto := hfits.transportOffset; have hcap := hfits.captured
  rw [List.length_singleton, length_toBe]
  rcases hfits.hop with ⟨-, hhop, hh⟩ | ⟨hne, hhop, hh⟩
  · exact ⟨by omega, fun _ => ⟨hhop, by omega⟩⟩
  · exact ⟨by omega, fun h => absurd h hne⟩

theorem length_undone (hfits : Fits view g.length) : (undone view g).length = g.length := by
  obtain ⟨hb, h4⟩ := hopOffset_bound hfits
  unfold undone
  split
  · next hf => rw [length_splice _ _ _ (by rw [length_splice _ _ _ hb]; exact (h4 hf).2),
      length_splice _ _ _ hb]
  · exact length_splice _ _ _ hb

/-- `restore_forwarded` behind its first checks: it looks for what `forward`
wrote before it writes anything. -/
theorem restoreForwarded_run (hfits : Fits view g.length) (hv : EditValid view direction g.length)
    (httl : view.ttl ≠ 0) :
    restoreForwarded view direction g =
      if readU8 g (view.networkOffset + hopOffset view) ≠ some (view.ttl - 1) ∨
          readRange g 0 ETHERNET_ADDRESS_LENGTH ≠ some direction.outputDestinationMac.toList ∨
          readRange g ETHERNET_ADDRESS_LENGTH ETHERNET_ADDRESS_LENGTH ≠
            some direction.outputSourceMac.toList then
        .error (view.error EBADMSG) g
      else restore view direction (undone view g) := by
  obtain ⟨hb, h4⟩ := hopOffset_bound hfits
  have hwrite := writeBytes_run view hb
  have hl := length_splice _ _ _ hb
  unfold restoreForwarded undone
  rw [bind_of_ok ((validateEdit_eq_ok _ _ _ _ ()).mpr ⟨hv, rfl⟩), if_neg httl]
  rcases hfits.family with ⟨hf, -⟩ | ⟨hf, -⟩
  · rw [(h4 hf).1] at hb hwrite hl ⊢
    rw [if_pos hf, if_pos hf, if_pos hf]
    have hwrite' := writeBytes_run view (hl.symm ▸ (h4 hf).2)
    refine (ite_apply ..).trans (if_congr .rfl rfl ?_)
    exact (bind_of_ok hwrite).trans (bind_of_ok hwrite')
  · have hne : view.tuple.family ≠ familyIpv4 := by rw [hf]; decide
    rw [hopOffset, if_neg hne] at hwrite ⊢
    rw [if_neg hne, if_pos hf, if_neg hne, if_neg hne]
    exact (ite_apply ..).trans (if_congr .rfl rfl (bind_of_ok hwrite))

end Undo

/-- What `forward` has done to a decoded frame can be undone, and the result is
that of `restore` on the frame. -/
theorem restoreForwarded_forward (h : decode frame = .ok view)
    (hforward : forward view direction frame = .ok () forwarded) :
    ∃ r, restore view direction frame = .ok () r ∧
      restoreForwarded view direction forwarded = .ok () r := by
  obtain ⟨hl, hfamily⟩ := decode_layout h
  have hno := hl.networkOffset; have hto := hl.transportOffset; have hcap := hl.captured
  have hfits : Fits view frame.length := hl.frameLength ▸ decode_fits h
  obtain ⟨hv, httl, hagree, hhop, -, hdestination, hsource⟩ := forward_eq_ok hno hforward
  have hlength := hagree.1
  rw [restoreForwarded_run (hlength ▸ hfits) (hlength ▸ hv) httl, if_neg]
  · -- the undone frame is the decoded one behind the MACs
    obtain ⟨hb, h4⟩ := hopOffset_bound (hlength ▸ hfits)
    have hbyte {offset : Nat} (ho : offset < frame.length) :
        slice frame offset 1 = [byteAt frame offset] := by
      rw [slice_eq_ofFn _ _ _ ho]
      rfl
    refine restore_steady hfits hv (.symm ?_)
    unfold undone
    rcases hfamily with ⟨hf, hl4⟩ | ⟨hf, hl6⟩
    · have hh := hl4.header
      obtain ⟨hhop8, hck⟩ := h4 hf
      rw [hhop8] at hb hagree ⊢
      rw [if_pos hf]
      refine ((hagree.splice_back _ _ hb (by
        rw [List.length_singleton, hbyte (by omega), hl4.ttl])).splice_back _ _
          (by rwa [length_splice _ _ _ hb]) (by
            rw [length_toBe, hl4.checksum, toBe_wordAt (by omega)])).mono fun i hi => ?_
      simp only [List.length_singleton, length_toBe, hf, true_and]
      omega
    · have hh := hl6.header
      have hne : view.tuple.family ≠ familyIpv4 := by rw [hf]; decide
      rw [show hopOffset view = 7 from if_neg hne] at hb hagree ⊢
      rw [if_neg hne]
      refine (hagree.splice_back _ _ hb (by
        rw [List.length_singleton, hbyte (by omega), hl6.ttl])).mono fun i hi => ?_
      simp only [List.length_singleton, hne, false_and, not_false_eq_true, and_true]
      omega
  · simp only [readU8, hhop, ne_eq, not_true_eq_false, false_or, not_or, not_not, readRange_eq_some]
    exact ⟨⟨by rw [hlength, ETHERNET_ADDRESS_LENGTH]; omega, hdestination.symm⟩,
      by rw [hlength, ETHERNET_ADDRESS_LENGTH]; omega, hsource.symm⟩

end Mwan.Native

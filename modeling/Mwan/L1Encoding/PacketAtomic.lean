import Mwan.L1Encoding.PacketForward
import Mwan.L1Encoding.PacketNat

/-!
# Edits are all or nothing (`native/src/packet.rs:415-693`)

Every edit validates the frame against the view before its first write. The
writes behind the validation are checked one by one, but from a view that
`decode` returned none of them can fail.

Results:
* `Confined`: where an edit may write; one rule for each construct;
* `edits_atomic`: an edit that fails leaves the frame as it was, and `restore`
  of a frame's own view succeeds and stays within the fields it is for;
* `restoreForwarded_undoes`: undoing a prepared forward is never having
  forwarded, and it refuses a frame that `forward` did not write.
-/
namespace Mwan.Native

open Mwan.Core Mwan.Core.Exec

/-! ## Failing edits -/

variable {α : Type}

section Failing

variable {view : ParsedPacket} {direction : Direction} {g u : Bytes} {e : DecodeError}

/-- An edit behind `validate_edit` fails there, on the frame it got, or later. -/
theorem validated_error {next : Unit → Editor Unit}
    (h : (validateEdit view direction >>= next) g = .error e u) :
    u = g ∨ (EditValid view direction g.length ∧ next () g = .error e u) := by
  by_cases hv : EditValid view direction g.length
  · rw [bind_of_ok ((validateEdit_eq_ok _ _ _ _ ()).mpr ⟨hv, rfl⟩)] at h
    exact .inr ⟨hv, h⟩
  · have herror : validateEdit view direction g = .error (view.error EBADMSG) g := by
      have hnot := fun a u => mt (validateEdit_eq_ok view direction g u a).mp fun h => hv h.1
      unfold validateEdit at hnot ⊢
      rw [bind_of_ok (rfl : (get : Editor Bytes) g = .ok g g)] at hnot ⊢
      split at hnot
      · next hc => rw [if_pos hc]; rfl
      · exact absurd rfl (hnot () g)
    rw [bind_of_error herror] at h
    cases h
    exact .inl rfl

/-- An edit that succeeds on every frame of the view's length cannot fail. -/
theorem Steady.not_error {P : Nat → Prop} {Q : α → Prop} {edit : Editor α}
    (h : Steady g.length P edit Q) : edit g ≠ .error e u := by
  obtain ⟨a, f', -, hrun, -⟩ := h g g rfl (.refl P g)
  rw [hrun]
  nofun

variable (hfits : Fits view view.frameLength)

include hfits

theorem restore_error (h : restore view direction g = .error e u) : u = g := by
  rcases validated_error h with rfl | ⟨hv, -⟩
  · rfl
  · exact absurd h (steady_restore (hv.frameLength ▸ hfits) hv).not_error

theorem forward_error (h : forward view direction g = .error e u) : u = g := by
  rcases validated_error h with rfl | ⟨hv, h'⟩
  · rfl
  · by_cases httl : view.ttl = 0
    · rw [if_pos httl] at h'
      cases h'
      rfl
    · exact absurd h (steady_forward (hv.frameLength ▸ hfits) hv httl).not_error

theorem restoreForwarded_error (h : restoreForwarded view direction g = .error e u) : u = g := by
  rcases validated_error h with rfl | ⟨hv, h'⟩
  · rfl
  · have hfits' : Fits view g.length := hv.frameLength ▸ hfits
    by_cases httl : view.ttl = 0
    · rw [if_pos httl] at h'
      cases h'
      rfl
    · rw [restoreForwarded_run hfits' hv httl] at h
      split at h
      · cases h; rfl
      · have hl := length_undone hfits'
        exact absurd h (steady_restore (hl ▸ hfits') (hl ▸ hv)).not_error

end Failing

/-! ## Where an edit writes -/

variable {view : ParsedPacket}

section Confined

variable {α β : Type} {W : Nat → Prop} {edit : Editor α} {Q : α → Prop}

/-- The edit changes no byte outside `W`, and its result satisfies `Q`. -/
def Confined (W : Nat → Prop) (edit : Editor α) (Q : α → Prop) : Prop :=
  ∀ f a f', edit f = .ok a f' → Q a ∧ AgreeOn (fun i => ¬ W i) f' f

theorem Confined.bind {next : α → Editor β} {R : β → Prop} (h : Confined W edit Q)
    (hnext : ∀ a, Q a → Confined W (next a) R) : Confined W (edit >>= next) R := by
  intro f b f' hrun
  obtain ⟨a, u, ha, hb⟩ := (bind_eq_ok ..).mp hrun
  obtain ⟨hQ, hfu⟩ := h f a u ha
  obtain ⟨hR, hu⟩ := hnext a hQ u b f' hb
  exact ⟨hR, hu.1.trans hfu.1, fun i hi => (hu.2 i hi).trans (hfu.2 i hi)⟩

theorem Confined.reads (h : ∀ f a f', edit f = .ok a f' → Q a ∧ f' = f) : Confined W edit Q := by
  intro f a f' hrun
  obtain ⟨hQ, rfl⟩ := h f a f' hrun
  exact ⟨hQ, AgreeOn.refl _ _⟩

theorem Confined.write {offset : Nat} {bytes : Bytes}
    (h : ∀ i, offset ≤ i → i < offset + bytes.length → W i) :
    Confined W (writeBytes offset bytes view) fun _ => True := by
  intro f _ f' hrun
  obtain ⟨hb, rfl⟩ := (writeBytes_eq_ok ..).mp hrun
  refine ⟨trivial, ((AgreeOn.refl (fun _ => True) f).splice_left _ _ hb).mono fun i hi => ?_⟩
  exact ⟨trivial, fun hin => hi (h i hin.1 hin.2)⟩

end Confined

/-- The fields `restore` is for: the MACs, the addresses, the IPv4 header
checksum, the ports and the transport checksum. -/
def Editable (view : ParsedPacket) (i : Nat) : Prop :=
  i < 12 ∨
  (view.tuple.family = familyIpv4 ∧
    view.networkOffset + 10 ≤ i ∧ i < view.networkOffset + 20) ∨
  (view.tuple.family = familyIpv6 ∧
    view.networkOffset + 8 ≤ i ∧ i < view.networkOffset + 40) ∨
  (view.ports = true ∧ ((view.transportOffset ≤ i ∧ i < view.transportOffset + 4) ∨
    ∃ field, checksumField view = some field ∧
      view.transportOffset + field ≤ i ∧ i < view.transportOffset + field + 2))

section Restore

variable {view : ParsedPacket} {W : Nat → Prop}

theorem confined_orError (o : Option α) : Confined W (orError view o) fun _ => True :=
  .reads fun _ _ _ h => ⟨trivial, ((orError_eq_ok ..).mp h).2⟩

theorem confined_get : Confined W (get : Editor Bytes) fun _ => True :=
  .reads fun _ _ _ h => ⟨trivial, ((get_eq_ok ..).mp h).2⟩

theorem Confined.pure {Q : α → Prop} {a : α} (h : Q a) : Confined W (Pure.pure a : Editor α) Q :=
  .reads fun _ _ _ hrun => by
    obtain ⟨rfl, rfl⟩ := (pure_eq_ok ..).mp hrun
    exact ⟨h, rfl⟩

theorem confined_inverseTransportChecksum (direction : Direction) (ports : Bytes) :
    Confined W (inverseTransportChecksum view direction ports) fun t => ∀ offset c,
      t = some (offset, c) → view.ports = true ∧
        ∃ field, checksumField view = some field ∧ offset = view.transportOffset + field := by
  unfold inverseTransportChecksum
  by_cases hports : view.ports = true
  · simp only [hports, Bool.not_true, Bool.false_eq_true, if_false]
    cases hfield : checksumField view with
    | none => exact .pure nofun
    | some field =>
      refine .bind confined_get fun f _ => ?_
      refine .bind (confined_orError _) fun checksum _ => ?_
      split
      · exact .pure nofun
      · refine .bind (confined_orError _) fun _ _ => ?_
        refine .bind (confined_orError _) fun _ _ => .pure fun offset c he => ?_
        cases he
        exact ⟨trivial, field, rfl, rfl⟩
  · simp only [hports]
    exact .pure nofun

theorem confined_restoreIpv4 (direction : Direction) (hf : view.tuple.family = familyIpv4) :
    Confined (Editable view) (restoreIpv4 view direction) fun _ => True := by
  have hhead := length_head4
  have hheader {i : Nat} (h : view.networkOffset + 10 ≤ i) (h' : i < view.networkOffset + 20) :
      Editable view i := .inr (.inl ⟨hf, h, h'⟩)
  unfold restoreIpv4
  refine .bind confined_get fun _ _ => .bind (confined_orError _) fun _ _ => ?_
  refine .bind (confined_orError _) fun checksum _ => ?_
  refine .bind (confined_inverseTransportChecksum direction _) fun transport ht => ?_
  refine .bind (.write fun i h h' => hheader h (by rw [length_toBe] at h'; omega)) fun _ _ => ?_
  have hrest : Confined (Editable view) (do
      writeBytes (view.networkOffset + 12) (head4 direction.original.source) view
      writeBytes (view.networkOffset + 16) (head4 direction.original.destination) view
      if view.ports then writeBytes view.transportOffset (portBytes direction.original) view)
      fun _ => True := by
    refine .bind (.write fun i h h' => hheader (by omega) (by rw [hhead] at h'; omega))
      fun _ _ => ?_
    refine .bind (.write fun i h h' => hheader (by omega) (by rw [hhead] at h'; omega))
      fun _ _ => ?_
    split
    · next hp =>
      refine .write fun i h h' => .inr (.inr (.inr ⟨hp, .inl ⟨h, ?_⟩⟩))
      rwa [length_portBytes] at h'
    · exact .pure trivial
  match transport with
  | none => exact hrest
  | some (offset, c) =>
    obtain ⟨hp, field, hfield, rfl⟩ := ht offset c rfl
    refine .bind (.write fun i h h' => ?_) fun _ _ => hrest
    rw [length_toBe] at h'
    exact .inr (.inr (.inr ⟨hp, .inr ⟨field, hfield, h, h'⟩⟩))

theorem confined_restore (direction : Direction) :
    Confined (Editable view) (restore view direction) fun _ => True := by
  have hlength (a : Addr) : a.toList.length = 16 := Vector.length_toList ..
  have hmacs : Confined (Editable view) (do
      writeBytes 0 direction.originalDestinationMac.toList view
      writeBytes ETHERNET_ADDRESS_LENGTH direction.originalSourceMac.toList view)
      fun _ => True := by
    refine .bind (.write fun i h h' => .inl ?_) fun _ _ => .write fun i h h' => .inl ?_
    · rw [length_mac] at h'; omega
    · rw [length_mac, ETHERNET_ADDRESS_LENGTH] at h'; omega
  unfold restore
  refine .bind (.reads fun _ _ _ h => ⟨trivial, ((validateEdit_eq_ok ..).mp h).2⟩) fun _ _ => ?_
  split
  · next hf => exact .bind (confined_restoreIpv4 direction hf) fun _ _ => hmacs
  · split
    · next hf =>
      refine .bind (.write fun i h h' => .inr (.inr (.inl ⟨hf, h, ?_⟩))) fun _ _ => ?_
      · rw [hlength] at h'; omega
      refine .bind (.write fun i h h' => .inr (.inr (.inl ⟨hf, by omega, ?_⟩))) fun _ _ => hmacs
      rw [hlength] at h'; omega
    · intro f a f' hrun
      cases hrun

end Restore

/-- An edit that fails leaves the frame as it was, for a view of any decoded
frame; and `restore` with a frame's own view succeeds, keeps its length and
changes nothing outside the editable fields. -/
theorem edits_atomic {decoded : Bytes} {view : ParsedPacket} (h : decode decoded = .ok view)
    (direction : Direction) (frame : Bytes) :
    (∀ e u, restore view direction frame = .error e u → u = frame) ∧
    (∀ e u, forward view direction frame = .error e u → u = frame) ∧
    (∀ e u, restoreForwarded view direction frame = .error e u → u = frame) ∧
    (frame = decoded → direction.original.family = view.tuple.family →
      direction.translated.family = view.tuple.family →
      ∃ r, restore view direction frame = .ok () r ∧ r.length = frame.length ∧
        ∀ i, ¬ Editable view i → r[i]? = frame[i]?) := by
  have hfits := decode_fits h
  refine ⟨fun e u => restore_error hfits, fun e u => forward_error hfits,
    fun e u => restoreForwarded_error hfits, fun hown ho ht => ?_⟩
  subst hown
  have hl := (decode_layout h).1
  obtain ⟨r, hr, -⟩ := restore_steady (hl.frameLength ▸ hfits) (hl.editValid ho ht)
    (.refl _ frame)
  obtain ⟨-, hlength, hagree⟩ := confined_restore direction frame () r hr
  exact ⟨r, hr, hlength, hagree⟩

theorem edits_atomic_segment :
    (∀ e u, restore segmentView segmentDirection [] = .error e u → u = []) ∧
      ∃ r, restore segmentView segmentDirection segment = .ok () r ∧ r.length = 54 :=
  have hdecode : decode segment = .ok segmentView := by decide +kernel
  ⟨(edits_atomic hdecode segmentDirection []).1,
    have ⟨r, hr, hlength, _⟩ := (edits_atomic hdecode segmentDirection segment).2.2.2 rfl rfl rfl
    ⟨r, hr, hlength⟩⟩

/-! ## Undoing a prepared forward -/

theorem replacePieces_same (c : UInt16) {pieces : List Piece}
    (h : ∀ piece ∈ pieces, piece.before = piece.after) : replacePieces c pieces = c := by
  induction pieces with
  | nil => rfl
  | cons piece pieces ih =>
    have hsame : replaced c piece.before piece.after = c := if_pos (h _ (.head _))
    rw [replacePieces, List.foldl_cons, hsame]
    exact ih fun piece hp => h piece (.tail _ hp)

variable {direction : Direction}

theorem transportPieces_same (h : direction.original = direction.translated) :
    ∀ piece ∈ transportPieces direction, piece.before = piece.after := by
  intro piece hp
  simp only [transportPieces, addressPieces, addressPiece, portsPiece, List.cons_append,
    List.nil_append, List.mem_cons, List.not_mem_nil, or_false] at hp
  rcases hp with rfl | rfl | rfl <;> rw [h]

variable {frame : Bytes}

theorem restoredChecksum_same (hid : direction.original = direction.translated) {offset : Nat}
    {c : UInt16} (h : restoredChecksum view direction frame = some (offset, c)) :
    c = wordAt frame offset ∧ offset + 2 ≤ view.transportOffset + view.transportLength := by
  unfold restoredChecksum at h
  split at h
  · cases hf : checksumField view with
    | none => rw [hf] at h; cases h
    | some =>
      have hbound := checksumField_bound hf
      simp only [hf, replacePieces_same _ (transportPieces_same hid)] at h
      split at h
      · split at h
        · cases h
        · next hz =>
          cases h
          exact ⟨if_neg hz, by omega⟩
      · cases h
        exact ⟨rfl, by omega⟩
  · cases h

/-- The identity direction of a frame restores the frame to itself. -/
theorem restore_identity (h : decode frame = .ok view) (hd : Carries direction view)
    (hid : direction.original = direction.translated) :
    restore view direction frame = .ok () frame := by
  obtain ⟨hl, hfamily⟩ := decode_layout h
  have hno := hl.networkOffset; have hto := hl.transportOffset; have hcap := hl.captured
  refine (restore_eq_ok ..).mpr ⟨hl.editValid hd.original hd.translated, frame, ?_, by omega,
    (splice_macs hd hl (.refl _ _)).symm⟩
  refine hfamily.imp (fun ⟨hf, h4⟩ => ⟨hf, ?_⟩) fun ⟨hf, h6⟩ => ?_
  · have hh := h4.header
    obtain ⟨hs, hdst, hp⟩ := hd.pieces hl hf h4
    have hpieces := transportPieces_same hid
    have hheader := replacePieces_same (wordAt frame (view.networkOffset + 10))
      fun piece hp => hpieces piece (List.mem_append_left _ hp)
    rw [restoreIpv4_eq_ok _ _ _ _ (by omega), hheader]
    refine ⟨_, frame, inverseTransportChecksum_run view direction frame hcap fun hports =>
      ⟨(hl.ports hports).1, by rw [← hid, hp hports]⟩, ?_⟩
    obtain ⟨r, hrun, hagree⟩ := @writeIpv4_writesBack frame (fun _ => True) view direction
      (wordAt frame (view.networkOffset + 10)) (restoredChecksum view direction frame)
      (by omega) (toBe_wordAt (by omega)).symm hs.symm hdst.symm (fun offset c hc => by
        obtain ⟨rfl, hb⟩ := restoredChecksum_same hid hc
        exact ⟨by omega, (toBe_wordAt (by omega)).symm⟩)
      (fun hports => ⟨by have := (hl.ports hports).1; omega, (hp hports).symm⟩)
      frame (.refl _ _)
    obtain rfl := hagree.eq fun i _ => .inl trivial
    exact hrun
  · exact ⟨hf, by have := h6.header; omega, (splice_addresses hd hf h6 (by have := h6.header; omega)
      (.refl _ _)).symm⟩

/-- Undoing a prepared forward is never having forwarded. For every decoded
frame with a hop limit to spend and every direction of its family, `forward`
succeeds and `restore_forwarded` of its result gives what `restore` gives on
the frame itself, which is the frame for its identity direction. A frame
without the hop limit or a MAC that `forward` wrote is refused as it is. -/
theorem restoreForwarded_undoes {frame : Bytes} {view : ParsedPacket} {direction : Direction}
    (h : decode frame = .ok view) (httl : 1 ≤ view.ttl)
    (ho : direction.original.family = view.tuple.family)
    (ht : direction.translated.family = view.tuple.family) :
    ∃ forwarded r, forward view direction frame = .ok () forwarded ∧
      restore view direction frame = .ok () r ∧
      restoreForwarded view direction forwarded = .ok () r ∧
      (direction.original = view.tuple → direction.translated = view.tuple →
        direction.originalSourceMac = view.sourceMac →
        direction.originalDestinationMac = view.destinationMac → r = frame) ∧
      ∀ g : Bytes, (g[view.networkOffset + hopOffset view]? ≠
            forwarded[view.networkOffset + hopOffset view]? ∨
          slice g 0 6 ≠ slice forwarded 0 6 ∨ slice g 6 6 ≠ slice forwarded 6 6) →
        ∃ e, restoreForwarded view direction g = .error e g := by
  have hl := (decode_layout h).1
  have hfits := decode_fits h
  have hv := hl.editValid ho ht
  have hne : view.ttl ≠ 0 := fun hz => by rw [hz] at httl; exact absurd httl (by decide)
  obtain ⟨_, forwarded, -, hforward, -⟩ := steady_forward (hl.frameLength ▸ hfits) hv hne
    frame frame rfl (.refl _ _)
  obtain ⟨-, -, -, hhop, -, hdestination, hsource⟩ := forward_eq_ok hl.networkOffset hforward
  obtain ⟨r, hr, hundo⟩ := restoreForwarded_forward h hforward
  refine ⟨forwarded, r, hforward, hr, hundo, fun ho ht hsm hdm => ?_, fun g hg => ?_⟩
  · have hd : Carries direction view := ⟨by rw [ho], by rw [ht], by rw [ho], by rw [ho], hsm, hdm,
      fun _ => by rw [ho]; exact ⟨rfl, rfl⟩⟩
    have hsame := hr.symm.trans (restore_identity h hd (ho.trans ht.symm))
    cases hsame
    rfl
  · cases hrun : restoreForwarded view direction g with
    | error e u => exact ⟨e, by rw [restoreForwarded_error hfits hrun]⟩
    | ok a u =>
      -- a run that succeeds has seen all three
      obtain ⟨_, _, hvalid, -⟩ := (bind_eq_ok ..).mp hrun
      have hvg := ((validateEdit_eq_ok ..).mp hvalid).1
      rw [restoreForwarded_run (hvg.frameLength ▸ hfits) hvg hne] at hrun
      split at hrun
      · cases hrun
      · next hchecks =>
        simp only [not_or, not_not, readRange_eq_some, readU8, ETHERNET_ADDRESS_LENGTH] at hchecks
        obtain ⟨h1, ⟨-, h2⟩, -, h3⟩ := hchecks
        rw [hhop, hdestination, hsource, h1, ← h2, ← h3] at hg
        simp only [ne_eq, not_true_eq_false, or_false] at hg

theorem restoreForwarded_undoes_segment :
    decode segment = .ok segmentView ∧
      ∃ forwarded r, forward segmentView segmentDirection segment = .ok () forwarded ∧
        restore segmentView segmentDirection segment = .ok () r ∧
        restoreForwarded segmentView segmentDirection forwarded = .ok () r :=
  have hdecode : decode segment = .ok segmentView := by decide +kernel
  have ⟨forwarded, r, h1, h2, h3, _⟩ :=
    @restoreForwarded_undoes segment segmentView segmentDirection hdecode (by decide) rfl rfl
  ⟨hdecode, forwarded, r, h1, h2, h3⟩

end Mwan.Native

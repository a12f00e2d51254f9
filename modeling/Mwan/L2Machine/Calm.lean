import Mwan.L2Machine.Steps

/-!
# Changes that leave the pair table alone

Most of what the owner does moves packets, ports and VXLAN rules and leaves
the pairs as they are. Such a change is `Calm`, and an assertion about the
pairs that holds before it holds after it (`CalmStable`). The programs of this
module keep every such assertion; undoing preparations also tells what is left
in the transmit queue.

Results:
* `restorePending_spec`: afterwards every prepared entry may be forwarded, or
  the restoration has failed;
* `flushPending_spec`, `suspendVxlanRules_spec`: what transmitting and taking
  the VXLAN rules down keep.
-/
namespace Mwan.Native

open Mwan.Core Mwan.Core.Prog List

/-! ## Calm changes -/

/-- The pairs stay, no further entry is prepared, nothing enters quarantine,
and retired VXLAN contexts stay retired. -/
structure Calm (w w' : World) : Prop where
  config : w'.owner.config = w.owner.config
  instance_ : w'.owner.instance_ = w.owner.instance_
  table : w'.owner.table = w.owner.table
  active : w'.owner.active = w.owner.active
  quarantined : w'.owner.queues.quarantined = w.owner.queues.quarantined
  present : w'.present = w.present
  prepared : ∀ entry ∈ w'.owner.queues.pending, ∀ prepared, entry.prepared = some prepared →
    ∃ before ∈ w.owner.queues.pending, before.prepared = some prepared
  quiescing : w.owner.quiescing = true → w'.owner.quiescing = true
  failed : w.RestorationFailed → w'.RestorationFailed
  vxlan : w.VxlanRetired → w'.VxlanRetired

variable {w : World}

/-- A change of contexts and events only. -/
theorem Calm.of {w' : World}
    (h : (w'.owner.config, w'.owner.instance_, w'.owner.table, w'.owner.active, w'.owner.queues,
        w'.owner.quiescing, w'.present) =
      (w.owner.config, w.owner.instance_, w.owner.table, w.owner.active, w.owner.queues,
        w.owner.quiescing, w.present)) (failed : w.RestorationFailed → w'.RestorationFailed)
    (vxlan : w.VxlanRetired → w'.VxlanRetired) : Calm w w' := by
  simp only [Prod.mk.injEq] at h
  obtain ⟨hconfig, hinstance, htable, hactive, hqueues, hquiescing, hpresent⟩ := h
  exact ⟨hconfig, hinstance, htable, hactive, congrArg Queues.quarantined hqueues, hpresent,
    fun entry he p hp => ⟨entry, hqueues ▸ he, hp⟩, fun hq => hquiescing.trans hq, failed, vxlan⟩

/-- An assertion that calm changes keep. -/
def CalmStable (P : World → Prop) : Prop := ∀ w w', Calm w w' → P w → P w'

/-- An assertion about more than the number of calls and the result record. -/
def AsideStable (P : World → Prop) : Prop :=
  ∀ w calls out, w.calls ≤ calls → P w → P { w with calls := calls, out := out }

theorem CalmStable.aside {P : World → Prop} (hP : CalmStable P) : AsideStable P :=
  fun w _ _ _ => hP w _ (Calm.of rfl id fun h => ⟨h.1, h.2⟩)

/-- An assertion that changes within the frame keep. -/
def FrameStable (P : World → Prop) : Prop := ∀ w w', Frame w w' → P w → P w'

theorem CalmStable.and {P Q : World → Prop} (hP : CalmStable P) (hQ : CalmStable Q) :
    CalmStable fun w => P w ∧ Q w :=
  fun w w' h hw => ⟨hP w w' h hw.1, hQ w w' h hw.2⟩

theorem Frame.calm {w' : World} (h : Frame w w') : Calm w w' where
  config := h.config
  instance_ := h.instance_
  table := h.table
  active := h.active
  quarantined := h.quarantined
  present := h.present
  prepared entry he _ hp := ⟨entry, h.pending ▸ he, hp⟩
  quiescing := h.quiescing
  failed := by
    unfold World.RestorationFailed
    rw [h.events]
    exact id
  vxlan hv := ⟨h.quiescing hv.1, by rw [h.vxlan]; exact hv.2⟩

theorem CalmStable.frame {P : World → Prop} (hP : CalmStable P) : FrameStable P :=
  fun w w' h => hP w w' h.calm

section Programs

variable {sdk : Sdk} {P : World → Prop} {α : Type}

/-! ## Reading and bookkeeping -/

variable {Q : α → World → Prop} {E : NativeError → World → Prop}

/-- Go on from a known world with an assertion that holds in it. -/
theorem spec_from {x : OwnerM α} {w₀ : World} (hP : P w₀) (h : Spec (Step sdk) P x Q E) :
    Spec (Step sdk) (fun w => w = w₀) x Q E :=
  h.pre fun w hw => by rw [hw]; exact hP

theorem spec_bindSelf {f : OwnerState → OwnerM α}
    (h : ∀ w₀, P w₀ → Spec (Step sdk) (fun w => w = w₀) (f w₀.owner) Q E) :
    Spec (Step sdk) P (self >>= f) Q E :=
  fun w₀ s hs => h s.now hs.2 w₀ s ⟨hs.1, rfl⟩

/-- Reading the owner where what is read does not matter. -/
theorem spec_anySelf {f : OwnerState → OwnerM α} (h : ∀ owner, Spec (Step sdk) P (f owner) Q E) :
    Spec (Step sdk) P (self >>= f) Q E :=
  spec_bindSelf fun w₀ hw₀ => spec_from hw₀ (h w₀.owner)

theorem spec_setOwner {f : OwnerState → OwnerState} {Q : Unit → World → Prop}
    (hstep : ∀ w, P w → Step sdk w { w with owner := f w.owner })
    (hQ : ∀ w, P w → Q () { w with owner := f w.owner }) : Spec (Step sdk) P (setOwner f) Q E :=
  Spec.update hstep hQ

theorem spec_setQueues {f : Queues → Queues} {Q : Unit → World → Prop}
    (hstep : ∀ w, P w → Step sdk w (w.setQueues (f w.owner.queues)))
    (hQ : ∀ w, P w → Q () (w.setQueues (f w.owner.queues))) :
    Spec (Step sdk) P (setQueues f) Q E :=
  Spec.update hstep hQ

/-- A change outside the frame's fields keeps every stable assertion. -/
theorem keeps_setOwner (hP : FrameStable P) {f : OwnerState → OwnerState}
    (hf : ∀ w : World, Frame w { w with owner := f w.owner }) : Keeps (Step sdk) P (setOwner f) :=
  Spec.update (fun w _ => .frame (hf w)) fun w hw => hP w _ (hf w) hw

theorem keeps_call (hP : AsideStable P) : Keeps (Step sdk) P call := by
  refine .bindRead fun w₀ hw₀ => ?_
  exact .bind (R := fun _ => P) (.updateAt (.frame ⟨rfl, id, id, Nat.le_succ _⟩)
    (hP w₀ _ _ (Nat.le_succ _) hw₀)) fun _ => .skip

theorem keeps_setOut (hP : AsideStable P) (f : OwnerState → PairResult) :
    Keeps (Step sdk) P (setOut f) :=
  Spec.update (fun _ _ => .frame ⟨rfl, id, id, Nat.le_refl _⟩) fun w => hP w _ _ (Nat.le_refl _)

theorem keeps_updatePendingStats (hP : FrameStable P) :
    Keeps (Step sdk) P (setQueues Queues.updatePendingStats) :=
  @keeps_setOwner _ _ hP _ fun _ => ⟨rfl, id, id, Nat.le_refl _⟩

theorem keeps_setFaulted (hP : FrameStable P) : Keeps (Step sdk) P setFaulted :=
  keeps_setOwner hP fun _ => ⟨rfl, id, fun _ => rfl, Nat.le_refl _⟩

theorem keeps_refuse {c : Prop} [Decidable c] {e : NativeError} : Keeps (Step sdk) P (refuse c e) :=
  Spec.refuse (fun _ h _ => h) fun _ h _ => h

theorem keeps_checked {o : Except NativeError α} : Keeps (Step sdk) P (checked o) :=
  Spec.checked (fun _ _ h => h) fun _ _ _ h => h

theorem keeps_validateFlow (hP : AsideStable P) (direction : Direction) (index : Fin 2) :
    Keeps (Step sdk) P (validateFlow sdk direction index) := by
  refine spec_anySelf fun owner => .bind keeps_checked fun _ => ?_
  exact .bind (keeps_call hP) fun _ => keeps_refuse

/-! ## Undoing preparations -/

/-- Every prepared entry of the transmit queue may be forwarded. -/
def OwnerState.AllForward (owner : OwnerState) : Prop :=
  ∀ entry ∈ owner.queues.pending, ∀ prepared, entry.prepared = some prepared →
    owner.forwards prepared.handle = true

theorem OwnerState.forwards_iff (owner : OwnerState) (handle : Handle) :
    owner.forwards handle = true ↔
      owner.installed handle = true ∧ owner.quiescing = false ∧ owner.faulted = false := by
  simp [OwnerState.forwards, and_assoc]

variable {owner : OwnerState}

theorem OwnerState.AllForward.installed (h : owner.AllForward) : owner.PreparedInstalled :=
  fun entry he prepared hp => ((owner.forwards_iff _).mp (h entry he prepared hp)).1

/-- The entries before `index` are done. -/
def OwnerState.ForwardBelow (owner : OwnerState) (index : Nat) : Prop :=
  ∀ i < index, ∀ entry, owner.queues.pending[i]? = some entry →
    ∀ prepared, entry.prepared = some prepared → owner.forwards prepared.handle = true

theorem OwnerState.ForwardBelow.succ {index : Nat} (h : owner.ForwardBelow index)
    (hi : ∀ entry, owner.queues.pending[index]? = some entry →
      ∀ prepared, entry.prepared = some prepared → owner.forwards prepared.handle = true) :
    owner.ForwardBelow (index + 1) := by
  intro i hlt
  rcases Nat.lt_succ_iff_lt_or_eq.mp hlt with hlt | rfl
  · exact h i hlt
  · exact hi

theorem OwnerState.ForwardBelow.all (h : owner.ForwardBelow owner.queues.pending.length) :
    owner.AllForward := by
  intro entry he prepared hp
  obtain ⟨i, hi, rfl⟩ := mem_iff_getElem.mp he
  exact h i hi _ (getElem?_eq_getElem hi) prepared hp

/-- Undoing a preparation is calm. -/
theorem calm_restored (w : World) (index : Nat) (packet : PacketBuffer)
    (prepared : PreparedForward) :
    Calm w (w.setQueues (w.owner.queues.restored index (Pending.returned packet prepared))) := by
  refine ⟨rfl, rfl, rfl, rfl, rfl, rfl, fun entry he p hp => ?_, id, id, fun h => ⟨h.1, h.2⟩⟩
  rcases mem_or_eq_of_mem_set he with he | rfl
  · exact ⟨entry, he, hp⟩
  · cases hp

theorem calm_restorationFailed (w : World) (index : Nat) (entry : Pending) (packet : PacketBuffer)
    (error : NativeError) (hentry : w.owner.queues.pending[index]? = some entry) :
    Calm w (w.restorationFailed index { entry with packet := packet } error) := by
  refine ⟨rfl, rfl, rfl, rfl, rfl, rfl, fun e he p hp => ?_, fun _ => rfl,
    fun h => .tail _ h, fun h => ⟨rfl, h.2⟩⟩
  rcases mem_or_eq_of_mem_set he with he | rfl
  · exact ⟨e, he, hp⟩
  · exact ⟨entry, mem_of_getElem? hentry, hp⟩

theorem restoreIndex_spec (hP : CalmStable P) (index : Nat) (n : Nat) : Spec (Step sdk)
      (fun w => P w ∧ w.owner.ForwardBelow index ∧ w.owner.queues.pending.length = n)
      (restoreIndex index)
      (fun _ w => P w ∧ w.owner.ForwardBelow (index + 1) ∧ w.owner.queues.pending.length = n)
      (fun _ w => P w ∧ w.RestorationFailed) := by
  refine spec_bindSelf fun w₀ ⟨hw₀, hbelow, hlength⟩ => ?_
  -- the entry is left as it is
  have leave (h : ∀ entry, w₀.owner.queues.pending[index]? = some entry →
      ∀ prepared, entry.prepared = some prepared → w₀.owner.forwards prepared.handle = true) :
      Spec (Step sdk) (fun w => w = w₀) (pure () : OwnerM Unit)
        (fun _ w => P w ∧ w.owner.ForwardBelow (index + 1) ∧ w.owner.queues.pending.length = n)
        (fun _ w => P w ∧ w.RestorationFailed) :=
    Spec.pureAt ⟨hw₀, hbelow.succ h, hlength⟩
  cases hentry : w₀.owner.queues.pending[index]? with
  | none => exact leave fun entry he => by rw [hentry] at he; cases he
  | some entry =>
    obtain ⟨buffer, port, kernel, prepared⟩ := entry
    cases prepared with
    | none =>
      refine leave fun e he p hp => ?_
      rw [hentry] at he
      cases he
      cases hp
    | some prepared =>
      refine .ite (fun hforwards => leave fun e he p hp => ?_) fun hforwards => ?_
      · rw [hentry] at he
        cases he
        cases hp
        exact hforwards
      · replace hforwards := Bool.eq_false_of_not_eq_true hforwards
        dsimp only
        rcases hrestore : restoreFrame buffer prepared with ⟨packet, code | _⟩
        · refine .bind (R := fun _ w => P w ∧ w.RestorationFailed) ?_
            fun _ => .abort
          refine .updateAt ?_ ?_
          · exact .packet (.restorationFailed index _ prepared packet code _ hentry rfl hforwards
              hrestore)
          · exact ⟨hP _ _ (calm_restorationFailed w₀ index _ packet _ hentry) hw₀, .head _⟩
        · refine spec_setQueues (fun w hw => ?_) fun w hw => ?_
          · rw [hw]
            exact .packet (.restore index _ prepared packet hentry rfl hforwards hrestore)
          · rw [hw]
            refine ⟨hP _ _ (calm_restored w₀ index packet prepared) hw₀, ?_,
              (length_set ..).trans hlength⟩
            refine OwnerState.ForwardBelow.succ (fun i hi e he p hp => ?_) fun e he p hp => ?_
            · refine hbelow i hi e ?_ p hp
              rwa [← getElem?_set_ne (Nat.ne_of_gt hi)]
            · have he : (w₀.owner.queues.pending.set index (Pending.returned packet prepared))[index]?
                = some e := he
              rw [List.getElem?_set_self (List.getElem?_eq_some_iff.mp hentry).1] at he
              cases he
              cases hp

theorem restoreFrom_spec (hP : CalmStable P) (n index : Nat) : Spec (Step sdk)
      (fun w => P w ∧ w.owner.ForwardBelow index ∧ w.owner.queues.pending.length = index + n)
      (restoreFrom n index) (fun _ w => P w ∧ w.owner.AllForward)
      (fun _ w => P w ∧ w.RestorationFailed) := by
  induction n generalizing index with
  | zero =>
    refine .pure fun w ⟨hw, hbelow, hlength⟩ => ⟨hw, OwnerState.ForwardBelow.all ?_⟩
    rw [hlength]
    exact hbelow
  | succ n ih =>
    refine .bind (restoreIndex_spec hP index (index + (n + 1))) fun _ => ?_
    refine (ih (index + 1)).pre fun w ⟨hw, hbelow, hlength⟩ => ⟨hw, hbelow, ?_⟩
    omega

/-- Afterwards every prepared entry may be forwarded. -/
theorem restorePending_spec (hP : CalmStable P) :
    Spec (Step sdk) P restorePending (fun _ w => P w ∧ w.owner.AllForward)
      (fun _ w => P w ∧ w.RestorationFailed) := by
  refine spec_bindSelf fun w₀ hw₀ => ?_
  refine (restoreFrom_spec hP _ 0).pre fun w hw => ?_
  rw [hw]
  exact ⟨hw₀, fun i hi => absurd hi (Nat.not_lt_zero i), (Nat.zero_add _).symm⟩

/-! ## Transmitting -/

@[simp] theorem pending_transmitFront (queues : Queues) :
    queues.transmitFront.pending = queues.pending.tail := by
  unfold Queues.transmitFront
  split <;> simp_all

@[simp] theorem received_transmitFront (queues : Queues) :
    queues.transmitFront.received = queues.received := by
  unfold Queues.transmitFront
  split <;> simp_all

@[simp] theorem quarantined_transmitFront (queues : Queues) :
    queues.transmitFront.quarantined = queues.quarantined := by
  unfold Queues.transmitFront
  split <;> simp_all

@[simp] theorem pending_iterate_transmitFront (queues : Queues) (count : Nat) :
    (Queues.transmitFront^[count] queues).pending = queues.pending.drop count := by
  induction count generalizing queues with
  | zero => rfl
  | succ n ih =>
    rw [Function.iterate_succ_apply, ih, pending_transmitFront, drop_tail]

@[simp] theorem received_iterate_transmitFront (queues : Queues) (count : Nat) :
    (Queues.transmitFront^[count] queues).received = queues.received := by
  induction count generalizing queues with
  | zero => rfl
  | succ n ih => rw [Function.iterate_succ_apply, ih, received_transmitFront]

@[simp] theorem quarantined_iterate_transmitFront (queues : Queues) (count : Nat) :
    (Queues.transmitFront^[count] queues).quarantined = queues.quarantined := by
  induction count generalizing queues with
  | zero => rfl
  | succ n ih => rw [Function.iterate_succ_apply, ih, quarantined_transmitFront]

theorem mem_pending_transmit {count : Nat} {entry : Pending}
    (h : entry ∈ (w.transmit count).owner.queues.pending) : entry ∈ w.owner.queues.pending := by
  have h : entry ∈ (Queues.transmitFront^[count] w.owner.queues).pending := h
  rw [pending_iterate_transmitFront] at h
  exact mem_of_mem_drop h

theorem calm_transmit (w : World) (count : Nat) : Calm w (w.transmit count) :=
  ⟨rfl, rfl, rfl, rfl, quarantined_iterate_transmitFront w.owner.queues count, rfl,
    fun entry he _ hp => ⟨entry, mem_pending_transmit he, hp⟩, id,
    fun h => mem_append_right _ h, fun h => ⟨h.1, h.2⟩⟩

theorem OwnerState.AllForward.transmit (h : w.owner.AllForward) (count : Nat) :
    (w.transmit count).owner.AllForward :=
  fun entry he p hp => h entry (mem_pending_transmit he) p hp

theorem flushBursts_spec (hP : CalmStable P)
    (hquarantined : ∀ w, P w → w.owner.queues.quarantined = none) (n : Nat) :
    Spec (Step sdk) (fun w => P w ∧ w.owner.AllForward) (flushBursts sdk n) (fun _ => P)
      (fun _ => P) := by
  have finish : Spec (Step sdk) (fun w => P w ∧ w.owner.AllForward)
      (setQueues Queues.updatePendingStats) (fun _ => P) (fun _ => P) :=
    (keeps_updatePendingStats hP.frame).pre fun _ h => h.1
  induction n with
  | zero => exact finish
  | succ n ih =>
    refine .bindRead fun w₀ hw₀ => ?_
    cases hpending : w₀.owner.queues.pending with
    | nil => exact spec_from hw₀ finish
    | cons =>
      refine .bind (R := fun _ w => P w ∧ w.owner.AllForward) ?_ fun _ => ?_
      · refine .updateAt ?_ ?_
        · exact .packet (.transmit _ (hquarantined w₀ hw₀.1) fun entry he =>
            hw₀.2 entry (mem_of_mem_take he))
        · exact ⟨hP _ _ (calm_transmit w₀ _) hw₀.1, hw₀.2.transmit _⟩
      · refine .ite (fun _ => ?_) fun _ => .ite (fun _ => finish) fun _ => ih
        refine .pre (?_ : Spec (Step sdk) P _ _ _) fun w h => h.1
        refine .bind (keeps_setOwner hP.frame fun _ => ⟨rfl, id, fun _ => rfl, Nat.le_refl _⟩) fun _ => ?_
        exact .bind (keeps_updatePendingStats hP.frame) fun _ => .abort

theorem flushPending_spec (hP : CalmStable P)
    (hquarantined : ∀ w, P w → w.owner.queues.quarantined = none) :
    Keeps (Step sdk) P (flushPending sdk) := by
  refine .bind (R := fun _ w => P w ∧ w.owner.AllForward) ?_ fun _ => ?_
  · exact (restorePending_spec hP).onError fun _ _ h => h.1
  · exact spec_anySelf fun owner => flushBursts_spec hP hquarantined _

/-! ## VXLAN rules -/

theorem Context.clean_iff (context : Context) :
    context.clean = true ↔ context.flow = none ∧ context.cleanupFailed = false := by
  simp [Context.clean]

/-- A change of the contexts that keeps their flows is calm. -/
theorem calm_amend (w : World) (contexts : Nat → Context)
    (hflow : ∀ slot, (contexts slot).flow = (w.owner.vxlan slot).flow)
    (hcleanup : ∀ slot, (contexts slot).cleanupFailed = (w.owner.vxlan slot).cleanupFailed) :
    Calm w { w with owner := { w.owner with vxlan := contexts } } := by
  refine Calm.of rfl id fun h => ⟨h.1, fun slot hs => ?_⟩
  have := h.2 slot hs
  unfold Context.clean at this ⊢
  rwa [hflow, hcleanup]

theorem calm_vxlanCreated (w : World) (slot : Nat) (h : w.owner.quiescing = false) :
    Calm w (w.vxlanCreated slot) :=
  Calm.of rfl (fun h => .tail _ h) fun hv => by rw [hv.1] at h; cases h

theorem calm_vxlanDestroyed (w : World) (slot : Nat) (flow : Flow) (ok : Bool)
    (hslot : slot < maximumReceivers) (hflow : (w.owner.vxlan slot).flow = some flow) :
    Calm w (w.vxlanDestroyed slot flow ok) := by
  refine Calm.of rfl (fun h => .tail _ h) fun hv => ?_
  rw [((Context.clean_iff _).mp (hv.2 slot hslot)).1] at hflow
  cases hflow

/-- The contexts of a set are clean. -/
def World.VxlanClean (w : World) (done : Nat → Prop) : Prop :=
  ∀ slot, done slot → (w.owner.vxlan slot).clean = true

/-- A rule is taken down, and no other context touched. -/
theorem removeVxlan_spec (hP : CalmStable P) (done : Nat → Prop) (slot : Nat)
    (hslot : slot < maximumReceivers) :
    Spec (Step sdk) (fun w => P w ∧ w.VxlanClean done) (removeVxlan sdk slot)
      (fun _ w => P w ∧ w.VxlanClean fun s => done s ∨ s = slot)
      (fun _ w => P w ∧ w.VxlanClean done) := by
  refine .bindRead fun w₀ hw₀ => ?_
  have fail (w : World) (hw : w = w₀) : P w ∧ w.VxlanClean done := by rw [hw]; exact hw₀
  refine .bindRefuse (fun w hw _ => fail w hw) fun hc => ?_
  have hcleanup := Bool.eq_false_of_not_eq_true hc
  cases hflow : (w₀.owner.vxlan slot).flow with
  | none =>
    refine .pureAt ⟨hw₀.1, fun s hs => ?_⟩
    rcases hs with hs | rfl
    · exact hw₀.2 s hs
    · exact (Context.clean_iff _).mpr ⟨hflow, hcleanup⟩
  | some flow =>
    have hother (ok : Bool) (s : Nat) (hs : done s) :
        ((w₀.vxlanDestroyed slot flow ok).owner.vxlan s).clean = true := by
      have hne : s ≠ slot := by
        rintro rfl
        rw [((Context.clean_iff _).mp (hw₀.2 s hs)).1] at hflow
        cases hflow
      exact (congrArg Context.clean (Function.update_of_ne hne _ _)).trans (hw₀.2 s hs)
    refine .bindChecked (fun _ => fail) fun _ _ => ?_
    refine .bind (R := fun _ w => w = w₀.vxlanDestroyed slot flow
      (sdk.flowDestroy w₀.calls = 0)) (.updateAt (.vxlan (.destroy slot flow _ hslot hflow)) rfl)
      fun _ => ?_
    have hcalm := hP _ _ (calm_vxlanDestroyed w₀ slot flow (sdk.flowDestroy w₀.calls = 0) hslot hflow)
      hw₀.1
    refine .ite (fun hok => .pureAt ⟨hcalm, fun s hs => ?_⟩) fun _ => ?_
    · rcases hs with hs | rfl
      · exact hother _ s hs
      · simp [World.vxlanDestroyed, World.setContext, Context.clean_iff, hcleanup, hok]
    · refine .bind (R := fun _ w => P w ∧ w.VxlanClean done) ?_ fun _ => .abort
      refine spec_from (P := fun w => P w ∧ w.VxlanClean done) ⟨hcalm, hother _⟩ (spec_setOwner (fun w' _ => .frame ?_) fun w' hw' =>
        ⟨hP w' _ (Frame.calm ?_) hw'.1, hw'.2⟩)
      all_goals exact ⟨rfl, fun _ => rfl, fun _ => rfl, Nat.le_refl _⟩

/-- The rules of all contexts are taken down, as far as that succeeds. -/
theorem suspendVxlanRules_spec (hP : CalmStable P) : Spec (Step sdk) P (suspendVxlanRules sdk)
      (fun _ w => P w ∧ w.VxlanClean (· < maximumReceivers)) (fun _ => P) := by
  -- while no rule has failed, the contexts no longer in the list are clean
  let I : List Nat → Option NativeError → World → Prop := fun rest failure w =>
    (∀ s ∈ rest, s < maximumReceivers) ∧ P w ∧
      w.VxlanClean fun s => failure = none ∧ s < maximumReceivers ∧ s ∉ rest
  refine .bind (R := fun failure => I [] failure) ?_ fun failure => ?_
  · refine (Spec.foldlM (I := I) (fun slot rest failure => ?_) _ none).pre fun w hw => ?_
    · refine Spec.given fun w ⟨hrest, hw⟩ => ?_
      have hslot := hrest slot mem_cons_self
      refine spec_from (P := fun w => P w ∧ w.VxlanClean
        fun s => failure = none ∧ s < maximumReceivers ∧ s ∉ slot :: rest) hw ?_
      refine .bind (R := fun new w => I rest (failure.or new) w) (.err
        (removeVxlan_spec hP _ slot hslot) (fun w' h => ?_) fun e w' h => ?_)
        fun _ => .pure fun _ h => h
      · refine ⟨fun s hs => hrest s (.tail _ hs), h.1, fun s hs => h.2 s ?_⟩
        rw [Option.or_none] at hs
        by_cases heq : s = slot
        · exact .inr heq
        · exact .inl ⟨hs.1, hs.2.1, fun hmem => hs.2.2 ((mem_cons.mp hmem).resolve_left heq)⟩
      · refine ⟨fun s hs => hrest s (.tail _ hs), h.1, fun s hs => ?_⟩
        cases failure <;> cases hs.1
    · exact ⟨fun s hs => mem_range.mp hs, hw, fun s hs =>
        absurd (mem_range.mpr hs.2.1) hs.2.2⟩
  · cases failure with
    | none => exact .pure fun w h => ⟨h.2.1, fun s hs => h.2.2 s ⟨rfl, hs, not_mem_nil⟩⟩
    | some => exact .throw fun w h => h.2.1

end Programs

end Mwan.Native

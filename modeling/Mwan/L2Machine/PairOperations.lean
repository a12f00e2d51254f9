import Mwan.Core.Maps
import Mwan.L2Machine.Admission
import Mwan.L2Machine.Calm

/-!
# What the pair operations do

Between operations an owner is `Quiet`: a pair that drains has no rule left,
every prepared packet has its pair installed. An operation on one slot may
break this for that slot, and only while it runs. Each program is gone through
once: its changes are steps of `L2Machine.Steps`, and it ends, with or without
an error, in a quiet owner.

Results:
* `deletePair_spec`: a deletion without error leaves the slot without rules;
* `installPair_spec`, `resumePair_spec`, `reobservePair_spec`.
-/
namespace Mwan.Native

open Mwan.Core Mwan.Core.Exec Mwan.Core.Prog List

/-! ## Quiet owners -/

/-- What is asserted of an owner beyond the general: its configuration, slots
an operation is working on, slots whose pairs have been deleted, VXLAN contexts
retired. -/
structure Scope where
  config : Config → Prop := fun config => config.receivers.length ≤ maximumReceivers
  busy : Nat → Prop := fun _ => False
  done : Nat → Prop := fun _ => False
  vxlan : Prop := False

/-- The pairs are in order, except perhaps those of busy slots. -/
structure Settled (scope : Scope) (w : World) : Prop where
  present : w.present = true
  config : scope.config w.owner.config
  clean : ∀ slot, (w.owner.table.pairs slot).state = .absent ∨
    (w.owner.table.pairs slot).state = .draining ∧ ¬ scope.busy slot →
      (w.owner.table.pairs slot).clean = true
  retained : ∀ handle pair, w.owner.table.retained.lookup handle = some pair →
    pair.state = .draining
  idle : w.RestorationFailed ∨ w.owner.active = true ∨ w.owner.NonePrepared
  done : ∀ slot, scope.done slot → (w.owner.table.pairs slot).clean = true ∧
    (w.owner.table.pairs slot).state ≠ .installed
  vxlan : scope.vxlan → w.VxlanRetired

/-- Every prepared packet has its pair installed, as long as no restoration
has failed. -/
def World.Prepared (w : World) : Prop := w.RestorationFailed ∨ w.owner.PreparedInstalled

/-- The owner between operations. -/
structure Quiet (scope : Scope) (w : World) : Prop extends Settled scope w where
  prepared : w.Prepared

theorem OwnerState.installed_iff (owner : OwnerState) (handle : Handle) :
    owner.installed handle = true ↔
      handle.instance_ = owner.instance_ ∧ handle.slot.toNat < owner.capacity ∧
      (owner.table.pairs handle.slot.toNat).generation = handle.generation ∧
      (owner.table.pairs handle.slot.toNat).state = .installed := by
  simp [OwnerState.installed, and_assoc]

theorem mem_directionIndexes (index : Fin 2) : index ∈ directionIndexes := by
  revert index
  decide

variable {w w' : World}

theorem Calm.capacity (h : Calm w w') : w'.owner.capacity = w.owner.capacity :=
  congrArg (·.pairCapacity.toNat) h.config

theorem Calm.installed (h : Calm w w') (handle : Handle) :
    w'.owner.installed handle = w.owner.installed handle := by
  rw [Bool.eq_iff_iff, OwnerState.installed_iff, OwnerState.installed_iff, h.table, h.capacity,
    h.instance_]

theorem settled_calm (scope : Scope) : CalmStable (Settled scope) := by
  intro w w' h hw
  constructor
  case present => exact h.present.trans hw.present
  case config => rw [h.config]; exact hw.config
  case clean => rw [h.table]; exact hw.clean
  case retained => rw [h.table]; exact hw.retained
  case done => rw [h.table]; exact hw.done
  case vxlan => exact fun hv => h.vxlan (hw.vxlan hv)
  case idle =>
    rcases hw.idle with hf | ha | hn
    · exact .inl (h.failed hf)
    · exact .inr (.inl (h.active.trans ha))
    · refine .inr (.inr fun entry he => ?_)
      cases hp : entry.prepared with
      | none => rfl
      | some prepared =>
        obtain ⟨before, hb, hprepared⟩ := h.prepared entry he prepared hp
        rw [hn before hb] at hprepared
        cases hprepared

theorem prepared_calm : CalmStable World.Prepared := by
  intro w w' h hw
  rcases hw with hf | hi
  · exact .inl (h.failed hf)
  · refine .inr fun entry he prepared hp => ?_
    obtain ⟨before, hb, hprepared⟩ := h.prepared entry he prepared hp
    rw [h.installed]
    exact hi before hb prepared hprepared

theorem quiet_calm (scope : Scope) : CalmStable (Quiet scope) :=
  fun w w' h hw => ⟨settled_calm scope w w' h hw.toSettled, prepared_calm w w' h hw.prepared⟩

variable {scope : Scope}

/-- Less is asserted, or what is known of a slot's pair in particular. -/
theorem Settled.weaken {scope' : Scope} (h : Settled scope w)
    (hconfig : ∀ config, scope.config config → scope'.config config)
    (hbusy : ∀ slot, (w.owner.table.pairs slot).state = .draining → scope.busy slot →
      scope'.busy slot ∨ (w.owner.table.pairs slot).clean = true)
    (hdone : ∀ slot, scope'.done slot → scope.done slot ∨
      (w.owner.table.pairs slot).clean = true ∧ (w.owner.table.pairs slot).state ≠ .installed)
    (hvxlan : scope'.vxlan → scope.vxlan) : Settled scope' w :=
  { h with
    config := hconfig _ h.config
    clean := by
      rintro slot (habsent | ⟨hdraining, hidle⟩)
      · exact h.clean slot (.inl habsent)
      · by_cases hb : scope.busy slot
        · exact (hbusy slot hdraining hb).resolve_left hidle
        · exact h.clean slot (.inr ⟨hdraining, hb⟩)
    done := fun slot hs => (hdone slot hs).elim (h.done slot) id
    vxlan := fun hv => h.vxlan (hvxlan hv) }

/-- A quiet owner is quiet in the general sense. -/
theorem Quiet.general (h : Quiet scope w)
    (hconfig : ∀ config, scope.config config → config.receivers.length ≤ maximumReceivers)
    (hbusy : ∀ slot, ¬ scope.busy slot) : Quiet {} w :=
  ⟨h.toSettled.weaken hconfig (fun slot _ hb => absurd hb (hbusy slot)) (fun _ hd => hd.elim)
    fun hv => hv.elim, h.prepared⟩

/-! ## Changing one pair -/

/-- One pair is replaced, and perhaps the inverse map changed. -/
structure PairChange (w w' : World) (slot : Nat) (pair : Pair) : Prop where
  config : w'.owner.config = w.owner.config
  instance_ : w'.owner.instance_ = w.owner.instance_
  active : w'.owner.active = w.owner.active
  quiescing : w'.owner.quiescing = w.owner.quiescing
  vxlan : w'.owner.vxlan = w.owner.vxlan
  pending : w'.owner.queues.pending = w.owner.queues.pending
  retained : w'.owner.table.retained = w.owner.table.retained
  present : w'.present = w.present
  pairs : w'.owner.table.pairs = Function.update w.owner.table.pairs slot pair
  failed : w.RestorationFailed → w'.RestorationFailed

variable {pair : Pair}

variable {slot : Nat}

theorem PairChange.capacity (h : PairChange w w' slot pair) :
    w'.owner.capacity = w.owner.capacity :=
  congrArg (·.pairCapacity.toNat) h.config

theorem PairChange.self (h : PairChange w w' slot pair) : w'.owner.table.pairs slot = pair := by
  rw [h.pairs, Function.update_self]

theorem PairChange.other (h : PairChange w w' slot pair) {s : Nat} (hs : s ≠ slot) :
    w'.owner.table.pairs s = w.owner.table.pairs s := by
  rw [h.pairs, Function.update_of_ne hs]

/-- One leg of the pair changes. -/
theorem PairChange.legs {index : Fin 2} {leg : Leg}
    (h : PairChange w w' slot ((w.owner.table.pairs slot).setLeg index leg)) (i : Fin 2) :
    (w'.owner.table.pairs slot).legs i =
      if i = index then leg else (w.owner.table.pairs slot).legs i := by
  rw [h.self]
  exact Function.update_apply ..

theorem Settled.change (hw : Settled scope w) (h : PairChange w w' slot pair)
    (hclean : pair.state = .absent ∨ pair.state = .draining ∧ ¬ scope.busy slot → pair.clean = true)
    (hdone : scope.done slot → pair.clean = true ∧ pair.state ≠ .installed) :
    Settled scope w' := by
  have cases (s : Nat) : s = slot ∧ w'.owner.table.pairs s = pair ∨
      w'.owner.table.pairs s = w.owner.table.pairs s := by
    by_cases hs : s = slot
    · exact .inl ⟨hs, by rw [hs]; exact h.self⟩
    · exact .inr (h.other hs)
  constructor
  case present => exact h.present.trans hw.present
  case config => rw [h.config]; exact hw.config
  case retained => rw [h.retained]; exact hw.retained
  case clean =>
    intro s
    rcases cases s with ⟨rfl, hs⟩ | hs
    · rw [hs]; exact hclean
    · rw [hs]; exact hw.clean s
  case done =>
    intro s
    rcases cases s with ⟨rfl, hs⟩ | hs
    · rw [hs]; exact hdone
    · rw [hs]; exact hw.done s
  case vxlan =>
    intro hv
    exact ⟨h.quiescing.trans (hw.vxlan hv).1, by rw [h.vxlan]; exact (hw.vxlan hv).2⟩
  case idle =>
    rcases hw.idle with hf | ha | hn
    · exact .inl (h.failed hf)
    · exact .inr (.inl (h.active.trans ha))
    · exact .inr (.inr (by unfold OwnerState.NonePrepared; rw [h.pending]; exact hn))

theorem World.Prepared.change (hw : w.Prepared) (h : PairChange w w' slot pair)
    (hstate : (w.owner.table.pairs slot).state = .installed →
      pair.state = .installed ∧ pair.generation = (w.owner.table.pairs slot).generation) :
    w'.Prepared := by
  rcases hw with hf | hi
  · exact .inl (h.failed hf)
  · refine .inr fun entry he prepared hp => ?_
    rw [h.pending] at he
    obtain ⟨hinstance, hbound, hgeneration, hinstalled⟩ :=
      (OwnerState.installed_iff _ _).mp (hi entry he prepared hp)
    rw [OwnerState.installed_iff, h.capacity, h.instance_]
    by_cases hs : prepared.handle.slot.toNat = slot
    · rw [hs] at hbound hgeneration hinstalled
      obtain ⟨hs', hg⟩ := hstate hinstalled
      rw [hs, h.self]
      exact ⟨hinstance, hbound, hg.trans hgeneration, hs'⟩
    · rw [h.other hs]
      exact ⟨hinstance, hbound, hgeneration, hinstalled⟩

theorem change_setState (w : World) (slot : Nat) (state : PairState) :
    PairChange w (w.setState slot state) slot { w.owner.table.pairs slot with state := state } :=
  ⟨rfl, rfl, rfl, rfl, rfl, rfl, rfl, rfl, rfl, id⟩

theorem Pair.clean_iff (pair : Pair) : pair.clean = true ↔ ∀ index, (pair.legs index).clean = true := by
  simp [Pair.clean, directionIndexes, Fin.forall_fin_two]

theorem Leg.clean_iff (leg : Leg) : leg.clean = true ↔ leg.flow = none ∧ leg.deleteFailed = false := by
  simp [Leg.clean]

/-! ## Deleting -/

section Delete

variable {sdk : Sdk}

/-- The pair of a slot is being deleted. -/
structure Deleting (scope : Scope) (slot : Nat) (w : World) : Prop extends Settled scope w where
  busy : scope.busy slot
  notDone : ¬ scope.done slot
  bound : slot < w.owner.capacity
  draining : (w.owner.table.pairs slot).state = .draining

theorem deleting_calm (scope : Scope) (slot : Nat) : CalmStable (Deleting scope slot) := by
  intro w w' h hw
  refine ⟨settled_calm scope w w' h hw.toSettled, hw.busy, hw.notDone, ?_, ?_⟩
  · rw [h.capacity]
    exact hw.bound
  · rw [h.table]
    exact hw.draining

/-- A leg of the pair being deleted changes. -/
theorem Deleting.change (hw : Deleting scope slot w) (h : PairChange w w' slot pair)
    (hstate : pair.state = .draining) :
    Deleting scope slot w' := by
  refine ⟨hw.toSettled.change h (fun hc => ?_) fun hd => absurd hd hw.notDone, hw.busy, hw.notDone,
    ?_, ?_⟩
  · rw [hstate] at hc
    rcases hc with hc | ⟨_, hc⟩
    · cases hc
    · exact absurd hw.busy hc
  · rw [h.capacity]
    exact hw.bound
  · rw [h.self]
    exact hstate

/-- The legs that are done with are clean unless something has failed. -/
structure DeletingLegs (scope : Scope) (slot : Nat) (rest : List (Fin 2))
    (failure : Option NativeError) (w : World) : Prop extends Deleting scope slot w where
  prepared : w.Prepared
  legs : failure = none → ∀ index, index ∉ rest →
    ((w.owner.table.pairs slot).legs index).clean = true

theorem destroyLeg_spec (scope : Scope) (slot : Nat) (index : Fin 2) (rest : List (Fin 2))
    (failure : Option NativeError) :
    Spec (Step sdk) (DeletingLegs scope slot (index :: rest) failure)
      (destroyLeg sdk slot failure index) (fun failure => DeletingLegs scope slot rest failure)
      (fun _ _ => False) := by
  refine .bindRead fun w₀ hw₀ => ?_
  -- a failure leaves nothing to be shown about the legs
  have failed (error : NativeError) {w : World} (hw : Deleting scope slot w) (hp : w.Prepared) :
      DeletingLegs scope slot rest (failure.or (some error)) w :=
    ⟨hw, hp, fun h => by cases failure <;> cases h⟩
  refine .ite (fun _ => .pureAt (failed _ hw₀.toDeleting hw₀.prepared)) fun hfailed => ?_
  have hfailed := Bool.eq_false_of_not_eq_true hfailed
  cases hflow : ((w₀.owner.table.pairs slot).legs index).flow with
  | none =>
    refine .pureAt ⟨hw₀.toDeleting, hw₀.prepared, fun h i hi => ?_⟩
    by_cases heq : i = index
    · rw [heq]
      exact (Leg.clean_iff _).mpr ⟨hflow, hfailed⟩
    · exact hw₀.legs h i fun hmem => hi ((mem_cons.mp hmem).resolve_left heq)
  | some flow =>
    dsimp only
    cases w₀.owner.controllerPort (w₀.owner.config.origin
      ((w₀.owner.table.pairs slot).spec.directions index).originId).controller with
    | error error => exact .pureAt (failed _ hw₀.toDeleting hw₀.prepared)
    | ok _ =>
      have hchange (ok : Bool) : PairChange w₀ (w₀.destroyed slot index flow ok) slot _ :=
        ⟨rfl, rfl, rfl, rfl, rfl, rfl, rfl, rfl, rfl, fun h => .tail _ h⟩
      have hdeleting (ok : Bool) := hw₀.toDeleting.change (hchange ok) hw₀.draining
      have hprepared (ok : Bool) : (w₀.destroyed slot index flow ok).Prepared :=
        hw₀.prepared.change (hchange ok) fun h => by rw [hw₀.draining] at h; cases h
      refine .bind (R := fun _ w => w = w₀.destroyed slot index flow
        (sdk.flowDestroy w₀.calls = 0)) (.updateAt ?_ rfl) fun _ => ?_
      · exact .pair (.destroy slot index flow _ hw₀.bound hw₀.draining hflow)
      · refine .ite (fun hok => .pureAt ⟨hdeleting _, hprepared _, fun h i hi => ?_⟩)
          fun _ => .pureAt (failed _ (hdeleting _) (hprepared _))
        rw [(hchange _).legs]
        by_cases heq : i = index
        · rw [if_pos heq, Leg.clean_iff]
          simp [hfailed, hok]
        · rw [if_neg heq]
          exact hw₀.legs h i fun hmem => hi ((mem_cons.mp hmem).resolve_left heq)

/-- The scope during the deletion of a slot. -/
def Scope.deleting (scope : Scope) (slot : Nat) : Scope :=
  { scope with busy := (· = slot), done := fun s => scope.done s ∧ s ≠ slot }

/-- The scope after the deletion of a slot. -/
def Scope.deleted (scope : Scope) (slot : Nat) : Scope :=
  { scope with busy := fun _ => False, done := fun s => scope.done s ∨ s = slot }

/-- The scope after a failed deletion of a slot. -/
def Scope.undeleted (scope : Scope) (slot : Nat) : Scope :=
  { scope with busy := fun _ => False, done := fun s => scope.done s ∧ s ≠ slot }

/-- A deletion without error leaves the slot without rules; with an error its
pair has faulted. -/
theorem deletePair_spec (scope : Scope) (slot : Nat) (hbusy : ∀ s, scope.busy s → s = slot) :
    Spec (Step sdk) (fun w => Quiet scope w ∧ slot < w.owner.capacity) (deletePair sdk slot)
      (fun _ => Quiet (scope.deleted slot)) (fun _ => Quiet (scope.undeleted slot)) := by
  refine spec_bindSelf fun w₀ ⟨hw₀, hbound⟩ => ?_
  refine .ite (fun habsent => .pureAt ⟨?_, hw₀.prepared⟩) fun hpresent => ?_
  · have hslot := hw₀.clean slot (.inl habsent)
    refine hw₀.toSettled.weaken (fun _ hc => hc) (fun s _ hb => .inr ?_) (fun s hs => ?_) id
    · rw [hbusy s hb]
      exact hslot
    · refine hs.imp id ?_
      rintro rfl
      exact ⟨hslot, by rw [habsent]; decide⟩
  have hsettled : Settled (scope.deleting slot) w₀ :=
    hw₀.toSettled.weaken (fun _ hc => hc) (fun s _ hb => .inl (hbusy s hb)) (fun _ hs => .inl hs.1) id
  refine .bind (R := fun _ => Deleting (scope.deleting slot) slot)
    (.updateAt (.pair (.drain slot hbound hpresent)) ?_) fun _ => ?_
  · refine ⟨hsettled.change (change_setState w₀ slot .draining) ?_ fun h => absurd rfl h.2, rfl,
      fun h => h.2 rfl, hbound, ?_⟩
    · rintro (h | ⟨_, h⟩)
      · cases h
      · exact absurd rfl h
    · exact congrArg Pair.state (change_setState w₀ slot .draining).self
  refine .bind (R := fun _ w => Deleting (scope.deleting slot) slot w ∧ w.Prepared)
    (.err (restorePending_spec (deleting_calm _ _)) (fun w h => ⟨h.1, .inr h.2.installed⟩)
      fun _ w h => ⟨h.1, .inl h.2⟩) fun failure => ?_
  refine .bind (R := fun failure => DeletingLegs (scope.deleting slot) slot [] failure)
    ((Spec.foldlM (fun index rest failure => destroyLeg_spec _ slot index rest failure)
      directionIndexes failure).conseq (fun w h => ⟨h.1, h.2, fun _ index hi => ?_⟩)
      (fun _ _ h => h) fun _ _ h => h.elim) fun failure => ?_
  · exact absurd (mem_directionIndexes index) hi
  cases failure with
  | none =>
    refine Spec.pure fun w hw => ?_
    have hslot := (Pair.clean_iff _).mpr fun index => hw.legs rfl index not_mem_nil
    refine ⟨hw.toSettled.weaken (fun _ hc => hc) (fun s _ hb => .inr (hb ▸ hslot)) (fun s hs => ?_) id,
      hw.prepared⟩
    by_cases heq : s = slot
    · rw [heq]
      exact .inr ⟨hslot, by rw [hw.draining]; decide⟩
    · exact .inl ⟨hs.resolve_right heq, heq⟩
  | some =>
    refine .bind (R := fun _ => Quiet (scope.undeleted slot))
      (.update (fun w hw => ?_) fun w hw => ?_) fun _ => .abort
    · exact .pair (.faultPair slot hw.bound hw.draining)
    · have hchange : PairChange w (w.faultPair slot) slot
          { w.owner.table.pairs slot with state := .faulted } :=
        ⟨rfl, rfl, rfl, rfl, rfl, rfl, rfl, rfl, rfl, id⟩
      have hsettled := hw.toSettled.change hchange
        (by rintro (h | ⟨h, _⟩) <;> cases h) fun h => absurd h hw.notDone
      refine ⟨hsettled.weaken (fun _ hc => hc) (fun s hs hb => ?_) (fun _ => .inl) id,
        hw.prepared.change hchange fun h => by rw [hw.draining] at h; cases h⟩
      rw [show s = slot from hb, hchange.self] at hs
      cases hs

end Delete

/-! ## Activating -/

section Activate

variable {sdk : Sdk} {slot : Nat}

/-- A pair whose requested legs have their inverses and wait for their rules,
those in `rest` still without. -/
structure Activating (slot : Nat) (spec : PairSpec) (rest : List (Fin 2)) (w : World) : Prop
    extends Quiet { busy := (· = slot) } w where
  bound : slot < w.owner.capacity
  draining : (w.owner.table.pairs slot).state = .draining
  specified : (w.owner.table.pairs slot).spec = spec
  inverse : ∀ index, spec.requests index = true →
    ((w.owner.table.pairs slot).legs index).inverse = true
  flow : ∀ index, spec.requests index = true → index ∉ rest →
    ((w.owner.table.pairs slot).legs index).flow.isSome = true
  waiting : ∀ index ∈ rest, ((w.owner.table.pairs slot).legs index).clean = true
  nodup : rest.Nodup

theorem activating_calm (slot : Nat) (spec : PairSpec) (rest : List (Fin 2)) :
    CalmStable (Activating slot spec rest) := by
  intro w w' h hw
  refine ⟨quiet_calm _ w w' h hw.toQuiet, ?_, ?_, ?_, ?_, ?_, ?_, hw.nodup⟩
  · rw [h.capacity]; exact hw.bound
  · rw [h.table]; exact hw.draining
  · rw [h.table]; exact hw.specified
  · rw [h.table]; exact hw.inverse
  · rw [h.table]; exact hw.flow
  · rw [h.table]; exact hw.waiting

theorem createFlow_spec (spec : PairSpec) (direction : Direction) (index : Fin 2)
    (rest : List (Fin 2)) (hrequested : spec.requests index = true) :
    Spec (Step sdk) (Activating slot spec (index :: rest)) (createFlow sdk slot direction index)
      (fun _ => Activating slot spec rest) (fun _ => Activating slot spec (index :: rest)) := by
  refine .bindRead fun w₀ hw₀ => .bindChecked (fun _ w hw => ?_) fun _ _ => ?_
  · rw [hw]; exact hw₀
  cases sdk.flowCreate w₀.calls with
  | some =>
    exact spec_from hw₀ (.bind (keeps_call (activating_calm slot spec _).aside) fun _ =>
      Spec.abort)
  | none =>
    refine .updateAt ?_ ?_
    · exact .pair (.create slot index hw₀.bound hw₀.draining (hw₀.inverse index hrequested)
        (hw₀.waiting index mem_cons_self))
    · have hchange : PairChange w₀ (w₀.created slot index) slot _ :=
        ⟨rfl, rfl, rfl, rfl, rfl, rfl, rfl, rfl, rfl, fun h => .tail _ h⟩
      have hnotin : index ∉ rest := (nodup_cons.mp hw₀.nodup).1
      refine ⟨⟨hw₀.toSettled.change hchange ?_ fun h => h.elim,
        hw₀.prepared.change hchange fun h => by rw [hw₀.draining] at h; cases h⟩, hw₀.bound, ?_, ?_,
        fun i hi => ?_, fun i hi hr => ?_, fun i hi => ?_, (nodup_cons.mp hw₀.nodup).2⟩
      · rintro (h | ⟨_, h⟩)
        · exact absurd (hw₀.draining.symm.trans h) (by decide)
        · exact absurd rfl h
      · rw [hchange.self]; exact hw₀.draining
      · rw [hchange.self]; exact hw₀.specified
      · rw [hchange.legs]
        by_cases heq : i = index
        · rw [if_pos heq, ← heq]; exact hw₀.inverse i hi
        · rw [if_neg heq]; exact hw₀.inverse i hi
      · rw [hchange.legs]
        by_cases heq : i = index
        · rw [if_pos heq]; rfl
        · rw [if_neg heq]
          exact hw₀.flow i hi fun hmem => hr ((mem_cons.mp hmem).resolve_left heq)
      · rw [hchange.legs, if_neg fun heq : i = index => hnotin (heq ▸ hi)]
        exact hw₀.waiting i (.tail _ hi)

theorem activateLeg_spec (spec : PairSpec) (index : Fin 2) (rest : List (Fin 2)) :
    Spec (Step sdk) (Activating slot spec (index :: rest)) (activateLeg sdk slot spec index)
      (fun _ => Activating slot spec rest) (fun _ => Quiet {}) := by
  refine .ite (fun hrequested => ?_) fun hskip => .pure fun w hw => ?_
  · refine .bind (R := fun failure w => failure.elim (Activating slot spec rest w)
      fun _ => Activating slot spec (index :: rest) w)
      (.err (createFlow_spec spec _ index rest hrequested) (fun _ h => h) fun _ _ h => h)
      fun failure => ?_
    cases failure with
    | none => exact .skip
    | some =>
      refine .bind (R := fun _ => Quiet {}) (.err ((deletePair_spec
        { busy := (· = slot) } slot fun _ h => h).pre fun w h => ⟨h.toQuiet, h.bound⟩)
        (fun w h => h.general (fun _ hc => hc) fun _ hb => hb) fun _ w h => h.general (fun _ hc => hc) fun _ hb => hb) fun cleanup => ?_
      exact .bind (keeps_setOut (quiet_calm {}).aside _) fun _ => .abort
  · refine { hw with
      flow := fun i hi hr => ?_
      waiting := fun i hi => hw.waiting i (.tail _ hi)
      nodup := (nodup_cons.mp hw.nodup).2 }
    refine hw.flow i hi fun hmem => hr ((mem_cons.mp hmem).resolve_left ?_)
    rintro rfl
    exact hskip hi

/-- The pair of a slot is ready for its rules. -/
structure Ready (slot : Nat) (w : World) : Prop extends Quiet {} w where
  bound : slot < w.owner.capacity
  draining : (w.owner.table.pairs slot).state = .draining
  inverse : ∀ index, (w.owner.table.pairs slot).spec.requests index = true →
    ((w.owner.table.pairs slot).legs index).inverse = true

/-- A pair is installed with all its rules, or not at all. -/
theorem activatePair_spec : Spec (Step sdk) (Ready slot) (activatePair sdk slot)
      (fun _ w => Quiet {} w ∧ slot < w.owner.capacity) (fun _ => Quiet {}) := by
  refine spec_bindSelf fun w₀ hw₀ => ?_
  refine .bind (R := fun _ => Activating slot (w₀.owner.table.pairs slot).spec [])
    ((Spec.forM (activateLeg_spec _) directionIndexes).pre fun w hw => ?_) fun _ => ?_
  · rw [hw]
    have hclean := (Pair.clean_iff _).mp (hw₀.clean slot (.inr ⟨hw₀.draining, fun h => h⟩))
    exact ⟨⟨hw₀.toSettled.weaken (fun _ hc => hc) (fun _ _ hb => hb.elim) (fun _ => .inl) id, hw₀.prepared⟩,
      hw₀.bound, hw₀.draining, rfl, hw₀.inverse, fun i _ hi => absurd (mem_directionIndexes i) hi,
      fun i _ => hclean i, by decide⟩
  refine Spec.bind (R := fun _ w => Quiet {} w ∧ slot < w.owner.capacity)
    (.update (fun w hw => ?_) fun w hw => ?_) fun _ => ?_
  · refine .pair (.install slot hw.bound hw.draining (fun i hi => ?_) hw.prepared)
    rw [hw.specified] at hi
    exact ⟨hw.flow i hi not_mem_nil, hw.inverse i hi⟩
  · have hchange := change_setState w slot .installed
    have hsettled := hw.toSettled.change hchange (by rintro (h | ⟨h, _⟩) <;> cases h)
      fun h => h.elim
    refine ⟨⟨hsettled.weaken (fun _ hc => hc) (fun s hs hb => ?_) (fun _ => .inl) id,
      hw.prepared.change hchange fun h => by rw [hw.draining] at h; cases h⟩, hw.bound⟩
    rw [show s = slot from hb, hchange.self] at hs
    cases hs
  · refine (keeps_setOut (P := fun w => Quiet {} w ∧ slot < w.owner.capacity)
      (fun w _ _ hc h => ⟨(quiet_calm {}).aside w _ _ hc h.1, h.2⟩) _).onError fun _ _ h => h.1

end Activate

/-! ## Installing -/

variable {spec : PairSpec}

variable {index : Fin 2} {rest : List (Fin 2)}

section Install

variable {sdk : Sdk} {slot : Nat}

/-- A new pair whose requested legs enter the inverse map, those in `rest`
still to come. -/
structure Indexing (slot : Nat) (spec : PairSpec) (rest : List (Fin 2)) (w : World) : Prop
    extends Quiet {} w where
  bound : slot < w.owner.capacity
  draining : (w.owner.table.pairs slot).state = .draining
  specified : (w.owner.table.pairs slot).spec = spec
  inverse : ∀ index, spec.requests index = true → index ∉ rest →
    ((w.owner.table.pairs slot).legs index).inverse = true
  waiting : ∀ index ∈ rest, ((w.owner.table.pairs slot).legs index).inverse = false
  nodup : rest.Nodup

theorem Indexing.indexed (hw : Indexing slot spec (index :: rest) w) :
    Indexing slot spec rest (w.indexed slot index) := by
  have hchange : PairChange w (w.indexed slot index) slot _ :=
    ⟨rfl, rfl, rfl, rfl, rfl, rfl, rfl, rfl, rfl, id⟩
  have hnotin : index ∉ rest := (nodup_cons.mp hw.nodup).1
  have hclean := (Pair.clean_iff _).mp (hw.clean slot (.inr ⟨hw.draining, fun h => h⟩))
  refine ⟨⟨hw.toSettled.change hchange (fun _ => (Pair.clean_iff _).mpr fun i => ?_) fun h => h.elim,
    hw.prepared.change hchange fun h => by rw [hw.draining] at h; cases h⟩, hw.bound, ?_, ?_,
    fun i hi hr => ?_, fun i hi => ?_, (nodup_cons.mp hw.nodup).2⟩
  · rw [← hchange.self, hchange.legs]
    split
    · exact hclean index
    · exact hclean i
  · rw [hchange.self]; exact hw.draining
  · rw [hchange.self]; exact hw.specified
  · rw [hchange.legs]
    by_cases heq : i = index
    · rw [if_pos heq]
    · rw [if_neg heq]
      exact hw.inverse i hi fun hmem => hr ((mem_cons.mp hmem).resolve_left heq)
  · rw [hchange.legs, if_neg fun heq : i = index => hnotin (heq ▸ hi)]
    exact hw.waiting i (.tail _ hi)

theorem indexLeg_spec (spec : PairSpec) (index : Fin 2) (rest : List (Fin 2)) :
    Spec (Step sdk) (Indexing slot spec (index :: rest)) (indexLeg sdk slot spec index)
      (fun _ => Indexing slot spec rest) (fun _ => Quiet {}) := by
  refine spec_bindSelf fun w₀ hw₀ => .ite (fun hrequested => ?_) fun hskip => ?_
  · have hrequests : (w₀.owner.table.pairs slot).spec.requests index = true := by
      rw [hw₀.specified]; exact hrequested
    refine .ite (fun hkey => ?_) fun hkey => ?_
    · rw [← hw₀.specified] at hkey
      refine .bind (R := fun _ w => Quiet {} w ∧ slot < w.owner.capacity)
        (.updateAt ?_ ?_) fun _ => ?_
      · exact .pair (.keyPresent slot index hw₀.bound hw₀.draining hrequests
          (hw₀.waiting index mem_cons_self) hkey)
      · exact ⟨quiet_calm {} w₀ _ (Calm.of rfl (fun h => .tail _ h) fun h => ⟨h.1, h.2⟩) hw₀.toQuiet,
          hw₀.bound⟩
      · refine .bind (R := fun _ => Quiet {}) (.err (deletePair_spec {} slot
          fun _ h => h.elim) (fun w h => h.general (fun _ hc => hc) fun _ hb => hb)
          fun _ w h => h.general (fun _ hc => hc) fun _ hb => hb) fun cleanup => ?_
        exact .bind (keeps_setOut (quiet_calm {}).aside _) fun _ => .abort
    · rw [← hw₀.specified] at hkey
      exact .updateAt (.pair (.index slot index hw₀.bound hw₀.draining hrequests
        (hw₀.waiting index mem_cons_self) hkey)) hw₀.indexed
  · refine .pureAt { hw₀ with
      inverse := fun i hi hr => ?_
      waiting := fun i hi => hw₀.waiting i (.tail _ hi)
      nodup := (nodup_cons.mp hw₀.nodup).2 }
    refine hw₀.inverse i hi fun hmem => hr ((mem_cons.mp hmem).resolve_left ?_)
    rintro rfl
    exact hskip hi

/-- A new pair in an admitted slot. -/
theorem Quiet.place (hw : Quiet {} w) {guards : Option (Fin 2 → PacketGuard)} {table : PairTable}
    (hadmitted : Admitted w.owner slot spec)
    (hplace : placePair w.owner slot spec guards = .ok table) :
    Indexing slot spec directionIndexes (w.setTable table) := by
  have hpairs : table.pairs = Function.update w.owner.table.pairs slot
      (w.owner.newPair slot spec guards) := by
    rcases placePair_eq_ok hplace with ⟨-, rfl⟩ | ⟨-, -, -, rfl⟩ <;> rfl
  have hself : table.pairs slot = w.owner.newPair slot spec guards := by
    rw [hpairs, Function.update_self]
  -- the new pair but not yet the retained one
  have hchange : PairChange w (w.setTable { table with retained := w.owner.table.retained }) slot
      (w.owner.newPair slot spec guards) :=
    ⟨rfl, rfl, rfl, rfl, rfl, rfl, rfl, rfl, hpairs, id⟩
  have hsettled := hw.toSettled.change hchange
    (fun _ => (Pair.clean_iff _).mpr fun i => rfl) fun h => h.elim
  have hprepared := hw.prepared.change hchange fun h => by
    rcases hadmitted.state with hs | hs <;> rw [hs] at h <;> cases h
  refine ⟨⟨{ hsettled with
    retained := fun handle pair hlookup => ?_
    vxlan := fun h => h.elim }, hprepared⟩, hadmitted.bound, ?_, ?_,
    fun i _ hi => absurd (mem_directionIndexes i) hi, fun i _ => ?_, by decide⟩
  · rcases placePair_eq_ok hplace with ⟨-, rfl⟩ | ⟨hdraining, -, -, rfl⟩
    · exact hw.retained handle pair hlookup
    · rcases lookup_insert_cases hlookup with ⟨-, rfl⟩ | hlookup
      · exact hdraining
      · exact hw.retained handle pair hlookup
  · exact congrArg Pair.state hself
  · exact congrArg Pair.spec hself
  · exact congrArg (fun pair : Pair => (pair.legs i).inverse) hself

theorem installPair_spec (spec : PairSpec) (guards : Option (Fin 2 → PacketGuard)) :
    Keeps (Step sdk) (Quiet {}) (installPair sdk spec guards) := by
  refine spec_bindSelf fun w₀ hw₀ => ?_
  have fail (w : World) (hw : w = w₀) : Quiet {} w := by rw [hw]; exact hw₀
  refine .bindRefuse (fun w hw _ => fail w hw) fun hadmit => ?_
  have hmask : spec.requestedDirectionMask ≤ 3 :=
    UInt32.not_lt.mp fun h => hadmit (.inr (.inr (.inr (.inr (.inl h)))))
  -- the owner does not change before the new pair is placed
  let P : World → Prop := fun w => w.owner = w₀.owner ∧ Quiet {} w
  have hP : AsideStable P := fun w _ _ hc h => ⟨h.1, (quiet_calm {}).aside w _ _ hc h.2⟩
  refine spec_from (P := P) ⟨rfl, hw₀⟩ ?_
  refine .bind (R := fun _ => P) ((keeps_setOut hP _).onError fun _ _ h => h.2) fun _ => ?_
  refine .bindChecked (fun _ _ h => h.2) fun _ _ => .bindChecked (fun _ _ h => h.2)
    fun slot hslot => ?_
  refine .bind (R := fun _ => P) (.forM (I := fun _ => P) (fun index _ => .ite
    (fun _ => (keeps_validateFlow hP _ index).onError fun _ _ h => h.2) fun _ => .skip) directionIndexes) fun _ => ?_
  refine .bindChecked (fun _ _ h => h.2) fun table htable => ?_
  have hadmitted := findSlot_admitted hmask hslot
  refine .bind (R := fun _ => Indexing slot spec directionIndexes) (spec_setOwner
    (fun w hw => ?_) fun w hw => ?_) fun _ => ?_
  · rw [← hw.1] at hadmitted htable
    exact .pair (.place slot spec guards table hadmitted htable)
  · rw [← hw.1] at hadmitted htable
    exact hw.2.place hadmitted htable
  refine .bind (.forM (indexLeg_spec spec) directionIndexes) fun _ => ?_
  refine (activatePair_spec.pre fun w hw => ⟨hw.toQuiet, hw.bound, hw.draining, fun i hi => ?_⟩).post
    (fun _ _ h => h.1) fun _ _ h => h
  rw [hw.specified] at hi
  exact hw.inverse i hi not_mem_nil

end Install

/-! ## Resuming and reobserving -/

section Reuse

variable {sdk : Sdk}

/-- The pair of a handle is in its slot, drained and clean. -/
structure Reusable (handle : Handle) (pair : Pair) (w : World) : Prop extends Quiet {} w where
  bound : handle.slot.toNat < w.owner.capacity
  current : w.owner.table.pairs handle.slot.toNat = pair
  draining : pair.state = .draining

theorem reusable_calm (handle : Handle) (pair : Pair) : CalmStable (Reusable handle pair) := by
  intro w w' h hw
  refine ⟨quiet_calm {} w w' h hw.toQuiet, ?_, ?_, hw.draining⟩
  · rw [h.capacity]; exact hw.bound
  · rw [h.table]; exact hw.current

variable {handle : Handle}

/-- A handle of the slot's generation resolves to the slot. -/
theorem handlePair_current {owner : OwnerState} (h : owner.handlePair handle = .ok pair)
    (hgeneration : (owner.table.pairs handle.slot.toNat).generation = handle.generation) :
    handle.slot.toNat < owner.capacity ∧ owner.table.pairs handle.slot.toNat = pair := by
  unfold OwnerState.handlePair at h
  rw [if_pos hgeneration] at h
  obtain ⟨-, h⟩ | ⟨hvalid, h⟩ := (except_ite_eq_ok ..).mp h
  · cases h
  · cases h
    exact ⟨Nat.lt_of_not_le fun hle => hvalid (.inr (.inr (.inl hle))), rfl⟩

theorem reusablePair_spec (handle : Handle) (message : String) :
    Spec (Step sdk) (Quiet {}) (reusablePair handle message) (Reusable handle)
      (fun _ => Quiet {}) := by
  refine .bind (keeps_setOut (quiet_calm {}).aside _) fun _ => ?_
  refine spec_bindSelf fun w₀ hw₀ => ?_
  let P : World → Prop := fun w => w.owner = w₀.owner ∧ Quiet {} w
  have hP : AsideStable P := fun w _ _ hc h => ⟨h.1, (quiet_calm {}).aside w _ _ hc h.2⟩
  refine spec_from (P := P) ⟨rfl, hw₀⟩ (.bindChecked (fun _ _ h => h.2) fun pair hpair => ?_)
  refine .bind (R := fun _ => P) ((keeps_setOut hP _).onError fun _ _ h => h.2) fun _ => ?_
  refine .bindRefuse (fun _ h _ => h.2) fun hgeneration => ?_
  refine .bindRefuse (fun _ h _ => h.2) fun hbusy => .pure fun w hw => ?_
  obtain ⟨hbound, hcurrent⟩ := handlePair_current hpair (not_not.mp hgeneration)
  refine ⟨hw.2, ?_, ?_, not_not.mp fun h => hbusy (.inr (.inr (.inr (.inl h))))⟩
  · rw [hw.1]; exact hbound
  · rw [hw.1]; exact hcurrent

/-- A reusable pair whose legs outside `rest` have been revalidated. -/
def Revalidated (handle : Handle) (pair : Pair) (spec : PairSpec) (rest : List (Fin 2))
    (w : World) : Prop :=
  Reusable handle pair w ∧ ∀ index, spec.requests index = true → index ∉ rest →
    (pair.legs index).inverse = true

theorem revalidated_calm (handle : Handle) (pair : Pair) (spec : PairSpec) (rest : List (Fin 2)) :
    CalmStable (Revalidated handle pair spec rest) :=
  (reusable_calm handle pair).and fun _ _ _ h => h

/-- One leg more is revalidated. -/
theorem Revalidated.next (hw : Revalidated handle pair spec (index :: rest) w)
    (hinverse : spec.requests index = true → (pair.legs index).inverse = true) :
    Revalidated handle pair spec rest w := by
  refine ⟨hw.1, fun i hi hr => ?_⟩
  by_cases heq : i = index
  · subst heq
    exact hinverse hi
  · exact hw.2 i hi fun hmem => hr ((mem_cons.mp hmem).resolve_left heq)

theorem revalidateLeg_spec (owner : OwnerState) (message : String) :
    Spec (Step sdk) (Revalidated handle pair spec (index :: rest))
      (revalidateLeg sdk owner pair handle spec message index)
      (fun _ => Revalidated handle pair spec rest) (fun _ => Quiet {}) := by
  refine .bindRefuse (fun _ h _ => h.1.toQuiet) fun howned => ?_
  have howned := not_not.mp howned
  simp only [inverseOwned, Bool.and_eq_true] at howned
  exact (keeps_validateFlow (revalidated_calm handle pair spec _).aside _ index).post
    (fun _ _ h => h.next fun _ => howned.1) fun _ _ h => h.1.toQuiet

/-- The loop over the legs revalidates those that are requested. -/
theorem revalidateLegs_spec {f : Fin 2 → OwnerM Unit}
    (hf : ∀ index rest, Spec (Step sdk) (Revalidated handle pair spec (index :: rest)) (f index)
      (fun _ => Revalidated handle pair spec rest) (fun _ => Quiet {})) :
    Spec (Step sdk) (Reusable handle pair)
      (directionIndexes.forM fun index => if spec.requests index then f index else pure ())
      (fun _ => Revalidated handle pair spec []) (fun _ => Quiet {}) := by
  refine (Spec.forM (I := Revalidated handle pair spec) (fun index rest => Spec.ite
    (fun _ => hf index rest) fun hskip => Spec.pure fun w hw => ?_) directionIndexes).pre
    fun w hw => ⟨hw, fun i _ hi => absurd (mem_directionIndexes i) hi⟩
  exact hw.next fun h => absurd h hskip

theorem Revalidated.ready (hw : Revalidated handle pair spec [] w)
    (hspec : spec.differs pair.spec = false) :
    Ready handle.slot.toNat w := by
  refine ⟨hw.1.toQuiet, hw.1.bound, ?_, fun index hi => ?_⟩
  · rw [hw.1.current]; exact hw.1.draining
  · rw [hw.1.current] at hi ⊢
    -- the specification requests what the pair's does
    simp only [PairSpec.differs, Bool.or_eq_false_iff, decide_eq_false_iff_not, not_not] at hspec
    refine hw.2 index ?_ not_mem_nil
    rw [hspec.2]
    exact hi

/-- Guards and policy generation of the pair in a slot are renewed. -/
theorem setPair_spec (slot : Nat) (f : Pair → Pair)
    (hf : ∀ pair, ∃ guards policyGeneration, f pair = { pair with
      guards := guards
      spec := { pair.spec with policyGeneration := policyGeneration } }) :
    Keeps (Step sdk) (fun w => Quiet {} w ∧ slot < w.owner.capacity) (setPair slot f) := by
  refine spec_setOwner (fun w hw => ?_) fun w hw => ?_
  · obtain ⟨guards, policyGeneration, heq⟩ := hf (w.owner.table.pairs slot)
    rw [heq]
    exact .pair (.renew slot guards policyGeneration hw.2)
  · obtain ⟨guards, policyGeneration, heq⟩ := hf (w.owner.table.pairs slot)
    rw [heq]
    have hchange : PairChange w (w.setTable (w.owner.table.setPair slot
        { w.owner.table.pairs slot with
          guards := guards
          spec := { (w.owner.table.pairs slot).spec with policyGeneration := policyGeneration } }))
        slot _ := ⟨rfl, rfl, rfl, rfl, rfl, rfl, rfl, rfl, rfl, id⟩
    exact ⟨⟨hw.1.toSettled.change hchange (fun h => hw.1.clean slot h) fun h => h.elim,
      hw.1.prepared.change hchange fun h => ⟨h, rfl⟩⟩, hw.2⟩

theorem resumePair_spec (handle : Handle) (spec : PairSpec) (guards : Fin 2 → PacketGuard) :
    Keeps (Step sdk) (Quiet {}) (resumePair sdk handle spec guards) := by
  refine .bind (reusablePair_spec handle _) fun pair => ?_
  refine .bindRefuse (fun _ h _ => h.toQuiet) fun hsame => ?_
  have hspec := Bool.eq_false_of_not_eq_true fun h => hsame (.inl h)
  refine spec_anySelf fun owner => .bind
    (revalidateLegs_spec fun _ _ => revalidateLeg_spec owner _) fun _ => ?_
  refine .bind (activatePair_spec.pre fun w hw => hw.ready hspec) fun _ => ?_
  exact (setPair_spec _ _ fun pair => ⟨_, _, rfl⟩).post (fun _ _ h => h.1)
    fun _ _ h => h.1

theorem reobservePair_spec (handle : Handle) (spec : PairSpec) (guards : Fin 2 → PacketGuard) :
    Keeps (Step sdk) (Quiet {}) (reobservePair sdk handle spec guards) := by
  refine .bind (reusablePair_spec handle _) fun pair => ?_
  refine .bindRefuse (fun _ h _ => h.toQuiet) fun hsame => ?_
  have hspec := Bool.eq_false_of_not_eq_true hsame
  refine spec_anySelf fun owner => .bind (revalidateLegs_spec fun index rest =>
    Spec.bindRefuse (fun _ h _ => h.1.toQuiet) fun _ => revalidateLeg_spec owner _) fun _ => ?_
  refine .bind (R := fun _ => Revalidated handle pair spec [])
    ((restorePending_spec (revalidated_calm handle pair spec [])).post
      (fun _ _ h => h.1) fun _ _ h => h.1.1.toQuiet) fun _ => ?_
  refine .bind (activatePair_spec.pre fun w hw => hw.ready hspec) fun _ => ?_
  refine .bind (R := fun _ w => Quiet {} w ∧ handle.slot.toNat < w.owner.capacity)
    ((setPair_spec _ _ fun pair => ⟨_, pair.spec.policyGeneration, rfl⟩).onError fun _ _ h => h.1) fun _ => ?_
  exact (setPair_spec _ _ fun pair => ⟨_, _, rfl⟩).post (fun _ _ h => h.1)
    fun _ _ h => h.1

end Reuse

end Mwan.Native

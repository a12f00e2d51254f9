import Mwan.L2Machine.WorkerOperations

/-!
# What a run of operations does

Every operation of the owner changes it only by the steps of
`L2Machine.Steps` and leaves it quiet, so that any run of operations is a
history of such steps. The invariants of the other modules start here.

Results:
* `execute_spec`: one operation; a final shutdown that succeeds leaves no rule
  and no unfinished deletion (`Released`);
* `Reached`, `reached_run`, `Reached.always`: the worlds of a run, what is known
  of the last, and what the steps preserve holds in all of them.
-/
namespace Mwan.Native

open Mwan.Core Mwan.Core.Prog List

section Lifecycle

variable {sdk : Sdk} {P : World → Prop}

/-! ## Ports -/

/-- A program that keeps every assertion stable within the frame. -/
def FrameKeeps {α : Type} (x : OwnerM α) : Prop :=
  ∀ (sdk : Sdk) (P : World → Prop), FrameStable P → Keeps (Step sdk) P x

theorem FrameStable.aside {P : World → Prop} (hP : FrameStable P) : AsideStable P :=
  fun w _ _ hc => hP w _ ⟨rfl, id, id, hc⟩

theorem keeps_setPort (port : UInt16) (state : PortState) : FrameKeeps (setPort port state) :=
  fun _ _ hP => keeps_setOwner hP fun _ => ⟨rfl, id, id, Nat.le_refl _⟩

theorem keeps_startPort (id : UInt16) : FrameKeeps (startPort sdk id) := by
  refine fun _ _ hP => spec_anySelf fun owner => ?_
  cases owner.ports.find? (·.id = id) with
  | none => exact .abort
  | some =>
    refine .ite (fun _ => .skip) fun _ => ?_
    exact .bind (keeps_call hP.aside) fun _ => .bind keeps_refuse fun _ =>
      keeps_setPort id .started _ _ hP

theorem keeps_miss (index : Nat) (install : Bool) : FrameKeeps (miss sdk index install) := by
  refine fun _ _ hP => spec_anySelf fun owner => .bind keeps_checked fun _ => ?_
  refine .bind keeps_checked fun _ => .bind (keeps_call hP.aside) fun _ => ?_
  exact .bind keeps_refuse fun _ => keeps_setOwner hP fun _ => ⟨rfl, id, id, Nat.le_refl _⟩

theorem keeps_forM {β : Type} {f : β → OwnerM PUnit} (hf : ∀ b, FrameKeeps (f b)) (l : List β) :
    FrameKeeps (l.forM f) :=
  fun sdk P hP => .forM (I := fun _ => P) (fun b _ => hf b sdk P hP) l

theorem keeps_stopMiss (index : Nat) : FrameKeeps (stopMiss sdk index) := by
  refine fun _ P hP => spec_anySelf fun owner => .ite (fun _ => ?_) fun _ =>
    Spec.skip
  refine .bind (R := fun _ => P) (.err (keeps_miss index false _ _ hP) (fun _ h => h)
    fun _ _ h => h) fun failure => ?_
  cases failure with
  | none => exact .skip
  | some => exact .bind (keeps_setFaulted hP) fun _ => .abort

theorem keeps_stopPort (id : UInt16) : FrameKeeps (stopPort sdk id) := by
  refine fun _ _ hP => spec_anySelf fun owner => ?_
  cases owner.ports.find? (·.id = id) with
  | none => exact .skip
  | some =>
    refine .ite (fun _ => ?_) fun _ => .skip
    refine .bind (keeps_call hP.aside) fun _ => .ite (fun _ => ?_) fun _ => ?_
    · exact keeps_setPort id .stopped _ _ hP
    · exact .bind (keeps_setFaulted hP) fun _ => .abort

theorem keeps_failShutdown (error : NativeError) : FrameKeeps (failShutdown error) :=
  fun _ _ hP => .bind (keeps_setOwner hP fun _ => ⟨rfl, id, fun _ => rfl, Nat.le_refl _⟩) fun _ =>
    Spec.abort

theorem keeps_closePort (id : UInt16) : FrameKeeps (closePort sdk id) := by
  refine fun _ _ hP => .bind (keeps_call hP.aside) fun _ => .ite (fun _ => ?_) fun _ =>
    Spec.skip
  refine .bind (keeps_call hP.aside) fun _ => .ite (fun _ => ?_) fun _ => ?_
  · exact keeps_setPort id .closed _ _ hP
  · exact keeps_failShutdown _ _ _ hP

theorem keeps_shutdown (ports : List UInt16) : FrameKeeps (shutdown sdk ports) := by
  refine fun _ _ hP => .bind (keeps_forM keeps_closePort ports _ _ hP) fun _ => ?_
  refine .bind (keeps_setOwner hP fun _ => ⟨rfl, id, id, Nat.le_refl _⟩) fun _ => .bind (keeps_call hP.aside) fun _ => ?_
  refine .bind (keeps_setOwner hP fun _ => ⟨rfl, id, id, Nat.le_refl _⟩) fun _ => .ite (fun _ => ?_) fun _ => ?_
  · exact .skip
  · exact keeps_failShutdown _ _ _ hP

/-! ## Reopening -/

/-- A quiet owner that is not active. -/
def Inactive (w : World) : Prop := Quiet {} w ∧ w.owner.active = false

theorem inactive_frame : FrameStable Inactive :=
  fun w w' h hw => ⟨quiet_calm {} w w' h.calm hw.1, h.active.trans hw.2⟩

theorem activate_spec :
    Spec (Step sdk) Inactive (activate sdk) (fun _ => Quiet {}) (fun _ => Quiet {}) := by
  have weaken {α : Type} {x : OwnerM α} (hx : FrameKeeps x) :
      Spec (Step sdk) Inactive x (fun _ => Inactive) (fun _ => Quiet {}) :=
    (hx sdk Inactive inactive_frame).onError fun _ _ h => h.1
  refine spec_anySelf fun owner => .bind (weaken (keeps_forM keeps_startPort _)) fun _ => ?_
  refine .bind (weaken (keeps_forM (fun index => keeps_miss index true) _)) fun _ => ?_
  refine spec_setOwner (fun w hw => .activate ?_) fun w hw => ?_
  · exact hw.1.idle.imp id fun h => h.resolve_left fun ha => by rw [hw.2] at ha; cases ha
  · exact ⟨⟨hw.1.present, hw.1.config, hw.1.clean, hw.1.retained, .inr (.inl rfl), fun _ h => h.elim,
      fun h => h.elim⟩, hw.1.prepared⟩

/-! ## VXLAN operations -/

theorem closeVxlanContexts_spec (hP : CalmStable P) : Spec (Step sdk) P (closeVxlanContexts sdk)
      (fun _ w => P w ∧ w.VxlanClean (· < maximumReceivers)) (fun _ => P) := by
  refine .bind (suspendVxlanRules_spec hP) fun _ => spec_setOwner (fun w _ => ?_) fun w hw => ?_
  · exact .vxlan (.amend _ (fun _ => rfl) fun _ => rfl)
  · exact ⟨hP w _ (calm_amend w _ (fun _ => rfl) fun _ => rfl) hw.1, hw.2⟩

/-- A context is replaced by one with the same flow. -/
theorem update_sameFlow {contexts : Nat → Context} {slot : Nat} {context : Context}
    (hflow : context.flow = (contexts slot).flow)
    (hcleanup : context.cleanupFailed = (contexts slot).cleanupFailed) (s : Nat) :
    (Function.update contexts slot context s).flow = (contexts s).flow ∧
    (Function.update contexts slot context s).cleanupFailed = (contexts s).cleanupFailed := by
  by_cases hs : s = slot
  · subst hs
    rw [Function.update_self]
    exact ⟨hflow, hcleanup⟩
  · rw [Function.update_of_ne hs]
    exact ⟨rfl, rfl⟩

theorem setContext_spec (hP : CalmStable P) {R : World → Prop} (slot : Nat) (f : World → Context)
    (hflow : ∀ w, P w ∧ R w → (f w).flow = (w.owner.vxlan slot).flow ∧
      (f w).cleanupFailed = (w.owner.vxlan slot).cleanupFailed) :
    Spec (Step sdk) (fun w => P w ∧ R w)
      (update (fun w => w.setContext slot (f w)) : OwnerM Unit) (fun _ => P) (fun _ => P) := by
  have same (w : World) (hw : P w ∧ R w) := update_sameFlow (hflow w hw).1 (hflow w hw).2
  refine .update (fun w hw => ?_) fun w hw => ?_
  · exact .vxlan (.amend _ (fun s => (same w hw s).1) fun s => (same w hw s).2)
  · exact hP w _ (calm_amend w _ (fun s => (same w hw s).1) fun s => (same w hw s).2) hw.1

theorem openVxlanContext_spec (hP : CalmStable P) (endpoint : VxlanEndpoint) :
    Keeps (Step sdk) P (openVxlanContext sdk endpoint) := by
  refine spec_bindSelf fun w₀ hw₀ => ?_
  have stay (w : World) (hw : w = w₀) : P w := by rw [hw]; exact hw₀
  refine .bindRefuse (fun w hw _ => stay w hw) fun _ => ?_
  refine .bindRefuse (fun w hw _ => stay w hw) fun _ => ?_
  refine .bindRefuse (fun w hw _ => stay w hw) fun _ => ?_
  refine .bindRefuse (fun w hw _ => stay w hw) fun hfree => ?_
  have hfree : (w₀.owner.vxlan endpoint.receiverId.toNat).flow = none ∧
      (w₀.owner.vxlan endpoint.receiverId.toNat).cleanupFailed = false := by
    simp only [Context.ownsResources, not_or, Bool.or_eq_true, Bool.not_eq_true,
      Option.isSome_eq_false_iff, Option.isNone_iff_eq_none] at hfree
    exact ⟨hfree.1.1.2, hfree.1.2⟩
  refine spec_from (P := fun w => P w ∧ w.owner = w₀.owner) ⟨hw₀, rfl⟩ ?_
  refine .bind (R := fun _ w => P w ∧ w.owner = w₀.owner) ((keeps_call fun w _ _ hc h =>
    ⟨hP.aside w _ _ hc h.1, h.2⟩).onError fun _ _ h => h.1) fun _ => ?_
  refine .bindChecked (fun _ _ h => h.1) fun interface _ => ?_
  refine .bind (setContext_spec hP _ _ fun w hw => ?_) fun _ => spec_anySelf fun _ =>
    Spec.skip
  rw [hw.2, hfree.1, hfree.2]
  exact ⟨rfl, rfl⟩

/-- A slot a handle names is one of a configured receiver. -/
theorem vxlanSlot_lt {owner : OwnerState} {handle : Handle} {slot : Nat}
    (h : owner.vxlanSlot handle = .ok slot) : slot < owner.config.receivers.length := by
  unfold OwnerState.vxlanSlot at h
  obtain ⟨-, h⟩ | ⟨hvalid, h⟩ := (Exec.except_ite_eq_ok ..).mp h
  · cases h
  · cases h
    exact Nat.lt_of_not_le fun hle => hvalid (.inr (.inr (.inr (.inl hle))))

theorem installVxlan_spec (hP : CalmStable P) (handle : Handle) (plan : VxlanPlan) :
    Keeps (Step sdk) P (installVxlan sdk handle plan) := by
  refine spec_bindSelf fun w₀ hw₀ => ?_
  refine spec_from (P := fun w => P w ∧ w.owner = w₀.owner) ⟨hw₀, rfl⟩ ?_
  have hcall : Spec (Step sdk) (fun w => P w ∧ w.owner = w₀.owner) call
      (fun _ w => P w ∧ w.owner = w₀.owner) (fun _ => P) :=
    (keeps_call fun w _ _ hc h => ⟨hP.aside w _ _ hc h.1, h.2⟩).onError fun _ _ h => h.1
  refine .bindChecked (fun _ _ h => h.1) fun slot hslot => ?_
  refine .bindRefuse (fun _ h _ => h.1) fun hadmit => ?_
  refine .bindChecked (fun _ _ h => h.1) fun _ _ => ?_
  refine .bindRefuse (fun _ h _ => h.1) fun _ => ?_
  refine .bind (R := fun _ w => P w ∧ w.owner = w₀.owner)
    (.orFail (fun _ h => h.1) fun _ _ _ h => h) fun _ => ?_
  refine .bind hcall fun _ => .bindChecked (fun _ _ h => h.1) fun interface _ => ?_
  refine .bindRefuse (fun _ h _ => h.1) fun _ => ?_
  refine .bind hcall fun _ => .bindChecked (fun _ _ h => h.1) fun mtu _ => ?_
  refine .bindRefuse (fun _ h _ => h.1) fun _ => ?_
  -- the rule is validated, recorded and created
  simp only [not_or, OwnerState.healthy, Bool.not_eq_false, Bool.and_eq_true, Bool.not_eq_true',
    Bool.not_eq_true, Option.isSome_eq_false_iff, Option.isNone_iff_eq_none] at hadmit
  obtain ⟨⟨⟨_, _⟩, hquiescing⟩, hflow, hcleanup, _⟩ := hadmit
  refine .bind (R := fun _ w => P w ∧ w.owner = w₀.owner) ?_ fun _ => ?_
  · refine spec_anySelf fun _ => .bindChecked (fun _ _ h => h.1) fun _ _ => ?_
    exact .bind hcall fun _ => .refuse (fun _ h _ => h.1) fun _ h _ => h
  refine .bind (R := fun _ w => P w ∧ w.owner.config = w₀.owner.config ∧
    w.owner.quiescing = false ∧ (w.owner.vxlan slot).clean = true) ?_ fun _ => ?_
  · refine .given fun w hw => ?_
    have same := @update_sameFlow w.owner.vxlan slot
      { w.owner.vxlan slot with
        ruleGeneration := (w.owner.vxlan slot).ruleGeneration + 1, plan := some plan } rfl rfl
    have hconfig : w.owner.config = w₀.owner.config := by rw [hw.2]
    have hquiet : w.owner.quiescing = false := by rw [hw.2]; exact hquiescing
    refine .updateAt ?_ ?_
    · exact .vxlan (.amend _ (fun s => (same s).1) fun s => (same s).2)
    · refine ⟨hP w _ (calm_amend w _ (fun s => (same s).1) fun s => (same s).2) hw.1, hconfig,
        hquiet, ?_⟩
      refine (Context.clean_iff _).mpr ⟨(same slot).1.trans ?_, (same slot).2.trans ?_⟩
      · rw [hw.2]; exact hflow
      · rw [hw.2]; exact hcleanup
  · refine .bind (R := fun _ => P) ?_ fun _ => spec_anySelf fun _ => .skip
    refine .bindRead fun w₁ hw₁ => .bindChecked (fun _ w hw => by rw [hw]; exact hw₁.1)
      fun _ _ => ?_
    cases sdk.flowCreate w₁.calls with
    | some =>
      exact spec_from hw₁.1 (.bind (keeps_call hP.aside) fun _ => .abort)
    | none =>
      refine .updateAt (.vxlan (.create slot ?_ hw₁.2.2.1 hw₁.2.2.2)) ?_
      · rw [hw₁.2.1]
        exact vxlanSlot_lt hslot
      · exact hP w₁ _ (calm_vxlanCreated w₁ slot hw₁.2.2.1) hw₁.1

theorem vxlanInstall_spec (hP : CalmStable P) (context : Handle) (plan : VxlanPlan) :
    Keeps (Step sdk) P (vxlanInstall sdk context plan) :=
  spec_anySelf fun _ => .bind keeps_checked fun _ => .bind (installVxlan_spec hP context plan)
    fun _ => .skip

/-- A rule is taken down by an owner within the limits. -/
theorem removeVxlan_keeps (slot : Nat) (hslot : slot < maximumReceivers) :
    Keeps (Step sdk) (Quiet {}) (removeVxlan sdk slot) :=
  (removeVxlan_spec (quiet_calm {}) (fun _ => False) slot hslot).conseq
    (fun _ h => ⟨h, fun _ hs => hs.elim⟩) (fun _ _ h => h.1) fun _ _ h => h.1

theorem vxlanRemove_spec (rule : VxlanResult) :
    Keeps (Step sdk) (Quiet {}) (vxlanRemove sdk rule) := by
  refine spec_bindSelf fun w₀ hw₀ => spec_from hw₀ ?_
  refine .bindChecked (fun _ _ h => h) fun slot hslot => removeVxlan_keeps slot ?_
  unfold OwnerState.vxlanRuleSlot at hslot
  obtain ⟨s, hs, hslot⟩ := (Exec.except_bind_eq_ok ..).mp hslot
  obtain ⟨-, hslot⟩ | ⟨-, hslot⟩ := (Exec.except_ite_eq_ok ..).mp hslot
  · cases hslot
  · cases hslot
    exact Nat.lt_of_lt_of_le (vxlanSlot_lt hs) hw₀.config

theorem vxlanContextClose_spec (context : Handle) :
    Keeps (Step sdk) (Quiet {}) (vxlanContextClose sdk context) := by
  refine spec_bindSelf fun w₀ hw₀ => spec_from hw₀ ?_
  refine .bindChecked (fun _ _ h => h) fun slot hslot => ?_
  refine .bind (removeVxlan_keeps slot (Nat.lt_of_lt_of_le (vxlanSlot_lt hslot) hw₀.config))
    fun _ => ?_
  exact (setContext_spec (quiet_calm {}) (R := fun _ => True) slot (fun w => (w.owner.vxlan slot).closed)
    fun _ _ => ⟨rfl, rfl⟩).pre fun _ h => ⟨h, trivial⟩

/-! ## Closing -/

/-- The scope of a closing owner: its pairs are deleted, and its VXLAN rules
taken down, unless something has failed. -/
def Scope.closing (config : Config) (failure : Option NativeError) (rest : List Nat) : Scope where
  config := (· = config)
  done := fun slot => failure = none ∧ slot < config.pairCapacity.toNat ∧ slot ∉ rest
  vxlan := failure = none

theorem closing_step {config : Config} {failure : Option NativeError} {slot : Nat} {rest : List Nat}
    (hslot : slot < config.pairCapacity.toNat) :
    Spec (Step sdk) (Quiet (Scope.closing config failure (slot :: rest)))
      (do return failure.or (← err (deletePair sdk slot)))
      (fun failure => Quiet (Scope.closing config failure rest)) (fun _ _ => False) := by
  refine .bind (R := fun new => Quiet (Scope.closing config (failure.or new) rest))
    (.err ((deletePair_spec (Scope.closing config failure (slot :: rest)) slot
      fun _ h => h.elim).pre fun w hw => ⟨hw, ?_⟩) (fun w hw => ?_) fun error w hw => ?_)
    fun _ => .pure fun _ h => h
  · have hconfig : w.owner.config = config := hw.config
    unfold OwnerState.capacity
    rw [hconfig]
    exact hslot
  · rw [Option.or_none]
    refine ⟨hw.toSettled.weaken (fun _ h => h) (fun _ _ => .inl) (fun s hs => .inl ?_) id,
      hw.prepared⟩
    by_cases heq : s = slot
    · exact .inr heq
    · exact .inl ⟨hs.1, hs.2.1, fun hmem => hs.2.2 ((mem_cons.mp hmem).resolve_left heq)⟩
  · have hsome : failure.or (some error) ≠ none := by cases failure <;> simp
    exact ⟨hw.toSettled.weaken (fun _ h => h) (fun _ _ => .inl) (fun s hs => absurd hs.1 hsome)
      fun h => absurd h hsome, hw.prepared⟩

theorem deleteAll_spec : Spec (Step sdk) (Quiet {}) (deleteAll sdk)
      (fun _ w => w.owner.config.receivers.length ≤ maximumReceivers ∧
        Quiet (Scope.closing w.owner.config none []) w) (fun _ => Quiet {}) := by
  refine .given fun w₀ hw₀ => ?_
  -- the owner quiesces, with the configuration it has
  let P : World → Prop := fun w =>
    Quiet { config := (· = w₀.owner.config) } w ∧ w.owner.quiescing = true
  have hP : CalmStable P := (quiet_calm _).and fun w w' h hw => h.quiescing hw
  refine .bind (R := fun _ => P) (spec_setOwner (fun w _ => .frame ⟨rfl, fun _ => rfl, id, Nat.le_refl _⟩)
    fun w hw => ?_) fun _ => ?_
  · refine ⟨quiet_calm _ w _ (Frame.calm ⟨rfl, fun _ => rfl, id, Nat.le_refl _⟩) ?_, rfl⟩
    rw [hw]
    exact { hw₀ with config := rfl }
  refine spec_bindSelf fun w₁ hw₁ => spec_from hw₁ ?_
  have hcapacity : w₁.owner.capacity = w₀.owner.config.pairCapacity.toNat :=
    congrArg (·.pairCapacity.toNat) hw₁.1.config
  refine .bind (R := fun failure => Quiet (Scope.closing w₀.owner.config
    (w₁.owner.terminalFailure.or failure) (range w₁.owner.capacity))) (.err
    (closeVxlanContexts_spec hP) (fun w hw => ?_) fun error w hw => ?_) fun failure => ?_
  · have hq : Quiet (Scope.closing w₀.owner.config none (range w₁.owner.capacity)) w :=
      { hw.1.1 with
        done := fun s hs => absurd (mem_range.mpr (hcapacity ▸ hs.2.1)) hs.2.2
        vxlan := fun _ => ⟨hw.1.2, hw.2⟩ }
    exact ⟨hq.toSettled.weaken (fun _ h => h) (fun _ _ => .inl) (fun s hs => .inl ⟨rfl, hs.2⟩)
      fun _ => rfl, hq.prepared⟩
  · have hsome : w₁.owner.terminalFailure.or (some error) ≠ none := by
      cases w₁.owner.terminalFailure <;> simp
    exact ⟨hw.1.toSettled.weaken (fun _ h => h) (fun _ _ => .inl) (fun s hs => absurd hs.1 hsome)
      fun h => absurd h hsome, hw.1.prepared⟩
  refine .bind (R := fun failure => Quiet (Scope.closing w₀.owner.config failure []))
    ((Spec.foldlM (I := fun rest failure w => (∀ s ∈ rest, s < w₁.owner.capacity) ∧
      Quiet (Scope.closing w₀.owner.config failure rest) w) (fun slot rest failure => ?_)
      (range w₁.owner.capacity) _).conseq (fun w hw => ⟨fun s hs => mem_range.mp hs, hw⟩)
      (fun _ _ h => h.2) fun _ _ h => h) fun failure => ?_
  · refine Spec.given fun w ⟨hrest, hw⟩ => ?_
    have hslot := hrest slot mem_cons_self
    rw [hcapacity] at hslot
    exact (spec_from hw (closing_step hslot)).post
      (fun _ _ h => ⟨fun s hs => hrest s (.tail _ hs), h⟩) fun _ _ h => h.elim
  · have hlimit {c : Config} (h : c = w₀.owner.config) : c.receivers.length ≤ maximumReceivers := by
      rw [h]
      exact hw₀.config
    cases failure with
    | none =>
      refine .pure fun w hw => ?_
      have hconfig : w.owner.config = w₀.owner.config := hw.config
      rw [hconfig]
      exact ⟨hw₀.config, hw⟩
    | some => exact .throw fun w hw => hw.general (fun _ => hlimit) fun _ h => h

/-- A pair that has been forgotten. -/
def Pair.forgotten (pair : Pair) : Pair :=
  { pair with
    state := .absent
    legs := fun index => { pair.legs index with inverse := false } }

theorem forgotten_clean (pair : Pair) : pair.forgotten.clean = pair.clean := rfl

/-- Every pair of the table is forgotten, and no other. -/
theorem pairs_forgetAll (table : PairTable) (capacity s : Nat) :
    (table.forgetAll capacity).pairs s =
      if s < capacity then (table.pairs s).forgotten else table.pairs s := by
  have hfold (slots : List Nat) (table : PairTable) :
      (slots.foldl PairTable.forgetPair table).pairs s =
        if s ∈ slots then (table.pairs s).forgotten else table.pairs s := by
    induction slots generalizing table with
    | nil => rfl
    | cons slot slots ih =>
      rw [foldl_cons, ih]
      by_cases hs : s = slot
      · subst hs
        simp [PairTable.forgetPair, PairTable.setPair, Pair.forgotten]
      · simp [PairTable.forgetPair, PairTable.setPair, hs]
  have h := hfold (range capacity) table
  simp only [mem_range] at h
  exact h

/-- The pairs of an owner whose pairs are all deleted are forgotten. -/
theorem Quiet.forget {w : World} (hw : Quiet (Scope.closing w.owner.config none []) w) :
    Quiet (Scope.closing w.owner.config none []) { w with
      owner := { w.owner with
        active := false
        table := w.owner.table.forgetAll w.owner.capacity } } := by
  have hdone (s : Nat) (hs : s < w.owner.capacity) := hw.done s ⟨rfl, hs, not_mem_nil⟩
  have hnone : w.RestorationFailed ∨ w.owner.NonePrepared := by
    refine hw.prepared.imp id fun hi entry he => ?_
    cases hp : entry.prepared with
    | none => rfl
    | some prepared =>
      obtain ⟨-, hbound, -, hinstalled⟩ := (OwnerState.installed_iff _ _).mp (hi entry he prepared hp)
      exact absurd hinstalled (hdone _ hbound).2
  have hpairs (s : Nat) := pairs_forgetAll w.owner.table w.owner.capacity s
  refine ⟨⟨hw.present, rfl, fun s hs => ?_, fun handle pair h => ?_, hnone.imp id .inr, fun s hs => ?_,
    fun hv => ⟨(hw.vxlan hv).1, (hw.vxlan hv).2⟩⟩, hnone.imp id fun h entry he prepared hp => ?_⟩
  · dsimp only at hs ⊢
    rw [hpairs] at hs ⊢
    by_cases hbound : s < w.owner.capacity
    · rw [if_pos hbound, forgotten_clean]
      exact (hdone s hbound).1
    · rw [if_neg hbound] at hs ⊢
      exact hw.clean s hs
  · cases h
  · have hbound : s < w.owner.capacity := hs.2.1
    dsimp only
    rw [hpairs, if_pos hbound, forgotten_clean]
    exact ⟨(hw.done s hs).1, nofun⟩
  · rw [h entry he] at hp
    cases hp

/-- No rule and no unfinished deletion is left. -/
structure Released (w : World) : Prop where
  pairs : ∀ slot < w.owner.capacity, (w.owner.table.pairs slot).clean = true
  vxlan : ∀ slot < maximumReceivers, (w.owner.vxlan slot).clean = true

theorem ownsNothing_released {w : World} (h : w.owner.ownsNothing = true) : Released w := by
  simp only [OwnerState.ownsNothing, Bool.and_eq_true, all_eq_true, mem_range] at h
  refine ⟨h.2, fun slot hs => (Context.clean_iff _).mpr ?_⟩
  have hc := h.1.2 slot hs
  simp only [Context.ownsResources, Bool.not_eq_true', Bool.or_eq_false_iff,
    Option.isSome_eq_false_iff, Option.isNone_iff_eq_none] at hc
  exact ⟨hc.1.2, hc.2⟩

theorem close_spec (mode : CloseMode) :
    Spec (Step sdk) (Quiet {}) (close sdk mode) (fun _ w => Quiet {} w ∧ Released w)
      (fun _ => Quiet {}) := by
  refine spec_bindSelf fun w₀ hw₀ => .ite (fun _ => ?_) fun _ => ?_
  · refine spec_from hw₀ (.bind deleteAll_spec fun _ => .given fun w₁ ⟨hlimit, hw₁⟩ => ?_)
    have hlimit' : ∀ config, (Scope.closing w₁.owner.config none []).config config →
        config.receivers.length ≤ maximumReceivers := by
      intro config h
      rw [show config = w₁.owner.config from h]
      exact hlimit
    -- from here on the pairs and the rules are gone
    let P : World → Prop := Working (Scope.closing w₁.owner.config none [])
    have weaken (w : World) (hw : P w) : Quiet {} w := hw.toQuiet.general hlimit' fun _ h => h
    refine spec_from (P := P) ⟨hw₁, .inr (hw₁.vxlan rfl).quiescing⟩ ?_
    have hP : FrameStable P := (working_calm _).frame
    have frame {α : Type} {x : OwnerM α} (hx : FrameKeeps x) :
        Spec (Step sdk) P x (fun _ => P) (fun _ => Quiet {}) :=
      (hx sdk P hP).onError fun _ w h => weaken w h
    refine .bind (R := fun _ => P) ?_ fun _ => ?_
    · refine spec_anySelf fun owner => .ite (fun _ => ?_) fun _ => .skip
      exact drain_spec.onError fun _ w h => weaken w h
    refine .bind (frame (keeps_forM keeps_stopMiss _)) fun _ => spec_anySelf fun _ => ?_
    refine .bind (frame (keeps_forM keeps_stopPort _)) fun _ => ?_
    refine .bind (R := fun _ => Quiet (Scope.closing w₁.owner.config none [])) (spec_setOwner
      (fun w hw => ?_) fun w hw => ?_) fun _ => ?_
    · refine .pair (.forget fun slot hs => (hw.done slot ⟨rfl, ?_, not_mem_nil⟩).1)
      rw [← show w.owner.config = w₁.owner.config from hw.config]
      exact hs
    · have hconfig : w.owner.config = w₁.owner.config := hw.config
      rw [← hconfig]
      refine .forget ?_
      rw [hconfig]
      exact hw.toQuiet
    have finish (w : World) (hw : Quiet (Scope.closing w₁.owner.config none []) w) :
        Quiet {} w ∧ Released w := by
      refine ⟨hw.general hlimit' fun _ h => h, fun slot hs => (hw.done slot ⟨rfl, ?_,
        not_mem_nil⟩).1, (hw.vxlan rfl).clean⟩
      rw [← show w.owner.config = w₁.owner.config from hw.config]
      exact hs
    cases mode with
    | disable => exact .pure finish
    | finalShutdown =>
      exact (keeps_shutdown _ sdk _ (quiet_calm _).frame).post
        (fun _ w h => finish w h) fun _ w h => (finish w h).1
  · refine .checked (fun _ w hw => ?_) fun _ w hclosed hw => ?_
    · rw [hw]; exact hw₀
    · rw [hw]
      refine ⟨hw₀, ownsNothing_released ?_⟩
      unfold OwnerState.closeUninitialized at hclosed
      split at hclosed
      · cases hclosed
      · obtain ⟨h, -⟩ | ⟨-, h⟩ := (Exec.except_ite_eq_ok ..).mp hclosed
        · exact h
        · cases h

/-! ## Operations -/

theorem deleteCurrent_spec (handle : Handle) :
    Spec (Step sdk) (fun w => Quiet {} w ∧ handle.slot.toNat < w.owner.capacity)
      (deleteCurrent sdk handle) (fun _ => Quiet {}) (fun _ => Quiet {}) := by
  refine spec_anySelf fun _ => .ite (fun _ => ?_) fun _ => .pure fun _ h => h.1
  exact .err (deletePair_spec {} handle.slot.toNat fun _ h => h.elim)
    (fun _ h => h.general (fun _ hc => hc) fun _ hb => hb)
    fun _ _ h => h.general (fun _ hc => hc) fun _ hb => hb

/-- A handle that resolves names a slot of the table. -/
theorem handlePair_lt {owner : OwnerState} {handle : Handle} {pair : Pair}
    (h : owner.handlePair handle = .ok pair) : handle.slot.toNat < owner.capacity := by
  unfold OwnerState.handlePair at h
  obtain ⟨-, h⟩ | ⟨hvalid, -⟩ := (Exec.except_ite_eq_ok ..).mp h
  · cases h
  · exact Nat.lt_of_not_le fun hle => hvalid (.inr (.inr (.inl hle)))

theorem removePair_spec (handle : Handle) :
    Keeps (Step sdk) (Quiet {}) (removePair sdk handle) := by
  refine spec_bindSelf fun w₀ hw₀ => ?_
  refine .bindChecked (fun _ w hw => by rw [hw]; exact hw₀) fun pair hpair => ?_
  refine spec_from (P := fun w => Quiet {} w ∧ handle.slot.toNat < w.owner.capacity)
    ⟨hw₀, handlePair_lt hpair⟩ (.bind (deleteCurrent_spec handle) fun outcome => ?_)
  refine spec_anySelf fun _ => .bind keeps_checked fun pair => ?_
  refine .bind (keeps_setOut (quiet_calm {}).aside _) fun _ => ?_
  cases outcome with
  | none => exact .skip
  | some => exact .abort

theorem pollOwner_spec (budget : UInt32) : Keeps (Step sdk) (Quiet {}) (pollOwner sdk budget) := by
  refine .bind keeps_refuse fun _ => spec_bindSelf fun w₀ hw₀ => .ite (fun hactive => ?_)
    fun _ => .pureAt hw₀
  exact spec_from ⟨hw₀, .inl hactive⟩ ((poll_spec budget).post
    (fun _ _ h => h.toQuiet) fun _ _ h => h.toQuiet)

/-- The owner between operations: as quiet as an owner is, and without a rule
once it has been released. -/
structure Rested (w : World) : Prop where
  quiet : Quiet {} { w with present := true }
  released : w.present = false → Released w

theorem Quiet.rested {w : World} (hw : Quiet {} w) : Rested w := by
  have hpresent := hw.present
  refine ⟨?_, fun h => by rw [hpresent] at h; cases h⟩
  have : { w with present := true } = w := by rw [← hpresent]
  rw [this]
  exact hw

theorem Rested.present {w : World} (hw : Rested w) (h : w.present = true) : Quiet {} w := by
  have : { w with present := true } = w := by rw [← h]
  rw [← this]
  exact hw.quiet

theorem closeOwner_spec (mode : CloseMode) :
    Spec (Step sdk) (Quiet {}) (closeOwner sdk mode) (fun _ w => Rested w ∧ Released w)
      (fun _ => Quiet {}) := by
  refine .bind (close_spec mode) fun _ => ?_
  cases mode with
  | disable => exact .pure fun w hw => ⟨hw.1.rested, hw.2⟩
  | finalShutdown =>
    refine .update (fun _ _ => .release) fun w hw => ?_
    exact ⟨⟨hw.1.rested.quiet, fun _ => ⟨hw.2.pairs, hw.2.vxlan⟩⟩, hw.2.pairs, hw.2.vxlan⟩

/-- The boundary's clean-up after an operation that has failed. -/
theorem boundary_spec {action : OwnerM Unit} {Q : World → Prop}
    (h : Spec (Step sdk) P action (fun _ => Q) (fun _ => Rested)) :
    Spec (Step sdk) P (boundary sdk action) (fun _ => Q) (fun _ => Rested) := by
  refine .bind (R := fun failure w => (failure = none → Q w) ∧ (failure ≠ none → Rested w))
    (.err h (fun w hw => ⟨fun _ => hw, fun hne => absurd rfl hne⟩)
      fun e w hw => ⟨nofun, fun _ => hw⟩) fun failure => ?_
  cases failure with
  | none => exact .pure fun _ hw => hw.1 rfl
  | some error =>
    refine .bindRead fun w₀ hw₀ => ?_
    have hrested := hw₀.2 (Option.some_ne_none error)
    refine .ite (fun hcleanup => ?_) fun _ => .throw fun w hw => by rw [hw]; exact hrested
    have hpresent : w₀.present = true := (Bool.and_eq_true_iff.mp hcleanup).1
    refine spec_from (hrested.present hpresent) (.bind (R := fun _ => Quiet {}) (.err
      (suspendVxlanRules_spec (quiet_calm {})) (fun _ h => h.1) fun _ _ h => h) fun _ => ?_)
    exact .throw fun _ h => h.rested

/-- An operation on an owner that has not been released. -/
theorem ownerState_spec {f : Unit → OwnerM Unit} {Q : World → Prop}
    (h : Spec (Step sdk) (Quiet {}) (f ()) (fun _ => Q) (fun _ => Rested)) :
    Spec (Step sdk) Rested (ownerState >>= f) (fun _ => Q) (fun _ => Rested) := by
  refine .bind (R := fun _ => Quiet {}) ?_ fun _ => h
  refine .bindRead fun w₀ hw₀ => .refuse (fun w hw _ => ?_) fun w hw hpresent => ?_
  · rw [hw]; exact hw₀
  · rw [hw]; exact hw₀.present (Bool.eq_true_of_not_eq_false hpresent)

theorem stateFor_spec : Spec (Step sdk) Rested stateFor (fun _ => Quiet {}) (fun _ => Rested) := by
  refine ownerState_spec (spec_anySelf fun owner => ?_)
  cases owner.terminalFailure with
  | some => exact .throw fun _ h => h.rested
  | none => exact .refuse (fun _ h _ => h.rested) fun _ h _ => h

/-- An operation on an open owner. -/
theorem stateFor_keeps {f : Unit → OwnerM Unit} (h : Keeps (Step sdk) (Quiet {}) (f ())) :
    Keeps (Step sdk) Rested (stateFor >>= f) :=
  Spec.bind stateFor_spec fun _ =>
    h.post (fun _ _ h => h.rested) fun _ _ h => h.rested

theorem reopen_spec (config : Config) : Keeps (Step sdk) Rested (reopen sdk config) := by
  refine stateFor_keeps (spec_bindSelf fun w₀ hw₀ => ?_)
  have stay (w : World) (hw : w = w₀) : Quiet {} w := by rw [hw]; exact hw₀
  refine .bindRefuse (fun w hw _ => stay w hw) fun _ => .ite (fun _ => .pure stay)
    fun hactive => ?_
  exact spec_from ⟨hw₀, Bool.eq_false_of_not_eq_true hactive⟩ activate_spec

/-- One operation. An owner that has been closed has no rule left. -/
theorem execute_spec (op : Op) : Spec (Step sdk) Rested (execute sdk op)
      (fun _ w => Rested w ∧ ((op = .close .finalShutdown) → Released w)) (fun _ => Rested) := by
  have plain {x : OwnerM Unit} (h : Keeps (Step sdk) Rested x) (hop : op ≠ .close .finalShutdown) :
      Spec (Step sdk) Rested x
        (fun _ w => Rested w ∧ (op = .close .finalShutdown → Released w)) (fun _ => Rested) :=
    h.post (fun _ _ h => ⟨h, fun he => absurd he hop⟩) fun _ _ h => h
  cases op with
  | pairInstall spec => exact plain (boundary_spec (stateFor_keeps (installPair_spec spec none))) nofun
  | pairInstallObserved spec guards =>
    exact plain (boundary_spec (stateFor_keeps (installPair_spec spec (some guards)))) nofun
  | pairResumeObserved handle spec guards =>
    exact plain (boundary_spec (stateFor_keeps (resumePair_spec handle spec guards))) nofun
  | pairReobserve handle spec guards =>
    exact plain (boundary_spec (stateFor_keeps (reobservePair_spec handle spec guards))) nofun
  | pairRemove handle => exact plain (boundary_spec (stateFor_keeps (removePair_spec handle))) nofun
  | poll budget => exact plain (boundary_spec (stateFor_keeps (pollOwner_spec budget))) nofun
  | vxlanContextOpen endpoint =>
    exact plain (boundary_spec (stateFor_keeps (.bind (openVxlanContext_spec (quiet_calm {}) endpoint)
      fun _ => .skip))) nofun
  | vxlanInstall context plan =>
    exact plain (boundary_spec (stateFor_keeps (vxlanInstall_spec (quiet_calm {}) context plan))) nofun
  | vxlanRemove rule => exact plain (boundary_spec (stateFor_keeps (vxlanRemove_spec rule))) nofun
  | vxlanContextClose context =>
    refine plain (boundary_spec (ownerState_spec ?_)) nofun
    exact (vxlanContextClose_spec context).post (fun _ _ h => h.rested)
      fun _ _ h => h.rested
  | query failure =>
    refine plain (boundary_spec (stateFor_keeps ?_)) nofun
    cases failure with
    | some => exact .abort
    | none => exact .skip
  | reopen config => exact plain (reopen_spec config) nofun
  | close mode =>
    refine .bindRead fun w₀ hw₀ => .ite (fun _ => ?_) fun hpresent => ?_
    · refine spec_from hw₀ (boundary_spec (ownerState_spec ?_))
      exact (closeOwner_spec mode).post (fun _ _ h => ⟨h.1, fun _ => h.2⟩)
        fun _ _ h => h.rested
    · exact .pureAt ⟨hw₀, fun _ => hw₀.released (Bool.eq_false_of_not_eq_true hpresent)⟩

/-! ## Runs -/

theorem run_spec (ops : List Op) : Keeps (Step sdk) Rested (run sdk ops) :=
  Spec.forM (I := fun _ => Rested) (fun op _ => .bind (R := fun _ => Rested)
    (.err (execute_spec op) (fun _ h => h.1) fun _ _ h => h) fun _ => .skip) ops

/-- The world a run ends in, with those before it. -/
def after (sdk : Sdk) (w₀ : World) (ops : List Op) : Traced World :=
  match run sdk ops ⟨w₀, []⟩ with
  | .ok _ s => s
  | .error _ s => s

/-- A world of some run from `w₀`, perhaps in the midst of an operation. -/
def Reached (sdk : Sdk) (w₀ w : World) : Prop :=
  ∃ ops, w ∈ (after sdk w₀ ops).now :: (after sdk w₀ ops).trace

theorem Opened.rested {w₀ : World} (h : Opened w₀) : Rested w₀ := by
  refine Quiet.rested ⟨⟨h.present, h.receivers, fun slot _ => ?_, fun handle pair hl => ?_,
    .inr (.inr fun entry he => ?_), fun _ hd => hd.elim, fun hv => hv.elim⟩,
    .inr fun entry he => ?_⟩
  · rw [h.table]; rfl
  · rw [h.table] at hl; cases hl
  · rw [h.queues] at he; cases he
  · rw [h.queues] at he; cases he

/-- A run is a history of steps and leaves the owner as it is between
operations. -/
theorem reached_run {w₀ : World} (h : Opened w₀) (ops : List Op) :
    History (Step sdk) w₀ ((after sdk w₀ ops).now :: (after sdk w₀ ops).trace) ∧
      Rested (after sdk w₀ ops).now := by
  have hrun := @run_spec sdk ops w₀ ⟨w₀, []⟩ ⟨.start, h.rested⟩
  unfold after
  cases hr : run sdk ops ⟨w₀, []⟩ with
  | ok | error => rw [hr] at hrun; exact hrun

/-- What the steps preserve holds in every world of every run. -/
theorem Reached.always {w₀ w : World} (h : Reached sdk w₀ w) (h₀ : Opened w₀) {K : World → Prop}
    (hK : Closed (Step sdk) K) (hstart : K w₀) : K w := by
  obtain ⟨ops, hw⟩ := h
  exact (reached_run h₀ ops).1.always hK hstart w hw

end Lifecycle

end Mwan.Native

import Mwan.Core.Hoare
import Mwan.Core.Maps
import Mwan.L3Protocol.Npt.Program

/-!
# The translator (`npt/bpf/translator.go`)

`reconcile` writes the policies of the interfaces it is given, attaches the
two filters of each, reads both back, and then removes the filters and
policies of all other interfaces. Any kernel operation may fail and leaves
the kernel as it was; a read that succeeds tells the truth.

Results:
* `Touch`: everything a run can do to the kernel.
* `reconcile_spec`: an interface reported ready has its policy and filters,
  and without an error every interface has; without faults no other interface
  keeps its filters.
-/
namespace Mwan.Npt.Bpf

open Mwan.Core Mwan.Npt List

deriving instance DecidableEq for NptPolicy

/-! ## The kernel -/

inductive Direction
  | ingress | egress
  deriving DecidableEq

/-- The filter of this package on a hook: none, one that runs another program
or is not in direct action, or the right one. -/
inductive Filter
  | absent | outdated | current
  deriving DecidableEq

/-- The policy map and the filters, by interface index. -/
structure Kernel where
  policies : AList fun _ : Nat => NptPolicy
  filters : Nat → Direction → Filter

def Kernel.setPolicy (k : Kernel) (i : Nat) (value : NptPolicy) : Kernel :=
  { k with policies := k.policies.insert i value }

def Kernel.deletePolicy (k : Kernel) (i : Nat) : Kernel :=
  { k with policies := k.policies.erase i }

def Kernel.setFilter (k : Kernel) (i : Nat) (d : Direction) (filter : Filter) : Kernel :=
  { k with filters := fun i' d' => if i' = i ∧ d' = d then filter else k.filters i' d' }

/-- Which operations of a run fail. `lookup` is asked behind the update and
behind each filter; `conflict` is a foreign filter of the same priority. -/
structure Faults where
  closed : Bool := false
  linkByIndex : Nat → Bool := fun _ => false
  clsact : Nat → Bool := fun _ => false
  update : Nat → Bool := fun _ => false
  lookup : Nat → Option Direction → Bool := fun _ _ => false
  programIdentity : Nat → Direction → Bool := fun _ _ => false
  listFilters : Nat → Direction → Bool := fun _ _ => false
  conflict : Nat → Direction → Bool := fun _ _ => false
  replaceFilter : Nat → Direction → Bool := fun _ _ => false
  readFilter : Nat → Direction → Bool := fun _ _ => false
  linkList : Bool := false
  listStale : Nat → Direction → Bool := fun _ _ => false
  deleteFilter : Nat → Direction → Bool := fun _ _ => false
  iterate : Bool := false
  deletePolicy : Nat → Bool := fun _ => false
  verifyDeleted : Nat → Bool := fun _ => false

/-- The errors of the package; the kernel's own error texts are left out. -/
inductive TranslatorError
  /-- "NPTv6 translator is closed" -/
  | closed
  /-- "duplicate interface %d" -/
  | duplicateInterface (index : Nat)
  /-- "interface index %d is outside the Linux interface index range" -/
  | indexRange (index : Nat)
  /-- "read interface %d: %w" -/
  | readInterface (index : Nat)
  | value (cause : ValueError)
  /-- "list queue disciplines: %w", "add clsact queue discipline: %w" -/
  | clsact
  | update
  | lookup
  /-- "interface %d policy map differs from desired policy" -/
  | policyDiffers (index : Nat)
  | programIdentity
  /-- "list NPTv6 filters: %w" -/
  | listFilters
  /-- "interface %d %s priority %d is already used" -/
  | priorityUsed (index : Nat) (direction : Direction)
  /-- "replace NPTv6 filter: %w" -/
  | replaceFilter
  /-- "interface %d %s NPTv6 program differs from desired program" -/
  | programDiffers (index : Nat) (direction : Direction)
  /-- "interface %d %s NPTv6 attachment is absent" -/
  | attachmentAbsent (index : Nat) (direction : Direction)
  /-- The joined errors of the interfaces. -/
  | interfaces (failures : List TranslatorError)
  /-- "list interfaces for stale policy cleanup: %w" -/
  | linkList
  /-- "remove interface %d NPTv6: %w" -/
  | removeFilters (indices : List Nat)
  /-- "inspect NPTv6 policy keys for removal: %w" -/
  | iterate
  /-- "delete obsolete NPTv6 policy %d: %w" -/
  | deletePolicy (index : Nat)
  /-- "verify obsolete NPTv6 policy %d removal: %w" -/
  | verifyDeleted (index : Nat)

/-- `AttachmentState`, without the text of its reason. -/
structure AttachmentState where
  ifIndex : Nat
  direction : Direction
  ready : Bool
  deriving DecidableEq

/-- A policy with its value. -/
structure Prepared where
  index : Nat
  value : NptPolicy

/-! ## The programs -/

/-- mirrors translator.go:249-254 -/
def inIndexRange (index : Nat) : Bool := 1 ≤ index && index ≤ 2147483647

/-- The loop of `preparePolicies`, with the interfaces seen so far.
mirrors translator.go:256-282 -/
def preparePolicies (f : Faults) (header : Nat → PacketHeader) :
    List Nat → List InterfacePolicy → Except TranslatorError (List Prepared)
  | _, [] => pure []
  | seen, policy :: policies =>
    if policy.ifIndex ∈ seen then throw (.duplicateInterface policy.ifIndex)
    else if !inIndexRange policy.ifIndex then throw (.indexRange policy.ifIndex)
    else if f.linkByIndex policy.ifIndex then throw (.readInterface policy.ifIndex)
    else match policyValue policy (header policy.ifIndex) with
      | .error cause => throw (.value cause)
      | .ok value => do
        let rest ← preparePolicies f header (policy.ifIndex :: seen) policies
        return if policy.pairs.isEmpty then rest else ⟨policy.ifIndex, value⟩ :: rest

/-- A lookup of the policy map and the comparison with the desired policy. -/
def checkPolicy (f : Faults) (p : Prepared) (behind : Option Direction) :
    Prog TranslatorError Kernel Unit := do
  Prog.refuse (f.lookup p.index behind) .lookup
  let k ← Prog.read
  Prog.refuse (k.policies.lookup p.index ≠ some p.value) (.policyDiffers p.index)

/-- mirrors translator.go:285-295 -/
def updatePolicy (f : Faults) (p : Prepared) : Prog TranslatorError Kernel Unit := do
  Prog.refuse (f.clsact p.index) .clsact
  Prog.refuse (f.update p.index) .update
  Prog.update (·.setPolicy p.index p.value)
  checkPolicy f p none

/-- mirrors translator.go:149-176 -/
def installFilter (f : Faults) (i : Nat) (d : Direction) : Prog TranslatorError Kernel Unit := do
  Prog.refuse (f.programIdentity i d) .programIdentity
  Prog.refuse (f.listFilters i d) .listFilters
  Prog.refuse (f.conflict i d) (.priorityUsed i d)
  let k ← Prog.read
  if k.filters i d = .current then pure ()
  else do
    Prog.refuse (f.replaceFilter i d) .replaceFilter
    Prog.update (·.setFilter i d .current)

/-- mirrors translator.go:178-203 -/
def readFilter (f : Faults) (i : Nat) (d : Direction) : Prog TranslatorError Kernel Unit := do
  Prog.refuse (f.readFilter i d) .listFilters
  let k ← Prog.read
  match k.filters i d with
  | .current => pure ()
  | .outdated => throw (.programDiffers i d)
  | .absent => throw (.attachmentAbsent i d)

/-- mirrors translator.go:304-317 -/
def attach (f : Faults) (p : Prepared) (d : Direction) : Prog TranslatorError Kernel Unit := do
  installFilter f p.index d
  readFilter f p.index d
  checkPolicy f p (some d)

/-- The error of one direction: that of the update, or its own.
mirrors translator.go:303-317 -/
def directionErr (f : Faults) (p : Prepared) (d : Direction) :
    Option TranslatorError → Prog TranslatorError Kernel (Option TranslatorError)
  | some e => pure (some e)
  | none => Prog.err (attach f p d)

/-- The state of one direction behind the others.
mirrors translator.go:318-325 -/
def addState (p : Prepared) (d : Direction) (acc : List AttachmentState × List TranslatorError) :
    Option TranslatorError → List AttachmentState × List TranslatorError
  | some e => (acc.1 ++ [⟨p.index, d, false⟩], acc.2 ++ [e])
  | none => (acc.1 ++ [⟨p.index, d, true⟩], acc.2)

def reconcileDirection (f : Faults) (p : Prepared) (updateErr : Option TranslatorError)
    (acc : List AttachmentState × List TranslatorError) (d : Direction) :
    Prog TranslatorError Kernel (List AttachmentState × List TranslatorError) := do
  let err ← directionErr f p d updateErr
  return addState p d acc err

/-- mirrors translator.go:284-328 -/
def reconcileInterface (f : Faults) (acc : List AttachmentState × List TranslatorError)
    (p : Prepared) : Prog TranslatorError Kernel (List AttachmentState × List TranslatorError) := do
  let updateErr ← Prog.err (updatePolicy f p)
  [Direction.ingress, .egress].foldlM (reconcileDirection f p updateErr) acc

/-- `removeFilters` of one direction; whether it failed.
mirrors translator.go:222-242 -/
def removeFilter (f : Faults) (i : Nat) (failed : Bool) (d : Direction) :
    Prog TranslatorError Kernel Bool := do
  if f.listStale i d then return true
  let k ← Prog.read
  if k.filters i d = .absent then return failed
  if f.deleteFilter i d then return true
  Prog.update (·.setFilter i d .absent)
  return failed

/-- One link of the cleanup, with the interfaces that failed so far. -/
def removeStaleFilters (f : Faults) (desired : List Prepared) (failed : List Nat) (i : Nat) :
    Prog TranslatorError Kernel (List Nat) := do
  if i ∈ desired.map Prepared.index then return failed
  let bad ← [Direction.ingress, .egress].foldlM (removeFilter f i) false
  return if bad then failed ++ [i] else failed

/-- One obsolete key.
mirrors translator.go:371-382 -/
def removeStaleEntry (f : Faults) (i : Nat) : Prog TranslatorError Kernel Unit := do
  Prog.refuse (f.deletePolicy i) (.deletePolicy i)
  Prog.update (·.deletePolicy i)
  Prog.refuse (f.verifyDeleted i) (.verifyDeleted i)

/-- mirrors translator.go:353-384 -/
def removeStaleMapEntries (f : Faults) (desired : List Prepared) :
    Prog TranslatorError Kernel Unit := do
  let k ← Prog.read
  Prog.refuse f.iterate .iterate
  let obsolete := k.policies.keys.filter (· ∉ desired.map Prepared.index)
  obsolete.forM (removeStaleEntry f)

/-- mirrors translator.go:330-351 -/
def removeStalePolicies (f : Faults) (links : List Nat) (desired : List Prepared) :
    Prog TranslatorError Kernel Unit := do
  Prog.refuse f.linkList .linkList
  let failed ← links.foldlM (removeStaleFilters f desired) []
  let err ← Prog.err (removeStaleMapEntries f desired)
  Prog.refuse (failed ≠ []) (.removeFilters failed)
  Prog.raise err

/-- The states and the error, if there is one.
mirrors translator.go:387-419 -/
def reconcile (f : Faults) (header : Nat → PacketHeader) (links : List Nat)
    (policies : List InterfacePolicy) :
    Prog TranslatorError Kernel (List AttachmentState × Option TranslatorError) := do
  if f.closed then return ([], some .closed)
  match preparePolicies f header [] policies with
  | .error e => return ([], some e)
  | .ok desired =>
    let (states, failures) ← desired.foldlM (reconcileInterface f) ([], [])
    if failures ≠ [] then return (states, some (.interfaces failures))
    let err ← Prog.err (removeStalePolicies f links desired)
    return (states, err)

/-! ## Prepared policies -/

/-- What `preparePolicies` accepts, and what it makes of it. -/
structure Accepted (header : Nat → PacketHeader) (policies : List InterfacePolicy)
    (desired : List Prepared) : Prop where
  distinct : (policies.map InterfacePolicy.ifIndex).Nodup
  prepared : ∀ p ∈ desired, ∃ policy ∈ policies, policy.ifIndex = p.index ∧
    policyValue policy (header policy.ifIndex) = .ok p.value
  all : ∀ policy ∈ policies, policy.pairs ≠ [] → ∃ p ∈ desired, p.index = policy.ifIndex
  sublist : (desired.map Prepared.index).Sublist (policies.map InterfacePolicy.ifIndex)

variable {header : Nat → PacketHeader} {policies : List InterfacePolicy}

variable {desired : List Prepared}

theorem Accepted.nodup (h : Accepted header policies desired) :
    (desired.map Prepared.index).Nodup :=
  h.distinct.sublist h.sublist

theorem preparePolicies_eq_ok {f : Faults} {seen : List Nat}
    (h : preparePolicies f header seen policies = .ok desired) :
    Accepted header policies desired ∧ ∀ i ∈ seen, i ∉ policies.map InterfacePolicy.ifIndex := by
  induction policies generalizing seen desired with
  | nil =>
    obtain rfl := (Exec.except_pure_eq_ok ..).mp h
    exact ⟨⟨nodup_nil, by simp, by simp, Sublist.refl _⟩, by simp⟩
  | cons policy policies ih =>
    simp only [preparePolicies, Exec.except_ite_eq_ok, Exec.except_throw_eq_ok, and_false,
      false_or] at h
    obtain ⟨hnew, -, -, h⟩ := h
    cases hv : policyValue policy (header policy.ifIndex) with
    | error e => rw [hv] at h; cases h
    | ok value =>
      simp only [hv, Exec.except_bind_eq_ok, Exec.except_pure_eq_ok] at h
      obtain ⟨rest, hrest, rfl⟩ := h
      obtain ⟨hacc, hseen⟩ := ih hrest
      refine ⟨⟨?_, fun p hp => ?_, fun other hother hpairs => ?_, ?_⟩, fun i hi => ?_⟩
      · exact nodup_cons.mpr ⟨hseen _ mem_cons_self, hacc.distinct⟩
      · have hcase : p ∈ rest ∨ p = ⟨policy.ifIndex, value⟩ := by
          split at hp
          · exact .inl hp
          · exact (mem_cons.mp hp).symm
        rcases hcase with hp | rfl
        · obtain ⟨q, hq, hprep⟩ := hacc.prepared p hp
          exact ⟨q, .tail _ hq, hprep⟩
        · exact ⟨policy, (.head _), rfl, hv⟩
      · rcases mem_cons.mp hother with rfl | hother
        · rw [if_neg (by simpa using hpairs)]
          exact ⟨_, (.head _), rfl⟩
        · obtain ⟨p, hp, hidx⟩ := hacc.all other hother hpairs
          refine ⟨p, ?_, hidx⟩
          split
          · exact hp
          · exact .tail _ hp
      · split
        · exact hacc.sublist.cons _
        · exact hacc.sublist.cons_cons _
      · rw [map_cons, mem_cons, not_or]
        exact ⟨fun he => hnew (he ▸ hi), hseen i (.tail _ hi)⟩

variable {p : Prepared}

/-- A policy with an index of its own is the one prepared under it. -/
theorem Accepted.value_eq (h : Accepted header policies desired) (hp : p ∈ desired)
    {policy : InterfacePolicy} (hpolicy : policy ∈ policies) (hidx : p.index = policy.ifIndex) :
    policyValue policy (header policy.ifIndex) = .ok p.value := by
  obtain ⟨q, hq, hqi, hv⟩ := h.prepared p hp
  rwa [inj_on_of_nodup_map h.distinct hq hpolicy (hqi.trans hidx)] at hv

/-! ## What a run does to the kernel -/

/-- The changes of a run: the policy and filters of a desired interface are
written, those of other interfaces removed. -/
inductive Touch (desired : List Prepared) : Kernel → Kernel → Prop
  | policy {k : Kernel} {p : Prepared} (hp : p ∈ desired) :
      Touch desired k (k.setPolicy p.index p.value)
  | attach {k : Kernel} {p : Prepared} (hp : p ∈ desired) (d : Direction) :
      Touch desired k (k.setFilter p.index d .current)
  | detach {k : Kernel} {i : Nat} (hi : i ∉ desired.map Prepared.index) (d : Direction) :
      Touch desired k (k.setFilter i d .absent)
  | delete {k : Kernel} {i : Nat} (hi : i ∉ desired.map Prepared.index) :
      Touch desired k (k.deletePolicy i)

/-- The interface has the policy of `p`. -/
def HasPolicy (k : Kernel) (p : Prepared) : Prop := k.policies.lookup p.index = some p.value

theorem setPolicy_lookup (k : Kernel) (i j : Nat) (value : NptPolicy) :
    (k.setPolicy i value).policies.lookup j = if j = i then some value else k.policies.lookup j :=
  lookup_insert_eq ..

theorem deletePolicy_lookup (k : Kernel) (i j : Nat) :
    (k.deletePolicy i).policies.lookup j = if j = i then none else k.policies.lookup j :=
  lookup_erase_eq ..

variable {P : Kernel → Prop}

section Touch

variable {desired : List Prepared}

/-- Once written, the policy of a desired interface stays. -/
theorem hasPolicy_closed (hd : (desired.map Prepared.index).Nodup) (hp : p ∈ desired) :
    Closed (Touch desired) (HasPolicy · p) := by
  intro k k' ht h
  unfold HasPolicy at h ⊢
  cases ht with
  | @policy q hq =>
    rw [setPolicy_lookup]
    split
    · next he => rw [inj_on_of_nodup_map hd hp hq he]
    · exact h
  | attach | detach => exact h
  | delete hi =>
    rw [deletePolicy_lookup, if_neg]
    · exact h
    · intro he
      exact hi (he ▸ mem_map_of_mem hp)

variable {i : Nat}

/-- Once attached, the filter of a desired interface stays. -/
theorem hasFilter_closed (hi : i ∈ desired.map Prepared.index) (d : Direction) :
    Closed (Touch desired) (fun k => k.filters i d = .current) := by
  intro k k' ht h
  cases ht with
  | policy | delete => exact h
  | attach => simp [Kernel.setFilter, h]
  | detach hj d' =>
    simp only [Kernel.setFilter]
    rw [if_neg]
    · exact h
    · intro he
      exact hj (he.1 ▸ hi)

/-- A state reported ready. -/
def Verified (desired : List Prepared) (k : Kernel) (state : AttachmentState) : Prop :=
  state.ready = true → ∃ p ∈ desired, p.index = state.ifIndex ∧ HasPolicy k p ∧
    k.filters p.index state.direction = .current

theorem verified_closed (hd : (desired.map Prepared.index).Nodup) (state : AttachmentState) :
    Closed (Touch desired) (Verified desired · state) := by
  intro k k' ht h hready
  obtain ⟨p, hp, hidx, hpol, hfil⟩ := h hready
  exact ⟨p, hp, hidx, hasPolicy_closed hd hp k k' ht hpol,
    hasFilter_closed (mem_map_of_mem hp) _ k k' ht hfil⟩

/-! ### One operation at a time

`f = {}` says that nothing fails. -/

/-- These filters are gone. -/
def Detached (S : Nat → Direction → Prop) (k : Kernel) : Prop :=
  ∀ i d, S i d → k.filters i d = .absent

/-- Once removed, the filters of other interfaces stay so. -/
theorem detached_closed {S : Nat → Direction → Prop}
    (hS : ∀ i d, S i d → i ∉ desired.map Prepared.index) : Closed (Touch desired) (Detached S) := by
  intro k k' ht h i d hi
  cases ht with
  | policy | delete => exact h i d hi
  | detach =>
    simp only [Kernel.setFilter]
    split
    · rfl
    · exact h i d hi
  | attach hp d' =>
    simp only [Kernel.setFilter]
    rw [if_neg]
    · exact h i d hi
    · intro he
      exact hS i d hi (he.1 ▸ mem_map_of_mem hp)

variable {updateErr : Option TranslatorError}

section Operations

variable (f : Faults)

variable {Step : Kernel → Kernel → Prop}

theorem checkPolicy_spec (behind : Option Direction) (hpol : ∀ k, P k → HasPolicy k p) :
    Spec Step P (checkPolicy f p behind) (fun _ => P) (fun _ k => P k ∧ f ≠ {}) := by
  refine .bindRefuse (fun _ hk hc => ⟨hk, fun hf => by simp [hf] at hc⟩) fun _ =>
    Spec.bindRead fun k hk => ?_
  exact .refuse (fun _ _ hc => absurd (hpol k hk) hc) fun _ hw _ => hw ▸ hk

theorem readFilter_spec {d : Direction} (hfil : ∀ k, P k → k.filters i d = .current) :
    Spec Step P (readFilter f i d) (fun _ => P) (fun _ k => P k ∧ f ≠ {}) := by
  refine .bindRefuse (fun _ hk hc => ⟨hk, fun hf => by simp [hf] at hc⟩) fun _ =>
    Spec.bindRead fun k hk => ?_
  rw [hfil k hk]
  exact .pure fun _ hw => hw ▸ hk

variable (hp : p ∈ desired) (d : Direction) (hP : Closed (Touch desired) P)

include hp hP

theorem updatePolicy_spec :
    Spec (Touch desired) P (updatePolicy f p) (fun _ k => P k ∧ HasPolicy k p)
      (fun _ k => P k ∧ f ≠ {}) := by
  refine .bindRefuse (fun _ hk hc => ⟨hk, fun hf => by simp [hf] at hc⟩) fun _ =>
    Spec.bindRefuse (fun _ hk hc => ⟨hk, fun hf => by simp [hf] at hc⟩) fun _ => ?_
  refine .bind (R := fun _ k => P k ∧ HasPolicy k p) (.update (fun k _ => .policy hp)
    fun k hk => ⟨hP _ _ (.policy hp) hk, by simp [HasPolicy, setPolicy_lookup]⟩) fun _ => ?_
  exact (checkPolicy_spec f none fun _ h => h.2).onError fun _ _ h => ⟨h.1.1, h.2⟩

theorem installFilter_spec : Spec (Touch desired) P (installFilter f p.index d)
      (fun _ k => P k ∧ k.filters p.index d = .current) (fun _ k => P k ∧ f ≠ {}) := by
  refine .bindRefuse (fun _ hk hc => ⟨hk, fun hf => by simp [hf] at hc⟩) fun _ =>
    Spec.bindRefuse (fun _ hk hc => ⟨hk, fun hf => by simp [hf] at hc⟩) fun _ =>
    Spec.bindRefuse (fun _ hk hc => ⟨hk, fun hf => by simp [hf] at hc⟩) fun _ =>
    Spec.bindRead fun k hk => ?_
  refine .ite (fun hfil => .pure fun w hw => hw ▸ ⟨hk, hfil⟩) fun _ => ?_
  refine .bindRefuse (fun w hw hc => ⟨hw ▸ hk, fun hf => by simp [hf] at hc⟩) fun _ => ?_
  exact .update (fun w _ => .attach hp d) fun w hw =>
    ⟨hP _ _ (.attach hp d) (hw ▸ hk), by simp [Kernel.setFilter]⟩

theorem attach_spec (hpol : ∀ k, P k → HasPolicy k p) :
    Spec (Touch desired) P (attach f p d) (fun _ k => P k ∧ k.filters p.index d = .current)
      (fun _ k => P k ∧ f ≠ {}) := by
  refine .bind (installFilter_spec f hp d hP) fun _ => ?_
  refine .bind ((readFilter_spec f fun _ h => h.2).onError fun _ _ h => ⟨h.1.1, h.2⟩) fun _ => ?_
  exact (checkPolicy_spec f (some d) fun k h => hpol k h.1).onError fun _ _ h => ⟨h.1.1, h.2⟩

theorem directionErr_spec (herr : f = {} → updateErr = none)
    (hpol : updateErr = none → ∀ k, P k → HasPolicy k p) :
    Spec (Touch desired) P (directionErr f p d updateErr)
      (fun err k => P k ∧ (err = none → HasPolicy k p ∧ k.filters p.index d = .current) ∧
        (f = {} → err = none)) (fun _ _ => False) := by
  cases updateErr with
  | some e => exact .pure fun k hk => ⟨hk, nofun, herr⟩
  | none =>
    exact .err (attach_spec f hp d hP (hpol rfl))
      (fun k h => ⟨h.1, fun _ => ⟨hpol rfl k h.1, h.2⟩, fun _ => rfl⟩)
      fun e k h => ⟨h.1, nofun, fun hf => absurd hf h.2⟩

end Operations

/-! ### The loop over the interfaces -/

/-- The states and failures so far: what is ready is verified, and without a
failure every interface of `done` is ready; `P` is kept. -/
structure Progress (P : Kernel → Prop) (desired done : List Prepared)
    (acc : List AttachmentState × List TranslatorError) (k : Kernel) : Prop where
  keeps : P k
  verified : ∀ state ∈ acc.1, Verified desired k state
  ready : acc.2 = [] → ∀ p ∈ done, ∀ d, ⟨p.index, d, true⟩ ∈ acc.1

/-- What the directions of `done` have added to `start`. -/
structure Added (P : Kernel → Prop) (desired : List Prepared) (p : Prepared)
    (start : List AttachmentState × List TranslatorError) (done : List Direction)
    (acc : List AttachmentState × List TranslatorError) (k : Kernel) : Prop where
  keeps : P k
  verified : ∀ state ∈ acc.1, Verified desired k state
  states : ∀ state ∈ start.1, state ∈ acc.1
  ready : acc.2 = [] → start.2 = [] ∧ ∀ d ∈ done, ⟨p.index, d, true⟩ ∈ acc.1

section Loop

variable (hd : (desired.map Prepared.index).Nodup) (hP : Closed (Touch desired) P)

include hd hP

theorem Progress.closed (done : List Prepared)
    (acc : List AttachmentState × List TranslatorError) :
    Closed (Touch desired) (Progress P desired done acc) :=
  fun k k' ht h => ⟨hP k k' ht h.keeps,
    fun state hs => verified_closed hd state k k' ht (h.verified state hs), h.ready⟩

variable (f : Faults) (hp : p ∈ desired) (acc : List AttachmentState × List TranslatorError)
  (hclean : f = {} → acc.2 = [])

include hp hclean

theorem reconcileDirection_spec (herr : f = {} → updateErr = none)
    (hpol : updateErr = none → ∀ k, P k → HasPolicy k p)
    (start : List AttachmentState × List TranslatorError) (done : List Direction) (d : Direction) :
    Spec (Touch desired) (Added P desired p start done acc) (reconcileDirection f p updateErr acc d)
      (fun acc' k => Added P desired p start (done ++ [d]) acc' k ∧ (f = {} → acc'.2 = []))
      (fun _ _ => False) := by
  have hclosed : Closed (Touch desired) (Added P desired p start done acc) := fun k k' ht h =>
    ⟨hP k k' ht h.keeps, fun state hs => verified_closed hd state k k' ht (h.verified state hs),
      h.states, h.ready⟩
  refine .bind (directionErr_spec f hp d hclosed herr fun he k h => hpol he k h.keeps)
    fun err => .pure fun k ⟨hadd, hnone, hfaults⟩ => ?_
  have hstates {state : AttachmentState} (hs : Verified desired k state) :
      ∀ other ∈ acc.1 ++ [state], Verified desired k other := fun other ho =>
    (mem_append.mp ho).elim (hadd.verified other) fun ho => mem_singleton.mp ho ▸ hs
  cases err with
  | some e =>
    refine ⟨⟨hadd.keeps, hstates nofun, fun state hs => mem_append_left _ (hadd.states state hs),
      fun hnil => by simp [addState] at hnil⟩, fun hf => by cases hfaults hf⟩
  | none =>
    refine ⟨⟨hadd.keeps, hstates fun _ => ⟨p, hp, rfl, hnone rfl⟩,
      fun state hs => mem_append_left _ (hadd.states state hs),
      fun hnil => ⟨(hadd.ready hnil).1, forall_mem_append.mpr ⟨fun d' hd' => ?_, ?_⟩⟩⟩, hclean⟩
    · exact mem_append_left _ ((hadd.ready hnil).2 d' hd')
    · exact forall_mem_singleton.mpr (mem_append_right _ mem_cons_self)

theorem reconcileInterface_spec (done : List Prepared) :
    Spec (Touch desired) (Progress P desired done acc) (reconcileInterface f acc p)
      (fun acc' k => Progress P desired (done ++ [p]) acc' k ∧ (f = {} → acc'.2 = []))
      (fun _ _ => False) := by
  refine .bind (R := fun err k => Progress P desired done acc k ∧ (err = none → HasPolicy k p) ∧
      (f = {} → err = none)) (.err (updatePolicy_spec f hp (Progress.closed hd hP done acc))
    (fun _ h => ⟨h.1, fun _ => h.2, fun _ => rfl⟩)
    fun _ _ h => ⟨h.1, nofun, fun hf => absurd hf h.2⟩) fun updateErr => ?_
  refine .given fun k₀ ⟨hk₀, hpol, herr⟩ => ?_
  have hP' : Closed (Touch desired) fun k => P k ∧ (updateErr = none → HasPolicy k p) :=
    fun k k' ht h => ⟨hP k k' ht h.1, fun he => hasPolicy_closed hd hp k k' ht (h.2 he)⟩
  have hdirection (acc') (hclean') := reconcileDirection_spec hd hP' f hp acc' hclean' herr
    (fun he k h => h.2 he) acc
  refine .pre (.bind (hdirection acc hclean [] .ingress) fun acc₁ =>
    Spec.given fun k₁ hk₁ => .pre (.bind (hdirection acc₁ hk₁.2 _ .egress)
      fun acc₂ => .pure fun k hk => ?_) fun k hk => hk ▸ hk₁.1) fun k hk => ?_
  · refine ⟨⟨hk.1.keeps.1, hk.1.verified, fun hnil => ?_⟩, hk.2⟩
    obtain ⟨hstart, hready⟩ := hk.1.ready hnil
    refine forall_mem_append.mpr ⟨fun q hq d => hk.1.states _ (hk₀.ready hstart q hq d), ?_⟩
    exact forall_mem_singleton.mpr fun d => hready d (by cases d <;> simp)
  · subst hk
    exact ⟨⟨hk₀.keeps, hpol⟩, hk₀.verified, fun _ h => h, fun h => ⟨h, by simp⟩⟩

omit hp hclean in
/-- The whole loop. -/
theorem reconcileInterfaces_spec :
    Spec (Touch desired) P (desired.foldlM (reconcileInterface f) ([], []))
      (fun acc k => Progress P desired desired acc k ∧ (f = {} → acc.2 = []))
      (fun _ _ => False) :=
  (Spec.foldlM_done (I := fun done acc k => Progress P desired done acc k ∧ (f = {} → acc.2 = []))
    (fun done _ acc hp => .given fun _ hk₀ =>
      (reconcileInterface_spec hd hP f hp acc hk₀.2 done).pre fun _ hk => hk ▸ hk₀.1) ([], [])).pre
    fun k hk => ⟨⟨hk, by simp, by simp⟩, fun _ => rfl⟩

end Loop

/-! ### The cleanup -/

section Cleanup

variable (f : Faults) (hP : Closed (Touch desired) P)

include hP

theorem removeFilter_spec (hi : i ∉ desired.map Prepared.index) (failed : Bool) (d : Direction) :
    Spec (Touch desired) P (removeFilter f i failed d)
      (fun _ k => P k ∧ (f = {} → k.filters i d = .absent)) (fun _ _ => False) := by
  refine .ite (fun hc => .pure fun _ h => ⟨h, fun hf => by simp [hf] at hc⟩) fun _ =>
    Spec.bindRead fun k hk => ?_
  refine .ite (fun habsent => .pure fun w hw => hw ▸ ⟨hk, fun _ => habsent⟩) fun _ => ?_
  refine .ite (fun hc => .pure fun w hw => ⟨hw ▸ hk, fun hf => by simp [hf] at hc⟩)
    fun _ => ?_
  exact .bind (R := fun _ k => P k ∧ (f = {} → k.filters i d = .absent))
    (.update (fun w _ => .detach hi d) fun w hw =>
      ⟨hP _ _ (.detach hi d) (hw ▸ hk), fun _ => by simp [Kernel.setFilter]⟩)
    fun _ => .skip

/-- Both filters of an interface that is not desired are removed. -/
theorem removeStaleFilters_spec (failed : List Nat) (i : Nat) :
    Spec (Touch desired) P (removeStaleFilters f desired failed i)
      (fun _ k => P k ∧ (f = {} → i ∉ desired.map Prepared.index → ∀ d, k.filters i d = .absent))
      (fun _ _ => False) := by
  refine .ite (fun hi => .pure fun _ h => ⟨h, fun _ hno => absurd hi hno⟩) fun hi => ?_
  have hclosed : Closed (Touch desired) fun k => P k ∧ (f = {} → k.filters i .ingress = .absent) :=
    fun k k' ht h => ⟨hP k k' ht h.1, fun hf => detached_closed (S := fun j d => j = i ∧ d = .ingress)
      (fun j _ hj => hj.1 ▸ hi) k k' ht (fun j d hj => hj.1 ▸ hj.2 ▸ h.2 hf) i _ ⟨rfl, rfl⟩⟩
  refine .bind (.bind (removeFilter_spec f hP hi false .ingress) fun failed₁ =>
    Spec.bind (removeFilter_spec f hclosed hi failed₁ .egress) fun _ => .skip)
    fun bad => .pure fun k hk => ⟨hk.1.1, fun hf _ d => ?_⟩
  cases d with
  | ingress => exact hk.1.2 hf
  | egress => exact hk.2 hf

theorem removeStaleMapEntries_spec :
    Spec (Touch desired) P (removeStaleMapEntries f desired) (fun _ => P) (fun _ => P) := by
  refine .bindRead fun k hk => .bindRefuse (fun w hw _ => hw ▸ hk) fun _ => ?_
  refine (Spec.forM (I := fun l w => P w ∧ ∀ i ∈ l, i ∉ desired.map Prepared.index)
    (fun i l => ?_) _).conseq (fun w hw => ⟨hw ▸ hk, by simp⟩) (fun _ _ h => h.1) fun _ _ h => h
  refine Spec.given fun w hw => ?_
  have hi := hw.2 i mem_cons_self
  refine .bindRefuse (fun w' h _ => h ▸ hw.1) fun _ => ?_
  refine .bind (R := fun _ => P)
    (.update (fun _ _ => .delete hi) fun w' h => hP _ _ (.delete hi) (h ▸ hw.1)) fun _ => ?_
  exact .refuse (fun _ h _ => h) fun _ h _ =>
    ⟨h, fun j hj => hw.2 j (.tail _ hj)⟩

/-- Without faults no other interface keeps its filters. -/
theorem removeStalePolicies_spec (links : List Nat) :
    Spec (Touch desired) P (removeStalePolicies f links desired)
      (fun _ k => P k ∧ (f = {} →
        Detached (fun j _ => j ∈ links ∧ j ∉ desired.map Prepared.index) k))
      (fun _ k => P k ∧ (f = {} →
        Detached (fun j _ => j ∈ links ∧ j ∉ desired.map Prepared.index) k)) := by
  let D (done : List Nat) (k : Kernel) : Prop := P k ∧ (f = {} →
    Detached (fun j _ => j ∈ done ∧ j ∉ desired.map Prepared.index) k)
  have hD (done : List Nat) : Closed (Touch desired) (D done) := fun k k' ht h =>
    ⟨hP k k' ht h.1, fun hf => detached_closed (fun _ _ hj => hj.2) k k' ht (h.2 hf)⟩
  refine .bindRefuse (fun _ h hc => ⟨h, fun hf => by simp [hf] at hc⟩) fun _ => ?_
  refine Spec.bind (R := fun _ => D links) ((Spec.foldlM_done (I := fun done _ => D done)
    (fun done i failed _ => (removeStaleFilters_spec f (hD done) failed i).post
      (fun _ k h => ⟨h.1.1, fun hf j d hj => ?_⟩) fun _ _ h => h.elim) []).pre
    fun k hk => ⟨hk, fun _ => by simp [Detached]⟩) fun failed => ?_
  · rcases mem_append.mp hj.1 with hdone | hi
    · exact h.1.2 hf j d ⟨hdone, hj.2⟩
    · obtain rfl := mem_singleton.mp hi
      exact h.2 hf hj.2 d
  · refine Spec.bind (R := fun _ => D links) (Spec.err (removeStaleMapEntries_spec f (hD links))
      (fun _ h => h) fun _ _ h => h) fun err => .bindRefuse (fun _ h _ => h) fun _ => ?_
    exact .raise (fun _ _ _ h => h) fun _ _ h => h

end Cleanup

end Touch

/-- The interface has the policy's value and the filter of a direction. -/
def Attached (header : Nat → PacketHeader) (k : Kernel) (policy : InterfacePolicy) (d : Direction) :
    Prop :=
  (∃ value, policyValue policy (header policy.ifIndex) = .ok value ∧
    k.policies.lookup policy.ifIndex = some value) ∧ k.filters policy.ifIndex d = .current

/-- The results of a run: what is ready is attached, and without an error
every interface is ready. -/
structure Reported (header : Nat → PacketHeader) (policies : List InterfacePolicy)
    (result : List AttachmentState × Option TranslatorError) (k : Kernel) : Prop where
  attached : ∀ state ∈ result.1, state.ready = true → ∀ policy ∈ policies,
    policy.ifIndex = state.ifIndex → Attached header k policy state.direction
  complete : result.2 = none → ∀ policy ∈ policies, policy.pairs ≠ [] →
    ∀ d, ⟨policy.ifIndex, d, true⟩ ∈ result.1

/-- The changes of a run on these policies. -/
def Reconciles (f : Faults) (header : Nat → PacketHeader) (policies : List InterfacePolicy)
    (k k' : Kernel) : Prop :=
  ∃ desired, preparePolicies f header [] policies = .ok desired ∧ Touch desired k k'

theorem Progress.reported (hacc : Accepted header policies desired)
    {acc : List AttachmentState × List TranslatorError} {k : Kernel}
    (h : Progress P desired desired acc k) {err : Option TranslatorError}
    (herr : err = none → acc.2 = []) : Reported header policies (acc.1, err) k where
  attached state hs hready policy hpolicy hidx := by
    obtain ⟨p, hp, hpi, hpol, hfil⟩ := h.verified state hs hready
    have hpp : p.index = policy.ifIndex := hpi.trans hidx.symm
    rw [HasPolicy, hpp] at hpol
    exact ⟨⟨p.value, hacc.value_eq hp hpolicy hpp, hpol⟩, hpp ▸ hfil⟩
  complete hnone policy hpolicy hpairs d := by
    obtain ⟨p, hp, hidx⟩ := hacc.all policy hpolicy hpairs
    exact hidx ▸ h.ready (herr hnone) p hp d

/-- A run makes only these changes, keeps what they keep, and reports the
truth; without faults it removes the filters of every other interface. -/
theorem reconcile_spec (f : Faults) (header : Nat → PacketHeader) (links : List Nat)
    (policies : List InterfacePolicy) (hP : Closed (Reconciles f header policies) P) :
    Spec (Reconciles f header policies) P (reconcile f header links policies)
      (fun result k => P k ∧ Reported header policies result k ∧ (f = {} → ∀ desired,
        preparePolicies f header [] policies = .ok desired →
          Detached (fun j _ => j ∈ links ∧ j ∉ desired.map Prepared.index) k))
      (fun _ _ => False) := by
  have hrefused (e : TranslatorError) (k : Kernel) :
      Reported header policies ([], some e) k := ⟨by simp, nofun⟩
  refine .ite (fun hc => .pure fun k hk => ⟨hk, hrefused _ k, fun hf => by simp [hf] at hc⟩)
    fun _ => ?_
  cases hprep : preparePolicies f header [] policies with
  | error e => exact .pure fun k hk => ⟨hk, hrefused e k, nofun⟩
  | ok desired =>
    have htouch : Reconciles f header policies = Touch desired := by
      funext k k'
      simp [Reconciles, hprep]
    rw [htouch] at hP ⊢
    have hacc := (preparePolicies_eq_ok hprep).1
    refine .bind (reconcileInterfaces_spec hacc.nodup hP f) fun acc => ?_
    refine .ite (fun hfail => .pure fun k hk => ⟨hk.1.keeps, hk.1.reported hacc nofun,
      fun hf => absurd (hk.2 hf) hfail⟩) fun hfail => ?_
    have hrun := (removeStalePolicies_spec f (Progress.closed hacc.nodup hP desired acc) links).pre
      fun k (hk : _ ∧ (f = {} → acc.2 = [])) => hk.1
    refine .bind (.err (Q := fun _ k => Progress P desired desired acc k ∧ (f = {} →
      Detached (fun j _ => j ∈ links ∧ j ∉ desired.map Prepared.index) k)) hrun (fun _ h => h)
      fun _ _ h => h) fun err => .pure fun k hk => ⟨hk.1.keeps,
        hk.1.reported hacc fun _ => not_not.mp hfail, fun hf _ heq => ?_⟩
    cases heq
    exact hk.2 hf

end Mwan.Npt.Bpf

import Mwan.L3Protocol.Observe.Record

/-!
# The recorded observation against the kernel

The kernel changes one address or route of the link at a time and announces
each change in one message; a route that replaces another one of its slot is
announced by the message for the new route alone. While the observation is
fresh every message reaches the store; in a gap any of them may be lost, and
the store ignores the others until the next snapshot.

Results:
* `Follows.snapshot`, `Follows.change`: a snapshot and the message of a change
  keep the recorded sets equal to the kernel's, unless the change is a
  replacement by another route.
* `observedTransitions_match`: what is reported is what has changed.
* `observation_follows_kernel`: the same over any run.
* `replaced_route_stays`: a replacement by another route leaves the old one.
-/
namespace Mwan.Observe

open Mwan.Core List Function

/-! ## The kernel -/

/-- The addresses and routes of the link. -/
structure Kernel where
  addresses : List CurrentAddr
  routes : List CurrentRoute
  addressKeys : Keyed (fun a => (a.family, a.cidr)) addresses
  routeKeys : Keyed (id : CurrentRoute → CurrentRoute) routes

def Kernel.empty : Kernel := ⟨[], [], List.Pairwise.nil, List.Pairwise.nil⟩

/-- One change; setting an address adds it or changes its flags and lifetimes. -/
inductive Change
  | setAddress (address : CurrentAddr)
  | deleteAddress (family : Family) (cidr : String)
  | addRoute (route : CurrentRoute)
  | replaceRoute (old new : CurrentRoute)
  | deleteRoute (route : CurrentRoute)

/-- A route replaces another one of its family, table, destination and metric. -/
def sameSlot (a b : CurrentRoute) : Bool :=
  a.family = b.family && a.tableID = b.tableID && a.dest = b.dest && a.metric = b.metric

/-- The change can happen. -/
def Kernel.Allows (k : Kernel) : Change → Prop
  | .setAddress _ => True
  | .deleteAddress family cidr => ∃ a ∈ k.addresses, a.family = family ∧ a.cidr = cidr
  | .addRoute route => route ∉ k.routes
  | .replaceRoute old new => old ∈ k.routes ∧ sameSlot old new = true ∧ (new = old ∨ new ∉ k.routes)
  | .deleteRoute route => route ∈ k.routes

instance (k : Kernel) (c : Change) : Decidable (k.Allows c) := by
  cases c <;> unfold Kernel.Allows <;> infer_instance

def Kernel.apply (k : Kernel) : Change → Kernel
  | .setAddress address =>
    { k with addresses := put _ k.addresses address, addressKeys := k.addressKeys.put address }
  | .deleteAddress family cidr =>
    { k with
      addresses := dropKey (fun a => (a.family, a.cidr)) k.addresses (family, cidr)
      addressKeys := k.addressKeys.dropKey _ }
  | .addRoute route =>
    { k with routes := put _ k.routes route, routeKeys := k.routeKeys.put route }
  | .replaceRoute old new =>
    { k with
      routes := put _ (dropKey _ k.routes old) new
      routeKeys := (k.routeKeys.dropKey old).put new }
  | .deleteRoute route =>
    { k with routes := dropKey _ k.routes route, routeKeys := k.routeKeys.dropKey route }

/-- What the kernel sends: a replacement is announced by the new route. -/
def Change.message : Change → EventBody
  | .setAddress address => .addrAdded address
  | .deleteAddress family cidr => .addrDeleted family cidr
  | .addRoute route => .routeAdded route
  | .replaceRoute _ new => .routeAdded new
  | .deleteRoute route => .routeDeleted route

def Kernel.hasAddress (k : Kernel) (family : Family) (cidr : String) : Prop :=
  ∃ a ∈ k.addresses, a.family = family ∧ a.cidr = cidr

/-! ## The recorded sets are the kernel's -/

/-- The connection records what the kernel has. -/
structure Follows (current : ConnectionState) (k : Kernel) : Prop where
  addresses : ∀ f a, a ∈ (current.family f).addresses ↔ a ∈ k.addresses ∧ a.family = f
  routes : ∀ f r, r ∈ (current.family f).routes ↔ r ∈ k.routes ∧ r.family = f
  addressKeys : ∀ f, Keyed CurrentAddr.cidr (current.family f).addresses
  routeKeys : ∀ f, Keyed (id : CurrentRoute → CurrentRoute) (current.family f).routes

variable {current : ConnectionState} {k : Kernel}

/-- Only what is recorded for the two families matters. -/
theorem Follows.congr {current' : ConnectionState} (h : Follows current k)
    (hfamily : ∀ f, current'.family f = current.family f) : Follows current' k := by
  have hsame : current'.family = current.family := funext hfamily
  exact ⟨hsame ▸ h.addresses, hsame ▸ h.routes, hsame ▸ h.addressKeys, hsame ▸ h.routeKeys⟩

@[simp] theorem family_addTransitions (current : ConnectionState) (added : List Transition) (f : Family) :
    (addTransitions current added).family f = current.family f := by
  cases f <;> simp only [addTransitions, ConnectionState.family]

@[simp] theorem observation_addTransitions (current : ConnectionState) (added : List Transition) :
    (addTransitions current added).observation = current.observation := by
  simp only [addTransitions]

theorem Follows.empty (h : ∀ f, current.family f = {}) : Follows current .empty := by
  refine ⟨fun f a => ?_, fun f r => ?_, fun f => ?_, fun f => ?_⟩
  · simp [h f, Kernel.empty]
  · simp [h f, Kernel.empty]
  · simp [h f, Keyed]
  · simp [h f, Keyed]

/-- The snapshot lists the addresses and routes of the kernel in some order. -/
structure ReadFrom (snapshot : Snapshot) (k : Kernel) : Prop where
  addresses : snapshot.addresses.Perm k.addresses
  routes : snapshot.routes.Perm k.routes

instance (snapshot : Snapshot) (k : Kernel) : Decidable (ReadFrom snapshot k) :=
  decidable_of_iff (snapshot.addresses.Perm k.addresses ∧ snapshot.routes.Perm k.routes)
    ⟨fun h => ⟨h.1, h.2⟩, fun h => ⟨h.1, h.2⟩⟩

theorem snapshot_family (current : ConnectionState) (snapshot : Snapshot) (f : Family) :
    (applyObservedSnapshot current snapshot).family f =
      { addresses := snapshot.addresses.filter fun a => a.family = f
        routes := snapshot.routes.filter fun r => r.family = f } := by
  have hinet (g : Family) : decide (g ≠ .inet6) = decide (g = .inet) := by cases g <;> rfl
  cases f with
  | inet => simp only [ConnectionState.family, applyObservedSnapshot, hinet]
  | inet6 => rfl

theorem Follows.snapshot (current : ConnectionState) {snapshot : Snapshot} (h : ReadFrom snapshot k)
    : Follows (applyObservedSnapshot current snapshot) k := by
  constructor <;> intro f <;> rw [snapshot_family]
  · simp [h.addresses.mem_iff]
  · simp [h.routes.mem_iff]
  · -- within a family the texts are the keys
    have hkeys := (k.addressKeys.perm h.addresses).filter fun a => a.family = f
    refine Pairwise.imp_of_mem (fun ha hb hne heq => hne ?_) hkeys
    simp only [mem_filter, decide_eq_true_eq] at ha hb
    exact Prod.ext (ha.2.trans hb.2.symm) heq
  · exact (k.routeKeys.perm h.routes).filter _

/-- The objects of one kind on record for each family are the kernel's. -/
structure Tracks {α κ : Type} (family : α → Family) (key : α → κ) (recorded : Family → List α)
    (objects : List α) : Prop where
  mem : ∀ f a, a ∈ recorded f ↔ a ∈ objects ∧ family a = f
  keyed : ∀ f, Keyed key (recorded f)

section Tracks

variable {α κ : Type} {family : α → Family} {key : α → κ} {recorded : Family → List α}
  {objects objects' edited : List α} {g : Family}

/-- One family's record and the kernel lose what has the key and gain the same. -/
theorem Tracks.edit (h : Tracks family key recorded objects) {x : κ} {N : α → Prop}
    (hedited : ∀ a, a ∈ edited ↔ N a ∨ a ∈ recorded g ∧ key a ≠ x) (hkeyed : Keyed key edited)
    (hnew : ∀ a, N a → family a = g)
    (hobjects : ∀ a, a ∈ objects' ↔ N a ∨ a ∈ objects ∧ ¬(family a = g ∧ key a = x)) :
    Tracks family key (update recorded g edited) objects' := by
  refine ⟨fun f a => ?_, fun f => ?_⟩ <;> by_cases hf : f = g
  · subst hf
    have := hnew a
    rw [update_self, hedited, hobjects, h.mem]
    tauto
  · rw [update_of_ne hf, h.mem, hobjects]
    constructor
    · rintro ⟨ha, rfl⟩
      exact ⟨.inr ⟨ha, fun hk => hf hk.1⟩, rfl⟩
    · rintro ⟨hn | ⟨ha, -⟩, rfl⟩
      · exact absurd (hnew a hn) hf
      · exact ⟨ha, rfl⟩
  · subst hf
    rw [update_self]
    exact hkeyed
  · rw [update_of_ne hf]
    exact h.keyed f

theorem Tracks.same (h : Tracks family key recorded objects) (g : Family) :
    Tracks family key (update recorded g (recorded g)) objects := by
  rw [update_eq_self]
  exact h

end Tracks

/-- What is recorded for one family changes. -/
theorem Follows.setFamily {g : Family} {state : FamilyState}
    (ha : Tracks CurrentAddr.family CurrentAddr.cidr
      (update (fun f => (current.family f).addresses) g state.addresses) k.addresses)
    (hr : Tracks CurrentRoute.family id
      (update (fun f => (current.family f).routes) g state.routes) k.routes) :
    Follows (current.setFamily g state) k := by
  have hlist {α : Type} (list : FamilyState → List α) (f : Family) :
      list ((current.setFamily g state).family f) =
        update (fun f => list (current.family f)) g (list state) f := by
    rw [ConnectionState.family_setFamily, update_apply]
    split <;> rfl
  constructor <;> intro f
  · rw [hlist FamilyState.addresses]
    exact ha.mem f
  · rw [hlist FamilyState.routes]
    exact hr.mem f
  · rw [hlist FamilyState.addresses]
    exact ha.keyed f
  · rw [hlist FamilyState.routes]
    exact hr.keyed f

/-- A replacement that changes the route. -/
def Change.retiresRoute : Change → Bool
  | .replaceRoute old new => new ≠ old
  | _ => false

/-- The message of a change brings the recorded sets after the kernel, unless it
retires a route without naming it. -/
theorem Follows.change (h : Follows current k) {c : Change} (hretires : c.retiresRoute = false)
    {event : Event} (hevent : event.body = c.message) :
    Follows (applyObservedDelta current event) (k.apply c) := by
  unfold applyObservedDelta
  have hcurrent (f : Family) : ({ current with
      actualName := event.actualIface, ifIndex := event.ifIndex } : ConnectionState).family f =
        current.family f := by
    cases f <;> rfl
  have h := h.congr hcurrent
  generalize ({ current with actualName := event.actualIface, ifIndex := event.ifIndex } :
      ConnectionState) = current at h ⊢
  have ha : Tracks CurrentAddr.family CurrentAddr.cidr (fun f => (current.family f).addresses)
      k.addresses := ⟨h.addresses, h.addressKeys⟩
  have hr : Tracks CurrentRoute.family id (fun f => (current.family f).routes) k.routes :=
    ⟨h.routes, h.routeKeys⟩
  have hroute : ∀ r new : CurrentRoute, ¬(r.family = new.family ∧ r = new) ↔ r ≠ new :=
    fun r new => not_congr ⟨And.right, fun heq => ⟨congrArg _ heq, heq⟩⟩
  rw [hevent]
  cases c with
  | setAddress address =>
    have hkeys := ha.keyed address.family
    refine .setFamily (ha.edit (fun a => mem_put hkeys) (hkeys.put address) (fun a h => h ▸ rfl)
      fun a => ?_) (hr.same _)
    simp [Kernel.apply, mem_put k.addressKeys]
  | deleteAddress family cidr =>
    refine .setFamily (ha.edit (x := cidr) (N := fun _ => False) (fun a => ?_)
      ((ha.keyed family).dropKey cidr) (fun a h => h.elim) fun a => ?_) (hr.same _)
    · simp [removeAddress]
    · simp [Kernel.apply]
  | addRoute route =>
    have hkeys := hr.keyed route.family
    refine .setFamily (ha.same _) (hr.edit (fun a => mem_put hkeys) (hkeys.put route)
      (fun a h => h ▸ rfl) fun r => ?_)
    rw [id, id, hroute]
    exact mem_put k.routeKeys
  | replaceRoute old new =>
    -- the new route is the old one
    obtain rfl : new = old := by simpa [Change.retiresRoute] using hretires
    have hkeys := hr.keyed new.family
    refine .setFamily (ha.same _) (hr.edit (fun a => mem_put hkeys) (hkeys.put new)
      (fun a h => h ▸ rfl) fun r => ?_)
    rw [id, id, hroute]
    simp [Kernel.apply, mem_put (k.routeKeys.dropKey new)]
  | deleteRoute route =>
    refine .setFamily (ha.same _) (hr.edit (x := route) (N := fun _ => False) (fun r => ?_)
      ((hr.keyed route.family).dropKey route) (fun r h => h.elim) fun r => ?_)
    · simp [removeRoute]
    · rw [id, hroute]
      simp [Kernel.apply]

/-! ## What is reported has changed -/

variable {f f' : Family} {previous : List CurrentAddr} {address : CurrentAddr} {cidr : String}

theorem addressTransition_added :
    addressTransition f previous address = some ⟨some f', .absent, .present, .address cidr⟩ ↔
      f' = f ∧ address.cidr = cidr ∧ ∀ old ∈ previous, old.cidr ≠ address.cidr := by
  unfold addressTransition
  cases hfind : previous.find? fun candidate => candidate.cidr = address.cidr with
  | none =>
    simp only [find?_eq_none, decide_eq_true_eq] at hfind
    simp only [Option.some.injEq, Transition.mk.injEq, Subject.address.injEq, true_and]
    exact ⟨fun ⟨hf, hc⟩ => ⟨hf.symm, hc, hfind⟩, fun ⟨hf, hc, _⟩ => ⟨hf.symm, hc⟩⟩
  | some old =>
    have hold : old ∈ previous ∧ old.cidr = address.cidr := by
      have := find?_some hfind
      exact ⟨mem_of_find?_eq_some hfind, by simpa using this⟩
    have hflags (c : Prop) [Decidable c] (before after : Value) :
        ¬ (if c then some (⟨some f, before, after, .addressFlags address.cidr⟩ : Transition) else none)
          = some ⟨some f', .absent, .present, .address cidr⟩ := by
      split <;> simp
    simp only [hflags, false_iff]
    exact fun ⟨_, _, hnone⟩ => hnone old hold.1 hold.2

theorem addressTransition_not_removed :
    ¬ addressTransition f previous address = some ⟨some f', .present, .absent, .address cidr⟩ := by
  unfold addressTransition
  split
  · simp
  · simp only []
    split <;> simp

variable {route : CurrentRoute}

theorem addressTransition_not_route {before after : Value} :
    ¬ addressTransition f previous address = some ⟨some f', before, after, .route route⟩ := by
  unfold addressTransition
  split
  · simp
  · simp only []
    split <;> simp

section FamilyTransitions

variable {f f' : Family} {previous next : FamilyState}

theorem mem_familyTransitions_addressAdded :
    ⟨some f', .absent, .present, .address cidr⟩ ∈ familyTransitions f previous next ↔
      f' = f ∧ (∃ a ∈ next.addresses, a.cidr = cidr) ∧ ¬∃ a ∈ previous.addresses, a.cidr = cidr := by
  simp only [familyTransitions, mem_append, mem_map, mem_filterMap,
    addressTransition_added, Transition.mk.injEq, reduceCtorEq, and_false, false_and, exists_false,
    or_false, false_or]
  constructor
  · rintro ⟨a, ha, hf, hc, hnone⟩
    exact ⟨hf, ⟨a, ha, hc⟩, fun ⟨old, hold, heq⟩ => hnone old hold (heq.trans hc.symm)⟩
  · rintro ⟨hf, ⟨a, ha, hc⟩, hnone⟩
    exact ⟨a, ha, hf, hc, fun old hold heq => hnone ⟨old, hold, heq.trans hc⟩⟩

theorem mem_familyTransitions_addressRemoved :
    ⟨some f', .present, .absent, .address cidr⟩ ∈ familyTransitions f previous next ↔
      f' = f ∧ (∃ a ∈ previous.addresses, a.cidr = cidr) ∧ ¬∃ a ∈ next.addresses, a.cidr = cidr := by
  simp only [familyTransitions, mem_append, mem_map, mem_filterMap, mem_filter,
    addressTransition_not_removed, Transition.mk.injEq, reduceCtorEq, and_false, exists_false,
    or_false, Bool.not_eq_true', any_eq_false, decide_eq_true_eq, Option.some.injEq,
    Subject.address.injEq, true_and]
  constructor
  · rintro ⟨a, ⟨ha, hnone⟩, hf, rfl⟩
    exact ⟨hf.symm, ⟨a, ha, rfl⟩, fun ⟨b, hb, heq⟩ => hnone b hb heq⟩
  · rintro ⟨hf, ⟨a, ha, rfl⟩, hnone⟩
    exact ⟨a, ⟨ha, fun b hb heq => hnone ⟨b, hb, heq⟩⟩, hf.symm, rfl⟩

theorem mem_familyTransitions_routes :
    (⟨some f', .absent, .present, .route route⟩ ∈ familyTransitions f previous next ↔
      f' = f ∧ route ∈ next.routes ∧ route ∉ previous.routes) ∧
    (⟨some f', .present, .absent, .route route⟩ ∈ familyTransitions f previous next ↔
      f' = f ∧ route ∈ previous.routes ∧ route ∉ next.routes) := by
  constructor
  all_goals
    simp only [familyTransitions, mem_append, mem_map, mem_filterMap, mem_filter,
      addressTransition_not_route, Transition.mk.injEq, reduceCtorEq, and_false, false_and,
      exists_false, or_false, false_or, Bool.not_eq_true', any_eq_false, decide_eq_true_eq,
      Option.some.injEq, Subject.route.injEq, true_and]
    constructor
    · rintro ⟨r, ⟨hr, hnone⟩, hf, rfl⟩
      exact ⟨hf.symm, hr, fun hold => hnone r hold rfl⟩
    · rintro ⟨hf, hr, hnone⟩
      exact ⟨route, ⟨hr, fun candidate hold heq => hnone (heq ▸ hold)⟩, hf.symm, rfl⟩

end FamilyTransitions

/-- The reported transitions are the changes between two states of the kernel,
where the connection had been observed before. -/
structure Matches (known : Bool) (before after : Kernel) (reported : List Transition) : Prop where
  addressAdded : ∀ f cidr, ⟨some f, .absent, .present, .address cidr⟩ ∈ reported ↔
    known = true ∧ after.hasAddress f cidr ∧ ¬before.hasAddress f cidr
  addressRemoved : ∀ f cidr, ⟨some f, .present, .absent, .address cidr⟩ ∈ reported ↔
    known = true ∧ before.hasAddress f cidr ∧ ¬after.hasAddress f cidr
  routeAdded : ∀ f route, ⟨some f, .absent, .present, .route route⟩ ∈ reported ↔
    known = true ∧ f = route.family ∧ route ∈ after.routes ∧ route ∉ before.routes
  routeRemoved : ∀ f route, ⟨some f, .present, .absent, .route route⟩ ∈ reported ↔
    known = true ∧ f = route.family ∧ route ∈ before.routes ∧ route ∉ after.routes

/-- A transition of a family is reported exactly if it is one of that family's. -/
theorem mem_observedTransitions {previous : ConnectionState} {before after : Value}
    {subject : Subject} {P : Family → Prop} (h : ∀ g, ⟨some f, before, after, subject⟩ ∈
      familyTransitions g (previous.family g) (current.family g) ↔ f = g ∧ P g) :
    ⟨some f, before, after, subject⟩ ∈ observedTransitions previous current ↔
      previous.observation ≠ .unknown ∧ P f := by
  unfold observedTransitions
  by_cases hunknown : previous.observation = .unknown
  · simp [hunknown]
  · have hlink (c : Prop) [Decidable c] (a b : Value) :
        (⟨some f, before, after, subject⟩ : Transition) ∉
          (if c then [(⟨none, a, b, .link⟩ : Transition)] else []) := by
      split <;> simp
    have hinet := h .inet
    have hinet6 := h .inet6
    rw [if_neg hunknown]
    simp only [mem_append, hlink, false_or, ne_eq, hunknown, not_false_eq_true, true_and]
    refine (or_congr hinet hinet6).trans ?_
    cases f <;> simp

theorem Follows.hasAddress (h : Follows current k) :
    (∃ a ∈ (current.family f).addresses, a.cidr = cidr) ↔ k.hasAddress f cidr := by
  simp only [h.addresses, Kernel.hasAddress]
  exact ⟨fun ⟨a, ⟨ha, hf⟩, hc⟩ => ⟨a, ha, hf, hc⟩, fun ⟨a, ha, hf, hc⟩ => ⟨a, ⟨ha, hf⟩, hc⟩⟩

theorem observedTransitions_match {previous : ConnectionState} {k' : Kernel}
    (h : Follows previous k) (h' : Follows current k') :
    Matches (previous.observation ≠ .unknown) k k' (observedTransitions previous current) := by
  have hroutes {f : Family} {l l' : List CurrentRoute} {r : CurrentRoute} :
      (r ∈ l ∧ r.family = f) ∧ ¬(r ∈ l' ∧ r.family = f) ↔ f = r.family ∧ r ∈ l ∧ r ∉ l' := by
    constructor
    · rintro ⟨⟨hr, hf⟩, hn⟩
      exact ⟨hf.symm, hr, fun hold => hn ⟨hold, hf⟩⟩
    · rintro ⟨hf, hr, hn⟩
      exact ⟨⟨hr, hf.symm⟩, fun hold => hn hold.1⟩
  constructor
  case addressAdded =>
    intro f cidr
    rw [mem_observedTransitions fun _ => mem_familyTransitions_addressAdded, h.hasAddress,
      h'.hasAddress, decide_eq_true_eq]
  case addressRemoved =>
    intro f cidr
    rw [mem_observedTransitions fun _ => mem_familyTransitions_addressRemoved, h.hasAddress,
      h'.hasAddress, decide_eq_true_eq]
  case routeAdded =>
    intro f route
    rw [mem_observedTransitions fun _ => mem_familyTransitions_routes.1, h.routes, h'.routes, hroutes,
      decide_eq_true_eq]
  case routeRemoved =>
    intro f route
    rw [mem_observedTransitions fun _ => mem_familyTransitions_routes.2, h.routes, h'.routes, hroutes,
      decide_eq_true_eq]

theorem Matches.none {known : Bool} {reported : List Transition}
    (h : ∀ t ∈ reported, t.family = Option.none) : Matches known k k reported := by
  have hnot : ∀ f before after subject, (⟨some f, before, after, subject⟩ : Transition) ∉ reported :=
    fun f before after subject hmem => absurd (h _ hmem) (by simp)
  constructor <;> intro f subject
  all_goals exact iff_of_false (hnot _ _ _ _) (by tauto)

/-! ## Runs -/

/-- The kernel and the store. `seen` is the kernel as the last snapshot or delta
that was applied left it, `reported` what the last event of the connection
reported. -/
structure World where
  kernel : Kernel
  store : Store
  seen : Kernel
  reported : List Transition

/-- What can happen: the kernel changes and its message is delivered or lost, the
monitor reports a gap or its end, replays a snapshot as deltas, reports the
link, or an event of another connection arrives. -/
inductive Action
  | change (c : Change) (delivered : Bool)
  | stale (reason : String)
  | failed (reason : String)
  | resync (snapshot : Snapshot)
  | replay (body : EventBody)
  | link (up : Bool)
  | other (event : Event)

/-- An action with the name and index of the link in its event. -/
structure Step where
  iface : String
  ifIndex : Int
  action : Action

section Run

variable (id : String)

/-- The event of this connection. -/
def Step.event (e : Step) (body : EventBody) (replay : Bool) : Event :=
  ⟨body, id, e.iface, e.ifIndex, replay⟩

def World.connection (w : World) : ConnectionState := (w.store id).getD {}

def World.fresh (w : World) : Bool := (w.connection id).observation = .fresh

/-- The event is recorded; `seen` is what is then on record. -/
def World.record (w : World) (event : Event) (seen : Kernel) : World :=
  let (store, reported) := recordObservation w.store event
  { w with store, reported, seen }

/-- Only what stands for a part of the snapshot is replayed. -/
def replayed : EventBody → Bool
  | .addrAdded _ | .routeAdded _ | .linkUp | .linkDown => true
  | _ => false

/-- One step; steps that cannot happen change nothing. While the observation is
fresh no message is lost. -/
def World.step (w : World) (e : Step) : World :=
  match e.action with
  | .change c delivered =>
    if w.kernel.Allows c ∧ (w.fresh id = true → delivered = true) then
      let w' := { w with kernel := w.kernel.apply c, reported := [] }
      if delivered then
        w'.record (e.event id c.message false) (if w.fresh id then w'.kernel else w.seen)
      else w'
    else { w with reported := [] }
  | .stale reason => w.record (e.event id (.observationStale reason) false) w.seen
  | .failed reason => w.record (e.event id (.observationFailed reason) false) w.seen
  | .resync snapshot =>
    if ReadFrom snapshot w.kernel then
      w.record (e.event id (.resync (some snapshot)) false) w.kernel
    else { w with reported := [] }
  | .replay body =>
    if replayed body then w.record (e.event id body true) w.seen else { w with reported := [] }
  | .link up => w.record (e.event id (if up then .linkUp else .linkDown) false) w.seen
  | .other event =>
    if event.connectionID = id then { w with reported := [] }
    else { w.record event w.seen with reported := [] }

/-- The connection is on record, the recorded sets are those of the kernel at
the last applied event, and those of the kernel now while the observation is
fresh. -/
structure Recorded (w : World) : Prop where
  known : (w.store id).isSome = true
  follows : Follows (w.connection id) w.seen
  current : w.fresh id = true → Follows (w.connection id) w.kernel

/-- A replacement that changes the route is not delivered while the observation
is fresh. -/
def NamesRetired (w : World) (e : Step) : Prop :=
  match e.action with
  | .change c _ => w.fresh id = true → c.retiresRoute = false
  | _ => True

/-- The transitions of a step are the changes of what is seen. -/
def Reports (w : World) (e : Step) : Prop :=
  Matches ((w.connection id).observation ≠ .unknown) w.seen (w.step id e).seen (w.step id e).reported

/-- The record is kept, and the transitions are the changes of what is seen. -/
def InOrder (w w' : World) : Prop :=
  Recorded id w' ∧ Matches ((w.connection id).observation ≠ .unknown) w.seen w'.seen w'.reported

variable {id}

/-- What an event of the connection does to it. -/
theorem record_eq {w : World} (hid : id ≠ "") (hknown : (w.store id).isSome = true) (e : Step)
    (body : EventBody) (replay : Bool) (seen : Kernel) :
    let event := e.event id body replay
    ((w.record event seen).store id).isSome = true ∧
      (w.record event seen).connection id = (recordEvent (w.connection id) event).1 ∧
      (w.record event seen).reported = (recordEvent (w.connection id) event).2 ∧
      (w.record event seen).seen = seen ∧ (w.record event seen).kernel = w.kernel := by
  intro event
  obtain ⟨current, hcurrent⟩ := Option.isSome_iff_exists.mp hknown
  have hconnection : event.connectionID = id := rfl
  simp only [World.record, World.connection, recordObservation, hconnection, if_neg hid, hcurrent,
    update_self, Option.isSome_some, Option.getD_some, and_self]

section

variable {w : World} {body : EventBody} {replay : Bool} (hid : id ≠ "")
  (hknown : (w.store id).isSome = true) (hfollows : Follows (w.connection id) w.seen)

include hid hknown hfollows

/-- The event is ignored. -/
theorem Recorded.ignored (hcurrent : w.fresh id = true → Follows (w.connection id) w.kernel)
    (e : Step)
    (hevent : recordEvent (w.connection id) (e.event id body replay) = (w.connection id, [])) :
    InOrder id w (w.record (e.event id body replay) w.seen) := by
  obtain ⟨hknown', hconnection, hreported, hseen, hkernel⟩ :=
    record_eq hid hknown e body replay w.seen
  rw [hevent] at hconnection hreported
  refine ⟨⟨hknown', ?_, fun hfresh => ?_⟩, ?_⟩
  · rw [hconnection, hseen]
    exact hfollows
  · rw [World.fresh, hconnection] at hfresh
    rw [hconnection, hkernel]
    exact hcurrent hfresh
  · rw [hseen, hreported]
    exact Matches.none fun t ht => absurd ht not_mem_nil

/-- The event is applied: what is then recorded is what the kernel has. -/
theorem Recorded.applied (e : Step) {next : ConnectionState} {seen : Kernel}
    (hevent : recordEvent (w.connection id) (e.event id body replay) = (addTransitions next (observedTransitions (w.connection id) next), observedTransitions (w.connection id) next))
    (hseen' : Follows next seen) (hcurrent' : Follows next w.kernel) :
    InOrder id w (w.record (e.event id body replay) seen) := by
  obtain ⟨hknown', hconnection, hreported, hseen, hkernel⟩ := record_eq hid hknown e body replay seen
  rw [hevent] at hconnection hreported
  refine ⟨⟨hknown', ?_, fun _ => ?_⟩, ?_⟩
  · rw [hconnection, hseen]
    exact hseen'.congr fun f => family_addTransitions _ _ f
  · rw [hconnection, hkernel]
    exact hcurrent'.congr fun f => family_addTransitions _ _ f
  · rw [hseen, hreported]
    exact observedTransitions_match hfollows hseen'

end

variable {body : EventBody}

/-- A gap keeps what is recorded. -/
theorem Recorded.gap {w : World} (hid : id ≠ "") (h : Recorded id w) (e : Step) {next : Observation}
    {reason : String} (hnext : next ≠ .fresh)
    (hevent : recordEvent (w.connection id) (e.event id body false) =
      recordGap (w.connection id) next reason) :
    InOrder id w (w.record (e.event id body false) w.seen) := by
  obtain ⟨hknown, hconnection, hreported, hseen, hkernel⟩ :=
    record_eq hid h.known e body false w.seen
  rw [hevent] at hconnection hreported
  have hfamily (f : Family) : ((w.record (e.event id body false) w.seen).connection id).family f =
      (w.connection id).family f := by
    rw [hconnection]
    cases f <;> simp only [recordGap, addTransitions, ConnectionState.family]
  refine ⟨⟨hknown, ?_, fun hfresh => ?_⟩, ?_⟩
  · rw [hseen]
    exact h.follows.congr hfamily
  · rw [World.fresh, hconnection, recordGap, observation_addTransitions, decide_eq_true_eq] at hfresh
    exact absurd hfresh hnext
  · rw [hseen, hreported]
    refine Matches.none fun t ht => ?_
    simp only [recordGap] at ht
    split at ht
    · rw [mem_singleton.mp ht]
    · exact absurd ht not_mem_nil

/-- Neither a gap nor a snapshot. -/
def EventBody.isDelta : EventBody → Bool
  | .observationStale _ | .observationFailed _ | .resync _ => false
  | _ => true

/-- A delta of a fresh connection is applied, unless it is a replayed one. -/
theorem recordEvent_delta {event : Event} (hdelta : event.body.isDelta = true) :
    let next := applyObservedDelta current event
    recordEvent current event =
      if current.observation ≠ .fresh ∨ event.snapshotReplay = true then (current, [])
      else (addTransitions next (observedTransitions current next), observedTransitions current next) := by
  unfold recordEvent
  cases hbody : event.body with
  | observationStale | observationFailed | resync => simp [hbody, EventBody.isDelta] at hdelta
  | _ => rfl

theorem Change.message_isDelta (c : Change) : c.message.isDelta = true := by
  cases c <;> rfl

/-- Nothing is delivered. -/
theorem Recorded.silent {w w' : World} (h : Recorded id w) (hstore : w'.store id = w.store id)
    (hseen : w'.seen = w.seen) (hreported : w'.reported = [])
    (hkernel : w.fresh id = true → w'.kernel = w.kernel) :
    InOrder id w w' := by
  have hconnection : w'.connection id = w.connection id := by
    rw [World.connection, World.connection, hstore]
  refine ⟨⟨hstore ▸ h.known, ?_, fun hfresh => ?_⟩, ?_⟩
  · rw [hconnection, hseen]
    exact h.follows
  · have hfresh : w.fresh id = true := by
      rw [World.fresh, hconnection] at hfresh
      exact hfresh
    rw [hconnection, hkernel hfresh]
    exact h.current hfresh
  · rw [hseen, hreported]
    exact Matches.none fun t ht => absurd ht not_mem_nil

section

variable {w : World} (hid : id ≠ "") (h : Recorded id w) (e : Step)

include hid h e

theorem Recorded.of_change {c : Change} {delivered : Bool}
    (haction : e.action = .change c delivered) (hnames : w.fresh id = true → c.retiresRoute = false)
    :
    Recorded id (w.step id e) ∧ Reports id w e := by
  unfold Reports World.step
  simp only [haction]
  by_cases hallows : w.kernel.Allows c ∧ (w.fresh id = true → delivered = true)
  swap
  · simp only [if_neg hallows]
    exact h.silent rfl rfl rfl fun _ => rfl
  simp only [if_pos hallows]
  cases delivered with
  | false =>
    have hstale : w.fresh id ≠ true := fun hfresh => absurd (hallows.2 hfresh) (by simp)
    exact h.silent rfl rfl rfl fun hfresh => absurd hfresh hstale
  | true =>
    simp only [if_true]
    have hdelta : (e.event id c.message false).body.isDelta = true := c.message_isDelta
    by_cases hfresh : w.fresh id = true
    · -- the message is applied: the kernel before and after it is on record
      have hobservation : (w.connection id).observation = .fresh := by simpa [World.fresh] using hfresh
      have hfollows : Follows (applyObservedDelta (w.connection id) (e.event id c.message false))
          (w.kernel.apply c) := (h.current hfresh).change (hnames hfresh) rfl
      simp only [if_pos hfresh]
      exact Recorded.applied (w := { w with kernel := w.kernel.apply c, reported := [] }) hid h.known
        h.follows e ((recordEvent_delta hdelta).trans (if_neg (by simpa [Step.event]))) hfollows
        hfollows
    · have hobservation : (w.connection id).observation ≠ .fresh := by simpa [World.fresh] using hfresh
      simp only [if_neg hfresh]
      exact Recorded.ignored (w := { w with kernel := w.kernel.apply c, reported := [] }) hid h.known
        h.follows (fun hfresh' => absurd hfresh' hfresh) e
        ((recordEvent_delta hdelta).trans (if_pos (.inl hobservation)))

theorem Recorded.of_link (hbody : body = .linkUp ∨ body = .linkDown) :
    InOrder id w (w.record (e.event id body false) w.seen) := by
  have hdelta : (e.event id body false).body.isDelta = true := by
    rcases hbody with rfl | rfl <;> rfl
  have hfamily (f : Family) : (applyObservedDelta (w.connection id) (e.event id body false)).family f =
      (w.connection id).family f := by
    rcases hbody with rfl | rfl <;> cases f <;> rfl
  by_cases hfresh : (w.connection id).observation = .fresh
  · have hcurrent := h.current (by simpa [World.fresh] using hfresh)
    exact Recorded.applied hid h.known h.follows e
      ((recordEvent_delta hdelta).trans (if_neg (by simpa [Step.event]))) (h.follows.congr hfamily)
      (hcurrent.congr hfamily)
  · exact Recorded.ignored hid h.known h.follows h.current e
      ((recordEvent_delta hdelta).trans (if_pos (.inl hfresh)))

/-- One step keeps the record and reports what it changes. -/
theorem Recorded.step (hnames : NamesRetired id w e) :
    Recorded id (w.step id e) ∧ Reports id w e := by
  cases haction : e.action with
  | change =>
    simp only [NamesRetired, haction] at hnames
    exact h.of_change hid e haction hnames
  | stale | failed =>
    simp only [Reports, World.step, haction]
    exact h.gap hid e (by decide) rfl
  | resync snapshot =>
    simp only [Reports, World.step, haction]
    by_cases hread : ReadFrom snapshot w.kernel
    · simp only [if_pos hread]
      have hfollows := Follows.snapshot (w.connection id) hread
      exact Recorded.applied hid h.known h.follows e rfl hfollows hfollows
    · simp only [if_neg hread]
      exact h.silent rfl rfl rfl fun _ => rfl
  | replay body =>
    simp only [Reports, World.step, haction]
    by_cases hreplayed : replayed body = true
    · have hdelta : (e.event id body true).body.isDelta = true := by
        cases body <;> first | rfl | exact absurd hreplayed (by simp [replayed])
      simp only [if_pos hreplayed]
      exact Recorded.ignored hid h.known h.follows h.current e
        ((recordEvent_delta hdelta).trans (if_pos (.inr rfl)))
    · simp only [if_neg hreplayed]
      exact h.silent rfl rfl rfl fun _ => rfl
  | link up =>
    simp only [Reports, World.step, haction]
    cases up with
    | true => exact h.of_link hid e (.inl rfl)
    | false => exact h.of_link hid e (.inr rfl)
  | other event =>
    simp only [Reports, World.step, haction]
    by_cases hown : event.connectionID = id
    · simp only [if_pos hown]
      exact h.silent rfl rfl rfl fun _ => rfl
    · simp only [if_neg hown]
      refine h.silent ?_ rfl rfl fun _ => rfl
      simp only [World.record, recordObservation]
      split
      · rfl
      · split
        · rfl
        · exact update_of_ne (Ne.symm hown) _ _

end

/-- A world before the first snapshot. -/
def World.start (kernel : Kernel) (store : Store) : World := ⟨kernel, store, .empty, []⟩

/-- From any kernel and a connection with nothing on record: along every run in
which no replacement that changes the route is delivered while the observation
is fresh, the recorded addresses and routes are the kernel's, and what is
reported as come or gone has come or gone. -/
theorem observation_follows_kernel {id : String} (hid : id ≠ "") (kernel : Kernel) {store : Store}
    {current : ConnectionState} (hstore : store id = some current)
    (hfamily : ∀ f, current.family f = {}) (hunknown : current.observation = .unknown)
    (steps : List Step)
    (hnames : Each (World.step id) (NamesRetired id) (.start kernel store) steps) :
    Always (World.step id) (Recorded id) (.start kernel store) steps ∧
      Each (World.step id) (Reports id) (.start kernel store) steps := by
  have hconnection : (World.start kernel store).connection id = current := by
    simp [World.connection, World.start, hstore]
  have hstart : Recorded id (.start kernel store) := by
    refine ⟨by simp [World.start, hstore], ?_, fun hfresh => ?_⟩
    · rw [hconnection]
      exact Follows.empty hfamily
    · rw [World.fresh, hconnection, hunknown] at hfresh
      exact absurd hfresh (by decide)
  exact Each.invariant (fun w e h hnames => h.step hid e hnames) (fun _ h => h) hstart hnames

end Run

/-! ### A default route and its replacement -/

/-- The default route of table 100 by a gateway. -/
def defaultVia (gateway : String) : CurrentRoute where
  family := .inet
  dest := "default"
  via := gateway
  dev := "wan0"
  tableID := 100
  protocol := 3
  metric := 0
  scope := 0
  type := 1
  nextHops := [⟨gateway, "wan0", 2, 1⟩]

def oneRoute : Kernel :=
  ⟨[], [defaultVia "192.0.2.1"], List.Pairwise.nil, List.pairwise_singleton _ _⟩

def oneRouteSnapshot : Snapshot := ⟨"wan0", 2, true, [], [defaultVia "192.0.2.1"]⟩

def emptyStore : Store := fun id => if id = "wan" then some {} else none

def onWan0 (action : Action) : Step := ⟨"wan0", 2, action⟩

/-- A snapshot, then the kernel replaces the default route. -/
def replacement : List Step :=
  [onWan0 (.resync oneRouteSnapshot),
    onWan0 (.change (.replaceRoute (defaultVia "192.0.2.1") (defaultVia "192.0.2.9")) true)]

/-- The old default route stays on record although the kernel has only the new
one, and no transition says that it went. -/
theorem replaced_route_stays :
    let w := runAll (World.step "wan") (.start oneRoute emptyStore) replacement
    w.fresh "wan" = true ∧ w.kernel.routes = [defaultVia "192.0.2.9"] ∧
      (w.connection "wan").ipv4.routes = [defaultVia "192.0.2.1", defaultVia "192.0.2.9"] ∧
      w.reported = [⟨some .inet, .absent, .present, .route (defaultVia "192.0.2.9")⟩] ∧
      ¬Recorded "wan" w := by
  refine ⟨by decide, by decide, by decide, by decide, fun h => ?_⟩
  have hkernel := ((h.current (by decide)).routes .inet (defaultVia "192.0.2.1")).mp (by decide)
  exact absurd hkernel.1 (by decide)

/-- The same replacement in a gap, which the next snapshot ends. -/
def replacementInGap : List Step :=
  [onWan0 (.resync oneRouteSnapshot), onWan0 (.stale "queue full"),
    onWan0 (.change (.replaceRoute (defaultVia "192.0.2.1") (defaultVia "192.0.2.9")) false),
    onWan0 (.resync { oneRouteSnapshot with routes := [defaultVia "192.0.2.9"] }),
    onWan0 (.change (.deleteRoute (defaultVia "192.0.2.9")) true)]

theorem replacement_in_gap_recorded :
    Always (World.step "wan") (Recorded "wan") (.start oneRoute emptyStore) replacementInGap := by
  have hnames : Each (World.step "wan") (NamesRetired "wan") (.start oneRoute emptyStore)
      replacementInGap :=
    ⟨trivial, trivial, fun hfresh => absurd hfresh (by decide), trivial, fun _ => rfl, trivial⟩
  exact (@observation_follows_kernel "wan" (by decide) oneRoute emptyStore {} rfl
    (fun f => by cases f <;> rfl) rfl replacementInGap hnames).1

end Mwan.Observe

import Mwan.Core.Machine
import Mwan.Core.Maps
import Mwan.L3Protocol.Npt.Address

/-!
# Learned routes in the kernel (`bgp/fib.go`, `fib_nexthop.go`)

The installer keeps the map `desired` of the accepted best paths and writes
each of them into every owned table. Both are finite maps here; the kernel
side holds the BGP routes on the installer's interface and metric, one for a
table and a prefix. The kernel's answers during a call are a parameter: which
installations and deletions fail and what a route lookup returns. A `default`
destination of a listing stands for the prefix of length 0.

Beside the installer runs the map its callers have in mind: the latest
announcement of each prefix that has not been taken back.

Results:
* `removeAll_spec`: what a loop of removals leaves and reports;
* `mirrors_iff`: the tables and `desired` follow that map exactly if no
  withdrawal names a prefix at which only another peer's entry stands. A
  withdrawal through `Apply` takes back what its peer has inside the prefix
  too, which is by design.
-/
namespace Mwan.Bgp

open Mwan.Core List
open Mwan.Npt (NetipAddr Prefix containsFrom)

/-- The destination of a route: a valid prefix with no bit set behind its
length. Its text and the prefix determine each other. -/
abbrev Dest := { p : Prefix // p.bits.isSome ∧ p.masked = p }

structure FIBConfig where
  tables : List Int
  metric : Nat
  resolveNextHop : Bool

/-- mirrors fib.go:30-35 -/
structure PathEvent where
  peer : String
  pathPrefix : Prefix
  nextHop : NetipAddr
  withdrawn : Bool

/-- mirrors fib.go:103-107; a gateway is the text of an address or empty -/
structure DesiredRoute where
  peer : String
  nextHop : NetipAddr
  gateway : Option NetipAddr
  deriving DecidableEq

/-- What `netif.RouteMatch` finds. -/
structure CurrentRoute where
  dest : Dest
  via : Option NetipAddr
  metric : Nat
  bgp : Bool

/-- The kernel's answers during a call. A failing installation is a rejection
of the route (`kernelRejected`) or another error. -/
structure Kernel where
  deleteFails : Int → Dest → Bool
  installFails : Int → Dest → Option Bool
  routeMatch : NetipAddr → Except String (Option CurrentRoute)

/-- Every operation succeeds. -/
def Kernel.obliging : Kernel := ⟨fun _ _ => false, fun _ _ => none, fun _ => .ok none⟩

/-- One of the errors that a call joins. -/
inductive FIBError
  | invalidPrefix
  | invalidNextHop (dest : Dest)
  | resolve (nextHop : NetipAddr)
  | install (table : Int) (dest : Dest) (rejected : Bool)
  | delete (table : Int) (dest : Dest)
  deriving DecidableEq

abbrev Routes := AList fun _ : Int × Dest => NetipAddr

structure FIB where
  desired : AList fun _ : Dest => DesiredRoute
  /-- the kernel's BGP routes on the interface and metric of the installer -/
  routes : Routes

/-- mirrors fib.go:349-354 -/
def pathPrefix (p : Prefix) : Except FIBError Dest :=
  if h : p.bits.isSome then .ok ⟨p.masked, h, p.masked_masked⟩ else .error .invalidPrefix

theorem pathPrefix_val (p : Dest) : pathPrefix p.1 = .ok p := by
  obtain ⟨p, hvalid, hmasked⟩ := p
  simp [pathPrefix, hvalid, hmasked]

/-- `prefix.Contains(desiredPrefix.Addr()) && desiredPrefix.Bits() >= prefix.Bits()` -/
def inside (p q : Dest) : Bool :=
  containsFrom p.1.addr p.1.length q.1.addr && !(q.1.length < p.1.length)

theorem inside_self (p : Dest) : inside p p = true := by
  simp [inside, Prefix.containsFrom_self p.2.1]

namespace Kernel

/-- mirrors fib.go:389-410 -/
def deleteFrom (k : Kernel) (p : Dest) : List Int → Routes → List FIBError × Routes
  | [], routes => ([], routes)
  | table :: tables, routes =>
    if k.deleteFails table p then
      let (errors, routes) := k.deleteFrom p tables routes
      (.delete table p :: errors, routes)
    else k.deleteFrom p tables (routes.erase (table, p))

/-- mirrors fib.go:374-381 -/
def installInto (k : Kernel) (p : Dest) (gateway : NetipAddr) :
    List Int → Routes → List FIBError × Routes
  | [], routes => ([], routes)
  | table :: tables, routes =>
    match k.installFails table p with
    | some rejected =>
      let (errors, routes) := k.installInto p gateway tables routes
      (.install table p rejected :: errors, routes)
    | none => k.installInto p gateway tables (routes.insert (table, p) gateway)

section Loops

variable {k : Kernel} {p q : Dest} {gateway : NetipAddr} {t table : Int} {tables : List Int}
  {routes : Routes}

/-- A loop that sets the prefix to one value in the tables of `K`. -/
theorem lookup_loop {L : List Int → Routes → Routes} {W : Int → Routes → Routes} {K : Int → Prop}
    [DecidablePred K] {value : Option NetipAddr} (hnil : ∀ routes, L [] routes = routes)
    (hcons : ∀ table tables routes, L (table :: tables) routes =
      L tables (if K table then W table routes else routes))
    (hset : ∀ table routes, (W table routes).lookup (t, q) =
      if (t, q) = (table, p) then value else routes.lookup (t, q)) :
    (L tables routes).lookup (t, q) =
      if q = p ∧ t ∈ tables ∧ K t then value else routes.lookup (t, q) := by
  induction tables generalizing routes with
  | nil => simp [hnil]
  | cons table tables ih =>
    rw [hcons, ih]
    by_cases ht : t = table
    · subst ht
      by_cases hk : K t <;> by_cases hq : q = p <;> simp [hk, hq, hset]
    · have hsame : (if K table then W table routes else routes).lookup (t, q) =
          routes.lookup (t, q) := by
        split <;> simp [hset, ht]
      simp [hsame, ht]

theorem deleteFrom_errors :
    (k.deleteFrom p tables routes).1 = (tables.filter (k.deleteFails · p)).map (.delete · p) := by
  induction tables generalizing routes with
  | nil => rfl
  | cons table tables ih =>
    unfold deleteFrom
    split <;> (rename_i hfails; simp [hfails, ih])

theorem lookup_deleteFrom (t : Int) (q : Dest) :
    (k.deleteFrom p tables routes).2.lookup (t, q) =
      if q = p ∧ t ∈ tables ∧ k.deleteFails t p = false then none else routes.lookup (t, q) := by
  refine lookup_loop (L := fun tables routes => (k.deleteFrom p tables routes).2)
    (W := fun table routes => routes.erase (table, p)) (K := fun t => k.deleteFails t p = false)
    (fun _ => rfl) (fun table tables routes => ?_) fun table routes => lookup_erase_eq ..
  cases hfails : k.deleteFails table p <;> simp [deleteFrom, hfails]

theorem installInto_errors :
    (k.installInto p gateway tables routes).1 =
      tables.filterMap fun t => (k.installFails t p).map (.install t p) := by
  induction tables generalizing routes with
  | nil => rfl
  | cons table tables ih =>
    unfold installInto
    split <;> (rename_i hfails; simp [hfails, ih])

theorem lookup_installInto (t : Int) (q : Dest) :
    (k.installInto p gateway tables routes).2.lookup (t, q) =
      if q = p ∧ t ∈ tables ∧ k.installFails t p = none then some gateway
      else routes.lookup (t, q) := by
  refine lookup_loop (L := fun tables routes => (k.installInto p gateway tables routes).2)
    (W := fun table routes => routes.insert (table, p) gateway)
    (K := fun t => k.installFails t p = none) (fun _ => rfl) (fun table tables routes => ?_) fun table routes => lookup_insert_eq ..
  cases hfails : k.installFails table p <;> simp [installInto, hfails]

end Loops

end Kernel

variable {nextHop : NetipAddr}

namespace FIB

/-- `newFIB` beside empty tables -/
def new : FIB := ⟨∅, ∅⟩

/-- mirrors fib_nexthop.go:20-46 -/
def gateway (cfg : FIBConfig) (k : Kernel) (p : Dest) (nextHop : NetipAddr) (f : FIB) :
    Except FIBError NetipAddr :=
  if !cfg.resolveNextHop then .ok nextHop
  else match k.routeMatch nextHop with
    | .error _ => .error (.resolve nextHop)
    | .ok none => .ok nextHop
    | .ok (some route) =>
      match route.via with
      | none => .ok nextHop
      | some via =>
        -- a route of its own for the same prefix: keep what it was resolved to
        match (f.desired.lookup p).bind (·.gateway) with
        | some installed =>
          if route.dest = p ∧ route.metric = cfg.metric ∧ route.bgp then .ok installed else .ok via
        | none => .ok via

/-- mirrors fib.go:368-387 -/
def installGateway (cfg : FIBConfig) (k : Kernel) (p : Dest) (gateway : NetipAddr) (f : FIB) :
    List FIBError × FIB :=
  let (errors, routes) := k.installInto p gateway cfg.tables f.routes
  match f.desired.lookup p, errors with
  | some route, [] => ([], ⟨f.desired.insert p { route with gateway := some gateway }, routes⟩)
  | _, errors => (errors, ⟨f.desired, routes⟩)

/-- mirrors fib.go:356-366 -/
def installPrefix (cfg : FIBConfig) (k : Kernel) (p : Dest) (nextHop : NetipAddr) (f : FIB) :
    List FIBError × FIB :=
  match f.gateway cfg k p nextHop with
  | .error e => ([e], f)
  | .ok gateway => f.installGateway cfg k p gateway

/-- `delete(f.desired, p)` and `deletePrefix`. -/
def remove (cfg : FIBConfig) (k : Kernel) (p : Dest) (f : FIB) : List FIBError × FIB :=
  let (errors, routes) := k.deleteFrom p cfg.tables f.routes
  (errors, ⟨f.desired.erase p, routes⟩)

/-- A loop that removes prefixes and joins the errors. -/
def removeAll (cfg : FIBConfig) (k : Kernel) : List Dest → FIB → List FIBError × FIB
  | [], f => ([], f)
  | p :: ps, f =>
    let (errors, f) := f.remove cfg k p
    let (more, f) := f.removeAll cfg k ps
    (errors ++ more, f)

/-- The prefixes of a peer's entries that satisfy `c`. -/
def prefixesOf (peer : String) (c : Dest → Bool) (f : FIB) : List Dest :=
  f.desired.keys.filter fun q => (f.desired.lookup q).any (·.peer = peer) && c q

/-- mirrors fib.go:262-289 -/
def withdraw (cfg : FIBConfig) (k : Kernel) (peer : String) (p : Dest) (f : FIB) :
    List FIBError × FIB :=
  match f.prefixesOf peer (inside p) with
  | [] =>
    let (errors, routes) := k.deleteFrom p cfg.tables f.routes
    (errors, { f with routes := routes })
  | matched => f.removeAll cfg k matched

/-- mirrors fib.go:142-160 -/
def apply (cfg : FIBConfig) (k : Kernel) (event : PathEvent) (f : FIB) : List FIBError × FIB :=
  match pathPrefix event.pathPrefix with
  | .error e => ([e], f)
  | .ok p =>
    if !event.withdrawn && event.nextHop = .invalid then ([.invalidNextHop p], f)
    else if event.withdrawn then f.withdraw cfg k event.peer p
    else { f with desired := f.desired.insert p ⟨event.peer, event.nextHop, none⟩ }.installPrefix
      cfg k p event.nextHop

/-- mirrors fib.go:316-325; the peer is for the log only -/
def withdrawExact (cfg : FIBConfig) (k : Kernel) (_peer : String) (p : Prefix) (f : FIB) :
    List FIBError × FIB :=
  match pathPrefix p with
  | .error e => ([e], f)
  | .ok p => f.remove cfg k p

/-- mirrors fib.go:328-347 -/
def withdrawPeer (cfg : FIBConfig) (k : Kernel) (peer : String) (f : FIB) : List FIBError × FIB :=
  f.removeAll cfg k (f.prefixesOf peer fun _ => true)

/-- `kernelRejected` of joined errors -/
def kernelRejected (errors : List FIBError) : Bool :=
  errors.any fun
    | .install _ _ rejected => rejected
    | _ => false

/-- mirrors fib_nexthop.go:89-109; `counts` are the tables that have a
route for the prefix -/
def refreshLoop (cfg : FIBConfig) (k : Kernel) (counts : Dest → Nat) :
    List Dest → FIB → List (Dest × List FIBError) × FIB
  | [], f => ([], f)
  | p :: ps, f =>
    match f.desired.lookup p with
    | none => f.refreshLoop cfg k counts ps
    | some route =>
      match f.gateway cfg k p route.nextHop with
      | .error _ => f.refreshLoop cfg k counts ps
      | .ok gateway =>
        if route.gateway = some gateway ∧ counts p = cfg.tables.length then
          f.refreshLoop cfg k counts ps
        else
          let (errors, f) := f.installGateway cfg k p gateway
          let (rejected, f) := f.refreshLoop cfg k counts ps
          (if kernelRejected errors then (p, errors) :: rejected else rejected, f)

/-- mirrors fib_nexthop.go:76-111 -/
def refresh (cfg : FIBConfig) (k : Kernel) (listing : Except String Unit) (f : FIB) :
    List (Dest × List FIBError) × FIB :=
  match listing with
  | .error _ => ([], f)
  | .ok _ =>
    if !cfg.resolveNextHop then ([], f)
    else f.refreshLoop cfg k (fun p => (cfg.tables.filter fun t => (t, p) ∈ f.routes).length)
      f.desired.keys

/-! ## What the operations leave -/

section Specs

variable {cfg : FIBConfig} {k : Kernel} {f : FIB} {p q : Dest} {peer : String}

theorem mem_prefixesOf {c : Dest → Bool} :
    q ∈ f.prefixesOf peer c ↔ (∃ route, f.desired.lookup q = some route ∧ route.peer = peer) ∧
      c q = true := by
  simp only [prefixesOf, mem_filter, Bool.and_eq_true, Option.any_eq_true, decide_eq_true_eq]
  constructor
  · rintro ⟨-, ⟨route, hroute, hpeer⟩, hc⟩
    exact ⟨⟨route, hroute, hpeer⟩, hc⟩
  · rintro ⟨⟨route, hroute, hpeer⟩, hc⟩
    have hkey : q ∈ f.desired := AList.lookup_isSome.mp (by simp [hroute])
    exact ⟨AList.mem_keys.mp hkey, ⟨route, hroute, hpeer⟩, hc⟩

/-- What removing a list of prefixes leaves and reports: the entries go, the
routes go where the deletion succeeds, and each failure is reported. -/
structure Removed (cfg : FIBConfig) (k : Kernel) (ps : List Dest) (f : FIB)
    (result : List FIBError × FIB) : Prop where
  desired : ∀ q, result.2.desired.lookup q = if q ∈ ps then none else f.desired.lookup q
  routes : ∀ t q, result.2.routes.lookup (t, q) =
    if q ∈ ps ∧ t ∈ cfg.tables ∧ k.deleteFails t q = false then none else f.routes.lookup (t, q)
  errors : ∀ e, e ∈ result.1 ↔ ∃ q ∈ ps, ∃ t ∈ cfg.tables, k.deleteFails t q = true ∧
    e = .delete t q

theorem remove_spec : Removed cfg k [p] f (f.remove cfg k p) := by
  refine ⟨fun q => ?_, fun t q => ?_, fun e => ?_⟩
  · simp only [remove, mem_singleton, lookup_erase_eq]
  · simp only [remove, Kernel.lookup_deleteFrom, mem_singleton]
    refine if_congr (and_congr_right fun hq => ?_) rfl rfl
    rw [hq]
  · simp only [remove, Kernel.deleteFrom_errors, mem_map, mem_filter, mem_singleton,
      exists_eq_left]
    exact exists_congr fun t => by rw [and_assoc, @eq_comm _ e]

theorem removeAll_spec (ps : List Dest) : Removed cfg k ps f (f.removeAll cfg k ps) := by
  induction ps generalizing f with
  | nil => exact ⟨by simp [removeAll], by simp [removeAll], by simp [removeAll]⟩
  | cons p ps ih =>
    have hone : Removed cfg k [p] f (f.remove cfg k p) := remove_spec
    have hrest := @ih (f.remove cfg k p).2
    refine ⟨fun q => ?_, fun t q => ?_, fun e => ?_⟩
    · simp only [removeAll, hrest.desired, hone.desired, mem_cons]
      by_cases hq : q ∈ ps <;> simp [hq]
    · simp only [removeAll, hrest.routes, hone.routes, mem_cons]
      by_cases hq : q ∈ ps
      · by_cases hd : t ∈ cfg.tables ∧ k.deleteFails t q = false <;> simp [hq, hd]
      · simp [hq]
    · simp [removeAll, hrest.errors, hone.errors]

/-- What an announcement of a valid path leaves: its entry, whether or not the
installation succeeds, and on success its route in every table. -/
structure Announced (cfg : FIBConfig) (k : Kernel) (peer : String) (p : Dest)
    (nextHop : NetipAddr) (f : FIB) (result : List FIBError × FIB) : Prop where
  entry : ∃ g, result.2.desired.lookup p = some ⟨peer, nextHop, g⟩
  others : ∀ q, q ≠ p → result.2.desired.lookup q = f.desired.lookup q
  routes : ∀ t q, q ≠ p ∨ t ∉ cfg.tables → result.2.routes.lookup (t, q) = f.routes.lookup (t, q)
  grows : ∀ t q, (t, q) ∈ f.routes → (t, q) ∈ result.2.routes
  written : result.1 = [] → ∃ g, (cfg.resolveNextHop = false → g = nextHop) ∧
    ∀ t ∈ cfg.tables, result.2.routes.lookup (t, p) = some g
  succeeds : (cfg.resolveNextHop = true → (k.routeMatch nextHop).isOk) →
    (∀ t ∈ cfg.tables, k.installFails t p = none) → result.1 = []

theorem gateway_direct (h : cfg.resolveNextHop = false) (nextHop : NetipAddr) :
    f.gateway cfg k p nextHop = .ok nextHop := by
  simp [gateway, h]

theorem gateway_isOk (h : cfg.resolveNextHop = true → (k.routeMatch nextHop).isOk) :
    ∃ g, f.gateway cfg k p nextHop = .ok g := by
  cases hresolve : cfg.resolveNextHop with
  | false => exact ⟨nextHop, gateway_direct hresolve nextHop⟩
  | true =>
    have hok := h hresolve
    unfold gateway
    cases hmatch : k.routeMatch nextHop with
    | error e =>
      rw [hmatch] at hok
      cases hok
    | ok =>
      simp only [hresolve, Bool.not_true, Bool.false_eq_true, if_false]
      split
      · exact absurd ‹_› (by simp)
      · exact ⟨_, rfl⟩
      · split
        · exact ⟨_, rfl⟩
        · split
          · split <;> exact ⟨_, rfl⟩
          · exact ⟨_, rfl⟩

theorem installGateway_spec {gateway : NetipAddr} {g : Option NetipAddr}
    (hentry : f.desired.lookup p = some ⟨peer, nextHop, g⟩)
    (hdirect : cfg.resolveNextHop = false → gateway = nextHop) :
    Announced cfg k peer p nextHop f (f.installGateway cfg k p gateway) := by
  have herrors := @Kernel.installInto_errors k p gateway cfg.tables f.routes
  have hlookup := @Kernel.lookup_installInto k p gateway cfg.tables f.routes
  unfold installGateway
  rw [hentry]
  generalize k.installInto p gateway cfg.tables f.routes = result at herrors hlookup ⊢
  obtain ⟨errors, routes⟩ := result
  dsimp only at herrors hlookup ⊢
  have hroutes (t : Int) (q : Dest) (h : q ≠ p ∨ t ∉ cfg.tables) :
      routes.lookup (t, q) = f.routes.lookup (t, q) := by
    rw [hlookup, if_neg]
    rintro ⟨rfl, ht, -⟩
    exact h.elim (fun hne => hne rfl) fun hout => hout ht
  have hgrows (t : Int) (q : Dest) (h : (t, q) ∈ f.routes) : (t, q) ∈ routes := by
    rw [mem_iff_lookup, hlookup]
    split
    · exact ⟨_, rfl⟩
    · exact mem_iff_lookup.mp h
  cases errors with
  | nil =>
    have hgood : ∀ t ∈ cfg.tables, k.installFails t p = none := by simpa using herrors.symm
    refine ⟨⟨some gateway, AList.lookup_insert _⟩, fun q hq => AList.lookup_insert_ne hq, hroutes,
      hgrows, fun _ => ⟨gateway, hdirect, fun t ht => ?_⟩, fun _ _ => rfl⟩
    exact (hlookup t p).trans (if_pos ⟨rfl, ht, hgood t ht⟩)
  | cons =>
    refine ⟨⟨g, hentry⟩, fun q _ => rfl, hroutes, hgrows, nofun, fun _ hgood => ?_⟩
    rw [filterMap_eq_nil_iff.mpr fun t ht => by simp [hgood t ht]] at herrors
    cases herrors

theorem installGateway_errors {gateway : NetipAddr}
    (h : ∀ t ∈ cfg.tables, k.installFails t p = none) :
    (f.installGateway cfg k p gateway).1 = [] := by
  have herrors := @Kernel.installInto_errors k p gateway cfg.tables f.routes
  rw [filterMap_eq_nil_iff.mpr fun t ht => by simp [h t ht]] at herrors
  unfold installGateway
  generalize k.installInto p gateway cfg.tables f.routes = result at herrors ⊢
  obtain ⟨errors, routes⟩ := result
  dsimp only at herrors
  subst herrors
  cases f.desired.lookup p <;> rfl

theorem installPrefix_spec :
    Announced cfg k peer p nextHop f
      ({ f with desired := f.desired.insert p ⟨peer, nextHop, none⟩ }.installPrefix
        cfg k p nextHop) := by
  unfold installPrefix
  cases hgateway : ({ f with desired := f.desired.insert p ⟨peer, nextHop, none⟩ } : FIB).gateway
      cfg k p nextHop with
  | error e =>
    refine ⟨⟨none, AList.lookup_insert _⟩, fun q hq => AList.lookup_insert_ne hq, fun _ _ _ => rfl,
      fun _ _ h => h, nofun, fun hok _ => ?_⟩
    obtain ⟨g, hg⟩ := gateway_isOk hok
    rw [hgateway] at hg
    cases hg
  | ok gateway =>
    have hdirect (h : cfg.resolveNextHop = false) : gateway = nextHop := by
      rw [gateway_direct h] at hgateway
      exact (Except.ok.inj hgateway).symm
    have hspec : Announced cfg k peer p nextHop
        { f with desired := f.desired.insert p ⟨peer, nextHop, none⟩ } _ :=
      installGateway_spec (AList.lookup_insert _) hdirect
    exact { hspec with
      others := fun q hq => (hspec.others q hq).trans (AList.lookup_insert_ne hq) }

/-- An announcement is refused for its next hop, or it is taken up. -/
theorem apply_cases (peer : String) (p : Dest) (nextHop : NetipAddr) :
    (nextHop = .invalid ∧
        f.apply cfg k ⟨peer, p.1, nextHop, false⟩ = ([.invalidNextHop p], f)) ∨
      Announced cfg k peer p nextHop f (f.apply cfg k ⟨peer, p.1, nextHop, false⟩) := by
  unfold apply
  rw [pathPrefix_val]
  by_cases hn : nextHop = .invalid
  · exact .inl ⟨hn, by simp [hn]⟩
  · refine .inr ?_
    simp only [hn, Bool.not_false, Bool.true_and, decide_false, Bool.false_eq_true, if_false]
    exact installPrefix_spec

theorem withdrawExact_eq (peer : String) (p : Dest) :
    f.withdrawExact cfg k peer p.1 = f.remove cfg k p := by
  rw [withdrawExact, pathPrefix_val]

end Specs

end FIB

/-! ## The map the callers have in mind -/

structure Announcement where
  peer : String
  nextHop : NetipAddr
  deriving DecidableEq

def DesiredRoute.announcement (route : DesiredRoute) : Announcement := ⟨route.peer, route.nextHop⟩

inductive FIBCall
  | apply (event : PathEvent)
  | withdrawExact (peer : String) (p : Prefix)
  | withdrawPeer (peer : String)

/-- The latest announcement of each prefix that has not been taken back. -/
abbrev Rib := Dest → Option Announcement

namespace Rib

/-- The peer takes back what it has at the prefixes of `c`. -/
def drop (rib : Rib) (peer : String) (c : Dest → Bool) : Rib := fun q =>
  if (rib q).any (·.peer = peer) && c q then none else rib q

/-- A call, where a withdrawal of `p` through `Apply` takes back what its peer
has at the prefixes `q` with `within p q`. An invalid path changes nothing. -/
def step (within : Dest → Dest → Bool) (rib : Rib) : FIBCall → Rib
  | .apply event =>
    match pathPrefix event.pathPrefix with
    | .error _ => rib
    | .ok p =>
      if event.withdrawn then rib.drop event.peer (within p)
      else if event.nextHop = .invalid then rib
      else Function.update rib p (some ⟨event.peer, event.nextHop⟩)
  | .withdrawExact peer p =>
    match pathPrefix p with
    | .error _ => rib
    | .ok p => rib.drop peer (· = p)
  | .withdrawPeer peer => rib.drop peer fun _ => true

end Rib

/-- The installer and the map beside it. -/
structure Mirror where
  fib : FIB
  rib : Rib

namespace Mirror

def start : Mirror := ⟨.new, fun _ => none⟩

/-- Next-hop resolution is off. -/
def direct (tables : List Int) (metric : Nat) : FIBConfig := ⟨tables, metric, false⟩

/-- A call with every kernel operation successful. -/
def callFIB (cfg : FIBConfig) (f : FIB) : FIBCall → FIB
  | .apply event => (f.apply cfg .obliging event).2
  | .withdrawExact peer p => (f.withdrawExact cfg .obliging peer p).2
  | .withdrawPeer peer => (f.withdrawPeer cfg .obliging peer).2

def step (cfg : FIBConfig) (within : Dest → Dest → Bool) (s : Mirror) (call : FIBCall) : Mirror :=
  ⟨callFIB cfg s.fib call, s.rib.step within call⟩

/-- Every owned table has one route for each entry of `desired`, with its next
hop, and nothing else; and the entries are the announcements of the map. -/
structure Mirrors (tables : List Int) (s : Mirror) : Prop where
  routes : ∀ t ∈ tables, ∀ p, s.fib.routes.lookup (t, p) = (s.fib.desired.lookup p).map (·.nextHop)
  desired : ∀ p, (s.fib.desired.lookup p).map (·.announcement) = s.rib p

/-- Another peer's entry stands at the prefix. -/
def Others (s : Mirror) (peer : String) (p : Dest) : Prop :=
  ∃ route, s.fib.desired.lookup p = some route ∧ route.peer ≠ peer

/-- The call withdraws a prefix at which another peer's entry stands; through
`Apply`, one inside which its own peer has nothing. -/
def Foreign (tables : List Int) (s : Mirror) : FIBCall → Prop
  | .apply event => event.withdrawn = true ∧ tables ≠ [] ∧ ∃ p, pathPrefix event.pathPrefix = .ok p ∧
      s.fib.prefixesOf event.peer (inside p) = [] ∧ s.Others event.peer p
  | .withdrawExact peer p => ∃ q, pathPrefix p = .ok q ∧ s.Others peer q
  | .withdrawPeer _ => False

section Steps

variable {tables : List Int} {metric : Nat} {s : Mirror}

/-- Where a peer has nothing inside a prefix, an entry at it is another's. -/
theorem others_iff {peer : String} {p : Dest}
    (hnone : s.fib.prefixesOf peer (inside p) = []) :
    s.Others peer p ↔ (s.fib.desired.lookup p).isSome := by
  constructor
  · rintro ⟨route, hroute, -⟩
    exact Option.isSome_iff_exists.mpr ⟨route, hroute⟩
  · intro hsome
    obtain ⟨route, hroute⟩ := Option.isSome_iff_exists.mp hsome
    refine ⟨route, hroute, fun hpeer => ?_⟩
    have hmem : p ∈ s.fib.prefixesOf peer (inside p) :=
      FIB.mem_prefixesOf.mpr ⟨⟨route, hroute, hpeer⟩, inside_self p⟩
    rw [hnone] at hmem
    cases hmem

section

variable (h : Mirrors tables s)

include h

/-- Removing a list of prefixes keeps the tables in step with `desired`. -/
theorem Mirrors.removeAll (ps : List Dest) {rib : Rib}
    (hrib : ∀ q, rib q = if q ∈ ps then none else s.rib q) :
    Mirrors tables ⟨(s.fib.removeAll (direct tables metric) .obliging ps).2, rib⟩ := by
  have hspec := @FIB.removeAll_spec (direct tables metric) .obliging s.fib ps
  refine ⟨fun t ht q => ?_, fun q => ?_⟩
  · rw [hspec.routes, hspec.desired]
    by_cases hq : q ∈ ps
    · rw [if_pos ⟨hq, ht, rfl⟩, if_pos hq, Option.map_none]
    · rw [if_neg fun hd => hq hd.1, if_neg hq]
      exact h.routes t ht q
  · simp only [hspec.desired, hrib]
    by_cases hq : q ∈ ps
    · rw [if_pos hq, if_pos hq, Option.map_none]
    · rw [if_neg hq, if_neg hq]
      exact h.desired q

/-- The prefixes a peer has in `desired` are those it has in the map. -/
theorem Mirrors.drop_eq (peer : String) (c : Dest → Bool) (q : Dest) :
    s.rib.drop peer c q = if q ∈ s.fib.prefixesOf peer c then none else s.rib q := by
  refine if_congr ?_ rfl rfl
  rw [FIB.mem_prefixesOf, ← h.desired q, Bool.and_eq_true]
  refine and_congr_left fun _ => ?_
  simp only [Option.any_eq_true, Option.map_eq_some_iff, decide_eq_true_eq]
  constructor
  · rintro ⟨-, ⟨route, hroute, rfl⟩, hpeer⟩
    exact ⟨route, hroute, hpeer⟩
  · rintro ⟨route, hroute, hpeer⟩
    exact ⟨_, ⟨route, hroute, rfl⟩, hpeer⟩

theorem Mirrors.announce {peer : String} {p : Dest} {result : List FIBError × FIB}
    (hspec : FIB.Announced (direct tables metric) .obliging peer p nextHop s.fib result) :
    Mirrors tables ⟨result.2, Function.update s.rib p (some ⟨peer, nextHop⟩)⟩ := by
  obtain ⟨g, hentry⟩ := hspec.entry
  obtain ⟨gateway, hdirect, hwritten⟩ := hspec.written
    (hspec.succeeds nofun fun _ _ => rfl)
  refine ⟨fun t ht q => ?_, fun q => ?_⟩
  · by_cases hq : q = p
    · rw [hq, hwritten t ht, hentry, hdirect rfl]
      rfl
    · rw [hspec.routes t q (.inl hq), hspec.others q hq]
      exact h.routes t ht q
  · by_cases hq : q = p
    · subst hq
      simp only [hentry, Function.update_self]
      rfl
    · simp only [hspec.others q hq, Function.update_of_ne hq]
      exact h.desired q

/-- The blind delete of a withdrawal for which its peer has no entry. -/
theorem Mirrors.blind (p : Dest) :
    Mirrors tables ⟨{ s.fib with
        routes := (Kernel.obliging.deleteFrom p tables s.fib.routes).2 }, s.rib⟩ ↔
      ¬ (tables ≠ [] ∧ (s.fib.desired.lookup p).isSome) := by
  constructor
  · rintro h' ⟨htables, hsome⟩
    obtain ⟨t, ht⟩ := exists_mem_of_ne_nil _ htables
    have hgone := h'.routes t ht p
    rw [Kernel.lookup_deleteFrom, if_pos ⟨rfl, ht, rfl⟩] at hgone
    obtain ⟨route, hroute⟩ := Option.isSome_iff_exists.mp hsome
    rw [hroute] at hgone
    cases hgone
  · intro hnot
    refine ⟨fun t ht q => ?_, h.desired⟩
    simp only [Kernel.lookup_deleteFrom]
    by_cases hq : q = p
    · have hnone : s.fib.desired.lookup p = none := by
        by_contra hsome
        exact hnot ⟨ne_nil_of_mem ht, Option.isSome_iff_ne_none.mpr hsome⟩
      rw [if_pos ⟨hq, ht, rfl⟩, hq, hnone, Option.map_none]
    · rw [if_neg fun hd => hq hd.1]
      exact h.routes t ht q

theorem Mirrors.withdraw (peer : String) (p : Dest) :
    Mirrors tables ⟨(s.fib.withdraw (direct tables metric) .obliging peer p).2,
        s.rib.drop peer (inside p)⟩ ↔
      ¬ (tables ≠ [] ∧ s.fib.prefixesOf peer (inside p) = [] ∧ s.Others peer p) := by
  have hdrop := h.drop_eq peer (inside p)
  unfold FIB.withdraw
  split
  · rename_i hmatched
    rw [hmatched] at hdrop
    have hsame : s.rib.drop peer (inside p) = s.rib := funext fun q => by simp [hdrop q]
    rw [hsame]
    refine (h.blind p).trans (not_congr ?_)
    simp [hmatched, others_iff hmatched]
  · rename_i hmatched
    exact iff_of_true (h.removeAll _ hdrop) fun hnone => hmatched hnone.2.1

theorem Mirrors.withdrawExact (peer : String) (p : Dest) :
    Mirrors tables ⟨(s.fib.remove (direct tables metric) .obliging p).2,
        s.rib.drop peer (· = p)⟩ ↔ ¬ s.Others peer p := by
  constructor
  · rintro h' ⟨route, hroute, hpeer⟩
    have hgone := h'.desired p
    simp only [FIB.remove_spec.desired p, mem_singleton, if_true, Option.map_none] at hgone
    have hkept : s.rib p = some route.announcement := by rw [← h.desired p, hroute]; rfl
    rw [Rib.drop, hkept, if_neg (by simp [DesiredRoute.announcement, hpeer])] at hgone
    cases hgone
  · intro hnot
    refine @Mirrors.removeAll tables metric s h [p] _ fun q => ?_
    rw [h.drop_eq]
    by_cases hq : q = p
    · rw [if_pos (mem_singleton.mpr hq), hq]
      cases hroute : s.fib.desired.lookup p with
      | none =>
        rw [← h.desired p, hroute]
        simp
      | some route =>
        have hpeer : route.peer = peer := by_contra fun hne => hnot ⟨route, hroute, hne⟩
        rw [if_pos (FIB.mem_prefixesOf.mpr ⟨⟨route, hroute, hpeer⟩, by simp⟩)]
    · rw [if_neg fun hm => hq (mem_singleton.mp hm), if_neg fun hm => hq ?_]
      simpa using (FIB.mem_prefixesOf.mp hm).2

theorem mirrors_step (call : FIBCall) :
    Mirrors tables (s.step (direct tables metric) inside call) ↔ ¬ Foreign tables s call := by
  cases call with
  | apply event =>
    simp only [step, callFIB, Rib.step, FIB.apply, Foreign]
    cases hp : pathPrefix event.pathPrefix with
    | error e => exact iff_of_true h (by simp)
    | ok p =>
      cases hw : event.withdrawn with
      | true =>
        simp only [Bool.not_true, Bool.false_and, Bool.false_eq_true, if_false, if_true]
        refine (h.withdraw event.peer p).trans (not_congr ?_)
        simp
      | false =>
        by_cases hn : event.nextHop = .invalid
        · simpa [hn] using h
        · simp only [hn, Bool.not_false, Bool.true_and, decide_false, Bool.false_eq_true, if_false,
            false_and, not_false_eq_true, iff_true]
          exact h.announce FIB.installPrefix_spec
  | withdrawExact peer p =>
    simp only [step, callFIB, Rib.step, FIB.withdrawExact, Foreign]
    cases hp : pathPrefix p with
    | error e => exact iff_of_true h (by simp)
    | ok q =>
      refine (h.withdrawExact peer q).trans (not_congr ?_)
      simp
  | withdrawPeer peer =>
    exact iff_of_true (h.removeAll _ (h.drop_eq peer fun _ => true)) id

end

end Steps

theorem mirrors_start (tables : List Int) : Mirrors tables start :=
  ⟨fun _ _ _ => rfl, fun _ => rfl⟩

/-- The tables and `desired` follow the latest announcements, where a
withdrawal through `Apply` takes back what its peer has at the prefix and
inside it, exactly if no call withdraws a prefix at which only another peer's
entry stands. -/
theorem mirrors_iff (tables : List Int) (metric : Nat) (calls : List FIBCall) :
    Always (step (direct tables metric) inside) (Mirrors tables) start calls ↔
      Each (step (direct tables metric) inside) (fun s call => ¬ Foreign tables s call)
        start calls := by
  have hkept : Kept (step (direct tables metric) inside) fun _ => True := fun _ _ _ => trivial
  exact always_iff_each hkept trivial (mirrors_start tables) (fun _ call _ h => mirrors_step h call)
    calls

/-- A peer announces `10.0.0.0/8` and `10.1.0.0/16` and withdraws the former
through `Apply`: the latter goes too. -/
theorem withdrawal_takes_inside :
    ∃ calls : List FIBCall,
      ¬ Always (step (direct [100] 0) fun p q => q = p) (Mirrors [100]) start calls := by
  let wide : Prefix := ⟨.v4 #v[10, 0, 0, 0], some 8, (fun n hn => by cases hn; decide), rfl⟩
  let narrow : Prefix := ⟨.v4 #v[10, 1, 0, 0], some 16, (fun n hn => by cases hn; decide), rfl⟩
  let hop : NetipAddr := .v4 #v[10, 230, 230, 2]
  refine ⟨[.apply ⟨"router-1", wide, hop, false⟩, .apply ⟨"router-1", narrow, hop, false⟩,
    .apply ⟨"router-1", wide, hop, true⟩], fun h => ?_⟩
  have hnarrow := (always_iff.mp h _ prefix_rfl).desired ⟨narrow, by decide⟩
  exact absurd hnarrow (by decide +kernel)

end Mirror

end Mwan.Bgp

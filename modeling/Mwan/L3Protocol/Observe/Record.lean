import Mwan.Core.Keyed
import Mwan.Core.Machine

/-!
# The recorded observation (`gateway/internal/wanstate/ownership.go`)

The store keeps what the netlink monitor observed of a connection's link:
whole snapshots replace it, deltas edit it, and each call reports what has
come and gone.
-/
namespace Mwan.Observe

open Mwan.Core

/-! ## Addresses and routes -/

inductive Family
  | inet
  | inet6
  deriving DecidableEq, Repr

/-- mirrors state.go:36-48 without the time of the
observation -/
structure CurrentAddr where
  cidr : String
  family : Family
  flags : Int
  scope : Int
  preferredLifetime : Int
  validLifetime : Int
  origin : String
  deriving DecidableEq

/-- mirrors state.go:228-233 -/
structure RouteNextHop where
  via : String
  dev : String
  linkIndex : Int
  weight : Int
  deriving DecidableEq

/-- mirrors state.go:214-225 -/
structure CurrentRoute where
  family : Family
  dest : String
  via : String
  dev : String
  tableID : Int
  protocol : Int
  metric : Int
  scope : Int
  type : Int
  nextHops : List RouteNextHop
  deriving DecidableEq

/-- mirrors monitor.go:111-120 without the identity of
the connection and the time -/
structure Snapshot where
  actualIface : String
  ifIndex : Int
  linkUp : Bool
  addresses : List CurrentAddr
  routes : List CurrentRoute

/-- What an event says. A delta of an address or route carries it whole. -/
inductive EventBody
  | unknown
  | linkUp
  | linkDown
  | addrAdded (address : CurrentAddr)
  | addrDeleted (family : Family) (cidr : String)
  | routeAdded (route : CurrentRoute)
  | routeDeleted (route : CurrentRoute)
  | resync (snapshot : Option Snapshot)
  | observationStale (reason : String)
  | observationFailed (reason : String)
  | uplinkReturned

/-- mirrors monitor.go:79-108 -/
structure Event where
  body : EventBody
  connectionID : String
  actualIface : String
  ifIndex : Int
  snapshotReplay : Bool

/-! ## The connection -/

inductive Observation
  | unknown
  | fresh
  | stale
  | failed
  deriving DecidableEq, Repr

inductive LinkState
  | absent
  | down
  | up
  deriving DecidableEq, Repr

/-- mirrors ownership.go:24-38, what is observed -/
structure FamilyState where
  addresses : List CurrentAddr := []
  routes : List CurrentRoute := []

/-- What a transition is about: the reason text names it. -/
inductive Subject
  | observation (reason : String)
  | link
  | address (cidr : String)
  | addressFlags (cidr : String)
  | route (route : CurrentRoute)
  deriving DecidableEq

/-- The state before or after. -/
inductive Value
  | absent
  | present
  | observation (value : Observation)
  | link (value : LinkState)
  | flags (flags : Int) (preferred valid : Bool)
  deriving DecidableEq

/-- mirrors ownership.go:72-81 without its number and
time; `family` is `none` for the link -/
structure Transition where
  family : Option Family
  previous : Value
  current : Value
  subject : Subject
  deriving DecidableEq

/-- mirrors ownership.go:84-98, what is observed -/
structure ConnectionState where
  actualName : String := ""
  ifIndex : Int := 0
  linkState : LinkState := .absent
  observation : Observation := .unknown
  observationReason : String := ""
  ipv4 : FamilyState := {}
  ipv6 : FamilyState := {}
  recent : List Transition := []

namespace ConnectionState

def family (current : ConnectionState) : Family → FamilyState
  | .inet => current.ipv4
  | .inet6 => current.ipv6

def setFamily (current : ConnectionState) (f : Family) (state : FamilyState) : ConnectionState :=
  match f with
  | .inet => { current with ipv4 := state }
  | .inet6 => { current with ipv6 := state }

@[simp] theorem family_setFamily (current : ConnectionState) (f g : Family) (state : FamilyState) :
    (current.setFamily f state).family g = if g = f then state else current.family g := by
  cases f <;> cases g <;> rfl

end ConnectionState

def recentTransitionLimit : Nat := 32

/-- mirrors ownership.go:512-520 -/
def addTransitions (current : ConnectionState) (added : List Transition) : ConnectionState :=
  let recent := current.recent ++ added
  { current with recent := recent.drop (recent.length - recentTransitionLimit) }

/-! ## Recording an event -/

/-- mirrors ownership.go:458-486 -/
def applyObservedSnapshot (current : ConnectionState) (snapshot : Snapshot) : ConnectionState :=
  { current with
    actualName := snapshot.actualIface
    ifIndex := snapshot.ifIndex
    observation := .fresh
    observationReason := ""
    linkState :=
      if 0 < snapshot.ifIndex then (if snapshot.linkUp then .up else .down) else .absent
    ipv4 :=
      { addresses := snapshot.addresses.filter fun address => address.family ≠ .inet6
        routes := snapshot.routes.filter fun route => route.family ≠ .inet6 }
    ipv6 :=
      { addresses := snapshot.addresses.filter fun address => address.family = .inet6
        routes := snapshot.routes.filter fun route => route.family = .inet6 } }

/-- mirrors ownership.go:529-537 -/
def appendOrReplaceAddress (addresses : List CurrentAddr) (value : CurrentAddr) : List CurrentAddr :=
  put CurrentAddr.cidr addresses value

/-- mirrors ownership.go:539-541 -/
def removeAddress (addresses : List CurrentAddr) (cidr : String) : List CurrentAddr :=
  dropKey CurrentAddr.cidr addresses cidr

/-- Every field of a route is compared.
mirrors ownership.go:547-559 -/
def appendOrReplaceRoute (routes : List CurrentRoute) (value : CurrentRoute) : List CurrentRoute :=
  put id routes value

/-- mirrors ownership.go:561-563 -/
def removeRoute (routes : List CurrentRoute) (value : CurrentRoute) : List CurrentRoute :=
  dropKey id routes value

/-- mirrors ownership.go:488-510 -/
def applyObservedDelta (current : ConnectionState) (event : Event) : ConnectionState :=
  let current := { current with actualName := event.actualIface, ifIndex := event.ifIndex }
  match event.body with
  | .linkUp => { current with linkState := .up }
  | .linkDown => { current with linkState := .down }
  | .addrAdded address =>
    let state := current.family address.family
    current.setFamily address.family
      { state with addresses := appendOrReplaceAddress state.addresses address }
  | .addrDeleted family cidr =>
    let state := current.family family
    current.setFamily family { state with addresses := removeAddress state.addresses cidr }
  | .routeAdded route =>
    let state := current.family route.family
    current.setFamily route.family { state with routes := appendOrReplaceRoute state.routes route }
  | .routeDeleted route =>
    let state := current.family route.family
    current.setFamily route.family { state with routes := removeRoute state.routes route }
  | .unknown | .resync _ | .observationStale _ | .observationFailed _ | .uplinkReturned => current

/-- mirrors ownership.go:443-445 -/
def addressObservationState (address : CurrentAddr) : Value :=
  .flags address.flags (0 < address.preferredLifetime) (0 < address.validLifetime)

/-- The transition of an address in the new state: added, changed, or none. -/
def addressTransition (f : Family) (previous : List CurrentAddr) (address : CurrentAddr) :
    Option Transition :=
  match previous.find? fun candidate => candidate.cidr = address.cidr with
  | none => some ⟨some f, .absent, .present, .address address.cidr⟩
  | some old =>
    let before := addressObservationState old
    let after := addressObservationState address
    if before ≠ after then some ⟨some f, before, after, .addressFlags address.cidr⟩ else none

/-- mirrors ownership.go:417-441 -/
def familyTransitions (f : Family) (previous next : FamilyState) : List Transition :=
  ((previous.addresses.filter fun address =>
      !(next.addresses.any fun candidate => candidate.cidr = address.cidr)).map fun address =>
    ⟨some f, .present, .absent, .address address.cidr⟩) ++
  next.addresses.filterMap (addressTransition f previous.addresses) ++
  ((previous.routes.filter fun route => !(next.routes.any fun candidate => candidate = route)).map
    fun route => ⟨some f, .present, .absent, .route route⟩) ++
  ((next.routes.filter fun route => !(previous.routes.any fun candidate => candidate = route)).map
    fun route => ⟨some f, .absent, .present, .route route⟩)

/-- The transitions between two states. -/
def observedTransitions (previous current : ConnectionState) : List Transition :=
  if previous.observation = .unknown then []
  else
    (if previous.linkState ≠ current.linkState then
      [⟨none, .link previous.linkState, .link current.linkState, .link⟩] else []) ++
    familyTransitions .inet previous.ipv4 current.ipv4 ++
    familyTransitions .inet6 previous.ipv6 current.ipv6

/-- A gap in the observation. -/
def recordGap (current : ConnectionState) (next : Observation) (reason : String) :
    ConnectionState × List Transition :=
  let transitions :=
    if current.observation ≠ next then
      [⟨none, .observation current.observation, .observation next, .observation reason⟩]
    else []
  (addTransitions { current with observation := next, observationReason := reason } transitions,
    transitions)

/-- The connection after an event and the transitions it reports.
mirrors ownership.go:357-415 from the connection on -/
def recordEvent (current : ConnectionState) (event : Event) : ConnectionState × List Transition :=
  let observed := fun next : ConnectionState =>
    let transitions := observedTransitions current next
    (addTransitions next transitions, transitions)
  match event.body with
  | .observationStale reason => recordGap current .stale reason
  | .observationFailed reason => recordGap current .failed reason
  | .resync (some snapshot) => observed (applyObservedSnapshot current snapshot)
  | .resync none =>
    if event.snapshotReplay then (current, []) else observed (applyObservedDelta current event)
  | _ =>
    if current.observation ≠ .fresh ∨ event.snapshotReplay then (current, [])
    else observed (applyObservedDelta current event)

/-- The connections by their stable identifiers. -/
abbrev Store := String → Option ConnectionState

/-- mirrors ownership.go:357-415 -/
def recordObservation (store : Store) (event : Event) : Store × List Transition :=
  if event.connectionID = "" then (store, [])
  else
    match store event.connectionID with
    | none => (store, [])
    | some current =>
      let (next, transitions) := recordEvent current event
      (Function.update store event.connectionID (some next), transitions)

end Mwan.Observe

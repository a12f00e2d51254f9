import Mwan.L3Protocol.Observe.Record

/-!
# The netlink monitor (`gateway/internal/netif/monitor.go`,
`monitor_snapshot.go`, `monitor_status.go`)

Three subscription goroutines turn netlink updates into events, a fourth one
reads the kernel and publishes a snapshot whenever one is asked for, and the
consumer takes the events from a queue of 64. One step is one critical section:

* a handler holds `dispatchMu` while it looks up the link (`rebind`, under
  `mu`), marks the observation stale where the link changed (`invalidate`,
  under `stateMu`) and sends its event (`emit`, under `stateMu`);
* a lost subscription first forgets the link (`lose`, under `mu`) and then
  marks the observation stale and failed (`lost`, under `stateMu`), without
  `dispatchMu`;
* the resync goroutine takes the request, checks the subscriptions, reads the
  binding epoch and then the kernel, and publishes under all three locks;
  while it replays the snapshot it keeps `dispatchMu`.

What the link lookups and the kernel reads return is up to the environment.
Cancellation, which ends the monitor, is left out.
-/
namespace Mwan.Observe

/-! ## Events in the queue -/

/-- An event on its way. `sentAt` is when a snapshot was published or a delta
accepted, and `readAt` when the read of the snapshot began. -/
structure Entry where
  event : Event
  readAt : Nat := 0
  sentAt : Nat := 0

namespace Entry

def isStale (e : Entry) : Bool :=
  match e.event.body with
  | .observationStale _ => true
  | _ => false

def isResync (e : Entry) : Bool :=
  match e.event.body with
  | .resync _ => true
  | _ => false

/-- Neither a snapshot nor the state of the observation. -/
def isState (e : Entry) : Bool :=
  match e.event.body with
  | .resync _ | .observationStale _ | .observationFailed _ => false
  | _ => true

/-- A change the monitor was told of, as opposed to a part of a snapshot. -/
def isDelta (e : Entry) : Bool := e.isState && !e.event.snapshotReplay

end Entry

/-- A delta that was accepted and not delivered. -/
structure Drop where
  event : Event
  acceptedAt : Nat
  droppedAt : Nat

/-! ## The monitor -/

/-- Who holds `dispatchMu`: a handler, maybe with a changed link to announce, or
the resync goroutine. -/
inductive Dispatch
  | free
  | handling (changed : Bool)
  | replaying
  deriving DecidableEq

/-- Where the resync goroutine is. -/
inductive Loop
  | waiting
  | taken
  | checked
  | reading (epoch readAt : Nat)
  | holding (epoch readAt : Nat) (snapshot : Snapshot)
  | failing (reason : String)
  | sleeping
  | replaying (rest : List Event)

structure Config where
  connectionID : String

/-- mirrors monitor.go:155-177; `token` says whether
`resync` holds a request. `received` is what the consumer has taken, `accepted`
the deltas with the moment they came, `dropped` those that were not delivered
and `rebound` the moments the link was lost or changed; `clock` counts the
steps. -/
structure Monitor where
  queue : List Entry := []
  ifIndex : Int
  actualIface : String
  bindingEpoch : Nat := 0
  stale : Bool := true
  failed : Bool := false
  dirty : Bool := false
  ready : Fin 3 → Bool := fun _ => false
  token : Bool := false
  dispatch : Dispatch := .free
  loop : Loop := .waiting
  losing : List (Fin 3 × String) := []
  received : List Entry := []
  accepted : List (Event × Nat) := []
  dropped : List Drop := []
  rebound : List Nat := []
  clock : Nat := 0

def queueCapacity : Nat := 64

namespace Monitor

def allReady (m : Monitor) : Bool := decide (∀ i, m.ready i = true)

def goTo (m : Monitor) (loop : Loop) : Monitor := { m with loop }

def lock (m : Monitor) (dispatch : Dispatch) : Monitor := { m with dispatch }

/-- A send that does not block. -/
def trySend (m : Monitor) (entry : Entry) : Option Monitor :=
  if m.queue.length < queueCapacity then some { m with queue := m.queue ++ [entry] } else none

/-- The queue is emptied; its deltas are not delivered. -/
def drain (m : Monitor) : Monitor :=
  { m with
    queue := []
    dropped := ((m.queue.filter Entry.isDelta).map fun e => ⟨e.event, e.sentAt, m.clock⟩) ++ m.dropped }

/-- mirrors monitor_status.go:3-11 -/
def observationEvent (cfg : Config) (body : EventBody) : Event :=
  { body, connectionID := cfg.connectionID, actualIface := "", ifIndex := 0, snapshotReplay := false }

/-- mirrors monitor_status.go:32-55 -/
def markStaleLocked (cfg : Config) (m : Monitor) (reason : String) : Monitor :=
  let m :=
    if m.stale then m
    else
      let m := { m with stale := true, failed := false }.drain
      (m.trySend ⟨observationEvent cfg (.observationStale reason), 0, 0⟩).getD m
  { m with token := true }

/-- mirrors monitor_status.go:57-96 -/
def markFailedLocked (cfg : Config) (m : Monitor) (reason : String) : Monitor :=
  if m.failed then m
  else
    let failure : Entry := ⟨observationEvent cfg (.observationFailed reason), 0, 0⟩
    match m.trySend failure with
    | some m => { m with failed := true }
    | none =>
      let m := { m.drain with stale := true }
      match m.trySend ⟨observationEvent cfg
          (.observationStale "queued observations discarded after failure"), 0, 0⟩ with
      | none => m
      | some m =>
        let m :=
          match m.trySend failure with
          | some m => { m with failed := true }
          | none => m
        { m with token := true }

/-- The delta is not delivered. -/
def discard (m : Monitor) (event : Event) : Monitor :=
  { m with dropped := ⟨event, m.clock, m.clock⟩ :: m.dropped }

/-- mirrors monitor.go:443-466 -/
def emit (cfg : Config) (m : Monitor) (event : Event) : Monitor :=
  let m := { m with accepted := (event, m.clock) :: m.accepted }
  if m.stale then { m.discard event with dirty := true }
  else
    match m.trySend ⟨event, 0, m.clock⟩ with
    | some m => m
    | none => (m.discard event).markStaleLocked cfg "event queue overflow"

/-- The link of a lookup; the epoch counts its changes. -/
def bind (m : Monitor) (ifIndex : Int) (actualIface : String) : Monitor :=
  if m.ifIndex ≠ ifIndex ∨ m.actualIface ≠ actualIface then
    { m with
      ifIndex
      actualIface
      bindingEpoch := m.bindingEpoch + 1
      rebound := m.clock :: m.rebound }
  else m

/-- mirrors monitor.go:469-474, the part under `mu` -/
def lose (m : Monitor) (i : Fin 3) (reason : String) : Monitor :=
  { m with
    ifIndex := 0
    actualIface := ""
    bindingEpoch := m.bindingEpoch + 1
    rebound := m.clock :: m.rebound
    losing := (i, reason) :: m.losing }

/-- mirrors monitor.go:475-480, the part under `stateMu` -/
def lost (cfg : Config) (m : Monitor) (i : Fin 3) (reason : String) : Monitor :=
  let m := { m with
    losing := m.losing.erase (i, reason), ready := Function.update m.ready i false }
  markFailedLocked cfg (markStaleLocked cfg m reason) reason

/-- mirrors monitor.go:482-490 -/
def nowReady (m : Monitor) (i : Fin 3) : Monitor :=
  let m := { m with ready := Function.update m.ready i true }
  if m.allReady && m.stale then { m with token := true } else m

/-- mirrors monitor_snapshot.go:62-107 -/
def replayEvents (cfg : Config) (snapshot : Snapshot) : List Event :=
  if snapshot.ifIndex = 0 then []
  else
    ((if snapshot.linkUp then [EventBody.linkUp] else []) ++
      snapshot.addresses.map EventBody.addrAdded ++
      snapshot.routes.map EventBody.routeAdded).map fun body =>
        { body, connectionID := cfg.connectionID, actualIface := snapshot.actualIface,
          ifIndex := snapshot.ifIndex, snapshotReplay := true }

/-- The event that carries a snapshot. -/
def resyncEvent (cfg : Config) (snapshot : Snapshot) : Event :=
  { body := .resync (some snapshot), connectionID := cfg.connectionID,
    actualIface := snapshot.actualIface, ifIndex := snapshot.ifIndex, snapshotReplay := false }

/-- One attempt to publish the snapshot; it stays in hand where the queue is
full.
mirrors monitor_snapshot.go:9-59 -/
def publishSnapshot (cfg : Config) (m : Monitor) (epoch readAt : Nat) (snapshot : Snapshot) :
    Monitor :=
  if m.bindingEpoch ≠ epoch ∨ m.allReady = false then
    (markStaleLocked cfg m "link binding changed during snapshot").goTo .waiting
  else if m.dirty then
    (markStaleLocked cfg { m with dirty := false } "kernel changed during snapshot").goTo .waiting
  else
    match m.trySend ⟨resyncEvent cfg snapshot, readAt, m.clock⟩ with
    | none => m
    | some m =>
      (({ m with stale := false, failed := false }.bind snapshot.ifIndex
        snapshot.actualIface).lock .replaying).goTo (.replaying (replayEvents cfg snapshot))

/-- One attempt to send the next part of the snapshot.
mirrors monitor_snapshot.go:110-131 -/
def sendReplay (m : Monitor) (event : Event) (rest : List Event) : Monitor :=
  if m.stale then (m.lock .free).goTo .waiting
  else
    match m.trySend ⟨event, 0, 0⟩ with
    | some m => m.goTo (.replaying rest)
    | none => m

end Monitor

/-! ## Steps -/

/-- One critical section of one goroutine. -/
inductive Act
  | receive
  | lockDispatch
  | rebind (ifIndex : Int) (actualIface : String)
  | invalidate
  | emit (event : Event)
  | ignore
  | lose (subscription : Fin 3) (reason : String)
  | lost (subscription : Fin 3) (reason : String)
  | subscribed (subscription : Fin 3)
  | takeRequest
  | checkReady
  | readEpoch
  | readKernel (snapshot : Snapshot)
  | readFailed (reason : String)
  | reportFailure
  | retry
  | publish
  | replay

/-- The event a handler makes of an update is a delta. -/
def deltaEvent (event : Event) : Bool := (Entry.mk event 0 0).isDelta

namespace Monitor

/-- The step; what cannot happen in a state changes nothing. -/
def act (cfg : Config) (m : Monitor) : Act → Monitor
  | .receive =>
    match m.queue with
    | [] => m
    | entry :: queue => { m with queue, received := m.received ++ [entry] }
  | .lockDispatch =>
    match m.dispatch with
    | .free => m.lock (.handling false)
    | _ => m
  | .rebind ifIndex actualIface =>
    match m.dispatch with
    | .handling false =>
      let m' := m.bind ifIndex actualIface
      m'.lock (.handling (m'.bindingEpoch ≠ m.bindingEpoch))
    | _ => m
  | .invalidate =>
    match m.dispatch with
    | .handling true => (m.markStaleLocked cfg "link binding changed").lock (.handling false)
    | _ => m
  | .emit event =>
    match m.dispatch with
    | .handling false =>
      if deltaEvent event then (m.emit cfg event).lock .free else m
    | _ => m
  | .ignore =>
    match m.dispatch with
    | .handling false => m.lock .free
    | _ => m
  | .lose i reason => m.lose i reason
  | .lost i reason => if (i, reason) ∈ m.losing then m.lost cfg i reason else m
  | .subscribed i => m.nowReady i
  | .takeRequest =>
    match m.loop with
    | .waiting => if m.token then ({ m with token := false } : Monitor).goTo .taken else m
    | _ => m
  | .checkReady =>
    match m.loop with
    | .taken => m.goTo (if m.allReady then .checked else .waiting)
    | _ => m
  | .readEpoch =>
    match m.loop with
    | .checked => m.goTo (.reading m.bindingEpoch m.clock)
    | _ => m
  | .readKernel snapshot =>
    match m.loop with
    | .reading epoch readAt => m.goTo (.holding epoch readAt snapshot)
    | _ => m
  | .readFailed reason =>
    match m.loop with
    | .reading _ _ => m.goTo (.failing reason)
    | _ => m
  | .reportFailure =>
    match m.loop with
    | .failing reason =>
      (m.markFailedLocked cfg ("kernel snapshot failed: " ++ reason)).goTo .sleeping
    | _ => m
  | .retry =>
    match m.loop with
    | .sleeping => (m.markStaleLocked cfg "kernel snapshot retry").goTo .waiting
    | _ => m
  | .publish =>
    match m.loop, m.dispatch with
    | .holding epoch readAt snapshot, .free => m.publishSnapshot cfg epoch readAt snapshot
    | _, _ => m
  | .replay =>
    match m.loop with
    | .replaying [] => (m.lock .free).goTo .waiting
    | .replaying (event :: rest) => m.sendReplay event rest
    | _ => m

def tick (m : Monitor) : Monitor := { m with clock := m.clock + 1 }

def step (cfg : Config) (m : Monitor) (a : Act) : Monitor := m.tick.act cfg a

/-- A monitor as it is started, with the link it found.
mirrors monitor.go:182-230 -/
def start (ifIndex : Int) (actualIface : String) : Monitor := { ifIndex, actualIface }

end Monitor

end Mwan.Observe

import Mwan.L2Machine.Vxlan
import Mwan.L2Machine.Worker

/-!
# Closing, reopening and the operations of the native owner

`close` deletes every pair and every VXLAN rule, drains the packets, stops the
ports and only then forgets the inverses; a final shutdown also closes the
ports and releases the owner. An operation that fails on an owner that has
faulted or is quiescing takes the VXLAN rules down with it (`boundary`).

A `run` is any sequence of operations on one opened owner, whatever each one
returns. What opening finds (ports, instance, whether the EAL came up) is the
starting world's, so a run may also start from an owner whose initialization
failed halfway. Panics, foreign threads and null records are not modelled.
-/
namespace Mwan.Native

open Mwan.Core Mwan.Core.Prog

/-! ## Ports -/

/-- mirrors controller.rs:1097-1154; the allocation of the result is
taken to succeed. -/
def OwnerState.orderedPorts (owner : OwnerState) (shutdown : Bool) : List UInt16 :=
  let dataIndexes := List.range owner.config.data.length
  let controllers := (List.range owner.config.controllers.length).filterMap fun index =>
    (owner.controllers index).id
  let data := dataIndexes.filterMap fun index => (owner.data index).id
  let representors := dataIndexes.filterMap fun index => (owner.data index).representor
  let receivers := (List.range owner.config.receivers.length).filterMap owner.receivers
  let listed := if shutdown then data ++ representors ++ receivers ++ controllers
    else controllers ++ data ++ receivers ++ representors
  owner.ports.foldl (fun result port =>
    if port.id ∈ result then result else result ++ [port.id]) listed

/-- The state of the first port with the identifier. -/
def setPortState (id : UInt16) (state : PortState) : List Port → List Port
  | [] => []
  | port :: rest =>
    if port.id = id then { port with state := state } :: rest
    else port :: setPortState id state rest

/-- Change the state of a port. -/
def setPort (id : UInt16) (state : PortState) : OwnerM Unit :=
  setOwner fun owner => { owner with ports := setPortState id state owner.ports }

/-- mirrors controller.rs:1240-1272 -/
def startPort (sdk : Sdk) (id : UInt16) : OwnerM Unit := do
  let owner ← self
  match owner.ports.find? (·.id = id) with
  | none => throw (fault ENODEV .port .port id.toUInt32 0 "Port ownership is unavailable")
  | some port =>
    if port.state = .started then pure ()
    else
      let result := sdk.devStart (← call)
      refuse (result ≠ 0) (fault result .port .port id.toUInt32 0 "Port start failed")
      setPort id .started

/-- mirrors controller.rs:1274-1319 -/
def miss (sdk : Sdk) (index : Nat) (install : Bool) : OwnerM Unit := do
  let owner ← self
  let _ ← checked (owner.controllerPort (UInt32.ofNat index))
  let controller := owner.config.controllers[index]?.getD default
  let _ ← checked (owner.receiverPort controller.physicalReceiver)
  let number ← call
  refuse (sdk.missActions number ≠ 0)
    (flowFault (sdk.missActions number) .miss .controller (UInt32.ofNat index) 0
      (sdk.flowDetail number))
  setOwner fun owner =>
    { owner with
      controllers := Function.update owner.controllers index
        { owner.controllers index with miss := install } }

/-- mirrors controller.rs:1321-1331 -/
def activate (sdk : Sdk) : OwnerM Unit := do
  let owner ← self
  (owner.orderedPorts false).forM (startPort sdk)
  (List.range owner.config.controllers.length).forM (miss sdk · true)
  setOwner fun owner => { owner with quiescing := false, active := true }

/-! ## Closing -/

/-- `enum mwan_native_close_mode` -/
inductive CloseMode
  | disable | finalShutdown
  deriving DecidableEq, Repr

/-- Nothing the SDK would have to take back.
mirrors controller.rs:2834-2847 -/
def OwnerState.ownsNothing (owner : OwnerState) : Bool :=
  !owner.ownsPool && owner.ports.isEmpty && owner.table.inverses.keys.isEmpty &&
    owner.table.retained.keys.isEmpty && owner.queues.pending.isEmpty &&
    owner.queues.received.isEmpty && owner.queues.quarantined.isNone &&
    ((List.range maximumReceivers).all fun slot => !(owner.vxlan slot).ownsResources) &&
    ((List.range owner.capacity).all fun slot => (owner.table.pairs slot).clean)

/-- Closing an owner whose EAL never came up.
mirrors controller.rs:2831-2861 -/
def OwnerState.closeUninitialized (owner : OwnerState) : Except NativeError Unit :=
  match owner.terminalFailure with
  | some error => .error error
  | none =>
    if owner.ownsNothing then .ok ()
    else .error (fault EIO .drain .none 0 0
      "SDK resources remain without successful EAL initialization")

/-- mirrors controller.rs:2886-2893 -/
def stopMiss (sdk : Sdk) (index : Nat) : OwnerM Unit := do
  let owner ← self
  if (owner.controllers index).miss then
    match ← err (miss sdk index false) with
    | none => pure ()
    | some error =>
      setFaulted
      throw error
  else pure ()

/-- mirrors controller.rs:2895-2917 -/
def stopPort (sdk : Sdk) (id : UInt16) : OwnerM Unit := do
  let owner ← self
  match owner.ports.find? (·.id = id) with
  | none => pure ()
  | some port =>
    if port.state = .started then
      let result := sdk.devStop (← call)
      if result = 0 then setPort id .stopped
      else
        setFaulted
        throw (fault result .port .port id.toUInt32 0 "Port stop failed")
    else pure ()

/-- mirrors controller.rs:2919-2923 -/
def PairTable.forgetAll (table : PairTable) (capacity : Nat) : PairTable :=
  { (List.range capacity).foldl PairTable.forgetPair table with retained := ∅, inverses := ∅ }

/-- The error that ends a final shutdown for good. -/
def failShutdown (error : NativeError) : OwnerM Unit := do
  setOwner fun owner => { owner with terminalFailure := some error, faulted := true }
  throw error

/-- mirrors controller.rs:2927-2949 -/
def closePort (sdk : Sdk) (id : UInt16) : OwnerM Unit := do
  if sdk.validPort (← call) then
    let result := sdk.devClose (← call)
    if result = 0 then setPort id .closed
    else failShutdown (fault result .port .port id.toUInt32 0
      "Port close failed; process recovery is required")
  else pure ()

/-- mirrors controller.rs:2927-2968 -/
def shutdown (sdk : Sdk) (ports : List UInt16) : OwnerM Unit := do
  ports.forM (closePort sdk)
  setOwner fun owner => { owner with ownsPool := false }
  let result := sdk.ealCleanup (← call)
  setOwner fun owner => { owner with ealReady := false }
  if result = 0 then pure ()
  else failShutdown (fault result .eal .none 0 0
    "Final EAL cleanup failed; process recovery is required")

/-- Every rule and every pair is deleted, as far as that succeeds.
mirrors controller.rs:2863-2882 -/
def deleteAll (sdk : Sdk) : OwnerM Unit := do
  setOwner fun owner => { owner with quiescing := true }
  let owner ← self
  let failure := owner.terminalFailure
  let failure := failure.or (← err (closeVxlanContexts sdk))
  let failure ← (List.range owner.capacity).foldlM (fun failure slot => do
    return failure.or (← err (deletePair sdk slot))) failure
  match failure with
  | some error => throw error
  | none => pure ()

/-- Buffered packets are transmitted while their pool is still there.
mirrors controller.rs:2878-2880 -/
def drainPool (sdk : Sdk) : OwnerM Unit := do
  if (← self).ownsPool then drain sdk else pure ()

/-- mirrors controller.rs:2829-2968 -/
def close (sdk : Sdk) (mode : CloseMode) : OwnerM Unit := do
  let owner ← self
  if owner.ealReady then
    deleteAll sdk
    drainPool sdk
    (List.range owner.config.controllers.length).forM (stopMiss sdk)
    let ports := (← self).orderedPorts true
    ports.forM (stopPort sdk)
    setOwner fun owner =>
      { owner with active := false, table := owner.table.forgetAll owner.capacity }
    match mode with
    | .disable => pure ()
    | .finalShutdown => shutdown sdk ports
  else checked owner.closeUninitialized

/-! ## The boundary -/

/-- The error for an operation on a released owner.
mirrors controller.rs:2972-2981,3010-3019 -/
def unavailable : NativeError := fault ENODEV .eal .none 0 0 "EAL owner is unavailable"

/-- mirrors controller.rs:2971-3001 -/
def ownerState : OwnerM Unit := do
  let w ← read
  refuse (w.present = false) unavailable

/-- mirrors controller.rs:3003-3021 -/
def stateFor : OwnerM Unit := do
  ownerState
  let owner ← self
  match owner.terminalFailure with
  | some error => throw error
  | none => refuse (owner.ealReady = false) unavailable

/-- mirrors controller.rs:3067-3120 -/
def boundary (sdk : Sdk) (action : OwnerM Unit) : OwnerM Unit := do
  match ← err action with
  | none => pure ()
  | some failure =>
    let w ← read
    if w.present && (w.owner.faulted || w.owner.quiescing) then
      let cleanup ← err (suspendVxlanRules sdk)
      throw (cleanup.getD failure)
    else throw failure

/-! ## Operations -/

/-- The error of the deletion, if the handle's pair is still in its slot.
mirrors controller.rs:3457-3461 -/
def deleteCurrent (sdk : Sdk) (handle : Handle) : OwnerM (Option NativeError) := do
  let owner ← self
  if (owner.table.pairs handle.slot.toNat).generation = handle.generation then
    err (deletePair sdk handle.slot.toNat)
  else pure none

/-- mirrors controller.rs:3436-3467 -/
def removePair (sdk : Sdk) (handle : Handle) : OwnerM Unit := do
  let _ ← checked ((← self).handlePair handle)
  let outcome ← deleteCurrent sdk handle
  let pair ← checked ((← self).handlePair handle)
  setOut (·.resultFor pair handle.slot.toNat)
  match outcome with
  | some error => throw error
  | none => pure ()

/-- mirrors controller.rs:3508-3526 -/
def pollOwner (sdk : Sdk) (budget : UInt32) : OwnerM Unit := do
  refuse (budget = 0)
    (fault EINVAL .packet .origin 0 0 "Packet budget and statistics are required")
  if (← self).active then poll sdk budget else pure ()

/-- mirrors controller.rs:3547-3560 -/
def closeOwner (sdk : Sdk) (mode : CloseMode) : OwnerM Unit := do
  close sdk mode
  match mode with
  | .disable => pure ()
  | .finalShutdown => update fun w => { w with present := false }

/-- Reopening an owner with a configuration that passes `validate_config`.
mirrors controller.rs:3197-3213 -/
def reopen (sdk : Sdk) (config : Config) : OwnerM Unit := do
  stateFor
  let owner ← self
  refuse (owner.faulted ∨ owner.config ≠ config)
    (fault EBUSY .config .none 0 0 "Reopen requires the identical healthy EAL configuration")
  if owner.active then pure () else activate sdk

/-- mirrors controller/vxlan.rs:646-662 -/
def vxlanInstall (sdk : Sdk) (context : Handle) (plan : VxlanPlan) : OwnerM Unit := do
  let _ ← checked ((← self).vxlanSlot context)
  let _ ← installVxlan sdk context plan

/-- mirrors controller/vxlan.rs:713-721 -/
def vxlanRemove (sdk : Sdk) (rule : VxlanResult) : OwnerM Unit := do
  let slot ← checked ((← self).vxlanRuleSlot rule)
  removeVxlan sdk slot

/-- mirrors controller/vxlan.rs:743-757 -/
def vxlanContextClose (sdk : Sdk) (context : Handle) : OwnerM Unit := do
  let slot ← checked ((← self).vxlanSlot context)
  removeVxlan sdk slot
  update fun w => w.setContext slot (w.owner.vxlan slot).closed

/-- The operations of the ABI. The queries read the owner and the SDK and
change nothing, so that only their failure matters. -/
inductive Op
  | pairInstall (spec : PairSpec)
  | pairInstallObserved (spec : PairSpec) (guards : Fin 2 → PacketGuard)
  | pairResumeObserved (handle : Handle) (spec : PairSpec) (guards : Fin 2 → PacketGuard)
  | pairReobserve (handle : Handle) (spec : PairSpec) (guards : Fin 2 → PacketGuard)
  | pairRemove (handle : Handle)
  | poll (budget : UInt32)
  | close (mode : CloseMode)
  | reopen (config : Config)
  | vxlanContextOpen (endpoint : VxlanEndpoint)
  | vxlanInstall (context : Handle) (plan : VxlanPlan)
  | vxlanRemove (rule : VxlanResult)
  | vxlanContextClose (context : Handle)
  | query (failure : Option NativeError)

/-- One operation.
mirrors controller.rs:3172-3562, native/src/controller/vxlan.rs:609-758 -/
def execute (sdk : Sdk) : Op → OwnerM Unit
  | .pairInstall spec => boundary sdk do stateFor; installPair sdk spec none
  | .pairInstallObserved spec guards => boundary sdk do stateFor; installPair sdk spec (some guards)
  | .pairResumeObserved handle spec guards =>
    boundary sdk do stateFor; resumePair sdk handle spec guards
  | .pairReobserve handle spec guards =>
    boundary sdk do stateFor; reobservePair sdk handle spec guards
  | .pairRemove handle => boundary sdk do stateFor; removePair sdk handle
  | .poll budget => boundary sdk do stateFor; pollOwner sdk budget
  | .close mode => do
    -- closing a released owner succeeds
    if (← read).present then boundary sdk do ownerState; closeOwner sdk mode else pure ()
  | .reopen config => reopen sdk config
  | .vxlanContextOpen endpoint =>
    boundary sdk do stateFor; let _ ← openVxlanContext sdk endpoint
  | .vxlanInstall context plan => boundary sdk do stateFor; vxlanInstall sdk context plan
  | .vxlanRemove rule => boundary sdk do stateFor; vxlanRemove sdk rule
  | .vxlanContextClose context => boundary sdk do ownerState; vxlanContextClose sdk context
  | .query failure => boundary sdk do
      stateFor
      match failure with
      | some error => throw error
      | none => pure ()

/-- The operations one after the other, whatever each returns. -/
def run (sdk : Sdk) (ops : List Op) : OwnerM Unit :=
  ops.forM fun op => do let _ ← err (execute sdk op)

/-- An owner as `open` leaves it, whether or not its initialization went
through: a configuration within the header's limits (`validate_config`), no
pair, no packet and no VXLAN context yet. -/
structure Opened (w : World) : Prop where
  receivers : w.owner.config.receivers.length ≤ maximumReceivers
  table : w.owner.table = {}
  vxlan : w.owner.vxlan = fun _ => {}
  queues : w.owner.queues = {}
  quiescing : w.owner.quiescing = false
  events : w.events = []
  present : w.present = true

end Mwan.Native

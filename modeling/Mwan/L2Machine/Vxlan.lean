import Mwan.L2Machine.Pairs

/-!
# VXLAN contexts of the native owner (`native/src/controller/vxlan.rs`)

Each receiver has one context with at most one rule. A failed deletion leaves
`cleanupFailed` set for good: the context is never opened again and the owner
can no longer be closed. The checks against sysfs (`verify_vxlan_endpoint`),
the validity of a plan and the items of its rule come from the SDK record.
-/
namespace Mwan.Native

open Mwan.Core Mwan.Core.Prog

/-- mirrors vxlan.rs:22-31 -/
def vxlanFault (code : Int) (operation : Operation) (receiver : UInt32) (message : String) :
    NativeError :=
  fault code operation .receiver receiver 0 message

/-- mirrors mwan_native.h:325-330 -/
structure VxlanResult where
  context : Handle := {}
  ruleGeneration : UInt64 := 0
  state : UInt32 := 0
  reserved : UInt32 := 0
  deriving DecidableEq, Repr

/-- mirrors vxlan.rs:34-56 -/
def OwnerState.vxlanResult (owner : OwnerState) (slot : Nat) : VxlanResult :=
  let context := owner.vxlan slot
  { context := { instance_ := owner.instance_, generation := context.generation,
                 slot := UInt32.ofNat slot }
    ruleGeneration := context.ruleGeneration
    state := if context.cleanupFailed then 3 else if context.flow.isSome then 2
      else if context.endpoint.isSome then 1 else 0 }

/-- mirrors vxlan.rs:58-75 -/
def OwnerState.vxlanSlot (owner : OwnerState) (handle : Handle) : Except NativeError Nat :=
  let slot := handle.slot.toNat
  if handle.reserved ≠ 0 ∨ handle.instance_ ≠ owner.instance_ ∨ handle.generation = 0 ∨
      owner.config.receivers.length ≤ slot ∨ (owner.vxlan slot).generation ≠ handle.generation ∨
      (owner.vxlan slot).endpoint.isNone then
    .error (vxlanFault ESTALE .config handle.slot "Stale VXLAN context handle")
  else .ok slot

/-- mirrors vxlan.rs:77-92 -/
def OwnerState.vxlanRuleSlot (owner : OwnerState) (rule : VxlanResult) :
    Except NativeError Nat := do
  let slot ← owner.vxlanSlot rule.context
  if rule.reserved ≠ 0 ∨ rule.ruleGeneration = 0 ∨
      (owner.vxlan slot).ruleGeneration ≠ rule.ruleGeneration ∨
      (owner.vxlan slot).plan.isNone then
    throw (vxlanFault ESTALE .config (UInt32.ofNat slot) "Stale VXLAN rule generation")
  else return slot

/-- Change one context. -/
def World.setContext (w : World) (slot : Nat) (context : Context) : World :=
  { w with owner := { w.owner with vxlan := Function.update w.owner.vxlan slot context } }

/-- The owner admits contexts and rules.
mirrors vxlan.rs:99 -/
def OwnerState.healthy (owner : OwnerState) : Bool :=
  owner.active && !owner.faulted && !owner.quiescing

/-- `size_of::<MwanNativeVxlanEndpoint>()` -/
def vxlanEndpointSize : UInt32 := 28

/-- mirrors vxlan.rs:94-147 -/
def openVxlanContext (sdk : Sdk) (endpoint : VxlanEndpoint) : OwnerM VxlanResult := do
  let owner ← self
  let slot := endpoint.receiverId.toNat
  refuse (owner.healthy = false)
    (vxlanFault EBUSY .config endpoint.receiverId "VXLAN requires an active healthy owner")
  refuse (endpoint.version ≠ vxlanVersion ∨ endpoint.recordSize ≠ vxlanEndpointSize ∨
      endpoint.reserved ≠ 0 ∨ ¬ endpoint.pciValid ∨ endpoint.linuxIfindex = 0 ∨
      owner.config.receivers.length ≤ slot)
    (vxlanFault EINVAL .config endpoint.receiverId "Invalid declared kernel VF TX endpoint")
  refuse ((owner.config.receiver endpoint.receiverId).vf ≠ endpoint.sourceVf)
    (vxlanFault EXDEV .config endpoint.receiverId "Kernel VF differs from the declared receiver")
  refuse ((owner.vxlan slot).ownsResources ∨ (owner.vxlan slot).generation = 18446744073709551615)
    (vxlanFault EBUSY .config endpoint.receiverId
      "Kernel VF already owns a VXLAN context or exhausted its generations")
  let interface ← checked (sdk.endpoint (← call))
  update fun w => w.setContext slot
    { generation := (w.owner.vxlan slot).generation + 1, endpoint := some endpoint,
      interface := some interface }
  return (← self).vxlanResult slot

/-- mirrors controller.rs:1058-1069 -/
def OwnerState.receiverPort (owner : OwnerState) (index : UInt32) : Except NativeError UInt16 :=
  match owner.receivers index.toNat with
  | some id => .ok id
  | none => .error (fault ENODEV .port .receiver index 0 "Kernel receiver port is unavailable")

/-- The controller and the receiver a context's rule names.
mirrors vxlan.rs:436-440 -/
def vxlanPorts (owner : OwnerState) (slot : Nat) : Except NativeError (UInt16 × UInt16) := do
  let controller ← owner.controllerPort (owner.config.receiver (UInt32.ofNat slot)).controller
  let receiver ← owner.receiverPort (UInt32.ofNat slot)
  return (controller, receiver)

/-- The SDK returns a flow and the context takes it.
mirrors vxlan.rs:297 -/
def World.vxlanCreated (w : World) (slot : Nat) : World :=
  { w.setContext slot { w.owner.vxlan slot with flow := some w.calls } with
    calls := w.calls + 1
    events := .created w.calls (.vxlan slot) :: w.events }

/-- `build_vxlan_flow` with `validate`.
mirrors vxlan.rs:429-575 -/
def validateVxlanFlow (sdk : Sdk) (slot : Nat) : OwnerM Unit := do
  let _ ← checked (vxlanPorts (← self) slot)
  let number ← call
  refuse (sdk.flowValidate number ≠ 0)
    (flowFault (sdk.flowValidate number) .validate .receiver (UInt32.ofNat slot) 0
      (sdk.flowDetail number))

/-- `build_vxlan_flow` without `validate`.
mirrors vxlan.rs:429-602 -/
def createVxlanFlow (sdk : Sdk) (slot : Nat) : OwnerM Unit := do
  let w ← read
  let _ ← checked (vxlanPorts w.owner slot)
  match sdk.flowCreate w.calls with
  | none => update (World.vxlanCreated · slot)
  | some code =>
    let number ← call
    throw (flowFault code .create .receiver (UInt32.ofNat slot) 0 (sdk.flowDetail number))

/-- mirrors vxlan.rs:218-299 -/
def installVxlan (sdk : Sdk) (handle : Handle) (plan : VxlanPlan) : OwnerM VxlanResult := do
  let owner ← self
  let slot ← checked (owner.vxlanSlot handle)
  let context := owner.vxlan slot
  let id := UInt32.ofNat slot
  refuse (owner.healthy = false ∨ context.flow.isSome ∨ context.cleanupFailed ∨
      context.ruleGeneration = 18446744073709551615)
    (vxlanFault EBUSY .create id "VXLAN context cannot admit a rule")
  checked (match sdk.planRefused plan with
    | some message => .error (vxlanFault EINVAL .validate id message)
    | none => .ok ())
  let receiver := owner.config.receiver id
  refuse (plan.innerSourceMac ≠ receiver.mac ∨ plan.outerSourceMac ≠ receiver.mac ∨
      owner.config.mtu < plan.underlayMtu)
    (vxlanFault EINVAL .validate id
      "VXLAN source MACs and underlay MTU must match the declared kernel VF graph")
  let _ ← orFail (vxlanFault ENODEV .config id "VXLAN endpoint is unavailable") context.endpoint
  let interface ← checked (sdk.endpoint (← call))
  refuse (context.interface ≠ some interface)
    (vxlanFault EXDEV .validate id "Kernel VF interface identity changed")
  let mtu ← checked (sdk.interfaceMtu (← call))
  refuse (plan.innerMtu < mtu)
    (vxlanFault EMSGSIZE .validate id "Kernel VF MTU exceeds the VXLAN inner MTU budget")
  validateVxlanFlow sdk slot
  update fun w => w.setContext slot
    { w.owner.vxlan slot with
      ruleGeneration := (w.owner.vxlan slot).ruleGeneration + 1, plan := some plan }
  createVxlanFlow sdk slot
  return (← self).vxlanResult slot

/-- The SDK consumes the flow of a context.
mirrors vxlan.rs:318-322 -/
def World.vxlanDestroyed (w : World) (slot : Nat) (flow : Flow) (ok : Bool) : World :=
  let context := w.owner.vxlan slot
  { w.setContext slot
      { context with flow := none, cleanupFailed := context.cleanupFailed || !ok } with
    calls := w.calls + 1
    events := .destroyed flow ok :: w.events }

/-- mirrors vxlan.rs:301-334 -/
def removeVxlan (sdk : Sdk) (slot : Nat) : OwnerM Unit := do
  let w ← read
  refuse ((w.owner.vxlan slot).cleanupFailed = true)
    (vxlanFault EIO .destroy (UInt32.ofNat slot)
      "VXLAN deletion consumed an uncertain handle; context and plan require process recovery")
  match (w.owner.vxlan slot).flow with
  | none => pure ()
  | some flow =>
    let _ ← checked (w.owner.controllerPort (w.owner.config.receiver (UInt32.ofNat slot)).controller)
    let result := sdk.flowDestroy w.calls
    update (World.vxlanDestroyed · slot flow (result = 0))
    if result = 0 then pure ()
    else
      setOwner fun owner => { owner with faulted := true, quiescing := true }
      throw (flowFault result .destroy .receiver (UInt32.ofNat slot) 0 (sdk.flowDetail w.calls))

/-- mirrors vxlan.rs:346-359 -/
def suspendVxlanRules (sdk : Sdk) : OwnerM Unit := do
  let failure ← (List.range maximumReceivers).foldlM (fun failure slot => do
    return failure.or (← err (removeVxlan sdk slot))) none
  match failure with
  | some error => throw error
  | none => pure ()

/-- A context without its endpoint and plan.
mirrors vxlan.rs:339-341 -/
def Context.closed (context : Context) : Context :=
  { context with endpoint := none, interface := none, plan := none }

/-- mirrors vxlan.rs:336-344 -/
def closeVxlanContexts (sdk : Sdk) : OwnerM Unit := do
  suspendVxlanRules sdk
  setOwner fun owner => { owner with vxlan := fun slot => (owner.vxlan slot).closed }

end Mwan.Native

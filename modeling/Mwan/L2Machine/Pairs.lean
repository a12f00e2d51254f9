import Mwan.L2Machine.Queue

/-!
# Pairs of the native owner (`install_pair` to `activate_pair`)

A pair takes a slot of the table under a new generation, puts the inverse of
each requested direction into the inverse map and then creates one hardware
rule for each. Deleting it destroys the rules and leaves the inverses: packets
the hardware has already rewritten are still on their way. If the slot is then
reused the old pair moves to `retained`, under its handle.
-/
namespace Mwan.Native

open Mwan.Core Mwan.Core.Prog

/-! ## Errors and ports -/

/-- mirrors controller.rs:294-303 -/
def staleHandle (handle : Handle) : NativeError :=
  fault ESTALE .config .pair handle.slot 0 "Stale pair handle"

/-- mirrors controller.rs:321-345 -/
def flowFault (code : Int) (operation : Operation) (kind : ObjectKind) (object direction : UInt32)
    (detail : FlowDetail) : NativeError :=
  { fault code operation kind object direction (detail.message.getD "DPDK flow operation failed") with
    flowErrorType := detail.kind }

/-- mirrors controller.rs:1084-1095 -/
def OwnerState.controllerPort (owner : OwnerState) (index : UInt32) : Except NativeError UInt16 :=
  match (owner.controllers index.toNat).id with
  | some id => .ok id
  | none => .error (fault ENODEV .port .controller index 0 "Controller port is unavailable")

/-- The index of a direction as an error reports it. -/
def directionId (index : Fin 2) : UInt32 := UInt32.ofNat index

/-! ## Flows -/

/-- The controller and the representor a direction's rule names. The items and
actions of the rule are not modelled.
mirrors controller.rs:1490-1501 -/
def flowPorts (owner : OwnerState) (direction : Direction) (index : Fin 2) :
    Except NativeError (UInt16 × UInt16) := do
  let origin := owner.config.origin direction.originId
  let controller ← owner.controllerPort origin.controller
  match (owner.data origin.data.toNat).representor with
  | some representor => .ok (controller, representor)
  | none => .error (fault ENODEV .validate .origin direction.originId (directionId index)
      "DATA representor is unavailable")

/-- `build_flow` with `validate`.
mirrors controller.rs:1484-1668 -/
def validateFlow (sdk : Sdk) (direction : Direction) (index : Fin 2) : OwnerM Unit := do
  let owner ← self
  let _ ← checked (flowPorts owner direction index)
  let number ← call
  refuse (sdk.flowValidate number ≠ 0)
    (flowFault (sdk.flowValidate number) .validate .origin direction.originId (directionId index)
      (sdk.flowDetail number))

/-- The SDK returns a flow and the leg takes it.
mirrors controller.rs:1669-1679,2228 -/
def World.created (w : World) (slot : Nat) (index : Fin 2) : World :=
  let pair := w.owner.table.pairs slot
  { w with
    owner := { w.owner with
      table := w.owner.table.setPair slot
        (pair.setLeg index { pair.legs index with flow := some w.calls }) }
    calls := w.calls + 1
    events := .created w.calls (.leg slot pair.generation index) :: w.events }

/-- `build_flow` without `validate`, for a leg.
mirrors controller.rs:1484-1689 -/
def createFlow (sdk : Sdk) (slot : Nat) (direction : Direction) (index : Fin 2) : OwnerM Unit := do
  let w ← read
  let _ ← checked (flowPorts w.owner direction index)
  match sdk.flowCreate w.calls with
  | none => update (World.created · slot index)
  | some code =>
    let number ← call
    throw (flowFault code .create .origin direction.originId (directionId index)
      (sdk.flowDetail number))

/-! ## Handles and results -/

/-- A mask with the bits of the directions that satisfy `p`. -/
def legMask (p : Fin 2 → Bool) : UInt32 :=
  directionIndexes.foldl (fun mask index => if p index then mask ||| directionMask index else mask) 0

/-- mirrors controller.rs:1695-1719 -/
def OwnerState.resultFor (owner : OwnerState) (pair : Pair) (slot : Nat) : PairResult where
  handle := { instance_ := owner.instance_, generation := pair.generation,
              slot := UInt32.ofNat slot }
  state := pair.state.value
  requestedDirectionMask := pair.spec.requestedDirectionMask
  installedMask := legMask fun index => (pair.legs index).flow.isSome
  restorationMask := legMask fun index => (pair.legs index).inverse
  cleanupFailedMask := legMask fun index => (pair.legs index).deleteFailed

/-- mirrors controller.rs:1691-1693 -/
def OwnerState.pairResult (owner : OwnerState) (slot : Nat) : PairResult :=
  owner.resultFor (owner.table.pairs slot) slot

/-- mirrors controller.rs:1721-1736 -/
def OwnerState.handlePair (owner : OwnerState) (handle : Handle) : Except NativeError Pair :=
  if handle.reserved ≠ 0 ∨ handle.instance_ ≠ owner.instance_ ∨
      owner.capacity ≤ handle.slot.toNat ∨ handle.generation = 0 then
    .error (staleHandle handle)
  else if (owner.table.pairs handle.slot.toNat).generation = handle.generation then
    .ok (owner.table.pairs handle.slot.toNat)
  else match owner.table.retained.lookup handle with
    | some pair => .ok pair
    | none => .error (staleHandle handle)

/-- Write the caller's result record. -/
def setOut (f : OwnerState → PairResult) : OwnerM Unit :=
  update fun w => { w with out := f w.owner }

/-! ## Retaining and forgetting -/

/-- mirrors controller.rs:1738-1776 -/
def retainPair (owner : OwnerState) (slot : Nat) : Except NativeError PairTable :=
  let pair := owner.table.pairs slot
  if pair.state ≠ .draining ∨ ¬ pair.clean then
    .error (fault EBUSY .create .pair (UInt32.ofNat slot) 0
      "Pair hardware cleanup has not completed")
  else if owner.capacity ≤ owner.table.retained.keys.length then
    .error (fault ENOSPC .create .pair (UInt32.ofNat slot) 0
      "Retained inverse capacity exhausted; DATA ports must retire before reclamation")
  else
    let handle := (owner.pairResult slot).handle
    .ok { owner.table.setPair slot { generation := pair.generation } with
      retained := owner.table.retained.insert handle pair }

/-- mirrors controller.rs:1796-1809 -/
def PairTable.forgetPair (table : PairTable) (slot : Nat) : PairTable :=
  let pair := table.pairs slot
  { table.setPair slot { pair with
      state := .absent
      legs := fun index => { pair.legs index with inverse := false } } with
    inverses := directionIndexes.foldl (fun inverses index =>
      if (pair.legs index).inverse then inverses.erase (pair.spec.directions index).inverseKey
      else inverses) table.inverses }

/-! ## Deleting -/

/-- The SDK consumes the flow of a leg.
mirrors controller.rs:1849-1852 -/
def World.destroyed (w : World) (slot : Nat) (index : Fin 2) (flow : Flow) (ok : Bool) : World :=
  let pair := w.owner.table.pairs slot
  let leg := pair.legs index
  { w with
    owner := { w.owner with
      table := w.owner.table.setPair slot
        (pair.setLeg index { leg with flow := none, deleteFailed := leg.deleteFailed || !ok }) }
    calls := w.calls + 1
    events := .destroyed flow ok :: w.events }

/-- mirrors controller.rs:1818-1864 -/
def destroyLeg (sdk : Sdk) (slot : Nat) (failure : Option NativeError) (index : Fin 2) :
    OwnerM (Option NativeError) := do
  let w ← read
  let pair := w.owner.table.pairs slot
  let spec := pair.spec.directions index
  if (pair.legs index).deleteFailed then
    return failure.or (some (fault EIO .destroy .origin spec.originId (directionId index)
      "Consumed flow handle cannot be retried"))
  else match (pair.legs index).flow with
    | none => return failure
    | some flow =>
      match w.owner.controllerPort (w.owner.config.origin spec.originId).controller with
      | .error error => return failure.or (some error)
      | .ok _ =>
        let result := sdk.flowDestroy w.calls
        update (World.destroyed · slot index flow (result = 0))
        if result = 0 then return failure
        else return failure.or (some (flowFault result .destroy .origin spec.originId
          (directionId index) (sdk.flowDetail w.calls)))

/-- `pairs[slot].state = state` -/
def World.setState (w : World) (slot : Nat) (state : PairState) : World :=
  { w with
    owner := { w.owner with
      table := w.owner.table.setPair slot { w.owner.table.pairs slot with state := state } } }

/-- mirrors controller.rs:1866-1868 -/
def World.faultPair (w : World) (slot : Nat) : World :=
  { w.setState slot .faulted with owner := { (w.setState slot .faulted).owner with faulted := true } }

/-- mirrors controller.rs:1811-1872 -/
def deletePair (sdk : Sdk) (slot : Nat) : OwnerM Unit := do
  let owner ← self
  if (owner.table.pairs slot).state = .absent then pure ()
  else
    update (World.setState · slot .draining)
    let failure ← err restorePending
    let failure ← directionIndexes.foldlM (destroyLeg sdk slot) failure
    match failure with
    | none => pure ()
    | some error =>
      update (World.faultPair · slot)
      throw error

/-! ## Activating -/

/-- mirrors controller.rs:2224-2234 -/
def activateLeg (sdk : Sdk) (slot : Nat) (spec : PairSpec) (index : Fin 2) : OwnerM Unit := do
  if spec.requests index then
    match ← err (createFlow sdk slot (spec.directions index) index) with
    | none => pure ()
    | some original =>
      let cleanup ← err (deletePair sdk slot)
      setOut (·.pairResult slot)
      throw (cleanup.getD original)
  else pure ()

/-- mirrors controller.rs:2217-2239 -/
def activatePair (sdk : Sdk) (slot : Nat) : OwnerM Unit := do
  let owner ← self
  directionIndexes.forM (activateLeg sdk slot (owner.table.pairs slot).spec)
  update (World.setState · slot .installed)
  setOut (·.pairResult slot)

/-! ## Installing -/

/-- mirrors controller.rs:1902-1906 -/
def guardInvalid (direction : Direction) (guard : PacketGuard) : Bool :=
  guard.reserved ≠ Vector.replicate 3 0 || guard.flowLabel > 0x000fffff ||
    (direction.original.family = familyIpv4 && guard.flowLabel ≠ 0)

/-- mirrors controller.rs:1897-1919 -/
def checkDirection (config : Config) (spec : PairSpec) (guards : Option (Fin 2 → PacketGuard))
    (index : Fin 2) : Except NativeError Unit := do
  let direction := spec.directions index
  if spec.requests index then
    directionValid config direction index
    match guards with
    | none => pure ()
    | some guards =>
      if guardInvalid direction (guards index) then
        throw (fault EINVAL .validate .origin direction.originId (directionId index)
          "Invalid observed packet selector guard")
      else pure ()
  else pure ()

/-- No requested direction of the one collides with one of the other.
mirrors controller.rs:1936-1953 -/
def checkCollisions (config : Config) (spec other : PairSpec) (message : String) :
    Except NativeError Unit :=
  directionIndexes.forM fun first => directionIndexes.forM fun second =>
    if spec.requests first && other.requests second &&
        collision config (spec.directions first) (other.directions second) then
      throw (fault EEXIST .validate .origin (spec.directions first).originId (directionId first)
        message)
    else pure ()

/-- The slots found so far: a free one and one that drains.
mirrors controller.rs:1923-1954 -/
def scanPair (owner : OwnerState) (spec : PairSpec) (found : Option Nat × Option Nat)
    (slot : Nat) : Except NativeError (Option Nat × Option Nat) := do
  let pair := owner.table.pairs slot
  let usable : Bool := pair.generation ≠ 18446744073709551615
  if pair.state = .absent then
    return (if found.1.isNone && usable then some slot else found.1, found.2)
  else
    checkCollisions owner.config spec pair.spec
      "Direction conflicts with an existing packet or restoration key"
    return (found.1, if found.2.isNone && pair.state = .draining && usable then some slot
      else found.2)

local instance twoDirections : NeZero 2 := ⟨by decide⟩

/-- mirrors controller.rs:1921-1997 -/
def findSlot (owner : OwnerState) (spec : PairSpec) : Except NativeError Nat := do
  let found ← (List.range owner.capacity).foldlM (scanPair owner spec) (none, none)
  owner.table.retained.entries.forM fun retained =>
    checkCollisions owner.config spec retained.2.spec
      "Direction conflicts with a retained restoration mapping"
  match found.1.or found.2 with
  | none => throw (fault ENOSPC .create .pair noId 0 "Pair capacity exhausted")
  | some slot =>
    if spec.requestedDirectionMask = 3 ∧
        collision owner.config (spec.directions 0) (spec.directions 1) then
      throw (fault EEXIST .validate .origin (spec.directions 0).originId 0
        "Pair directions overlap")
    else return slot

/-- The slot's pair retained if it drains, and a new one in its place.
mirrors controller.rs:2003-2013 -/
def placePair (owner : OwnerState) (slot : Nat) (spec : PairSpec)
    (guards : Option (Fin 2 → PacketGuard)) : Except NativeError PairTable :=
  (if (owner.table.pairs slot).state = .draining then retainPair owner slot
    else .ok owner.table).map fun table => table.setPair slot
      { generation := (table.pairs slot).generation + 1, state := .draining, spec := spec,
        guards := guards }

/-- A leg's inverse enters the map.
mirrors controller.rs:2031-2039 -/
def World.indexed (w : World) (slot : Nat) (index : Fin 2) : World :=
  let pair := w.owner.table.pairs slot
  { w with
    owner := { w.owner with
      table := { w.owner.table.setPair slot
          (pair.setLeg index { pair.legs index with inverse := true }) with
        inverses := w.owner.table.inverses.insert (pair.spec.directions index).inverseKey
          ⟨slot, pair.generation, index⟩ } } }

/-- mirrors controller.rs:2011-2040 -/
def indexLeg (sdk : Sdk) (slot : Nat) (spec : PairSpec) (index : Fin 2) : OwnerM Unit := do
  let owner ← self
  if spec.requests index then
    if (spec.directions index).inverseKey ∈ owner.table.inverses then
      update fun w => { w with events := .keyPresent :: w.events }
      let cleanup ← err (deletePair sdk slot)
      setOut (·.pairResult slot)
      throw (cleanup.getD (fault EEXIST .create .origin (spec.directions index).originId
        (directionId index) "Packet lookup allocation failed"))
    else update (World.indexed · slot index)
  else pure ()

/-- mirrors controller.rs:1874-2043 -/
def installPair (sdk : Sdk) (spec : PairSpec) (guards : Option (Fin 2 → PacketGuard)) :
    OwnerM Unit := do
  let owner ← self
  refuse (¬ owner.active ∨ owner.faulted ∨ owner.quiescing ∨ spec.requestedDirectionMask = 0 ∨
      3 < spec.requestedDirectionMask ∨ spec.reserved ≠ 0)
    (fault EINVAL .create .pair 0 0 "Worker cannot admit a pair")
  setOut fun _ => {}
  checked (directionIndexes.forM (checkDirection owner.config spec guards))
  let slot ← checked (findSlot owner spec)
  directionIndexes.forM fun index =>
    if spec.requests index then validateFlow sdk (spec.directions index) index else pure ()
  let table ← checked (placePair owner slot spec guards)
  setOwner fun owner => { owner with table := table }
  directionIndexes.forM (indexLeg sdk slot spec)
  activatePair sdk slot

/-! ## Resuming and reobserving -/

/-- The pair of a handle, if it is in its slot, drained and clean, and the
owner admits it again.
mirrors controller.rs:2052-2077,2131-2156 -/
def reusablePair (handle : Handle) (message : String) : OwnerM Pair := do
  setOut fun _ => {}
  let owner ← self
  let pair ← checked (owner.handlePair handle)
  setOut fun owner => owner.resultFor pair handle.slot.toNat
  refuse ((owner.table.pairs handle.slot.toNat).generation ≠ handle.generation)
    (staleHandle handle)
  refuse (¬ owner.active ∨ owner.faulted ∨ owner.quiescing ∨ pair.state ≠ .draining ∨ ¬ pair.clean)
    (fault EBUSY .create .pair handle.slot 0 message)
  return pair

/-- The specification differs from the pair's in more than a later policy.
mirrors controller.rs:2078-2081 -/
def PairSpec.differs (spec current : PairSpec) : Bool :=
  decide (spec.policyGeneration < current.policyGeneration) ||
    spec ≠ { current with policyGeneration := spec.policyGeneration }

/-- mirrors controller.rs:2101-2106 -/
def inverseOwned (owner : OwnerState) (pair : Pair) (handle : Handle) (index : Fin 2)
    (direction : Direction) : Bool :=
  (pair.legs index).inverse &&
    owner.table.inverses.lookup direction.inverseKey =
      some ⟨handle.slot.toNat, handle.generation, index⟩

/-- A requested leg still has its inverse, and the SDK accepts its rule.
mirrors controller.rs:2095-2118 -/
def revalidateLeg (sdk : Sdk) (owner : OwnerState) (pair : Pair) (handle : Handle)
    (spec : PairSpec) (message : String) (index : Fin 2) : OwnerM Unit := do
  refuse (¬ inverseOwned owner pair handle index (spec.directions index))
    (fault ESTALE .validate .pair handle.slot (directionId index) message)
  validateFlow sdk (spec.directions index) index

/-- Change the pair in a slot. -/
def setPair (slot : Nat) (f : Pair → Pair) : OwnerM Unit :=
  setOwner fun owner => { owner with table := owner.table.setPair slot (f (owner.table.pairs slot)) }

/-- mirrors controller.rs:2045-2122 -/
def resumePair (sdk : Sdk) (handle : Handle) (spec : PairSpec) (guards : Fin 2 → PacketGuard) :
    OwnerM Unit := do
  let pair ← reusablePair handle
    "Pair resumption requires complete hardware cleanup and an active owner"
  refuse (spec.differs pair.spec ∨ pair.guards ≠ some guards)
    (fault EINVAL .validate .pair handle.slot 0
      "Pair resumption requires identical connection, direction and selector records")
  let owner ← self
  directionIndexes.forM fun index =>
    if spec.requests index then
      revalidateLeg sdk owner pair handle spec "Pair inverse ownership changed before resumption"
        index
    else pure ()
  activatePair sdk handle.slot.toNat
  setPair handle.slot.toNat fun pair =>
    { pair with spec := { pair.spec with policyGeneration := spec.policyGeneration } }

/-- mirrors controller.rs:2124-2215 -/
def reobservePair (sdk : Sdk) (handle : Handle) (spec : PairSpec) (guards : Fin 2 → PacketGuard) :
    OwnerM Unit := do
  let pair ← reusablePair handle
    "Pair selector replacement requires complete hardware cleanup and an active owner"
  refuse (spec.differs pair.spec = true)
    (fault EINVAL .validate .pair handle.slot 0
      "Pair selector replacement requires identical connection and direction records")
  let owner ← self
  directionIndexes.forM fun index =>
    if spec.requests index then do
      refuse (guardInvalid (spec.directions index) (guards index) = true)
        (fault EINVAL .validate .origin (spec.directions index).originId (directionId index)
          "Invalid replacement packet selector guard")
      revalidateLeg sdk owner pair handle spec
        "Pair inverse ownership changed before selector replacement" index
    else pure ()
  restorePending
  activatePair sdk handle.slot.toNat
  setPair handle.slot.toNat fun pair => { pair with guards := some guards }
  setPair handle.slot.toNat fun pair =>
    { pair with spec := { pair.spec with policyGeneration := spec.policyGeneration } }

end Mwan.Native

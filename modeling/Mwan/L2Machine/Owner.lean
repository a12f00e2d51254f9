import Mathlib.Data.List.AList
import Mathlib.Data.Fintype.Pi
import Mwan.Core.Hoare
import Mwan.L1Encoding.Packet
import Mwan.L2Machine.Direction

/-!
# The state of the native owner (`native/src/controller.rs`)

One owner holds the pair table, the packet queues, the VXLAN contexts and the
ports of one EAL instance. Its operations run on one thread, one at a time, as
programs on a `World`: the owner and, next to it, what it has done so far.

A vector of fixed length is a function of the index, read only below that
length (`pairCapacity` pairs, `maximumReceivers` VXLAN contexts). A hash map is
an association list; where the source iterates over one, the list's order
stands for the map's.

What the SDK answers comes from `Sdk`, a function of the number of the call,
so that a statement for every `Sdk` is one about every behaviour of the
hardware. A flow handle is the number of the call that created it: the SDK may
return the same address twice, the owner's handles are still different ones.

Some data is there only to speak about runs: the events, and for each buffer
its number, the bytes it arrived with and the origin it arrived at.
-/
namespace Mwan.Native

open Mwan.Core

/-! ## Constants -/

/-- mirrors controller.rs:14 -/
def BURST : Nat := 32
/-- mirrors controller.rs:21 -/
def DRAIN_QUIET_NS : UInt64 := 1000000
/-- mirrors controller.rs:23 -/
def NS_PER_MS : UInt64 := 1000000
/-- `MWAN_NATIVE_MAX_RECEIVERS` -/
def maximumReceivers : Nat := 8
/-- `MWAN_NATIVE_NO_ID` -/
def noId : UInt32 := 4294967295
/-- `MWAN_NATIVE_VXLAN_VERSION` -/
def vxlanVersion : UInt32 := 1

/-- mirrors controller.rs:25 -/
def directionMask (index : Fin 2) : UInt32 := if index = 0 then 1 else 2

/-- The two directions in the order the loops visit them. -/
def directionIndexes : List (Fin 2) := [0, 1]

/-! ## Pairs -/

/-- mirrors controller.rs:29-36 -/
inductive PairState
  | absent | installed | draining | faulted
  deriving DecidableEq, Repr

/-- mirrors controller.rs:38-47 -/
def PairState.value : PairState → UInt32
  | absent => 0
  | installed => 1
  | draining => 2
  | faulted => 3

/-- A flow handle: the number of the call that created the flow. -/
abbrev Flow := Nat

/-- mirrors controller.rs:77-82 -/
structure Leg where
  flow : Option Flow := none
  inverse : Bool := false
  deleteFailed : Bool := false
  deriving DecidableEq, Repr

/-- Neither a rule nor an unfinished deletion.
mirrors controller.rs:1741-1744 -/
def Leg.clean (leg : Leg) : Bool := leg.flow.isNone && !leg.deleteFailed

/-- mirrors mwan_native.h:228-234 -/
structure PairSpec where
  cookie : UInt64 := 0
  policyGeneration : UInt64 := 0
  requestedDirectionMask : UInt32 := 0
  reserved : UInt32 := 0
  directions : Fin 2 → Direction := fun _ => {}
  deriving DecidableEq

/-- `requested_direction_mask & DIRECTION_MASKS[index] != 0` -/
def PairSpec.requests (spec : PairSpec) (index : Fin 2) : Bool :=
  spec.requestedDirectionMask &&& directionMask index ≠ 0

/-- mirrors controller.rs:84-91 -/
structure Pair where
  generation : UInt64 := 0
  state : PairState := .absent
  spec : PairSpec := {}
  guards : Option (Fin 2 → PacketGuard) := none
  legs : Fin 2 → Leg := fun _ => {}

/-- Both legs are clean. -/
def Pair.clean (pair : Pair) : Bool := directionIndexes.all fun index => (pair.legs index).clean

/-- Change one leg. -/
def Pair.setLeg (pair : Pair) (index : Fin 2) (leg : Leg) : Pair :=
  { pair with legs := Function.update pair.legs index leg }

/-- mirrors controller.rs:93-97 -/
structure InverseKey where
  origin : UInt32
  tuple : Tuple
  deriving DecidableEq, Repr

/-- The key under which a direction's inverse is found.
mirrors controller.rs:2015-2018 -/
def Direction.inverseKey (direction : Direction) : InverseKey :=
  ⟨direction.originId, direction.translated⟩

/-- mirrors controller.rs:99-104 -/
structure LegId where
  slot : Nat
  generation : UInt64
  direction : Fin 2
  deriving DecidableEq, Repr

/-- The pairs of an owner: those in slots, those whose slot was reused while
their inverses were still needed, and the inverse map.
mirrors controller.rs:254-257 -/
structure PairTable where
  pairs : Nat → Pair := fun _ => {}
  retained : AList (fun _ : Handle => Pair) := ∅
  inverses : AList (fun _ : InverseKey => LegId) := ∅

/-- `pairs[slot] = pair` -/
def PairTable.setPair (table : PairTable) (slot : Nat) (pair : Pair) : PairTable :=
  { table with pairs := Function.update table.pairs slot pair }

/-- mirrors mwan_native.h:243-251 -/
structure PairResult where
  handle : Handle := {}
  state : UInt32 := 0
  installedMask : UInt32 := 0
  cleanupFailedMask : UInt32 := 0
  requestedDirectionMask : UInt32 := 0
  restorationMask : UInt32 := 0
  deriving DecidableEq, Repr

/-! ## Packets -/

/-- A received buffer. The owner edits `bytes`; `unique`, `linearizes` and
`frameFault` are what the SDK's fields of the buffer make of the checks in
`linearize` and `frame`. The last three fields are not in the source: the
buffer's number, the bytes it arrived with, the origin it arrived at.
mirrors controller.rs:115-118 -/
structure PacketBuffer where
  bytes : Bytes
  contiguous : Bool := false
  unique : Bool := true
  linearizes : Bool := true
  frameFault : Option Int := none
  id : Nat × Nat
  wire : Bytes
  origin : Nat
  deriving DecidableEq, Repr

/-- mirrors controller.rs:128-151 -/
def PacketBuffer.ethernet (packet : PacketBuffer) : Option Bytes :=
  readRange packet.bytes 0 ETHERNET_HEADER_LENGTH

/-- mirrors controller.rs:153-170 -/
def PacketBuffer.linearize (packet : PacketBuffer) : Except Int PacketBuffer :=
  if !packet.unique then .error ENOTSUP
  else if !packet.linearizes then .error ENOBUFS
  else .ok { packet with contiguous := true }

/-- mirrors controller.rs:172-200 -/
def PacketBuffer.frame (packet : PacketBuffer) : Except Int Bytes :=
  if !packet.contiguous then .error ENOBUFS
  else match packet.frameFault with
    | some code => .error code
    | none => .ok packet.bytes

/-- Run an edit of the packet module on the buffer's frame. -/
def PacketBuffer.edit (packet : PacketBuffer) (edit : Editor Unit) :
    PacketBuffer × Except DecodeError Unit :=
  match edit packet.bytes with
  | .ok _ bytes => ({ packet with bytes := bytes }, .ok ())
  | .error error bytes => ({ packet with bytes := bytes }, .error error)

/-- mirrors controller.rs:221-224 -/
structure Received where
  origin : Nat
  packet : PacketBuffer
  deriving DecidableEq, Repr

/-- mirrors controller.rs:233-239 -/
structure PreparedForward where
  handle : Handle
  view : ParsedPacket
  direction : Direction
  returnPort : UInt16
  deriving DecidableEq, Repr

/-- mirrors controller.rs:226-231 -/
structure Pending where
  packet : PacketBuffer
  port : UInt16
  kernel : Bool
  prepared : Option PreparedForward
  deriving DecidableEq, Repr

/-- mirrors mwan_native.h:342-353 -/
structure WorkerStats where
  received : UInt64 := 0
  forwarded : UInt64 := 0
  returnedToKernel : UInt64 := 0
  unsupported : UInt64 := 0
  lookupMisses : UInt64 := 0
  malformed : UInt64 := 0
  pendingPackets : UInt64 := 0
  quarantinedPackets : UInt64 := 0
  discardedGroupFrames : UInt64 := 0
  deriving DecidableEq, Repr

/-- The packets an owner holds and its counters.
mirrors controller.rs:258-262 -/
structure Queues where
  pending : List Pending := []
  received : List Received := []
  quarantined : Option Received := none
  stats : WorkerStats := {}
  deriving DecidableEq, Repr

/-! ## Ports and VXLAN contexts -/

/-- mirrors controller.rs:49-56 -/
inductive PortState
  | discovered | configured | started | stopped | closed
  deriving DecidableEq, Repr

/-- mirrors controller.rs:58-62 -/
structure Port where
  id : UInt16
  state : PortState
  deriving DecidableEq, Repr

/-- mirrors controller.rs:64-68 -/
structure ControllerPort where
  id : Option UInt16 := none
  miss : Bool := false
  deriving DecidableEq, Repr

/-- mirrors controller.rs:70-75 -/
structure DataPort where
  id : Option UInt16 := none
  representor : Option UInt16 := none
  origin : Option Nat := none
  deriving DecidableEq, Repr

/-- mirrors mwan_native.h:101-109; `pciValid` is `pci_valid` of
the endpoint's PCI function. -/
structure VxlanEndpoint where
  version : UInt32
  recordSize : UInt32
  receiverId : UInt32
  linuxIfindex : UInt32
  sourceVf : UInt16
  reserved : UInt16
  pciValid : Bool
  deriving DecidableEq, Repr

/-- The fields of `mwan_native_vxlan_plan` the owner itself reads.
mirrors mwan_native.h:303-323 -/
structure VxlanPlan where
  innerSourceMac : Mac
  outerSourceMac : Mac
  innerMtu : UInt16
  underlayMtu : UInt16
  deriving DecidableEq, Repr

/-- mirrors controller/vxlan.rs:5-14 -/
structure Context where
  generation : UInt64 := 0
  endpoint : Option VxlanEndpoint := none
  interface : Option String := none
  plan : Option VxlanPlan := none
  ruleGeneration : UInt64 := 0
  flow : Option Flow := none
  cleanupFailed : Bool := false
  deriving DecidableEq, Repr

/-- mirrors controller/vxlan.rs:17-19 -/
def Context.ownsResources (context : Context) : Bool :=
  context.endpoint.isSome || context.flow.isSome || context.cleanupFailed

/-! ## The owner -/

/-- mirrors controller.rs:246-268; `ownsPool` is `pool.is_some()`. -/
structure OwnerState where
  config : Config
  instance_ : UInt64 := 0
  controllers : Nat → ControllerPort := fun _ => {}
  receivers : Nat → Option UInt16 := fun _ => none
  data : Nat → DataPort := fun _ => {}
  ports : List Port := []
  ownsPool : Bool := false
  table : PairTable := {}
  vxlan : Nat → Context := fun _ => {}
  queues : Queues := {}
  nextRx : Nat := 0
  terminalFailure : Option NativeError := none
  ealReady : Bool := false
  active : Bool := false
  quiescing : Bool := false
  faulted : Bool := false

/-- `pairs.len()` -/
def OwnerState.capacity (owner : OwnerState) : Nat := owner.config.pairCapacity.toNat

/-- mirrors controller.rs:639-702 -/
def OwnerState.new (config : Config) : OwnerState where
  config := config
  data := config.origins.zipIdx.foldl (fun data origin =>
    Function.update data origin.1.data.toNat
      { data origin.1.data.toNat with origin := some origin.2 }) fun _ => {}

/-! ## Worlds -/

/-- The holder of a flow: a leg of a pair or a VXLAN context. -/
inductive Holder
  | leg (slot : Nat) (generation : UInt64) (index : Fin 2)
  | vxlan (slot : Nat)
  deriving DecidableEq, Repr

/-- What the owner has done to the hardware and to packets, and the two error
branches the source expects never to take. -/
inductive Event
  /-- `rte_flow_create` returned a flow. -/
  | created (flow : Flow) (holder : Holder)
  /-- `rte_flow_destroy` was called, and whether it reported success. -/
  | destroyed (flow : Flow) (ok : Bool)
  /-- A receive burst returned the buffer. -/
  | received (id : Nat × Nat)
  /-- A transmit burst accepted the entry, the owner being as given. -/
  | transmitted (owner : OwnerState) (entry : Pending)
  /-- The buffer was freed as a group frame. -/
  | discarded (id : Nat × Nat)
  /-- `install_pair` found its key in the inverse map. -/
  | keyPresent
  /-- `restore_pending` failed. -/
  | restorationFailed

/-- The owner, the record the running operation writes its result to, the
number of SDK calls so far and the events, the latest first. `present` is
false once a final shutdown has released the owner. -/
structure World where
  owner : OwnerState
  out : PairResult := {}
  calls : Nat := 0
  events : List Event := []
  present : Bool := true

/-- An operation of the owner. -/
abbrev OwnerM := Prog NativeError World

/-! ## The SDK and the host -/

/-- `rte_flow_error` -/
structure FlowDetail where
  kind : UInt32
  message : Option String
  deriving DecidableEq, Repr

/-- A buffer as a receive burst returns it. -/
structure Arrival where
  bytes : Bytes
  unique : Bool := true
  linearizes : Bool := true
  frameFault : Option Int := none
  deriving DecidableEq, Repr

/-- What the SDK and the host answer to the call of a given number. A missing
buffer of `rxBurst` is a null pointer; the length of its list and the value of
`txBurst` are the counts the bursts return. -/
structure Sdk where
  flowValidate : Nat → Int
  /-- The error of `rte_flow_create`, if it returns no flow. -/
  flowCreate : Nat → Option Int
  flowDestroy : Nat → Int
  flowDetail : Nat → FlowDetail
  rxBurst : Nat → UInt16 → Nat → List (Option Arrival)
  txBurst : Nat → UInt16 → Nat → Nat
  /-- The link status, if the query succeeds. -/
  link : Nat → UInt16 → Option Bool
  clock : Nat → UInt64
  /-- An upper bound on the rounds of `drain` before its deadline. -/
  drainRounds : Nat
  missActions : Nat → Int
  devStart : Nat → Int
  devStop : Nat → Int
  devClose : Nat → Int
  validPort : Nat → Bool
  ealCleanup : Nat → Int
  /-- `verify_vxlan_endpoint`: the interface, or why there is none. -/
  endpoint : Nat → Except NativeError String
  /-- The interface's MTU, or why it cannot be read. -/
  interfaceMtu : Nat → Except NativeError UInt16
  /-- The message of `InvalidPlan`, if the plan is refused. -/
  planRefused : VxlanPlan → Option String

end Mwan.Native

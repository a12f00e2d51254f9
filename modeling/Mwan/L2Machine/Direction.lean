import Mwan.Core.Exec
import Mwan.L1Encoding.Abi

/-!
# Direction checks of the native owner (`native/src/controller.rs`)

Before the owner turns a direction of a pair into a hardware rule it checks
the direction alone (`directionValid`) and against the directions it already
serves (`collision`).

The configuration is what the owner was opened with: each `*_count` is the
length of its list, and the fields only device discovery and the EAL read
(PCI functions, descriptors, memory) are left out.
-/
namespace Mwan.Native

open Mwan.Core Mwan.Core.Exec

/-! ## Configuration -/

/-- mirrors mwan_native.h:112-116 -/
structure ControllerConfig where
  physicalReceiver : UInt32 := 0
  deriving DecidableEq, Repr, Inhabited

/-- mirrors mwan_native.h:118-124 -/
structure ReceiverConfig where
  controller : UInt32 := 0
  vf : UInt16 := 0
  mac : Mac := Vector.replicate 6 0
  deriving DecidableEq, Repr, Inhabited

/-- mirrors mwan_native.h:127-134 -/
structure DataConfig where
  controller : UInt32 := 0
  vf : UInt16 := 0
  mac : Mac := Vector.replicate 6 0
  deriving DecidableEq, Repr, Inhabited

/-- mirrors mwan_native.h:139-147 -/
structure OriginConfig where
  controller : UInt32 := 0
  receiver : UInt32 := 0
  data : UInt32 := 0
  deriving DecidableEq, Repr, Inhabited

/-- mirrors mwan_native.h:149-172 -/
structure Config where
  controllers : List ControllerConfig := []
  receivers : List ReceiverConfig := []
  data : List DataConfig := []
  origins : List OriginConfig := []
  pairCapacity : UInt32 := 1
  mbufCount : UInt32 := 1
  drainTimeoutMs : UInt32 := 1
  mtu : UInt16 := 1500
  deriving DecidableEq, Repr, Inhabited

/-- `config.origins[index]` -/
def Config.origin (config : Config) (index : UInt32) : OriginConfig :=
  config.origins[index.toNat]?.getD default

/-- `config.receivers[index]` -/
def Config.receiver (config : Config) (index : UInt32) : ReceiverConfig :=
  config.receivers[index.toNat]?.getD default

/-! ## Faults -/

/-- mirrors controller.rs:270-292 -/
def fault (code : Int) (operation : Operation) (objectKind : ObjectKind) (objectId : UInt32)
    (direction : UInt32) (message : String) : NativeError where
  -- `checked_abs` also fails on the least `i32`
  code := if code = 0 ∨ code = -2 ^ 31 then EIO else code.natAbs
  operation := operation
  objectKind := objectKind
  objectId := objectId
  direction := direction
  message := message

/-! ## One direction -/

/-- mirrors controller.rs:15 -/
def minimumMtu : UInt16 := 68

/-- mirrors controller.rs:373-375 -/
def validMac (value : Mac) : Bool :=
  value[0] &&& 1 = 0 && value.toList.any (· ≠ 0)

/-- mirrors controller.rs:1333-1349 -/
def tupleValid (tuple : Tuple) : Bool :=
  tuple.reserved = 0 && (tuple.family = familyIpv4 || tuple.family = familyIpv6) &&
    (tuple.protocol = protocolTcp || tuple.protocol = protocolUdp) && tuple.sourcePort ≠ 0 &&
    tuple.destinationPort ≠ 0 && tuple.source ≠ Vector.replicate 16 0 &&
    tuple.destination ≠ Vector.replicate 16 0 &&
    (tuple.family ≠ familyIpv4 ||
      (tuple.source.toList.drop 4 = List.replicate 12 0 &&
        tuple.destination.toList.drop 4 = List.replicate 12 0))

/-- mirrors controller.rs:1351-1357 -/
def sameAddresses (left right : Tuple) : Bool :=
  left.family = right.family && left.protocol = right.protocol && left.source = right.source &&
    left.destination = right.destination

/-- mirrors controller.rs:1359-1372 -/
def ipv6Sum (address : Addr) : UInt16 :=
  let sum := fold16 (wordSum address.toList)
  if sum = 65535 then 0 else UInt16.ofNat sum

/-- The guard of an IPv6 direction: ports unchanged, each address with its
own sum.
mirrors controller.rs:1416-1421 -/
def notNeutral (direction : Direction) : Bool :=
  direction.original.family = familyIpv6 &&
    (direction.original.sourcePort ≠ direction.translated.sourcePort ||
      direction.original.destinationPort ≠ direction.translated.destinationPort ||
      ipv6Sum direction.original.source ≠ ipv6Sum direction.translated.source ||
      ipv6Sum direction.original.destination ≠ ipv6Sum direction.translated.destination)

/-- The text of the error for a direction that fails `notNeutral`. -/
def notNeutralMessage : String :=
  "IPv6 translation requires unchanged ports and independently neutral addresses"

/-- mirrors controller.rs:1396-1404 -/
def inexact (config : Config) (direction : Direction) : Bool :=
  decide (config.origins.length ≤ direction.originId.toNat) ||
    decide (config.data.length ≤ direction.egressDataId.toNat) || direction.reserved ≠ 0 ||
    !tupleValid direction.original || !tupleValid direction.translated ||
    direction.original.family ≠ direction.translated.family ||
    direction.original.protocol ≠ direction.translated.protocol ||
    direction.outputMtu < minimumMtu || direction.outputMtu > config.mtu

/-- mirrors controller.rs:1394-1461 -/
def directionValid (config : Config) (direction : Direction) (index : Nat) :
    Except NativeError Unit := do
  let invalid (code : Int) (message : String) : NativeError :=
    fault code .validate .origin direction.originId (UInt32.ofNat index) message
  if inexact config direction then
    throw (invalid EINVAL "Invalid exact direction")
  if notNeutral direction then
    throw (invalid ENOTSUP notNeutralMessage)
  [direction.originalSourceMac, direction.originalDestinationMac, direction.outputSourceMac,
    direction.outputDestinationMac].forM fun address =>
      if !validMac address then throw (invalid EINVAL "Direction requires unicast MAC addresses")
      else pure ()
  let origin := config.origin direction.originId
  if direction.originalDestinationMac ≠ (config.receiver origin.receiver).mac then
    throw (invalid EINVAL "Original destination must identify the origin's kernel receiver")

/-! ## Two directions -/

/-- mirrors controller.rs:1463-1482 -/
def collision (config : Config) (first second : Direction) : Bool :=
  let left := config.origin first.originId
  let right := config.origin second.originId
  if left.controller = right.controller && first.original = second.original &&
      first.originalSourceMac = second.originalSourceMac &&
      first.originalDestinationMac = second.originalDestinationMac then true
  else if first.originId ≠ second.originId then false
  else
    first.original = second.original || first.translated = second.translated ||
      (sameAddresses first.translated second.translated &&
        (!sameAddresses first.original second.original ||
          first.originalSourceMac ≠ second.originalSourceMac ||
          first.originalDestinationMac ≠ second.originalDestinationMac))

/-! ## What the checks say -/

/-- Only a direction that is not neutral is refused with the neutrality error. -/
theorem directionValid_ne_notNeutral {direction : Direction} (h : notNeutral direction = false)
    (config : Config) (index : Nat) :
    directionValid config direction index ≠ .error
      (fault ENOTSUP .validate .origin direction.originId (UInt32.ofNat index)
        notNeutralMessage) := by
  have hcode (message : String) :
      fault ENOTSUP .validate .origin direction.originId (UInt32.ofNat index) notNeutralMessage ≠
        fault EINVAL .validate .origin direction.originId (UInt32.ofNat index) message := by
    intro heq
    have hc : ENOTSUP = EINVAL := congrArg NativeError.code heq
    exact absurd hc (by decide)
  intro he
  simp only [directionValid, h, except_bind_eq_error, except_ite_eq_error, except_throw_eq_error,
    except_pure_eq_error, except_throw_eq_ok, hcode, and_false, false_or, or_false, Bool.false_eq_true,
    false_and, exists_false, not_false_eq_true, true_and] at he
  obtain ⟨-, hm⟩ := he
  obtain ⟨address, -, ha⟩ := except_forM_eq_error hm
  simp [except_ite_eq_error, except_throw_eq_error, except_pure_eq_error, hcode] at ha

end Mwan.Native

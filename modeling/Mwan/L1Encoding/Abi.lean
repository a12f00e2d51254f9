import Mwan.Core.Words

/-!
# The native ABI records (`native/include/mwan_native.h`)

The records the packet editor and the owner exchange with their callers, as
the header declares them: fixed-width integers, address and MAC arrays in
network byte order, an IPv4 address in the first four bytes of its array.
`error.message` is the text itself, not the 192-byte buffer it is copied
into; the records of the observation, statistics and build-information calls
are left out.
-/
namespace Mwan

abbrev Bytes := List UInt8

/-- A MAC address (`[u8; 6]`). -/
abbrev Mac := Vector UInt8 6

/-- An address field (`[u8; 16]`). -/
abbrev Addr := Vector UInt8 16

namespace Native

/-! ## Error numbers (`libc`, Linux) -/

def EPERM : Int := 1
def ENOENT : Int := 2
def EIO : Int := 5
def EBUSY : Int := 16
def EEXIST : Int := 17
def EXDEV : Int := 18
def ENODEV : Int := 19
def EINVAL : Int := 22
def ENOSPC : Int := 28
def EBADMSG : Int := 74
def EOVERFLOW : Int := 75
def EMSGSIZE : Int := 90
def EPROTONOSUPPORT : Int := 93
def ENOTSUP : Int := 95
def ENOBUFS : Int := 105
def ETIMEDOUT : Int := 110
def ESTALE : Int := 116

/-! ## Constants -/

/-- `MWAN_NATIVE_FAMILY_IPV4` -/
def familyIpv4 : UInt8 := 4
/-- `MWAN_NATIVE_FAMILY_IPV6` -/
def familyIpv6 : UInt8 := 6
/-- `MWAN_NATIVE_PROTOCOL_TCP` -/
def protocolTcp : UInt8 := 6
/-- `MWAN_NATIVE_PROTOCOL_UDP` -/
def protocolUdp : UInt8 := 17

/-- mirrors mwan_native.h:66-78 (`mwan_native_operation`) -/
inductive Operation
  | none | config | eal | port | miss | validate | create | query | destroy | drain | packet
  deriving DecidableEq, Repr

/-- mirrors mwan_native.h:80-88 (`mwan_native_object_kind`) -/
inductive ObjectKind
  | none | controller | receiver | data | origin | port | pair
  deriving DecidableEq, Repr

/-! ## Records -/

/-- mirrors mwan_native.h:174-182 (`mwan_native_tuple`) -/
structure Tuple where
  family : UInt8 := 0
  protocol : UInt8 := 0
  reserved : UInt16 := 0
  source : Addr := Vector.replicate 16 0
  destination : Addr := Vector.replicate 16 0
  sourcePort : UInt16 := 0
  destinationPort : UInt16 := 0
  deriving DecidableEq, Repr

/-- mirrors mwan_native.h:203-210 (`mwan_native_packet_guard`) -/
structure PacketGuard where
  flowLabel : UInt32 := 0
  trafficClass : UInt8 := 0
  reserved : Vector UInt8 3 := Vector.replicate 3 0
  deriving DecidableEq, Repr

/-- mirrors mwan_native.h:215-226 (`mwan_native_direction`) -/
structure Direction where
  originId : UInt32 := 0
  egressDataId : UInt32 := 0
  original : Tuple := {}
  translated : Tuple := {}
  originalSourceMac : Mac := Vector.replicate 6 0
  originalDestinationMac : Mac := Vector.replicate 6 0
  outputSourceMac : Mac := Vector.replicate 6 0
  outputDestinationMac : Mac := Vector.replicate 6 0
  outputMtu : UInt16 := 0
  reserved : UInt16 := 0
  deriving DecidableEq, Repr

/-- mirrors mwan_native.h:236-241 (`mwan_native_handle`) -/
structure Handle where
  instance_ : UInt64 := 0
  generation : UInt64 := 0
  slot : UInt32 := 0
  reserved : UInt32 := 0
  deriving DecidableEq, Repr

/-- mirrors mwan_native.h:266-275 (`mwan_native_packet_diagnostic`) -/
structure PacketDiagnostic where
  validity : UInt32 := 0
  failureFlags : UInt32 := 0
  decodeStatus : Int := 0
  etherType : UInt16 := 0
  tuple : Tuple := {}
  sourceMac : Mac := Vector.replicate 6 0
  destinationMac : Mac := Vector.replicate 6 0
  deriving DecidableEq, Repr

/-- mirrors mwan_native.h:277-286 (`mwan_native_error`) -/
structure NativeError where
  code : Int := 0
  operation : Operation := .none
  objectId : UInt32 := 0
  direction : UInt32 := 0
  flowErrorType : UInt32 := 0
  objectKind : ObjectKind := .none
  message : String := ""
  packet : PacketDiagnostic := {}
  deriving DecidableEq, Repr

end Native
end Mwan

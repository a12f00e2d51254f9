import Mwan.L1Encoding.Abi

/-!
# The packet editor (`native/src/packet.rs`)

`decode` reads an Ethernet frame into a `ParsedPacket`: up to two VLAN tags,
IPv4 with options or IPv6 with up to eight extension headers, then the TCP or
UDP ports. `restore` undoes the hardware's NAT rewrite, `forward` prepares a
frame for its egress port and `restore_forwarded` undoes `forward` and
restores. Every read and write is bounds checked and returns `EBADMSG` out of
range; the `checked_add`s of `usize` are sums of `Nat` here, which a slice's
length bounds the same way.

`decode_headers` fills its view field by field and an error reports the view
as far as it was filled, so the decoder is an `EStateM` whose state is the
view: it survives a `throw`.
-/
namespace Mwan.Native

open Mwan.Core

def ETHERNET_HEADER_LENGTH : Nat := 14
def ETHERNET_ADDRESS_LENGTH : Nat := 6
def VLAN_HEADER_LENGTH : Nat := 4
def MAX_VLAN_HEADERS : Nat := 2
def IPV4_HEADER_LENGTH : Nat := 20
def IPV6_HEADER_LENGTH : Nat := 40
def TCP_HEADER_LENGTH : Nat := 20
def UDP_HEADER_LENGTH : Nat := 8
def MAX_IPV6_EXTENSION_HEADERS : Nat := 8
def IPV6_EXTENSION_MINIMUM_LENGTH : Nat := 8
def IPV4_ETHERTYPE : UInt16 := 0x0800
def IPV6_ETHERTYPE : UInt16 := 0x86dd
def VLAN_ETHERTYPE : UInt16 := 0x8100
def QINQ_ETHERTYPE : UInt16 := 0x88a8
def IPV4_FRAGMENT_MASK : UInt16 := 0x3fff
def IPV4_FRAGMENT_OFFSET_MASK : UInt16 := 0x1fff
def IPV6_FRAGMENT_OFFSET_MASK : UInt16 := 0xfff8
def TCP_ACK_FLAG : UInt8 := 0x10
def TCP_EXCEPTION_FLAGS : UInt8 := 0x27

/-! ## Bounded reads -/

/-- mirrors packet.rs:667-669 -/
def readRange (bytes : Bytes) (offset length : Nat) : Option Bytes :=
  if offset + length ≤ bytes.length then some (slice bytes offset length) else none

/-- `bytes.get(offset)` -/
def readU8 (bytes : Bytes) (offset : Nat) : Option UInt8 := bytes[offset]?

/-- mirrors packet.rs:671-673 -/
def readArray (length : Nat) (bytes : Bytes) (offset : Nat) : Option (Vector UInt8 length) :=
  match readRange bytes offset length with
  | none => none
  | some range => if h : range.length = length then some ⟨range.toArray, by simpa using h⟩ else none

/-- mirrors packet.rs:675-677 -/
def readU16 (bytes : Bytes) (offset : Nat) : Option UInt16 :=
  (readArray 2 bytes offset).map fun word => ofBe word[0] word[1]

/-! ## Checksums -/

/-- mirrors packet.rs:695-707 (`u64`, which no frame overflows) -/
def sumWords (bytes : Bytes) : Nat := wordSum bytes

/-- mirrors packet.rs:709-714 -/
def foldChecksum (sum : Nat) : UInt16 := UInt16.ofNat (fold16 sum)

/-- The `for` loop of `checksum_replace` over the word pairs of the two
slices: each adds the complement of the old word and the new word. -/
def replaceWords : Bytes → Bytes → Nat
  | oldHigh :: oldLow :: before, newHigh :: newLow :: after =>
    (~~~ ofBe oldHigh oldLow).toNat + (ofBe newHigh newLow).toNat + replaceWords before after
  | _, _ => 0

/-- mirrors packet.rs:716-732 -/
def checksumReplace (checksum : UInt16) (before after : Bytes) : Option UInt16 :=
  if before.length ≠ after.length ∨ before.length % 2 ≠ 0 then none
  else if before = after then some checksum
  else some (~~~ foldChecksum ((~~~ checksum).toNat + replaceWords before after))

/-! ## The view -/

/-- mirrors packet.rs:34-57 -/
structure ParsedPacket where
  tuple : Tuple := {}
  networkOffset : Nat := 0
  ipHeaderLength : Nat := 0
  transportOffset : Nat := 0
  transportLength : Nat := 0
  networkLength : Nat := 0
  ttl : UInt8 := 0
  flags : UInt8 := 0
  trafficClass : UInt8 := 0
  flowLabel : UInt32 := 0
  fragment : Bool := false
  noninitialFragment : Bool := false
  extended : Bool := false
  ports : Bool := false
  malformed : Bool := false
  etherType : UInt16 := 0
  sourceMac : Mac := Vector.replicate 6 0
  destinationMac : Mac := Vector.replicate 6 0
  ipv4Checksum : UInt16 := 0
  frameLength : Nat := 0
  ethernetValid : Bool := false
  deriving DecidableEq, Repr

/-- mirrors packet.rs:86-90 -/
structure DecodeError where
  code : Int
  diagnostic : PacketDiagnostic
  deriving DecidableEq, Repr

/-- mirrors packet.rs:104-120; the validity bits are ETHERNET 1,
IP 2 and PORTS 4. -/
def diagnostic (view : ParsedPacket) : PacketDiagnostic :=
  let packet : PacketDiagnostic := {}
  let packet := if view.ethernetValid then
      { packet with
        validity := packet.validity ||| 1
        etherType := view.etherType
        sourceMac := view.sourceMac
        destinationMac := view.destinationMac }
    else packet
  let packet := if view.tuple.family ≠ 0 then
      { packet with validity := packet.validity ||| 2, tuple := view.tuple }
    else packet
  if view.ports then { packet with validity := packet.validity ||| 4 } else packet

/-- mirrors packet.rs:76-83 -/
def ParsedPacket.error (view : ParsedPacket) (code : Int) : DecodeError :=
  { code := code, diagnostic := { diagnostic view with decodeStatus := -code } }

/-! ## decode -/

/-- `decode_headers` over its mutable view. -/
abbrev Decoder := EStateM Int ParsedPacket

/-- `.ok_or(libc::EBADMSG)?` -/
def orBad {α : Type} : Option α → Decoder α
  | some value => pure value
  | none => throw EBADMSG

/-- The first four bytes of an address array overwritten, as
`view.tuple.source.get_mut(..4)…copy_from_slice` does. -/
def setPrefix (address : Addr) (head : Vector UInt8 4) : Addr :=
  Vector.ofFn fun i => if h : i.val < 4 then head[i.val] else address[i.val]

/-- The VLAN loop; `remaining` is `MAX_VLAN_HEADERS - vlan_count`.
mirrors packet.rs:166-181 -/
def decodeVlan (frame : Bytes) (remaining : Nat) (etherType : UInt16) : Decoder UInt16 :=
  if etherType = VLAN_ETHERTYPE ∨ etherType = QINQ_ETHERTYPE then
    match remaining with
    | 0 => throw EBADMSG
    | remaining + 1 => do
      let vlan ← orBad (readRange frame (← get).networkOffset VLAN_HEADER_LENGTH)
      let etherType ← orBad (readU16 vlan 2)
      modify fun view => { view with networkOffset := view.networkOffset + VLAN_HEADER_LENGTH }
      modify fun view => { view with extended := true }
      decodeVlan frame remaining etherType
  else pure etherType

/-- mirrors packet.rs:221-260 -/
def decodeIpv4 (network : Bytes) : Decoder Unit := do
  let header ← orBad (readRange network 0 IPV4_HEADER_LENGTH)
  let versionAndLength ← orBad (readU8 header 0)
  if versionAndLength >>> 4 ≠ 4 then throw EBADMSG
  modify fun view => { view with ipHeaderLength := (versionAndLength &&& 15).toNat * 4 }
  let total ← orBad (readU16 header 2)
  modify fun view => { view with networkLength := total.toNat }
  let view ← get
  if view.ipHeaderLength < IPV4_HEADER_LENGTH ∨ view.networkLength < view.ipHeaderLength ∨
      view.ipHeaderLength > network.length then throw EBADMSG
  modify fun view => { view with malformed := view.networkLength > network.length }
  let fragment ← orBad (readU16 header 6)
  modify fun view => { view with fragment := fragment &&& IPV4_FRAGMENT_MASK ≠ 0 }
  modify fun view => { view with noninitialFragment := fragment &&& IPV4_FRAGMENT_OFFSET_MASK ≠ 0 }
  modify fun view =>
    { view with extended := view.extended || decide (view.ipHeaderLength ≠ IPV4_HEADER_LENGTH) }
  let ttl ← orBad (readU8 header 8)
  modify fun view => { view with ttl := ttl }
  let checksum ← orBad (readU16 header 10)
  modify fun view => { view with ipv4Checksum := checksum }
  let trafficClass ← orBad (readU8 header 1)
  modify fun view => { view with trafficClass := trafficClass }
  modify fun view => { view with tuple := { view.tuple with family := familyIpv4 } }
  let protocol ← orBad (readU8 header 9)
  modify fun view => { view with tuple := { view.tuple with protocol := protocol } }
  let source ← orBad (readArray 4 header 12)
  let destination ← orBad (readArray 4 header 16)
  modify fun view =>
    { view with tuple := { view.tuple with source := setPrefix view.tuple.source source } }
  modify fun view =>
    { view with
      tuple := { view.tuple with destination := setPrefix view.tuple.destination destination } }

/-- The protocols the extension loop walks over: hop-by-hop (0), routing
(43), fragment (44), authentication (51), destination options (60). -/
def isExtension (protocol : UInt8) : Bool :=
  protocol = 0 || protocol = 43 || protocol = 60 || protocol = 44 || protocol = 51

/-- The extension loop over `limit` bytes of the packet; `rounds` counts the
`0..MAX_IPV6_EXTENSION_HEADERS` that are left.
mirrors packet.rs:281-330 -/
def decodeExtensions (network : Bytes) (limit : Nat) : Nat → Decoder Unit
  | 0 => pure ()
  | rounds + 1 => do
    let view ← get
    let protocol := view.tuple.protocol
    if !isExtension protocol then pure ()
    else
      if limit < view.ipHeaderLength then throw EBADMSG
      let remaining := limit - view.ipHeaderLength
      if remaining < IPV6_EXTENSION_MINIMUM_LENGTH then throw EBADMSG
      let extension ← orBad (readRange network view.ipHeaderLength remaining)
      let encodedLength ← orBad (readU8 extension 1)
      let size ← if protocol = 44 then do
          modify fun view => { view with fragment := true }
          let offset ← orBad (readU16 extension 2)
          modify fun view =>
            { view with noninitialFragment := offset &&& IPV6_FRAGMENT_OFFSET_MASK ≠ 0 }
          pure IPV6_EXTENSION_MINIMUM_LENGTH
        else if protocol = 51 then pure ((encodedLength.toNat + 2) * 4)
        else pure ((encodedLength.toNat + 1) * 8)
      if size > remaining then throw EBADMSG
      modify fun view => { view with ipHeaderLength := view.ipHeaderLength + size }
      let next ← orBad (readU8 extension 0)
      modify fun view => { view with tuple := { view.tuple with protocol := next } }
      modify fun view => { view with extended := true }
      if (← get).noninitialFragment then pure ()
      else decodeExtensions network limit rounds

/-- mirrors packet.rs:273 -/
def ipv6TrafficClass (first second : UInt8) : UInt8 :=
  ((first &&& (15 : UInt8)) * (16 : UInt8)) ||| (second >>> (4 : UInt8))

/-- mirrors packet.rs:274-275 -/
def ipv6FlowLabel (second third fourth : UInt8) : UInt32 :=
  ((second &&& (15 : UInt8)).toUInt32 * (65536 : UInt32)) ||| (third.toUInt32 * (256 : UInt32)) |||
    fourth.toUInt32

/-- mirrors packet.rs:262-332 -/
def decodeIpv6 (network : Bytes) : Decoder Unit := do
  let header ← orBad (readRange network 0 IPV6_HEADER_LENGTH)
  let version ← orBad (readU8 header 0)
  if version >>> 4 ≠ 6 then throw EBADMSG
  modify fun view => { view with ipHeaderLength := IPV6_HEADER_LENGTH }
  let payload ← orBad (readU16 header 4)
  modify fun view => { view with networkLength := IPV6_HEADER_LENGTH + payload.toNat }
  modify fun view => { view with malformed := view.networkLength > network.length }
  let ttl ← orBad (readU8 header 7)
  modify fun view => { view with ttl := ttl }
  let first ← orBad (readU8 header 0)
  let second ← orBad (readU8 header 1)
  let third ← orBad (readU8 header 2)
  let fourth ← orBad (readU8 header 3)
  modify fun view => { view with trafficClass := ipv6TrafficClass first second }
  modify fun view => { view with flowLabel := ipv6FlowLabel second third fourth }
  modify fun view => { view with tuple := { view.tuple with family := familyIpv6 } }
  let protocol ← orBad (readU8 header 6)
  modify fun view => { view with tuple := { view.tuple with protocol := protocol } }
  let source ← orBad (readArray 16 header 8)
  modify fun view => { view with tuple := { view.tuple with source := source } }
  let destination ← orBad (readArray 16 header 24)
  modify fun view => { view with tuple := { view.tuple with destination := destination } }
  let limit := min (← get).networkLength network.length
  decodeExtensions network limit MAX_IPV6_EXTENSION_HEADERS

/-- The part of `decode_headers` behind the network header.
mirrors packet.rs:188-218 -/
def decodeTransport (frame network : Bytes) : Decoder Unit := do
  modify fun view => { view with transportOffset := view.networkOffset + view.ipHeaderLength }
  let view ← get
  if min view.networkLength network.length < view.ipHeaderLength then throw EBADMSG
  modify fun view =>
    { view with transportLength := min view.networkLength network.length - view.ipHeaderLength }
  let view ← get
  let transport ← orBad (readRange frame view.transportOffset view.transportLength)
  let minimumTransportLength ←
    if view.tuple.protocol = protocolTcp then pure TCP_HEADER_LENGTH
    else if view.tuple.protocol = protocolUdp then pure UDP_HEADER_LENGTH
    else throw EPROTONOSUPPORT
  if view.malformed ∧ ¬ view.noninitialFragment ∧ transport.length < minimumTransportLength then
    throw EBADMSG
  if ¬ view.noninitialFragment ∧ 4 ≤ transport.length then
    let sourcePort ← orBad (readU16 transport 0)
    modify fun view => { view with tuple := { view.tuple with sourcePort := sourcePort } }
    let destinationPort ← orBad (readU16 transport 2)
    modify fun view => { view with tuple := { view.tuple with destinationPort := destinationPort } }
    modify fun view => { view with ports := true }
  if ¬ view.noninitialFragment ∧ view.tuple.protocol = protocolTcp ∧
      TCP_HEADER_LENGTH ≤ transport.length then
    let flags ← orBad (readU8 transport 13)
    modify fun view => { view with flags := flags }

/-- mirrors packet.rs:159-219 -/
def decodeHeaders (frame : Bytes) : Decoder Unit := do
  let ethernet ← orBad (readRange frame 0 ETHERNET_HEADER_LENGTH)
  let destination ← orBad (readArray 6 ethernet 0)
  modify fun view => { view with destinationMac := destination }
  let source ← orBad (readArray 6 ethernet ETHERNET_ADDRESS_LENGTH)
  modify fun view => { view with sourceMac := source }
  let etherType ← orBad (readU16 ethernet 12)
  modify fun view => { view with etherType := etherType }
  modify fun view => { view with ethernetValid := true }
  modify fun view => { view with networkOffset := ETHERNET_HEADER_LENGTH }
  let etherType ← decodeVlan frame MAX_VLAN_HEADERS etherType
  let view ← get
  let network ← orBad (readRange frame view.networkOffset (frame.length - view.networkOffset))
  if etherType = IPV4_ETHERTYPE then decodeIpv4 network
  else if etherType = IPV6_ETHERTYPE then decodeIpv6 network
  else throw EPROTONOSUPPORT
  decodeTransport frame network

/-- mirrors packet.rs:122-129 -/
def decode (frame : Bytes) : Except DecodeError ParsedPacket :=
  match decodeHeaders frame { frameLength := frame.length } with
  | .ok _ view => .ok view
  | .error code view => .error (view.error code)

/-! ## Eligibility -/

/-- The guard compares the DSCP bits and the flow label.
mirrors packet.rs:334-340 -/
def guardMatches (view : ParsedPacket) (guard : PacketGuard) : Bool :=
  (view.trafficClass ^^^ guard.trafficClass) &&& 0xfc = 0 ∧ view.flowLabel = guard.flowLabel

/-- The TCP and UDP header checks of `eligible_headers`; `some true` goes on
to the checksums.
mirrors packet.rs:358-382 -/
def eligibleTransport (transport : Bytes) (view : ParsedPacket) : Option Bool :=
  if view.tuple.protocol = protocolTcp then
    if transport.length < TCP_HEADER_LENGTH then some false
    else do
      let lengthAndReserved ← readU8 transport 12
      let headerLength := (lengthAndReserved >>> 4).toNat * 4
      if lengthAndReserved &&& 15 ≠ 0 ∨ headerLength < TCP_HEADER_LENGTH ∨
          headerLength > transport.length ∨ view.flags &&& TCP_ACK_FLAG = 0 ∨
          view.flags &&& TCP_EXCEPTION_FLAGS ≠ 0 then some false
      else some true
  else if view.tuple.protocol = protocolUdp then
    if transport.length < UDP_HEADER_LENGTH then some false
    else do
      let length ← readU16 transport 4
      if length.toNat ≠ transport.length then some false else some true
  else some false

/-- mirrors packet.rs:355-413 -/
def eligibleHeaders (frame : Bytes) (view : ParsedPacket) : Option Bool := do
  let network ← readRange frame view.networkOffset view.networkLength
  let transport ← readRange frame view.transportOffset view.transportLength
  if !(← eligibleTransport transport view) then some false
  else if view.tuple.family = familyIpv4 then
    let header ← readRange network 0 view.ipHeaderLength
    if foldChecksum (sumWords header) ≠ 0xffff then some false
    else if view.tuple.protocol = protocolUdp ∧ (← readU16 transport 6) = 0 then some true
    else
      let sum := sumWords (← readRange network 12 8) + view.tuple.protocol.toNat + transport.length
      some (foldChecksum (sum + sumWords transport) = 0xffff)
  else if view.tuple.family = familyIpv6 then
    if view.tuple.protocol = protocolUdp ∧ (← readU16 transport 6) = 0 then some false
    else
      if 2 ^ 32 ≤ transport.length then none
      else
        let sum := sumWords (← readRange network 8 32) +
          (transport.length / 65536 + transport.length % 65536) + view.tuple.protocol.toNat
        some (foldChecksum (sum + sumWords transport) = 0xffff)
  else some false

/-- mirrors packet.rs:342-353 -/
def eligible (frame : Bytes) (view : ParsedPacket) (direction : Direction) : Bool :=
  if view.malformed ∨ view.extended ∨ view.fragment ∨ view.ttl ≤ 1 ∨
      view.networkLength > direction.outputMtu.toNat ∨ ¬ view.ports then false
  else (eligibleHeaders frame view).getD false

/-! ## Editing

The edits write into the frame as they go; an error leaves what was written
before it, so the frame is the state of an `EStateM`. -/

abbrev Editor := EStateM DecodeError Bytes

/-- `.ok_or_else(|| view.error(libc::EBADMSG))?` -/
def orError {α : Type} (view : ParsedPacket) : Option α → Editor α
  | some value => pure value
  | none => throw (view.error EBADMSG)

/-- mirrors packet.rs:679-693 -/
def writeBytes (offset : Nat) (bytes : Bytes) (view : ParsedPacket) : Editor Unit := do
  let frame ← get
  if offset + bytes.length ≤ frame.length then set (splice frame offset bytes)
  else throw (view.error EBADMSG)

/-- mirrors packet.rs:649-665 -/
def validateEdit (view : ParsedPacket) (direction : Direction) : Editor Unit := do
  let frame ← get
  if frame.length ≠ view.frameLength ∨ ¬ view.ethernetValid ∨
      readRange frame 0 ETHERNET_HEADER_LENGTH = none ∨
      readRange frame view.networkOffset view.ipHeaderLength = none ∨
      readRange frame view.transportOffset view.transportLength = none ∨
      direction.original.family ≠ view.tuple.family ∨
      direction.translated.family ≠ view.tuple.family then
    throw (view.error EBADMSG)

/-- `source[..4]` of an address field. -/
def head4 (address : Addr) : Bytes := address.toList.take 4

/-- The checksum field of the transport header, when the header reaches it.
mirrors packet.rs:515-519 -/
def checksumField (view : ParsedPacket) : Option Nat :=
  if view.tuple.protocol = protocolTcp ∧ 18 ≤ view.transportLength then some 16
  else if view.tuple.protocol = protocolUdp ∧ UDP_HEADER_LENGTH ≤ view.transportLength then some 6
  else none

/-- mirrors packet.rs:505-552 -/
def inverseTransportChecksum (view : ParsedPacket) (direction : Direction) (ports : Bytes) :
    Editor (Option (Nat × UInt16)) := do
  if !view.ports then return none
  let udp : Bool := view.tuple.protocol = protocolUdp
  match checksumField view with
  | none => return none
  | some field =>
    let frame ← get
    let offset := view.transportOffset + field
    let checksum ← orError view (readU16 frame offset)
    -- IPv4 UDP wire zero disables the checksum and must survive inverse NAT.
    if udp && checksum = 0 then return none
    let previousPorts ← orError view (readRange frame view.transportOffset ports.length)
    let checksum ← orError view do
      let value ← checksumReplace checksum (head4 direction.translated.source)
        (head4 direction.original.source)
      let value ← checksumReplace value (head4 direction.translated.destination)
        (head4 direction.original.destination)
      checksumReplace value previousPorts ports
    -- UDP transmits a computed zero as all ones, preserving checksum presence.
    return some (offset, if udp && checksum = 0 then 0xffff else checksum)

/-- mirrors packet.rs:446-503 -/
def restoreIpv4 (view : ParsedPacket) (direction : Direction) : Editor Unit := do
  let checksumOffset := view.networkOffset + 10
  let sourceOffset := view.networkOffset + 12
  let destinationOffset := view.networkOffset + 16
  let ipChecksum ← orError view (readU16 (← get) checksumOffset)
  let ipChecksum ← orError view do
    let checksum ← checksumReplace ipChecksum (head4 direction.translated.source)
      (head4 direction.original.source)
    checksumReplace checksum (head4 direction.translated.destination)
      (head4 direction.original.destination)
  let ports := toBe direction.original.sourcePort ++ toBe direction.original.destinationPort
  let transportChecksum ← inverseTransportChecksum view direction ports
  writeBytes checksumOffset (toBe ipChecksum) view
  if let some (offset, checksum) := transportChecksum then
    writeBytes offset (toBe checksum) view
  writeBytes sourceOffset (head4 direction.original.source) view
  writeBytes destinationOffset (head4 direction.original.destination) view
  if view.ports then writeBytes view.transportOffset ports view

/-- mirrors packet.rs:415-444 -/
def restore (view : ParsedPacket) (direction : Direction) : Editor Unit := do
  validateEdit view direction
  if view.tuple.family = familyIpv4 then restoreIpv4 view direction
  else if view.tuple.family = familyIpv6 then
    writeBytes (view.networkOffset + 8) direction.original.source.toList view
    writeBytes (view.networkOffset + 24) direction.original.destination.toList view
  else throw (view.error EPROTONOSUPPORT)
  writeBytes 0 direction.originalDestinationMac.toList view
  writeBytes ETHERNET_ADDRESS_LENGTH direction.originalSourceMac.toList view

/-- mirrors packet.rs:616-647 -/
def setHopLimit (view : ParsedPacket) (ttl : UInt8) : Editor Unit := do
  if view.tuple.family = familyIpv4 then
    let ttlOffset := view.networkOffset + 8
    let checksumOffset := view.networkOffset + 10
    let frame ← get
    let old ← orError view (readRange frame ttlOffset 2)
    let checksum ← orError view (readU16 frame checksumOffset)
    let checksum ← orError view (checksumReplace checksum old [ttl, view.tuple.protocol])
    writeBytes checksumOffset (toBe checksum) view
    writeBytes ttlOffset [ttl] view
  else if view.tuple.family = familyIpv6 then
    writeBytes (view.networkOffset + 7) [ttl] view
  else throw (view.error EPROTONOSUPPORT)

/-- mirrors packet.rs:554-572 -/
def forward (view : ParsedPacket) (direction : Direction) : Editor Unit := do
  validateEdit view direction
  if view.ttl = 0 then throw (view.error EBADMSG)
  setHopLimit view (view.ttl - 1)
  writeBytes 0 direction.outputDestinationMac.toList view
  writeBytes ETHERNET_ADDRESS_LENGTH direction.outputSourceMac.toList view

/-- mirrors packet.rs:574-614 -/
def restoreForwarded (view : ParsedPacket) (direction : Direction) : Editor Unit := do
  validateEdit view direction
  if view.ttl = 0 then throw (view.error EBADMSG)
  let forwardedTtl := view.ttl - 1
  let ttlField ←
    if view.tuple.family = familyIpv4 then pure 8
    else if view.tuple.family = familyIpv6 then pure 7
    else throw (view.error EPROTONOSUPPORT)
  let ttlOffset := view.networkOffset + ttlField
  let frame ← get
  if readU8 frame ttlOffset ≠ some forwardedTtl ∨
      readRange frame 0 ETHERNET_ADDRESS_LENGTH ≠ some direction.outputDestinationMac.toList ∨
      readRange frame ETHERNET_ADDRESS_LENGTH ETHERNET_ADDRESS_LENGTH ≠
        some direction.outputSourceMac.toList then
    throw (view.error EBADMSG)
  writeBytes ttlOffset [view.ttl] view
  if view.tuple.family = familyIpv4 then
    writeBytes (view.networkOffset + 10) (toBe view.ipv4Checksum) view
  restore view direction

end Mwan.Native

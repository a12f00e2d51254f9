import Mwan.Core.Clock
import Mwan.Core.Exec
import Mwan.L3Protocol.Npt.Address

/-!
# DHCPv6 leases (`gateway/internal/netif/dhcpv6.go`)

`parseDHCPv6` makes a lease of a server's message: the prefix association and
the address association, each fresh from the message, kept from the previous
lease, or empty. `compatibleDHCPv6Lease` decides after a restart whether a
stored lease may still be used.

The two associations are parsed alike; they differ in the type of what they
assign and in which values they accept, which are parameters here. A lifetime
and a timer of a message are 32-bit numbers of seconds. The options are the
values the DHCPv6 library decodes; a server identifier it decoded decodes
again, and a prefix is the one `netip.ParsePrefix` reads.
-/
namespace Mwan.Dhcp

open Mwan.Core Mwan.Core.Exec
open Mwan.Npt (NetipAddr Prefix byteOf)

/-! ## Addresses -/

/-- `netip.AddrFromSlice` -/
def addrFromSlice (slice : List UInt8) : NetipAddr :=
  if slice.length = 4 then .v4 (Vector.ofFn fun i => slice[i.val]?.getD 0)
  else if slice.length = 16 then .v6 (Vector.ofFn fun i => slice[i.val]?.getD 0) ""
  else .invalid

/-- `Addr.IsUnspecified` -/
def isUnspecified : NetipAddr → Bool
  | .invalid => false
  | .v4 b => b.toList.all (· = 0)
  | .v6 a zone => zone = "" && a.toList.all (· = 0)

/-- `Addr.IsMulticast`; an IPv4-mapped address counts as the IPv4 one. -/
def isMulticastAddr : NetipAddr → Bool
  | .invalid => false
  | .v4 b => b.toList.headD 0 &&& 0xf0 = 0xe0
  | .v6 a zone =>
    if (NetipAddr.v6 a zone).is4In6 then byteOf a 12 &&& 0xf0 = 0xe0 else byteOf a 0 = 0xff

/-- `Addr.IsLinkLocalUnicast` of an IPv6 address that is not IPv4-mapped:
`fe80::/10` -/
def isLinkLocalUnicast6 : NetipAddr → Bool
  | .v6 a _ => byteOf a 0 = 0xfe && byteOf a 1 &&& 0xc0 = 0x80
  | _ => false

/-! ## Messages -/

/-- A lifetime or timer of a message as a duration. -/
def ofSeconds (s : UInt32) : Int := second * s.toNat

/-- One address or prefix of an association. `status` is the code of its status
option, where zero is success. -/
structure IAOption (ρ : Type) where
  value : ρ
  preferredLifetime : UInt32
  validLifetime : UInt32
  status : Option UInt16

/-- An IA_NA or IA_PD option. -/
structure IA (ρ : Type) where
  iaid : UInt32
  t1 : UInt32
  t2 : UInt32
  status : Option UInt16
  options : List (IAOption ρ)

/-- A prefix as `netip.ParsePrefix` returns it. -/
abbrev ParsedPrefix := {p : Prefix // p.bits.isSome = true}

/-- What the client reads of a server's message. `decodes` says which bytes
`DUIDFromBytes` accepts. A prefix is `none` where the option has none or its
text is no prefix. -/
structure Message (decodes : List UInt8 → Bool) where
  serverID : Option (List UInt8)
  serverDecodes : ∀ id ∈ serverID, id ≠ [] ∧ decodes id = true
  clientID : Option (List UInt8)
  status : Option UInt16
  iapd : List (IA (Option ParsedPrefix))
  iana : List (IA (List UInt8))
  dns : List (List UInt8)

/-- mirrors dhcpv6.go:24-35 without the clock and the
cached lease, which are arguments where they are used -/
structure DHCPv6PDConfig where
  iface : String
  duid : List UInt8
  iaid : UInt32
  ianaiaid : UInt32
  requestAddress : Bool
  requestPrefix : Bool
  hint : Option Prefix
  waitForRA : Bool
  useDNS : Bool

/-- The name, index and hardware address of a link. -/
structure Interface where
  name : String
  index : Int
  hardwareAddr : List UInt8

/-! ## Leases -/

/-- mirrors dhcpv6.go:38-49: `DelegatedPrefix` and
`DelegatedAddress` -/
structure Delegated (α : Type) where
  value : α
  preferredUntil : Time
  validUntil : Time
  deriving DecidableEq

/-- An association of a lease with its two timers. -/
structure Association (α : Type) where
  items : List (Delegated α) := []
  renewAt : Time := .zero
  rebindAt : Time := .zero
  deriving DecidableEq

/-- mirrors dhcpv6.go:52-73. `prefixes` holds `Prefixes`,
`RenewAt` and `RebindAt`, `addresses` holds `Addresses`, `IANARenewAt` and
`IANARebindAt`. -/
structure DHCPv6PDLease where
  linkName : String
  linkIndex : Int
  linkHardwareAddr : List UInt8
  duid : List UInt8
  iaid : UInt32
  ianaiaid : UInt32
  serverID : List UInt8
  acquiredAt : Time
  prefixes : Association Prefix
  addresses : Association NetipAddr
  requestAddress : Bool
  requestPrefix : Bool
  hint : Option Prefix
  waitForRA : Bool
  useDNS : Bool
  dns : List NetipAddr
  deriving DecidableEq

namespace DHCPv6PDLease

def isEmpty (lease : DHCPv6PDLease) : Bool :=
  lease.prefixes.items.isEmpty && lease.addresses.items.isEmpty

end DHCPv6PDLease

/-- The assignments whose valid lifetime has not ended. -/
def Association.alive {α : Type} (a : Association α) (now : Time) : Association α :=
  { a with items := a.items.filter fun item => now.before item.validUntil }

/-- mirrors dhcpv6.go:689-708 -/
def expireDHCPv6Assignments (lease : DHCPv6PDLease) (now : Time) : DHCPv6PDLease :=
  let lease :=
    { lease with prefixes := lease.prefixes.alive now, addresses := lease.addresses.alive now }
  if lease.isEmpty then { lease with dns := [] } else lease

/-- The later of the times an association's assignments are valid until. -/
def Association.latest {α : Type} (a : Association α) (latest : Time) : Time :=
  a.items.foldl (fun latest item =>
    if item.validUntil.after latest then item.validUntil else latest) latest

/-- mirrors dhcpv6.go:952-965 -/
def latestDHCPv6Validity (lease : DHCPv6PDLease) : Time :=
  lease.addresses.latest (lease.prefixes.latest .zero)

/-- mirrors dhcpv6.go:434-443 -/
def mergeMissingDHCPv6 (lease replacement : DHCPv6PDLease) (missing : DHCPv6PDConfig) :
    DHCPv6PDLease :=
  { lease with
    prefixes := if missing.requestPrefix then replacement.prefixes else lease.prefixes
    addresses := if missing.requestAddress then replacement.addresses else lease.addresses
    serverID := replacement.serverID
    dns := replacement.dns }

/-- mirrors dhcpv6.go:638-656, the change of the lease -/
def declineDHCPv6Address (lease : DHCPv6PDLease) (address : NetipAddr) : DHCPv6PDLease :=
  if address ≠ .invalid ∧ lease.addresses.items.any (fun item => item.value = address) then
    let lease :=
      { lease with
        addresses.items := lease.addresses.items.filter fun item => item.value ≠ address }
    if lease.isEmpty then { lease with dns := [] } else lease
  else lease

/-- An association with its times moved. -/
def Association.mapTimes {α : Type} (f : Time → Time) (a : Association α) : Association α where
  items := a.items.map fun item =>
    { item with preferredUntil := f item.preferredUntil, validUntil := f item.validUntil }
  renewAt := f a.renewAt
  rebindAt := f a.rebindAt

/-- The lease with its times moved. -/
def DHCPv6PDLease.mapTimes (f : Time → Time) (lease : DHCPv6PDLease) : DHCPv6PDLease :=
  { lease with
    acquiredAt := f lease.acquiredAt
    prefixes := lease.prefixes.mapTimes f
    addresses := lease.addresses.mapTimes f }

/-! ## The check after a restart -/

/-- The conditions on one association: its values are valid, each valid until
some time and preferred no longer than that, and its timers are in order. -/
def validAssociation {α : Type} (valid : α → Bool) (a : Association α) : Bool :=
  (a.items.all fun item =>
    valid item.value && !item.validUntil.isZero && !item.preferredUntil.after item.validUntil) &&
  (a.items.isEmpty || (!a.renewAt.isZero && a.renewAt.before a.rebindAt))

/-- `Prefix.IsValid` -/
def prefixIsValid (p : Prefix) : Bool := p.bits.isSome

/-- `Addr.IsValid` -/
def addrIsValid (a : NetipAddr) : Bool := a ≠ .invalid

/-- A DNS server the client keeps. -/
def dnsUsable (server : NetipAddr) : Bool :=
  server.is6 && !isUnspecified server && !isMulticastAddr server

/-- mirrors dhcpv6.go:465-491 -/
def validDHCPv6CachedDeadlines (cached : DHCPv6PDLease) : Bool :=
  (cached.useDNS || cached.dns.isEmpty) && cached.dns.all dnsUsable &&
    validAssociation prefixIsValid cached.prefixes &&
    validAssociation addrIsValid cached.addresses

/-- The identity and configuration of the lease are those of the client. -/
def sameClient (config : DHCPv6PDConfig) (link : Interface) (cached : DHCPv6PDLease) : Bool :=
  cached.duid = config.duid && cached.iaid = config.iaid && cached.ianaiaid = config.ianaiaid &&
    cached.requestAddress = config.requestAddress && cached.requestPrefix = config.requestPrefix &&
    cached.hint = config.hint && cached.waitForRA = config.waitForRA &&
    cached.useDNS = config.useDNS && cached.linkName = link.name &&
    cached.linkHardwareAddr = link.hardwareAddr

/-- mirrors dhcpv6.go:447-463; `now` is what the clock
of the configuration reads -/
def compatibleDHCPv6Lease (decodes : List UInt8 → Bool) (config : DHCPv6PDConfig) (link : Interface)
    (now : Time) (cached : DHCPv6PDLease) : Bool :=
  sameClient config link cached &&
    !(cached.serverID.isEmpty || cached.acquiredAt.isZero || cached.acquiredAt.after now) &&
    decodes cached.serverID &&
    (config.requestPrefix || cached.prefixes.items.isEmpty) &&
    (config.requestAddress || cached.addresses.items.isEmpty) &&
    validDHCPv6CachedDeadlines cached && now.before (latestDHCPv6Validity cached)

/-! ## Parsing a message -/

inductive ParseError
  | identityMismatch
  | serverChanged
  | status (code : UInt16)
  | duplicateIAPD
  | duplicateIANA
  | noValidAssociation
  deriving DecidableEq

/-- mirrors dhcpv6.go:893-895 -/
def successfulDHCPv6Status (status : Option UInt16) : Bool := status.all (· = 0)

/-- `shortest * 4 / 5` on 64-bit durations -/
def fourFifths (shortest : Int) : Int := (wrap64 (shortest * 4)).tdiv 5

/-- The timers of the message, or fractions of the shortest lifetime where
they cannot be used.
mirrors dhcpv6.go:897-902 -/
def dhcpv6Timers (now : Time) (t1 t2 shortest : Int) : Time × Time :=
  if t1 ≤ 0 ∨ t2 ≤ 0 ∨ t1 ≥ t2 ∨ t2 ≥ shortest then
    (now.add (shortest.tdiv 2), now.add (fourFifths shortest))
  else (now.add t1, now.add t2)

section Association

variable {ρ α : Type} (accept : ρ → Option α)

/-- The assignment an option gives, `none` where it is skipped. -/
def acceptedOption (now : Time) (option : IAOption ρ) : Option (Delegated α) :=
  if ofSeconds option.validLifetime ≤ 0 ∨
      ofSeconds option.preferredLifetime > ofSeconds option.validLifetime ∨
      successfulDHCPv6Status option.status = false then none
  else
    (accept option.value).map fun value =>
      { value
        preferredUntil := now.add (ofSeconds option.preferredLifetime)
        validUntil := now.add (ofSeconds option.validLifetime) }

/-- The shortest lifetime with one more, where zero is none so far. -/
def shorter (shortest valid : Int) : Int :=
  if shortest = 0 ∨ valid < shortest then valid else shortest

/-- One pass of the loop: the assignments so far and the shortest lifetime. -/
def acceptStep (now : Time) (found : List (Delegated α) × Int) (option : IAOption ρ) :
    List (Delegated α) × Int :=
  match acceptedOption accept now option with
  | none => found
  | some item => (found.1 ++ [item], shorter found.2 (ofSeconds option.validLifetime))

/-- mirrors dhcpv6.go:904-946: the assignments of an
association and their shortest valid lifetime, zero where there are none -/
def acceptedItems (ia : IA ρ) (now : Time) : List (Delegated α) × Int :=
  ia.options.foldl (acceptStep accept now) ([], 0)

/-- The option with the identifier, an error where there are two. -/
def findAssociation (duplicate : ParseError) (iaid : UInt32) (ias : List (IA ρ)) :
    Except ParseError (Option (IA ρ)) :=
  match ias.filter fun candidate => candidate.iaid = iaid with
  | [] => pure none
  | [association] => pure (some association)
  | _ => throw duplicate

/-- An association the message leaves out is kept; its renewal is put off. -/
def keptAssociation (previous : Option (Association α)) (now : Time) : Association α :=
  match previous with
  | none => {}
  | some previous =>
    { previous with
      renewAt :=
        if previous.renewAt.before (now.add (30 * second)) then now.add (30 * second)
        else previous.renewAt }

/-- The association an option of the message gives. -/
def freshAssociation (association : IA ρ) (now : Time) : Association α :=
  if successfulDHCPv6Status association.status = false then {}
  else
    let found := acceptedItems accept association now
    if found.2 = 0 then {}
    else
      let timers :=
        dhcpv6Timers now (ofSeconds association.t1) (ofSeconds association.t2) found.2
      { items := found.1, renewAt := timers.1, rebindAt := timers.2 }

/-- mirrors dhcpv6.go:829-891: the association and
whether the message had it -/
def parseAssociation (duplicate : ParseError) (iaid : UInt32) (ias : List (IA ρ))
    (previous : Option (Association α)) (now : Time) : Except ParseError (Association α × Bool) := do
  match ← findAssociation duplicate iaid ias with
  | none => pure (keptAssociation previous now, false)
  | some association => pure (freshAssociation accept association now, true)

end Association

/-- mirrors dhcpv6.go:936-939 -/
def acceptedPrefix (value : Option ParsedPrefix) : Option Prefix :=
  value.bind fun p =>
    if p.1.addr.is6 = false ∨ p.1.length > 64 then none else some p.1.masked

/-- mirrors dhcpv6.go:914-917 -/
def acceptedAddress (slice : List UInt8) : Option NetipAddr :=
  let address := addrFromSlice slice
  if address.is6 = false ∨ address.is4In6 ∨ isMulticastAddr address ∨ isUnspecified address ∨
      isLinkLocalUnicast6 address then none
  else some address

section Parse

variable {decodes : List UInt8 → Bool}

/-- mirrors dhcpv6.go:829-859 -/
def parseDHCPv6PrefixAssociation (message : Message decodes) (iaid : UInt32)
    (previous : Option DHCPv6PDLease) (now : Time) :
    Except ParseError (Association Prefix × Bool) :=
  parseAssociation acceptedPrefix .duplicateIAPD iaid message.iapd (previous.map (·.prefixes)) now

/-- mirrors dhcpv6.go:861-891 -/
def parseDHCPv6AddressAssociation (message : Message decodes) (iaid : UInt32)
    (previous : Option DHCPv6PDLease) (now : Time) :
    Except ParseError (Association NetipAddr × Bool) :=
  parseAssociation acceptedAddress .duplicateIANA iaid message.iana (previous.map (·.addresses)) now

/-- mirrors dhcpv6_dns.go:9-21 -/
def dhcpv6DNS (message : Message decodes) (enabled : Bool) : List NetipAddr :=
  if enabled then (message.dns.map addrFromSlice).filter dnsUsable else []

/-- The association where it is requested, else an empty one. -/
def requested {α : Type} (request : Bool) (parse : Except ParseError (Association α × Bool)) :
    Except ParseError (Association α × Bool) :=
  if request then parse else pure ({}, false)

/-- The lease before its expired assignments are dropped. -/
def parsedLease (message : Message decodes) (config : DHCPv6PDConfig) (link : Interface) (now : Time)
    (server : List UInt8) (prefixes : Association Prefix) (addresses : Association NetipAddr) :
    DHCPv6PDLease where
  linkName := link.name
  linkIndex := link.index
  linkHardwareAddr := link.hardwareAddr
  duid := config.duid
  iaid := config.iaid
  ianaiaid := config.ianaiaid
  serverID := server
  acquiredAt := now
  prefixes := prefixes
  addresses := addresses
  requestAddress := config.requestAddress
  requestPrefix := config.requestPrefix
  hint := config.hint
  waitForRA := config.waitForRA
  useDNS := config.useDNS
  dns := dhcpv6DNS message config.useDNS

/-- mirrors dhcpv6.go:780-827; `now` is what the clock
of the configuration reads -/
def parseDHCPv6 (message : Message decodes) (config : DHCPv6PDConfig) (expectedServer : List UInt8)
    (link : Interface) (previous : Option DHCPv6PDLease) (now : Time) :
    Except ParseError DHCPv6PDLease := do
  match message.serverID with
  | none => throw .identityMismatch
  | some server =>
    refuse (message.clientID ≠ some config.duid) .identityMismatch
    refuse (expectedServer ≠ [] ∧ server ≠ expectedServer) .serverChanged
    refuse (successfulDHCPv6Status message.status = false) (.status (message.status.getD 0))
    let (prefixes, responded) ← requested config.requestPrefix
      (parseDHCPv6PrefixAssociation message config.iaid previous now)
    let (addresses, addressResponded) ← requested config.requestAddress
      (parseDHCPv6AddressAssociation message config.ianaiaid previous now)
    let lease :=
      expireDHCPv6Assignments (parsedLease message config link now server prefixes addresses) now
    refuse (lease.isEmpty = true ∧
      ¬(previous.isSome = true ∧ (responded = true ∨ addressResponded = true))) .noValidAssociation
    pure lease

end Parse

end Mwan.Dhcp

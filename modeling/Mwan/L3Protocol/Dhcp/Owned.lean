import Mathlib.Data.List.Sort
import Mwan.Core.Durable
import Mwan.L3Protocol.Dhcp.Lease

/-!
# Ownership of DHCPv4 addresses and routes (`gateway/internal/netif/owned_dhcpv4.go`)

The reconciler records each address and route of a lease in a journal before it
writes it to the kernel, and removes a record after the object is gone. One
journal serves several consumers.

The kernel is what the code reads and writes of it: links by their index,
addresses, routes and the `promote_secondaries` setting of a link. An object
carries the record it was written for, or none where another agent wrote it;
the code does not see that. Prefixes and gateways are values instead of texts,
an absent one is `none`. A cancelled context, which ends a call before it does
anything, is left out.
-/
namespace Mwan.Dhcp

open Mwan.Core Mwan.Core.Exec

/-! ## Records -/

abbrev CIDR := IPv4 × Nat

/-- mirrors owned_dhcpv4.go:23-35 -/
structure OwnedObject where
  consumerID : String
  connectionID : String
  linkName : String := ""
  linkIndex : Int := 0
  linkIdentity : String := ""
  tableID : Int
  cidr : Option CIDR := none
  destination : Option CIDR := none
  gateway : Option IPv4 := none
  metric : Int := 0
  legacyProtocol : Int := 0
  deriving DecidableEq

/-- mirrors owned_dhcpv4.go:44-51; the setting is `0` or
`1` -/
structure OwnedPromotion where
  consumerID : String
  connectionID : String
  linkName : String
  linkIndex : Int
  linkIdentity : String
  previous : Bool
  deriving DecidableEq

/-- mirrors owned_dhcpv4.go:37-42 -/
structure OwnedJournal where
  objects : List OwnedObject := []
  promotion : List OwnedPromotion := []
  legacyChecked : List String := []

/-- The kernel's protocol for routes that were set at boot. -/
def routeProtocolBoot : Int := 3

/-- mirrors owned_dhcpv4.go:116-118 -/
def sameOwner (a b : OwnedObject) : Bool :=
  a.consumerID = b.consumerID && a.connectionID = b.connectionID

/-- An address has nothing of a route; a route has a destination and a gateway,
and the protocol it was found with if that is not the reconciler's own. -/
def OwnedObject.Shaped (value : OwnedObject) : Prop :=
  match value.cidr with
  | some _ =>
    value.destination = none ∧ value.gateway = none ∧ value.metric = 0 ∧ value.legacyProtocol = 0
  | none =>
    value.destination.isSome = true ∧ value.gateway.isSome = true ∧
      (value.legacyProtocol = 0 ∨ value.legacyProtocol = routeProtocolBoot)

variable {a b : OwnedObject}

theorem sameOwner_iff :
    sameOwner a b = true ↔ a.consumerID = b.consumerID ∧ a.connectionID = b.connectionID := by
  simp [sameOwner]

theorem sameOwner_trans {c : OwnedObject} (h : sameOwner a b = true) (h' : sameOwner b c = true) :
    sameOwner a c = true := by
  rw [sameOwner_iff] at h h' ⊢
  exact ⟨h.1.trans h'.1, h.2.trans h'.2⟩

/-- mirrors owned_dhcpv4.go:120-122 -/
def sameLink (a b : OwnedObject) : Bool :=
  a.linkIndex = b.linkIndex && a.linkIdentity = b.linkIdentity && a.linkName = b.linkName

/-- mirrors owned_dhcpv4.go:124-128 -/
def sameObject (a b : OwnedObject) : Bool :=
  sameOwner a b && sameLink a b && a.tableID = b.tableID && a.cidr = b.cidr &&
    a.destination = b.destination && a.gateway = b.gateway && a.metric = b.metric &&
    a.legacyProtocol = b.legacyProtocol

/-- Every field is compared. -/
theorem sameObject_iff : sameObject a b = true ↔ a = b := by
  constructor
  · intro h
    simp only [sameObject, sameOwner, sameLink, Bool.and_eq_true, decide_eq_true_eq] at h
    cases a
    cases b
    simp_all
  · rintro rfl
    simp [sameObject, sameOwner, sameLink]

/-! ## The kernel -/

structure Link where
  name : String
  identity : String
  deriving DecidableEq

structure KernelAddress where
  link : Int
  cidr : CIDR
  scope : Int := 0
  writer : Option OwnedObject := none
  deriving DecidableEq

/-- A default route has the destination `0.0.0.0/0`. -/
structure KernelRoute where
  table : Int
  dst : CIDR
  priority : Int
  protocol : Int
  link : Int
  gw : Option IPv4
  multiPath : Bool := false
  writer : Option OwnedObject := none
  deriving DecidableEq

structure Kernel where
  links : List (Int × Link)
  addresses : List KernelAddress := []
  routes : List KernelRoute := []
  promote : Int → Bool := fun _ => false

namespace Kernel

def linkByName (k : Kernel) (name : String) : Option (Int × Link) :=
  k.links.find? fun link => link.2.name = name

def linkByIndex (k : Kernel) (index : Int) : Option Link := k.links.lookup index

/-- `LinkMatchesIdentity` of the link with this index. -/
def hasLink (k : Kernel) (index : Int) (identity : String) : Bool :=
  (k.linkByIndex index).any fun link => link.identity = identity

def addrAdd (k : Kernel) (a : KernelAddress) : Option Kernel :=
  if k.addresses.any fun b => b.link = a.link && b.cidr = a.cidr then none
  else some { k with addresses := k.addresses ++ [a] }

def addrReplace (k : Kernel) (a : KernelAddress) : Option Kernel :=
  some { k with
    addresses := (k.addresses.filter fun b => !(b.link = a.link && b.cidr = a.cidr)) ++ [a] }

def addrDel (k : Kernel) (link : Int) (cidr : CIDR) : Option Kernel :=
  some { k with addresses := k.addresses.filter fun b => !(b.link = link && b.cidr = cidr) }

/-- Two routes of one table, destination and priority exclude each other. -/
def sameKey (r s : KernelRoute) : Bool :=
  r.table = s.table && r.dst = s.dst && r.priority = s.priority

theorem sameKey_iff {r s : KernelRoute} :
    sameKey r s = true ↔ r.table = s.table ∧ r.dst = s.dst ∧ r.priority = s.priority := by
  simp [sameKey, and_assoc]

def routeAdd (k : Kernel) (r : KernelRoute) : Option Kernel :=
  if k.routes.any (sameKey r) then none else some { k with routes := k.routes ++ [r] }

/-- The first route of the same key goes. -/
def routeReplace (k : Kernel) (r : KernelRoute) : Option Kernel :=
  some { k with routes := k.routes.eraseP (sameKey r) ++ [r] }

def routeDel (k : Kernel) (r : KernelRoute) : Option Kernel :=
  some { k with routes := k.routes.filter fun s =>
    !(sameKey r s && s.protocol = r.protocol && s.link = r.link && s.gw = r.gw &&
      s.multiPath = r.multiPath) }

def setPromotion (k : Kernel) (name : String) (value : Bool) : Option Kernel :=
  (k.linkByName name).map fun link => { k with promote := Function.update k.promote link.1 value }

end Kernel

/-! ## Programs -/

/-- Why a call fails. -/
inductive OwnedError
  | invalidInput
  | unsupportedState (state : LeaseState)
  | linkLookup
  | listAddresses
  | listRoutes
  | writeAddress
  | writeRoute
  | removeAddress
  | removeRoute
  | promotionRead
  | promotionWrite
  | promotionChanged
  | journal
  | invalidLeaseAddress
  | invalidLeaseRoute
  | invalidRouteGateway
  | conflictingGateways
  | unidentifiedAddress
  | foreignAddress
  | addressWithoutOwnership
  | foreignRoute
  | foreignDefault
  | multipleDefaults
  deriving DecidableEq, Repr

abbrev Owner (α : Type) := Prog OwnedError (Desk Kernel OwnedJournal) α

namespace Owner

/-- `netlink.LinkByName`; a missing link is an error. -/
def linkByName (name : String) : Owner (Int × Link) := do
  let link ← Desk.ask .linkLookup fun k => k.linkByName name
  Prog.orFail .linkLookup link

/-- `netlink.LinkByIndex`; a missing link is `none`. -/
def linkByIndex (index : Int) : Owner (Option Link) :=
  Desk.ask .linkLookup fun k => k.linkByIndex index

def addrList (link : Int) : Owner (List KernelAddress) :=
  Desk.ask .listAddresses fun k => k.addresses.filter fun a => a.link = link

def routeList (table : Int) : Owner (List KernelRoute) :=
  Desk.ask .listRoutes fun k => k.routes.filter fun r => r.table = table

end Owner

open Owner

/-! ## The journal -/

/-- mirrors owned_dhcpv4.go:138-145 -/
def OwnedJournal.recorded (journal : OwnedJournal) (value : OwnedObject) : Bool :=
  journal.objects.any fun old => sameObject old value

/-- mirrors owned_dhcpv4.go:147-157 -/
def reserve (value : OwnedObject) : Owner Unit := do
  let books ← Desk.look
  if books.memory.recorded value then pure ()
  else
    Desk.change .journal fun journal => { journal with objects := journal.objects ++ [value] }

/-- mirrors owned_dhcpv4.go:159-173 -/
def forget (value : OwnedObject) : Owner Unit := do
  let books ← Desk.look
  if books.memory.recorded value then
    Desk.change .journal fun journal =>
      { journal with objects := journal.objects.eraseP fun old => sameObject old value }
  else pure ()

/-! ## What a lease asks for -/

def dhcpv4Owner (consumerID connectionID : String) (tableID : Int) : OwnedObject :=
  { consumerID, connectionID, tableID }

/-- The byte whose leading `n` bits are ones. -/
def leadingByte (n : Nat) : UInt8 := if 8 ≤ n then 0xff else UInt8.ofNat (256 - 2 ^ (8 - n))

/-- `Prefix.Masked` -/
def CIDR.masked (p : CIDR) : CIDR :=
  (Vector.ofFn fun i => p.1[i] &&& leadingByte (p.2 - 8 * i), p.2)

/-- `none` for the route of the connected network.
mirrors owned_dhcpv4.go:574-596 -/
def dhcpv4RouteObject (base : OwnedObject) (metric : Int) (connected : CIDR) (route : LeaseRoute) :
    Except OwnedError (Option OwnedObject) := do
  Exec.refuse (32 < route.destination.2) .invalidLeaseRoute
  Exec.refuse (isMulticast route.gateway = true) .invalidRouteGateway
  let destination := CIDR.masked route.destination
  if destination = connected then pure none
  else
    pure (some { base with
      destination := some destination, gateway := some route.gateway, metric })

/-- One more route among those wanted so far.
mirrors owned_dhcpv4.go:534-549 -/
def addRoute (base : OwnedObject) (metric : Int) (connected : CIDR) (desired : List OwnedObject)
    (route : LeaseRoute) : Except OwnedError (List OwnedObject) := do
  match ← dhcpv4RouteObject base metric connected route with
  | none => pure desired
  | some value =>
    Exec.refuse (∃ previous ∈ desired, previous.cidr = none ∧
      previous.destination = value.destination ∧ previous.metric = value.metric ∧
      previous.gateway ≠ value.gateway) .conflictingGateways
    pure (if desired.any fun old => sameObject old value then desired else desired ++ [value])

/-- Addresses first, then routes without a gateway, then the longer prefixes.
mirrors owned_dhcpv4.go:550-570 -/
def installBefore (a b : OwnedObject) : Bool :=
  if a.cidr.isSome then true
  else if b.cidr.isSome then false
  else if a.gateway = some ipv4Zero ∧ b.gateway ≠ some ipv4Zero then true
  else if b.gateway = some ipv4Zero ∧ a.gateway ≠ some ipv4Zero then false
  else (b.destination.map (·.2)).getD 0 ≤ (a.destination.map (·.2)).getD 0

/-- mirrors owned_dhcpv4.go:521-572 -/
def dhcpv4Desired (base : OwnedObject) (metric : Int) (lease : LeaseInfo) :
    Except OwnedError (List OwnedObject) :=
  match lease.ip with
  | none => throw .invalidLeaseAddress
  | some address => do
    Exec.refuse (32 < lease.prefixLen) .invalidLeaseAddress
    let routes : List LeaseRoute :=
      match lease.routes, lease.gateway with
      | [], some gateway => [⟨(ipv4Zero, 0), gateway⟩]
      | routes, _ => routes
    let desired ← routes.foldlM
      (addRoute base metric (CIDR.masked (address, lease.prefixLen)))
      [{ base with cidr := some (address, lease.prefixLen) }]
    pure (desired.insertionSort fun a b => installBefore a b = true)

/-- What a lease asks for is an address or a route of the base. -/
def IsWanted (base : OwnedObject) (metric : Int) (value : OwnedObject) : Prop :=
  (∃ c, value = { base with cidr := some c }) ∨
    ∃ d g, value = { base with destination := some d, gateway := some g, metric }

variable {base value : OwnedObject} {metric : Int}

theorem IsWanted.shaped (h : IsWanted base metric value) (hcidr : base.cidr = none)
    (hdestination : base.destination = none) (hgateway : base.gateway = none)
    (hmetric : base.metric = 0) (hlegacy : base.legacyProtocol = 0) : value.Shaped := by
  rcases h with ⟨c, rfl⟩ | ⟨d, g, rfl⟩
  · exact ⟨hdestination, hgateway, hmetric, hlegacy⟩
  · simp [OwnedObject.Shaped, hcidr, hlegacy]

/-- What a wanted object has of its base. -/
theorem IsWanted.like (h : IsWanted base metric value) :
    sameOwner value base = true ∧ value.linkIndex = base.linkIndex ∧
      value.linkIdentity = base.linkIdentity ∧ value.legacyProtocol = base.legacyProtocol := by
  rcases h with ⟨c, rfl⟩ | ⟨d, g, rfl⟩ <;> exact ⟨sameOwner_iff.mpr ⟨rfl, rfl⟩, rfl, rfl, rfl⟩

variable {connected : CIDR} {route : LeaseRoute}

theorem dhcpv4RouteObject_wanted
    (h : dhcpv4RouteObject base metric connected route = .ok (some value)) :
    ∃ d g, value = { base with destination := some d, gateway := some g, metric } := by
  simp only [dhcpv4RouteObject, except_bind_eq_ok, refuse_eq_ok, exists_const, except_ite_eq_ok,
    except_pure_eq_ok] at h
  obtain ⟨-, -, ⟨-, hnone⟩ | ⟨-, hsome⟩⟩ := h
  · cases hnone
  · exact ⟨_, _, Option.some.inj hsome⟩

variable {desired : List OwnedObject}

theorem addRoute_wanted {desired' : List OwnedObject}
    (hall : desired ≠ [] ∧ ∀ value ∈ desired, IsWanted base metric value)
    (h : addRoute base metric connected desired route = .ok desired') :
    desired' ≠ [] ∧ ∀ value ∈ desired', IsWanted base metric value := by
  unfold addRoute at h
  rw [except_bind_eq_ok] at h
  obtain ⟨found, hfound, h⟩ := h
  cases found with
  | none =>
    obtain rfl := (except_pure_eq_ok _ _).mp h
    exact hall
  | some new =>
    simp only [except_bind_eq_ok, refuse_eq_ok, exists_const, except_pure_eq_ok] at h
    obtain ⟨-, rfl⟩ := h
    split
    · exact hall
    · refine ⟨by simp, List.forall_mem_append.mpr ⟨hall.2, List.forall_mem_singleton.mpr ?_⟩⟩
      exact .inr (dhcpv4RouteObject_wanted hfound)

/-- A lease asks for something, and only for addresses and routes of the base. -/
theorem dhcpv4Desired_wanted {lease : LeaseInfo}
    (h : dhcpv4Desired base metric lease = .ok desired) :
    desired ≠ [] ∧ ∀ value ∈ desired, IsWanted base metric value := by
  unfold dhcpv4Desired at h
  split at h
  · cases h
  · simp only [except_bind_eq_ok, refuse_eq_ok, exists_const, except_pure_eq_ok] at h
    obtain ⟨-, routes, hroutes, rfl⟩ := h
    obtain ⟨hne, hall⟩ := except_foldlM_keeps
      (I := fun l : List OwnedObject => l ≠ [] ∧ ∀ value ∈ l, IsWanted base metric value)
      (fun _ _ _ hl h => addRoute_wanted hl h)
      ⟨List.cons_ne_nil _ _, fun value hv => .inl ⟨_, List.mem_singleton.mp hv⟩⟩ hroutes
    refine ⟨fun hnil => hne ?_, fun value hv => hall value ((List.mem_insertionSort _).mp hv)⟩
    have hlength := List.length_insertionSort (fun a b => installBefore a b = true) routes
    rw [hnil] at hlength
    exact List.length_eq_zero_iff.mp hlength.symm

/-! ## Addresses and routes in the kernel -/

def ownedDHCPv4RouteProtocol : Int := 187

/-- mirrors owned_dhcpv4.go:674-679 -/
def dhcpv4Gateway (gateway : Option IPv4) : Option IPv4 :=
  if gateway = some ipv4Zero then none else gateway

/-- mirrors owned_dhcpv4.go:681-686 -/
def dhcpv4RouteProtocol (value : OwnedObject) : Int :=
  if value.legacyProtocol ≠ 0 then value.legacyProtocol else ownedDHCPv4RouteProtocol

/-- The destination of a recorded route.
mirrors owned_dhcpv4.go:649-658 -/
def dhcpv4RouteMatches (route : KernelRoute) (value : OwnedObject) : Bool :=
  value.destination = some route.dst

/-- mirrors owned_dhcpv4.go:660-672 -/
def OwnedJournal.recordedRoute (journal : OwnedJournal) (route : KernelRoute) (value : OwnedObject) :
    Bool :=
  journal.objects.any fun old =>
    old.cidr.isNone && sameOwner old value && sameLink old value && old.tableID = value.tableID &&
      old.metric = value.metric && dhcpv4RouteMatches route old &&
      route.protocol = dhcpv4RouteProtocol old && route.link = old.linkIndex &&
      route.gw = dhcpv4Gateway old.gateway

/-- The address of a record on its link. -/
def KernelAddress.of (value : OwnedObject) (cidr : CIDR) : KernelAddress :=
  { link := value.linkIndex, cidr, writer := some value }

/-- The route of a record. -/
def KernelRoute.of (value : OwnedObject) (dst : CIDR) : KernelRoute :=
  { table := value.tableID
    dst
    priority := value.metric
    protocol := ownedDHCPv4RouteProtocol
    link := value.linkIndex
    gw := dhcpv4Gateway value.gateway
    writer := some value }

/-- The addresses of a list with this host part but another length that are not
recorded. -/
def foreignVariant (journal : OwnedJournal) (value : OwnedObject) (cidr : CIDR)
    (address : KernelAddress) : Bool :=
  address.cidr.1 = cidr.1 && address.cidr ≠ cidr &&
    !journal.recorded { value with cidr := some address.cidr }

/-- mirrors owned_dhcpv4.go:598-641 -/
def ensureAddress (link : Int) (value : OwnedObject) (cidr : CIDR) : Owner Unit := do
  let addresses ← addrList link
  let books ← Desk.look
  Prog.refuse (addresses.any (foreignVariant books.memory value cidr) = true) .foreignAddress
  let found := addresses.any fun address => address.cidr = cidr
  let replace := addresses.any fun address => address.cidr.1 = cidr.1 && address.cidr ≠ cidr
  Prog.refuse (found = true ∧ books.memory.recorded value = false) .addressWithoutOwnership
  if found then pure ()
  else
    reserve value
    if replace then Desk.act .writeAddress fun k => k.addrReplace (.of value cidr)
    else Desk.act .writeAddress fun k => k.addrAdd (.of value cidr)

/-- mirrors owned_dhcpv4.go:688-738 -/
def ensureRoute (value : OwnedObject) (dst : CIDR) : Owner Unit := do
  let routes ← routeList value.tableID
  let books ← Desk.look
  let same := routes.filter fun route =>
    route.priority = value.metric && dhcpv4RouteMatches route value
  Prog.refuse ((same.any fun route => !books.memory.recordedRoute route value) = true) .foreignRoute
  let current := fun route : KernelRoute =>
    route.protocol = ownedDHCPv4RouteProtocol ∧ route.gw = dhcpv4Gateway value.gateway
  if same.any fun route => current route then pure ()
  else
    reserve value
    if same.isEmpty then Desk.act .writeRoute fun k => k.routeAdd (.of value dst)
    else Desk.act .writeRoute fun k => k.routeReplace (.of value dst)

/-- mirrors owned_dhcpv4.go:764-783 -/
def removeDHCPv4Address (value : OwnedObject) (cidr : CIDR) : Owner Unit := do
  let addresses ← addrList value.linkIndex
  addresses.forM fun address =>
    if address.cidr = cidr then
      Desk.act .removeAddress fun k => k.addrDel value.linkIndex address.cidr
    else pure ()

/-- The kernel's route is the recorded one. -/
def isRecordedRoute (route : KernelRoute) (value : OwnedObject) : Bool :=
  route.priority = value.metric && dhcpv4RouteMatches route value &&
    route.protocol = dhcpv4RouteProtocol value && route.link = value.linkIndex &&
    route.gw = dhcpv4Gateway value.gateway

/-- mirrors owned_dhcpv4.go:785-800 -/
def removeDHCPv4Route (value : OwnedObject) : Owner Unit := do
  let routes ← routeList value.tableID
  routes.forM fun route =>
    if isRecordedRoute route value then Desk.act .removeRoute fun k => k.routeDel route
    else pure ()

/-- mirrors owned_dhcpv4.go:740-762 -/
def remove (value : OwnedObject) : Owner Unit := do
  let link ← linkByIndex value.linkIndex
  if link.any fun link => link.identity = value.linkIdentity then
    match value.cidr with
    | some cidr => removeDHCPv4Address value cidr
    | none => removeDHCPv4Route value
    forget value
  else forget value

/-! ## Promotion of secondary addresses -/

def readPromotion (name : String) : Owner Bool := do
  let value ← Desk.ask .promotionRead fun k => (k.linkByName name).map fun link => k.promote link.1
  Prog.orFail .promotionRead value

def writePromotion (name : String) (value : Bool) : Owner Unit := do
  Desk.act .promotionWrite fun k => k.setPromotion name value
  let actual ← readPromotion name
  Prog.refuse (actual ≠ value) .promotionWrite

/-- mirrors owned_dhcpv4.go:511-519 -/
def forgetPromotion (record : OwnedPromotion) : Owner Unit :=
  Desk.change .journal fun journal => { journal with promotion := journal.promotion.erase record }

/-- The first record of an owner. -/
def OwnedJournal.promotionOf (journal : OwnedJournal) (base : OwnedObject) : Option OwnedPromotion :=
  journal.promotion.find? fun record =>
    record.consumerID = base.consumerID && record.connectionID = base.connectionID

/-- mirrors owned_dhcpv4.go:478-509 -/
def restorePromotion (base : OwnedObject) : Owner Unit := do
  let books ← Desk.look
  match books.memory.promotionOf base with
  | none => pure ()
  | some record =>
    match ← linkByIndex record.linkIndex with
    | none => forgetPromotion record
    | some link =>
      if link.identity = record.linkIdentity then
        let current ← readPromotion link.name
        Prog.refuse (current ≠ true ∧ current ≠ record.previous) .promotionChanged
        if current ≠ record.previous then writePromotion link.name record.previous
        forgetPromotion record
      else forgetPromotion record

/-- The setting is recorded before it is changed. -/
def promote (base : OwnedObject) : Owner Unit := do
  let previous ← readPromotion base.linkName
  Desk.change .journal fun journal => { journal with promotion := journal.promotion ++ [
    { consumerID := base.consumerID, connectionID := base.connectionID, linkName := base.linkName,
      linkIndex := base.linkIndex, linkIdentity := base.linkIdentity, previous }] }
  writePromotion base.linkName true

/-- mirrors owned_dhcpv4.go:439-476 -/
def ensurePromotion (base : OwnedObject) : Owner Unit := do
  let books ← Desk.look
  match books.memory.promotionOf base with
  | none => promote base
  | some record =>
    if record.linkIndex = base.linkIndex ∧ record.linkIdentity = base.linkIdentity ∧
        record.linkName = base.linkName then
      writePromotion base.linkName true
    else
      let old ← linkByIndex record.linkIndex
      if old.any fun link => link.identity = record.linkIdentity then restorePromotion base
      else forgetPromotion record
      promote base

/-! ## Objects of the roles before there was a journal -/

/-- `IP.IsLinkLocalUnicast`: `169.254.0.0/16`. -/
def isLinkLocal (a : IPv4) : Bool := a.toList.take 2 = [169, 254]

/-- mirrors owned_dhcpv4.go:299-327 -/
def legacyAddress (link : Int) (value : OwnedObject) (cidr : CIDR) : Owner Bool := do
  let addresses ← addrList link
  let books ← Desk.look
  Prog.raise (addresses.findSome? fun address =>
    if address.cidr.1 ≠ cidr.1 then
      if address.scope = 0 ∧ isLinkLocal address.cidr.1 = false then some .unidentifiedAddress else none
    else if address.cidr ≠ cidr then some .foreignAddress
    else none)
  pure (addresses.any (fun address => address.cidr = cidr) && !books.memory.recorded value)

/-- mirrors owned_dhcpv4.go:326-363 -/
def legacyDefault (base : OwnedObject) (metric : Int) : Owner (Option OwnedObject) := do
  let routes ← routeList base.tableID
  let books ← Desk.look
  let defaults := routes.filter fun route =>
    route.priority = metric && route.dst.2 = 0 && !books.memory.recordedRoute route base
  match defaults with
  | [] => pure none
  | route :: rest => do
    Prog.refuse (route.protocol ≠ routeProtocolBoot ∨ route.link ≠ base.linkIndex ∨ route.gw = none ∨
      route.multiPath = true) .foreignDefault
    Prog.refuse (rest ≠ []) .multipleDefaults
    pure (some { base with
      destination := some (ipv4Zero, 0), gateway := route.gw, metric
      legacyProtocol := route.protocol })

/-- The consumers that had addresses before there was a journal. -/
def isLegacyRole (consumerID : String) : Bool := consumerID = "oobv4" || consumerID = "mainv4"

/-- mirrors owned_dhcpv4.go:262-297 -/
def adoptLegacy (link : Int) (base address : OwnedObject) (cidr : CIDR) (metric : Int) : Owner Unit := do
  let books ← Desk.look
  if isLegacyRole base.consumerID = false ∨ base.consumerID ∈ books.memory.legacyChecked then
    pure ()
  else
    let adoptAddress ← legacyAddress link address cidr
    let legacyRoute ← legacyDefault base metric
    if adoptAddress then reserve address
    match legacyRoute with
    | some route => reserve route
    | none => pure ()
    Desk.change .journal fun journal =>
      { journal with legacyChecked := journal.legacyChecked ++ [base.consumerID] }

/-! ## Reconciliation -/

/-- The desired routes that meet a route in the kernel that is not recorded. -/
def checkRoutes : List OwnedObject → Owner Unit
  | [] => pure ()
  | value :: rest => do
    let routes ← routeList value.tableID
    let books ← Desk.look
    Prog.refuse ((routes.any fun route => route.priority = value.metric &&
      dhcpv4RouteMatches route value && !books.memory.recordedRoute route value) = true) .foreignRoute
    checkRoutes rest

/-- The address of the kernel is recorded, with its own length.
mirrors owned_dhcpv4.go:412-421 -/
def foreignAddressOf (journal : OwnedJournal) (value : OwnedObject) (address : KernelAddress) : Bool :=
  value.cidr.any fun cidr => address.cidr.1 = cidr.1 &&
    !journal.recorded { value with cidr := some address.cidr }

/-- mirrors owned_dhcpv4.go:395-437 -/
def checkConflicts (link : Int) (desired : List OwnedObject) : Owner Unit := do
  let addresses ← addrList link
  let books ← Desk.look
  Prog.refuse ((desired.any fun value =>
    addresses.any (foreignAddressOf books.memory value)) = true) .foreignAddress
  checkRoutes (desired.filter fun value => value.cidr.isNone)

/-- The base with the link it was found on. -/
def OwnedObject.on (base : OwnedObject) (iface : String) (link : Int × Link) : OwnedObject :=
  { base with linkName := iface, linkIndex := link.1, linkIdentity := link.2.identity }

/-- mirrors owned_dhcpv4.go:222-260 -/
def installBound (iface : String) (metric : Int) (base : OwnedObject) (lease : LeaseInfo) :
    Owner (OwnedObject × List OwnedObject) := do
  let link ← linkByName iface
  let base := base.on iface link
  let desired ← Prog.checked (dhcpv4Desired base metric lease)
  let address := desired.head?.getD base
  adoptLegacy link.1 base address (address.cidr.getD (ipv4Zero, 0)) metric
  checkConflicts link.1 desired
  ensurePromotion base
  desired.forM fun value =>
    match value.cidr with
    | some cidr => ensureAddress link.1 value cidr
    | none => pure ()
  desired.forM fun value =>
    match value.cidr, value.destination with
    | none, some dst => ensureRoute value dst
    | _, _ => pure ()
  pure (base, desired)

/-- Remove the owner's objects that are not wanted.
mirrors owned_dhcpv4.go:204-214 -/
def removeOthers (base : OwnedObject) (desired : List OwnedObject) : Owner Unit := do
  let books ← Desk.look
  books.memory.objects.forM fun old =>
    if sameOwner old base = true ∧ (desired.any fun value => sameObject old value) = false then
      remove old
    else pure ()

/-- Withdraw everything of an owner. -/
def withdraw (base : OwnedObject) : Owner Unit := do
  removeOthers base []
  restorePromotion base

/-- mirrors owned_dhcpv4.go:177-220 -/
def reconcile (consumerID connectionID iface : String) (tableID metric : Int)
    (lease : Option LeaseInfo) : Owner Unit := do
  Prog.refuse (consumerID = "" ∨ connectionID = "" ∨ iface = "" ∨ tableID ≤ 0 ∨ metric < 0)
    .invalidInput
  let base := dhcpv4Owner consumerID connectionID tableID
  match lease with
  | none => withdraw base
  | some lease =>
    match lease.state with
    | .renewing | .rebinding => pure ()
    | .bound => do
      let (base, desired) ← installBound iface metric base lease
      removeOthers base desired
    | .expired => withdraw base
    | state => throw (.unsupportedState state)

/-- mirrors owned_dhcpv4.go:364-393 -/
def pruneConsumer (consumerID : String) : Owner Unit := do
  Prog.refuse (consumerID = "") .invalidInput
  let books ← Desk.look
  books.memory.objects.forM fun old =>
    if old.consumerID = consumerID then remove old else pure ()
  let books ← Desk.look
  books.memory.promotion.forM fun promotion =>
    if promotion.consumerID = consumerID then
      restorePromotion (dhcpv4Owner promotion.consumerID promotion.connectionID 0)
    else pure ()

end Mwan.Dhcp

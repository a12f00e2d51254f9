import Mwan.L3Protocol.Npt.Interfaces
import Mwan.L3Protocol.Npt.Translator

/-!
# Publication of the applied pairs (`npt/npt.go`, `npt/applied_policy.go`, `wanstate/npt.go`)

The module computes the pairs it wants, has the translator write them, and
publishes those it found in place. Native admission relies on what is
published. A change of the published pairs is fenced: `BeginNPTChange`
compares them with the wanted ones and takes the fence if they differ.

What a pass finds out about the delegated prefixes and the addresses is an
input of the pass, as are the failures of its lookups, of nft and of the
guard; the failures of the translator are `Faults`. The interfaces of the
host, their indices and headers stay the same.
-/
namespace Mwan.Npt

open Mwan.Core Mwan.Npt.Bpf

/-! ## Pairs up to their exceptions' order -/

/-- Both lists sorted and compacted are equal: the same addresses.
mirrors equal.go:16-21 -/
def equalExceptions (previous next : List NetipAddr) : Bool :=
  previous.all next.contains && next.all previous.contains

/-- mirrors equal.go:9-13 -/
def equalPair (previous next : PrefixPair) : Bool :=
  previous.id = next.id && previous.internal = next.internal && previous.external = next.external &&
    equalExceptions previous.sourceExceptions next.sourceExceptions &&
    equalExceptions previous.destinationExceptions next.destinationExceptions

/-- The keys whose pair is not the same in both, in no order (the source sorts
them).
mirrors npt.go:131-146 -/
def changedNptPolicies (previous next : Pairs) : List String :=
  (previous.entries.filterMap fun entry =>
    match next.lookup entry.1 with
    | none => some entry.1
    | some current => if equalPair entry.2 current then none else some entry.1) ++
  next.keys.filter fun key => (previous.lookup key).isNone

/-! ## The module -/

inductive TranslationMode
  | native | masquerade | nptv6
  deriving DecidableEq

/-- The fields of a WAN the module reads; `mode` is `none` without a
translation, `internalPrefix` is that of the NPTv6 policy. -/
structure NptWan extends Wan where
  owned : Bool
  mode : Option TranslationMode
  internalPrefix : Prefix

/-- The host: its links with their indices and headers. The WANs' interfaces
and the internal one are different. -/
structure System where
  internalIface : String
  wans : List NptWan
  index : String → Option Nat
  header : Nat → PacketHeader
  links : List Nat
  keys : (wans.map fun wan => wan.key).Nodup
  distinct : ∀ wan ∈ wans, ∀ i, index wan.iface = some i → index internalIface ≠ some i ∧
    ∀ wan' ∈ wans, index wan'.iface = some i → wan' = wan
  listed : ∀ wan ∈ wans, ∀ i, index wan.iface = some i → i ∈ links

def System.config (sys : System) : Config := ⟨sys.internalIface, sys.wans.map NptWan.toWan⟩

/-- The lookups of `interfacePolicies` in one pass. -/
structure Lookups where
  linkFails : String → Bool
  routeReady : Prefix → Nat → Bool

def System.host (sys : System) (lookups : Lookups) : Host where
  linkByName name := if lookups.linkFails name then none else sys.index name
  internalPrefixRouteReady := lookups.routeReady
  packetHeader := sys.header

/-- The fields of a NAT rule that are read again: whether it is a destination
NAT, and the address it matches. -/
structure NatRule where
  dnat : Bool
  address : NetipAddr
  deriving DecidableEq

/-- `wanDesired`; its external prefix is the pair's. -/
structure WanDesired where
  pair : PrefixPair
  rules : List NatRule

/-- The results of `buildWANDesired` for a WAN that is not native. -/
inductive BuildResult
  | failed
  | absent
  | built (desired : WanDesired)

/-- The results of `ensureExternalAddress`; `pending` is `ErrOwnedLinkPending`. -/
inductive EnsureResult
  | ok | pending | failed
  deriving DecidableEq

/-- What a `Reconcile` finds. `otherReady` is the IPv6 readiness of a WAN
without NPTv6. -/
structure PassInput where
  lookups : Lookups
  familyApplied : String → Bool
  build : String → BuildResult
  ensure : String → EnsureResult
  guardFails : Bool
  applyFails : Bool
  hasInterface : String → Bool
  otherReady : String → Bool

/-- What a `prepareLocalIPv6` is called with and finds. -/
structure PrepareInput where
  iface : String
  localAddresses : List NetipAddr
  lookups : Lookups
  build : String → BuildResult
  guardFails : Bool
  removeDnatFails : Bool

/-- The kernel, the published state and the module's own. -/
structure World where
  kernel : Kernel
  published : Pairs
  ready : String → Bool
  fenced : Bool
  activePairs : Pairs
  activeRules : AList fun _ : String => List NatRule

/-- The errors that end a call early. -/
inductive NptError
  /-- "npt: %s IPv6 addresses are not ready; retaining current translation" -/
  | addressesNotReady
  /-- "guard NPT policy change: %w" -/
  | guard
  | build (key : String)
  /-- "npt: %s has no external prefix for local IPv6 preparation" -/
  | noExternalPrefix (key : String)
  /-- "npt: invalid local IPv6 address %s" -/
  | invalidLocal (address : NetipAddr)
  /-- "npt: local IPv6 address %s conflicts with the NPT edge address" -/
  | conflictsWithEdge (address : NetipAddr)
  /-- "npt: %s local IPv6 preparation: %w" -/
  | preparation (key : String) (cause : PolicyError)
  | interfaces (failures : List InterfaceFailure)
  /-- "prepare NPTv6 exceptions: %w" -/
  | translator (cause : TranslatorError)
  /-- "prepare reverse DNAT for %s: %w" -/
  | reverseDnat (iface : String)

/-! ### The wanted pairs -/

/-- `desired`, `pairs` and `delegated` of a pass; `rules` by WAN. -/
structure Wanted where
  rules : AList fun _ : String => List NatRule
  pairs : Pairs
  delegated : AList fun _ : String => Prefix

/-- mirrors npt.go:327-330 -/
def addressesNotApplied (familyApplied : String → Bool) (wan : NptWan) : Bool :=
  wan.owned && wan.mode = some .nptv6 && !familyApplied wan.key

/-- mirrors npt.go:313-325 -/
def unappliedWan (sys : System) (input : PassInput) (w : World) : Bool :=
  sys.wans.any fun wan => addressesNotApplied input.familyApplied wan &&
    match w.activeRules.lookup wan.key with
    | none => true
    | some previous => !previous.isEmpty && (w.activePairs.lookup wan.key).isNone

/-- mirrors npt.go:302-311 -/
def retainCurrentTranslation (w : World) (wan : NptWan) (d : Wanted) : Wanted :=
  let previous := (w.activeRules.lookup wan.key).getD []
  match w.activePairs.lookup wan.key with
  | none => { d with rules := d.rules.insert wan.key previous }
  | some pair =>
    { rules := d.rules.insert wan.key previous
      pairs := d.pairs.insert wan.key pair
      delegated := d.delegated.insert wan.key pair.external }

/-- `masqueradeRule` -/
def masqueradeRule : NatRule := ⟨false, .v6 (Vector.replicate 16 0) ""⟩

/-- A WAN without a translation or with native IPv6 has nothing to build.
mirrors npt.go:704-710 -/
def buildWanDesired (wan : NptWan) (result : BuildResult) : BuildResult :=
  if wan.mode = none ∨ wan.mode = some .native then .absent else result

/-- One WAN of a pass.
mirrors npt.go:213-258 -/
def wantWan (input : PassInput) (w : World) (d : Wanted) (wan : NptWan) : Wanted :=
  if wan.mode = some .masquerade then { d with rules := d.rules.insert wan.key [masqueradeRule] }
  else
    let d := { d with rules := d.rules.insert wan.key [] }
    if addressesNotApplied input.familyApplied wan then retainCurrentTranslation w wan d
    else match buildWanDesired wan (input.build wan.key) with
      | .failed => d
      | .absent => d
      | .built desired =>
        match input.ensure wan.key with
        | .pending => retainCurrentTranslation w wan d
        | .failed => d
        | .ok =>
          { rules := d.rules.insert wan.key desired.rules
            pairs := d.pairs.insert wan.key desired.pair
            delegated := d.delegated.insert wan.key desired.pair.external }

def wanted (sys : System) (input : PassInput) (w : World) : Wanted :=
  sys.wans.foldl (wantWan input w) ⟨∅, ∅, ∅⟩

/-! ### The fence -/

/-- Whether a fence is held, with the changed keys.
mirrors applied_policy.go:11-21 and
gateway/internal/wanstate/npt.go:52-102 -/
def beginPolicyChange (guardFails : Bool) (pairs : Pairs) :
    Prog NptError World (List String × Bool) := do
  let w ← Prog.read
  let changed := changedNptPolicies w.published pairs
  if changed = [] then return ([], false)
  Prog.refuse guardFails .guard
  Prog.update fun w => { w with fenced := true }
  return (changed, true)

/-- mirrors applied_policy.go:33-48 -/
def failAppliedPolicy (changed : List String) (w : World) : World :=
  { w with
    published := changed.foldl (fun pairs key => pairs.erase key) w.published
    ready := fun key => w.ready key && !changed.contains key }

/-- mirrors applied_policy.go:23-31 -/
def finishPolicyChange (changed : List String) (held published : Bool) :
    Prog NptError World Unit := do
  Prog.updateIf (held ∧ published = false) (failAppliedPolicy changed)
  Prog.updateIf held fun w => { w with fenced := false }

/-! ### A pass -/

/-- The translator run on the module's kernel. -/
def translate (f : Faults) (sys : System) (policies : List InterfacePolicy) :
    Prog NptError World (List AttachmentState × Option TranslatorError) :=
  Prog.zoom World.kernel (fun k w => { w with kernel := k }) NptError.translator
    (Bpf.reconcile f sys.header sys.links policies)

/-- mirrors npt.go:478-496 -/
def attachmentsReady (states : List AttachmentState) (index : Nat) : Bool :=
  index ≠ 0 && states.contains ⟨index, .ingress, true⟩ && states.contains ⟨index, .egress, true⟩

/-- The readiness of the pairs by WAN, as the translator's states show it. -/
def bpfReady (built : Built) (states : List AttachmentState) (key : String) : Bool :=
  attachmentsReady states built.internalIndex &&
    built.indices.any fun entry => entry.1 = key && attachmentsReady states entry.2

/-- mirrors npt.go:281-300 -/
def reconcileTranslator (f : Faults) (sys : System) (lookups : Lookups) (pairs : Pairs) :
    Prog NptError World (String → Bool) := do
  let built := interfacePolicies (sys.host lookups) sys.config pairs
  let (states, err) ← translate f sys built.policies
  Prog.updateIf (err.isNone ∧ built.failures = []) fun w => { w with activePairs := pairs }
  return bpfReady built states

/-- `member.V6.Ready` before the comparison of the prefixes.
mirrors npt.go:651-682 -/
def memberReady (input : PassInput) (bpf : String → Bool) (wan : NptWan) : Bool :=
  if wan.mode = some .nptv6 then !input.applyFails && input.hasInterface wan.iface && bpf wan.key
  else input.otherReady wan.key

/-- The pair of a WAN has the prefixes of its readiness. -/
def samePrefixes (d : Wanted) (wan : NptWan) (pair : PrefixPair) : Bool :=
  pair.internal = wan.internalPrefix && d.delegated.lookup wan.key = some pair.external

def verifyWan (input : PassInput) (bpf : String → Bool) (d : Wanted) (verified : Pairs)
    (wan : NptWan) : Pairs :=
  match d.pairs.lookup wan.key with
  | none => verified
  | some pair =>
    if memberReady input bpf wan && samePrefixes d wan pair then verified.insert wan.key pair
    else verified

def verifiedReady (sys : System) (input : PassInput) (bpf : String → Bool) (d : Wanted)
    (key : String) : Bool :=
  sys.wans.any fun wan => wan.key = key && memberReady input bpf wan &&
    match d.pairs.lookup wan.key with
    | none => true
    | some pair => samePrefixes d wan pair

/-- mirrors npt.go:559-617 -/
def publishLiveState (sys : System) (input : PassInput) (bpf : String → Bool) (d : Wanted) :
    Prog NptError World Unit :=
  Prog.update fun w =>
    { w with
      published := sys.wans.foldl (verifyWan input bpf d) ∅
      ready := verifiedReady sys input bpf d }

/-- mirrors npt.go:197-279; the edge
addresses and the joined errors of the lookups are left out. -/
def reconcile (f : Faults) (sys : System) (input : PassInput) : Prog NptError World Unit := do
  let w ← Prog.read
  Prog.refuse (unappliedWan sys input w) .addressesNotReady
  let d := wanted sys input w
  let (changed, held) ← beginPolicyChange input.guardFails d.pairs
  Prog.updateIf (input.applyFails = false) fun w => { w with activeRules := d.rules }
  let bpf ← reconcileTranslator f sys input.lookups d.pairs
  publishLiveState sys input bpf d
  finishPolicyChange changed held true

/-! ### Preparation of local addresses -/

/-- mirrors rules.go:101-105 -/
def externalHostOne (external : Prefix) : NetipAddr :=
  .v6 (setByte (maskAddr external.length external.addr.as16) 15 1) ""

/-- mirrors npt.go:443-456 -/
def addPendingException (pair : PrefixPair) (address : NetipAddr) : Except NptError PrefixPair :=
  if !address.is6 || address.is4In6 || !NetipAddr.isGlobalUnicast6 address.as16 then
    throw (.invalidLocal address)
  else if address = externalHostOne pair.external then throw (.conflictsWithEdge address)
  else if pair.external.bits.isSome && containsFrom pair.external.addr pair.external.length address &&
      !pair.destinationExceptions.contains address then
    pure { pair with destinationExceptions := pair.destinationExceptions ++ [address] }
  else pure pair

/-- One WAN of the preparation.
mirrors npt.go:411-441 -/
def prepareWan (input : PrepareInput) (w : World) (pairs : Pairs) (wan : NptWan) :
    Except NptError Pairs :=
  match buildWanDesired wan (input.build wan.key) with
  | .failed => throw (.build wan.key)
  | .absent =>
    if wan.iface = input.iface then throw (.noExternalPrefix wan.key)
    else match w.activePairs.lookup wan.key with
      | none => pure pairs
      | some previous => pure (pairs.insert wan.key previous)
  | .built desired =>
    if wan.iface = input.iface then do
      let pair ← input.localAddresses.foldlM addPendingException desired.pair
      match validatePair pair with
      | .error cause => throw (.preparation wan.key cause)
      | .ok _ => pure (pairs.insert wan.key pair)
    else pure (pairs.insert wan.key desired.pair)

/-- mirrors npt.go:402-409 -/
def ownsTranslatedIface (sys : System) (iface : String) : Bool :=
  sys.wans.any fun wan => wan.iface = iface && wan.owned && wan.mode = some .nptv6

/-- mirrors applied_policy.go:77-81 -/
def samePreparedPolicyBase (previous next : PrefixPair) : Bool :=
  equalPair { previous with destinationExceptions := [] } { next with destinationExceptions := [] }

/-- One changed key of `publishPreparedPolicy`, on the published pairs and the
readiness. -/
def publishPrepared (sys : System) (iface : String) (pairs : Pairs)
    (state : Pairs × (String → Bool)) (key : String) : Pairs × (String → Bool) :=
  let sameInterface := sys.wans.any fun wan => wan.key = key && wan.iface = iface
  match state.1.lookup key, pairs.lookup key with
  | some previous, some next =>
    if sameInterface && state.2 key && samePreparedPolicyBase previous next then
      (state.1.insert key next, state.2)
    else (state.1.erase key, fun key' => state.2 key' && key' ≠ key)
  | _, _ => (state.1.erase key, fun key' => state.2 key' && key' ≠ key)

/-- mirrors applied_policy.go:50-75 -/
def publishPreparedPolicy (sys : System) (iface : String) (pairs : Pairs) (changed : List String) :
    Prog NptError World Unit :=
  Prog.update fun w =>
    let state := changed.foldl (publishPrepared sys iface pairs) (w.published, w.ready)
    { w with published := state.1, ready := state.2 }

/-- The rules of the prepared interface's WAN, without the destination NAT of
its new addresses.
mirrors npt.go:369-384 -/
def retainRules (sys : System) (input : PrepareInput) (w : World) : World :=
  match sys.wans.find? (·.iface = input.iface) with
  | none => w
  | some wan =>
    match w.activeRules.lookup wan.key with
    | none => w
    | some previous =>
      let kept := previous.filter fun rule =>
        !rule.dnat || !input.localAddresses.contains rule.address
      { w with activeRules := w.activeRules.insert wan.key kept }

/-- The rules of the prepared interface's WANs forgotten.
mirrors npt.go:360-364 -/
def forgetRules (sys : System) (iface : String) (w : World) : World :=
  let wans := sys.wans.filter (·.iface = iface)
  { w with activeRules := wans.foldl (fun rules wan => rules.erase wan.key) w.activeRules }

/-- The part of `prepareLocalIPv6` behind the fence. -/
def prepareFenced (f : Faults) (sys : System) (input : PrepareInput) (pairs : Pairs)
    (policies : List InterfacePolicy) (changed : List String) : Prog NptError World Unit := do
  let (_, err) ← translate f sys policies
  Prog.raise (err.map .translator)
  Prog.update fun w => { w with activePairs := pairs }
  Prog.updateIf input.removeDnatFails (forgetRules sys input.iface)
  Prog.refuse input.removeDnatFails (.reverseDnat input.iface)
  Prog.update (retainRules sys input)
  publishPreparedPolicy sys input.iface pairs changed

/-- mirrors npt.go:332-388; the addresses
remembered are left out. -/
def prepareLocalIpv6 (f : Faults) (sys : System) (input : PrepareInput) :
    Prog NptError World Unit := do
  if input.localAddresses.isEmpty || !ownsTranslatedIface sys input.iface then return ()
  let w ← Prog.read
  let pairs ← Prog.checked (sys.wans.foldlM (prepareWan input w) ∅)
  let built := interfacePolicies (sys.host input.lookups) sys.config pairs
  Prog.refuse (built.failures ≠ []) (.interfaces built.failures)
  let (changed, held) ← beginPolicyChange input.guardFails pairs
  let err ← Prog.err (prepareFenced f sys input pairs built.policies changed)
  finishPolicyChange changed held err.isNone
  Prog.raise err

end Mwan.Npt

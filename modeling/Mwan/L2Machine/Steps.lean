import Mwan.L2Machine.Lifecycle

/-!
# What one change of the owner can be

Every operation of the owner is a sequence of the changes listed here, each
with what the code has checked when it makes it. The invariants of the pair
table, the flows and the packets are proved by cases on them; that the
operations make no other change is proved once (`L2Machine.Operations`).

* `PairStep`: the pair table;
* `PacketStep`: the packet queues;
* `VxlanStep`: the flows of the VXLAN contexts;
* `Frame`: ports, flags, statistics and everything else.
-/
namespace Mwan.Native

open Mwan.Core

/-! ## Notions the guards use -/

/-- `restore_pending` has failed. -/
def World.RestorationFailed (w : World) : Prop := Event.restorationFailed ∈ w.events

/-- Every prepared entry of the transmit queue has its pair installed. -/
def OwnerState.PreparedInstalled (owner : OwnerState) : Prop :=
  ∀ entry ∈ owner.queues.pending, ∀ prepared, entry.prepared = some prepared →
    owner.installed prepared.handle = true

/-- No entry of the transmit queue is prepared. -/
def OwnerState.NonePrepared (owner : OwnerState) : Prop :=
  ∀ entry ∈ owner.queues.pending, entry.prepared = none

/-- The pair admits no direction of the specification's kind of key. -/
def PairSpec.Avoids (config : Config) (spec other : PairSpec) : Prop :=
  ∀ first second, spec.requests first = true → other.requests second = true →
    collision config (spec.directions first) (other.directions second) = false

/-- What `install_pair` has checked about a slot and a specification. -/
structure Admitted (owner : OwnerState) (slot : Nat) (spec : PairSpec) : Prop where
  bound : slot < owner.capacity
  generation : (owner.table.pairs slot).generation ≠ 18446744073709551615
  state : (owner.table.pairs slot).state = .absent ∨ (owner.table.pairs slot).state = .draining
  pairs : ∀ other < owner.capacity, (owner.table.pairs other).state ≠ .absent →
    spec.Avoids owner.config (owner.table.pairs other).spec
  retained : ∀ handle pair, owner.table.retained.lookup handle = some pair →
    spec.Avoids owner.config pair.spec
  directions : spec.requests 0 = true → spec.requests 1 = true →
    collision owner.config (spec.directions 0) (spec.directions 1) = false

/-! ## Changes of the pair table -/

/-- Replace the pair table. -/
def World.setTable (w : World) (table : PairTable) : World :=
  { w with owner := { w.owner with table := table } }

/-- Replace the packet queues. -/
def World.setQueues (w : World) (queues : Queues) : World :=
  { w with owner := { w.owner with queues := queues } }

/-- A change of the pair table. -/
inductive PairStep (w : World) : World → Prop
  /-- `delete_pair` begins. -/
  | drain (slot : Nat) (hslot : slot < w.owner.capacity)
      (hstate : (w.owner.table.pairs slot).state ≠ .absent) : PairStep w (w.setState slot .draining)
  /-- `rte_flow_destroy` on a leg. -/
  | destroy (slot : Nat) (index : Fin 2) (flow : Flow) (ok : Bool) (hslot : slot < w.owner.capacity)
      (hstate : (w.owner.table.pairs slot).state = .draining)
      (hflow : ((w.owner.table.pairs slot).legs index).flow = some flow) :
      PairStep w (w.destroyed slot index flow ok)
  /-- `delete_pair` fails. -/
  | faultPair (slot : Nat) (hslot : slot < w.owner.capacity)
      (hstate : (w.owner.table.pairs slot).state = .draining) : PairStep w (w.faultPair slot)
  /-- A new pair takes a slot. -/
  | place (slot : Nat) (spec : PairSpec) (guards : Option (Fin 2 → PacketGuard)) (table : PairTable)
      (hadmitted : Admitted w.owner slot spec)
      (hplace : placePair w.owner slot spec guards = .ok table) : PairStep w (w.setTable table)
  /-- The inverse map already has the key of a leg that is to enter it. -/
  | keyPresent (slot : Nat) (index : Fin 2) (hslot : slot < w.owner.capacity)
      (hstate : (w.owner.table.pairs slot).state = .draining)
      (hrequested : (w.owner.table.pairs slot).spec.requests index = true)
      (hinverse : ((w.owner.table.pairs slot).legs index).inverse = false)
      (hkey : ((w.owner.table.pairs slot).spec.directions index).inverseKey ∈
        w.owner.table.inverses) :
      PairStep w { w with events := .keyPresent :: w.events }
  /-- A leg enters the inverse map. -/
  | index (slot : Nat) (index : Fin 2) (hslot : slot < w.owner.capacity)
      (hstate : (w.owner.table.pairs slot).state = .draining)
      (hrequested : (w.owner.table.pairs slot).spec.requests index = true)
      (hinverse : ((w.owner.table.pairs slot).legs index).inverse = false)
      (hkey : ((w.owner.table.pairs slot).spec.directions index).inverseKey ∉
        w.owner.table.inverses) :
      PairStep w (w.indexed slot index)
  /-- `rte_flow_create` for a leg. -/
  | create (slot : Nat) (index : Fin 2) (hslot : slot < w.owner.capacity)
      (hstate : (w.owner.table.pairs slot).state = .draining)
      (hinverse : ((w.owner.table.pairs slot).legs index).inverse = true)
      (hclean : ((w.owner.table.pairs slot).legs index).clean = true) :
      PairStep w (w.created slot index)
  /-- Every requested leg has its rule. -/
  | install (slot : Nat) (hslot : slot < w.owner.capacity)
      (hstate : (w.owner.table.pairs slot).state = .draining)
      (hlegs : ∀ index, (w.owner.table.pairs slot).spec.requests index = true →
        ((w.owner.table.pairs slot).legs index).flow.isSome = true ∧
        ((w.owner.table.pairs slot).legs index).inverse = true)
      (hprepared : w.RestorationFailed ∨ w.owner.PreparedInstalled) :
      PairStep w (w.setState slot .installed)
  /-- A pair's guards and policy generation are renewed. -/
  | renew (slot : Nat) (guards : Option (Fin 2 → PacketGuard)) (policyGeneration : UInt64)
      (hslot : slot < w.owner.capacity) :
      PairStep w (w.setTable (w.owner.table.setPair slot
        { w.owner.table.pairs slot with
          guards := guards
          spec := { (w.owner.table.pairs slot).spec with policyGeneration := policyGeneration } }))
  /-- `close` forgets every pair. -/
  | forget (hclean : ∀ slot < w.owner.capacity, (w.owner.table.pairs slot).clean = true) :
      PairStep w { w with
        owner := { w.owner with
          active := false
          table := w.owner.table.forgetAll w.owner.capacity } }

/-! ## Changes of the packet queues -/

/-- A change of the packet queues. -/
inductive PacketStep (sdk : Sdk) (w : World) : World → Prop
  /-- The preparation of an entry is undone. -/
  | restore (index : Nat) (entry : Pending) (prepared : PreparedForward) (packet : PacketBuffer)
      (hentry : w.owner.queues.pending[index]? = some entry)
      (hprepared : entry.prepared = some prepared)
      (hforwards : w.owner.forwards prepared.handle = false)
      (hrestore : restoreFrame entry.packet prepared = (packet, .ok ())) :
      PacketStep sdk w
        (w.setQueues (w.owner.queues.restored index (Pending.returned packet prepared)))
  /-- The preparation of an entry cannot be undone. -/
  | restorationFailed (index : Nat) (entry : Pending) (prepared : PreparedForward)
      (packet : PacketBuffer) (code : Int) (error : NativeError)
      (hentry : w.owner.queues.pending[index]? = some entry)
      (hprepared : entry.prepared = some prepared)
      (hforwards : w.owner.forwards prepared.handle = false)
      (hrestore : restoreFrame entry.packet prepared = (packet, .error code)) :
      PacketStep sdk w (w.restorationFailed index { entry with packet := packet } error)
  /-- A transmit burst. -/
  | transmit (count : Nat) (hquarantined : w.owner.queues.quarantined = none)
      (hforwards : ∀ entry ∈ w.owner.queues.pending.take count, ∀ prepared,
        entry.prepared = some prepared → w.owner.forwards prepared.handle = true) :
      PacketStep sdk w (w.transmit count)
  /-- A receive burst. -/
  | receive (port : UInt16) (requested origin : Nat)
      (hquarantined : w.owner.queues.quarantined = none) :
      PacketStep sdk w (w.receive (sdk.rxBurst w.calls port requested) requested origin)
  /-- A group frame is freed. -/
  | discard (front : Received) (rest : List Received)
      (hreceived : w.owner.queues.received = front :: rest) : PacketStep sdk w w.discardFront
  /-- The front packet is made contiguous. -/
  | linearize (front : Received) (rest : List Received)
      (hreceived : w.owner.queues.received = front :: rest) :
      PacketStep sdk w
        (w.setQueues (w.owner.queues.setFront { front.packet with contiguous := true }))
  /-- The front packet, perhaps with a failed edit, goes to quarantine. -/
  | quarantine (front : Received) (rest : List Received) (packet : PacketBuffer)
      (change : Queues → Queues) (hquarantined : w.owner.queues.quarantined = none)
      (hreceived : w.owner.queues.received = front :: rest) (hid : packet.id = front.packet.id)
      (hchange : change w.owner.queues = w.owner.queues.setFront packet) :
      PacketStep sdk w { w with
        owner := { w.owner with
          queues := (change w.owner.queues).quarantineFront.updatePendingStats
          faulted := true } }
  /-- The front packet is restored and queued for the kernel. -/
  | returnFront (front : Received) (rest : List Received) (packet : PacketBuffer)
      (view : ParsedPacket) (direction : Direction) (port : UInt16)
      (hreceived : w.owner.queues.received = front :: rest)
      (hdecode : decode front.packet.bytes = .ok view)
      (hport : w.owner.dataPort (w.owner.config.origin (UInt32.ofNat front.origin)).data = .ok port)
      (hedit : front.packet.edit (Native.restore view direction) = (packet, .ok ())) :
      PacketStep sdk w (w.setQueues (w.owner.queues.enqueueFront ⟨packet, port, true, none⟩))
  /-- The front packet is edited for its egress port and queued. -/
  | prepareFront (front : Received) (rest : List Received) (packet : PacketBuffer)
      (output : UInt16) (prepared : PreparedForward)
      (hreceived : w.owner.queues.received = front :: rest)
      (hframe : front.packet.frame = .ok front.packet.bytes)
      (hdecode : decode front.packet.bytes = .ok prepared.view)
      (hport : w.owner.dataPort (w.owner.config.origin (UInt32.ofNat front.origin)).data =
        .ok prepared.returnPort)
      (houtput : w.owner.dataPort prepared.direction.egressDataId = .ok output)
      (hforwards : w.owner.forwards prepared.handle = true)
      (hedit : front.packet.edit (forward prepared.view prepared.direction) = (packet, .ok ())) :
      PacketStep sdk w
        (w.setQueues (w.owner.queues.enqueueFront ⟨packet, output, false, some prepared⟩))

/-! ## Changes of the VXLAN contexts -/

/-- Neither a rule nor an unfinished deletion. -/
def Context.clean (context : Context) : Bool := context.flow.isNone && !context.cleanupFailed

/-- No VXLAN context has a rule or an unfinished deletion, and none will while
the owner quiesces. -/
structure World.VxlanRetired (w : World) : Prop where
  quiescing : w.owner.quiescing = true
  clean : ∀ slot < maximumReceivers, (w.owner.vxlan slot).clean = true

/-- A change of the VXLAN contexts. -/
inductive VxlanStep (w : World) : World → Prop
  /-- Contexts are opened, given a plan or closed. -/
  | amend (contexts : Nat → Context)
      (hflow : ∀ slot, (contexts slot).flow = (w.owner.vxlan slot).flow)
      (hcleanup : ∀ slot, (contexts slot).cleanupFailed = (w.owner.vxlan slot).cleanupFailed) :
      VxlanStep w { w with owner := { w.owner with vxlan := contexts } }
  /-- `rte_flow_create` for a context. -/
  | create (slot : Nat) (hslot : slot < w.owner.config.receivers.length)
      (hquiescing : w.owner.quiescing = false) (hclean : (w.owner.vxlan slot).clean = true) :
      VxlanStep w (w.vxlanCreated slot)
  /-- `rte_flow_destroy` for a context. -/
  | destroy (slot : Nat) (flow : Flow) (ok : Bool) (hslot : slot < maximumReceivers)
      (hflow : (w.owner.vxlan slot).flow = some flow) :
      VxlanStep w (w.vxlanDestroyed slot flow ok)

/-! ## All changes -/

/-- Pairs, packets, contexts, events and what they rest on. -/
structure Rigid where
  config : Config
  instance_ : UInt64
  data : Nat → DataPort
  table : PairTable
  vxlan : Nat → Context
  pending : List Pending
  received : List Received
  quarantined : Option Received
  receivedCount : UInt64
  forwarded : UInt64
  returned : UInt64
  discarded : UInt64
  active : Bool
  events : List Event
  present : Bool

def World.rigid (w : World) : Rigid where
  config := w.owner.config
  instance_ := w.owner.instance_
  data := w.owner.data
  table := w.owner.table
  vxlan := w.owner.vxlan
  pending := w.owner.queues.pending
  received := w.owner.queues.received
  quarantined := w.owner.queues.quarantined
  receivedCount := w.owner.queues.stats.received
  forwarded := w.owner.queues.stats.forwarded
  returned := w.owner.queues.stats.returnedToKernel
  discarded := w.owner.queues.stats.discardedGroupFrames
  active := w.owner.active
  events := w.events
  present := w.present

/-- Pairs, packets, contexts, events and what they rest on are as before. -/
structure Frame (w w' : World) : Prop where
  rigid : w'.rigid = w.rigid
  quiescing : w.owner.quiescing = true → w'.owner.quiescing = true
  faulted : w.owner.faulted = true → w'.owner.faulted = true
  calls : w.calls ≤ w'.calls

section Frame

variable {w w' : World} (h : Frame w w')

include h

theorem Frame.config : w'.owner.config = w.owner.config := congrArg Rigid.config h.rigid

theorem Frame.instance_ : w'.owner.instance_ = w.owner.instance_ := congrArg Rigid.instance_ h.rigid

theorem Frame.data : w'.owner.data = w.owner.data := congrArg Rigid.data h.rigid

theorem Frame.table : w'.owner.table = w.owner.table := congrArg Rigid.table h.rigid

theorem Frame.vxlan : w'.owner.vxlan = w.owner.vxlan := congrArg Rigid.vxlan h.rigid

theorem Frame.pending : w'.owner.queues.pending = w.owner.queues.pending :=
  congrArg Rigid.pending h.rigid

theorem Frame.received : w'.owner.queues.received = w.owner.queues.received :=
  congrArg Rigid.received h.rigid

theorem Frame.quarantined : w'.owner.queues.quarantined = w.owner.queues.quarantined :=
  congrArg Rigid.quarantined h.rigid

theorem Frame.receivedCount : w'.owner.queues.stats.received = w.owner.queues.stats.received :=
  congrArg Rigid.receivedCount h.rigid

theorem Frame.forwarded : w'.owner.queues.stats.forwarded = w.owner.queues.stats.forwarded :=
  congrArg Rigid.forwarded h.rigid

theorem Frame.returned : w'.owner.queues.stats.returnedToKernel = w.owner.queues.stats.returnedToKernel :=
  congrArg Rigid.returned h.rigid

theorem Frame.discarded : w'.owner.queues.stats.discardedGroupFrames = w.owner.queues.stats.discardedGroupFrames :=
  congrArg Rigid.discarded h.rigid

theorem Frame.active : w'.owner.active = w.owner.active := congrArg Rigid.active h.rigid

theorem Frame.events : w'.events = w.events := congrArg Rigid.events h.rigid

theorem Frame.present : w'.present = w.present := congrArg Rigid.present h.rigid

end Frame

/-- A change of the owner. -/
inductive Step (sdk : Sdk) (w : World) : World → Prop
  | frame {w' : World} (h : Frame w w') : Step sdk w w'
  | pair {w' : World} (h : PairStep w w') : Step sdk w w'
  | packet {w' : World} (h : PacketStep sdk w w') : Step sdk w w'
  | vxlan {w' : World} (h : VxlanStep w w') : Step sdk w w'
  /-- A closed owner is opened again. -/
  | activate (hprepared : w.RestorationFailed ∨ w.owner.NonePrepared) :
      Step sdk w { w with owner := { w.owner with quiescing := false, active := true } }
  /-- The owner is released after its final shutdown. -/
  | release : Step sdk w { w with present := false }

/-! ## Steps that leave the pairs and flows alone -/

/-- An event of the pair table or of a flow, and not of a packet. -/
def Event.ofPairs : Event → Bool
  | .created .. | .destroyed .. | .keyPresent => true
  | .received _ | .transmitted .. | .discarded _ | .restorationFailed => false

/-- Pairs, contexts and flows are as before. -/
structure SamePairs (w w' : World) : Prop where
  config : w'.owner.config = w.owner.config
  instance_ : w'.owner.instance_ = w.owner.instance_
  table : w'.owner.table = w.owner.table
  vxlan : w'.owner.vxlan = w.owner.vxlan
  calls : w.calls ≤ w'.calls
  events : w'.events.filter Event.ofPairs = w.events.filter Event.ofPairs

theorem Frame.samePairs {w w' : World} (h : Frame w w') : SamePairs w w' where
  config := h.config
  instance_ := h.instance_
  table := h.table
  vxlan := h.vxlan
  calls := h.calls
  events := by rw [h.events]

/-- Further events that a filter drops. -/
theorem filter_map_append {α : Type} {p : Event → Bool} (l : List α) (f : α → Event)
    (events : List Event) (h : ∀ a, p (f a) = false) :
    (l.map f ++ events).filter p = events.filter p := by
  rw [List.filter_append, List.filter_eq_nil_iff.mpr, List.nil_append]
  intro e he
  obtain ⟨a, -, rfl⟩ := List.mem_map.mp he
  rw [h]
  exact Bool.false_ne_true

theorem PacketStep.samePairs {sdk : Sdk} {w w' : World} (h : PacketStep sdk w w') :
    SamePairs w w' := by
  cases h with
  | restore | linearize | quarantine | returnFront | prepareFront | restorationFailed =>
    exact ⟨rfl, rfl, rfl, rfl, Nat.le_refl _, rfl⟩
  | transmit | receive =>
    refine ⟨rfl, rfl, rfl, rfl, Nat.le_succ _, ?_⟩
    exact filter_map_append _ _ _ fun _ => rfl
  | discard front rest hreceived =>
    simp only [World.discardFront, hreceived]
    exact ⟨rfl, rfl, rfl, rfl, Nat.le_refl _, rfl⟩

/-- A step changes pairs, or contexts, or neither. -/
theorem Step.pairs_or {sdk : Sdk} {w w' : World} (h : Step sdk w w') :
    SamePairs w w' ∨ PairStep w w' ∨ VxlanStep w w' := by
  cases h with
  | frame h => exact .inl h.samePairs
  | pair h => exact .inr (.inl h)
  | packet h => exact .inl h.samePairs
  | vxlan h => exact .inr (.inr h)
  | activate | release => exact .inl ⟨rfl, rfl, rfl, rfl, Nat.le_refl _, rfl⟩

end Mwan.Native

import Mwan.L2Machine.Owner

/-!
# The transmit queue (`restore_pending`, `flush_pending`)

A pending entry is either on its way back to the kernel or prepared for its
egress port. `restorePending` undoes the preparation of every entry whose pair
is no longer installed, or of every entry once the owner quiesces or has
faulted; `flushPending` does that first and then transmits, one burst for each
run of entries with the same port, until a burst is not accepted in full.
-/
namespace Mwan.Native

open Mwan.Core Mwan.Core.Prog

/-! ## Reading and writing the owner -/

/-- `self` -/
def self : OwnerM OwnerState := do return (← read).owner

/-- Change the owner. -/
def setOwner (f : OwnerState → OwnerState) : OwnerM Unit :=
  update fun w => { w with owner := f w.owner }

/-- Change the packet queues. -/
def setQueues (f : Queues → Queues) : OwnerM Unit :=
  setOwner fun owner => { owner with queues := f owner.queues }

/-- The number of the next SDK or host call, counting it. -/
def call : OwnerM Nat := do
  let w ← read
  update fun w => { w with calls := w.calls + 1 }
  return w.calls

/-- `owner.faulted = true` -/
def setFaulted : OwnerM Unit := setOwner fun owner => { owner with faulted := true }

/-- mirrors controller.rs:2329-2331 -/
def Queues.updatePendingStats (queues : Queues) : Queues :=
  { queues with
    stats := { queues.stats with
      pendingPackets := UInt64.ofNat (queues.pending.length + queues.received.length) } }

/-! ## Undoing preparations -/

/-- The pair of a handle is installed.
mirrors controller.rs:2338-2345 -/
def OwnerState.installed (owner : OwnerState) (handle : Handle) : Bool :=
  let pair := owner.table.pairs handle.slot.toNat
  handle.instance_ = owner.instance_ && decide (handle.slot.toNat < owner.capacity) &&
    pair.generation = handle.generation && pair.state = .installed

/-- A prepared packet may still be forwarded.
mirrors controller.rs:2346 -/
def OwnerState.forwards (owner : OwnerState) (handle : Handle) : Bool :=
  owner.installed handle && !owner.quiescing && !owner.faulted

/-- mirrors controller.rs:2349-2353 -/
def restoreFrame (packet : PacketBuffer) (prepared : PreparedForward) :
    PacketBuffer × Except Int Unit :=
  match packet.frame with
  | .error code => (packet, .error code)
  | .ok _ =>
    match packet.edit (restoreForwarded prepared.view prepared.direction) with
    | (packet, .ok _) => (packet, .ok ())
    | (packet, .error error) => (packet, .error error.code)

/-- An entry on its way back to the kernel.
mirrors controller.rs:2373-2376 -/
def Pending.returned (packet : PacketBuffer) (prepared : PreparedForward) : Pending where
  packet := packet
  port := prepared.returnPort
  kernel := true
  prepared := none

/-- mirrors controller.rs:2373-2377 -/
def Queues.restored (queues : Queues) (index : Nat) (entry : Pending) : Queues :=
  { queues with
    pending := queues.pending.set index entry
    stats := { queues.stats with unsupported := queues.stats.unsupported + 1 } }

/-- mirrors controller.rs:2355-2364 -/
def restorationError (code : Int) (prepared : PreparedForward) : NativeError :=
  { fault code .packet .pair prepared.handle.slot 0
      "Pending packet restoration failed; buffer and owner retained" with
    packet := { diagnostic prepared.view with decodeStatus := -code } }

/-- mirrors controller.rs:2364-2371 -/
def World.restorationFailed (w : World) (index : Nat) (entry : Pending) (error : NativeError) :
    World :=
  { w with
    owner := { w.owner with
      queues := { w.owner.queues with
        pending := w.owner.queues.pending.set index entry }.updatePendingStats
      quiescing := true
      faulted := true
      terminalFailure := some (w.owner.terminalFailure.getD error) }
    events := .restorationFailed :: w.events }

/-- mirrors controller.rs:2335-2377 -/
def restoreIndex (index : Nat) : OwnerM Unit := do
  let owner ← self
  match owner.queues.pending[index]? with
  | none => pure ()
  | some pending =>
    match pending.prepared with
    | none => pure ()
    | some prepared =>
      if owner.forwards prepared.handle then pure ()
      else
        match restoreFrame pending.packet prepared with
        | (packet, .error code) =>
          let error := restorationError code prepared
          update (World.restorationFailed · index { pending with packet := packet } error)
          throw error
        | (packet, .ok _) => setQueues (·.restored index (Pending.returned packet prepared))

/-- The entries from `index` on. -/
def restoreFrom : Nat → Nat → OwnerM Unit
  | 0, _ => pure ()
  | n + 1, index => do
    restoreIndex index
    restoreFrom n (index + 1)

/-- mirrors controller.rs:2333-2380 -/
def restorePending : OwnerM Unit := do
  let owner ← self
  restoreFrom owner.queues.pending.length 0

/-! ## Transmitting -/

/-- One accepted entry leaves the queue.
mirrors controller.rs:2404-2412 -/
def Queues.transmitFront (queues : Queues) : Queues :=
  match queues.pending with
  | [] => queues
  | pending :: rest =>
    { queues with
      pending := rest
      stats := if pending.kernel then
          { queues.stats with returnedToKernel := queues.stats.returnedToKernel + 1 }
        else { queues.stats with forwarded := queues.stats.forwarded + 1 } }

/-- The entries of the next burst: those at the front with one port.
mirrors controller.rs:2387-2394 -/
def burstCount (pending : List Pending) (port : UInt16) : Nat :=
  ((pending.take BURST).takeWhile (·.port = port)).length

/-- The SDK accepts the first `count` entries.
mirrors controller.rs:2398-2413 -/
def World.transmit (w : World) (count : Nat) : World :=
  { w with
    owner := { w.owner with queues := Queues.transmitFront^[count] w.owner.queues }
    calls := w.calls + 1
    events := (w.owner.queues.pending.take count).map (.transmitted w.owner) ++ w.events }

/-- The error for a transmit count above the request.
mirrors controller.rs:2416-2423 -/
def transmitCountError (port : UInt16) : NativeError :=
  fault EIO .packet .port port.toUInt32 0 "SDK returned an invalid transmit count"

/-- Bursts until the queue is empty or one is not accepted in full; each burst
that goes on takes at least one entry.
mirrors controller.rs:2384-2431 -/
def flushBursts (sdk : Sdk) : Nat → OwnerM Unit
  | 0 => setQueues Queues.updatePendingStats
  | n + 1 => do
    let w ← read
    match w.owner.queues.pending with
    | [] => setQueues Queues.updatePendingStats
    | front :: _ =>
      let count := burstCount w.owner.queues.pending front.port
      let sent := sdk.txBurst w.calls front.port count
      update (World.transmit · (min sent count))
      if count < sent then
        let error := transmitCountError front.port
        setOwner fun owner =>
          { owner with faulted := true, terminalFailure := some error }
        setQueues Queues.updatePendingStats
        throw error
      else if sent ≠ count then setQueues Queues.updatePendingStats
      else flushBursts sdk n

/-- mirrors controller.rs:2382-2432 -/
def flushPending (sdk : Sdk) : OwnerM Unit := do
  restorePending
  let owner ← self
  flushBursts sdk owner.queues.pending.length

end Mwan.Native

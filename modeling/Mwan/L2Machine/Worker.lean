import Mwan.L2Machine.Pairs

/-!
# The packet worker (`packet_leg` to `drain`)

`poll` flushes the transmit queue, receives a burst from each started data
port in turn and processes what it received: a group frame is freed, a frame
without a verified inverse goes to quarantine and stops the owner, every other
frame is either prepared for its egress port or restored for the kernel, and
queued. `drain` polls until no packet has been seen for a while.
-/
namespace Mwan.Native

open Mwan.Core Mwan.Core.Prog

/-! ## Finding the leg of a packet -/

/-- mirrors controller.rs:106-112 -/
structure PacketLeg where
  spec : Direction
  guard : Option PacketGuard
  handle : Option Handle
  installed : Bool
  deriving DecidableEq, Repr

/-- A leg of a pair, as `packet_leg` returns it. -/
def Pair.packetLeg (pair : Pair) (index : Fin 2) (handle : Option Handle) : PacketLeg where
  spec := pair.spec.directions index
  guard := pair.guards.map (· index)
  handle := handle
  installed := pair.state = .installed

/-- The handle of a leg's pair.
mirrors controller.rs:2443-2448 -/
def OwnerState.legHandle (owner : OwnerState) (leg : LegId) : Handle :=
  { instance_ := owner.instance_, generation := leg.generation, slot := UInt32.ofNat leg.slot }

/-- A leg of the pair whose translated addresses are the fragment's.
mirrors controller.rs:2461-2475 -/
def Pair.fragmentLeg (pair : Pair) (origin : Nat) (tuple : Tuple) : Option PacketLeg :=
  if pair.state = .absent then none
  else
    (directionIndexes.find? fun index =>
      (pair.legs index).inverse && (pair.spec.directions index).originId = UInt32.ofNat origin &&
        sameAddresses (pair.spec.directions index).translated tuple).map
      fun index => pair.packetLeg index none

/-- mirrors controller.rs:2434-2480 -/
def OwnerState.packetLeg (owner : OwnerState) (origin : Nat) (view : ParsedPacket) :
    Option PacketLeg :=
  if view.ports then
    match owner.table.inverses.lookup ⟨UInt32.ofNat origin, view.tuple⟩ with
    | none => none
    | some leg =>
      match owner.handlePair (owner.legHandle leg) with
      | .error _ => none
      | .ok pair => some (pair.packetLeg leg.direction (some (owner.legHandle leg)))
  else if !view.fragment then none
  else
    ((List.range owner.capacity).map owner.table.pairs ++
      owner.table.retained.entries.map (·.2)).findSome? (·.fragmentLeg origin view.tuple)

/-! ## Quarantine -/

/-- mirrors controller.rs:2492-2499 -/
def Queues.quarantineFront (queues : Queues) : Queues :=
  match queues.quarantined, queues.received with
  | none, front :: rest =>
    { queues with
      quarantined := some front
      received := rest
      stats := { queues.stats with quarantinedPackets := queues.stats.quarantinedPackets + 1 } }
  | _, _ => queues

/-- Put the packet at the front of the received queue. -/
def Queues.setFront (queues : Queues) (packet : PacketBuffer) : Queues :=
  match queues.received with
  | [] => queues
  | front :: rest => { queues with received := { front with packet := packet } :: rest }

/-- The front packet goes to quarantine after a last change to the queues.
mirrors controller.rs:2482-2510 -/
def quarantineWith (change : Queues → Queues) (code : Int) (packet : PacketDiagnostic) :
    OwnerM NativeError := do
  let owner ← self
  let origin := match owner.queues.received with
    | [] => noId
    | front :: _ => UInt32.ofNat front.origin
  setOwner fun owner =>
    { owner with
      queues := (change owner.queues).quarantineFront.updatePendingStats
      faulted := true }
  return { fault code .packet .origin origin 0
      "Packet lacks a verified inverse; retained for recovery and admissions stopped" with
    packet := packet }

/-- mirrors controller.rs:2482-2510 -/
def quarantineFront (code : Int) (packet : PacketDiagnostic) : OwnerM NativeError :=
  quarantineWith id code packet

/-! ## Processing one packet -/

/-- A counter is changed, nothing else. -/
def setStats (f : WorkerStats → WorkerStats) : OwnerM Unit :=
  setQueues fun queues => { queues with stats := f queues.stats }

/-- mirrors controller.rs:2519-2523 -/
def groupFrame (packet : PacketBuffer) : Bool :=
  match packet.ethernet with
  | some header => header.headD 0 &&& 1 ≠ 0
  | none => false

/-- mirrors controller.rs:2524-2526 -/
def World.discardFront (w : World) : World :=
  match w.owner.queues.received with
  | [] => w
  | front :: rest =>
    let queues := w.owner.queues
    { w with
      owner := { w.owner with
        queues := { queues with
          received := rest
          stats := { queues.stats with
            discardedGroupFrames := queues.stats.discardedGroupFrames + 1 } } }
      events := .discarded front.packet.id :: w.events }

/-- The front packet cannot be decoded.
mirrors controller.rs:2548-2551 -/
def rejectFront {α : Type} (code : Int) (packet : PacketDiagnostic) : OwnerM α := do
  setStats fun stats => { stats with malformed := stats.malformed + 1 }
  throw (← quarantineFront code packet)

/-- mirrors controller.rs:2528-2555 -/
def decodeFront (packet : PacketBuffer) : OwnerM ParsedPacket :=
  match packet.linearize with
  | .error code => rejectFront code { decodeStatus := -code }
  | .ok packet => do
    setQueues (·.setFront packet)
    match packet.frame with
    | .error code => rejectFront code { decodeStatus := -code }
    | .ok frame =>
      match decode frame with
      | .error error => rejectFront error.code error.diagnostic
      | .ok view =>
        setStats fun stats =>
          if view.malformed then { stats with malformed := stats.malformed + 1 } else stats
        return view

/-- mirrors controller.rs:2570-2582 -/
def lookupFlags (leg : Option PacketLeg) (view : ParsedPacket) : UInt32 :=
  match leg with
  | none => 1
  | some leg =>
    (if view.sourceMac ≠ leg.spec.originalSourceMac then 2 else 0) |||
      (if view.destinationMac ≠ leg.spec.originalDestinationMac then 4 else 0)

/-- mirrors controller.rs:2568-2596 -/
def lookupFront (origin : Nat) (view : ParsedPacket) : OwnerM PacketLeg := do
  let owner ← self
  let leg := owner.packetLeg origin view
  let flags := lookupFlags leg view
  if flags ≠ 0 then
    setStats fun stats => { stats with lookupMisses := stats.lookupMisses + 1 }
    throw (← quarantineFront ENOENT { diagnostic view with failureFlags := flags })
  else
    orFail (fault ENOENT .packet .origin (UInt32.ofNat origin) 0 "Packet inverse is unavailable") leg

/-- The link states asked for during one poll. -/
abbrev Links := Nat → Option Bool

/-- mirrors controller.rs:1071-1082 -/
def OwnerState.dataPort (owner : OwnerState) (index : UInt32) : Except NativeError UInt16 :=
  match (owner.data index.toNat).id with
  | some id => .ok id
  | none => .error (fault ENODEV .port .data index 0 "DATA port is unavailable")

/-- The packet must go back to the kernel, as far as its pair and its headers
say. The error is that of its frame.
mirrors controller.rs:2597-2621 -/
def returnsToKernel (owner : OwnerState) (packet : PacketBuffer) (view : ParsedPacket)
    (leg : PacketLeg) : Except Int Bool :=
  let kernel := owner.quiescing || owner.faulted || !leg.installed ||
    (match leg.guard with
      | some guard => !guardMatches view guard
      | none => false)
  if kernel then .ok true
  else match packet.frame with
    | .ok frame => .ok (!eligible frame view leg.spec)
    | .error code => .error code

/-- The link of a data port a packet may leave on, asked for at most once in a
poll.
mirrors controller.rs:2623-2645 -/
def linkUp (sdk : Sdk) (links : Links) (kernel : Bool) (index : UInt32) (output : UInt16) :
    OwnerM (Bool × Links) :=
  if kernel then pure (true, links)
  else match links index.toNat with
    | some up => pure (up, links)
    | none => do
      let number ← call
      let up := (sdk.link number output).getD false
      return (up, Function.update links index.toNat (some up))

/-- The edited front packet joins the transmit queue.
mirrors controller.rs:2695-2713 -/
def Queues.enqueueFront (queues : Queues) (entry : Pending) : Queues :=
  { queues with
    received := queues.received.tail
    pending := queues.pending ++ [entry] }.updatePendingStats

/-- The front packet is edited and queued for the output port.
mirrors controller.rs:2651-2715 -/
def enqueueFront (packet : PacketBuffer) (view : ParsedPacket) (leg : PacketLeg) (kernel : Bool)
    (output returnPort : UInt16) : OwnerM Unit := do
  setStats fun stats => if kernel then { stats with unsupported := stats.unsupported + 1 } else stats
  match kernel, leg.handle with
  | false, none => throw (← quarantineFront ESTALE (diagnostic view))
  | _, _ =>
    let prepared := if kernel then none
      else leg.handle.map fun handle => ⟨handle, view, leg.spec, returnPort⟩
    match packet.frame with
    | .error code => throw (← quarantineFront code (diagnostic view))
    | .ok _ =>
      match packet.edit (if kernel then restore view leg.spec else forward view leg.spec) with
      | (packet, .error error) =>
        throw (← quarantineWith (·.setFront packet) error.code error.diagnostic)
      | (packet, .ok _) =>
        setQueues (·.enqueueFront
          ⟨packet, if kernel then returnPort else output, kernel, prepared⟩)

/-- mirrors controller.rs:2597-2715 -/
def routeFront (sdk : Sdk) (links : Links) (packet : PacketBuffer) (origin : Nat)
    (view : ParsedPacket) (leg : PacketLeg) : OwnerM Links := do
  let owner ← self
  match returnsToKernel owner packet view leg with
  | .error code => throw (← quarantineFront code (diagnostic view))
  | .ok kernel =>
    let output ← checked (owner.dataPort leg.spec.egressDataId)
    let (up, links) ← linkUp sdk links kernel leg.spec.egressDataId output
    if min BURST owner.config.mbufCount.toNat ≤ owner.queues.pending.length then
      throw (← quarantineFront ENOBUFS (diagnostic view))
    else
      let returnPort ← checked (owner.dataPort (owner.config.origin (UInt32.ofNat origin)).data)
      enqueueFront packet view leg (kernel || !up) output returnPort
      return links

/-- mirrors controller.rs:2512-2716 -/
def processFront (sdk : Sdk) (links : Links) : OwnerM Links := do
  let owner ← self
  match owner.queues.received with
  | [] => return links
  | front :: _ =>
    if groupFrame front.packet then
      update World.discardFront
      return links
    else
      let view ← decodeFront front.packet
      let leg ← lookupFront front.origin view
      routeFront sdk links { front.packet with contiguous := true } front.origin view leg

/-! ## Polling -/

/-- The received queue is worked off from the front; each packet leaves it or
ends the poll.
mirrors controller.rs:2784-2786 -/
def processReceived (sdk : Sdk) : Nat → Links → OwnerM Links
  | 0, links => return links
  | n + 1, links => do
    let owner ← self
    if owner.queues.received.isEmpty then return links
    else processReceived sdk n (← processFront sdk links)

/-- A received buffer with its number. -/
def Arrival.packet (arrival : Arrival) (id : Nat × Nat) (origin : Nat) : PacketBuffer where
  bytes := arrival.bytes
  unique := arrival.unique
  linearizes := arrival.linearizes
  frameFault := arrival.frameFault
  id := id
  wire := arrival.bytes
  origin := origin

/-- The buffers of a burst that are not null, numbered by the call and their
place in it. -/
def arrivedPackets (burst : List (Option Arrival)) (number origin : Nat) : List Received :=
  burst.zipIdx.filterMap fun entry =>
    entry.1.map fun arrival => ⟨origin, arrival.packet (number, entry.2) origin⟩

/-- The owner takes the first `requested` buffers of a burst.
mirrors controller.rs:2755-2769 -/
def World.receive (w : World) (burst : List (Option Arrival)) (requested origin : Nat) : World :=
  let taken := burst.take requested
  let arrived := arrivedPackets taken w.calls origin
  let queues := w.owner.queues
  { w with
    owner := { w.owner with
      queues := { queues with
        received := queues.received ++ arrived
        stats := { queues.stats with
          received := queues.stats.received + UInt64.ofNat taken.length } }.updatePendingStats }
    calls := w.calls + 1
    events := arrived.map (fun received => .received received.packet.id) ++ w.events }

/-- mirrors controller.rs:2748-2782 -/
def receiveBurst (sdk : Sdk) (origin : Nat) (port : UInt16) (budget : UInt32) : OwnerM UInt32 := do
  let w ← read
  let requested := min (min budget.toNat BURST) w.owner.config.mbufCount.toNat
  let burst := sdk.rxBurst w.calls port requested
  update (World.receive · burst requested origin)
  if requested < burst.length ∨ none ∈ burst.take requested then
    let error := fault EIO .packet .origin (UInt32.ofNat origin) 0
      "SDK returned an invalid receive batch; packets retained"
    setOwner fun owner => { owner with faulted := true, terminalFailure := some error }
    throw error
  else return budget - UInt32.ofNat (burst.take requested).length

/-- A port of the owner is started.
mirrors controller.rs:2741-2745 -/
def OwnerState.started (owner : OwnerState) (port : UInt16) : Bool :=
  owner.ports.any fun entry => entry.id = port && entry.state = .started

/-- mirrors controller.rs:2732-2793 -/
def pollPorts (sdk : Sdk) : Nat → UInt32 → Links → OwnerM Unit
  | 0, _, _ => pure ()
  | n + 1, budget, links => do
    if budget = 0 then pure ()
    else
      let owner ← self
      let data := owner.data (owner.nextRx % owner.config.data.length)
      setOwner fun owner => { owner with nextRx := (owner.nextRx + 1) % 2 ^ 64 }
      match data.origin, data.id with
      | some origin, some port =>
        if owner.started port then
          let budget ← receiveBurst sdk origin port budget
          let links ← processReceived sdk (← self).queues.received.length links
          flushPending sdk
          if (← self).queues.pending.isEmpty then pollPorts sdk n budget links
          else pure ()
        else pollPorts sdk n budget links
      | _, _ => pollPorts sdk n budget links

/-- mirrors controller.rs:2718-2795 -/
def poll (sdk : Sdk) (budget : UInt32) : OwnerM Unit := do
  let owner ← self
  refuse (owner.queues.quarantined.isSome = true)
    (fault EIO .packet .none 0 0 "Unrecoverable packet retained; controller recovery is required")
  flushPending sdk
  if (← self).queues.pending.isEmpty then
    pollPorts sdk owner.config.data.length budget fun _ => none
  else pure ()

/-! ## Draining -/

/-- mirrors controller.rs:2806-2808 -/
def Queues.quiet (queues : Queues) (before : UInt64) : Bool :=
  before = queues.stats.received && queues.pending.isEmpty && queues.received.isEmpty

/-- mirrors controller.rs:2819-2826 -/
def drainError : NativeError :=
  fault ETIMEDOUT .drain .none 0 0 "Packet drain did not become quiet; restoration records retained"

/-- Saturating `u64` addition. -/
def saturatingAdd (a b : UInt64) : UInt64 := if a + b < a then 18446744073709551615 else a + b

/-- Saturating `u64` subtraction. -/
def saturatingSub (a b : UInt64) : UInt64 := if a < b then 0 else a - b

/-- The loop of `drain`; out of rounds is past the deadline.
mirrors controller.rs:2801-2818 -/
def drainRounds (sdk : Sdk) (deadline : UInt64) : Nat → Option UInt64 → OwnerM Unit
  | 0, _ => throw drainError
  | n + 1, quietSince => do
    let owner ← self
    poll sdk (UInt32.ofNat BURST * UInt32.ofNat owner.config.data.length)
    let now := sdk.clock (← call)
    let quiet := (← self).queues.quiet owner.queues.stats.received
    let start := quietSince.getD now
    if quiet ∧ DRAIN_QUIET_NS ≤ saturatingSub now start then pure ()
    else
      refuse (deadline ≤ sdk.clock (← call)) drainError
      drainRounds sdk deadline n (if quiet then some start else none)

/-- mirrors controller.rs:2797-2827 -/
def drain (sdk : Sdk) : OwnerM Unit := do
  let owner ← self
  let now := sdk.clock (← call)
  let deadline := saturatingAdd now (owner.config.drainTimeoutMs.toUInt64 * NS_PER_MS)
  drainRounds sdk deadline (sdk.drainRounds + 1) none

end Mwan.Native

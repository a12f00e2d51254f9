import Mwan.L1Encoding.PacketForward
import Mwan.L2Machine.PacketConservation

/-!
# Prepared packets

A packet the owner will forward is edited at once and then waits in the
transmit queue, while its pair may be removed, suspended, renewed under the same
handle or replaced, and while the owner may fault or close. In every world an
entry that waits is still the forwarding edit of the frame that was received, so
that the edit can be undone; it leaves on its egress port only from an owner
that is not closing and has not faulted, with its pair installed; and once that
has failed to hold it never leaves but restored, on the port of its origin.

Results:
* `Undoable`: what holds of the queues and of every transmission;
* `Condemned`: what holds of an entry from the world on in which its pair is not
  live.
-/
namespace Mwan.Native

open Mwan.Core List

/-! ## What an entry of the transmit queue is -/

/-- The port packets of an origin are returned on. -/
def OwnerState.homePort (owner : OwnerState) (origin : Nat) : Except NativeError UInt16 :=
  owner.dataPort (owner.config.origin (UInt32.ofNat origin)).data

/-- The received frame edited for its egress port. -/
structure Pending.Forwarding (owner : OwnerState) (entry : Pending) (prepared : PreparedForward) :
    Prop where
  kernel : entry.kernel = false
  frame : entry.packet.frame = .ok entry.packet.bytes
  decoded : decode entry.packet.wire = .ok prepared.view
  forwarded : forward prepared.view prepared.direction entry.packet.wire = .ok () entry.packet.bytes
  output : owner.dataPort prepared.direction.egressDataId = .ok entry.port
  home : owner.homePort entry.packet.origin = .ok prepared.returnPort

/-- The received frame restored for the kernel, as the rewriting of a leg asks. -/
structure Pending.Returning (owner : OwnerState) (entry : Pending) : Prop where
  kernel : entry.kernel = true
  restored : ∃ view direction, decode entry.packet.wire = .ok view ∧
    restore view direction entry.packet.wire = .ok () entry.packet.bytes
  home : owner.homePort entry.packet.origin = .ok entry.port

/-- One or the other. -/
structure Pending.Sound (owner : OwnerState) (entry : Pending) : Prop where
  forwarding : ∀ prepared, entry.prepared = some prepared → entry.Forwarding owner prepared
  returning : entry.prepared = none → entry.Returning owner

variable {owner : OwnerState} {entry : Pending}

variable {prepared : PreparedForward}

theorem Pending.Forwarding.sound (h : entry.Forwarding owner prepared)
    (hprepared : entry.prepared = some prepared) :
    entry.Sound owner where
  forwarding p hp := by
    rw [hprepared] at hp
    cases hp
    exact h
  returning hp := by
    rw [hprepared] at hp
    cases hp

theorem Pending.Returning.sound (h : entry.Returning owner) (hprepared : entry.prepared = none) :
    entry.Sound owner where
  forwarding p hp := by
    rw [hprepared] at hp
    cases hp
  returning _ := h

/-- A received packet is as it came from the wire. -/
structure Received.Intact (received : Received) : Prop where
  bytes : received.packet.bytes = received.packet.wire
  origin : received.packet.origin = received.origin

/-- Ports do not move. -/
structure SamePorts (owner owner' : OwnerState) : Prop where
  data : owner'.data = owner.data
  config : owner'.config = owner.config

variable {owner' : OwnerState}

theorem SamePorts.dataPort (h : SamePorts owner owner') (index : UInt32) :
    owner'.dataPort index = owner.dataPort index := by
  unfold OwnerState.dataPort
  rw [h.data]

theorem SamePorts.homePort (h : SamePorts owner owner') (origin : Nat) :
    owner'.homePort origin = owner.homePort origin := by
  unfold OwnerState.homePort
  rw [h.dataPort, h.config]

theorem Pending.Sound.ports (h : entry.Sound owner) (hports : SamePorts owner owner') :
    entry.Sound owner' where
  forwarding prepared hprepared :=
    { h.forwarding prepared hprepared with
      output := (hports.dataPort _).trans (h.forwarding prepared hprepared).output
      home := (hports.homePort _).trans (h.forwarding prepared hprepared).home }
  returning hprepared :=
    { h.returning hprepared with home := (hports.homePort _).trans (h.returning hprepared).home }

variable {sdk : Sdk}

variable {w w' : World}

theorem Step.ports (h : Step sdk w w') : SamePorts w.owner w'.owner := by
  cases h with
  | frame h => exact ⟨h.data, h.config⟩
  | pair h => cases h <;> exact ⟨rfl, rfl⟩
  | vxlan h => cases h <;> exact ⟨rfl, rfl⟩
  | activate | release => exact ⟨rfl, rfl⟩
  | packet h =>
    cases h with
    | discard front rest hreceived =>
      unfold World.discardFront
      rw [hreceived]
      exact ⟨rfl, rfl⟩
    | _ => exact ⟨rfl, rfl⟩

/-! ## Undoing -/

theorem edit_eq_ok {packet packet' : PacketBuffer} {edit : Editor Unit}
    (h : packet.edit edit = (packet', .ok ())) :
    ∃ bytes, edit packet.bytes = .ok () bytes ∧ packet' = { packet with bytes := bytes } := by
  unfold PacketBuffer.edit at h
  split at h
  case h_1 u bytes hbytes => exact ⟨bytes, hbytes, (Prod.mk.inj h).1.symm⟩
  case h_2 => cases (Prod.mk.inj h).2

/-- Whether a buffer has a frame does not depend on its bytes. -/
theorem frame_setBytes {packet : PacketBuffer} {frame : Bytes} (h : packet.frame = .ok frame)
    (bytes : Bytes) : ({ packet with bytes := bytes } : PacketBuffer).frame = .ok bytes := by
  unfold PacketBuffer.frame at h ⊢
  cases hc : packet.contiguous with
  | false => simp [hc] at h
  | true =>
    cases hf : packet.frameFault with
    | some => simp [hc, hf] at h
    | none => simp

/-- The edit of an entry that waits can be undone, and that gives the bytes
`restore` gives for the received frame. -/
theorem Pending.Forwarding.undo (h : entry.Forwarding owner prepared) :
    ∃ bytes, restore prepared.view prepared.direction entry.packet.wire = .ok () bytes ∧
      restoreFrame entry.packet prepared = ({ entry.packet with bytes := bytes }, .ok ()) := by
  obtain ⟨bytes, hrestore, hundo⟩ := restoreForwarded_forward h.decoded h.forwarded
  refine ⟨bytes, hrestore, ?_⟩
  simp only [restoreFrame, h.frame, PacketBuffer.edit, hundo]

/-! ## In every world -/

/-- What holds of the queues and of every transmission so far. -/
structure Undoable (w : World) : Prop where
  received : ∀ received ∈ w.owner.queues.received, received.Intact
  pending : ∀ entry ∈ w.owner.queues.pending, entry.Sound w.owner
  restored : ¬ w.RestorationFailed
  sound : ∀ owner entry, Event.transmitted owner entry ∈ w.events → entry.Sound owner
  live : ∀ owner entry, Event.transmitted owner entry ∈ w.events →
    ∀ prepared, entry.prepared = some prepared → owner.forwards prepared.handle = true

theorem SamePackets.mem_iff (h : SamePackets w w') {event : Event} (he : event.ofPairs = false) :
    event ∈ w'.events ↔ event ∈ w.events := by
  have hmem := congrArg (event ∈ ·) h.events
  simpa only [mem_filter, he, Bool.not_false, and_true, eq_iff_iff] using hmem

variable {front : Received} {rest : List Received}

section

variable {w : World} (h : Undoable w)

include h

theorem Undoable.samePackets (hs : SamePackets w w') (hports : SamePorts w.owner w'.owner) :
    Undoable w' where
  received := by rw [hs.received]; exact h.received
  pending := by
    rw [hs.pending]
    exact fun entry he => (h.pending entry he).ports hports
  restored hf := h.restored ((hs.mem_iff rfl).mp hf)
  sound owner entry he := h.sound owner entry ((hs.mem_iff rfl).mp he)
  live owner entry he := h.live owner entry ((hs.mem_iff rfl).mp he)

/-- The queues change, and the events of packets do not. -/
theorem Undoable.requeue (hreceived : ∀ received ∈ w'.owner.queues.received, received.Intact)
    (hpending : ∀ entry ∈ w'.owner.queues.pending, entry.Sound w'.owner)
    (hevents : w'.events = w.events) : Undoable w' where
  received := hreceived
  pending := hpending
  restored := by unfold World.RestorationFailed; rw [hevents]; exact h.restored
  sound := by rw [hevents]; exact h.sound
  live := by rw [hevents]; exact h.live

theorem Undoable.transmit {count : Nat}
    (hforwards : ∀ entry ∈ w.owner.queues.pending.take count, ∀ prepared, entry.prepared = some prepared → w.owner.forwards prepared.handle = true)
    :
    Undoable (w.transmit count) := by
  have split {owner : OwnerState} {entry : Pending}
      (he : Event.transmitted owner entry ∈ (w.transmit count).events) :
      owner = w.owner ∧ entry ∈ w.owner.queues.pending.take count ∨
        Event.transmitted owner entry ∈ w.events := by
    rcases mem_append.mp he with he | he
    · obtain ⟨entry', hentry', heq⟩ := mem_map.mp he
      cases heq
      exact .inl ⟨rfl, hentry'⟩
    · exact .inr he
  constructor
  case received =>
    intro received hr
    exact h.received received ((received_iterate_transmitFront w.owner.queues count) ▸ hr)
  case pending =>
    intro entry he
    exact (h.pending entry (mem_pending_transmit he)).ports ⟨rfl, rfl⟩
  case restored =>
    intro hf
    rcases mem_append.mp hf with hf | hf
    · obtain ⟨_, _, heq⟩ := mem_map.mp hf
      cases heq
    · exact h.restored hf
  case sound =>
    intro owner entry he
    rcases split he with ⟨rfl, htaken⟩ | he
    · exact h.pending entry (mem_of_mem_take htaken)
    · exact h.sound owner entry he
  case live =>
    intro owner entry he
    rcases split he with ⟨rfl, htaken⟩ | he
    · exact hforwards entry htaken
    · exact h.live owner entry he

theorem Undoable.receive (burst : List (Option Arrival)) (requested origin : Nat) :
    Undoable (w.receive burst requested origin) := by
  have old {event : Event} (hne : ∀ id, event ≠ .received id)
      (he : event ∈ (w.receive burst requested origin).events) : event ∈ w.events := by
    rcases mem_append.mp he with he | he
    · obtain ⟨received, -, heq⟩ := mem_map.mp he
      exact absurd heq.symm (hne _)
    · exact he
  constructor
  case received =>
    intro received hr
    rcases mem_append.mp hr with hr | hr
    · exact h.received received hr
    · obtain ⟨slot, -, hslot⟩ := mem_filterMap.mp hr
      obtain ⟨arrival, -, rfl⟩ := Option.map_eq_some_iff.mp hslot
      exact ⟨rfl, rfl⟩
  case pending => exact fun entry he => (h.pending entry he).ports ⟨rfl, rfl⟩
  case restored => exact fun hf => h.restored (old nofun hf)
  case sound => exact fun owner entry he => h.sound owner entry (old nofun he)
  case live => exact fun owner entry he => h.live owner entry (old nofun he)

/-- The front packet joins the transmit queue. -/
theorem Undoable.enqueue (hreceived : w.owner.queues.received = front :: rest)
    (hsound : entry.Sound w.owner) :
    Undoable (w.setQueues (w.owner.queues.enqueueFront entry)) := by
  rw [enqueueFront_eq hreceived]
  refine h.requeue (fun received hr => ?_) (forall_mem_append.mpr ⟨fun e he => ?_, ?_⟩) rfl
  · exact h.received received (by rw [hreceived]; exact .tail _ hr)
  · exact (h.pending e he).ports ⟨rfl, rfl⟩
  · exact forall_mem_singleton.mpr (hsound.ports ⟨rfl, rfl⟩)

end

theorem undoable_packetStep (hstep : PacketStep sdk w w') (h : Undoable w) : Undoable w' := by
  have hrest {front : Received} {rest : List Received}
      (hreceived : w.owner.queues.received = front :: rest) :
      front.Intact ∧ ∀ received ∈ rest, received.Intact := by
    have hall := h.received
    rw [hreceived] at hall
    exact forall_mem_cons.mp hall
  cases hstep with
  | restore index entry prepared packet hentry hprepared hforwards hrestore =>
    refine h.requeue h.received (fun e he => ?_) rfl
    rcases mem_or_eq_of_mem_set he with he | rfl
    · exact (h.pending e he).ports ⟨rfl, rfl⟩
    · have hf := (h.pending entry (mem_of_getElem? hentry)).forwarding prepared hprepared
      obtain ⟨bytes, hbytes, hundo⟩ := hf.undo
      rw [hrestore] at hundo
      obtain ⟨rfl, -⟩ := Prod.mk.inj hundo
      exact Pending.Returning.sound ⟨rfl, ⟨_, _, hf.decoded, hbytes⟩, hf.home⟩ rfl
  | restorationFailed index entry prepared packet code error hentry hprepared hforwards hrestore =>
    -- the edit can be undone
    obtain ⟨bytes, -, hundo⟩ :=
      ((h.pending entry (mem_of_getElem? hentry)).forwarding prepared hprepared).undo
    rw [hrestore] at hundo
    cases (Prod.mk.inj hundo).2
  | transmit count hquarantined hforwards => exact h.transmit hforwards
  | receive port requested origin => exact h.receive _ requested origin
  | discard front rest hreceived =>
    unfold World.discardFront
    rw [hreceived]
    have old {event : Event} (hne : event ≠ .discarded front.packet.id)
        (he : event ∈ Event.discarded front.packet.id :: w.events) : event ∈ w.events :=
      (mem_cons.mp he).resolve_left hne
    exact ⟨(hrest hreceived).2, fun entry he => (h.pending entry he).ports ⟨rfl, rfl⟩,
      fun hf => h.restored (old nofun hf), fun owner entry he => h.sound owner entry (old nofun he),
      fun owner entry he => h.live owner entry (old nofun he)⟩
  | linearize front rest hreceived =>
    rw [setFront_eq hreceived]
    refine h.requeue (forall_mem_cons.mpr ⟨?_, (hrest hreceived).2⟩)
      (fun e he => (h.pending e he).ports ⟨rfl, rfl⟩) rfl
    exact ⟨(hrest hreceived).1.bytes, (hrest hreceived).1.origin⟩
  | quarantine front rest packet change hquarantined hreceived hid hchange =>
    rw [hchange, quarantineFront_setFront hreceived hquarantined]
    exact h.requeue (hrest hreceived).2 (fun e he => (h.pending e he).ports ⟨rfl, rfl⟩) rfl
  | returnFront front rest packet view direction port hreceived hdecode hport hedit =>
    obtain ⟨hbytes, horigin⟩ := (hrest hreceived).1
    obtain ⟨bytes, hrestore, rfl⟩ := edit_eq_ok hedit
    rw [hbytes] at hdecode hrestore
    refine h.enqueue hreceived
      (Pending.Returning.sound ⟨rfl, ⟨view, direction, hdecode, hrestore⟩, ?_⟩ rfl)
    unfold OwnerState.homePort
    rw [horigin]
    exact hport
  | prepareFront front rest packet output prepared hreceived hframe hdecode hport houtput hforwards
      hedit =>
    obtain ⟨hbytes, horigin⟩ := (hrest hreceived).1
    obtain ⟨bytes, hforward, rfl⟩ := edit_eq_ok hedit
    rw [hbytes] at hdecode hforward
    refine h.enqueue hreceived
      (@Pending.Forwarding.sound _ _ prepared ⟨rfl, frame_setBytes hframe bytes, hdecode, hforward,
        houtput, ?_⟩ rfl)
    unfold OwnerState.homePort
    rw [horigin]
    exact hport

theorem undoable_step (sdk : Sdk) : Closed (Step sdk) Undoable := by
  intro w w' hstep h
  rcases hstep.packets_or with hs | hp
  · exact h.samePackets hs hstep.ports
  · exact undoable_packetStep hp h

theorem undoable_opened (h : Opened w) : Undoable w := by
  constructor
  case received => rw [h.queues]; exact fun _ hr => absurd hr not_mem_nil
  case pending => rw [h.queues]; exact fun _ he => absurd he not_mem_nil
  case restored => unfold World.RestorationFailed; rw [h.events]; exact not_mem_nil
  case sound => rw [h.events]; exact fun _ _ he => absurd he not_mem_nil
  case live => rw [h.events]; exact fun _ _ he => absurd he not_mem_nil

/-! ## Once the pair is not live -/

/-- Nothing becomes live that was not installed, while the owner's flags stay. -/
theorem forwards_mono {handle : Handle} (hdead : owner.forwards handle = false)
    (hinstalled : owner'.installed handle = true → owner.installed handle = true)
    (hquiescing : owner.quiescing = true → owner'.quiescing = true)
    (hfaulted : owner.faulted = true → owner'.faulted = true) :
    owner'.forwards handle = false := by
  rw [Bool.eq_false_iff, ne_eq, OwnerState.forwards_iff] at hdead ⊢
  intro ⟨hi, hq, hf⟩
  refine hdead ⟨hinstalled hi, ?_, ?_⟩
  · exact Bool.eq_false_iff.mpr fun h => absurd (hquiescing h) (Bool.eq_false_iff.mp hq)
  · exact Bool.eq_false_iff.mpr fun h => absurd (hfaulted h) (Bool.eq_false_iff.mp hf)

/-- One slot has changed, and was not newly installed. -/
theorem installed_update {slot : Nat} {pair : Pair} {handle : Handle}
    (hpairs : owner'.table.pairs = Function.update owner.table.pairs slot pair)
    (hconfig : owner'.config = owner.config) (hinstance : owner'.instance_ = owner.instance_)
    (hstate : pair.state = .installed → (owner.table.pairs slot).state = .installed ∧
      pair.generation = (owner.table.pairs slot).generation) (h : owner'.installed handle = true) :
    owner.installed handle = true := by
  have hcapacity : owner'.capacity = owner.capacity := congrArg (·.pairCapacity.toNat) hconfig
  rw [OwnerState.installed_iff, hinstance, hcapacity, hpairs] at h
  rw [OwnerState.installed_iff]
  obtain ⟨hi, hbound, hgeneration, hinstalled⟩ := h
  refine ⟨hi, hbound, ?_⟩
  by_cases hs : handle.slot.toNat = slot
  · rw [hs, Function.update_self] at hgeneration hinstalled
    obtain ⟨hinstalled', hgeneration'⟩ := hstate hinstalled
    rw [hs]
    exact ⟨hgeneration'.symm.trans hgeneration, hinstalled'⟩
  · rw [Function.update_of_ne hs] at hgeneration hinstalled
    exact ⟨hgeneration, hinstalled⟩

/-- A change of the pair table makes no pair of a waiting packet live. -/
theorem PairStep.forwards (hstep : PairStep w w') (hrestored : ¬ w.RestorationFailed)
    (hentry : entry ∈ w.owner.queues.pending) (hprepared : entry.prepared = some prepared)
    (hdead : w.owner.forwards prepared.handle = false) 
    :
    w'.owner.forwards prepared.handle = false := by
  cases hstep with
  | drain => exact forwards_mono hdead (installed_update rfl rfl rfl nofun) id id
  | faultPair =>
    exact forwards_mono hdead (installed_update rfl rfl rfl nofun) id fun _ => rfl
  | destroy | index | create | renew =>
    exact forwards_mono hdead (installed_update rfl rfl rfl fun h => ⟨h, rfl⟩) id id
  | keyPresent => exact hdead
  | place slot spec guards table hadmitted hplace =>
    refine forwards_mono hdead (@installed_update _ _ slot (w.owner.newPair slot spec guards) _ ?_
      rfl rfl nofun) id id
    rcases placePair_eq_ok hplace with ⟨-, rfl⟩ | ⟨-, -, -, rfl⟩
    · rfl
    · rfl
  | install slot hslot hstate hlegs hinstalled =>
    -- `restore_pending` has run: what still waits has its pair installed
    exact forwards_mono hdead
      (fun _ => hinstalled.resolve_left hrestored entry hentry prepared hprepared) id id
  | forget =>
    refine forwards_mono hdead (fun h => ?_) id id
    obtain ⟨-, hbound, -, hinstalled⟩ := (OwnerState.installed_iff _ _).mp h
    change prepared.handle.slot.toNat < w.owner.capacity at hbound
    dsimp only at hinstalled
    rw [pairs_forgetAll, if_pos hbound] at hinstalled
    cases hinstalled

theorem PacketStep.flags (h : PacketStep sdk w w') :
    (w.owner.quiescing = true → w'.owner.quiescing = true) ∧
      (w.owner.faulted = true → w'.owner.faulted = true) := by
  cases h with
  | restorationFailed => exact ⟨fun _ => rfl, fun _ => rfl⟩
  | quarantine => exact ⟨id, fun _ => rfl⟩
  | discard front rest hreceived =>
    unfold World.discardFront
    rw [hreceived]
    exact ⟨id, id⟩
  | _ => exact ⟨id, id⟩

/-- No step makes the pair of a waiting packet live. -/
theorem Step.forwards (hstep : Step sdk w w') (hrestored : ¬ w.RestorationFailed)
    (hentry : entry ∈ w.owner.queues.pending) (hprepared : entry.prepared = some prepared)
    (hdead : w.owner.forwards prepared.handle = false) 
    :
    w'.owner.forwards prepared.handle = false := by
  have hsame {w' : World} (h : SamePairs w w') :
      w'.owner.installed prepared.handle = w.owner.installed prepared.handle := by
    rw [Bool.eq_iff_iff, OwnerState.installed_iff, OwnerState.installed_iff, OwnerState.capacity,
      OwnerState.capacity, h.config, h.instance_, h.table]
  cases hstep with
  | frame h => exact forwards_mono hdead (hsame h.samePairs ▸ id) h.quiescing h.faulted
  | pair h => exact h.forwards hrestored hentry hprepared hdead
  | packet h => exact forwards_mono hdead (hsame h.samePairs ▸ id) h.flags.1 h.flags.2
  | vxlan h => cases h <;> exact hdead
  | activate hnone =>
    -- a closed owner has no prepared packet
    rw [hnone.resolve_left hrestored entry hentry] at hprepared
    cases hprepared
  | release => exact hdead

/-- An entry restored from a preparation of the received frame. -/
structure Pending.Undone (entry : Pending) (prepared : PreparedForward) (wire : Bytes) : Prop where
  kernel : entry.kernel = true
  unprepared : entry.prepared = none
  port : entry.port = prepared.returnPort
  restored : restore prepared.view prepared.direction wire = .ok () entry.packet.bytes

/-- What holds of a buffer whose preparation must be undone: it waits and its
pair is not live, or it has been restored. -/
structure Condemned (id : Nat × Nat) (prepared : PreparedForward) (wire : Bytes) (w : World) :
    Prop where
  pending : ∀ entry ∈ w.owner.queues.pending, entry.packet.id = id →
    (entry.prepared = some prepared ∧ entry.packet.wire = wire ∧
      w.owner.forwards prepared.handle = false) ∨ entry.Undone prepared wire
  sent : ∀ entry ∈ w.transmissions, entry.packet.id = id → entry.Undone prepared wire
  received : id ∉ w.owner.queues.receivedIds
  known : id.1 < w.calls

section Condemned

variable {id : Nat × Nat} {prepared : PreparedForward} {wire : Bytes} {w w' : World}

section

variable (h : Condemned id prepared wire w) (hu : Undoable w)

include h hu

/-- What has happened to the other buffers does not matter. -/
theorem Condemned.requeue (hstep : Step sdk w w')
    (hpending : ∀ entry ∈ w'.owner.queues.pending, entry.packet.id = id → entry ∈ w.owner.queues.pending ∨ entry.Undone prepared wire)
    (hsent : w'.transmissions = w.transmissions) (hreceived : id ∉ w'.owner.queues.receivedIds)
    (hcalls : w.calls ≤ w'.calls) :
    Condemned id prepared wire w' where
  pending entry he hid := by
    rcases hpending entry he hid with he | hundone
    · refine (h.pending entry he hid).imp_left fun ⟨hp, hw, hdead⟩ => ⟨hp, hw, ?_⟩
      exact hstep.forwards hu.restored he hp hdead
    · exact .inr hundone
  sent := by rw [hsent]; exact h.sent
  received := hreceived
  known := Nat.lt_of_lt_of_le h.known hcalls

/-- Another packet leaves the received queue for the transmit queue. -/
theorem Condemned.enqueue (hreceived : w.owner.queues.received = front :: rest)
    (hid : entry.packet.id = front.packet.id)
    (hstep : Step sdk w (w.setQueues (w.owner.queues.enqueueFront entry))) :
    Condemned id prepared wire (w.setQueues (w.owner.queues.enqueueFront entry)) := by
  have hother : id ≠ front.packet.id ∧ id ∉ rest.map (·.packet.id) := by
    have hnot := h.received
    rw [Queues.receivedIds, hreceived, map_cons, mem_cons, not_or] at hnot
    exact hnot
  refine h.requeue hu hstep (fun e he heid => .inl ?_) rfl ?_ (Nat.le_refl _)
  · rcases mem_append.mp he with he | he
    · exact he
    · rw [mem_singleton.mp he, hid] at heid
      exact absurd heid.symm hother.1
  · rw [enqueueFront_eq hreceived]
    exact hother.2

theorem Condemned.packetStep (hstep : PacketStep sdk w w') : Condemned id prepared wire w' := by
  have hs : Step sdk w w' := .packet hstep
  have hrest {front : Received} {rest : List Received}
      (hreceived : w.owner.queues.received = front :: rest) : id ∉ rest.map (·.packet.id) := by
    have hnot := h.received
    rw [Queues.receivedIds, hreceived, map_cons, mem_cons, not_or] at hnot
    exact hnot.2
  cases hstep with
  | restore index entry prepared' packet hentry hprepared hforwards hrestore =>
    refine h.requeue hu hs (fun e he heid => ?_) rfl h.received (Nat.le_refl _)
    rcases mem_or_eq_of_mem_set he with he | rfl
    · exact .inl he
    · -- this buffer: it waits, for an entry that has been restored is not prepared
      have hmem := mem_of_getElem? hentry
      have hid : entry.packet.id = id := (restoreFrame_id hrestore).symm.trans heid
      rcases h.pending entry hmem hid with ⟨hp, rfl, -⟩ | hundone
      · cases hprepared.symm.trans hp
        obtain ⟨bytes, hbytes, hundo⟩ := ((hu.pending entry hmem).forwarding _ hp).undo
        rw [hrestore] at hundo
        obtain ⟨rfl, -⟩ := Prod.mk.inj hundo
        exact .inr ⟨rfl, rfl, rfl, hbytes⟩
      · cases hundone.unprepared.symm.trans hprepared
  | restorationFailed index entry prepared' packet code error hentry hprepared hforwards hrestore =>
    obtain ⟨bytes, -, hundo⟩ :=
      ((hu.pending entry (mem_of_getElem? hentry)).forwarding prepared' hprepared).undo
    rw [hrestore] at hundo
    cases (Prod.mk.inj hundo).2
  | transmit count hquarantined hforwards =>
    refine ⟨fun e he hid => h.pending e (mem_pending_transmit he) hid, fun e he hid => ?_, ?_,
      Nat.lt_succ_of_lt h.known⟩
    · rw [transmissions_transmit] at he
      rcases mem_append.mp he with he | he
      · rcases h.pending e (mem_of_mem_take he) hid with ⟨hp, -, hdead⟩ | hundone
        · rw [hforwards e he prepared hp] at hdead
          cases hdead
        · exact hundone
      · exact h.sent e he hid
    · unfold Queues.receivedIds World.transmit
      rw [received_iterate_transmitFront]
      exact h.received
  | receive =>
    refine h.requeue hu hs (fun e he _ => .inl he) ?_ ?_ (Nat.le_succ _)
    · exact filterMap_map_append _ _ _ fun _ => rfl
    · intro hid
      rw [Queues.receivedIds, World.receive, Queues.updatePendingStats, map_append,
        mem_append] at hid
      rcases hid with hid | hid
      · exact h.received hid
      · exact absurd (arrivedPackets_id hid) (Nat.ne_of_lt h.known)
  | discard front rest hreceived =>
    unfold World.discardFront at hs ⊢
    rw [hreceived] at hs ⊢
    exact h.requeue hu hs (fun e he _ => .inl he) rfl (hrest hreceived) (Nat.le_refl _)
  | linearize front rest hreceived =>
    rw [setFront_eq hreceived] at hs ⊢
    refine h.requeue hu hs (fun e he _ => .inl he) rfl ?_ (Nat.le_refl _)
    have hnot := h.received
    rw [Queues.receivedIds, hreceived] at hnot
    exact hnot
  | quarantine front rest packet change hquarantined hreceived hid hchange =>
    rw [hchange, quarantineFront_setFront hreceived hquarantined] at hs ⊢
    exact h.requeue hu hs (fun e he _ => .inl he) rfl (hrest hreceived) (Nat.le_refl _)
  | returnFront front rest packet view direction port hreceived hdecode hport hedit =>
    exact h.enqueue hu hreceived (edit_ok_id hedit) hs
  | prepareFront front rest packet output prepared' hreceived hframe hdecode hport houtput hforwards
      hedit => exact h.enqueue hu hreceived (edit_ok_id hedit) hs

theorem Condemned.step (hstep : Step sdk w w') : Condemned id prepared wire w' := by
  rcases hstep.packets_or with hs | hp
  · refine h.requeue hu hstep (fun e he _ => .inl (hs.pending ▸ he)) hs.transmissions ?_ hs.calls
    unfold Queues.receivedIds
    rw [hs.received]
    exact h.received
  · exact h.packetStep hu hp

end

end Condemned

/-- A buffer in the transmit queue is there once and nowhere else. -/
theorem Conserved.condemned (h : Conserved w) (hentry : entry ∈ w.owner.queues.pending)
    (hprepared : entry.prepared = some prepared) (hdead : w.owner.forwards prepared.handle = false)
    :
    Condemned entry.packet.id prepared entry.packet.wire w := by
  have hplaces (id : Nat × Nat) := h.places id
  have hone (id : Nat × Nat) : w.arrivals.count id ≤ 1 := nodup_iff_count_le_one.mp h.nodup id
  have hmem : entry.packet.id ∈ w.owner.queues.pendingIds := mem_map_of_mem hentry
  have hpos := count_pos_iff.mpr hmem
  have hid := hplaces entry.packet.id
  have hle := hone entry.packet.id
  have hnodup : w.owner.queues.pendingIds.Nodup :=
    nodup_iff_count_le_one.mpr fun id => by
      have := hplaces id
      have := hone id
      omega
  constructor
  case pending =>
    intro e he heid
    have heq := inj_on_of_nodup_map hnodup he hentry heid
    rw [heq]
    exact .inl ⟨hprepared, rfl, hdead⟩
  case sent =>
    intro e he heid
    have hsent : 0 < (w.transmissions.map (·.packet.id)).count entry.packet.id :=
      count_pos_iff.mpr (heid ▸ mem_map_of_mem he)
    omega
  case received =>
    intro hr
    have hreceived := count_pos_iff.mpr hr
    omega
  case known =>
    refine h.fresh _ (count_pos_iff.mp ?_)
    omega

/-- In every world of every run a prepared packet in the transmit queue holds
the forwarding edit of the frame that was received, and undoing an edit has not
failed; a packet that counted as forwarded was transmitted on its egress port by
an owner that was not closing and had not faulted, with its pair installed under
the generation of the handle. From a world on in which that does not hold of a
packet that waits, the packet is transmitted only on the port of its origin, with
the bytes `restore` gives for the frame that was received. -/
theorem prepared_undoable (sdk : Sdk) (w₀ : World) (h₀ : Opened w₀) (ops : List Op) :
    (∀ w ∈ (after sdk w₀ ops).now :: (after sdk w₀ ops).trace,
      (∀ entry ∈ w.owner.queues.pending, ∀ prepared, entry.prepared = some prepared →
        entry.packet.frame = .ok entry.packet.bytes ∧
        decode entry.packet.wire = .ok prepared.view ∧
        forward prepared.view prepared.direction entry.packet.wire = .ok () entry.packet.bytes) ∧
      Event.restorationFailed ∉ w.events ∧
      (∀ owner entry, Event.transmitted owner entry ∈ w.events → entry.kernel = false →
        ∃ prepared, entry.prepared = some prepared ∧
          owner.quiescing = false ∧ owner.faulted = false ∧
          (owner.table.pairs prepared.handle.slot.toNat).state = .installed ∧
          (owner.table.pairs prepared.handle.slot.toNat).generation = prepared.handle.generation ∧
          owner.dataPort prepared.direction.egressDataId = .ok entry.port)) ∧
    (∀ later w earlier,
      (after sdk w₀ ops).now :: (after sdk w₀ ops).trace = later ++ w :: earlier →
      ∀ entry ∈ w.owner.queues.pending, ∀ prepared, entry.prepared = some prepared →
      (w.owner.quiescing = true ∨ w.owner.faulted = true ∨
        (w.owner.table.pairs prepared.handle.slot.toNat).state ≠ .installed ∨
        (w.owner.table.pairs prepared.handle.slot.toNat).generation ≠ prepared.handle.generation) →
      ∃ bytes port, restore prepared.view prepared.direction entry.packet.wire = .ok () bytes ∧
        w.owner.dataPort (w.owner.config.origin (UInt32.ofNat entry.packet.origin)).data =
          .ok port ∧
        ∀ w' ∈ later, ∀ sent ∈ w'.transmissions, sent.packet.id = entry.packet.id →
          sent.kernel = true ∧ sent.port = port ∧ sent.packet.bytes = bytes) := by
  obtain ⟨hhistory, -⟩ := @reached_run sdk w₀ h₀ ops
  have hundoable := hhistory.always (undoable_step sdk) (undoable_opened h₀)
  have hconserved := hhistory.always (conserved_step sdk) (conserved_opened h₀)
  refine ⟨fun w hw => ?_, fun later w earlier hsplit entry hentry prepared hprepared hdead => ?_⟩
  · have h := hundoable w hw
    refine ⟨fun entry he prepared hp => ?_, h.restored, fun owner entry he hk => ?_⟩
    · have hf := (h.pending entry he).forwarding prepared hp
      exact ⟨hf.frame, hf.decoded, hf.forwarded⟩
    · cases hp : entry.prepared with
      | none => cases hk.symm.trans ((h.sound owner entry he).returning hp).kernel
      | some prepared =>
        obtain ⟨hinstalled, hq, hf⟩ := (OwnerState.forwards_iff _ _).mp (h.live owner entry he _ hp)
        obtain ⟨-, -, hgeneration, hstate⟩ := (OwnerState.installed_iff _ _).mp hinstalled
        exact ⟨prepared, rfl, hq, hf, hstate, hgeneration,
          ((h.sound owner entry he).forwarding prepared hp).output⟩
  · rw [hsplit] at hhistory hundoable hconserved
    have hw : w ∈ later ++ w :: earlier := mem_append_right _ mem_cons_self
    have hf := ((hundoable w hw).pending entry hentry).forwarding prepared hprepared
    have hdead' : w.owner.forwards prepared.handle = false := by
      rw [Bool.eq_false_iff, ne_eq, OwnerState.forwards_iff, OwnerState.installed_iff]
      intro ⟨⟨_, _, hgeneration, hstate⟩, hq, hfaulted⟩
      simp [hgeneration, hstate, hq, hfaulted] at hdead
    have hcondemned := (hconserved w hw).condemned hentry hprepared hdead'
    obtain ⟨bytes, hbytes, -⟩ := hf.undo
    refine ⟨bytes, prepared.returnPort, hbytes, hf.home, fun w' hw' sent hsent hid => ?_⟩
    have hlater := hhistory.after (fun u u' hu hs hc => hc.step (hundoable u hu) hs) hcondemned w' hw'
    obtain ⟨hk, -, hport, hrestored⟩ := hlater.sent sent hsent hid
    rw [hbytes] at hrestored
    cases hrestored
    exact ⟨hk, hport, rfl⟩

/-- The sample traffic on an SDK that takes no packet for the first five calls. -/
def sampleBackpressure : Sdk :=
  { sampleTraffic with txBurst := fun number _ count => if number < 5 then 0 else count }

/-- A packet waits, its pair is removed, and it and the next one return to the
kernel. -/
theorem prepared_undoable_sample :
    ((after sampleBackpressure sampleWorld
      [.pairInstall sampleSpec, .poll 1]).now.owner.queues.pending.map
        (·.prepared.isSome)) = [true] ∧
    ((after sampleBackpressure sampleWorld [.pairInstall sampleSpec, .poll 1,
      .pairRemove { instance_ := 1, generation := 1 }, .poll 1]).now.transmissions.map
        (·.kernel)) = [true, true] ∧
    Event.restorationFailed ∉ (after sampleBackpressure sampleWorld [.pairInstall sampleSpec,
      .poll 1, .pairRemove { instance_ := 1, generation := 1 }, .poll 1]).now.events :=
  ⟨by decide +kernel, by decide +kernel,
    ((prepared_undoable sampleBackpressure sampleWorld opened_sampleWorld _).1 _
      (.head _)).2.1⟩

end Mwan.Native

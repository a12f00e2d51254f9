import Mathlib.Data.List.Count
import Mwan.L2Machine.PairMap

/-!
# No packet is lost or duplicated by the worker

Every buffer a receive burst returns has a number. It is in the transmit
queue, in the received queue or in quarantine, or it has been transmitted or
freed as a group frame: in one of these, once. The counters of the worker are
the numbers of events, modulo 2^64.

Results:
* `conserved_step`: every step keeps the buffers in place;
* `quarantined_step`: with the quarantine occupied no step receives or
  transmits;
* `packet_conservation`: both, for every run.
-/
namespace Mwan.Native

open Mwan.Core List

/-! ## Events of packets -/

def Event.arrival : Event → Option (Nat × Nat)
  | .received id => some id
  | _ => none

def Event.transmission : Event → Option Pending
  | .transmitted _ entry => some entry
  | _ => none

def Event.discard : Event → Option (Nat × Nat)
  | .discarded id => some id
  | _ => none

/-- The buffers received so far. -/
def World.arrivals (w : World) : List (Nat × Nat) := w.events.filterMap Event.arrival

/-- The entries transmitted so far. -/
def World.transmissions (w : World) : List Pending := w.events.filterMap Event.transmission

/-- The buffers freed as group frames so far. -/
def World.discards (w : World) : List (Nat × Nat) := w.events.filterMap Event.discard

/-- The entries transmitted to the kernel, or not. -/
def World.sent (w : World) (kernel : Bool) : List Pending :=
  w.transmissions.filter (·.kernel = kernel)

/-- The buffers of the transmit queue. -/
def Queues.pendingIds (queues : Queues) : List (Nat × Nat) := queues.pending.map (·.packet.id)

/-- The buffers of the received queue. -/
def Queues.receivedIds (queues : Queues) : List (Nat × Nat) := queues.received.map (·.packet.id)

/-- The buffer in quarantine. -/
def Queues.quarantinedIds (queues : Queues) : List (Nat × Nat) :=
  queues.quarantined.toList.map (·.packet.id)

/-- Queues, counters and packet events are as before. -/
structure SamePackets (w w' : World) : Prop where
  pending : w'.owner.queues.pending = w.owner.queues.pending
  received : w'.owner.queues.received = w.owner.queues.received
  quarantined : w'.owner.queues.quarantined = w.owner.queues.quarantined
  receivedCount : w'.owner.queues.stats.received = w.owner.queues.stats.received
  forwarded : w'.owner.queues.stats.forwarded = w.owner.queues.stats.forwarded
  returned : w'.owner.queues.stats.returnedToKernel = w.owner.queues.stats.returnedToKernel
  discarded : w'.owner.queues.stats.discardedGroupFrames = w.owner.queues.stats.discardedGroupFrames
  faulted : w.owner.faulted = true → w'.owner.faulted = true
  calls : w.calls ≤ w'.calls
  events : w'.events.filter (!·.ofPairs) = w.events.filter (!·.ofPairs)

variable {w w' : World}

theorem PairStep.samePackets (h : PairStep w w') : SamePackets w w' := by
  cases h with
  | drain | place | index | install | renew | forget | keyPresent =>
    exact ⟨rfl, rfl, rfl, rfl, rfl, rfl, rfl, id, Nat.le_refl _, rfl⟩
  | faultPair => exact ⟨rfl, rfl, rfl, rfl, rfl, rfl, rfl, fun _ => rfl, Nat.le_refl _, rfl⟩
  | destroy | create => exact ⟨rfl, rfl, rfl, rfl, rfl, rfl, rfl, id, Nat.le_succ _, rfl⟩

theorem VxlanStep.samePackets (h : VxlanStep w w') : SamePackets w w' := by
  cases h with
  | amend => exact ⟨rfl, rfl, rfl, rfl, rfl, rfl, rfl, id, Nat.le_refl _, rfl⟩
  | create | destroy => exact ⟨rfl, rfl, rfl, rfl, rfl, rfl, rfl, id, Nat.le_succ _, rfl⟩

variable {sdk : Sdk}

/-- A step changes the queues, or leaves all packets alone. -/
theorem Step.packets_or (h : Step sdk w w') : SamePackets w w' ∨ PacketStep sdk w w' := by
  cases h with
  | frame h =>
    exact .inl ⟨h.pending, h.received, h.quarantined, h.receivedCount, h.forwarded, h.returned,
      h.discarded, h.faulted, h.calls, by rw [h.events]⟩
  | pair h => exact .inl h.samePackets
  | packet h => exact .inr h
  | vxlan h => exact .inl h.samePackets
  | activate | release => exact .inl ⟨rfl, rfl, rfl, rfl, rfl, rfl, rfl, id, Nat.le_refl _, rfl⟩

variable {α : Type}

/-- What is gathered from packet events alone is as before. -/
theorem SamePackets.filterMap (h : SamePackets w w') {f : Event → Option α}
    (hf : ∀ event, event.ofPairs = true → f event = none) :
    w'.events.filterMap f = w.events.filterMap f := by
  have hfilter (events : List Event) :
      events.filterMap f = (events.filter (!·.ofPairs)).filterMap f := by
    rw [filterMap_filter]
    refine filterMap_congr fun event _ => ?_
    cases he : event.ofPairs with
    | true => rw [hf event he]; rfl
    | false => rfl
  rw [hfilter, h.events, ← hfilter]

theorem SamePackets.arrivals (h : SamePackets w w') : w'.arrivals = w.arrivals :=
  h.filterMap fun event he => by cases event <;> first | rfl | cases he

theorem SamePackets.transmissions (h : SamePackets w w') : w'.transmissions = w.transmissions :=
  h.filterMap fun event he => by cases event <;> first | rfl | cases he

theorem SamePackets.discards (h : SamePackets w w') : w'.discards = w.discards :=
  h.filterMap fun event he => by cases event <;> first | rfl | cases he

/-! ## Conservation -/

/-- Receive bursts return buffers, and not more than requested. -/
structure Sdk.Honest (sdk : Sdk) : Prop where
  buffers : ∀ number port requested, none ∉ sdk.rxBurst number port requested
  length : ∀ number port requested, (sdk.rxBurst number port requested).length ≤ requested

/-- Every buffer is in one place, and the counters say how many went which way. -/
structure Conserved (w : World) : Prop where
  places : ∀ id, w.arrivals.count id =
    w.owner.queues.pendingIds.count id + w.owner.queues.receivedIds.count id +
    w.owner.queues.quarantinedIds.count id + (w.transmissions.map (·.packet.id)).count id +
    w.discards.count id
  nodup : w.arrivals.Nodup
  fresh : ∀ id ∈ w.arrivals, id.1 < w.calls
  forwarded : w.owner.queues.stats.forwarded = UInt64.ofNat (w.sent false).length
  returned : w.owner.queues.stats.returnedToKernel = UInt64.ofNat (w.sent true).length
  discarded : w.owner.queues.stats.discardedGroupFrames = UInt64.ofNat w.discards.length
  faulted : w.owner.queues.quarantined.isSome = true → w.owner.faulted = true

/-- The queues are rearranged, and no packet comes or goes. -/
theorem Conserved.rearrange (h : Conserved w)
    (hids : ∀ id, w'.owner.queues.pendingIds.count id + w'.owner.queues.receivedIds.count id +
        w'.owner.queues.quarantinedIds.count id =
      w.owner.queues.pendingIds.count id + w.owner.queues.receivedIds.count id +
        w.owner.queues.quarantinedIds.count id)
    (hstats : SameCounters w.owner.queues.stats w'.owner.queues.stats) (hcalls : w.calls ≤ w'.calls)
    (harrivals : w'.arrivals = w.arrivals) (htransmissions : w'.transmissions = w.transmissions)
    (hdiscards : w'.discards = w.discards)
    (hfaulted : w'.owner.queues.quarantined.isSome = true → w'.owner.faulted = true) :
    Conserved w' := by
  constructor
  case places =>
    intro id
    rw [hids, harrivals, htransmissions, hdiscards]
    exact h.places id
  case nodup => rw [harrivals]; exact h.nodup
  case fresh =>
    rw [harrivals]
    exact fun id hid => Nat.lt_of_lt_of_le (h.fresh id hid) hcalls
  case forwarded => unfold World.sent; rw [hstats.forwarded, htransmissions]; exact h.forwarded
  case returned => unfold World.sent; rw [hstats.returned, htransmissions]; exact h.returned
  case discarded => rw [hstats.discarded, hdiscards]; exact h.discarded
  case faulted => exact hfaulted

theorem Conserved.samePackets (h : Conserved w) (hs : SamePackets w w') : Conserved w' := by
  refine h.rearrange (fun id => ?_) { hs with received := hs.receivedCount }
    hs.calls hs.arrivals hs.transmissions hs.discards ?_
  · unfold Queues.pendingIds Queues.receivedIds Queues.quarantinedIds
    rw [hs.pending, hs.received, hs.quarantined]
  · rw [hs.quarantined]
    exact fun hq => hs.faulted (h.faulted hq)

/-- Further events that say nothing of the kind. -/
theorem filterMap_map_append {β : Type} {f : Event → Option β} (l : List α) (g : α → Event)
    (events : List Event) (h : ∀ a, f (g a) = none) :
    (l.map g ++ events).filterMap f = events.filterMap f := by
  rw [filterMap_append, filterMap_eq_nil_iff.mpr, nil_append]
  intro event he
  obtain ⟨a, -, rfl⟩ := mem_map.mp he
  exact h a

/-! ### Transmitting -/

/-- The counters after a burst. -/
theorem stats_iterate_transmitFront (queues : Queues) (count : Nat) :
    (Queues.transmitFront^[count] queues).stats.forwarded = queues.stats.forwarded +
        UInt64.ofNat ((queues.pending.take count).filter (·.kernel = false)).length ∧
    (Queues.transmitFront^[count] queues).stats.returnedToKernel = queues.stats.returnedToKernel +
        UInt64.ofNat ((queues.pending.take count).filter (·.kernel = true)).length ∧
    (Queues.transmitFront^[count] queues).stats.received = queues.stats.received ∧
    (Queues.transmitFront^[count] queues).stats.discardedGroupFrames =
      queues.stats.discardedGroupFrames := by
  induction count generalizing queues with
  | zero => simp
  | succ n ih =>
    rw [Function.iterate_succ_apply]
    obtain ⟨hf, hr, hrest⟩ := ih queues.transmitFront
    rw [hf, hr, hrest.1, hrest.2, pending_transmitFront]
    unfold Queues.transmitFront
    cases hp : queues.pending with
    | nil => simp
    | cons entry =>
      cases hk : entry.kernel <;>
        simp [hk, UInt64.ofNat_add, UInt64.add_assoc, UInt64.add_comm 1]

theorem transmissions_transmit (w : World) (count : Nat) :
    (w.transmit count).transmissions = w.owner.queues.pending.take count ++ w.transmissions := by
  simp only [World.transmissions, World.transmit, filterMap_append, filterMap_map]
  congr 1
  exact filterMap_some

theorem Conserved.transmit (h : Conserved w) (count : Nat) : Conserved (w.transmit count) := by
  have harrivals : (w.transmit count).arrivals = w.arrivals :=
    filterMap_map_append _ _ _ fun _ => rfl
  have hdiscards : (w.transmit count).discards = w.discards :=
    filterMap_map_append _ _ _ fun _ => rfl
  have hsent (kernel : Bool) : (w.transmit count).sent kernel =
      (w.owner.queues.pending.take count).filter (·.kernel = kernel) ++ w.sent kernel := by
    unfold World.sent
    rw [transmissions_transmit, filter_append]
  obtain ⟨hf, hr, -, hd⟩ := stats_iterate_transmitFront w.owner.queues count
  constructor
  case places =>
    intro id
    have hpending : (w.transmit count).owner.queues.pendingIds =
        (w.owner.queues.pending.drop count).map (·.packet.id) :=
      congrArg (map _) (pending_iterate_transmitFront ..)
    have hreceived : (w.transmit count).owner.queues.receivedIds = w.owner.queues.receivedIds :=
      congrArg (map _) (received_iterate_transmitFront ..)
    have hquarantined :
        (w.transmit count).owner.queues.quarantinedIds = w.owner.queues.quarantinedIds :=
      congrArg (fun q => map _ (Option.toList q)) (quarantined_iterate_transmitFront ..)
    have hsplit : w.owner.queues.pendingIds.count id =
        ((w.owner.queues.pending.take count).map (·.packet.id)).count id +
        ((w.owner.queues.pending.drop count).map (·.packet.id)).count id := by
      rw [← count_append, ← map_append, take_append_drop]
      rfl
    rw [harrivals, hpending, hreceived, hquarantined, transmissions_transmit, hdiscards,
      map_append, count_append, h.places, hsplit]
    omega
  case nodup => rw [harrivals]; exact h.nodup
  case fresh =>
    rw [harrivals]
    exact fun id hid => Nat.lt_succ_of_lt (h.fresh id hid)
  case forwarded =>
    rw [hsent, length_append, UInt64.ofNat_add, ← h.forwarded, UInt64.add_comm]
    exact hf
  case returned =>
    rw [hsent, length_append, UInt64.ofNat_add, ← h.returned, UInt64.add_comm]
    exact hr
  case discarded => rw [hdiscards, ← h.discarded]; exact hd
  case faulted =>
    intro hq
    exact h.faulted ((congrArg Option.isSome (quarantined_iterate_transmitFront ..)).symm.trans hq)

/-! ### Receiving -/

theorem arrivedPackets_ids (burst : List (Option Arrival)) (number origin : Nat) :
    (arrivedPackets burst number origin).map (·.packet.id) =
      burst.zipIdx.filterMap fun entry => entry.1.map fun _ => (number, entry.2) := by
  simp only [arrivedPackets, map_filterMap]
  refine filterMap_congr fun entry _ => ?_
  cases entry.1 <;> rfl

theorem arrivedPackets_nodup (burst : List (Option Arrival)) (number origin : Nat) :
    ((arrivedPackets burst number origin).map (·.packet.id)).Nodup := by
  rw [arrivedPackets_ids]
  have hindexes : (burst.zipIdx.map Prod.snd).Nodup := by
    rw [zipIdx_map_snd]
    exact nodup_range'
  refine pairwise_filterMap.mpr ((pairwise_map.mp hindexes).imp fun {a b} hne => ?_)
  intro id hid id' hid' heq
  obtain ⟨-, -, rfl⟩ := Option.map_eq_some_iff.mp hid
  obtain ⟨-, -, rfl⟩ := Option.map_eq_some_iff.mp hid'
  exact hne (Prod.mk.inj heq).2

theorem arrivedPackets_length {burst : List (Option Arrival)} (h : none ∉ burst)
    (number origin : Nat) : (arrivedPackets burst number origin).length = burst.length := by
  rw [← @List.length_zipIdx _ burst 0]
  refine filterMap_length_eq_length.mpr fun entry he => ?_
  have hmem := fst_mem_of_mem_zipIdx he
  cases hfst : entry.1 with
  | none => rw [hfst] at hmem; exact absurd hmem h
  | some => rfl

/-- New buffers carry the number of the call. -/
theorem arrivedPackets_id {burst : List (Option Arrival)} {number origin : Nat} {id : Nat × Nat}
    (h : id ∈ (arrivedPackets burst number origin).map (·.packet.id)) : id.1 = number := by
  rw [arrivedPackets_ids] at h
  obtain ⟨entry, -, hid⟩ := mem_filterMap.mp h
  obtain ⟨-, -, rfl⟩ := Option.map_eq_some_iff.mp hid
  rfl

/-- The events of a receive burst. -/
theorem arrivals_receive (w : World) (burst : List (Option Arrival)) (requested origin : Nat) :
    (w.receive burst requested origin).arrivals =
      (arrivedPackets (burst.take requested) w.calls origin).map (·.packet.id) ++ w.arrivals := by
  simp only [World.arrivals, World.receive, filterMap_append, filterMap_map]
  congr 1
  exact congrFun filterMap_eq_map _

theorem Conserved.receive (h : Conserved w) (burst : List (Option Arrival)) (requested origin : Nat)
    : Conserved (w.receive burst requested origin) := by
  have harrivals := arrivals_receive w burst requested origin
  have htransmissions : (w.receive burst requested origin).transmissions = w.transmissions :=
    filterMap_map_append _ _ _ fun _ => rfl
  have hdiscards : (w.receive burst requested origin).discards = w.discards :=
    filterMap_map_append _ _ _ fun _ => rfl
  constructor
  case places =>
    intro id
    have hplaces := h.places id
    have hreceived : (w.receive burst requested origin).owner.queues.receivedIds =
        w.owner.queues.receivedIds ++
          (arrivedPackets (burst.take requested) w.calls origin).map (·.packet.id) :=
      map_append
    rw [harrivals, htransmissions, hdiscards, hreceived, count_append, count_append]
    change _ = w.owner.queues.pendingIds.count id + _ + w.owner.queues.quarantinedIds.count id + _ + _
    omega
  case nodup =>
    rw [harrivals]
    refine Nodup.append (arrivedPackets_nodup ..) h.nodup fun id hid hold => ?_
    exact absurd (arrivedPackets_id hid) (Nat.ne_of_lt (h.fresh id hold))
  case fresh =>
    intro id hid
    rw [harrivals] at hid
    rcases mem_append.mp hid with hid | hid
    · rw [arrivedPackets_id hid]; exact Nat.lt_succ_self _
    · exact Nat.lt_succ_of_lt (h.fresh id hid)
  case forwarded => unfold World.sent; rw [htransmissions]; exact h.forwarded
  case returned => unfold World.sent; rw [htransmissions]; exact h.returned
  case discarded => rw [hdiscards]; exact h.discarded
  case faulted => exact h.faulted

/-! ### Working off the received queue -/

/-- A list changed at one place, seen through a function that does not notice. -/
theorem map_set_of_eq {β : Type} {f : α → β} {l : List α} {index : Nat} {a b : α}
    (ha : l[index]? = some a) (hb : f b = f a) : (l.set index b).map f = l.map f := by
  rw [map_set, hb]
  refine ext_getElem? fun i => ?_
  by_cases hi : index = i
  · subst hi
    rw [getElem?_set_self (by
      rw [length_map]
      exact (List.getElem?_eq_some_iff.mp ha).1), List.getElem?_map, ha]
    rfl
  · rw [getElem?_set_ne hi]

theorem restoreFrame_id {packet packet' : PacketBuffer} {prepared : PreparedForward}
    {result : Except Int Unit} (h : restoreFrame packet prepared = (packet', result)) :
    packet'.id = packet.id := by
  unfold restoreFrame at h
  split at h
  · cases h; rfl
  · split at h
    case h_1 hedit => cases h; exact edit_ok_id hedit
    case h_2 hedit => cases h; exact edit_ok_id hedit

/-- An entry of the transmit queue is replaced by one of the same buffer. -/
theorem pendingIds_set {queues : Queues} {index : Nat} {entry new : Pending}
    (hentry : queues.pending[index]? = some entry) (hid : new.packet.id = entry.packet.id) :
    (queues.pending.set index new).map (·.packet.id) = queues.pendingIds :=
  map_set_of_eq hentry hid

section

variable {front : Received} {rest : List Received} (h : Conserved w)
  (hreceived : w.owner.queues.received = front :: rest)

include h hreceived

/-- The front packet joins the transmit queue. -/
theorem Conserved.enqueue {entry : Pending} (hid : entry.packet.id = front.packet.id) :
    Conserved (w.setQueues (w.owner.queues.enqueueFront entry)) := by
  rw [enqueueFront_eq hreceived]
  refine h.rearrange (fun id => ?_) ⟨rfl, rfl, rfl, rfl⟩ (Nat.le_refl _) rfl rfl rfl h.faulted
  simp only [World.setQueues, Queues.updatePendingStats, Queues.pendingIds, Queues.receivedIds,
    Queues.quarantinedIds, hreceived, map_append, map_cons, map_nil,
    count_append, count_cons, count_nil, hid]
  omega

/-- The front packet is freed. -/
theorem Conserved.discard : Conserved w.discardFront := by
  unfold World.discardFront
  rw [hreceived]
  refine { h with places := fun id => ?_, discarded := ?_ }
  · have hplaces := h.places id
    have hdiscards (events : List Event) : (Event.discarded front.packet.id :: events).filterMap
        Event.discard = front.packet.id :: events.filterMap Event.discard := rfl
    simp only [World.arrivals, World.transmissions, World.discards, Queues.pendingIds,
      Queues.receivedIds, Queues.quarantinedIds, hreceived, hdiscards, map_cons,
      count_cons] at hplaces ⊢
    change (w.events.filterMap Event.arrival).count id = _ + _ + _ +
      ((w.events.filterMap Event.transmission).map (·.packet.id)).count id + _
    omega
  · change w.owner.queues.stats.discardedGroupFrames + 1 =
      UInt64.ofNat (front.packet.id :: w.discards).length
    rw [length_cons, UInt64.ofNat_add, h.discarded]
    rfl

end

theorem conserved_packetStep (hstep : PacketStep sdk w w') (h : Conserved w) : Conserved w' := by
  cases hstep with
  | restore index entry prepared packet hentry hprepared hforwards hrestore =>
    refine h.rearrange (fun id => ?_) ⟨rfl, rfl, rfl, rfl⟩ (Nat.le_refl _) rfl rfl rfl h.faulted
    have hids := @pendingIds_set _ _ _ (Pending.returned packet prepared) hentry
      (restoreFrame_id hrestore)
    simp only [World.setQueues, Queues.restored, Queues.pendingIds] at hids ⊢
    rw [hids]
    rfl
  | restorationFailed index entry prepared packet code error hentry hprepared hforwards hrestore =>
    refine h.rearrange (fun id => ?_) ⟨rfl, rfl, rfl, rfl⟩ (Nat.le_refl _) rfl rfl rfl fun _ => rfl
    have hids := @pendingIds_set _ _ _ { entry with packet := packet } hentry
      (restoreFrame_id hrestore)
    simp only [World.restorationFailed, Queues.updatePendingStats, Queues.pendingIds] at hids ⊢
    rw [hids]
    rfl
  | transmit count => exact h.transmit count
  | receive port requested origin => exact h.receive _ requested origin
  | discard front rest hreceived => exact h.discard hreceived
  | linearize front rest hreceived =>
    rw [setFront_eq hreceived]
    refine h.rearrange (fun id => ?_) ⟨rfl, rfl, rfl, rfl⟩ (Nat.le_refl _) rfl rfl rfl h.faulted
    simp [World.setQueues, Queues.pendingIds, Queues.receivedIds, Queues.quarantinedIds, hreceived]
  | quarantine front rest packet change hquarantined hreceived hid hchange =>
    rw [hchange, quarantineFront_setFront hreceived hquarantined]
    refine h.rearrange (fun id => ?_) ⟨rfl, rfl, rfl, rfl⟩ (Nat.le_refl _) rfl rfl rfl fun _ => rfl
    simp only [Queues.updatePendingStats, Queues.pendingIds, Queues.receivedIds,
      Queues.quarantinedIds, hreceived, hquarantined, Option.toList_some, Option.toList_none,
      map_cons, map_nil, count_cons, count_nil, hid]
    omega
  | returnFront | prepareFront => exact h.enqueue ‹_› (edit_ok_id ‹_›)

/-- Every step keeps the buffers in place. -/
theorem conserved_step (sdk : Sdk) : Closed (Step sdk) Conserved := by
  intro w w' hstep h
  rcases hstep.packets_or with hs | hp
  · exact h.samePackets hs
  · exact conserved_packetStep hp h

/-- The counter of received packets is the number of buffers, if the SDK is
honest. -/
theorem received_step (hhonest : sdk.Honest) : Closed (Step sdk) fun w =>
    w.owner.queues.stats.received = UInt64.ofNat w.arrivals.length := by
  intro w w' hstep h
  rcases hstep.packets_or with hs | hp
  · rw [hs.receivedCount, hs.arrivals]
    exact h
  · cases hp with
    | restore | restorationFailed | returnFront | prepareFront => exact h
    | transmit count =>
      have harrivals : (w.transmit count).arrivals = w.arrivals :=
        filterMap_map_append _ _ _ fun _ => rfl
      rw [harrivals, ← h]
      exact (stats_iterate_transmitFront w.owner.queues count).2.2.1
    | receive port requested =>
      rw [arrivals_receive, length_append, length_map, UInt64.ofNat_add, ← h,
        arrivedPackets_length fun hm => hhonest.buffers w.calls port requested
          (mem_of_mem_take hm), UInt64.add_comm]
      rfl
    | discard front rest hreceived =>
      unfold World.discardFront
      rw [hreceived]
      exact h
    | linearize front rest hreceived =>
      rw [setFront_eq hreceived]
      exact h
    | quarantine front rest packet change hquarantined hreceived hid hchange =>
      rw [hchange, quarantineFront_setFront hreceived hquarantined]
      exact h

theorem conserved_opened (h : Opened w) : Conserved w := by
  have harrivals : w.arrivals = [] := by unfold World.arrivals; rw [h.events]; rfl
  have htransmissions : w.transmissions = [] := by unfold World.transmissions; rw [h.events]; rfl
  have hdiscards : w.discards = [] := by unfold World.discards; rw [h.events]; rfl
  constructor
  case places => simp [harrivals, htransmissions, hdiscards, h.queues, Queues.pendingIds,
    Queues.receivedIds, Queues.quarantinedIds]
  case nodup => rw [harrivals]; exact nodup_nil
  case fresh => rw [harrivals]; exact fun _ hid => absurd hid not_mem_nil
  case forwarded => unfold World.sent; rw [htransmissions, h.queues]; rfl
  case returned => unfold World.sent; rw [htransmissions, h.queues]; rfl
  case discarded => rw [hdiscards, h.queues]; rfl
  case faulted => rw [h.queues]; exact nofun

/-- What has been transmitted went to the kernel or not. -/
theorem sent_perm (w : World) : (w.sent false ++ w.sent true).Perm w.transmissions := by
  have h := filter_append_perm (fun entry => decide (entry.kernel = false)) w.transmissions
  have hkernel : w.transmissions.filter (fun entry => !decide (entry.kernel = false)) =
      w.transmissions.filter (fun entry => decide (entry.kernel = true)) :=
    filter_congr fun entry _ => by cases entry.kernel <;> rfl
  rw [hkernel] at h
  exact h

/-- The places of a buffer, with the transmitted ones told apart. -/
theorem Conserved.count (h : Conserved w) (id : Nat × Nat) :
    w.arrivals.count id =
      w.owner.queues.pendingIds.count id + w.owner.queues.receivedIds.count id +
      w.owner.queues.quarantinedIds.count id + ((w.sent false).map (·.packet.id)).count id +
      ((w.sent true).map (·.packet.id)).count id + w.discards.count id := by
  have hsent := ((sent_perm w).map (·.packet.id)).count_eq id
  rw [map_append, count_append] at hsent
  rw [h.places, ← hsent]
  omega

/-- The number of buffers received is the number of those in some place. -/
theorem Conserved.length (h : Conserved w) :
    w.arrivals.length = (w.sent false).length + (w.sent true).length + w.discards.length +
      w.owner.queues.pending.length + w.owner.queues.received.length +
      if w.owner.queues.quarantined.isSome then 1 else 0 := by
  have hperm : w.arrivals.Perm (w.owner.queues.pendingIds ++ w.owner.queues.receivedIds ++
      w.owner.queues.quarantinedIds ++ (w.sent false).map (·.packet.id) ++
      (w.sent true).map (·.packet.id) ++ w.discards) := by
    refine perm_iff_count.mpr fun id => ?_
    simp only [count_append]
    exact h.count id
  have hquarantined : w.owner.queues.quarantinedIds.length =
      if w.owner.queues.quarantined.isSome then 1 else 0 := by
    unfold Queues.quarantinedIds
    cases w.owner.queues.quarantined <;> rfl
  have hlength := hperm.length_eq
  simp only [length_append, length_map, hquarantined, Queues.pendingIds,
    Queues.receivedIds] at hlength
  omega

/-! ## Quarantine -/

/-- With the quarantine occupied nothing is received or transmitted, and it
stays occupied. -/
theorem quarantined_step (hstep : Step sdk w w') (hq : w.owner.queues.quarantined.isSome = true) :
    w'.owner.queues.quarantined.isSome = true ∧ w'.arrivals = w.arrivals ∧
      w'.transmissions = w.transmissions := by
  have occupied (h : w.owner.queues.quarantined = none) : False := by
    rw [h] at hq
    cases hq
  rcases hstep.packets_or with hs | hp
  · rw [hs.quarantined]
    exact ⟨hq, hs.arrivals, hs.transmissions⟩
  · cases hp with
    | restore | restorationFailed | returnFront | prepareFront => exact ⟨hq, rfl, rfl⟩
    | transmit | receive | quarantine => exact (occupied ‹_›).elim
    | discard front rest hreceived =>
      unfold World.discardFront
      rw [hreceived]
      exact ⟨hq, rfl, rfl⟩
    | linearize front rest hreceived =>
      rw [setFront_eq hreceived]
      exact ⟨hq, rfl, rfl⟩

/-- In every world of every run the buffers received are those forwarded,
returned to the kernel, freed, queued and in quarantine, each in one place, and
the counters agree modulo 2^64; a buffer is in quarantine only with the owner
faulted, and from then on nothing is received or transmitted. -/
theorem packet_conservation (sdk : Sdk) (hhonest : sdk.Honest) (w₀ : World) (h₀ : Opened w₀)
    (ops : List Op) :
    (∀ w ∈ (after sdk w₀ ops).now :: (after sdk w₀ ops).trace,
      UInt64.ofNat w.arrivals.length =
        w.owner.queues.stats.forwarded + w.owner.queues.stats.returnedToKernel +
        w.owner.queues.stats.discardedGroupFrames + UInt64.ofNat w.owner.queues.pending.length +
        UInt64.ofNat w.owner.queues.received.length +
        (if w.owner.queues.quarantined.isSome then 1 else 0) ∧
      w.owner.queues.stats.received = UInt64.ofNat w.arrivals.length ∧
      w.owner.queues.stats.forwarded = UInt64.ofNat (w.sent false).length ∧
      w.owner.queues.stats.returnedToKernel = UInt64.ofNat (w.sent true).length ∧
      w.owner.queues.stats.discardedGroupFrames = UInt64.ofNat w.discards.length ∧
      w.arrivals.Nodup ∧
      (∀ id, w.arrivals.count id =
        w.owner.queues.pendingIds.count id + w.owner.queues.receivedIds.count id +
        w.owner.queues.quarantinedIds.count id + ((w.sent false).map (·.packet.id)).count id +
        ((w.sent true).map (·.packet.id)).count id + w.discards.count id) ∧
      (w.owner.queues.quarantined.isSome = true → w.owner.faulted = true)) ∧
    (∀ later w earlier,
      (after sdk w₀ ops).now :: (after sdk w₀ ops).trace = later ++ w :: earlier →
      w.owner.queues.quarantined.isSome = true →
      ∀ w' ∈ later, w'.arrivals = w.arrivals ∧ w'.transmissions = w.transmissions) := by
  obtain ⟨hhistory, -⟩ := @reached_run sdk w₀ h₀ ops
  have hconserved := hhistory.always (conserved_step sdk) (conserved_opened h₀)
  have hreceived := hhistory.always (received_step hhonest)
    (by rw [World.arrivals, h₀.events, h₀.queues]; rfl)
  refine ⟨fun w hw => ?_, fun later w earlier hsplit hq w' hw' => ?_⟩
  · have h := hconserved w hw
    refine ⟨?_, hreceived w hw, h.forwarded, h.returned, h.discarded, h.nodup, h.count, h.faulted⟩
    rw [h.length, h.forwarded, h.returned, h.discarded]
    cases w.owner.queues.quarantined.isSome <;> simp [UInt64.ofNat_add]
  · rw [hsplit] at hhistory
    refine (hhistory.after (K := fun u => u.owner.queues.quarantined.isSome = true ∧
      u.arrivals = w.arrivals ∧ u.transmissions = w.transmissions) (fun u u' _ hs hu => ?_)
      ⟨hq, rfl, rfl⟩ w' hw').2
    obtain ⟨hq', ha, ht⟩ := quarantined_step hs hu.1
    exact ⟨hq', ha.trans hu.2.1, ht.trans hu.2.2⟩

/-- A segment of the sample connection as the hardware has rewritten it. -/
def sampleFrame : Bytes :=
  [2, 0, 0, 0, 0, 2, 2, 0, 0, 0, 0, 1, 8, 0,
    69, 0, 0, 40, 0, 1, 0, 0, 64, 6, 142, 153, 198, 51, 100, 1, 192, 0, 2, 1,
    3, 232, 0, 80, 0, 0, 0, 1, 0, 0, 0, 1, 80, 16, 1, 0, 190, 100, 0, 0]

/-- The sample SDK with such a segment in every receive burst. -/
def sampleTraffic : Sdk :=
  { sampleSdk with
    rxBurst := fun _ _ requested => if requested = 0 then [] else [some { bytes := sampleFrame }] }

theorem honest_sampleTraffic : sampleTraffic.Honest where
  buffers := fun _ _ requested => by
    by_cases h : requested = 0 <;> simp [sampleTraffic, h]
  length := fun _ _ requested => by
    by_cases h : requested = 0
    · simp [sampleTraffic, h]
    · simp only [sampleTraffic, h, if_false, length_singleton]
      exact Nat.pos_of_ne_zero h

/-- One packet is received and forwarded. -/
theorem packet_conservation_sample :
    (after sampleTraffic sampleWorld [.pairInstall sampleSpec, .poll 1]).now.arrivals.length = 1 ∧
    (after sampleTraffic sampleWorld
      [.pairInstall sampleSpec, .poll 1]).now.owner.queues.stats.forwarded = 1 ∧
    (after sampleTraffic sampleWorld
      [.pairInstall sampleSpec, .poll 1]).now.arrivals.Nodup :=
  ⟨by decide +kernel, by decide +kernel,
    ((packet_conservation sampleTraffic honest_sampleTraffic sampleWorld opened_sampleWorld _).1 _
      (.head _)).2.2.2.2.2.1⟩

end Mwan.Native

import Mwan.L2Machine.PairOperations

/-!
# What the packet worker does

Polling keeps a quiet owner quiet: an entry it prepares has its pair installed
at that moment. As long as it goes on the quarantine is empty; the first
packet that goes there ends it with an error.

Results:
* `processFront_spec`, `poll_spec`, `drain_spec`.
-/
namespace Mwan.Native

open Mwan.Core Mwan.Core.Exec Mwan.Core.Prog

/-! ## Assertions -/

/-- A quiet owner that is active or quiesces: what `poll` is called on. -/
structure Working (scope : Scope) (w : World) : Prop extends Quiet scope w where
  serving : w.owner.active = true ∨ w.owner.quiescing = true

/-- The quarantine is empty as well. -/
structure Polling (scope : Scope) (w : World) : Prop extends Working scope w where
  quarantined : w.owner.queues.quarantined = none

theorem working_calm (scope : Scope) : CalmStable (Working scope) := by
  intro w w' h hw
  refine ⟨quiet_calm scope w w' h hw.toQuiet, ?_⟩
  rcases hw.serving with ha | hq
  · exact .inl (h.active.trans ha)
  · exact .inr (h.quiescing hq)

theorem polling_calm (scope : Scope) : CalmStable (Polling scope) :=
  fun w w' h hw => ⟨working_calm scope w w' h hw.toWorking, h.quarantined.trans hw.quarantined⟩

/-- The packet at the front is being processed, by an owner that is otherwise
as given. -/
structure Routing (scope : Scope) (front : Received) (rest : List Received) (owner : OwnerState)
    (w : World) : Prop extends Polling scope w where
  received : w.owner.queues.received = front :: rest
  sameConfig : w.owner.config = owner.config
  instance_ : w.owner.instance_ = owner.instance_
  data : w.owner.data = owner.data
  table : w.owner.table = owner.table
  unquiescing : w.owner.quiescing = owner.quiescing
  unfaulted : w.owner.faulted = owner.faulted

section Worker

variable {sdk : Sdk} {scope : Scope} {front : Received} {rest : List Received} {owner : OwnerState}
  {α : Type}

theorem routing_aside : AsideStable (Routing scope front rest owner) :=
  fun w _ _ hc hw => { hw with toPolling := (polling_calm scope).aside w _ _ hc hw.toPolling }

/-- The counters that account for packets are the same. -/
structure SameCounters (stats stats' : WorkerStats) : Prop where
  received : stats'.received = stats.received
  forwarded : stats'.forwarded = stats.forwarded
  returned : stats'.returnedToKernel = stats.returnedToKernel
  discarded : stats'.discardedGroupFrames = stats.discardedGroupFrames

theorem frame_stats (w : World) {stats : WorkerStats}
    (h : SameCounters w.owner.queues.stats stats) :
    Frame w (w.setQueues { w.owner.queues with stats := stats }) := by
  refine ⟨?_, id, id, Nat.le_refl _⟩
  simp only [World.rigid, World.setQueues, h.received, h.forwarded, h.returned, h.discarded]

theorem setStats_spec {f : WorkerStats → WorkerStats} (hf : ∀ stats, SameCounters stats (f stats)) :
    Spec (Step sdk) (Routing scope front rest owner) (setStats f)
      (fun _ => Routing scope front rest owner) (fun _ => Working scope) := by
  refine spec_setQueues (fun w _ => .frame (frame_stats w (hf _))) fun w hw => ?_
  exact { hw with toPolling := polling_calm scope w _ (frame_stats w (hf _)).calm hw.toPolling }

/-! ## Quarantine -/

variable {queues : Queues}

theorem setFront_eq (h : queues.received = front :: rest) (packet : PacketBuffer) :
    queues.setFront packet = { queues with received := { front with packet := packet } :: rest } := by
  simp only [Queues.setFront, h]

theorem setFront_self (h : queues.received = front :: rest) :
    queues.setFront front.packet = queues := by
  rw [setFront_eq h]
  cases queues
  simp_all

theorem quarantineFront_setFront (h : queues.received = front :: rest)
    (hq : queues.quarantined = none) (packet : PacketBuffer) :
    (queues.setFront packet).quarantineFront =
      { queues with
        quarantined := some { front with packet := packet }
        received := rest
        stats := { queues.stats with
          quarantinedPackets := queues.stats.quarantinedPackets + 1 } } := by
  simp only [setFront_eq h, Queues.quarantineFront, hq]

variable {packet : PacketBuffer}

theorem quarantineWith_spec {change : Queues → Queues} (code : Int) (diagnostic : PacketDiagnostic)
    (hid : packet.id = front.packet.id)
    (hchange : ∀ queues, queues.received = front :: rest → change queues = queues.setFront packet) :
    Spec (Step sdk) (Routing scope front rest owner) (quarantineWith change code diagnostic)
      (fun _ => Working scope) (fun _ => Working scope) := by
  refine spec_anySelf fun _ => .bind (R := fun _ => Working scope) (spec_setOwner
    (fun w hw => ?_) fun w hw => ?_) fun _ => .skip
  · exact .packet (.quarantine front rest packet change hw.quarantined hw.received hid
      (hchange _ hw.received))
  · rw [hchange _ hw.received, quarantineFront_setFront hw.received hw.quarantined]
    exact ⟨⟨⟨hw.present, hw.toSettled.config, hw.clean, hw.retained, hw.idle, hw.done,
      fun hv => ⟨(hw.vxlan hv).1, (hw.vxlan hv).2⟩⟩, hw.prepared⟩, hw.serving⟩

/-- The front packet goes to quarantine and the poll ends. -/
theorem quarantineFront_spec (code : Int) (diagnostic : PacketDiagnostic) {Q : α → World → Prop} :
    Spec (Step sdk) (Routing scope front rest owner)
      (do throw (← quarantineFront code diagnostic)) Q (fun _ => Working scope) :=
  Spec.bind (quarantineWith_spec code diagnostic rfl fun _ h => (setFront_self h).symm)
    fun _ => .abort

theorem rejectFront_spec (code : Int) (diagnostic : PacketDiagnostic) {Q : α → World → Prop} :
    Spec (Step sdk) (Routing scope front rest owner) (rejectFront code diagnostic) Q
      (fun _ => Working scope) :=
  Spec.bind (setStats_spec fun _ => ⟨rfl, rfl, rfl, rfl⟩) fun _ =>
    quarantineFront_spec code diagnostic

/-! ## Decoding and looking up -/

/-- The entry with its packet made contiguous. -/
def Received.contiguous (front : Received) : Received :=
  { front with packet := { front.packet with contiguous := true } }

theorem linearize_eq_ok {packet' : PacketBuffer} (h : packet.linearize = .ok packet') :
    packet' = { packet with contiguous := true } := by
  unfold PacketBuffer.linearize at h
  split at h
  · cases h
  · split at h
    · cases h
    · exact (Except.ok.inj h).symm

theorem frame_eq_ok {bytes : Bytes} (h : packet.frame = .ok bytes) : bytes = packet.bytes := by
  unfold PacketBuffer.frame at h
  split at h
  · cases h
  · split at h
    · cases h
    · exact (Except.ok.inj h).symm

/-- The front packet is contiguous and decodes to the view. -/
structure Decoded (scope : Scope) (front : Received) (rest : List Received) (owner : OwnerState)
    (view : ParsedPacket) (w : World) : Prop extends Routing scope front rest owner w where
  frame : front.packet.frame = .ok front.packet.bytes
  view : decode front.packet.bytes = .ok view

variable {w : World}

theorem Routing.contiguous (hw : Routing scope front rest owner w) :
    Routing scope front.contiguous rest owner
      (w.setQueues (w.owner.queues.setFront { front.packet with contiguous := true })) := by
  rw [setFront_eq hw.received]
  exact ⟨polling_calm scope w _ ⟨rfl, rfl, rfl, rfl, rfl, rfl, fun entry he _ hp => ⟨entry, he, hp⟩, id, id,
    fun h => ⟨h.1, h.2⟩⟩ hw.toPolling, rfl, hw.sameConfig, hw.instance_, hw.data, hw.table,
    hw.unquiescing, hw.unfaulted⟩

theorem decodeFront_spec :
    Spec (Step sdk) (Routing scope front rest owner) (decodeFront front.packet)
      (fun view => Decoded scope front.contiguous rest owner view) (fun _ => Working scope) := by
  unfold decodeFront
  cases hlinear : front.packet.linearize with
  | error => exact rejectFront_spec _ _
  | ok packet =>
    have hpacket := linearize_eq_ok hlinear
    subst hpacket
    refine .bind (R := fun _ => Routing scope front.contiguous rest owner)
      (spec_setQueues (fun w hw => ?_) fun w hw => ?_) fun _ => ?_
    · exact .packet (.linearize front rest hw.received)
    · exact hw.contiguous
    cases hframe : ({ front.packet with contiguous := true } : PacketBuffer).frame with
    | error => exact rejectFront_spec _ _
    | ok bytes =>
      have hbytes := frame_eq_ok hframe
      dsimp only
      cases hdecode : decode bytes with
      | error => exact rejectFront_spec _ _
      | ok =>
        refine .bind (setStats_spec fun stats => ?_) fun _ => .pure fun w hw => ?_
        · split <;> exact ⟨rfl, rfl, rfl, rfl⟩
        · rw [hbytes] at hframe hdecode
          exact ⟨hw, hframe, hdecode⟩

section

variable (hw : Routing scope front rest owner w)

include hw

theorem Routing.capacity : w.owner.capacity = owner.capacity :=
  congrArg (·.pairCapacity.toNat) hw.sameConfig

theorem dataPort_congr (index : UInt32) : w.owner.dataPort index = owner.dataPort index := by
  simp only [OwnerState.dataPort, hw.data]

theorem forwards_congr (handle : Handle) : w.owner.forwards handle = owner.forwards handle := by
  rw [Bool.eq_iff_iff, OwnerState.forwards_iff, OwnerState.forwards_iff, OwnerState.installed_iff,
    OwnerState.installed_iff, hw.capacity, hw.table, hw.instance_, hw.unquiescing, hw.unfaulted]

end

variable {view : ParsedPacket} {leg : PacketLeg}

/-- A leg found with its handle and installed has its pair installed: retained
pairs are not. -/
theorem packetLeg_installed (hw : Quiet scope w) {origin : Nat} {handle : Handle}
    (hleg : w.owner.packetLeg origin view = some leg) (hhandle : leg.handle = some handle)
    (hinstalled : leg.installed = true) :
    w.owner.installed handle = true := by
  unfold OwnerState.packetLeg at hleg
  split at hleg
  case isTrue =>
    split at hleg
    case h_1 => cases hleg
    case h_2 id hid =>
      split at hleg
      case h_1 => cases hleg
      case h_2 pair hpair =>
        cases hleg
        cases hhandle
        have hstate : pair.state = .installed := of_decide_eq_true hinstalled
        unfold OwnerState.handlePair at hpair
        obtain ⟨-, hpair⟩ | ⟨hvalid, hpair⟩ := (except_ite_eq_ok ..).mp hpair
        · cases hpair
        simp only [not_or, not_not, Nat.not_le] at hvalid
        obtain ⟨hgeneration, hpair⟩ | ⟨-, hpair⟩ := (except_ite_eq_ok ..).mp hpair
        · cases hpair
          exact (OwnerState.installed_iff _ _).mpr ⟨rfl, hvalid.2.2.1, hgeneration, hstate⟩
        · split at hpair
          case h_1 retained hretained =>
            cases hpair
            rw [hw.retained _ _ hretained] at hstate
            cases hstate
          case h_2 => cases hpair
  case isFalse =>
    split at hleg
    · cases hleg
    · -- a fragment's leg has no handle
      obtain ⟨pair, -, hpair⟩ := List.exists_of_findSome?_eq_some hleg
      unfold Pair.fragmentLeg at hpair
      split at hpair
      · cases hpair
      · obtain ⟨index, -, rfl⟩ := Option.map_eq_some_iff.mp hpair
        cases hhandle

theorem lookupFront_spec (origin : Nat) :
    Spec (Step sdk) (Decoded scope front rest owner view) (lookupFront origin view)
      (fun leg w => Decoded scope front rest owner view w ∧ owner.packetLeg origin view = some leg)
      (fun _ => Working scope) := by
  refine spec_bindSelf fun w₀ hw₀ => ?_
  refine spec_from hw₀ (.ite (fun _ => ?_) fun _ => ?_)
  · refine .pre (?_ : Spec (Step sdk) (Routing scope front rest owner) _ _ _) fun _ h =>
      h.toRouting
    exact .bind (setStats_spec fun _ => ⟨rfl, rfl, rfl, rfl⟩) fun _ => quarantineFront_spec _ _
  · refine .orFail (fun _ h => h.toWorking) fun leg w hleg hw => ⟨hw, ?_⟩
    have hw₀ := hw₀.toRouting
    have hpair (handle : Handle) : w₀.owner.handlePair handle = owner.handlePair handle := by
      simp only [OwnerState.handlePair, hw₀.capacity, hw₀.table, hw₀.instance_]
    simpa only [OwnerState.packetLeg, OwnerState.legHandle, hpair, hw₀.capacity, hw₀.table,
      hw₀.instance_] using hleg

/-! ## Queueing -/

theorem edit_ok_id {packet' : PacketBuffer} {edit : Editor Unit} {r : Except DecodeError Unit}
    (h : packet.edit edit = (packet', r)) : packet'.id = packet.id := by
  unfold PacketBuffer.edit at h
  split at h <;> cases h <;> rfl

theorem enqueueFront_eq (h : queues.received = front :: rest) (entry : Pending) :
    queues.enqueueFront entry =
      { queues with
        received := rest
        pending := queues.pending ++ [entry] }.updatePendingStats := by
  simp only [Queues.enqueueFront, h, List.tail_cons]

/-- A restored packet joins the transmit queue. -/
theorem Routing.queuedReturn (hw : Routing scope front rest owner w) (packet : PacketBuffer)
    (port : UInt16) :
    Polling scope (w.setQueues (w.owner.queues.enqueueFront ⟨packet, port, true, none⟩)) := by
  rw [enqueueFront_eq hw.received]
  refine polling_calm scope w _ ⟨rfl, rfl, rfl, rfl, rfl, rfl, fun entry he prepared hp => ?_, id, id,
    fun h => ⟨h.1, h.2⟩⟩ hw.toPolling
  rcases List.mem_append.mp he with he | he
  · exact ⟨entry, he, hp⟩
  · rw [List.mem_singleton.mp he] at hp
    cases hp

/-- A prepared packet joins the transmit queue of an active owner. -/
theorem Routing.queued (hw : Routing scope front rest owner w) (packet : PacketBuffer)
    (output : UInt16) (prepared : PreparedForward)
    (hforwards : w.owner.forwards prepared.handle = true) :
    Polling scope
      (w.setQueues (w.owner.queues.enqueueFront ⟨packet, output, false, some prepared⟩)) := by
  rw [enqueueFront_eq hw.received]
  obtain ⟨hinstalled, hquiescing, -⟩ := (OwnerState.forwards_iff _ _).mp hforwards
  have hactive : w.owner.active = true :=
    hw.serving.resolve_right fun h => by rw [hquiescing] at h; cases h
  refine ⟨⟨⟨⟨hw.present, hw.toSettled.config, hw.clean, hw.retained, .inr (.inl hactive), hw.done,
    fun hv => ⟨(hw.vxlan hv).1, (hw.vxlan hv).2⟩⟩, ?_⟩, hw.serving⟩, hw.quarantined⟩
  rcases hw.toQuiet.prepared with hf | hi
  · exact .inl hf
  · refine .inr fun entry he p hp => ?_
    rcases List.mem_append.mp he with he | he
    · exact hi entry he p hp
    · rw [List.mem_singleton.mp he] at hp
      cases hp
      exact hinstalled

theorem enqueueFront_spec {kernel : Bool} {output returnPort : UInt16}
    (houtput : owner.dataPort leg.spec.egressDataId = .ok output)
    (hport : owner.dataPort (owner.config.origin (UInt32.ofNat front.origin)).data = .ok returnPort)
    (hforwards : kernel = false → ∀ handle, leg.handle = some handle → owner.forwards handle = true)
    :
    Spec (Step sdk) (Decoded scope front rest owner view)
      (enqueueFront front.packet view leg kernel output returnPort) (fun _ => Polling scope)
      (fun _ => Working scope) := by
  refine .given fun w₀ hw₀ => ?_
  have hframe := hw₀.frame
  have hview := hw₀.view
  refine spec_from hw₀.toRouting ?_
  refine .bind (setStats_spec fun stats => ?_) fun _ => ?_
  · split <;> exact ⟨rfl, rfl, rfl, rfl⟩
  -- the failed edit goes with the packet into quarantine
  have reject (packet : PacketBuffer) (error : DecodeError) (edit : Editor Unit)
      (h : front.packet.edit edit = (packet, .error error)) :
      Spec (Step sdk) (Routing scope front rest owner)
        (do throw (← quarantineWith (·.setFront packet) error.code error.diagnostic))
        (fun _ : Unit => Polling scope) (fun _ => Working scope) :=
    Spec.bind (quarantineWith_spec _ _ (edit_ok_id h) fun _ _ => rfl) fun _ => .abort
  have hport' {w : World} (hw : Routing scope front rest owner w) :
      w.owner.dataPort (w.owner.config.origin (UInt32.ofNat front.origin)).data =
        .ok returnPort := by
    rw [dataPort_congr hw, hw.sameConfig]
    exact hport
  cases kernel with
  | true =>
    simp only [hframe, if_true]
    rcases hedit : front.packet.edit (restore view leg.spec) with ⟨packet, error | _⟩
    · exact reject packet error _ hedit
    · refine spec_setQueues (fun w hw => ?_) fun w hw => hw.queuedReturn packet returnPort
      exact .packet (.returnFront front rest packet view leg.spec returnPort hw.received hview
        (hport' hw) hedit)
  | false =>
    cases hhandle : leg.handle with
    | none => exact quarantineFront_spec _ _
    | some handle =>
      simp only [hframe, Bool.false_eq_true, if_false, Option.map_some]
      rcases hedit : front.packet.edit (forward view leg.spec) with ⟨packet, error | _⟩
      · exact reject packet error _ hedit
      · have hforwards {w : World} (hw : Routing scope front rest owner w) :
            w.owner.forwards handle = true :=
          (forwards_congr hw handle).trans (hforwards rfl handle hhandle)
        refine spec_setQueues (fun w hw => ?_) fun w hw =>
          hw.queued packet output _ (hforwards hw)
        exact .packet (.prepareFront front rest packet output ⟨handle, view, leg.spec, returnPort⟩
          hw.received hframe hview (hport' hw) ((dataPort_congr hw _).trans houtput) (hforwards hw) hedit)

/-- Only a healthy owner and an installed leg keep a packet from the kernel. -/
theorem returnsToKernel_false (h : returnsToKernel owner packet view leg = .ok false) :
    owner.quiescing = false ∧ owner.faulted = false ∧ leg.installed = true := by
  unfold returnsToKernel at h
  obtain ⟨-, h⟩ | ⟨hkernel, -⟩ := (except_ite_eq_ok ..).mp h
  · cases h
  · simp only [Bool.or_eq_true, not_or, Bool.not_eq_true, Bool.not_eq_false'] at hkernel
    exact ⟨hkernel.1.1.1, hkernel.1.1.2, hkernel.1.2⟩

theorem linkUp_spec (links : Links) (kernel : Bool) (index : UInt32) (output : UInt16)
    {P : World → Prop} (hP : AsideStable P) :
    Keeps (Step sdk) P (linkUp sdk links kernel index output) := by
  refine .ite (fun _ => .skip) fun _ => ?_
  cases links index.toNat with
  | some up => exact .skip
  | none => exact .bind (keeps_call hP) fun _ => .skip

theorem decoded_aside : AsideStable (Decoded scope front rest owner view) :=
  fun w _ _ hc hw => ⟨routing_aside w _ _ hc hw.toRouting, hw.frame, hw.view⟩

theorem routeFront_spec (links : Links) {w₀ : World} (hquiet : Quiet scope w₀)
    (hleg : w₀.owner.packetLeg front.origin view = some leg) :
    Spec (Step sdk) (Decoded scope front rest w₀.owner view)
      (routeFront sdk links front.packet front.origin view leg) (fun _ => Polling scope)
      (fun _ => Working scope) := by
  refine spec_bindSelf fun w₁ hw₁ => ?_
  have fail {α : Type} (code : Int) {Q : α → World → Prop} :
      Spec (Step sdk) (Decoded scope front rest w₀.owner view)
        (do throw (← quarantineFront code (diagnostic view))) Q (fun _ => Working scope) :=
    (quarantineFront_spec code _).pre fun _ h => h.toRouting
  refine spec_from hw₁ ?_
  cases hkernel : returnsToKernel w₁.owner front.packet view leg with
  | error code => exact fail code
  | ok kernel =>
    refine .bindChecked (fun _ _ h => h.toWorking) fun output houtput => ?_
    refine .bind (R := fun _ => Decoded scope front rest w₀.owner view)
      ((linkUp_spec links kernel _ output decoded_aside).onError fun _ _ h => h.toWorking) fun up => ?_
    obtain ⟨up, links⟩ := up
    refine .ite (fun _ => fail _) fun _ => .bindChecked (fun _ _ h => h.toWorking)
      fun returnPort hport => ?_
    rw [dataPort_congr hw₁.toRouting] at houtput
    refine .bind (enqueueFront_spec houtput ?_ fun hk handle hhandle => ?_)
      fun _ => .skip
    · rw [dataPort_congr hw₁.toRouting, hw₁.sameConfig] at hport
      exact hport
    · have hk : kernel = false := ((Bool.or_eq_false_iff ..).mp hk).1
      rw [hk] at hkernel
      obtain ⟨hquiescing, hfaulted, hinstalled⟩ := returnsToKernel_false hkernel
      rw [hw₁.unquiescing] at hquiescing
      rw [hw₁.unfaulted] at hfaulted
      exact (OwnerState.forwards_iff _ _).mpr
        ⟨packetLeg_installed hquiet hleg hhandle hinstalled, hquiescing, hfaulted⟩

/-- One packet leaves the received queue, or the poll ends. -/
theorem processFront_spec (links : Links) :
    Spec (Step sdk) (Polling scope) (processFront sdk links) (fun _ => Polling scope)
      (fun _ => Working scope) := by
  refine spec_bindSelf fun w₀ hw₀ => ?_
  cases hreceived : w₀.owner.queues.received with
  | nil => exact .pure fun w hw => by rw [hw]; exact hw₀
  | cons front rest =>
    refine .ite (fun _ => ?_) fun _ => ?_
    · refine .bind (R := fun _ => Polling scope) (.update (fun w hw => ?_) fun w hw => ?_)
        fun _ => .skip
      · rw [hw]
        exact .packet (.discard front rest hreceived)
      · rw [hw]
        refine polling_calm scope w₀ _ ?_ hw₀
        simp only [World.discardFront, hreceived]
        exact ⟨rfl, rfl, rfl, rfl, rfl, rfl, fun entry he _ hp => ⟨entry, he, hp⟩, id,
          fun h => .tail _ h, fun h => ⟨h.1, h.2⟩⟩
    · refine spec_from (P := Routing scope front rest w₀.owner)
        ⟨hw₀, hreceived, rfl, rfl, rfl, rfl, rfl, rfl⟩ ?_
      refine .bind decodeFront_spec fun view => ?_
      refine .bind (lookupFront_spec front.origin) fun leg => ?_
      refine .given fun w₁ h₁ => spec_from h₁.1 ?_
      have hroute := @routeFront_spec sdk scope front.contiguous rest view leg links w₀ hw₀.toQuiet h₁.2
      exact hroute

/-! ## Polling and draining -/

theorem processReceived_spec (n : Nat) (links : Links) :
    Spec (Step sdk) (Polling scope) (processReceived sdk n links) (fun _ => Polling scope)
      (fun _ => Working scope) := by
  induction n generalizing links with
  | zero => exact .skip
  | succ n ih =>
    refine spec_anySelf fun _ => .ite (fun _ => .skip) fun _ => ?_
    exact .bind (processFront_spec links) fun links => ih links

theorem calm_receive (w : World) (burst : List (Option Arrival)) (requested origin : Nat) :
    Calm w (w.receive burst requested origin) :=
  ⟨rfl, rfl, rfl, rfl, rfl, rfl, fun entry he _ hp => ⟨entry, he, hp⟩, id,
    fun h => List.mem_append_right _ h, fun h => ⟨h.1, h.2⟩⟩

theorem receiveBurst_spec (origin : Nat) (port : UInt16) (budget : UInt32) :
    Spec (Step sdk) (Polling scope) (receiveBurst sdk origin port budget) (fun _ => Polling scope)
      (fun _ => Working scope) := by
  refine .bindRead fun w₀ hw₀ => ?_
  refine .bind (R := fun _ => Polling scope) (.update (fun w hw => ?_) fun w hw => ?_)
    fun _ => .ite (fun _ => ?_) fun _ => .skip
  · rw [hw]
    exact .packet (.receive port _ origin hw₀.quarantined)
  · rw [hw]
    exact polling_calm scope w₀ _ (calm_receive w₀ _ _ origin) hw₀
  · refine .bind (R := fun _ => Polling scope) ((keeps_setOwner (polling_calm scope).frame
      fun _ => ⟨rfl, id, fun _ => rfl, Nat.le_refl _⟩).onError fun _ _ h => h.toWorking) fun _ => .throw fun _ h => h.toWorking

theorem flush_polling : Spec (Step sdk) (Polling scope) (flushPending sdk) (fun _ => Polling scope)
      (fun _ => Working scope) :=
  (flushPending_spec (polling_calm scope) fun _ h => h.quarantined).onError fun _ _ h => h.toWorking

theorem pollPorts_spec (n : Nat) (budget : UInt32) (links : Links) :
    Spec (Step sdk) (Polling scope) (pollPorts sdk n budget links) (fun _ => Working scope)
      (fun _ => Working scope) := by
  induction n generalizing budget links with
  | zero => exact .pure fun _ h => h.toWorking
  | succ n ih =>
    refine .ite (fun _ => .pure fun _ h => h.toWorking) fun _ => ?_
    refine spec_anySelf fun owner => .bind (R := fun _ => Polling scope)
      ((keeps_setOwner (polling_calm scope).frame fun _ => ⟨rfl, id, id, Nat.le_refl _⟩).onError fun _ _ h => h.toWorking) fun _ => ?_
    rcases owner.data (owner.nextRx % owner.config.data.length) with ⟨_ | port, _, _ | origin⟩
    case some.some =>
      refine .ite (fun _ => ?_) fun _ => ih budget links
      refine .bind (receiveBurst_spec origin port budget) fun budget => spec_anySelf fun _ => ?_
      refine .bind (processReceived_spec _ links) fun links => .bind flush_polling fun _ => ?_
      exact spec_anySelf fun _ => .ite (fun _ => ih budget links) fun _ =>
        Spec.pure fun _ h => h.toWorking
    all_goals exact ih budget links

/-- A poll keeps the owner quiet. -/
theorem poll_spec (budget : UInt32) : Keeps (Step sdk) (Working scope) (poll sdk budget) := by
  refine spec_bindSelf fun w₀ hw₀ => ?_
  refine .bindRefuse (fun w hw _ => by rw [hw]; exact hw₀) fun hquarantined => ?_
  have hnone : w₀.owner.queues.quarantined = none := by
    cases h : w₀.owner.queues.quarantined with
    | none => rfl
    | some _ => rw [h] at hquarantined; exact absurd rfl hquarantined
  refine spec_from (P := Polling scope) ⟨hw₀, hnone⟩ (.bind flush_polling fun _ => ?_)
  exact spec_anySelf fun _ => .ite (fun _ => pollPorts_spec _ budget _) fun _ =>
    Spec.pure fun _ h => h.toWorking

theorem drainRounds_spec (deadline : UInt64) (n : Nat) (quietSince : Option UInt64) :
    Keeps (Step sdk) (Working scope) (drainRounds sdk deadline n quietSince) := by
  induction n generalizing quietSince with
  | zero => exact .abort
  | succ n ih =>
    have hcall : Keeps (Step sdk) (Working scope) call := keeps_call (working_calm scope).aside
    refine spec_anySelf fun owner => .bind (poll_spec _) fun _ => .bind hcall fun _ => ?_
    refine spec_anySelf fun _ => .ite (fun _ => .skip) fun _ => ?_
    exact .bind hcall fun _ => .bind keeps_refuse fun _ => ih _

theorem drain_spec : Keeps (Step sdk) (Working scope) (drain sdk) :=
  spec_anySelf fun _ => .bind (keeps_call (working_calm scope).aside) fun _ =>
    drainRounds_spec _ _ none

end Worker

end Mwan.Native

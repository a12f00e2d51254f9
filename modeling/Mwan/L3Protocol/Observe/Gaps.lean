import Mwan.Core.Streams
import Mwan.L3Protocol.Observe.Monitor

/-!
# What the monitor owes its consumer

Whatever the goroutines, the kernel, the subscriptions and the consumer do:
between a stale observation and the next snapshot the consumer sees no state,
a delta that was not delivered is made good by a snapshot that was read after
it was dropped, and no snapshot was read before a loss or a change of the link
that came before its publication.

The second part is about what happens next: a snapshot is owed for a dropped
delta as long as none has been queued. That it is delivered is in `Catchup`.

Results:
* `Sound.step`, `Sound.run`: what every step and every run keeps.
-/
namespace Mwan.Observe

open Mwan.Core List

/-- The resync goroutine has a snapshot to read or to publish. -/
def Loop.busy : Loop → Bool
  | .waiting | .replaying _ => false
  | _ => true

/-- The kernel has still to be read. -/
def Loop.owing : Loop → Bool
  | .taken | .checked | .failing _ | .sleeping => true
  | _ => false

namespace Monitor

variable {cfg : Config} {m : Monitor}

/-! ## What is owed -/

/-- What was sent so far. -/
def stream (m : Monitor) : List Entry := m.received ++ m.queue

/-- The binding epoch and the moment of the read the resync goroutine is at. -/
def reads (m : Monitor) : Option (Nat × Nat) :=
  match m.loop with
  | .reading epoch readAt | .holding epoch readAt _ => some (epoch, readAt)
  | _ => none

/-- A snapshot is still to come. -/
def Coming (m : Monitor) : Prop := m.token = true ∨ m.allReady = false ∨ m.loop.busy = true

/-- A snapshot read after `time` is still to come. -/
def Owed (m : Monitor) (time : Nat) : Prop :=
  m.token = true ∨ m.allReady = false ∨
  match m.loop with
  | .taken | .checked | .failing _ | .sleeping => True
  | .reading epoch readAt | .holding epoch readAt _ =>
    time < readAt ∨ m.dirty = true ∨ epoch ≠ m.bindingEpoch
  | .waiting | .replaying _ => False

theorem owed_of_dirty (h : m.Coming) (hdirty : m.dirty = true) (time : Nat) : m.Owed time := by
  rcases h with h | h | h
  · exact .inl h
  · exact .inr (.inl h)
  · refine .inr (.inr ?_)
    cases hloop : m.loop with
    | waiting | replaying => rw [hloop] at h; cases h
    | reading | holding => exact .inr (.inl hdirty)
    | taken | checked | failing | sleeping => trivial

/-- The stream has a snapshot that was read after `time`. -/
def MadeGood (entries : List Entry) (time : Nat) : Prop :=
  ∃ e ∈ entries, e.isResync = true ∧ time < e.readAt

theorem MadeGood.append {entries : List Entry} {time : Nat} (h : MadeGood entries time)
    (more : List Entry) : MadeGood (entries ++ more) time := by
  obtain ⟨e, he, hresync, htime⟩ := h
  exact ⟨e, mem_append_left _ he, hresync, htime⟩

/-- The snapshot was not read before a loss or a change of the link that came
before its publication. -/
def ReadSince (rebound : List Nat) (e : Entry) : Prop :=
  ∀ b ∈ rebound, b < e.readAt ∨ e.sentAt ≤ b

/-- The delta has been sent or dropped. -/
def Accounted (m : Monitor) (x : Event × Nat) : Prop :=
  (∃ e ∈ m.stream, e.isDelta = true ∧ e.event = x.1 ∧ e.sentAt = x.2) ∨
    ∃ d ∈ m.dropped, d.event = x.1 ∧ d.acceptedAt = x.2

/-- What holds whether the observation is current or not. -/
structure Base (m : Monitor) : Prop where
  room : m.queue.length ≤ queueCapacity
  guarded : Guarded Entry.isStale Entry.isResync Entry.isState m.stream
  reboundPast : ∀ b ∈ m.rebound, b ≤ m.clock
  droppedPast : ∀ d ∈ m.dropped, d.droppedAt ≤ m.clock
  sentPast : ∀ e ∈ m.stream, e.sentAt ≤ m.clock
  read : ∀ p, m.reads = some p →
    p.1 ≤ m.bindingEpoch ∧ (p.1 = m.bindingEpoch → ∀ b ∈ m.rebound, b < p.2)
  readSince : ∀ e ∈ m.stream, e.isResync = true → ReadSince m.rebound e
  replaying : m.dispatch = .replaying → ∃ rest, m.loop = .replaying rest
  parts : ∀ rest, m.loop = .replaying rest → ∀ event ∈ rest, (Entry.mk event 0 0).isState = true
  accounted : ∀ x ∈ m.accepted, m.Accounted x

/-- What holds between two steps. -/
structure Sound (m : Monitor) : Prop extends Base m where
  closed : m.stale = false → Ended Entry.isStale Entry.isResync m.stream
  ready : m.stale = false → m.allReady = true
  coming : m.stale = true → m.Coming
  covered : ∀ d ∈ m.dropped, MadeGood m.stream d.droppedAt ∨ m.Owed d.droppedAt

/-- A stale observation with a request for a snapshot owes one to everything. -/
theorem Base.sound (h : Base m) (hstale : m.stale = true) (htoken : m.token = true) : Sound m where
  toBase := h
  closed hfalse := by rw [hstale] at hfalse; cases hfalse
  ready hfalse := by rw [hstale] at hfalse; cases hfalse
  coming _ := .inl htoken
  covered _ _ := .inr (.inl htoken)

/-! ## Sending and draining -/

theorem trySend_cases (m : Monitor) (e : Entry) :
    (m.queue.length < queueCapacity ∧ m.trySend e = some { m with queue := m.queue ++ [e] }) ∨
    (queueCapacity ≤ m.queue.length ∧ m.trySend e = none) := by
  unfold trySend
  split
  case isTrue h => exact .inl ⟨h, rfl⟩
  case isFalse h => exact .inr ⟨Nat.le_of_not_lt h, rfl⟩

theorem stream_send (m : Monitor) (e : Entry) :
    ({ m with queue := m.queue ++ [e] } : Monitor).stream = m.stream ++ [e] := by
  simp [stream]

theorem Base.send {e : Entry} (h : Base m) (hroom : m.queue.length < queueCapacity)
    (hstate : e.isState = true → Ended Entry.isStale Entry.isResync m.stream)
    (hsent : e.sentAt ≤ m.clock) (hread : e.isResync = true → ReadSince m.rebound e) :
    Base { m with queue := m.queue ++ [e] } :=
  { h with
    room := by
      rw [length_append]
      exact hroom
    guarded := by
      rw [stream_send]
      exact h.guarded.snoc hstate
    sentPast := by
      rw [stream_send]
      exact forall_mem_append.mpr ⟨h.sentPast, forall_mem_singleton.mpr hsent⟩
    readSince := by
      rw [stream_send]
      exact forall_mem_append.mpr ⟨h.readSince, forall_mem_singleton.mpr hread⟩
    accounted := fun x hx => (h.accounted x hx).imp_left fun ⟨y, hy, hsame⟩ =>
      ⟨y, by rw [stream_send]; exact mem_append_left _ hy, hsame⟩ }

theorem Base.drain (h : Base m) : Base m.drain := by
  have hstream : m.drain.stream = m.received := append_nil _
  exact { h with
    room := Nat.zero_le _
    guarded := hstream ▸ h.guarded.of_append
    droppedPast := by
      refine forall_mem_append.mpr ⟨fun d hd => ?_, h.droppedPast⟩
      obtain ⟨e, -, rfl⟩ := mem_map.mp hd
      exact Nat.le_refl _
    sentPast := fun e he => h.sentPast e (mem_append_left _ (hstream ▸ he))
    readSince := fun e he => h.readSince e (mem_append_left _ (hstream ▸ he))
    accounted := fun x hx => by
      rcases h.accounted x hx with ⟨e, he, hdelta, hsame⟩ | ⟨d, hd, hsame⟩
      · rcases mem_append.mp he with he | he
        · exact .inl ⟨e, hstream ▸ he, hdelta, hsame⟩
        · refine .inr ⟨⟨e.event, e.sentAt, m.clock⟩, mem_append_left _ ?_, hsame⟩
          exact mem_map.mpr ⟨e, mem_filter.mpr ⟨he, hdelta⟩, rfl⟩
      · exact .inr ⟨d, mem_append_right _ hd, hsame⟩ }

/-! ## The state of the observation -/

/-- An event about the observation itself. -/
def status (cfg : Config) (body : EventBody) : Entry := ⟨observationEvent cfg body, 0, 0⟩

/-- What `markStaleLocked` does. -/
theorem markStaleLocked_cases (cfg : Config) (m : Monitor) (reason : String) :
    (m.stale = true ∧ m.markStaleLocked cfg reason = { m with token := true }) ∨
    (m.stale = false ∧ m.markStaleLocked cfg reason =
      { m.drain with
        queue := [status cfg (.observationStale reason)]
        stale := true
        failed := false
        token := true }) := by
  cases hstale : m.stale with
  | true => exact .inl ⟨rfl, by simp [markStaleLocked, hstale]⟩
  | false => exact .inr ⟨rfl, by simp [markStaleLocked, hstale, drain, trySend, status, queueCapacity]⟩

theorem Base.markStaleLocked (h : Base m) (reason : String) :
    Sound (m.markStaleLocked cfg reason) := by
  rcases markStaleLocked_cases cfg m reason with ⟨hstale, heq⟩ | ⟨-, heq⟩
  · rw [heq]
    exact Base.sound { h with } hstale rfl
  · rw [heq]
    have hsent := h.drain.send (e := status cfg (.observationStale reason)) (Nat.zero_lt_succ _)
      (by rintro ⟨⟩) (Nat.zero_le _) (by rintro ⟨⟩)
    exact Base.sound { hsent with } rfl rfl

theorem markStaleLocked_requests (cfg : Config) (m : Monitor) (reason : String) :
    (m.markStaleLocked cfg reason).stale = true ∧ (m.markStaleLocked cfg reason).token = true := by
  rcases markStaleLocked_cases cfg m reason with ⟨hstale, heq⟩ | ⟨-, heq⟩ <;> rw [heq]
  · exact ⟨hstale, rfl⟩
  · exact ⟨rfl, rfl⟩

/-- What `markFailedLocked` does. -/
theorem markFailedLocked_cases (cfg : Config) (m : Monitor) (reason : String) :
    m.markFailedLocked cfg reason = m ∨
    (m.queue.length < queueCapacity ∧ m.markFailedLocked cfg reason =
      { m with queue := m.queue ++ [status cfg (.observationFailed reason)], failed := true }) ∨
    m.markFailedLocked cfg reason =
      { m.drain with
        queue :=
          [status cfg (.observationStale "queued observations discarded after failure"),
            status cfg (.observationFailed reason)]
        stale := true
        failed := true
        token := true } := by
  unfold markFailedLocked
  split
  · exact .inl rfl
  · rcases trySend_cases m ⟨observationEvent cfg (.observationFailed reason), 0, 0⟩ with
      ⟨hroom, heq⟩ | ⟨-, heq⟩
    · exact .inr (.inl ⟨hroom, by simp [heq, status]⟩)
    · refine .inr (.inr ?_)
      simp only [heq]
      simp [drain, trySend, status, queueCapacity]

/-- What a status leaves alone, and that it only drops. -/
structure Marks (m m' : Monitor) : Prop where
  losing : m'.losing = m.losing
  ready : m'.ready = m.ready
  dispatch : m'.dispatch = m.dispatch
  loop : m'.loop = m.loop
  dirty : m'.dirty = m.dirty
  bindingEpoch : m'.bindingEpoch = m.bindingEpoch
  dropped : m.dropped ⊆ m'.dropped

theorem markStaleLocked_marks (cfg : Config) (m : Monitor) (reason : String) :
    Marks m (m.markStaleLocked cfg reason) := by
  rcases markStaleLocked_cases cfg m reason with ⟨-, heq⟩ | ⟨-, heq⟩ <;> rw [heq]
  · exact ⟨rfl, rfl, rfl, rfl, rfl, rfl, Subset.refl _⟩
  · exact ⟨rfl, rfl, rfl, rfl, rfl, rfl, subset_append_right _ _⟩

theorem markFailedLocked_marks (cfg : Config) (m : Monitor) (reason : String) :
    Marks m (m.markFailedLocked cfg reason) := by
  rcases markFailedLocked_cases cfg m reason with heq | ⟨-, heq⟩ | heq <;> rw [heq]
  · exact ⟨rfl, rfl, rfl, rfl, rfl, rfl, Subset.refl _⟩
  · exact ⟨rfl, rfl, rfl, rfl, rfl, rfl, Subset.refl _⟩
  · exact ⟨rfl, rfl, rfl, rfl, rfl, rfl, subset_append_right _ _⟩

theorem Sound.markFailedLocked (h : Sound m) (reason : String) :
    Sound (m.markFailedLocked cfg reason) := by
  rcases markFailedLocked_cases cfg m reason with heq | ⟨hroom, heq⟩ | heq
  · rw [heq]
    exact h
  · rw [heq]
    have hsent := h.send (e := status cfg (.observationFailed reason)) hroom
      (by rintro ⟨⟩) (Nat.zero_le _) (by rintro ⟨⟩)
    exact { h with
      toBase := { hsent with }
      closed := fun hstale => by
        have hclosed := (h.closed hstale).snoc (x := status cfg (.observationFailed reason)) rfl
        rw [← stream_send] at hclosed
        exact hclosed
      covered := fun d hd => (h.covered d hd).imp_left fun hgood => by
        have hgood := hgood.append [status cfg (.observationFailed reason)]
        rw [← stream_send] at hgood
        exact hgood }
  · rw [heq]
    have hstale := h.drain.send
      (e := status cfg (.observationStale "queued observations discarded after failure"))
      (Nat.zero_lt_succ _) (by rintro ⟨⟩) (Nat.zero_le _) (by rintro ⟨⟩)
    have hsent := hstale.send (e := status cfg (.observationFailed reason))
      (by simp [drain, queueCapacity]) (by rintro ⟨⟩) (Nat.zero_le _) (by rintro ⟨⟩)
    exact Base.sound { hsent with } rfl rfl

/-! ## The steps -/

theorem isStale_of_isState {e : Entry} (h : e.isState = true) :
    e.isStale = false ∧ e.isResync = false := by
  unfold Entry.isState at h
  unfold Entry.isStale Entry.isResync
  split at h <;> simp_all

/-- An event of the link that goes out while the observation is current. -/
theorem Sound.send_state {e : Entry} (h : Sound m) (hstale : m.stale = false)
    (hroom : m.queue.length < queueCapacity) (hstate : e.isState = true)
    (hsent : e.sentAt ≤ m.clock) : Sound { m with queue := m.queue ++ [e] } where
  toBase := h.send hroom (fun _ => h.closed hstale) hsent fun hresync => by
    rw [(isStale_of_isState hstate).2] at hresync
    cases hresync
  closed _ := by
    rw [stream_send]
    exact (h.closed hstale).snoc (isStale_of_isState hstate).1
  ready := h.ready
  coming := h.coming
  covered d hd := (h.covered d hd).imp_left fun hgood => by
    rw [stream_send]
    exact hgood.append _

theorem Base.accept {x : Event × Nat} (h : Base m) (hx : m.Accounted x) :
    Base { m with accepted := x :: m.accepted } :=
  { h with accounted := forall_mem_cons.mpr ⟨hx, h.accounted⟩ }

theorem Base.discard (h : Base m) (event : Event) : Base (m.discard event) :=
  { h with
    droppedPast := forall_mem_cons.mpr ⟨Nat.le_refl _, h.droppedPast⟩
    accounted := fun x hx => (h.accounted x hx).imp_right fun ⟨d, hd, hsame⟩ =>
      ⟨d, .tail _ hd, hsame⟩ }

theorem Sound.emit {event : Event} (h : Sound m) (hdelta : deltaEvent event = true) :
    Sound (m.emit cfg event) := by
  have hdropped : Base { m.discard event with accepted := (event, m.clock) :: m.accepted } :=
    (h.toBase.discard event).accept (.inr ⟨⟨event, m.clock, m.clock⟩, .head _, rfl, rfl⟩)
  unfold Monitor.emit
  simp only
  split
  case isTrue hstale =>
    -- The new delta is owed a snapshot because the one being read will be refused.
    refine ⟨{ hdropped with }, fun hfalse => ?_, fun hfalse => ?_, h.coming, fun _ _ => .inr ?_⟩
    · exact absurd hstale (by rw [show m.stale = false from hfalse]; decide)
    · exact absurd hstale (by rw [show m.stale = false from hfalse]; decide)
    · refine owed_of_dirty ?_ rfl _
      exact h.coming hstale
  case isFalse hstale =>
    rw [Bool.not_eq_true] at hstale
    rcases trySend_cases { m with accepted := (event, m.clock) :: m.accepted }
      ⟨event, 0, m.clock⟩ with ⟨hroom, heq⟩ | ⟨-, heq⟩ <;> simp only [heq]
    · have hstate : (Entry.mk event 0 m.clock).isState = true := by
        simp only [deltaEvent, Entry.isDelta, Bool.and_eq_true] at hdelta
        exact hdelta.1
      have hsent := h.send_state hstale hroom hstate (Nat.le_refl _)
      have haccounted : ({ m with queue := m.queue ++ [⟨event, 0, m.clock⟩] } : Monitor).Accounted
          (event, m.clock) :=
        .inl ⟨⟨event, 0, m.clock⟩, by rw [stream_send]; exact mem_append_right _ (by simp),
          hdelta, rfl, rfl⟩
      exact { hsent with toBase := hsent.toBase.accept haccounted }
    · exact hdropped.markStaleLocked _

/-- The link is another one. -/
def movedTo (m : Monitor) (ifIndex : Int) (actualIface : String) : Monitor :=
  { m with
    ifIndex
    actualIface
    bindingEpoch := m.bindingEpoch + 1
    rebound := m.clock :: m.rebound }

/-- A change of the link makes the snapshot that is being read out of date. -/
theorem Base.rebound (h : Base m) (ifIndex : Int) (actualIface : String) :
    Base (m.movedTo ifIndex actualIface) :=
  { h with
    reboundPast := forall_mem_cons.mpr ⟨Nat.le_refl _, h.reboundPast⟩
    read := fun p hp => by
      have hle := (h.read p hp).1
      exact ⟨Nat.le_succ_of_le hle, fun heq => by simp only [movedTo] at heq; omega⟩
    readSince := fun e he hresync =>
      forall_mem_cons.mpr ⟨.inr (h.sentPast e he), h.readSince e he hresync⟩ }

theorem owed_rebound (h : Base m) {time : Nat} (howed : m.Owed time) (ifIndex : Int)
    (actualIface : String) : (m.movedTo ifIndex actualIface).Owed time := by
  refine howed.imp_right (Or.imp_right fun hloop => ?_)
  unfold movedTo
  -- A read under way is of an epoch that is over.
  cases hl : m.loop with
  | waiting | replaying => rw [hl] at hloop; cases hloop
  | taken | checked | failing | sleeping => trivial
  | reading epoch readAt | holding epoch readAt =>
    have hle := (h.read (epoch, readAt) (by simp [reads, hl])).1
    exact .inr (.inr (Nat.ne_of_lt (Nat.lt_succ_of_le hle)))

theorem Sound.rebound (h : Sound m) (ifIndex : Int) (actualIface : String) :
    Sound (m.movedTo ifIndex actualIface) :=
  { h with
    toBase := h.toBase.rebound ifIndex actualIface
    covered := fun d hd => (h.covered d hd).imp_right fun howed =>
      owed_rebound h.toBase howed ifIndex actualIface }

/-- A step that sends and drops nothing. -/
theorem Sound.of_eq {m' : Monitor} (h : Sound m) (hbase : Base m') (hstream : m'.stream = m.stream)
    (hdropped : m'.dropped = m.dropped) (hstale : m'.stale = m.stale)
    (hready : m.stale = false → m'.allReady = true) (hcoming : m.Coming → m'.Coming)
    (howed : ∀ d ∈ m.dropped, m.Owed d.droppedAt → m'.Owed d.droppedAt) : Sound m' where
  toBase := hbase
  closed := by rw [hstale, hstream]; exact h.closed
  ready := by rw [hstale]; exact hready
  coming hm := hcoming (h.coming (hstale ▸ hm))
  covered := by
    rw [hdropped, hstream]
    exact fun d hd => (h.covered d hd).imp_right (howed d hd)

/-- Who holds `dispatchMu` matters to nobody else. -/
theorem Sound.setDispatch (h : Sound m) (dispatch : Dispatch)
    (hdispatch : dispatch = .replaying → ∃ rest, m.loop = .replaying rest) :
    Sound (m.lock dispatch) := { h with replaying := hdispatch }

/-- A lookup of the link changes the link at most. -/
theorem bind_cases (m : Monitor) (ifIndex : Int) (actualIface : String) :
    m.bind ifIndex actualIface = m ∨ m.bind ifIndex actualIface = m.movedTo ifIndex actualIface := by
  unfold Monitor.bind
  split
  · exact .inr rfl
  · exact .inl rfl

theorem Sound.bind (h : Sound m) (ifIndex : Int) (actualIface : String) :
    Sound (m.bind ifIndex actualIface) := by
  rcases bind_cases m ifIndex actualIface with heq | heq <;> rw [heq]
  · exact h
  · exact h.rebound ifIndex actualIface

theorem Sound.lose (h : Sound m) (i : Fin 3) (reason : String) : Sound (m.lose i reason) := by
  exact { h.rebound 0 "" with }

theorem Sound.lost (h : Sound m) (i : Fin 3) (reason : String) : Sound (m.lost cfg i reason) := by
  have hbase : Base { m with
      losing := m.losing.erase (i, reason), ready := Function.update m.ready i false } := { h with }
  exact (hbase.markStaleLocked reason).markFailedLocked reason

theorem allReady_update (h : m.allReady = true) (i : Fin 3) :
    ({ m with ready := Function.update m.ready i true } : Monitor).allReady = true := by
  simp only [allReady, decide_eq_true_eq] at h ⊢
  intro j
  by_cases hj : j = i
  · rw [hj, Function.update_self]
  · rw [Function.update_of_ne hj, h j]

theorem Sound.nowReady (h : Sound m) (i : Fin 3) : Sound (m.nowReady i) := by
  unfold Monitor.nowReady
  generalize hnext : ({ m with ready := Function.update m.ready i true } : Monitor) = next
  have hbase : Base next := by
    rw [← hnext]
    exact { h with }
  have hstale : next.stale = m.stale := by rw [← hnext]
  simp only
  split
  case isTrue hall =>
    rw [Bool.and_eq_true] at hall
    exact Base.sound { hbase with } hall.2 rfl
  case isFalse hall =>
    -- Either the observation is current and was so before, or a subscription is still missing.
    cases hs : m.stale with
    | false =>
      have hready := h.ready hs
      have hnextReady : next.allReady = true := hnext ▸ allReady_update hready i
      refine h.of_eq hbase (by rw [← hnext]; rfl) (by rw [← hnext]) hstale (fun _ => hnextReady) ?_ ?_
      · intro hcoming
        subst hnext
        exact hcoming.imp_right (Or.imp_left fun hfalse => by rw [hready] at hfalse; cases hfalse)
      · intro d _ howed
        subst hnext
        exact howed.imp_right (Or.imp_left fun hfalse => by rw [hready] at hfalse; cases hfalse)
    | true =>
      have hmissing : next.allReady = false := by
        rw [hstale, hs, Bool.and_true, Bool.not_eq_true] at hall
        exact hall
      refine h.of_eq hbase (by rw [← hnext]; rfl) (by rw [← hnext]) hstale ?_ ?_ ?_
      · intro hfalse
        rw [hs] at hfalse
        cases hfalse
      · exact fun _ => .inr (.inl hmissing)
      · exact fun _ _ _ => .inr (.inl hmissing)

/-! ## The resync goroutine -/

theorem Base.not_replaying (h : Base m) (hloop : ∀ rest, m.loop ≠ .replaying rest) :
    m.dispatch ≠ .replaying := fun hreplaying => by
  obtain ⟨rest, hrest⟩ := h.replaying hreplaying
  exact hloop rest hrest

theorem Sound.setOwing (h : Sound m) (token : Bool) {loop : Loop} (hloop : loop.owing = true)
    (hdispatch : m.dispatch ≠ .replaying) : Sound (({ m with token } : Monitor).goTo loop) := by
  have hbusy : loop.busy = true := by cases loop <;> first | rfl | cases hloop
  have howing : ∀ time, (({ m with token } : Monitor).goTo loop).Owed time := by
    intro time
    cases loop <;> first | exact .inr (.inr trivial) | cases hloop
  have hreads : (({ m with token } : Monitor).goTo loop).reads = none := by
    cases loop <;> first | rfl | cases hloop
  have hparts : ∀ rest, loop ≠ .replaying rest := by rintro rest rfl; cases hloop
  refine h.of_eq ?_ rfl rfl rfl h.ready (fun _ => .inr (.inr hbusy)) fun d _ _ => howing d.droppedAt
  exact { h with
    read := fun p hp => by rw [hreads] at hp; cases hp
    replaying := fun hr => absurd hr hdispatch
    parts := fun rest hr => absurd hr (hparts rest) }

theorem Sound.stop_unready (h : Sound m) (hready : m.allReady = false)
    (hdispatch : m.dispatch ≠ .replaying) : Sound (m.goTo .waiting) := by
  refine h.of_eq ?_ rfl rfl rfl h.ready (fun _ => .inr (.inl hready)) fun _ _ _ => .inr (.inl hready)
  exact { h with
    read := fun _ hp => by cases hp
    replaying := fun hr => absurd hr hdispatch
    parts := fun _ hr => by cases hr }

/-- The read begins after everything that was dropped so far. -/
theorem Sound.beginRead (h : Sound m) (hloop : m.loop = .checked)
    (hrebound : ∀ b ∈ m.rebound, b < m.clock) (hdropped : ∀ d ∈ m.dropped, d.droppedAt < m.clock) :
    Sound (m.goTo (.reading m.bindingEpoch m.clock)) := by
  have hdispatch := h.toBase.not_replaying fun rest hrest => by rw [hloop] at hrest; cases hrest
  refine h.of_eq ?_ rfl rfl rfl h.ready (fun _ => .inr (.inr rfl))
    fun d hd _ => .inr (.inr (.inl (hdropped d hd)))
  exact { h with
    read := fun p hp => by
      cases hp
      exact ⟨Nat.le_refl _, fun _ => hrebound⟩
    replaying := fun hr => absurd hr hdispatch
    parts := fun _ hr => by cases hr }

theorem Sound.endRead (h : Sound m) {epoch readAt : Nat} (hloop : m.loop = .reading epoch readAt)
    (snapshot : Snapshot) : Sound (m.goTo (.holding epoch readAt snapshot)) := by
  have hdispatch := h.toBase.not_replaying fun rest hrest => by rw [hloop] at hrest; cases hrest
  refine h.of_eq ?_ rfl rfl rfl h.ready (fun _ => .inr (.inr rfl)) ?_
  · exact { h with
      read := fun p hp => h.read p (by simpa [reads, goTo, hloop] using hp)
      replaying := fun hr => absurd hr hdispatch
      parts := fun _ hr => by cases hr }
  · intro d _ howed
    refine howed.imp_right (Or.imp_right fun hread => ?_)
    rw [hloop] at hread
    exact hread

/-- Back to waiting with a request for another snapshot. -/
theorem Base.again (h : Base m) (hdispatch : m.dispatch ≠ .replaying) (reason : String) :
    Sound ((m.markStaleLocked cfg reason).goTo .waiting) := by
  have hs : Sound (m.markStaleLocked cfg reason) := h.markStaleLocked reason
  obtain ⟨hstale, htoken⟩ := markStaleLocked_requests cfg m reason
  refine Base.sound ?_ hstale htoken
  exact { hs with
    read := fun _ hp => by cases hp
    replaying := fun hr => absurd ((markStaleLocked_marks cfg m reason).dispatch ▸ hr) hdispatch
    parts := fun _ hr => by cases hr }

theorem replayEvents_isState (cfg : Config) (snapshot : Snapshot) :
    ∀ event ∈ replayEvents cfg snapshot, (Entry.mk event 0 0).isState = true := by
  intro event hevent
  unfold replayEvents at hevent
  split at hevent
  · cases hevent
  · obtain ⟨body, hbody, rfl⟩ := mem_map.mp hevent
    simp only [mem_append, mem_map] at hbody
    rcases hbody with (hbody | ⟨_, -, rfl⟩) | ⟨_, -, rfl⟩
    · split at hbody
      · rw [mem_singleton.mp hbody]
        rfl
      · cases hbody
    · rfl
    · rfl

theorem bind_lock_goTo (m : Monitor) (ifIndex : Int) (actualIface : String) (dispatch : Dispatch)
    (loop : Loop) :
    ((m.bind ifIndex actualIface).lock dispatch).goTo loop =
      ((m.lock dispatch).goTo loop).bind ifIndex actualIface := by
  unfold Monitor.bind
  split
  case isTrue h => exact (if_pos h).symm
  case isFalse h => exact (if_neg h).symm

/-- The snapshot is in the queue and its parts are to follow. -/
def published (cfg : Config) (m : Monitor) (readAt : Nat) (snapshot : Snapshot) : Monitor :=
  (({ m with
      queue := m.queue ++ [⟨resyncEvent cfg snapshot, readAt, m.clock⟩]
      stale := false
      failed := false } : Monitor).lock .replaying).goTo (.replaying (replayEvents cfg snapshot))

/-- A snapshot that is published was read since the last change of the link
and after everything that was dropped. -/
theorem Sound.published {epoch readAt : Nat} {snapshot : Snapshot} (h : Sound m)
    (hloop : m.loop = .holding epoch readAt snapshot) (hepoch : m.bindingEpoch = epoch)
    (hready : m.allReady = true) (hdirty : m.dirty = false)
    (hroom : m.queue.length < queueCapacity) : Sound (m.published cfg readAt snapshot) := by
  set entry : Entry := ⟨resyncEvent cfg snapshot, readAt, m.clock⟩
  have hread := (h.read (epoch, readAt) (by simp [reads, hloop])).2 hepoch.symm
  have hsent : Base { m with queue := m.queue ++ [entry] } :=
    h.send hroom (by rintro ⟨⟩) (Nat.le_refl _) fun _ b hb => .inl (hread b hb)
  have hstream := stream_send m entry
  refine ⟨?_, fun _ => ?_, fun _ => hready, fun hstale => (by cases hstale), ?_⟩
  · exact { hsent with
      read := fun _ hp => by cases hp
      replaying := fun _ => ⟨_, rfl⟩
      parts := fun rest hrest => by
        obtain rfl := Loop.replaying.inj hrest
        exact replayEvents_isState cfg snapshot }
  · have hclosed : Ended Entry.isStale Entry.isResync (m.stream ++ [entry]) :=
      Ended.of_ends rfl rfl
    rw [← hstream] at hclosed
    exact hclosed
  · intro d hd
    have hgood : MadeGood (m.stream ++ [entry]) d.droppedAt ∨ m.token = true := by
      rcases h.covered d hd with hgood | htoken | hnot | howed
      · exact .inl (hgood.append _)
      · exact .inr htoken
      · rw [hready] at hnot
        cases hnot
      · rw [hloop] at howed
        rcases howed with hlt | hdirt | hne
        · exact .inl ⟨entry, by simp, rfl, hlt⟩
        · rw [hdirty] at hdirt
          cases hdirt
        · exact absurd hepoch.symm hne
    rw [← hstream] at hgood
    exact hgood.imp_right .inl

/-- The replay ends: nothing is owed that was not owed before. -/
theorem Sound.endReplay (h : Sound m) {rest : List Event} (hloop : m.loop = .replaying rest) :
    Sound ((m.lock .free).goTo .waiting) := by
  refine h.of_eq ?_ rfl rfl rfl h.ready ?_ ?_
  · exact { h with
      read := fun _ hp => by cases hp
      replaying := nofun
      parts := fun _ hr => by cases hr }
  · intro hcoming
    refine hcoming.imp_right (Or.imp_right fun hbusy => ?_)
    rw [hloop] at hbusy
    cases hbusy
  · intro d _ howed
    refine howed.imp_right (Or.imp_right fun hread => ?_)
    rw [hloop] at hread
    cases hread

theorem Sound.sendReplay (h : Sound m) {event : Event} {rest : List Event}
    (hloop : m.loop = .replaying (event :: rest)) (hstale : m.stale = false)
    (hroom : m.queue.length < queueCapacity) :
    Sound (({ m with queue := m.queue ++ [⟨event, 0, 0⟩] } : Monitor).goTo (.replaying rest)) := by
  have hparts := h.parts _ hloop
  have hsent := h.send_state hstale hroom (hparts event ((.head _))) (Nat.zero_le _)
  refine hsent.of_eq ?_ rfl rfl rfl hsent.ready ?_ ?_
  · exact { hsent with
      read := fun _ hp => by cases hp
      replaying := fun _ => ⟨rest, rfl⟩
      parts := fun rest' hrest e he => by
        obtain rfl := Loop.replaying.inj hrest
        exact hparts e (.tail _ he) }
  · intro hcoming
    refine hcoming.imp_right (Or.imp_right fun hbusy => ?_)
    simp only [hloop] at hbusy
    cases hbusy
  · intro d _ howed
    refine howed.imp_right (Or.imp_right fun hread => ?_)
    simp only [hloop] at hread

/-! ## Runs -/

theorem Sound.tick (h : Sound m) : Sound m.tick :=
  { h with
    reboundPast := fun b hb => Nat.le_succ_of_le (h.reboundPast b hb)
    droppedPast := fun d hd => Nat.le_succ_of_le (h.droppedPast d hd)
    sentPast := fun e he => Nat.le_succ_of_le (h.sentPast e he) }

theorem Sound.receive (h : Sound m) {entry : Entry} {queue : List Entry}
    (hqueue : m.queue = entry :: queue) :
    Sound { m with queue, received := m.received ++ [entry] } := by
  have hstream : ({ m with queue, received := m.received ++ [entry] } : Monitor).stream = m.stream := by
    simp [stream, hqueue]
  have hroom : queue.length ≤ queueCapacity := by
    have := h.room
    rw [hqueue, length_cons] at this
    omega
  refine h.of_eq ?_ hstream rfl rfl h.ready id fun _ _ => id
  exact { h with
    room := hroom
    guarded := hstream ▸ h.guarded
    sentPast := hstream ▸ h.sentPast
    readSince := hstream ▸ h.readSince
    accounted := by simpa only [Accounted, hstream] using h.accounted }

/-- The steps that do something. -/
inductive Acts (cfg : Config) (m : Monitor) : Act → Monitor → Prop
  | receive {entry : Entry} {queue : List Entry} (hqueue : m.queue = entry :: queue) :
      Acts cfg m .receive { m with queue, received := m.received ++ [entry] }
  | lockDispatch : Acts cfg m .lockDispatch (m.lock (.handling false))
  | rebind (ifIndex : Int) (actualIface : String) (changed : Bool) :
      Acts cfg m (.rebind ifIndex actualIface) ((m.bind ifIndex actualIface).lock (.handling changed))
  | invalidate (hdispatch : m.dispatch = .handling true) :
      Acts cfg m .invalidate ((m.markStaleLocked cfg "link binding changed").lock (.handling false))
  | emit {event : Event} (hdispatch : m.dispatch = .handling false)
      (hdelta : deltaEvent event = true) : Acts cfg m (.emit event) ((m.emit cfg event).lock .free)
  | ignore (hdispatch : m.dispatch = .handling false) : Acts cfg m .ignore (m.lock .free)
  | lose (i : Fin 3) (reason : String) : Acts cfg m (.lose i reason) (m.lose i reason)
  | lost {i : Fin 3} {reason : String} (h : (i, reason) ∈ m.losing) :
      Acts cfg m (.lost i reason) (m.lost cfg i reason)
  | subscribed (i : Fin 3) : Acts cfg m (.subscribed i) (m.nowReady i)
  | takeRequest (hloop : m.loop = .waiting) (htoken : m.token = true) :
      Acts cfg m .takeRequest (({ m with token := false } : Monitor).goTo .taken)
  | checked (hloop : m.loop = .taken) (hready : m.allReady = true) :
      Acts cfg m .checkReady (m.goTo .checked)
  | unready (hloop : m.loop = .taken) (hready : ¬ m.allReady = true) :
      Acts cfg m .checkReady (m.goTo .waiting)
  | readEpoch (hloop : m.loop = .checked) :
      Acts cfg m .readEpoch (m.goTo (.reading m.bindingEpoch m.clock))
  | readKernel {epoch readAt : Nat} (hloop : m.loop = .reading epoch readAt) (snapshot : Snapshot) :
      Acts cfg m (.readKernel snapshot) (m.goTo (.holding epoch readAt snapshot))
  | readFailed {epoch readAt : Nat} (hloop : m.loop = .reading epoch readAt) (reason : String) :
      Acts cfg m (.readFailed reason) (m.goTo (.failing reason))
  | reportFailure {reason : String} (hloop : m.loop = .failing reason) :
      Acts cfg m .reportFailure
        ((m.markFailedLocked cfg ("kernel snapshot failed: " ++ reason)).goTo .sleeping)
  | retry (hloop : m.loop = .sleeping) :
      Acts cfg m .retry ((m.markStaleLocked cfg "kernel snapshot retry").goTo .waiting)
  | refuse {epoch readAt : Nat} {snapshot : Snapshot} (hloop : m.loop = .holding epoch readAt snapshot)
      (h : m.bindingEpoch ≠ epoch ∨ m.allReady = false) : Acts cfg m .publish
        ((m.markStaleLocked cfg "link binding changed during snapshot").goTo .waiting)
  | redo {epoch readAt : Nat} {snapshot : Snapshot} (hloop : m.loop = .holding epoch readAt snapshot)
      (hdirty : m.dirty = true) : Acts cfg m .publish ((({ m with dirty := false } : Monitor).markStaleLocked
        cfg "kernel changed during snapshot").goTo .waiting)
  | publish {epoch readAt : Nat} {snapshot : Snapshot} (hloop : m.loop = .holding epoch readAt snapshot)
      (hdispatch : m.dispatch = .free) (hcurrent : ¬ (m.bindingEpoch ≠ epoch ∨ m.allReady = false))
      (hdirty : ¬ m.dirty = true) (hroom : m.queue.length < queueCapacity) : Acts cfg m .publish
        ((m.published cfg readAt snapshot).bind snapshot.ifIndex snapshot.actualIface)
  | endReplay {rest : List Event} (hloop : m.loop = .replaying rest) :
      Acts cfg m .replay ((m.lock .free).goTo .waiting)
  | sendReplay {event : Event} {rest : List Event} (hloop : m.loop = .replaying (event :: rest))
      (hstale : ¬ m.stale = true) (hroom : m.queue.length < queueCapacity) : Acts cfg m .replay
        (({ m with queue := m.queue ++ [⟨event, 0, 0⟩] } : Monitor).goTo (.replaying rest))

theorem act_cases (cfg : Config) (m : Monitor) (a : Act) :
    m.act cfg a = m ∨ Acts cfg m a (m.act cfg a) := by
  cases a with
  | publish =>
    simp only [act, publishSnapshot]
    split
    case h_1 epoch readAt snapshot hloop hdispatch =>
      split
      case isTrue h => exact .inr (.refuse hloop h)
      case isFalse hcurrent =>
        split
        case isTrue hdirty => exact .inr (.redo hloop hdirty)
        case isFalse hdirty =>
          rcases trySend_cases m ⟨resyncEvent cfg snapshot, readAt, m.clock⟩ with
            ⟨hroom, heq⟩ | ⟨-, heq⟩ <;> simp only [heq]
          · rw [bind_lock_goTo]
            exact .inr (.publish hloop hdispatch hcurrent hdirty hroom)
          · exact .inl trivial
    · exact .inl rfl
  | replay =>
    simp only [act, sendReplay]
    split
    case h_1 hloop => exact .inr (.endReplay hloop)
    case h_2 event rest hloop =>
      split
      · exact .inr (.endReplay hloop)
      case isFalse hstale =>
        rcases trySend_cases m ⟨event, 0, 0⟩ with ⟨hroom, heq⟩ | ⟨-, heq⟩ <;> simp only [heq]
        · exact .inr (.sendReplay hloop hstale hroom)
        · exact .inl trivial
    · exact .inl rfl
  | _ =>
    simp only [act]
    repeat' split
    all_goals first | exact .inl rfl | (right; constructor <;> assumption)

/-- Every step keeps what holds between two steps. -/
theorem Sound.step (h : Sound m) (a : Act) : Sound (m.step cfg a) := by
  have hrebound : ∀ b ∈ m.tick.rebound, b < m.tick.clock :=
    fun b hb => Nat.lt_succ_of_le (h.reboundPast b hb)
  have hdropped : ∀ d ∈ m.tick.dropped, d.droppedAt < m.tick.clock :=
    fun d hd => Nat.lt_succ_of_le (h.droppedPast d hd)
  have ht := h.tick
  unfold Monitor.step
  generalize m.tick = m at *
  have hfree {loop : Loop} (hloop : m.loop = loop) (hne : ∀ rest, loop ≠ .replaying rest) :
      m.dispatch ≠ .replaying := ht.toBase.not_replaying fun rest => hloop ▸ hne rest
  rcases act_cases cfg m a with heq | hact
  · rw [heq]
    exact ht
  generalize m.act cfg a = m' at hact
  cases hact with
  | receive hqueue => exact ht.receive hqueue
  | lockDispatch | ignore => exact ht.setDispatch _ nofun
  | rebind ifIndex actualIface => exact (ht.bind ifIndex actualIface).setDispatch _ nofun
  | invalidate => exact (ht.toBase.markStaleLocked _).setDispatch _ nofun
  | emit _ hdelta => exact (ht.emit hdelta).setDispatch _ nofun
  | lose i reason => exact ht.lose i reason
  | lost => exact ht.lost _ _
  | subscribed i => exact ht.nowReady i
  | takeRequest hloop => exact ht.setOwing false rfl (hfree hloop nofun)
  | unready hloop hready => exact ht.stop_unready (by simpa using hready) (hfree hloop nofun)
  | readEpoch hloop => exact ht.beginRead hloop hrebound hdropped
  | readKernel hloop snapshot => exact ht.endRead hloop snapshot
  | checked hloop | readFailed hloop => exact ht.setOwing m.token rfl (hfree hloop nofun)
  | reportFailure hloop =>
    refine (ht.markFailedLocked _).setOwing _ rfl ?_
    rw [(markFailedLocked_marks cfg m _).dispatch]
    exact hfree hloop nofun
  | retry hloop | refuse hloop => exact ht.toBase.again (hfree hloop nofun) _
  | redo hloop =>
    have hclean : Base { m with dirty := false } := { ht with }
    exact hclean.again (hfree hloop nofun) _
  | publish hloop _ hcurrent hdirty hroom =>
    rw [not_or, not_not, Bool.not_eq_false] at hcurrent
    exact (ht.published hloop hcurrent.1 hcurrent.2 (eq_false_of_ne_true hdirty) hroom).bind _ _
  | endReplay hloop => exact ht.endReplay hloop
  | sendReplay hloop hstale hroom =>
    exact ht.sendReplay hloop (eq_false_of_ne_true hstale) hroom

theorem Sound.start (ifIndex : Int) (actualIface : String) :
    Sound (Monitor.start ifIndex actualIface) where
  room := Nat.zero_le _
  guarded := Guarded.nil
  reboundPast := by rintro _ ⟨⟩
  droppedPast := by rintro _ ⟨⟩
  sentPast := by rintro _ ⟨⟩
  read := by rintro _ ⟨⟩
  readSince := by rintro _ ⟨⟩
  replaying := by rintro ⟨⟩
  parts := by rintro _ ⟨⟩
  accounted := by rintro _ ⟨⟩
  closed := by rintro ⟨⟩
  ready := by rintro ⟨⟩
  coming _ := .inr (.inl (by simp [allReady, Monitor.start]))
  covered := by rintro _ ⟨⟩

/-- Every run. -/
theorem Sound.run (ifIndex : Int) (actualIface : String) (acts : List Act) :
    Sound (runAll (Monitor.step cfg) (Monitor.start ifIndex actualIface) acts) :=
  Kept.runAll (I := Sound) (fun _ a h => h.step a) (.start ifIndex actualIface) acts

end Monitor

end Mwan.Observe

import Mwan.L3Protocol.Observe.Gaps

/-!
# The monitor never hides a gap

A dropped delta is made good: once the kernel and the subscriptions leave the
monitor alone, the steps that are left come to an end whatever their order, and
where none is left the consumer has taken a snapshot that was read after the
delta was dropped.

Results:
* `act_decreases`: every step that is left and does something makes the rank
  smaller;
* `Sound.madeGood_of_rest`: where no step is left nothing is owed;
* `monitor_never_hides_gap`: the three properties of every run.
-/
namespace Mwan.Observe

open Mwan.Core List Function

/-! ## Steps that are left -/

/-- Steps that are not a new update, a new loss or a failed read. A
subscription comes back once for each loss. -/
def Act.quiet (m : Monitor) : Act → Prop
  | .lockDispatch | .rebind _ _ | .lose _ _ | .readFailed _ => False
  | .subscribed i => m.ready i = false
  | _ => True

/-- One of them that does something. -/
def Quiet (cfg : Config) (m m' : Monitor) : Prop :=
  ∃ a : Act, a.quiet m ∧ m.tick.act cfg a ≠ m.tick ∧ m' = m.step cfg a

/-! ## The rank -/

def Dispatch.load : Dispatch → Nat
  | .free | .replaying => 0
  | .handling false => 13
  | .handling true => 26

def Loop.load : Loop → Nat
  | .waiting => 0
  | .taken => 8
  | .checked => 7
  | .reading _ _ => 6
  | .holding _ _ _ => 5
  | .failing _ => 26
  | .sleeping => 13
  | .replaying _ => 1

def readyAll (ready : Fin 3 → Bool) : Bool := decide (∀ i, ready i = true)

/-- The snapshot at hand will be refused. -/
def Loop.doomed (ready : Fin 3 → Bool) (bindingEpoch : Nat) : Loop → Bool
  | .checked => !readyAll ready
  | .reading epoch _ | .holding epoch _ _ => !readyAll ready || decide (epoch ≠ bindingEpoch)
  | _ => false

def missing (ready : Fin 3 → Bool) : Nat := (!ready 0).toNat + (!ready 1).toNat + (!ready 2).toNat

namespace Monitor

variable {cfg : Config} {m m' : Monitor}

/-- What is left of the work on the snapshot at hand. -/
def cost (m : Monitor) (loop : Loop) : Nat :=
  12 * (loop.doomed m.ready m.bindingEpoch).toNat + loop.load

/-- What is left apart from a request and from what is queued: every step that
asks for another snapshot is paid for by what it ends. -/
def load (m : Monitor) : Nat :=
  64 * m.losing.length + 13 * missing m.ready + m.dispatch.load + 12 * m.dirty.toNat + m.cost m.loop

def unsent (m : Monitor) : Nat :=
  match m.loop with
  | .replaying rest => rest.length
  | _ => 0

def rank (m : Monitor) : Nat × Nat :=
  (12 * m.token.toNat + m.load, 2 * m.unsent + m.queue.length)

def Below (p q : Nat × Nat) : Prop := Prod.Lex (· < ·) (· < ·) p q

theorem below_of_lt (htoken : m'.token = m.token) (h : m'.load < m.load) : Below m'.rank m.rank := by
  refine Prod.Lex.left _ _ ?_
  rw [htoken]
  omega

theorem below_of_eq (htoken : m'.token = m.token) (hload : m'.load = m.load)
    (h : 2 * m'.unsent + m'.queue.length < 2 * m.unsent + m.queue.length) :
    Below m'.rank m.rank := by
  simp only [rank, htoken, hload]
  exact Prod.Lex.right _ h

/-- A request is paid for. -/
theorem below_of_add_lt (h : m'.load + 12 < m.load) : Below m'.rank m.rank := by
  refine Prod.Lex.left _ _ ?_
  have := Bool.toNat_le m'.token
  omega

theorem load_lock (m : Monitor) (dispatch : Dispatch) :
    (m.lock dispatch).load + m.dispatch.load = m.load + dispatch.load := by
  simp only [load, lock, cost]
  omega

theorem load_goTo (m : Monitor) (loop : Loop) :
    (m.goTo loop).load + m.cost m.loop = m.load + m.cost loop := by
  simp only [load, goTo, cost]
  omega

@[simp] theorem cost_waiting : m.cost .waiting = 0 := rfl

@[simp] theorem cost_taken : m.cost .taken = 8 := rfl

@[simp] theorem cost_failing (reason : String) : m.cost (.failing reason) = 26 := rfl

@[simp] theorem cost_sleeping : m.cost .sleeping = 13 := rfl

@[simp] theorem cost_replaying (rest : List Event) : m.cost (.replaying rest) = 1 := rfl

theorem cost_holding (epoch readAt : Nat) (snapshot : Snapshot) :
    5 ≤ m.cost (.holding epoch readAt snapshot) := Nat.le_add_left _ _

theorem Marks.cost_eq (h : Marks m m') (loop : Loop) : m'.cost loop = m.cost loop := by
  simp only [cost, h.ready, h.bindingEpoch]

theorem Marks.load_eq (h : Marks m m') : m'.load = m.load := by
  simp only [load, h.losing, h.ready, h.dirty, h.loop, h.dispatch, h.cost_eq]

theorem missing_lost (ready : Fin 3 → Bool) (i : Fin 3) :
    missing (update ready i false) ≤ missing ready + 1 := by
  unfold missing
  match i with
  | 0 | 1 | 2 => simp [update]; try omega

variable {ready : Fin 3 → Bool} {i : Fin 3}

theorem missing_back (h : ready i = false) :
    missing (update ready i true) + 1 = missing ready := by
  unfold missing
  match i, h with
  | 0, h | 1, h | 2, h => simp [update, h]; try omega

theorem doomed_back (h : ready i = false) (loop : Loop) (bindingEpoch : Nat) :
    (loop.doomed (update ready i true) bindingEpoch).toNat ≤
      (loop.doomed ready bindingEpoch).toNat := by
  have hall : readyAll ready = false := by
    rw [readyAll, decide_eq_false_iff_not]
    exact fun hall => by rw [hall i] at h; cases h
  cases loop <;> simp [Loop.doomed, hall, Bool.toNat_le]

/-! ## Every step that is left makes the rank smaller -/

theorem lost_below {reason : String} (h : (i, reason) ∈ m.losing) :
    Below (m.lost cfg i reason).rank m.rank := by
  have hlength := length_erase_of_mem h
  have hpos := length_pos_of_mem h
  have hmissing := missing_lost m.ready i
  have hdoomed := Bool.toNat_le (m.loop.doomed (update m.ready i false) m.bindingEpoch)
  apply below_of_add_lt
  unfold Monitor.lost
  rw [(markFailedLocked_marks cfg _ reason).load_eq, (markStaleLocked_marks cfg _ reason).load_eq]
  simp only [load, cost, hlength]
  omega

theorem nowReady_below (h : m.ready i = false) : Below (m.nowReady i).rank m.rank := by
  have hmissing := missing_back h
  have hdoomed := doomed_back h m.loop m.bindingEpoch
  apply below_of_add_lt
  unfold Monitor.nowReady
  simp only
  split <;> (simp only [load, cost]; omega)

theorem emit_below (event : Event) (hdispatch : m.dispatch = .handling false) :
    Below ((m.emit cfg event).lock .free).rank m.rank := by
  have hload : (m.emit cfg event).load ≤ m.load + 12 ∧ (m.emit cfg event).dispatch = m.dispatch ∧
      ((m.emit cfg event).load = m.load ∨ (m.emit cfg event).token = m.token) := by
    unfold Monitor.emit
    simp only
    split
    · refine ⟨?_, rfl, .inr rfl⟩
      simp only [load, cost, discard, Bool.toNat_true]
      omega
    · rcases trySend_cases { m with accepted := (event, m.clock) :: m.accepted }
        ⟨event, 0, m.clock⟩ with ⟨-, heq⟩ | ⟨-, heq⟩ <;> simp only [heq]
      · exact ⟨Nat.le_add_right _ _, trivial, .inl rfl⟩
      · have hmarks := markStaleLocked_marks cfg
          (discard { m with accepted := (event, m.clock) :: m.accepted } event) "event queue overflow"
        have heq := hmarks.load_eq
        exact ⟨heq ▸ Nat.le_add_right _ _, hmarks.dispatch, .inl heq⟩
  have hfree := load_lock (m.emit cfg event) .free
  obtain ⟨hle, hsame, hor⟩ := hload
  rw [hsame, hdispatch] at hfree
  simp only [Dispatch.load] at hfree
  rcases hor with heq | htoken
  · exact below_of_add_lt (by omega)
  · exact below_of_lt htoken (by omega)

/-- Another snapshot is asked for. -/
theorem again_load (cfg : Config) (m : Monitor) (reason : String) :
    ((m.markStaleLocked cfg reason).goTo .waiting).load + m.cost m.loop = m.load := by
  have hmarks := markStaleLocked_marks cfg m reason
  have hload := load_goTo (m.markStaleLocked cfg reason) .waiting
  rw [hmarks.cost_eq, hmarks.loop, hmarks.load_eq, cost_waiting] at hload
  exact hload

theorem again_below (hcost : 12 < m.cost m.loop) (reason : String) :
    Below ((m.markStaleLocked cfg reason).goTo .waiting).rank m.rank := by
  have hload := again_load cfg m reason
  exact below_of_add_lt (by omega)

theorem goTo_below {loop : Loop} (h : m.cost loop < m.cost m.loop) :
    Below (m.goTo loop).rank m.rank := by
  have hload := load_goTo m loop
  exact below_of_lt rfl (by omega)

theorem refuse_below {epoch readAt : Nat} {snapshot : Snapshot}
    (hloop : m.loop = .holding epoch readAt snapshot)
    (hrefused : m.bindingEpoch ≠ epoch ∨ m.allReady = false) (reason : String) :
    Below ((m.markStaleLocked cfg reason).goTo .waiting).rank m.rank := by
  refine again_below ?_ _
  have hdoomed : (Loop.holding epoch readAt snapshot).doomed m.ready m.bindingEpoch = true := by
    rcases hrefused with hne | hready
    · simp [Loop.doomed, Ne.symm hne]
    · rw [allReady] at hready
      simp [Loop.doomed, readyAll, hready]
  rw [hloop, cost, hdoomed]
  exact Nat.le_add_right 13 4

/-- The refusal ends the dirt, which pays for the request. -/
theorem redo_below {epoch readAt : Nat} {snapshot : Snapshot}
    (hloop : m.loop = .holding epoch readAt snapshot) (hdirty : m.dirty = true) (reason : String) :
    Below ((({ m with dirty := false } : Monitor).markStaleLocked cfg reason).goTo .waiting).rank
      m.rank := by
  generalize hclean : ({ m with dirty := false } : Monitor) = clean
  have hless : clean.load + 12 = m.load := by
    subst hclean
    simp only [load, cost, hdirty, Bool.toNat_true, Bool.toNat_false]
    omega
  have hsame : clean.loop = .holding epoch readAt snapshot := by rw [← hclean]; exact hloop
  have hpos := cost_holding (m := clean) epoch readAt snapshot
  have hload := again_load cfg clean reason
  rw [hsame] at hload
  exact below_of_add_lt (by omega)

theorem published_below {epoch readAt : Nat} {snapshot : Snapshot}
    (hloop : m.loop = .holding epoch readAt snapshot) (hdispatch : m.dispatch = .free) :
    Below ((m.published cfg readAt snapshot).bind snapshot.ifIndex snapshot.actualIface).rank
      m.rank := by
  have hload : (m.published cfg readAt snapshot).load + m.cost m.loop = m.load + 1 := by
    simp only [published, load, cost, lock, goTo, hdispatch, Dispatch.load, Loop.load, Loop.doomed,
      Bool.toNat_false]
    omega
  have hpos := cost_holding (m := m) epoch readAt snapshot
  rw [hloop] at hload
  rcases bind_cases (m.published cfg readAt snapshot) snapshot.ifIndex snapshot.actualIface with
    hb | hb <;> rw [hb]
  · exact below_of_lt rfl (by omega)
  · refine below_of_lt rfl ?_
    have hsame : (m.published cfg readAt snapshot).loop = .replaying (replayEvents cfg snapshot) := rfl
    simp only [load, movedTo, hsame, cost_replaying] at hload ⊢
    omega

/-- Every step that is left does nothing or makes the rank smaller. -/
theorem act_decreases (cfg : Config) (a : Act) (hquiet : a.quiet m) :
    m.act cfg a = m ∨ Below (m.act cfg a).rank m.rank := by
  refine (act_cases cfg m a).imp_right fun hact => ?_
  generalize m.act cfg a = m' at hact
  cases hact with
  | lockDispatch | rebind | lose | readFailed => cases hquiet
  | receive hqueue =>
    refine below_of_eq rfl rfl ?_
    simp only [unsent, hqueue, length_cons]
    omega
  | invalidate hdispatch =>
    have hmarks := markStaleLocked_marks cfg m "link binding changed"
    have hload := load_lock (m.markStaleLocked cfg "link binding changed") (.handling false)
    rw [hmarks.dispatch, hmarks.load_eq, hdispatch] at hload
    simp only [Dispatch.load] at hload
    exact below_of_add_lt (by omega)
  | emit hdispatch => exact emit_below _ hdispatch
  | ignore hdispatch =>
    have hload := load_lock m .free
    rw [hdispatch] at hload
    simp only [Dispatch.load] at hload
    exact below_of_lt rfl (by omega)
  | lost h => exact lost_below h
  | subscribed i => exact nowReady_below hquiet
  | takeRequest hloop htoken =>
    refine Prod.Lex.left _ _ ?_
    have hload : (({ m with token := false } : Monitor).goTo .taken).load + m.cost m.loop =
        m.load + 8 := load_goTo { m with token := false } .taken
    have hzero : m.cost m.loop = 0 := by rw [hloop, cost_waiting]
    rw [htoken]
    change 12 * false.toNat + _ < 12 * true.toNat + _
    simp only [Bool.toNat_true, Bool.toNat_false]
    omega
  | checked hloop hready =>
    refine goTo_below ?_
    rw [allReady] at hready
    simp [hloop, cost, Loop.doomed, Loop.load, readyAll, hready]
  | unready hloop => exact goTo_below (by simp [hloop])
  | readEpoch hloop | readKernel hloop =>
    refine goTo_below ?_
    rw [hloop]
    simp [cost, Loop.doomed, Loop.load]
  | @reportFailure reason hloop =>
    have hmarks := markFailedLocked_marks cfg m ("kernel snapshot failed: " ++ reason)
    have hload := load_goTo (m.markFailedLocked cfg ("kernel snapshot failed: " ++ reason)) .sleeping
    rw [hmarks.loop, hmarks.load_eq, hloop, cost_failing, cost_sleeping] at hload
    exact below_of_add_lt (by omega)
  | retry hloop => exact again_below (by rw [hloop, cost_sleeping]; decide) _
  | refuse hloop h => exact refuse_below hloop h _
  | redo hloop hdirty => exact redo_below hloop hdirty _
  | publish hloop hdispatch => exact published_below hloop hdispatch
  | endReplay hloop =>
    refine below_of_lt rfl ?_
    simp only [load, lock, goTo, hloop, cost_waiting, cost_replaying, Dispatch.load]
    omega
  | sendReplay hloop =>
    refine below_of_eq rfl ?_ ?_
    · simp only [load, goTo, hloop, cost_replaying]
    · simp only [unsent, goTo, hloop, length_append, length_cons, length_nil]
      omega

theorem quiet_decreases (h : Quiet cfg m m') : Below m'.rank m.rank := by
  obtain ⟨a, hquiet, hne, rfl⟩ := h
  have hquiet' : a.quiet m.tick := by cases a <;> exact hquiet
  exact (act_decreases cfg a hquiet').resolve_left hne

/-! ## Where no step is left -/

/-- Nothing is under way. -/
structure AtRest (m : Monitor) : Prop where
  queue : m.queue = []
  token : m.token = false
  ready : m.allReady = true
  loop : m.loop = .waiting

theorem atRest_of_stuck (cfg : Config) (h : Base m) (hstuck : ∀ a : Act, a.quiet m → m.act cfg a = m) :
    AtRest m := by
  have hqueue : m.queue = [] := by
    cases hq : m.queue with
    | nil => rfl
    | cons entry queue =>
      have hsame := congrArg (fun m => m.queue.length) (hstuck .receive trivial)
      simp [act, hq] at hsame
  have hready : ∀ i, m.ready i = true := by
    intro i
    by_contra hi
    rw [Bool.not_eq_true] at hi
    have hsame := congrArg (fun m => m.ready i) (hstuck (.subscribed i) hi)
    have hback : (m.nowReady i).ready i = true := by
      unfold nowReady
      simp only
      split <;> exact update_self ..
    exact absurd (hback.symm.trans hsame) (by simp [hi])
  have hallReady : m.allReady = true := by simpa [allReady] using hready
  have hroom : ∀ e : Entry, m.trySend e = some { m with queue := m.queue ++ [e] } := by
    intro e
    simp [trySend, hqueue, queueCapacity]
  have hdispatch : ∀ changed, m.dispatch ≠ .handling changed := by
    intro changed hd
    cases changed with
    | true =>
      have hsame := congrArg Monitor.dispatch (hstuck .invalidate trivial)
      simp [act, hd, lock] at hsame
    | false =>
      have hsame := congrArg Monitor.dispatch (hstuck .ignore trivial)
      simp [act, hd, lock] at hsame
  have hloop : m.loop = .waiting := by
    cases hl : m.loop with
    | waiting => rfl
    | taken =>
      have hsame := congrArg Monitor.loop (hstuck .checkReady trivial)
      simp [act, hl, goTo, hallReady] at hsame
    | checked =>
      have hsame := congrArg Monitor.loop (hstuck .readEpoch trivial)
      simp [act, hl, goTo] at hsame
    | reading =>
      have hsame := congrArg Monitor.loop (hstuck (.readKernel ⟨"", 0, false, [], []⟩) trivial)
      simp [act, hl, goTo] at hsame
    | failing =>
      have hsame := congrArg Monitor.loop (hstuck .reportFailure trivial)
      simp [act, hl, goTo] at hsame
    | sleeping =>
      have hsame := congrArg Monitor.loop (hstuck .retry trivial)
      simp [act, hl, goTo] at hsame
    | holding =>
      have hfree : m.dispatch = .free := by
        cases hd : m.dispatch with
        | free => rfl
        | handling changed => exact absurd hd (hdispatch changed)
        | replaying =>
          obtain ⟨rest, hrest⟩ := h.replaying hd
          rw [hl] at hrest
          cases hrest
      have hsame := congrArg Monitor.loop (hstuck .publish trivial)
      simp only [act, hl, hfree, publishSnapshot, hroom] at hsame
      split at hsame
      · simp [goTo] at hsame
      · split at hsame <;> simp [goTo] at hsame
    | replaying rest =>
      cases rest with
      | nil =>
        have hsame := congrArg Monitor.loop (hstuck .replay trivial)
        simp [act, hl, goTo] at hsame
      | cons =>
        have hsame := congrArg Monitor.loop (hstuck .replay trivial)
        simp only [act, hl, sendReplay, hroom] at hsame
        split at hsame <;> simp [goTo] at hsame
  have htoken : m.token = false := by
    by_contra ht
    rw [Bool.not_eq_false] at ht
    have hsame := congrArg Monitor.loop (hstuck .takeRequest trivial)
    simp [act, hloop, ht, goTo] at hsame
  exact ⟨hqueue, htoken, hallReady, hloop⟩

/-- Nothing is owed where nothing is under way. -/
theorem Sound.madeGood_of_rest (h : Sound m) (hrest : AtRest m) {d : Drop}
    (hd : d ∈ m.dropped) : MadeGood m.received d.droppedAt := by
  rcases h.covered d hd with hgood | htoken | hready | howed
  · rwa [stream, hrest.queue, append_nil] at hgood
  · rw [hrest.token] at htoken
    cases htoken
  · rw [hrest.ready] at hready
    cases hready
  · rw [hrest.loop] at howed
    cases howed

/-! ## The consumer's stream -/

/-- No state is sent between a stale observation and the next snapshot. -/
def NoneInGap (received : List Entry) : Prop :=
  ∀ before gap middle event after, received = before ++ gap :: (middle ++ event :: after) →
    gap.isStale = true → event.isState = true → ∃ snapshot ∈ middle, snapshot.isResync = true

theorem dropped_emit (cfg : Config) (m : Monitor) (event : Event) :
    m.dropped ⊆ (m.emit cfg event).dropped := by
  unfold Monitor.emit
  simp only
  split
  · exact subset_cons_self _ _
  · rcases trySend_cases { m with accepted := (event, m.clock) :: m.accepted }
      ⟨event, 0, m.clock⟩ with ⟨-, heq⟩ | ⟨-, heq⟩ <;> simp only [heq]
    · exact Subset.refl _
    · have hmore := (markStaleLocked_marks cfg
        (discard { m with accepted := (event, m.clock) :: m.accepted } event)
        "event queue overflow").dropped
      exact Subset.trans (subset_cons_self _ _) hmore

/-- What was dropped stays dropped. -/
theorem dropped_act (cfg : Config) (m : Monitor) (a : Act) : m.dropped ⊆ (m.act cfg a).dropped := by
  have hself := Subset.refl m.dropped
  rcases act_cases cfg m a with heq | hact
  · rwa [heq]
  generalize m.act cfg a = m' at hact
  cases hact with
  | emit => exact dropped_emit cfg m _
  | invalidate | retry | refuse => exact (markStaleLocked_marks cfg m _).dropped
  | redo => exact (markStaleLocked_marks cfg { m with dirty := false } _).dropped
  | @lost i reason =>
    have hmore := (markStaleLocked_marks cfg { m with
      losing := m.losing.erase (i, reason), ready := update m.ready i false } reason).dropped
    exact Subset.trans hmore (markFailedLocked_marks cfg _ reason).dropped
  | reportFailure => exact (markFailedLocked_marks cfg m _).dropped
  | rebind ifIndex actualIface =>
    rcases bind_cases m ifIndex actualIface with hb | hb <;> rw [hb] <;> exact hself
  | @publish _ readAt snapshot =>
    rcases bind_cases (m.published cfg readAt snapshot) snapshot.ifIndex snapshot.actualIface with
      hb | hb <;> rw [hb] <;> exact hself
  | subscribed i =>
    unfold nowReady
    simp only
    split <;> exact hself
  | _ => exact hself

end Monitor

end Mwan.Observe

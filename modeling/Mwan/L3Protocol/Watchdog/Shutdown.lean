import Mwan.Core.Machine

/-!
# Shutdown during a recovery (`alert/limiter.go`, `watchdog/main.go`)

`Coord` is to hold a signal back while the gateway VM is stopped by a rollback
or by the recovery of a deployment. The handler goroutine reads one flag and
then acts; the loop sets and clears that flag and looks at the deferred
shutdown after a rollback that succeeded. Every lock acquisition and every
call that can be seen from outside is a step of its own here, and the two
goroutines take their steps in any order.

Beside the process, the state counts the recoveries begun and keeps the one in
progress when the signal came.

Results:
* `shutdown_kept_and_held_back`: the signal is neither lost nor carried out
  inside a recovery, in every run where the handler's check falls outside of
  the recoveries and none begins between the check and the cancellation;
* `deferred_shutdown_lost`: a signal deferred during a rollback that succeeds
  is dropped.
-/
namespace Mwan.Watchdog.Shutdown

open Mwan.Core

/-- mirrors limiter.go:12-23 -/
structure Coord where
  rollingBack : Bool
  shutdownAfterRollback : Bool
  deriving DecidableEq

def Coord.setRollingBack (c : Coord) (v : Bool) : Coord := { c with rollingBack := v }

def Coord.isRollingBack (c : Coord) : Bool := c.rollingBack

def Coord.onSignalDuringRollback (c : Coord) : Coord := { c with shutdownAfterRollback := true }

def Coord.takeShutdownAfterRollback (c : Coord) : Bool × Coord :=
  (c.shutdownAfterRollback, { c with shutdownAfterRollback := false })

/-- The signal handler (main.go:133-152): what it does next. -/
inductive Handler
  /-- `<-sigCtx.Done()`, then `IsRollingBack` -/
  | waiting
  /-- the flag is read -/
  | read (rollingBack : Bool)
  /-- the signal is recorded; `stopSig` and return -/
  | deferred
  /-- `stopSig` is called; `cancelMain` -/
  | stopped
  | done
  deriving DecidableEq

inductive Kind
  /-- `rollback` (watchdog.go:377-453) -/
  | rollback
  /-- `inspectDeployOperation` (deploy_operation.go:39-76) -/
  | deployment
  deriving DecidableEq

/-- The loop: outside of a recovery, or what is next in one. -/
inductive Loop
  | idle
  /-- `SetRollingBack(true)` is called; the work on the VM -/
  | working (kind : Kind)
  /-- a rollback succeeded; `TakeShutdownAfterRollback` -/
  | complete
  /-- its answer -/
  | took (shutdown : Bool)
  /-- the deferred `SetRollingBack(false)` -/
  | returning
  deriving DecidableEq

structure Process where
  coord : Coord
  handler : Handler
  loop : Loop
  /-- `exitFn != nil` -/
  exitFn : Bool
  /-- the signals come to `sigCtx`; after `stopSig` they end the process -/
  listening : Bool
  /-- a signal has arrived -/
  signalled : Bool
  /-- the main context -/
  cancelled : Bool
  exited : Bool
  /-- recoveries begun -/
  rounds : Nat
  /-- the recovery in progress when the first signal arrived -/
  arrival : Option Nat
  deriving DecidableEq

/-- `Run` (main.go:127-155) with `newWatchdog`, which sets no `exitFn`. -/
def start : Process :=
  ⟨⟨false, false⟩, .waiting, .idle, false, true, false, false, false, 0, none⟩

inductive Event
  | signal
  /-- the handler's next step -/
  | handler
  /-- `SetRollingBack(true)` -/
  | begin (kind : Kind)
  /-- the work on the VM ends, with or without an error -/
  | finish (succeeded : Bool)
  /-- the loop's next step -/
  | loop

def Process.arrive (s : Process) : Process :=
  if s.listening then
    if s.signalled then s
    else { s with signalled := true, arrival := if s.loop = .idle then none else some s.rounds }
  else { s with exited := true }

def Process.handle (s : Process) : Process :=
  match s.handler with
  | .waiting => if s.signalled then { s with handler := .read s.coord.isRollingBack } else s
  | .read true => { s with coord := s.coord.onSignalDuringRollback, handler := .deferred }
  | .read false => { s with listening := false, handler := .stopped }
  | .deferred => { s with listening := false, handler := .done }
  | .stopped => { s with cancelled := true, handler := .done }
  | .done => s

def Process.begin (s : Process) (kind : Kind) : Process :=
  match s.loop with
  | .idle =>
    { s with coord := s.coord.setRollingBack true, loop := .working kind, rounds := s.rounds + 1 }
  | _ => s

/-- Only a rollback that succeeded goes on to the deferred shutdown. -/
def Process.finish (s : Process) (succeeded : Bool) : Process :=
  match s.loop with
  | .working .rollback => { s with loop := if succeeded then .complete else .returning }
  | .working .deployment => { s with loop := .returning }
  | _ => s

def Process.proceed (s : Process) : Process :=
  match s.loop with
  | .complete =>
    let (shutdown, coord) := s.coord.takeShutdownAfterRollback
    { s with coord, loop := .took shutdown }
  | .took shutdown => { s with exited := shutdown && s.exitFn, loop := .returning }
  | .returning => { s with coord := s.coord.setRollingBack false, loop := .idle }
  | _ => s

def Process.act (s : Process) : Event → Process
  | .signal => s.arrive
  | .handler => s.handle
  | .begin kind => s.begin kind
  | .finish succeeded => s.finish succeeded
  | .loop => s.proceed

/-- A process that has ended takes no step. -/
def step (s : Process) (e : Event) : Process := if s.exited then s else s.act e

/-! ## The two requirements -/

/-- The signal has arrived, and the handler and the recovery that was in
progress then have finished. -/
def Finished (s : Process) : Prop :=
  s.signalled = true ∧ s.handler = .done ∧ (s.arrival = some s.rounds → s.loop = .idle)

instance (s : Process) : Decidable (Finished s) := inferInstanceAs (Decidable (_ ∧ _ ∧ (_ → _)))

def Answered (s : Process) : Prop := Finished s → s.cancelled = true ∨ s.exited = true

instance (s : Process) : Decidable (Answered s) := inferInstanceAs (Decidable (_ → _))

/-- Inside a recovery the main context is not cancelled and the process does
not end. -/
def HeldBack (s : Process) (e : Event) : Prop :=
  s.loop ≠ .idle → (step s e).cancelled = s.cancelled ∧ (step s e).exited = s.exited

/-- The handler has found no recovery and not yet cancelled. -/
def Handler.Leaving (h : Handler) : Prop := h = .read false ∨ h = .stopped

/-- No signal after `stopSig` during a recovery, no check during one, and no
recovery begins while the handler is about to cancel. -/
def Apart (s : Process) : Event → Prop
  | .signal => s.listening = true ∨ s.loop = .idle
  | .handler => s.handler = .waiting → s.signalled = true → s.loop = .idle
  | .begin _ => ¬ s.handler.Leaving
  | _ => True

/-! ## The invariant -/

structure Inv (s : Process) : Prop where
  exitFn : s.exitFn = false
  /-- the flag is the recovery -/
  rolling : s.coord.rollingBack = true ↔ s.loop ≠ .idle
  read : s.handler ≠ .read true
  deferred : s.handler ≠ .deferred
  leaving : s.handler.Leaving → s.loop = .idle
  done : s.handler = .done → s.cancelled = true

theorem inv_start : Inv start where
  exitFn := rfl
  rolling := by decide
  read := by decide
  deferred := by decide
  leaving := fun _ => rfl
  done := nofun

variable {s : Process}

theorem Inv.arrive (h : Inv s) : Inv s.arrive := by
  unfold Process.arrive
  split
  · split
    · exact h
    · exact { h with }
  · exact { h with }

theorem Inv.handle (h : Inv s) (hapart : Apart s .handler) : Inv s.handle := by
  unfold Process.handle
  split
  case h_1 hwaiting =>
    split
    case isTrue hsignalled =>
      have hidle : s.loop = .idle := hapart hwaiting hsignalled
      have hflag : s.coord.rollingBack = false := by
        cases hc : s.coord.rollingBack with
        | true => exact absurd hidle (h.rolling.mp hc)
        | false => rfl
      refine ⟨h.exitFn, h.rolling, ?_, ?_, fun _ => hidle, ?_⟩
      · simp [Coord.isRollingBack, hflag]
      · simp
      · simp
    case isFalse => exact h
  case h_2 hread => exact absurd hread h.read
  case h_3 hread =>
    exact ⟨h.exitFn, h.rolling, by simp, by simp, fun _ => h.leaving (.inl hread), by simp⟩
  case h_4 hdeferred => exact absurd hdeferred h.deferred
  case h_5 hstopped =>
    exact ⟨h.exitFn, h.rolling, by simp, by simp, fun _ => h.leaving (.inr hstopped), by simp⟩
  case h_6 => exact h

theorem Inv.begin (h : Inv s) (kind : Kind) (hapart : ¬ s.handler.Leaving) :
    Inv (s.begin kind) := by
  unfold Process.begin
  split
  · exact { h with
      rolling := by simp [Coord.setRollingBack]
      leaving := fun hl => absurd hl hapart }
  · exact h

/-- A step of the loop inside a recovery: the handler is not leaving there. -/
theorem Inv.within (h : Inv s) {next : Loop} {coord : Coord} (hloop : s.loop ≠ .idle)
    (hrolling : coord.rollingBack = true ↔ next ≠ .idle) :
    Inv { s with coord, loop := next } :=
  { h with rolling := hrolling, leaving := fun hl => absurd (h.leaving hl) hloop }

theorem Inv.finish (h : Inv s) (succeeded : Bool) : Inv (s.finish succeeded) := by
  unfold Process.finish
  split
  case h_1 hloop =>
    have hin : s.loop ≠ .idle := by simp [hloop]
    have hset := h.rolling.mpr hin
    cases succeeded with
    | true | false => exact h.within hin (by simp [hset])
  case h_2 hloop =>
    have hin : s.loop ≠ .idle := by simp [hloop]
    exact h.within hin (by simp [h.rolling.mpr hin])
  case h_3 => exact h

theorem Inv.proceed (h : Inv s) (hexited : s.exited = false) :
    Inv s.proceed ∧ s.proceed.exited = false := by
  unfold Process.proceed
  split
  case h_1 hloop =>
    have hin : s.loop ≠ .idle := by simp [hloop]
    exact ⟨h.within hin (by simp [h.rolling.mpr hin]), hexited⟩
  case h_2 shutdown hloop =>
    have hin : s.loop ≠ .idle := by simp [hloop]
    have hset := h.rolling.mpr hin
    refine ⟨{ h with rolling := ?_, leaving := fun hl => absurd (h.leaving hl) hin }, ?_⟩
    · simp [hset]
    · show (shutdown && s.exitFn) = false
      rw [h.exitFn, Bool.and_false]
  case h_3 hloop =>
    exact ⟨h.within (by simp [hloop]) (by simp [Coord.setRollingBack]), hexited⟩
  case h_4 => exact ⟨h, hexited⟩

theorem step_exited {e : Event} (h : s.exited = true) : step s e = s := if_pos h

theorem step_running {e : Event} (h : s.exited = false) : step s e = s.act e :=
  if_neg (by simp [h])

theorem Inv.step {e : Event} (h : Inv s) (hapart : Apart s e) : Inv (step s e) := by
  cases hexited : s.exited with
  | true => rwa [step_exited hexited]
  | false =>
    rw [step_running hexited]
    cases e with
    | signal => exact h.arrive
    | handler => exact h.handle hapart
    | begin kind => exact h.begin kind hapart
    | finish succeeded => exact h.finish succeeded
    | loop => exact (h.proceed hexited).1

/-- Inside a recovery neither the context nor the process is ended by a step
that keeps apart. -/
theorem Inv.heldBack {e : Event} (h : Inv s) (hapart : Apart s e) : HeldBack s e := by
  intro hloop
  cases hexited : s.exited with
  | true =>
    rw [step_exited hexited]
    exact ⟨rfl, hexited⟩
  | false =>
    rw [step_running hexited]
    cases e with
    | signal =>
      have hlistening : s.listening = true := hapart.resolve_right hloop
      show s.arrive.cancelled = s.cancelled ∧ s.arrive.exited = false
      simp only [Process.arrive, hlistening, if_true]
      split <;> exact ⟨rfl, hexited⟩
    | handler =>
      show s.handle.cancelled = s.cancelled ∧ s.handle.exited = false
      unfold Process.handle
      split
      case h_1 => split <;> exact ⟨rfl, hexited⟩
      case h_5 hstopped => exact absurd (h.leaving (.inr hstopped)) hloop
      all_goals exact ⟨rfl, hexited⟩
    | begin kind =>
      show (s.begin kind).cancelled = s.cancelled ∧ (s.begin kind).exited = false
      unfold Process.begin
      split <;> exact ⟨rfl, hexited⟩
    | finish succeeded =>
      show (s.finish succeeded).cancelled = s.cancelled ∧ (s.finish succeeded).exited = false
      unfold Process.finish
      split <;> exact ⟨rfl, hexited⟩
    | loop =>
      refine ⟨?_, (h.proceed hexited).2⟩
      show s.proceed.cancelled = s.cancelled
      unfold Process.proceed
      split <;> rfl

/-- In every run that keeps the signal and its handler apart from the
recoveries, the shutdown is held back inside them and is not lost. -/
theorem shutdown_kept_and_held_back (events : List Event) (h : Each step Apart start events) :
    Always step Answered start events ∧ Each step HeldBack start events :=
  Each.invariant (fun _ _ hs hapart => ⟨hs.step hapart, hs.heldBack hapart⟩)
    (fun _ hs hfinished => .inl (hs.done hfinished.2.1)) inv_start h

/-- A rollback that ends, and then a signal that cancels the main context. -/
theorem shutdown_after_rollback :
    Always step Answered start
        [.begin .rollback, .finish true, .loop, .loop, .loop, .signal, .handler, .handler,
          .handler] ∧
      Each step HeldBack start
        [.begin .rollback, .finish true, .loop, .loop, .loop, .signal, .handler, .handler,
          .handler] :=
  shutdown_kept_and_held_back _ (by
    simp [Each, Apart, Handler.Leaving, step, start, Process.act, Process.begin, Process.finish,
      Process.proceed, Process.arrive, Process.handle, Coord.setRollingBack,
      Coord.takeShutdownAfterRollback, Coord.isRollingBack])

/-- The signal comes during a rollback and is deferred. The rollback succeeds
and takes the deferred shutdown, but there is no exit function to call. -/
theorem deferred_shutdown_lost :
    ¬ Always step Answered start
      [.begin .rollback, .signal, .handler, .handler, .handler, .finish true, .loop, .loop,
        .loop] := by
  decide

end Mwan.Watchdog.Shutdown

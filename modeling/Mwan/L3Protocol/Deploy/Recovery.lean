import Mwan.Core.Machine
import Mwan.L3Protocol.Deploy.Requests

/-!
# Deployments in progress (`deployoperation/engine.go`, `recovery.go`)

The processes around one store: anyone may send requests and create records at
any time, and one of them may own the recovery coordinator and run
`RecoverCoordinated`. Its steps are those of the code: what it reads, writes
and asks the hypervisor for happens one thing at a time, and everything else
can happen in between. Time passes within a step and between two steps.

Beside the disk, the clock and the recovery a `System` carries what has
happened so far: the records created and replaced, the leases granted and
every record the file has held.

Results:
* `step_turn`: everything that an event can do to the file and to what is
  remembered of creations and grants;
* `clock_le_step`: the clock never goes back.
-/
namespace Mwan.Deploy

open Mwan.Core Mwan.Core.Exec

/-- The readings of the clock within a step, `ticks i` apart. -/
def readings (now : Time) (ticks : Nat → Nat) : Nat → Time
  | 0 => now + ticks 0
  | i + 1 => readings now ticks i + ticks (i + 1)

/-- No step reads the clock more than five times. -/
def lastReading (now : Time) (ticks : Nat → Nat) : Time := readings now ticks 4

theorem le_readings (now : Time) (ticks : Nat → Nat) (i : Nat) : now ≤ readings now ticks i := by
  induction i with
  | zero => exact Int.le_add_of_nonneg_right (Int.natCast_nonneg _)
  | succ i ih => exact Int.le_trans ih (Int.le_add_of_nonneg_right (Int.natCast_nonneg _))

theorem readings_mono (now : Time) (ticks : Nat → Nat) {i j : Nat} (h : i ≤ j) :
    readings now ticks i ≤ readings now ticks j := by
  induction h with
  | refl => exact Int.le_refl _
  | step _ ih => exact Int.le_trans ih (Int.le_add_of_nonneg_right (Int.natCast_nonneg _))

/-! ## The recovery -/

/-- Where `RecoverCoordinated` is. From `stopping` on it acts on the virtual
machine. -/
inductive Stage
  /-- The coordinator is owned and nothing has been read. -/
  | entered
  | read
  /-- `WaitForLease` is about to read the record. -/
  | draining
  | leased (lease : Lease)
  | drained
  | reread (record : Record)
  /-- `Restore` has passed its check of the record. -/
  | permitted (record : Record)
  | stopping (record : Record) (snapshots : List String)
  | stopped (record : Record) (snapshots : List String)
  | pruning (record : Record) (snapshots : List String)
  | starting (record : Record)
  /-- `awaitRestored` is about to read the identity. -/
  | awaiting (record : Record)
  | identified (record : Record) (identity : Identity)
  | observed (record : Record) (identity : Identity) (results : List Result)
  | restored (identity : Identity)
  | failing (reason : String)

/-- Between an accepted `BeginRecovery` and the attempt to finish: the record is
to stay the one under recovery. -/
def Stage.active : Stage → Bool
  | .entered | .read | .failing _ => false
  | _ => true

/-- A call of `RecoverCoordinated`. -/
structure Recovery where
  operationID : String
  generation : String
  reason : String
  stage : Stage

/-- What a step of the recovery meets. -/
structure Answer where
  faults : Faults
  ticks : Nat → Nat
  /-- the context ends while the step waits -/
  interrupted : Option String
  snapshots : Except String (List String)
  /-- `VMStop`, `VMDelSnapshot`, `VMRollback` or `VMStart` -/
  vm : Except String Unit
  running : Except String Bool
  identity : Except String Identity
  results : List Result

/-- The snapshots behind the target that the watchdog manages.
mirrors rollback/state.go:51-83 -/
def snapshotsAfter (managed : String → Bool) (snapshots : List String) (target : String) :
    List String :=
  (((snapshots.filter (· ≠ "current")).dropWhile (· ≠ target)).drop 1).filter managed

/-- What the processes around a store agree on: the checks, and the names of
the snapshots that the watchdog manages. -/
structure Site where
  contract : Contract
  managed : String → Bool

namespace Recovery

/-- The deferred end of a recovery that has failed comes next. -/
def fail (r : Recovery) (reason : String) : Option Recovery :=
  some { r with stage := .failing reason }

def goto (r : Recovery) (stage : Stage) : Option Recovery := some { r with stage := stage }

/-- Wait and read the identity again. -/
def poll (r : Recovery) (a : Answer) (record : Record) : Option Recovery :=
  match a.interrupted with
  | some e => r.fail e
  | none => r.goto (.awaiting record)

/-- One step on the virtual machine. -/
def vm (r : Recovery) (a : Answer) (stage : Stage) : Option Recovery :=
  match a.vm with
  | .error e => r.fail e
  | .ok () => r.goto stage

/-- One step of `RecoverCoordinated`; it returns where the result is `none`.
mirrors engine.go:284-363, recovery.go:18-80 -/
def next (site : Site) (a : Answer) (clock : Nat → Time) (r : Recovery) (d : Disk) :
    Option Recovery × Disk :=
  match r.stage with
  | .entered =>
    match Store.exactRecord site.contract a.faults r.operationID r.generation d with
    | .error _ => (none, d)
    | .ok record => (if record.status = .recovered then none else r.goto .read, d)
  | .read =>
    match Store.beginRecovery site.contract a.faults clock r.operationID r.generation r.reason d with
    | (.error _, d') => (none, d')
    | (.ok _, d') => (r.goto .draining, d')
  | .draining =>
    match (Store.readRecord site.contract a.faults d).1 with
    | .error e => (r.fail e, d)
    | .ok record =>
      if record.operationID ≠ r.operationID ∨ record.generation ≠ r.generation ∨
          record.status ≠ .recovering then
        (r.fail "deploy recovery operation identity or state has changed", d)
      else match record.lease with
        | none => (r.goto .drained, d)
        | some lease => (r.goto (.leased lease), d)
  | .leased lease =>
    if lease.expiresAt ≤ clock 0 then (r.goto .drained, d)
    else match a.interrupted with
      | some e => (r.fail e, d)
      | none => (r.goto .draining, d)
  | .drained =>
    match Store.exactRecord site.contract a.faults r.operationID r.generation d with
    | .error e => (r.fail e, d)
    | .ok record => (r.goto (.reread record), d)
  | .reread record =>
    if record.status ≠ .recovering ∨ ¬ record.Drained (clock 0) then
      (r.fail "snapshot restoration requires recovery state and an expired or released mutation lease", d)
    else (r.goto (.permitted record), d)
  | .permitted record =>
    match a.snapshots with
    | .error e => (r.fail e, d)
    | .ok snapshots =>
      if record.snapshot ∉ snapshots then (r.fail "exact deploy recovery snapshot is absent", d)
      else (r.goto (.stopping record snapshots), d)
  | .stopping record snapshots => (r.vm a (.stopped record snapshots), d)
  | .stopped record snapshots =>
    match a.running with
    | .error e => (r.fail e, d)
    | .ok true => (r.fail "deploy recovery VM remains running after stop", d)
    | .ok false =>
      (r.goto (.pruning record (snapshotsAfter site.managed snapshots record.snapshot).reverse), d)
  | .pruning record (_ :: rest) => (r.vm a (.pruning record rest), d)
  | .pruning record [] => (r.vm a (.starting record), d)
  | .starting record => (r.vm a (.awaiting record), d)
  | .awaiting record =>
    match a.identity with
    | .error _ => (r.poll a record, d)
    | .ok identity =>
      if identity.verifyRestored record.baseline = .ok () then
        (r.goto (.identified record identity), d)
      else (r.poll a record, d)
  | .identified record identity =>
    match Store.observe site.contract a.faults clock record.operationID record.generation a.results d with
    | (.error e, d') => (r.fail e, d')
    | (.ok status, d') =>
      if status ≠ .armed ∧ status ≠ .recovering then
        (r.fail "terminal deploy operation rejects restoration observations", d')
      else (r.goto (.observed record identity a.results), d')
  | .observed record identity results =>
    if checksPassed site.contract record.restoredRequiredChecks results (clock 0) then
      (r.goto (.restored identity), d)
    else (r.poll a record, d)
  | .restored identity =>
    match Store.finishRecovery site.contract a.faults clock r.operationID r.generation
        (some identity) "baseline identity and application responses restored" d with
    | (.error e, d') => (r.fail e, d')
    | (.ok _, d') => (none, d')
  | .failing reason =>
    (none, (Store.finishRecovery site.contract a.faults clock r.operationID r.generation none
      reason d).2)

end Recovery

/-! ## The system -/

/-- A lease that was granted, with the record it was granted on. -/
structure Granted where
  /-- the number of the generation -/
  life : Nat
  before : Record
  lease : Lease
  released : Bool

structure System where
  disk : Disk
  clock : Time
  recovery : Option Recovery
  /-- newest first, as in the lists below -/
  created : List Record
  replaced : List Record
  grants : List Granted
  /-- every record the file has held, with the number of its generation -/
  seen : List (Nat × Record)

inductive Event
  | tick (n : Nat)
  | create (f : Faults) (ticks : Nat → Nat) (record : Record)
  | submit (f : Faults) (ticks : Nat → Nat) (operationID generation : String) (request : Request)
  /-- A process that has taken the coordinator enters `RecoverCoordinated`. -/
  | acquire (operationID generation reason : String)
  | recover (a : Answer)
  /-- The process that owns the coordinator ends. -/
  | crash

namespace System

def start (now : Time) : System := ⟨⟨none, fun _ => none⟩, now, none, [], [], [], []⟩

/-- The generation of the record in the file, counted from 1. -/
def life (s : System) : Nat := s.created.length

def lease (s : System) : Option Lease := s.disk.file.bind (·.lease)

def status (s : System) : Option Status := s.disk.file.map (·.status)

/-- The grants behind a request that leaves the file `file`. -/
def granted (s : System) (file : Option Record) : List Granted :=
  match s.disk.file, s.lease, file.bind (·.lease) with
  | some before, none, some lease => ⟨s.life, before, lease, false⟩ :: s.grants
  | _, some _, none =>
    match s.grants with
    | [] => []
    | g :: rest => { g with released := true } :: rest
  | _, _, _ => s.grants

/-- The disk `d` at `now`, in the same generation. -/
def saved (s : System) (d : Disk) (now : Time) : System :=
  { s with disk := d, clock := now, seen := (d.file.map (s.life, ·)).toList ++ s.seen }

/-- The disk `d` at `now` behind a creation. -/
def renewed (s : System) (d : Disk) (now : Time) : System :=
  if d.file = s.disk.file then s.saved d now
  else
    { s with disk := d, clock := now
             created := d.file.toList ++ s.created
             replaced := s.disk.file.toList ++ s.replaced
             seen := (d.file.map (s.life + 1, ·)).toList ++ s.seen }

def step (site : Site) (s : System) : Event → System
  | .tick n => { s with clock := s.clock + n }
  | .create f ticks record =>
    s.renewed (Store.create site.contract f (readings s.clock ticks) record s.disk).2
      (lastReading s.clock ticks)
  | .submit f ticks operationID generation request =>
    let d := (Store.submit site.contract f (readings s.clock ticks) operationID generation request
      s.disk).2
    { s.saved d (lastReading s.clock ticks) with grants := s.granted d.file }
  | .acquire operationID generation reason =>
    if s.recovery.isNone then
      { s with recovery := some ⟨operationID, generation, reason, .entered⟩ }
    else s
  | .recover a =>
    match s.recovery with
    | none => s
    | some r =>
      let (recovery, d) := r.next site a (readings s.clock a.ticks) s.disk
      { s.saved d (lastReading s.clock a.ticks) with recovery := recovery }
  | .crash => { s with recovery := none }

end System

/-! ## What an event does -/

/-- What a step of the recovery does to the disk; it is at `stage` and `r` is
the recovery behind it. -/
inductive Recovery.Writes (c : Contract) (now : Time) (d : Disk) (stage : Stage)
    (r : Option Recovery) : Disk → Prop
  | none : Writes c now d stage r d
  | request {operationID generation : String} {updatedAt : Time} {before after : Record} {d' : Disk}
      (changed : Store.Changed c operationID generation updatedAt before after d d')
      (manifest : after.toManifest = before.toManifest) (lease : after.lease = before.lease)
      (status : after.status = before.status ∨ after.status = .recovering)
      (moves : before.Moves now after) : Writes c now d stage r d'
  | finish {operationID generation : String} {updatedAt : Time} {before after : Record} {d' : Disk}
      {restored : Option Identity} {reason : String}
      (changed : Store.Changed c operationID generation updatedAt before after d d')
      (update : before.finishRecovery restored reason now = .ok after)
      (identified : ∀ identity, restored = some identity → stage = .restored identity)
      (inactive : ∀ q, r = some q → q.stage.active = false) : Writes c now d stage r d'

section Writes

variable {c : Contract} {f : Faults} {clock : Nat → Time} {d d' : Disk} {stage : Stage}
  {r : Option Recovery} {operationID generation : String}

/-- A recovery sends requests that leave the lease alone and settle nothing. -/
theorem Recovery.Writes.of_request {request : Request}
    (hkeeps : ∀ before after : Record, request.update c clock before = .ok after →
      after.lease = before.lease ∧ (after.status = before.status ∨ after.status = .recovering))
    (h : Store.Updates c operationID generation (request.update c clock ·) d d') :
    Recovery.Writes c (clock 0) d stage r d' := by
  obtain rfl | ⟨_, before, after, hupdate, hchanged⟩ := h
  · exact .none
  · obtain ⟨hlease, hstatus⟩ := hkeeps before after hupdate
    obtain ⟨hmoves, hmanifest, -⟩ := Request.update_does hchanged.valid hupdate
    exact .request hchanged hmanifest hlease hstatus hmoves

variable (c f clock d r operationID generation)

theorem Recovery.Writes.beginRecovery (reason : String) :
    Recovery.Writes c (clock 0) d stage r
      (Store.beginRecovery c f clock operationID generation reason d).2 := by
  refine .of_request (fun before after h => ?_)
    (Store.submit_disk c f clock operationID generation (.beginRecovery reason) d)
  simp only [Request.update, Record.beginRecovery, except_ite_eq_ok, except_bind_eq_ok,
    except_pure_eq_ok] at h
  obtain ⟨-, rfl⟩ | ⟨-, _, -, _, -, rfl⟩ := h
  · exact ⟨rfl, .inl rfl⟩
  · exact ⟨rfl, .inr rfl⟩

theorem Recovery.Writes.observe (results : List Result) :
    Recovery.Writes c (clock 0) d stage r
      (Store.observe c f clock operationID generation results d).2 := by
  refine .of_request (fun before after h => ?_)
    (Store.submit_disk c f clock operationID generation (.observe results) d)
  simp only [Request.update, Record.observe, except_bind_eq_ok, except_pure_eq_ok] at h
  obtain ⟨_, -, rfl⟩ := h
  exact ⟨rfl, .inl rfl⟩

theorem Recovery.Writes.finishRecovery (restored : Option Identity) (reason : String)
    (hrestored : ∀ identity, restored = some identity → stage = .restored identity)
    (hr : ∀ q, r = some q → q.stage.active = false) :
    Recovery.Writes c (clock 0) d stage r
      (Store.finishRecovery c f clock operationID generation restored reason d).2 := by
  obtain h | ⟨before, after, hupdate, hchanged⟩ := Store.changeRecord_disk c f operationID generation
    (clock 1) (Record.finishRecovery restored reason (clock 0)) d
  · rw [Store.finishRecovery, h]
    exact .none
  · exact .finish hchanged hupdate hrestored hr

end Writes

/-- Most steps of a recovery only read the record. -/
theorem Recovery.next_writes (site : Site) (a : Answer) (clock : Nat → Time) (r : Recovery)
    (d : Disk) :
    Recovery.Writes site.contract (clock 0) d r.stage (r.next site a clock d).1
      (r.next site a clock d).2 := by
  have hfailing (reason : String) (q : Recovery) (h : r.fail reason = some q) :
      q.stage.active = false := by
    cases h
    rfl
  cases hstage : r.stage with
  | read =>
    have hwrites (r' : Option Recovery) := @Writes.beginRecovery site.contract a.faults clock d
      .read r' r.operationID r.generation r.reason
    simp only [next, hstage]
    generalize Store.beginRecovery site.contract a.faults clock r.operationID r.generation
      r.reason d = result at *
    obtain ⟨_ | _, d'⟩ := result <;> exact hwrites _
  | identified record identity =>
    have hwrites (r' : Option Recovery) := @Writes.observe site.contract a.faults clock d
      (.identified record identity) r' record.operationID record.generation a.results
    simp only [next, hstage]
    generalize Store.observe site.contract a.faults clock record.operationID record.generation
      a.results d = result at *
    obtain ⟨_ | _, d'⟩ := result
    · exact hwrites _
    · dsimp only
      split <;> exact hwrites _
  | restored identity =>
    have hwrites (r' : Option Recovery) := Writes.finishRecovery site.contract a.faults clock d
      r' r.operationID r.generation (some identity)
      "baseline identity and application responses restored"
      (fun _ h => congrArg Stage.restored (Option.some.inj h))
    simp only [next, hstage]
    generalize Store.finishRecovery site.contract a.faults clock r.operationID r.generation
      (some identity) "baseline identity and application responses restored" d = result at *
    obtain ⟨e | _, d'⟩ := result
    · exact hwrites _ (hfailing e)
    · exact hwrites _ (fun q h => by cases h)
  | failing reason =>
    simp only [next, hstage]
    exact Writes.finishRecovery _ _ _ _ _ _ _ none reason (fun _ h => by cases h)
      (fun q h => by cases h)
  | pruning record snapshots =>
    cases snapshots <;> simp only [next, hstage] <;> exact .none
  | entered | draining | leased | drained | reread | permitted | stopping | stopped | starting
  | awaiting | observed =>
    have hsame : (r.next site a clock d).2 = d := by
      simp only [next, hstage]
      repeat' split
      all_goals rfl
    rw [hsame]
    exact .none

/-- Everything that an event can do to the file and to what is remembered of
creations and grants. -/
inductive Turn (s s' : System) : Prop
  | same (file : s'.disk.file = s.disk.file) (created : s'.created = s.created)
      (replaced : s'.replaced = s.replaced) (grants : s'.grants = s.grants)
  | move (now : Time) (before after : Record) (file : s.disk.file = some before)
      (file' : s'.disk.file = some after) (clock : s.clock ≤ now) (clock' : now ≤ s'.clock)
      (manifest : after.toManifest = before.toManifest) (moves : before.Moves now after)
      (created : s'.created = s.created) (replaced : s'.replaced = s.replaced)
      (grants : s'.grants = s.granted (some after))
  | finish (now : Time) (before after : Record) (file : s.disk.file = some before)
      (file' : s'.disk.file = some after) (clock : s.clock ≤ now) (clock' : now ≤ s'.clock)
      (manifest : after.toManifest = before.toManifest) (finishes : before.Finishes now after)
      (created : s'.created = s.created) (replaced : s'.replaced = s.replaced)
      (grants : s'.grants = s.grants)
      (inactive : ∀ r, s'.recovery = some r → r.stage.active = false)
  | create (record : Record) (armed : record.status = .armed) (free : record.lease = none)
      (file' : s'.disk.file = some record)
      (retired : ∀ previous, s.disk.file = some previous → previous.status.settled)
      (created : s'.created = record :: s.created)
      (replaced : s'.replaced = s.disk.file.toList ++ s.replaced) (grants : s'.grants = s.grants)

section Turn

variable {site : Site} {s : System}

theorem System.granted_of_lease {before after : Record} (hfile : s.disk.file = some before)
    (hlease : after.lease = before.lease) : s.granted (some after) = s.grants := by
  unfold System.granted System.lease
  simp only [hfile, Option.bind_some, hlease]
  cases before.lease <;> rfl

theorem Record.Moves.updatedAt {now : Time} {r r' : Record} (h : r.Moves now r') (t : Time) :
    r.Moves now { r' with updatedAt := t } := by
  cases h with
  | keep h₁ h₂ => exact .keep h₁ h₂
  | grant l h₁ h₂ h₃ h₄ h₅ h₆ => exact .grant l h₁ h₂ h₃ h₄ h₅ h₆
  | release h₁ h₂ => exact .release h₁ h₂
  | begin h₁ h₂ h₃ => exact .begin h₁ h₂ h₃
  | disarm h₁ h₂ h₃ h₄ => exact .disarm h₁ h₂ h₃ h₄
  | commit h₁ h₂ h₃ h₄ => exact .commit h₁ h₂ h₃ h₄

theorem Record.Finishes.updatedAt {now : Time} {r r' : Record} (h : r.Finishes now r') (t : Time) :
    r.Finishes now { r' with updatedAt := t } := by
  cases h with
  | fail h₁ h₂ h₃ => exact .fail h₁ h₂ h₃
  | recover h₁ h₂ h₃ h₄ => exact .recover h₁ h₂ h₃ h₄

theorem turn_submit (f : Faults) (ticks : Nat → Nat) (operationID generation : String)
    (request : Request) :
    Turn s (s.step site (.submit f ticks operationID generation request)) := by
  obtain h | ⟨t, before, after, hupdate, hchanged⟩ := Store.submit_disk site.contract f
    (readings s.clock ticks) operationID generation request s.disk
  · have hgranted : s.granted s.disk.file = s.grants := by
      cases hfile : s.disk.file with
      | none => simp [System.granted, System.lease, hfile]
      | some => exact System.granted_of_lease hfile rfl
    exact .same (by simp [System.step, System.saved, h]) rfl rfl
      (by simp [System.step, h, hgranted])
  · obtain ⟨hmoves, hmanifest, -⟩ := Request.update_does hchanged.valid hupdate
    exact .move (readings s.clock ticks 0) before { after with updatedAt := t } hchanged.file
      hchanged.file_after (le_readings ..) (readings_mono _ _ (by omega)) hmanifest
      (hmoves.updatedAt t) rfl rfl
      (congrArg s.granted hchanged.file_after)

theorem turn_recover (a : Answer) : Turn s (s.step site (.recover a)) := by
  cases hr : s.recovery with
  | none =>
    have hsame : s.step site (.recover a) = s := by simp [System.step, hr]
    rw [hsame]
    exact .same rfl rfl rfl rfl
  | some r =>
    have hwrites := r.next_writes site a (readings s.clock a.ticks) s.disk
    have hclock : readings s.clock a.ticks 0 ≤ lastReading s.clock a.ticks :=
      readings_mono _ _ (by omega)
    simp only [System.step, hr]
    generalize r.next site a (readings s.clock a.ticks) s.disk = result at *
    obtain ⟨r', d'⟩ := result
    cases hwrites with
    | none => exact .same rfl rfl rfl rfl
    | @request _ _ t before after _ hchanged hmanifest hlease _ hmoves =>
      exact .move (readings s.clock a.ticks 0) before { after with updatedAt := t } hchanged.file
        hchanged.file_after (le_readings ..) hclock hmanifest (hmoves.updatedAt t) rfl rfl
        (System.granted_of_lease hchanged.file hlease).symm
    | @finish _ _ t before after _ _ _ hchanged hupdate _ hinactive =>
      have hmanifest : after.toManifest = before.toManifest := (Record.finishRecovery_ok hupdate).2.1
      exact .finish (readings s.clock a.ticks 0) before { after with updatedAt := t } hchanged.file
        hchanged.file_after (le_readings ..) hclock hmanifest
        ((Record.finishRecovery_finishes hupdate).updatedAt t) rfl rfl rfl hinactive

/-- What a creation does to the system: nothing, the record in its place is
archived, or the new record takes that place. -/
inductive Renewal (c : Contract) (record : Record) (s s' : System) : Prop
  | refused (disk : s'.disk = s.disk) (created : s'.created = s.created)
      (replaced : s'.replaced = s.replaced) (grants : s'.grants = s.grants)
  | archived (disk : Store.Archived c record s.disk s'.disk) (created : s'.created = s.created)
      (replaced : s'.replaced = s.replaced) (grants : s'.grants = s.grants)
  | written (t : Time) (d : Disk) (archived : Store.Archived c record s.disk d)
      (armed : record.status = .armed) (free : record.lease = none)
      (valid : Record.validate c { record with updatedAt := t } = .ok ())
      (disk : s'.disk = { d with file := some { record with updatedAt := t } })
      (created : s'.created = { record with updatedAt := t } :: s.created)
      (replaced : s'.replaced = s.disk.file.toList ++ s.replaced) (grants : s'.grants = s.grants)

theorem step_renewal (site : Site) (s : System) (f : Faults) (ticks : Nat → Nat) (record : Record) :
    Renewal site.contract record s (s.step site (.create f ticks record)) := by
  have hdisk := Store.create_disk site.contract f (readings s.clock ticks) record s.disk
  simp only [System.step]
  generalize (Store.create site.contract f (readings s.clock ticks) record s.disk).2 = d at *
  obtain rfl | ⟨d₁, harchived, hwritten⟩ := hdisk
  · simp only [System.renewed, if_true]
    exact .refused rfl rfl rfl rfl
  · have hfile : d₁.file = s.disk.file := by cases harchived <;> rfl
    obtain rfl | ⟨hadmitted, hvalid⟩ := hwritten
    · simp only [System.renewed, hfile, if_true]
      exact .archived harchived rfl rfl rfl
    · have hnew : d.file = some { record with updatedAt := readings s.clock ticks 0 } := by
        rw [hadmitted.disk]
      have hchanged : d.file ≠ s.disk.file := by
        intro heq
        cases harchived with
        | none h => simp [← heq, hnew] at h
        | previous h =>
          obtain rfl := Option.some.inj ((heq.symm.trans hnew).symm.trans h.file)
          exact h.operationID rfl
      simp only [System.renewed, hchanged, if_false]
      exact .written (readings s.clock ticks 0) d₁ harchived hadmitted.armed hadmitted.unleased
        hvalid hadmitted.disk (by simp only [hnew, Option.toList_some, List.singleton_append])
        rfl rfl

theorem Store.Archived.file {c : Contract} {record : Record} {d d' : Disk}
    (h : Store.Archived c record d d') : d'.file = d.file := by
  cases h <;> rfl

theorem Renewal.turn {c : Contract} {record : Record} {s s' : System}
    (h : Renewal c record s s') : Turn s s' := by
  cases h with
  | refused disk created replaced grants => exact .same (by rw [disk]) created replaced grants
  | archived disk created replaced grants => exact .same disk.file created replaced grants
  | written t d archived armed free valid disk created replaced grants =>
    refine .create { record with updatedAt := t } armed free (by rw [disk]) ?_ created replaced grants
    intro previous hprevious
    cases archived with
    | none h => simp [h] at hprevious
    | previous h =>
      obtain rfl := Option.some.inj (h.file.symm.trans hprevious)
      exact h.settled

theorem step_turn (site : Site) (s : System) (e : Event) : Turn s (s.step site e) := by
  cases e with
  | tick | crash => exact .same rfl rfl rfl rfl
  | create f ticks record => exact (step_renewal site s f ticks record).turn
  | submit f ticks operationID generation request =>
    exact turn_submit f ticks operationID generation request
  | acquire =>
    simp only [System.step]
    split <;> exact .same rfl rfl rfl rfl
  | recover a => exact turn_recover a

theorem clock_le_step (site : Site) (s : System) (e : Event) : s.clock ≤ (s.step site e).clock := by
  cases e with
  | tick n => exact Int.le_add_of_nonneg_right (Int.natCast_nonneg n)
  | create =>
    simp only [System.step, System.renewed]
    split <;> exact le_readings ..
  | submit => exact le_readings ..
  | acquire =>
    simp only [System.step]
    split <;> exact Int.le_refl _
  | recover a =>
    simp only [System.step]
    split
    · exact Int.le_refl _
    · exact le_readings ..
  | crash => exact Int.le_refl _

end Turn

end Mwan.Deploy

import Mwan.Core.Machine

/-!
# Rolling the gateway back (`watchdog/watchdog.go`, `rollback/state.go`)

After a total loss that lasts, behind a recent change, the watchdog stops the
gateway VM, restores a snapshot and starts it again. Two files outlive the
process: the lock, written before the VM is stopped and removed after a
rollback that succeeded, and the state file, which remembers the timestamp of
one change and how often it was rolled back. Every call of a rollback is a
step of its own here, and the process can restart between any two.

Beside the process a `Run` carries what this process has done and, over all
processes, the timestamps for which a rollback was started and succeeded.

Results:
* `rollbacks_bounded`: a change is rolled back at most once with success and
  within its budget, in every run where the state file still holds the change
  at each further attempt and no process ends inside one;
* `stopped_vm_started_iff`: every iteration that finds the VM stopped starts it
  exactly if the lock is gone, the process has not resumed a rollback and the
  VM was not already found stopped.
-/
namespace Mwan.Watchdog.Rollback

open Mwan.Core List

structure Config where
  deployWindowMinutes : Int
  connectivityTimeoutSeconds : Int
  deployGracePeriodSeconds : Int
  maxRollbackAttempts : Int
  hashCheckEveryNHealthy : Int

/-! ## The state file -/

/-- `rollback_done` -/
inductive Status
  | done
  | failed
  | exhausted
  deriving DecidableEq

/-- What `WriteState` writes (state.go:146-175). -/
structure StateFile where
  deployTS : Int
  status : Status
  snapshot : String
  attempts : Int
  deriving DecidableEq

/-- Done, and the attempts; `none` is a file that cannot be read.
mirrors state.go:127-143 -/
def alreadyDone (file : Option StateFile) (readable : Bool) (deployTS : Int) :
    Option (Bool × Int) :=
  if !readable then none
  else
    match file with
    | none => some (false, 0)
    | some r =>
      if r.deployTS ≠ deployTS then some (false, 0)
      else some (r.status == .done || r.status == .exhausted, r.attempts)

/-- The files that outlive the process. -/
structure Disk where
  lock : Bool
  state : Option StateFile
  deriving DecidableEq

/-! ## The process -/

/-- What is next in a rollback. -/
inductive Phase
  /-- the lock file, and then `executeRollbackVM` -/
  | locking
  | stopping
  | verifying
  | restoring
  | starting (failed : Bool)
  /-- `executeRollbackVM` succeeded; the lock is removed -/
  | removing
  /-- `WriteState` -/
  | recording (failed : Bool)
  deriving DecidableEq

inductive Stage
  | startup
  | iteration
  | rolling (deployTS : Int) (snap : String) (phase : Phase)
  deriving DecidableEq

/-- The timestamp for which `executeRollbackVM` is called next. -/
def Stage.beginning : Stage → Option Int
  | .rolling deployTS _ .locking => some deployTS
  | _ => none

/-- `executeRollbackVM` was called and its result is not recorded yet. -/
def Stage.working : Stage → Bool
  | .rolling _ _ .locking => false
  | .rolling _ _ _ => true
  | _ => false

def Stage.recording : Stage → Bool
  | .rolling _ _ (.recording _) => true
  | _ => false

structure Process where
  stage : Stage
  vmStoppedLogged : Bool
  recoveredFromRollback : Bool
  totalDownStartUnix : Int
  hashChangeWindowStart : Int
  healthyCyclesForHash : Int
  lastConfigHash : String
  postRollbackGraceUntil : Option Int
  deriving DecidableEq

def Process.start : Process := ⟨.startup, false, false, 0, 0, 0, "", none⟩

/-- What the watchdog does that concerns the VM. -/
inductive Act
  /-- `VMStatus` of an iteration (watchdog.go:715) -/
  | status (running : Bool)
  /-- `VMStatus` of `checkDeploy` -/
  | deployStatus (running : Bool)
  | vmStop
  | vmRollback (snap : String)
  | vmStart
  /-- `recoverInterrupted` has started the VM -/
  | resumed
  deriving DecidableEq

/-- The answers in a diagnosis. -/
structure Diagnosis where
  status : Option Bool
  deployTS : Option Int
  changeTS : Option Int
  /-- the state file can be read, before and inside of `rollback` -/
  readable : Bool
  readableAgain : Bool
  /-- `findSnapshot`; none is an error or an empty name -/
  snapshot : Option String
  acquired : Bool
  deployOperation : Bool

/-- The answers in an iteration. -/
structure Iteration where
  now : Int
  /-- `handleDeployOperation` returns true -/
  deployOperation : Bool
  /-- none is an error -/
  status : Option Bool
  /-- `os.Stat` of a lock that is there succeeds -/
  statOK : Bool
  v4ok : Bool
  v6ok : Bool
  /-- none if it cannot be read or is empty -/
  configHash : Option String
  diagnosis : Diagnosis

/-- The answers in `runStartupChecks`. -/
structure Startup where
  deployOperation : Bool
  acquired : Bool
  deployOperationInside : Bool
  lockReadable : Bool
  status : Option Bool
  startOK : Bool
  removeOK : Bool
  /-- the VM runs behind the recovery, and the hash check of `runStartupChecks` -/
  running : Bool
  configHash : Option String
  now : Int

namespace Process

/-- mirrors watchdog.go:543-586 -/
def handleVMStopped (lockSeen : Bool) (p : Process) : List Act × Process :=
  if p.vmStoppedLogged then ([], p)
  else
    let rollbackInProgress := lockSeen || p.recoveredFromRollback
    (if rollbackInProgress then [] else [.vmStart], { p with vmStoppedLogged := true })

/-- mirrors confighash.go:126-171 -/
def checkConfigHash (configHash : Option String) (now : Int) (p : Process) : Process :=
  match configHash with
  | none => p
  | some h =>
    let drift := p.lastConfigHash ≠ "" ∧ h ≠ p.lastConfigHash
    let graced := p.postRollbackGraceUntil.any (fun t => decide (now < t))
    { p with
      hashChangeWindowStart :=
        if drift then if graced then p.hashChangeWindowStart else now
        else p.hashChangeWindowStart
      lastConfigHash := h }

/-- mirrors watchdog.go:591-624 -/
def handleHealthyProbe (cfg : Config) (a : Iteration) (p : Process) : Process :=
  let cycles := p.healthyCyclesForHash + 1
  let p := { p with totalDownStartUnix := 0 }
  if cfg.hashCheckEveryNHealthy > 0 ∧ cycles ≥ cfg.hashCheckEveryNHealthy then
    { p with healthyCyclesForHash := 0 }.checkConfigHash a.configHash a.now
  else { p with healthyCyclesForHash := cycles }

/-- Since when the loss lasts (watchdog.go:659-660). -/
def lossStart (now totalDownStartUnix : Int) : Int :=
  if totalDownStartUnix = 0 then now else totalDownStartUnix

/-- The effective timestamp, if the change is recent.
mirrors probe.go:164-237 -/
def checkDeploy (cfg : Config) (d : Diagnosis) (now : Int) (p : Process) : Option Int :=
  if d.status = some true then
    let candidates := d.deployTS.toList ++ d.changeTS.toList ++
      if p.hashChangeWindowStart > 0 then [p.hashChangeWindowStart] else []
    match candidates with
    | [] => none
    | first :: rest =>
      let effective := rest.foldl max first
      if (now - effective).tdiv 60 > cfg.deployWindowMinutes then none else some effective
  else none

/-- The work on the VM begins (watchdog.go:401-405). -/
def begin (deployTS : Int) (snap : String) (p : Process) : Process :=
  { p with hashChangeWindowStart := 0, stage := .rolling deployTS snap .locking }

/-- `rollback` up to the work on the VM; mirrors watchdog.go:377-405. -/
def rollback (disk : Disk) (d : Diagnosis) (deployTS : Int) (snap : String) (p : Process) :
    Process :=
  if !d.acquired then p
  else if d.deployOperation then p
  else
    match alreadyDone disk.state d.readableAgain deployTS with
    | none => p
    | some (true, _) => p
    | some (false, _) => p.begin deployTS snap

/-- mirrors watchdog.go:812-890; a state file that cannot be read counts as no
attempt -/
def attemptRollbackForDeploy (cfg : Config) (disk : Disk) (d : Diagnosis) (deployTS : Int)
    (p : Process) : Process :=
  let (already, attempts) := (alreadyDone disk.state d.readable deployTS).getD (false, 0)
  if already then p
  else if cfg.maxRollbackAttempts > 0 ∧ attempts ≥ cfg.maxRollbackAttempts then p
  else
    match d.snapshot with
    | none => p
    | some snap => p.rollback disk d deployTS snap

/-- Within the grace period of a deployment; mirrors diagnosis.go:155-186. -/
def inGrace (cfg : Config) (d : Diagnosis) (now : Int) : Bool :=
  decide (cfg.deployGracePeriodSeconds > 0) &&
    d.deployTS.any fun raw =>
      decide (now - raw ≥ 0) && decide (now - raw < cfg.deployGracePeriodSeconds)

/-- mirrors diagnosis.go:142-203; the failover of an unchanged gateway is left
to its own model -/
def handleTimeoutExceeded (cfg : Config) (disk : Disk) (a : Iteration) (p : Process) :
    List Act × Process :=
  (a.diagnosis.status.toList.map .deployStatus,
    match p.checkDeploy cfg a.diagnosis a.now with
    | none => p
    | some deployTS =>
      if inGrace cfg a.diagnosis a.now then p
      else p.attemptRollbackForDeploy cfg disk a.diagnosis deployTS)

/-- An iteration that finds the VM running; mirrors watchdog.go:724-748. -/
def probe (cfg : Config) (disk : Disk) (a : Iteration) (p : Process) : List Act × Process :=
  let p := { p with vmStoppedLogged := false }
  if a.v4ok && a.v6ok then ([], p.handleHealthyProbe cfg a)
  else
    let p := { p with healthyCyclesForHash := 0 }
    if a.v4ok || a.v6ok then ([], { p with totalDownStartUnix := 0 })
    else
      let p := { p with totalDownStartUnix := lossStart a.now p.totalDownStartUnix }
      if a.now - p.totalDownStartUnix < cfg.connectivityTimeoutSeconds then ([], p)
      else p.handleTimeoutExceeded cfg disk a

/-- mirrors watchdog.go:698-749 -/
def runIteration (cfg : Config) (disk : Disk) (a : Iteration) (p : Process) : List Act × Process :=
  if a.deployOperation then ([], p)
  else
    match a.status with
    | none => ([], p)
    | some false =>
      let (acts, p) := p.handleVMStopped (disk.lock && a.statOK)
      (.status false :: acts, p)
    | some true =>
      let (acts, p) := p.probe cfg disk a
      (.status true :: acts, p)

end Process

/-- mirrors watchdog.go:455-526: the acts, whether a rollback was resumed, and
the lock -/
def recoverInterrupted (a : Startup) (lock : Bool) : List Act × Bool × Bool :=
  if !a.acquired || a.deployOperationInside || !lock || !a.lockReadable then ([], false, lock)
  else
    match a.status with
    | none => ([], false, lock)
    | some true => ([], false, !a.removeOK)
    | some false =>
      if a.startOK then ([.vmStart, .resumed], true, !a.removeOK)
      else ([.vmStart], false, lock)

/-! ## Runs -/

/-- The answer to one call of a rollback. -/
structure Answer where
  now : Int
  ok : Bool
  running : Option Bool
  readable : Bool
  /-- what a write that fails leaves of the file -/
  lockLeft : Bool
  stateLeft : Option StateFile

inductive Event
  | startup (a : Startup)
  | iterate (a : Iteration)
  | call (a : Answer)
  | restart

structure Run where
  process : Process
  disk : Disk
  /-- what this process has done, the oldest first -/
  acts : List Act
  /-- calls of `executeRollbackVM` -/
  starts : List Int
  /-- those that returned nil -/
  successes : List Int
  deriving DecidableEq

variable {s' : Run} {ts : Int} {snap : String}

namespace Run

/-- A host that has never rolled back. -/
def start : Run := ⟨.start, ⟨false, none⟩, [], [], []⟩

def goto (s : Run) (stage : Stage) : Run := { s with process := { s.process with stage } }

def did (s : Run) (act : Act) : Run := { s with acts := s.acts ++ [act] }

/-- `executeRollbackVM` returns. -/
def executed (s : Run) (deployTS : Int) (snap : String) (failed : Bool) : Run :=
  if failed then s.goto (.rolling deployTS snap (.recording true))
  else { s with successes := deployTS :: s.successes }.goto (.rolling deployTS snap .removing)

/-- `rollbackAttempts` in `recordRollbackResult` (watchdog.go:346-351). -/
def attempts (file : Option StateFile) (readable : Bool) (deployTS : Int) : Int :=
  match alreadyDone file readable deployTS with
  | some (true, _) => 1
  | some (false, att) => att + 1
  | none => 1

/-- The state file after `WriteState` (watchdog.go:352-356). -/
def record (s : Run) (a : Answer) (deployTS : Int) (snap : String) (failed : Bool) :
    Option StateFile :=
  if a.ok then
    some ⟨deployTS, if failed then .failed else .done, snap,
      attempts s.disk.state a.readable deployTS⟩
  else a.stateLeft

/-- One call of a rollback. mirrors watchdog.go:235-375, 402-446; the deletion
of intermediate snapshots changes nothing here and its errors are only logged. -/
def call (cfg : Config) (a : Answer) (s : Run) : Run :=
  match s.process.stage with
  | .startup => s
  | .iteration => s
  | .rolling deployTS snap phase =>
    match phase with
    | .locking =>
      { s with disk := { s.disk with lock := a.ok || a.lockLeft }
               starts := deployTS :: s.starts }.goto (.rolling deployTS snap .stopping)
    | .stopping =>
      if a.ok then (s.did .vmStop).goto (.rolling deployTS snap .verifying)
      else (s.did .vmStop).executed deployTS snap true
    | .verifying =>
      if a.running = some false then s.goto (.rolling deployTS snap .restoring)
      else s.executed deployTS snap true
    | .restoring => (s.did (.vmRollback snap)).goto (.rolling deployTS snap (.starting !a.ok))
    | .starting failed => (s.did .vmStart).executed deployTS snap (failed || !a.ok)
    | .removing =>
      { s with disk := { s.disk with lock := s.disk.lock && !a.ok } }.goto
        (.rolling deployTS snap (.recording false))
    | .recording failed =>
      { s with
        disk := { s.disk with state := s.record a deployTS snap failed }
        process :=
          { s.process with
            stage := .iteration
            postRollbackGraceUntil :=
              if failed then s.process.postRollbackGraceUntil
              else some (a.now + cfg.deployWindowMinutes * 60) } }

def step (cfg : Config) (s : Run) : Event → Run
  | .startup a =>
    if s.process.stage = .startup then
      if a.deployOperation then s.goto .iteration
      else
        let (acts, resumed, lock) := recoverInterrupted a s.disk.lock
        let process := if a.running then s.process.checkConfigHash a.configHash a.now else s.process
        { s with
          disk := { s.disk with lock }
          acts := s.acts ++ acts
          process := { process with stage := .iteration, recoveredFromRollback := resumed } }
    else s
  | .iterate a =>
    if s.process.stage = .iteration then
      let (acts, process) := s.process.runIteration cfg s.disk a
      { s with acts := s.acts ++ acts, process }
    else s
  | .call a => s.call cfg a
  | .restart => { s with process := .start, acts := [] }

/-! ## How often a change is rolled back -/

/-- The budget of every timestamp is kept. -/
def Bounded (cfg : Config) (s : Run) : Prop :=
  ∀ ts, s.successes.count ts ≤ 1 ∧
    (0 < cfg.maxRollbackAttempts → (s.starts.count ts : Int) ≤ cfg.maxRollbackAttempts)

/-- The state file can be read, and its write succeeds. -/
def StateFileWorks (s : Run) : Event → Prop
  | .iterate a => a.diagnosis.readable = true ∧ a.diagnosis.readableAgain = true
  | .call a => s.process.stage.recording = true → a.readable = true ∧ a.ok = true
  | _ => True

/-- No process ends inside a rollback, and the state file is the one of the
change that is rolled back again. -/
def Remembered (s : Run) : Event → Prop
  | .restart => s.process.stage.working = false
  | .call _ => ∀ ts ∈ s.process.stage.beginning, ts ∈ s.starts →
      s.disk.state.map (·.deployTS) = some ts
  | _ => True

instance (s : Run) (e : Event) : Decidable (StateFileWorks s e) :=
  match e with
  | .iterate _ => inferInstanceAs (Decidable (_ ∧ _))
  | .call _ => inferInstanceAs (Decidable (_ → _))
  | .startup _ => inferInstanceAs (Decidable True)
  | .restart => inferInstanceAs (Decidable True)

instance (s : Run) (e : Event) : Decidable (Remembered s e) :=
  match e with
  | .restart => inferInstanceAs (Decidable (_ = _))
  | .call _ => inferInstanceAs (Decidable (∀ ts ∈ s.process.stage.beginning, _))
  | .startup _ => inferInstanceAs (Decidable True)
  | .iterate _ => inferInstanceAs (Decidable True)

/-- What the file says about a timestamp. -/
def noted (file : Option StateFile) (ts : Int) : Int :=
  match file with
  | some r => if r.deployTS = ts then r.attempts else 0
  | none => 0

/-- The timestamp may be rolled back, by the file. -/
def Eligible (cfg : Config) (file : Option StateFile) (ts : Int) : Prop :=
  ∀ r, file = some r → r.deployTS = ts →
    r.status = .failed ∧ (0 < cfg.maxRollbackAttempts → r.attempts < cfg.maxRollbackAttempts)

/-- The file's record agrees with the counts. -/
def Settled (s : Run) : Prop :=
  ∀ r, s.disk.state = some r →
    r.attempts = s.starts.count r.deployTS ∧ (r.status = .failed → r.deployTS ∉ s.successes)

/-- A rollback of the timestamp is started and not in the file. -/
structure Ahead (s : Run) (ts : Int) : Prop where
  started : ts ∈ s.starts
  count : (s.starts.count ts : Int) = noted s.disk.state ts + 1
  unfinished : ∀ r, s.disk.state = some r → r.deployTS = ts → r.status = .failed

/-- What each stage says about the counts and the file. -/
def Accounts (cfg : Config) (s : Run) : Prop :=
  match s.process.stage with
  | .startup => s.Settled
  | .iteration => s.Settled
  | .rolling ts _ .locking => s.Settled ∧ Eligible cfg s.disk.state ts
  | .rolling ts _ .removing => s.Ahead ts
  | .rolling ts _ (.recording failed) => s.Ahead ts ∧ (failed = true → ts ∉ s.successes)
  | .rolling ts _ _ => s.Ahead ts ∧ ts ∉ s.successes

structure Inv (cfg : Config) (s : Run) : Prop where
  bounded : s.Bounded cfg
  started : s.successes ⊆ s.starts
  accounts : s.Accounts cfg

theorem inv_start (cfg : Config) : Inv cfg start where
  bounded := fun ts => ⟨by simp [start], fun h => by simp [start]; omega⟩
  started := nil_subset _
  accounts := fun r h => by cases h

variable {cfg : Config} {s : Run}

/-- A run whose files and counts are those of another one. -/
structure SameCounts (s s' : Run) : Prop where
  state : s'.disk.state = s.disk.state
  starts : s'.starts = s.starts
  successes : s'.successes = s.successes

theorem SameCounts.did (s : Run) (act : Act) : SameCounts s (s.did act) := ⟨rfl, rfl, rfl⟩

theorem Inv.counts (h : Inv cfg s) (same : SameCounts s s') :
    s'.Bounded cfg ∧ s'.successes ⊆ s'.starts := by
  unfold Bounded
  rw [same.successes, same.starts]
  exact ⟨h.bounded, h.started⟩

theorem Inv.frame (h : Inv cfg s) (same : SameCounts s s') (haccounts : s'.Accounts cfg) :
    Inv cfg s' :=
  ⟨(h.counts same).1, (h.counts same).2, haccounts⟩

theorem Ahead.frame (h : s.Ahead ts) (same : SameCounts s s') : s'.Ahead ts := by
  refine ⟨same.starts ▸ h.started, ?_, ?_⟩
  · rw [same.starts, same.state]
    exact h.count
  · intro r hr
    exact h.unfinished r (same.state ▸ hr)

/-- A file that can be read and does not end the attempt. -/
theorem eligible_of_check {file : Option StateFile} {att : Int}
    (hcheck : alreadyDone file true ts = some (false, att))
    (hbudget : ¬ (cfg.maxRollbackAttempts > 0 ∧ att ≥ cfg.maxRollbackAttempts)) :
    Eligible cfg file ts := by
  intro r hr hts
  subst hr
  simp only [alreadyDone, Bool.not_true, Bool.false_eq_true, if_false, hts, ne_eq,
    not_true_eq_false, Option.some.injEq, Prod.mk.injEq] at hcheck
  obtain ⟨hstatus, rfl⟩ := hcheck
  refine ⟨?_, fun hmax => by omega⟩
  cases hs : r.status <;> simp [hs] at hstatus ⊢

theorem rollback_cases (disk : Disk) (d : Diagnosis) (ts : Int) (snap : String) (p : Process) :
    p.rollback disk d ts snap = p ∨
      p.rollback disk d ts snap = p.begin ts snap ∧
        ∃ att, alreadyDone disk.state d.readableAgain ts = some (false, att) := by
  unfold Process.rollback
  split
  · exact .inl rfl
  · split
    · exact .inl rfl
    · split
      · exact .inl rfl
      · exact .inl rfl
      · rename_i att hcheck
        exact .inr ⟨rfl, att, hcheck⟩

/-- The state file allows the rollback, if it could be read. -/
def Allowed (cfg : Config) (disk : Disk) (d : Diagnosis) (ts : Int) : Prop :=
  d.readable = true → d.readableAgain = true → Eligible cfg disk.state ts

/-- A diagnosis leaves the process as it is, or begins a rollback that the state
file allows. -/
theorem attemptRollbackForDeploy_cases (cfg : Config) (disk : Disk) (d : Diagnosis) (ts : Int)
    (p : Process) :
    p.attemptRollbackForDeploy cfg disk d ts = p ∨
      ∃ snap, p.attemptRollbackForDeploy cfg disk d ts = p.begin ts snap ∧
        Allowed cfg disk d ts := by
  unfold Process.attemptRollbackForDeploy
  split
  rename_i already attempts hread
  split
  · exact .inl rfl
  · rename_i halready
    split
    · exact .inl rfl
    · rename_i hbudget
      split
      · exact .inl rfl
      · rename_i snap _
        rcases rollback_cases disk d ts snap p with hsame | ⟨hbegin, att, hagain⟩
        · exact .inl hsame
        · refine .inr ⟨snap, hbegin, fun hreadable hreadableAgain => ?_⟩
          rw [hreadableAgain] at hagain
          rw [hreadable, hagain] at hread
          have hattempts : att = attempts := congrArg Prod.snd hread
          exact eligible_of_check hagain (hattempts ▸ hbudget)

theorem handleTimeoutExceeded_cases (cfg : Config) (disk : Disk) (a : Iteration) (p : Process) :
    (p.handleTimeoutExceeded cfg disk a).2 = p ∨
      ∃ ts snap, (p.handleTimeoutExceeded cfg disk a).2 = p.begin ts snap ∧
        Allowed cfg disk a.diagnosis ts := by
  simp only [Process.handleTimeoutExceeded]
  split
  · exact .inl rfl
  · rename_i ts _
    split
    · exact .inl rfl
    · rcases attemptRollbackForDeploy_cases cfg disk a.diagnosis ts p with hsame | ⟨snap, hbegin⟩
      · exact .inl hsame
      · exact .inr ⟨ts, snap, hbegin⟩

theorem checkConfigHash_keeps (configHash : Option String) (now : Int) (p : Process) :
    (p.checkConfigHash configHash now).stage = p.stage ∧
      (p.checkConfigHash configHash now).vmStoppedLogged = p.vmStoppedLogged ∧
      (p.checkConfigHash configHash now).recoveredFromRollback = p.recoveredFromRollback := by
  unfold Process.checkConfigHash
  split <;> exact ⟨rfl, rfl, rfl⟩

/-- What a running VM leads to: the loop goes on, or a rollback that the file
allows begins. -/
theorem probe_cases (cfg : Config) (disk : Disk) (a : Iteration) (p : Process) :
    (p.probe cfg disk a).2.vmStoppedLogged = false ∧
      (p.probe cfg disk a).2.recoveredFromRollback = p.recoveredFromRollback ∧
      ((p.probe cfg disk a).2.stage = p.stage ∨
        ∃ ts snap, (p.probe cfg disk a).2.stage = .rolling ts snap .locking ∧
          Allowed cfg disk a.diagnosis ts) := by
  unfold Process.probe
  simp only
  split
  · simp only [Process.handleHealthyProbe]
    split
    · obtain ⟨hstage, hstopped, hrecovered⟩ := checkConfigHash_keeps a.configHash a.now _
      exact ⟨hstopped, hrecovered, .inl hstage⟩
    · exact ⟨rfl, rfl, .inl rfl⟩
  split
  · exact ⟨rfl, rfl, .inl rfl⟩
  split
  · exact ⟨rfl, rfl, .inl rfl⟩
  · rcases handleTimeoutExceeded_cases cfg disk a
        { p with vmStoppedLogged := false, healthyCyclesForHash := 0
                 totalDownStartUnix := Process.lossStart a.now p.totalDownStartUnix } with hsame | ⟨ts, snap, hbegin, hel⟩
    · rw [hsame]
      exact ⟨rfl, rfl, .inl rfl⟩
    · rw [hbegin]
      exact ⟨rfl, rfl, .inr ⟨ts, snap, rfl, hel⟩⟩

theorem handleVMStopped_cases (lockSeen : Bool) (p : Process) :
    (p.handleVMStopped lockSeen).2 = { p with vmStoppedLogged := true } ∧
      (p.handleVMStopped lockSeen).1 =
        if p.vmStoppedLogged || lockSeen || p.recoveredFromRollback then [] else [.vmStart] := by
  unfold Process.handleVMStopped
  obtain ⟨stage, logged, recovered, _, _, _, _, _⟩ := p
  cases logged <;> simp

/-- An iteration stays in the loop, or begins a rollback that the file allows. -/
theorem runIteration_stage (cfg : Config) (disk : Disk) (a : Iteration) {p : Process}
    (hstage : p.stage = .iteration) :
    (p.runIteration cfg disk a).2.stage = .iteration ∨
      ∃ ts snap, (p.runIteration cfg disk a).2.stage = .rolling ts snap .locking ∧
        Allowed cfg disk a.diagnosis ts := by
  unfold Process.runIteration
  split
  · exact .inl hstage
  split
  · exact .inl hstage
  · left
    obtain ⟨hprocess, -⟩ := handleVMStopped_cases (disk.lock && a.statOK) p
    exact (congrArg Process.stage hprocess).trans hstage
  · obtain ⟨-, -, hsame | hbegin⟩ := probe_cases cfg disk a p
    · exact .inl (hsame.trans hstage)
    · exact .inr hbegin

theorem Inv.startup (h : Inv cfg s) (a : Startup) : Inv cfg (step cfg s (.startup a)) := by
  simp only [step]
  split
  case isFalse => exact h
  case isTrue hstage =>
    have hsettled : s.Settled := by simpa only [Accounts, hstage] using h.accounts
    split <;> exact h.frame ⟨rfl, rfl, rfl⟩ hsettled

theorem Inv.iterate (h : Inv cfg s) {a : Iteration} (hworks : StateFileWorks s (.iterate a)) :
    Inv cfg (step cfg s (.iterate a)) := by
  simp only [step]
  split
  case isFalse => exact h
  case isTrue hstage =>
    have hsettled : s.Settled := by simpa only [Accounts, hstage] using h.accounts
    refine h.frame ⟨rfl, rfl, rfl⟩ ?_
    rcases runIteration_stage cfg s.disk a hstage with hloop | ⟨ts, snap, hrolling, hel⟩
    · rw [Accounts, hloop]
      exact hsettled
    · rw [Accounts, hrolling]
      exact ⟨hsettled, hel hworks.1 hworks.2⟩

theorem Inv.restart (h : Inv cfg s) (hidle : s.process.stage.working = false) :
    Inv cfg (step cfg s .restart) := by
  have hsettled : s.Settled := by
    have haccounts := h.accounts
    unfold Accounts at haccounts
    cases hstage : s.process.stage with
    | startup | iteration => rwa [hstage] at haccounts
    | rolling ts snap phase =>
      rw [hstage] at haccounts hidle
      cases phase with
      | locking => exact haccounts.1
      | _ => cases hidle
  exact h.frame ⟨rfl, rfl, rfl⟩ hsettled

variable {a : Answer}

/-- The work on the VM begins: one more start, and the file is one behind. -/
theorem Inv.locking (h : Inv cfg s) (hstage : s.process.stage = .rolling ts snap .locking)
    (hremembered : Remembered s (.call a)) : Inv cfg (s.call cfg a) := by
  have haccounts := h.accounts
  rw [Accounts, hstage] at haccounts
  obtain ⟨hsettled, heligible⟩ := haccounts
  -- by the condition the file holds the timestamp, or it was never started
  have hcount : (s.starts.count ts : Int) = noted s.disk.state ts ∧ ts ∉ s.successes ∧
      (0 < cfg.maxRollbackAttempts → (s.starts.count ts : Int) < cfg.maxRollbackAttempts) := by
    by_cases hfile : ∃ r, s.disk.state = some r ∧ r.deployTS = ts
    · obtain ⟨r, hr, rfl⟩ := hfile
      obtain ⟨hattempts, hopen⟩ := hsettled r hr
      obtain ⟨hstatus, hbudget⟩ := heligible r hr rfl
      refine ⟨by simp [noted, hr, hattempts], hopen hstatus, fun hmax => ?_⟩
      rw [← hattempts]
      exact hbudget hmax
    · have hfresh : ts ∉ s.starts := by
        intro hmem
        have hheld := hremembered ts (by rw [hstage]; rfl) hmem
        exact hfile (Option.map_eq_some_iff.mp hheld)
      have hzero : s.starts.count ts = 0 := count_eq_zero.mpr hfresh
      refine ⟨?_, fun hmem => hfresh (h.started hmem), fun hmax => by omega⟩
      rw [hzero]
      unfold noted
      split
      · rename_i r hr
        rw [if_neg fun hts => hfile ⟨r, hr, hts⟩]
        rfl
      · rfl
  obtain ⟨hnoted, hopen, hbudget⟩ := hcount
  have hcall : s.call cfg a =
      { s with disk := { s.disk with lock := a.ok || a.lockLeft }
               starts := ts :: s.starts }.goto (.rolling ts snap .stopping) := by
    simp only [call, hstage]
  rw [hcall]
  refine ⟨?_, ?_, ?_⟩
  · intro ts'
    refine ⟨(h.bounded ts').1, fun hmax => ?_⟩
    show ((ts :: s.starts).count ts' : Int) ≤ _
    by_cases hts : ts = ts'
    · subst hts
      rw [count_cons_self]
      have := hbudget hmax
      omega
    · rw [count_cons_of_ne hts]
      exact (h.bounded ts').2 hmax
  · exact fun ts' hmem => .tail _ (h.started hmem)
  · refine ⟨⟨(.head _), ?_, fun r hr hts => (heligible r hr hts).1⟩, hopen⟩
    show ((ts :: s.starts).count ts : Int) = noted s.disk.state ts + 1
    rw [count_cons_self, ← hnoted]
    omega

/-- `executeRollbackVM` returns: a success is the first one. -/
theorem Inv.executed (h : Inv cfg s) (same : SameCounts s s') (snap : String) (failed : Bool)
    (hahead : s.Ahead ts) (hopen : ts ∉ s.successes) : Inv cfg (s'.executed ts snap failed) := by
  have hahead := hahead.frame same
  rw [← same.successes] at hopen
  cases failed with
  | true =>
    exact h.frame { same with }
      ⟨hahead.frame ⟨rfl, rfl, rfl⟩, fun _ => hopen⟩
  | false =>
    obtain ⟨hbounded, hstarted⟩ := h.counts same
    refine ⟨fun ts' => ⟨?_, (hbounded ts').2⟩, cons_subset.mpr ⟨hahead.started, hstarted⟩,
      { hahead with }⟩
    show (ts :: s'.successes).count ts' ≤ 1
    by_cases hts : ts = ts'
    · subst hts
      have hone := count_cons_self (a := ts) (l := s'.successes)
      have hnone := count_eq_zero.mpr hopen
      omega
    · rw [count_cons_of_ne hts]
      exact (hbounded ts').1

theorem alreadyDone_of_unfinished {file : Option StateFile}
    (h : ∀ r, file = some r → r.deployTS = ts → r.status = .failed) :
    alreadyDone file true ts = some (false, noted file ts) := by
  cases file with
  | none => rfl
  | some r =>
    by_cases hts : r.deployTS = ts
    · have hstatus := h r rfl hts
      simp [alreadyDone, noted, hts, hstatus]
    · simp [alreadyDone, noted, hts]

theorem Inv.recording (h : Inv cfg s) {failed : Bool}
    (hstage : s.process.stage = .rolling ts snap (.recording failed))
    (hworks : StateFileWorks s (.call a)) : Inv cfg (s.call cfg a) := by
  have haccounts := h.accounts
  rw [Accounts, hstage] at haccounts
  obtain ⟨hahead, hopen⟩ := haccounts
  obtain ⟨hreadable, hok⟩ := hworks (by rw [hstage]; rfl)
  have hrecord : s.record a ts snap failed =
      some ⟨ts, if failed then .failed else .done, snap, s.starts.count ts⟩ := by
    -- the attempts written are those counted
    rw [record, if_pos hok, hreadable, hahead.count, attempts,
      alreadyDone_of_unfinished hahead.unfinished]
  simp only [call, hstage]
  refine ⟨h.bounded, h.started, ?_⟩
  intro r hr
  obtain rfl := Option.some.inj (hrecord.symm.trans hr)
  refine ⟨rfl, fun hstatus => hopen ?_⟩
  cases failed with
  | true => rfl
  | false => cases hstatus

theorem Inv.call (h : Inv cfg s) (hworks : StateFileWorks s (.call a))
    (hremembered : Remembered s (.call a)) : Inv cfg (s.call cfg a) := by
  have haccounts := h.accounts
  unfold Accounts at haccounts
  cases hstage : s.process.stage with
  | startup | iteration => simpa only [Run.call, hstage] using h
  | rolling ts snap phase =>
    rw [hstage] at haccounts
    cases phase with
    | locking => exact h.locking hstage hremembered
    | stopping =>
      obtain ⟨hahead, hopen⟩ := haccounts
      simp only [Run.call, hstage]
      split
      · exact h.frame ⟨rfl, rfl, rfl⟩ ⟨hahead.frame ⟨rfl, rfl, rfl⟩, hopen⟩
      · exact h.executed (.did s .vmStop) snap true hahead hopen
    | verifying =>
      obtain ⟨hahead, hopen⟩ := haccounts
      simp only [Run.call, hstage]
      split
      · exact h.frame ⟨rfl, rfl, rfl⟩ ⟨hahead.frame ⟨rfl, rfl, rfl⟩, hopen⟩
      · exact h.executed ⟨rfl, rfl, rfl⟩ snap true hahead hopen
    | restoring =>
      obtain ⟨hahead, hopen⟩ := haccounts
      simp only [Run.call, hstage]
      exact h.frame ⟨rfl, rfl, rfl⟩ ⟨hahead.frame ⟨rfl, rfl, rfl⟩, hopen⟩
    | starting =>
      obtain ⟨hahead, hopen⟩ := haccounts
      simp only [Run.call, hstage]
      exact h.executed (.did s .vmStart) snap _ hahead hopen
    | removing =>
      simp only [Run.call, hstage]
      have hahead : s.Ahead ts := haccounts
      exact h.frame ⟨rfl, rfl, rfl⟩ ⟨hahead.frame ⟨rfl, rfl, rfl⟩, nofun⟩
    | recording => exact h.recording hstage hworks

theorem Inv.step {e : Event} (h : Inv cfg s) (hworks : StateFileWorks s e)
    (hremembered : Remembered s e) : Inv cfg (step cfg s e) := by
  cases e with
  | startup a => exact h.startup a
  | iterate a => exact h.iterate hworks
  | call a => exact h.call hworks hremembered
  | restart => exact h.restart hremembered

/-- Over every run in which the state file works: no change is rolled back with
success more than once or beyond its budget, if the file holds the change at
each further attempt and no process ends inside an attempt. -/
theorem rollbacks_bounded (cfg : Config) (events : List Event)
    (hworks : Each (Run.step cfg) StateFileWorks start events)
    (hremembered : Each (Run.step cfg) Remembered start events) :
    Always (Run.step cfg) (Bounded cfg) start events :=
  Each.always (fun _ _ hs hboth => hs.step hboth.1 hboth.2) (fun _ hs => hs.bounded)
    (inv_start cfg) (hworks.and hremembered)

end Run

/-! ### Two runs that exceed the bounds -/

/-- One attempt for a change; the hash is checked at every healthy probe. -/
def oneAttempt : Config := ⟨30, 0, 0, 1, 1⟩

/-- The VM runs, and its configuration hash is read. -/
def quietStartup : Startup := ⟨false, true, false, true, some true, true, true, true, some "a", 0⟩

/-- A total loss; the guest says when it was last deployed. -/
def lossSince (deployTS : Int) : Iteration :=
  ⟨200, false, some true, true, false, false, none,
    ⟨some true, some deployTS, none, true, true, some "known-good-1", true, false⟩⟩

/-- All is well, and the hash is another one. -/
def healthyDrift : Iteration :=
  ⟨200, false, some true, true, true, true, some "b",
    ⟨none, none, none, true, true, none, true, false⟩⟩

def good : Answer := ⟨200, true, some false, true, true, none⟩

def refused : Answer := ⟨200, false, none, true, true, none⟩

/-- `executeRollbackVM` and its record, with every call answered. -/
def succeeding : List Event := List.replicate 7 (.call good)

/-- The VM cannot be stopped. -/
def failing : List Event := [.call good, .call refused, .call good]

theorem one_rollback_bounded :
    Always (Run.step oneAttempt) (Run.Bounded oneAttempt) Run.start
      ([.startup quietStartup, .iterate (lossSince 100)] ++ succeeding) :=
  Run.rollbacks_bounded oneAttempt _ (by decide) (by decide)

/-- A deployment, a change of the hash, and the deployment again. -/
def alternating : List Event :=
  [.startup quietStartup, .iterate (lossSince 100)] ++ failing ++
    [.iterate healthyDrift, .iterate (lossSince 100)] ++ failing ++
    [.iterate (lossSince 100)] ++ failing

/-- The process ends between the rollback and its record. -/
def interrupted : List Event :=
  [.startup quietStartup, .iterate (lossSince 100)] ++ List.replicate 6 (.call good) ++
    [.restart, .startup quietStartup, .iterate (lossSince 100)] ++ succeeding

/-- The hash takes the place of the deployment in the state file, so the
deployment is rolled back beyond its budget; and a process that ends before the
record rolls back the same change again. -/
theorem rollbacks_exceed_bounds :
    (Each (Run.step oneAttempt) Run.StateFileWorks Run.start alternating ∧
      ¬ Always (Run.step oneAttempt) (Run.Bounded oneAttempt) Run.start alternating) ∧
    Each (Run.step oneAttempt) Run.StateFileWorks Run.start interrupted ∧
      ¬ Always (Run.step oneAttempt) (Run.Bounded oneAttempt) Run.start interrupted := by
  refine ⟨⟨by decide, fun hrun => ?_⟩, by decide, fun hrun => ?_⟩
  · have hstarts := (always_iff.mp hrun _ (prefix_refl _) 100).2 (by decide)
    revert hstarts
    decide
  · have hsuccesses := (always_iff.mp hrun _ (prefix_refl _) 100).1
    revert hsuccesses
    decide

/-! ## A VM that is found stopped -/

namespace Run

/-- What an act says about the last iteration that asked. -/
def sleeps (before : Bool) : Act → Bool
  | .status running => !running
  | _ => before

/-- The last iteration that asked found the VM stopped. -/
def asleep (acts : List Act) : Bool := acts.foldl sleeps false

/-- The iteration comes to a diagnosis. -/
def Diagnoses (cfg : Config) (p : Process) (a : Iteration) : Prop :=
  a.v4ok = false ∧ a.v6ok = false ∧ ¬ a.now - Process.lossStart a.now p.totalDownStartUnix < cfg.connectivityTimeoutSeconds

instance (cfg : Config) (p : Process) (a : Iteration) : Decidable (Diagnoses cfg p a) :=
  inferInstanceAs (Decidable (_ ∧ _ ∧ ¬ _))

/-- An iteration that finds the VM stopped starts it. -/
def StartsStopped (cfg : Config) (s : Run) : Event → Prop
  | .iterate a =>
    s.process.stage = .iteration →
      (.status false ∈ (s.process.runIteration cfg s.disk a).1 ∨
        .deployStatus false ∈ (s.process.runIteration cfg s.disk a).1) →
      .vmStart ∈ (s.process.runIteration cfg s.disk a).1
  | _ => True

/-- When an iteration finds the VM stopped there is no lock, this process has
not resumed a rollback, and its last iteration did not find it stopped already;
and no diagnosis finds it stopped. -/
def Unhindered (cfg : Config) (s : Run) : Event → Prop
  | .iterate a =>
    s.process.stage = .iteration → a.deployOperation = false →
      (a.status = some false →
        (s.disk.lock && a.statOK) = false ∧ .resumed ∉ s.acts ∧ asleep s.acts = false) ∧
      (a.status = some true → Diagnoses cfg s.process a → a.diagnosis.status ≠ some false)
  | _ => True

instance (cfg : Config) (s : Run) (e : Event) : Decidable (StartsStopped cfg s e) :=
  match e with
  | .iterate _ => inferInstanceAs (Decidable (_ → _ ∨ _ → _))
  | .startup _ => inferInstanceAs (Decidable True)
  | .call _ => inferInstanceAs (Decidable True)
  | .restart => inferInstanceAs (Decidable True)

/-- The two flags of the process, read off what it has done. -/
structure Flagged (s : Run) : Prop where
  fresh : s.process.stage = .startup → s.acts = []
  stopped : s.process.vmStoppedLogged = asleep s.acts
  resumed : s.process.recoveredFromRollback = true ↔ .resumed ∈ s.acts

theorem flagged_start : Flagged start := ⟨fun _ => rfl, rfl, by simp [start, Process.start]⟩

theorem probe_acts (cfg : Config) (disk : Disk) (a : Iteration) (p : Process) :
    (p.probe cfg disk a).1 =
      if Diagnoses cfg p a then a.diagnosis.status.toList.map .deployStatus else [] := by
  unfold Process.probe
  simp only
  split
  · rename_i hboth
    have hv4 : a.v4ok = true := (Bool.and_eq_true_iff.mp hboth).1
    rw [if_neg fun hd => by simp [hd.1] at hv4]
  split
  · rename_i hone
    rw [if_neg fun hd => by simp [hd.1, hd.2.1] at hone]
  · rename_i hnone
    have hdown : a.v4ok = false ∧ a.v6ok = false := by simpa using hnone
    split
    · rename_i hsoon
      rw [if_neg fun hd => hd.2.2 hsoon]
    · rename_i hlasts
      rw [if_pos ⟨hdown.1, hdown.2, hlasts⟩]
      rfl

theorem asleep_append (acts more : List Act) :
    asleep (acts ++ more) = more.foldl sleeps (asleep acts) := foldl_append

theorem recoverInterrupted_cases (a : Startup) (lock : Bool) :
    (recoverInterrupted a lock).1.foldl sleeps false = false ∧
      ((recoverInterrupted a lock).2.1 = true ↔ .resumed ∈ (recoverInterrupted a lock).1) := by
  unfold recoverInterrupted
  split
  · exact ⟨rfl, by simp⟩
  split
  iterate 2 exact ⟨rfl, by simp⟩
  split <;> exact ⟨rfl, by simp⟩

theorem Flagged.startup (h : Flagged s) (a : Startup) : Flagged (step cfg s (.startup a)) := by
  simp only [step]
  split
  case isFalse => exact h
  case isTrue hstage =>
    have hacts : s.acts = [] := h.fresh hstage
    have hlogged : s.process.vmStoppedLogged = false := by
      rw [h.stopped, hacts]
      rfl
    split
    · exact ⟨fun hs => (by cases hs), h.stopped, h.resumed⟩
    · obtain ⟨hsleeps, hresumed⟩ := recoverInterrupted_cases a s.disk.lock
      refine ⟨fun hs => (by cases hs), ?_, ?_⟩
      · show (if a.running then s.process.checkConfigHash a.configHash a.now
          else s.process).vmStoppedLogged = asleep (s.acts ++ (recoverInterrupted a s.disk.lock).1)
        rw [hacts, nil_append, asleep, hsleeps]
        split
        · rw [(checkConfigHash_keeps _ _ _).2.1, hlogged]
        · exact hlogged
      · show (recoverInterrupted a s.disk.lock).2.1 = true ↔
          .resumed ∈ s.acts ++ (recoverInterrupted a s.disk.lock).1
        rw [hacts, nil_append]
        exact hresumed

/-- What an iteration does, and what it leaves in the two flags. -/
theorem runIteration_flags (cfg : Config) (disk : Disk) (a : Iteration) (p : Process) :
    (p.runIteration cfg disk a).2.vmStoppedLogged =
        (p.runIteration cfg disk a).1.foldl sleeps p.vmStoppedLogged ∧
      (p.runIteration cfg disk a).2.recoveredFromRollback = p.recoveredFromRollback ∧
      .resumed ∉ (p.runIteration cfg disk a).1 := by
  unfold Process.runIteration
  split
  · exact ⟨rfl, rfl, by simp⟩
  split
  · exact ⟨rfl, rfl, by simp⟩
  · obtain ⟨hprocess, hacts⟩ := handleVMStopped_cases (disk.lock && a.statOK) p
    simp only [hprocess, hacts]
    split <;> exact ⟨rfl, trivial, by simp⟩
  · obtain ⟨hstopped, hrecovered, -⟩ := probe_cases cfg disk a p
    refine ⟨?_, hrecovered, ?_⟩
    · show (p.probe cfg disk a).2.vmStoppedLogged =
        (p.probe cfg disk a).1.foldl sleeps (sleeps p.vmStoppedLogged (.status true))
      rw [hstopped, probe_acts]
      split
      · cases a.diagnosis.status <;> rfl
      · rfl
    · show .resumed ∉ Act.status true :: (p.probe cfg disk a).1
      rw [probe_acts]
      split <;> simp

theorem Flagged.iterate (h : Flagged s) (a : Iteration) : Flagged (step cfg s (.iterate a)) := by
  simp only [step]
  split
  case isFalse => exact h
  case isTrue hstage =>
    obtain ⟨hlogged, hrecovered, hresumed⟩ := runIteration_flags cfg s.disk a s.process
    refine ⟨?_, ?_, ?_⟩
    · intro hs
      rcases runIteration_stage cfg s.disk a hstage with hloop | ⟨ts, snap, hrolling, -⟩
      · cases hloop.symm.trans hs
      · cases hrolling.symm.trans hs
    · show (s.process.runIteration cfg s.disk a).2.vmStoppedLogged =
        asleep (s.acts ++ (s.process.runIteration cfg s.disk a).1)
      rw [hlogged, asleep_append, h.stopped]
    · show (s.process.runIteration cfg s.disk a).2.recoveredFromRollback = true ↔
        .resumed ∈ s.acts ++ (s.process.runIteration cfg s.disk a).1
      rw [hrecovered, h.resumed, mem_append]
      exact ⟨.inl, fun hmem => hmem.resolve_right hresumed⟩

/-- A call of a rollback leaves the flags alone and is none of the loop's status
checks. -/
theorem Flagged.frame {more : List Act} (h : Flagged s) (hstage : s'.process.stage ≠ .startup)
    (hstopped : s'.process.vmStoppedLogged = s.process.vmStoppedLogged)
    (hrecovered : s'.process.recoveredFromRollback = s.process.recoveredFromRollback)
    (hacts : s'.acts = s.acts ++ more) (hsleeps : more.foldl sleeps (asleep s.acts) = asleep s.acts)
    (hresumed : .resumed ∉ more) : Flagged s' := by
  refine ⟨fun hs => absurd hs hstage, ?_, ?_⟩
  · rw [hstopped, hacts, asleep_append, hsleeps, h.stopped]
  · rw [hrecovered, hacts, h.resumed, mem_append]
    exact ⟨.inl, fun hmem => hmem.resolve_right hresumed⟩

theorem Flagged.executed (h : Flagged s) (act : List Act) {failed : Bool}
    (hs' : s'.process = s.process ∧ s'.acts = s.acts ++ act)
    (hsleeps : act.foldl sleeps (asleep s.acts) = asleep s.acts) (hresumed : .resumed ∉ act) :
    Flagged (s'.executed ts snap failed) := by
  unfold Run.executed
  split
  all_goals
    exact h.frame (by simp [goto]) (by simp [goto, hs'.1]) (by simp [goto, hs'.1]) hs'.2 hsleeps
      hresumed

theorem Flagged.call (h : Flagged s) (a : Answer) : Flagged (s.call cfg a) := by
  have hnone : s.acts = s.acts ++ [] := (append_nil _).symm
  unfold Run.call
  split
  · exact h
  · exact h
  split
  · exact h.frame (by simp [goto]) rfl rfl hnone rfl (by simp)
  · split
    · exact h.frame (by simp [goto]) rfl rfl rfl rfl (by simp)
    · exact h.executed [.vmStop] ⟨rfl, rfl⟩ rfl (by simp)
  · split
    · exact h.frame (by simp [goto]) rfl rfl hnone rfl (by simp)
    · exact h.executed [] ⟨rfl, hnone⟩ rfl (by simp)
  · exact h.frame (by simp [goto]) rfl rfl rfl rfl (by simp)
  · exact h.executed [.vmStart] ⟨rfl, rfl⟩ rfl (by simp)
  · exact h.frame (by simp [goto]) rfl rfl hnone rfl (by simp)
  · exact h.frame (by simp) rfl rfl hnone rfl (by simp)

theorem flagged_kept (cfg : Config) : Kept (step cfg) Flagged := by
  intro s e h
  cases e with
  | startup a => exact h.startup a
  | iterate a => exact h.iterate a
  | call a => exact h.call a
  | restart => exact ⟨fun _ => rfl, rfl, by simp [step, Process.start]⟩

/-- Whether an iteration starts a VM it finds stopped, by the flags. -/
theorem startsStopped_iff (h : Flagged s) (a : Iteration) :
    StartsStopped cfg s (.iterate a) ↔ Unhindered cfg s (.iterate a) := by
  unfold StartsStopped Unhindered
  refine imp_congr_right fun _ => ?_
  unfold Process.runIteration
  cases hdeploy : a.deployOperation with
  | true => simp
  | false =>
    simp only [Bool.false_eq_true, if_false, forall_const]
    cases hstatus : a.status with
    | none => simp
    | some running =>
      cases running with
      | false =>
        obtain ⟨-, hacts⟩ := handleVMStopped_cases (s.disk.lock && a.statOK) s.process
        have hflags : (s.process.vmStoppedLogged || (s.disk.lock && a.statOK) ||
            s.process.recoveredFromRollback) = false ↔
            (s.disk.lock && a.statOK) = false ∧ .resumed ∉ s.acts ∧ asleep s.acts = false := by
          rw [Bool.or_eq_false_iff, Bool.or_eq_false_iff, h.stopped, ← h.resumed, Bool.not_eq_true]
          tauto
        simp only [hacts, ← hflags]
        split
        · rename_i hhindered
          simp [hhindered]
        · rename_i hclear
          simpa using hclear
      | true =>
        simp only [probe_acts]
        split
        · rename_i hdiagnoses
          cases hd : a.diagnosis.status with
          | none => simp
          | some found => cases found <;> simp [hdiagnoses]
        · rename_i hquiet
          simp [hquiet]

/-- Over every run, with any answers and restarts: each iteration that finds the
VM stopped starts it exactly if nothing hinders it. -/
theorem stopped_vm_started_iff (cfg : Config) (events : List Event) :
    Each (step cfg) (StartsStopped cfg) start events ↔
      Each (step cfg) (Unhindered cfg) start events := by
  refine Each.congr (flagged_kept cfg) flagged_start (fun s e h => ?_) events
  cases e with
  | startup | call | restart => exact Iff.rfl
  | iterate a => exact startsStopped_iff h a

end Run

/-- The VM is found stopped; the lock can be looked at. -/
def foundStopped : Iteration :=
  ⟨200, false, some false, true, false, false, none,
    ⟨none, none, none, true, true, none, true, false⟩⟩

/-- The start issued by the first iteration fails, and the second one, which
finds the VM still stopped, does nothing; and a rollback that failed after
stopping the VM leaves a lock behind which no iteration starts it. -/
theorem stopped_vm_left_stopped :
    ¬ Each (Run.step oneAttempt) (Run.StartsStopped oneAttempt) Run.start
        [.startup quietStartup, .iterate foundStopped, .iterate foundStopped] ∧
    ¬ Each (Run.step oneAttempt) (Run.StartsStopped oneAttempt) Run.start
        ([.startup quietStartup, .iterate (lossSince 100), .call good, .call good, .call refused,
          .call good, .iterate foundStopped]) := by
  decide

end Mwan.Watchdog.Rollback

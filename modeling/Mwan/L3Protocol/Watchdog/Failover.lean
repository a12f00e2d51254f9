import Mwan.Core.Machine

/-!
# Failover and recovery (`watchdog/failover.go`, `watchdog.go`, `diagnosis.go`)

The watchdog probes the primary gateway in a loop. After a loss of both
protocols that lasts it fails over: the backup is made to announce and only
then is the primary told to withdraw. A healthy iteration undoes a failover.
Each remote call is a step of its own with any answer, and the process can
restart between any two of them; what it keeps in memory is lost then.

Beside the process a `Run` carries the commands sent so far and whether a
failover is open: the primary was told to withdraw and has not accepted an
announcement since.

Results:
* `withdrawals_confirmed`: the primary is told to withdraw only behind a good
  status of the backup that nothing sent to the backup has followed;
* `failover_undone_iff`: every healthy iteration during an open failover tries
  to recover exactly if none of them runs in a process that was restarted in it.
-/
namespace Mwan.Watchdog

open Mwan.Core List

/-- `GetBGPStatus`; a missing answer reads as all false. -/
structure BGPStatus where
  allEstablished : Bool
  announcing : Bool
  announcingIpv4 : Bool
  announcingIpv6 : Bool
  deriving DecidableEq

def BGPStatus.absent : BGPStatus := ⟨false, false, false, false⟩

def BGPStatus.announcesAnyFamily (status : BGPStatus) : Bool :=
  status.announcing || status.announcingIpv4 || status.announcingIpv6

/-- Every session is established and a family is announced. -/
def BGPStatus.Serves (status : BGPStatus) : Prop :=
  status.allEstablished = true ∧ status.announcesAnyFamily = true

structure Config where
  /-- `cfg.Failover.LXCID != ""` -/
  failoverLXC : Bool
  /-- `failovercheck.Check` -/
  precondition : Bool
  requireCompleteBackup : Bool
  connectivityTimeoutSeconds : Int

/-- Where the loop is: the next remote call it makes. -/
inductive Stage
  | iteration
  /-- `tryFailover`: the Internet probes of the backup -/
  | probeBackup
  | statusBackup
  | announceBackup
  | confirmBackup
  | withdrawPrimary
  /-- the withdrawal is sent; `failoverActive` is set next -/
  | failedOver
  /-- `triggerBGPRecovery` -/
  | probePrimary
  | statusPrimary
  | announcePrimary
  /-- the announcement is accepted; `failoverActive` is cleared next -/
  | recovered
  deriving DecidableEq

/-- What the process has in memory. -/
structure Process where
  stage : Stage
  failoverActive : Bool
  totalDownStartUnix : Int
  deriving DecidableEq

def Process.start : Process := ⟨.iteration, false, 0⟩

/-- What an iteration finds: a deployment in its way, the state of the virtual
machine, the probes, the time, a recent change of the configuration and the
connectivity of the virtual machine itself. -/
structure Probe where
  deploying : Bool
  running : Except String Bool
  v4ok : Bool
  v6ok : Bool
  nowUnix : Int
  recent : Bool
  vmOK : Bool

/-- The answers to the calls of a failover or a recovery. -/
structure Answer where
  v4ok : Bool
  v6ok : Bool
  status : Except String (Option BGPStatus)
  result : Except String Unit

/-- What the watchdog sends and reads on the two machines. -/
inductive Command
  | execBackup
  | readBackup (status : Except String BGPStatus)
  | announceBackup
  | withdrawPrimary
  | execPrimary
  | readPrimary
  | announcePrimary (accepted : Bool)
  deriving DecidableEq

/-- All probes of the iteration pass. -/
def Probe.Healthy (p : Probe) : Prop :=
  p.deploying = false ∧ p.running = .ok true ∧ p.v4ok = true ∧ p.v6ok = true

namespace Process

/-- The next iteration follows. -/
def again (w : Process) : Process := { w with stage := .iteration }

/-- mirrors watchdog/diagnosis.go:105-145, failover.go:235-239 -/
def diagnose (cfg : Config) (p : Probe) (w : Process) : Process :=
  if p.recent then w.again
  else if p.vmOK then w.again
  else if cfg.failoverLXC then { w with stage := .probeBackup }
  else w.again

/-- mirrors watchdog/watchdog.go:590-624, failover.go:275-287 -/
def healthy (w : Process) : Process :=
  { w with totalDownStartUnix := 0
           stage := if w.failoverActive then .probePrimary else .iteration }

/-- mirrors watchdog/watchdog.go:655-684 -/
def totalLoss (cfg : Config) (p : Probe) (w : Process) : Process :=
  let start := if w.totalDownStartUnix = 0 then p.nowUnix else w.totalDownStartUnix
  if p.nowUnix - start < cfg.connectivityTimeoutSeconds then
    { w with totalDownStartUnix := start }.again
  else { w with totalDownStartUnix := start }.diagnose cfg p

/-- mirrors watchdog/watchdog.go:698-749 -/
def runIteration (cfg : Config) (p : Probe) (w : Process) : Process :=
  if p.deploying then w.again
  else match p.running with
    | .error _ => w.again
    | .ok false => w.again
    | .ok true =>
      if p.v4ok && p.v6ok then w.healthy
      else if p.v4ok || p.v6ok then { w with totalDownStartUnix := 0 }.again
      else w.totalLoss cfg p

/-- The status that is read, a missing one as absent. -/
def read (a : Answer) : Except String BGPStatus := a.status.map (·.getD .absent)

/-- The next remote call: what is sent and where the loop goes on.
mirrors watchdog/failover.go:22-144, 148-231, 235-265 -/
def next (cfg : Config) (a : Answer) (w : Process) : List Command × Process :=
  match w.stage with
  | .iteration => ([], w)
  | .probeBackup =>
    ([.execBackup],
      if !a.v4ok && !a.v6ok then w.again
      else if !cfg.precondition then w.again
      else { w with stage := .statusBackup })
  | .statusBackup =>
    ([.readBackup (read a)],
      match read a with
      | .error _ => w.again
      | .ok status =>
        if status.allEstablished && status.announcing then { w with stage := .confirmBackup }
        else { w with stage := .announceBackup })
  | .announceBackup =>
    ([.announceBackup],
      match a.result with
      | .error _ => w.again
      | .ok _ => { w with stage := .confirmBackup })
  | .confirmBackup =>
    ([.readBackup (read a)],
      match read a with
      | .error _ => w.again
      | .ok status =>
        if !status.allEstablished then w.again
        else if !status.announcesAnyFamily then w.again
        else if cfg.requireCompleteBackup && !status.announcing then w.again
        else { w with stage := .withdrawPrimary })
  | .withdrawPrimary => ([.withdrawPrimary], { w with stage := .failedOver })
  | .failedOver => ([], { w with failoverActive := true }.again)
  | .probePrimary =>
    ([.execPrimary], if !a.v4ok && !a.v6ok then w.again else { w with stage := .statusPrimary })
  | .statusPrimary =>
    ([.readPrimary],
      match read a with
      | .error _ => w.again
      | .ok status =>
        if !status.allEstablished then w.again else { w with stage := .announcePrimary })
  | .announcePrimary =>
    match a.result with
    | .error _ => ([.announcePrimary false], w.again)
    | .ok _ => ([.announcePrimary true], { w with stage := .recovered })
  | .recovered => ([], { w with failoverActive := false }.again)

end Process

inductive Event
  | iterate (p : Probe)
  | call (a : Answer)
  | restart

/-- The process and what has happened so far, the newest command first. -/
structure Run where
  process : Process
  sent : List Command
  /-- the primary was told to withdraw and has accepted no announcement since -/
  failedOver : Bool
  /-- and the process that told it has ended -/
  orphaned : Bool

namespace Run

def start : Run := ⟨.start, [], false, false⟩

/-- What a command says about the failover. -/
def note (s : Run) : Command → Run
  | .withdrawPrimary =>
    { s with sent := .withdrawPrimary :: s.sent, failedOver := true, orphaned := false }
  | .announcePrimary true =>
    { s with sent := .announcePrimary true :: s.sent, failedOver := false, orphaned := false }
  | command => { s with sent := command :: s.sent }

def step (cfg : Config) (s : Run) : Event → Run
  | .iterate p =>
    if s.process.stage = .iteration then { s with process := s.process.runIteration cfg p } else s
  | .call a =>
    let (commands, process) := s.process.next cfg a
    { commands.foldl note s with process := process }
  | .restart => { s with process := .start, orphaned := s.failedOver }

/-! ## Make before break -/

/-- The last status read of the backup serves, and nothing was sent to the
backup since. -/
def Confirmed : List Command → Prop
  | [] => False
  | .readBackup status :: _ => ∃ st, status = .ok st ∧ st.Serves
  | .execBackup :: _ => False
  | .announceBackup :: _ => False
  | _ :: earlier => Confirmed earlier

/-- Every withdrawal was confirmed. -/
def Covered : List Command → Prop
  | [] => True
  | .withdrawPrimary :: earlier => Confirmed earlier ∧ Covered earlier
  | _ :: earlier => Covered earlier

/-- What holds in every run. -/
structure Inv (s : Run) : Prop where
  covered : Covered s.sent
  confirmed : s.process.stage = .withdrawPrimary → Confirmed s.sent
  known : s.failedOver = true → s.orphaned = true ∨ s.process.failoverActive = true ∨
    s.process.stage = .failedOver
  orphaned : s.orphaned = true → s.failedOver = true ∧ s.process.failoverActive = false ∧
    s.process.stage ≠ .failedOver
  recovered : s.process.stage = .recovered → s.failedOver = false

section Inv

variable {cfg : Config} {s : Run} {w : Process}

/-- An iteration keeps the flag and ends at one of three calls. -/
def Iterates (w w' : Process) : Prop :=
  w'.failoverActive = w.failoverActive ∧
    (w'.stage = .iteration ∨ w'.stage = .probePrimary ∨ w'.stage = .probeBackup)

theorem iterates_healthy (w : Process) : Iterates w w.healthy := by
  refine ⟨rfl, ?_⟩
  unfold Process.healthy
  split
  · exact .inr (.inl rfl)
  · exact .inl rfl

theorem iterates_totalLoss (cfg : Config) (p : Probe) (w : Process) :
    Iterates w (w.totalLoss cfg p) := by
  unfold Process.totalLoss Process.diagnose
  dsimp only
  generalize (if w.totalDownStartUnix = 0 then p.nowUnix else w.totalDownStartUnix) = start
  split
  · exact ⟨rfl, .inl rfl⟩
  · split
    · exact ⟨rfl, .inl rfl⟩
    · split
      · exact ⟨rfl, .inl rfl⟩
      · split
        · exact ⟨rfl, .inr (.inr rfl)⟩
        · exact ⟨rfl, .inl rfl⟩

theorem iterates_runIteration (cfg : Config) (p : Probe) (w : Process) :
    Iterates w (w.runIteration cfg p) := by
  unfold Process.runIteration
  split
  · exact ⟨rfl, .inl rfl⟩
  · split
    · exact ⟨rfl, .inl rfl⟩
    · exact ⟨rfl, .inl rfl⟩
    · split
      · exact iterates_healthy w
      · split
        · exact ⟨rfl, .inl rfl⟩
        · exact iterates_totalLoss cfg p w

/-- The flags stay, and so does what is known of the failover. -/
theorem Inv.stays (h : Inv s) {s' : Run} (hbefore : s.process.stage ≠ .failedOver)
    (hsame : s'.failedOver = s.failedOver ∧ s'.orphaned = s.orphaned ∧
      s'.process.failoverActive = s.process.failoverActive)
    (hafter : s'.process.stage ≠ .failedOver ∧ s'.process.stage ≠ .recovered)
    (hcovered : Covered s'.sent)
    (hwithdraw : s'.process.stage = .withdrawPrimary → Confirmed s'.sent) : Inv s' := by
  obtain ⟨hopen, horphan, hflag⟩ := hsame
  refine ⟨hcovered, hwithdraw, ?_, ?_, fun hr => absurd hr hafter.2⟩
  · rw [hopen, horphan, hflag]
    exact fun ho => (h.known ho).imp_right fun hk => .inl (hk.resolve_right hbefore)
  · rw [hopen, horphan, hflag]
    exact fun ho => ⟨(h.orphaned ho).1, (h.orphaned ho).2.1, hafter.1⟩

theorem Inv.iterate (h : Inv s) (p : Probe) : Inv (s.step cfg (.iterate p)) := by
  simp only [step]
  split
  · rename_i hstage
    obtain ⟨hflag, hnext⟩ := iterates_runIteration cfg p s.process
    have hne (stage : Stage) (hother : stage ≠ .iteration ∧ stage ≠ .probePrimary ∧
        stage ≠ .probeBackup) : (s.process.runIteration cfg p).stage ≠ stage := by
      obtain h | h | h := hnext
      · exact h ▸ hother.1.symm
      · exact h ▸ hother.2.1.symm
      · exact h ▸ hother.2.2.symm
    exact h.stays (by simp [hstage]) ⟨rfl, rfl, hflag⟩ ⟨hne _ (by simp), hne _ (by simp)⟩ h.covered
      fun hw => absurd hw (hne _ (by simp))
  · exact h

theorem Inv.restart (h : Inv s) : Inv (s.step cfg .restart) :=
  ⟨h.covered, nofun, fun hopen => .inl hopen,
    fun horphan => ⟨horphan, rfl, by simp [step, Process.start]⟩, nofun⟩

/-- A call that neither withdraws nor announces on the primary, and whose
process keeps its flag and goes on to `stage`. -/
theorem Inv.quiet (h : Inv s) {stage : Stage} {command : Command}
    (hcommand : command ≠ .withdrawPrimary ∧ ∀ b, command ≠ .announcePrimary b)
    (hbefore : s.process.stage ≠ .failedOver)
    (hwithdraw : stage = .withdrawPrimary → Confirmed (command :: s.sent))
    (hafter : stage ≠ .failedOver ∧ stage ≠ .recovered) :
    Inv { s.note command with process := { s.process with stage := stage } } := by
  have hnote : s.note command = { s with sent := command :: s.sent } := by
    cases command with
    | withdrawPrimary => exact absurd rfl hcommand.1
    | announcePrimary b => exact absurd rfl (hcommand.2 b)
    | _ => rfl
  rw [hnote]
  refine h.stays hbefore ⟨rfl, rfl, rfl⟩ hafter ?_ hwithdraw
  cases command with
  | withdrawPrimary => exact absurd rfl hcommand.1
  | _ => exact h.covered

theorem Inv.call (h : Inv s) (a : Answer) : Inv (s.step cfg (.call a)) := by
  have hquiet {stage : Stage} {command : Command}
      (hcommand : command ≠ .withdrawPrimary ∧ ∀ b, command ≠ .announcePrimary b)
      (hbefore : s.process.stage ≠ .failedOver)
      (hafter : stage ≠ .failedOver ∧ stage ≠ .recovered ∧ stage ≠ .withdrawPrimary) :
      Inv { s.note command with process := { s.process with stage := stage } } :=
    h.quiet hcommand hbefore (fun hw => absurd hw hafter.2.2) ⟨hafter.1, hafter.2.1⟩
  cases hstage : s.process.stage with
  | iteration => simpa [step, Process.next, hstage] using h
  | probeBackup | statusBackup | statusPrimary =>
    simp only [step, Process.next, hstage, foldl_cons, foldl_nil]
    split
    · exact hquiet (by simp) (by simp [hstage]) (by simp)
    · split <;> exact hquiet (by simp) (by simp [hstage]) (by simp)
  | announceBackup | probePrimary =>
    simp only [step, Process.next, hstage, foldl_cons, foldl_nil]
    split <;> exact hquiet (by simp) (by simp [hstage]) (by simp)
  | confirmBackup =>
    simp only [step, Process.next, hstage, foldl_cons, foldl_nil]
    split
    · exact hquiet (by simp) (by simp [hstage]) (by simp)
    · rename_i status hread
      split
      · exact hquiet (by simp) (by simp [hstage]) (by simp)
      · rename_i hestablished
        split
        · exact hquiet (by simp) (by simp [hstage]) (by simp)
        · rename_i hannounces
          split
          · exact hquiet (by simp) (by simp [hstage]) (by simp)
          · -- the one way to the withdrawal: this very read serves
            have hserves : status.Serves := ⟨by simpa using hestablished, by simpa using hannounces⟩
            exact h.quiet (by simp) (by simp [hstage]) (fun _ => ⟨status, hread, hserves⟩) (by simp)
  | withdrawPrimary =>
    simp only [step, Process.next, hstage, foldl_cons, foldl_nil, note]
    exact ⟨⟨h.confirmed hstage, h.covered⟩, nofun, fun _ => .inr (.inr rfl), nofun, nofun⟩
  | failedOver =>
    simp only [step, Process.next, hstage, foldl_nil]
    exact ⟨h.covered, nofun, fun _ => .inr (.inl rfl),
      fun ho => absurd hstage (h.orphaned ho).2.2, nofun⟩
  | announcePrimary =>
    simp only [step, Process.next, hstage]
    split
    · -- refused: nothing changes but the log
      simp only [foldl_cons, foldl_nil, note, Process.again]
      exact h.stays (by simp [hstage]) ⟨rfl, rfl, rfl⟩ (by simp) h.covered nofun
    · simp only [foldl_cons, foldl_nil, note]
      exact ⟨h.covered, nofun, nofun, nofun, fun _ => rfl⟩
  | recovered =>
    have hclosed := h.recovered hstage
    simp only [step, Process.next, hstage, foldl_nil]
    refine ⟨h.covered, nofun, fun hopen => ?_, fun horphan => ?_, nofun⟩
    · exact absurd hopen (by simp [hclosed])
    · exact absurd (h.orphaned horphan).1 (by simp [hclosed])

theorem inv_start : Inv start :=
  ⟨trivial, nofun, nofun, nofun, nofun⟩

theorem inv_kept (cfg : Config) : Kept (step cfg) Inv := by
  intro s e h
  cases e with
  | iterate p => exact h.iterate p
  | call a => exact h.call a
  | restart => exact h.restart

end Inv

/-! ## The recovery -/

/-- A fully healthy iteration starts here. -/
def HealthyIteration (s : Run) : Event → Prop
  | .iterate p => s.process.stage = .iteration ∧ p.Healthy
  | _ => False

/-- A healthy iteration in an open failover goes on to the recovery. -/
def Recovers (cfg : Config) (s : Run) (e : Event) : Prop :=
  HealthyIteration s e → s.failedOver = true → (s.step cfg e).process.stage = .probePrimary

/-- A healthy iteration runs in a process that was started during the open
failover and has made none itself. -/
def Forgets (s : Run) (e : Event) : Prop := HealthyIteration s e ∧ s.orphaned = true

theorem stage_healthy {cfg : Config} {s : Run} {p : Probe} (hs : s.process.stage = .iteration)
    (hp : p.Healthy) :
    (s.step cfg (.iterate p)).process.stage =
      if s.process.failoverActive then .probePrimary else .iteration := by
  obtain ⟨hdeploying, hrunning, hv4, hv6⟩ := hp
  simp [step, hs, Process.runIteration, Process.healthy, hdeploying, hrunning, hv4, hv6]

theorem recovers_iff (cfg : Config) {s : Run} (h : Inv s) (e : Event) :
    Recovers cfg s e ↔ ¬ Forgets s e := by
  constructor
  · rintro hr ⟨hhealthy, horphan⟩
    obtain ⟨hopen, hinactive, -⟩ := h.orphaned horphan
    have hstage := hr hhealthy hopen
    cases e with
    | iterate p =>
      rw [stage_healthy hhealthy.1 hhealthy.2, hinactive] at hstage
      cases hstage
    | call | restart => exact hhealthy
  · intro hn hhealthy hopen
    have horphan : ¬ s.orphaned = true := fun ho => hn ⟨hhealthy, ho⟩
    cases e with
    | iterate p =>
      rw [stage_healthy hhealthy.1 hhealthy.2]
      obtain ho | ha | hf := h.known hopen
      · exact absurd ho horphan
      · rw [ha, if_pos rfl]
      · rw [hhealthy.1] at hf
        cases hf
    | call | restart => exact hhealthy.elim

/-- A failover is make before break and is undone by the next healthy
iteration, exactly if no such iteration runs in a process that was restarted
in the meantime. -/
theorem failover_undone_iff (cfg : Config) (events : List Event) :
    (Always (step cfg) (fun s => Covered s.sent) start events ∧
      Each (step cfg) (Recovers cfg) start events) ↔
      Each (step cfg) (fun s e => ¬ Forgets s e) start events := by
  have heach := Each.congr (inv_kept cfg) inv_start (fun _ e h => recovers_iff cfg h e) events
  -- the primary is told to withdraw only behind a status of the backup that serves, read after
  -- everything sent to the backup
  have hcovered : Always (step cfg) (fun s => Covered s.sent) start events :=
    Always.of_closed (inv_kept cfg) inv_start (fun _ h => h.covered) events
  exact ⟨fun h => heach.mp h.2, fun h => ⟨hcovered, heach.mpr h⟩⟩

/-- The primary loses both protocols past the timeout and the watchdog fails
over; then it is restarted, and the next healthy iteration does nothing. -/
theorem restarted_watchdog_forgets :
    ∃ (cfg : Config) (events : List Event), ¬ Each (step cfg) (Recovers cfg) start events := by
  let cfg : Config := ⟨true, true, false, 0⟩
  let lost : Event := .iterate ⟨false, .ok true, false, false, 1, false, false⟩
  let well : Event := .iterate ⟨false, .ok true, true, true, 2, false, true⟩
  let good : Event := .call ⟨true, true, .ok (some ⟨true, true, true, true⟩), .ok ()⟩
  refine ⟨cfg, [lost, good, good, good, good, good, .restart, well], fun h => ?_⟩
  obtain ⟨-, -, -, -, -, -, -, hwell, -⟩ := h
  cases hwell ⟨rfl, rfl, rfl, rfl, rfl⟩ rfl

end Run

end Mwan.Watchdog

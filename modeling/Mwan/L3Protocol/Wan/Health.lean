import Mwan.Core.Machine
import Mathlib.Logic.Function.Basic

/-!
# The health cycle (`ifmgr/modules/health`)

A cycle probes every WAN, advances one verdict for the provider and one for
each address family, writes the state file, and then tells the daemon what
changed. The provider verdicts are computed in a copy that is committed after
the write. The family verdicts and the transition times are changed in the
loop itself, and whether a family changed is a local variable of the cycle.

Beside the module the run keeps whether a family verdict has changed since the
last cycle that was written.

Results:
* `failed_cycle_loses_nothing_iff`: the cycles lose nothing exactly if no
  verdict moves in a cycle whose write fails; with the counters, exactly if no
  write fails at all;
* `family_change_lost`: a family fails in a cycle that is not written, and the
  daemon is never asked to reconcile.
-/
namespace Mwan.Health

open Mwan.Core List

/-- health.go:40-51; `zero` is the empty string of a missing map entry. -/
inductive State
  | zero
  | unknown
  | healthy
  | unhealthy
  deriving DecidableEq

def State.valid (s : State) : Bool := s == .unknown || s == .healthy || s == .unhealthy

def State.text : State → String
  | .zero => ""
  | .unknown => "unknown"
  | .healthy => "healthy"
  | .unhealthy => "unhealthy"

/-- `wanstate.Health` -/
inductive Verdict
  | unknown
  | healthy
  | unhealthy
  deriving DecidableEq

def verdictOf : State → Verdict
  | .healthy => .healthy
  | .unhealthy => .unhealthy
  | .unknown => .unknown
  | .zero => .unknown

/-- mirrors health.go:57-68; a nil target list inherits, an empty one does not -/
structure WAN where
  id : String
  name : String
  iface : String
  targetsV4 : Option (List String)
  targetsV6 : Option (List String)
  httpURLs : List String
  pingCount : Int
  successThreshold : Int
  failureThreshold : Int
  recoveryThreshold : Int
  deriving DecidableEq

/-- mirrors health.go:135-150 -/
structure Config where
  stateFile : String
  targetsV4 : List String
  targetsV6 : List String
  httpURLs : List String
  timeout : Int
  interval : Int
  pingCount : Int
  successThreshold : Int
  failureThreshold : Int
  recoveryThreshold : Int
  wans : List WAN

def WAN.key (wan : WAN) : String := if wan.id ≠ "" then wan.id else wan.name

def WAN.resolvedTargetsV4 (wan : WAN) (cfg : Config) : List String :=
  wan.targetsV4.getD cfg.targetsV4

def WAN.resolvedTargetsV6 (wan : WAN) (cfg : Config) : List String :=
  wan.targetsV6.getD cfg.targetsV6

def WAN.resolvedHTTPURLs (wan : WAN) (cfg : Config) : List String :=
  if wan.httpURLs.length > 0 then wan.httpURLs else cfg.httpURLs

def orDefault (own shared : Int) : Int := if own ≠ 0 then own else shared

def WAN.resolvedPingCount (wan : WAN) (cfg : Config) : Int := orDefault wan.pingCount cfg.pingCount

def WAN.resolvedSuccessThreshold (wan : WAN) (cfg : Config) : Int :=
  orDefault wan.successThreshold cfg.successThreshold

def WAN.resolvedFailureThreshold (wan : WAN) (cfg : Config) : Int :=
  orDefault wan.failureThreshold cfg.failureThreshold

def WAN.resolvedRecoveryThreshold (wan : WAN) (cfg : Config) : Int :=
  orDefault wan.recoveryThreshold cfg.recoveryThreshold

/-! ## Validation (`config.go`) -/

/-- `errors.Join` of one more message if the check fails. -/
def complain (failed : Bool) (message : String) : List String := if failed then [message] else []

/-- mirrors config.go:56-107 -/
def validateProbeConfig (cfg : Config) : List String :=
  complain (cfg.stateFile == "") "state_file is required" ++
  complain cfg.targetsV6.isEmpty "at least one targets_v6 entry is required" ++
  complain cfg.targetsV4.isEmpty "at least one targets_v4 entry is required" ++
  complain (decide (cfg.timeout ≤ 0)) "timeout must be > 0" ++
  complain (decide (cfg.interval ≤ 0)) "interval must be > 0" ++
  complain (decide (cfg.pingCount ≤ 0)) "ping_count must be > 0" ++
  complain (decide (cfg.successThreshold ≤ 0)) "success_threshold must be > 0" ++
  complain (decide (cfg.successThreshold > cfg.targetsV6.length) ||
      decide (cfg.successThreshold > cfg.targetsV4.length))
    "success_threshold exceeds an address-family target count" ++
  complain (decide (cfg.failureThreshold ≤ 0)) "failure_threshold must be > 0" ++
  complain (decide (cfg.recoveryThreshold ≤ 0)) "recovery_threshold must be > 0"

/-- The checks of one WAN, behind those `seen` (config.go:113-191). -/
def validateWAN (cfg : Config) (seen : List WAN) (i : Nat) (wan : WAN) : List String :=
  let label := s!"wan[{i}] ({wan.key})"
  let success := wan.resolvedSuccessThreshold cfg
  let targetsV6 := wan.resolvedTargetsV6 cfg
  let targetsV4 := wan.resolvedTargetsV4 cfg
  complain (wan.key == "") s!"wan[{i}]: connection ID is required" ++
  complain (wan.iface == "") s!"wan[{i}] ({wan.key}): iface is required" ++
  complain (seen.any (·.key == wan.key)) s!"wan[{i}]: duplicate connection ID \"{wan.key}\"" ++
  complain (seen.any (·.iface == wan.iface)) s!"wan[{i}]: duplicate iface \"{wan.iface}\"" ++
  complain (decide (success ≤ 0)) s!"{label}: success_threshold must be > 0" ++
  complain (targetsV6.isEmpty && targetsV4.isEmpty)
    s!"{label}: at least one targets_v4 or targets_v6 entry is required" ++
  complain ((!targetsV6.isEmpty && decide (success > targetsV6.length)) ||
      (!targetsV4.isEmpty && decide (success > targetsV4.length)))
    s!"{label}: success_threshold exceeds an address-family target count" ++
  complain (decide (wan.resolvedPingCount cfg ≤ 0)) s!"{label}: ping_count must be > 0" ++
  complain (decide (wan.resolvedFailureThreshold cfg ≤ 0))
    s!"{label}: failure_threshold must be > 0" ++
  complain (decide (wan.resolvedRecoveryThreshold cfg ≤ 0))
    s!"{label}: recovery_threshold must be > 0"

def validateWANs (cfg : Config) : List WAN → List WAN → List String
  | _, [] => []
  | seen, wan :: rest =>
    validateWAN cfg seen seen.length wan ++ validateWANs cfg (seen ++ [wan]) rest

/-- The messages; the configuration is accepted if there are none. -/
def validateConfig (cfg : Config) : List String :=
  validateProbeConfig cfg ++ validateWANs cfg [] cfg.wans

@[simp] theorem complain_eq_nil {failed : Bool} {message : String} :
    complain failed message = [] ↔ failed = false := by
  cases failed <;> simp [complain]

/-- What the cycle needs of a configuration: one entry for a key, and a target
for every WAN. -/
structure Config.Sound (cfg : Config) : Prop where
  nodup : (cfg.wans.map WAN.key).Nodup
  probed : ∀ wan ∈ cfg.wans, wan.resolvedTargetsV6 cfg ≠ [] ∨ wan.resolvedTargetsV4 cfg ≠ []

theorem validateWAN_eq_nil {cfg : Config} {seen : List WAN} {i : Nat} {wan : WAN}
    (h : validateWAN cfg seen i wan = []) :
    (∀ w ∈ seen, w.key ≠ wan.key) ∧
      (wan.resolvedTargetsV6 cfg ≠ [] ∨ wan.resolvedTargetsV4 cfg ≠ []) := by
  simp only [validateWAN, append_eq_nil_iff, complain_eq_nil] at h
  obtain ⟨⟨⟨⟨⟨⟨⟨⟨⟨-, -⟩, hkey⟩, -⟩, -⟩, htargets⟩, -⟩, -⟩, -⟩, -⟩ := h
  constructor
  · simpa using hkey
  · by_cases h6 : wan.resolvedTargetsV6 cfg = []
    · right
      simpa [h6] using htargets
    · exact .inl h6

theorem validateWANs_eq_nil {cfg : Config} {seen wans : List WAN}
    (h : validateWANs cfg seen wans = []) :
    (wans.map WAN.key).Nodup ∧ (∀ wan ∈ wans, ∀ w ∈ seen, w.key ≠ wan.key) ∧
      ∀ wan ∈ wans, wan.resolvedTargetsV6 cfg ≠ [] ∨ wan.resolvedTargetsV4 cfg ≠ [] := by
  induction wans generalizing seen with
  | nil => simp
  | cons wan rest ih =>
    obtain ⟨hwan, hrest⟩ := append_eq_nil_iff.mp h
    obtain ⟨hseen, htargets⟩ := validateWAN_eq_nil hwan
    obtain ⟨hnodup, hseenRest, htargetsRest⟩ := ih hrest
    refine ⟨?_, forall_mem_cons.mpr ⟨hseen, fun w hw v hv => ?_⟩,
      forall_mem_cons.mpr ⟨htargets, htargetsRest⟩⟩
    · rw [map_cons, nodup_cons]
      refine ⟨?_, hnodup⟩
      intro hmem
      obtain ⟨w, hw, hkey⟩ := mem_map.mp hmem
      exact hseenRest w hw wan (by simp) hkey.symm
    · exact hseenRest w hw v (mem_append_left _ hv)

theorem Config.Sound.of_valid {cfg : Config} (h : validateConfig cfg = []) : cfg.Sound := by
  obtain ⟨-, hwans⟩ := append_eq_nil_iff.mp h
  obtain ⟨hnodup, -, hprobed⟩ := validateWANs_eq_nil hwans
  exact ⟨hnodup, hprobed⟩

/-! ## Probing one WAN -/

/-- The answers to one WAN's probes in a cycle: a ping by target and attempt,
an HTTP request by URL. -/
structure Probes where
  pingV4 : String → Nat → Bool
  pingV6 : String → Nat → Bool
  httpV4 : String → Bool
  httpV6 : String → Bool

structure ProbeResult where
  passed : Bool
  v6Probed : Bool
  v4Probed : Bool
  v6Passed : Bool
  v4Passed : Bool
  v6Successes : Nat
  v4Successes : Nat
  http6Successes : Nat
  http4Successes : Nat

/-- mirrors health.go:644-663: the targets that answered at least once -/
def probeTargets (probe : String → Nat → Bool) (targets : List String) (pingCount : Int) : Nat :=
  (targets.filter fun target => (List.range pingCount.toNat).any (probe target)).length

def probeHTTPURLs (probe : String → Bool) (urls : List String) : Nat := (urls.filter probe).length

/-- mirrors health.go:562-611 -/
def probeWAN (cfg : Config) (wan : WAN) (p : Probes) : ProbeResult :=
  let v6Targets := wan.resolvedTargetsV6 cfg
  let v4Targets := wan.resolvedTargetsV4 cfg
  let v6Probed := !v6Targets.isEmpty
  let v4Probed := !v4Targets.isEmpty
  let urls := wan.resolvedHTTPURLs cfg
  let count := wan.resolvedPingCount cfg
  let v6Successes := if v6Probed then probeTargets p.pingV6 v6Targets count else 0
  let http6Successes := if v6Probed then probeHTTPURLs p.httpV6 urls else 0
  let v4Successes := if v4Probed then probeTargets p.pingV4 v4Targets count else 0
  let http4Successes := if v4Probed then probeHTTPURLs p.httpV4 urls else 0
  let threshold := wan.resolvedSuccessThreshold cfg
  let v6Passed := v6Probed && (decide (threshold ≤ v6Successes) || decide (1 ≤ http6Successes))
  let v4Passed := v4Probed && (decide (threshold ≤ v4Successes) || decide (1 ≤ http4Successes))
  { passed := v6Passed || v4Passed
    v6Probed, v4Probed, v6Passed, v4Passed
    v6Successes, v4Successes, http6Successes, http4Successes }

/-! ## Advancing -/

structure WanStatus where
  state : State
  okCount : Int
  failCount : Int
  deriving DecidableEq

def WanStatus.zero : WanStatus := ⟨.zero, 0, 0⟩

/-- mirrors health.go:694-715 -/
def advanceHealth (current : WanStatus) (cyclePassed : Bool)
    (failureThreshold recoveryThreshold : Int) : WanStatus × Bool :=
  let next : WanStatus :=
    if cyclePassed then
      { state := if current.state = .unknown ∨ current.okCount + 1 ≥ recoveryThreshold
          then .healthy else current.state
        okCount := current.okCount + 1
        failCount := 0 }
    else
      { state := if current.failCount + 1 ≥ failureThreshold then .unhealthy else current.state
        okCount := 0
        failCount := current.failCount + 1 }
  (next, next.state ≠ current.state)

structure FamilyStatuses where
  v4 : WanStatus
  v6 : WanStatus
  deriving DecidableEq

def FamilyStatuses.zero : FamilyStatuses := ⟨.zero, .zero⟩

/-- `if !current.State.Valid() { current.State = StateUnknown }` -/
def WanStatus.orUnknown (s : WanStatus) : WanStatus :=
  if s.state.valid then s else { s with state := .unknown }

/-- mirrors family.go:8-16 -/
def advanceFamily (cfg : Config) (wan : WAN) (current : WanStatus) (probed passed : Bool) :
    WanStatus × Bool :=
  if !probed then (current, false)
  else
    advanceHealth current.orUnknown passed (wan.resolvedFailureThreshold cfg)
      (wan.resolvedRecoveryThreshold cfg)

/-- mirrors family.go:18-32: the statuses, whether one changed, and whether
DHCPv4 is to be verified -/
def advanceFamilies (cfg : Config) (wan : WAN) (result : ProbeResult) (current : FamilyStatuses) :
    FamilyStatuses × Bool × Bool :=
  let (v4, v4Changed) := advanceFamily cfg wan current.v4 result.v4Probed result.v4Passed
  let (v6, v6Changed) := advanceFamily cfg wan current.v6 result.v6Probed result.v6Passed
  (⟨v4, v6⟩, v4Changed || v6Changed, v4Changed && v4.state == .unhealthy)

theorem advanceHealth_valid {current : WanStatus} (h : current.state ≠ .zero) (passed : Bool)
    (failures recoveries : Int) :
    (advanceHealth current passed failures recoveries).1.state ≠ .zero := by
  cases passed with
  | true =>
    simp only [advanceHealth, if_true]
    split
    · simp
    · exact h
  | false =>
    simp only [advanceHealth, Bool.false_eq_true, if_false]
    split
    · simp
    · exact h

theorem orUnknown_state (s : WanStatus) :
    s.orUnknown.state ≠ .zero ∧ verdictOf s.orUnknown.state = verdictOf s.state := by
  obtain ⟨state, okCount, failCount⟩ := s
  cases state <;> simp [WanStatus.orUnknown, State.valid, verdictOf]

theorem verdictOf_inj {a b : State} (ha : a ≠ .zero) (hb : b ≠ .zero) :
    verdictOf a = verdictOf b ↔ a = b := by
  cases a <;> cases b <;> simp_all [verdictOf]

/-- A family reports a change exactly if its verdict is another one. -/
theorem advanceFamily_changed (cfg : Config) (wan : WAN) (current : WanStatus)
    (probed passed : Bool) :
    (advanceFamily cfg wan current probed passed).2 = true ↔
      verdictOf (advanceFamily cfg wan current probed passed).1.state ≠ verdictOf current.state := by
  cases probed with
  | false => simp [advanceFamily]
  | true =>
    obtain ⟨hvalid, hverdict⟩ := orUnknown_state current
    simp only [advanceFamily, Bool.not_true, Bool.false_eq_true, if_false]
    rw [← hverdict]
    exact decide_eq_true_iff.trans
      (not_congr (verdictOf_inj (advanceHealth_valid hvalid _ _ _) hvalid)).symm

/-- A family that is probed does not keep its status: a counter moves. -/
theorem advanceFamily_ne (cfg : Config) (wan : WAN) (current : WanStatus) (passed : Bool) :
    (advanceFamily cfg wan current true passed).1 ≠ current := by
  intro heq
  have hcounts : current.orUnknown.okCount = current.okCount ∧
      current.orUnknown.failCount = current.failCount := by
    unfold WanStatus.orUnknown
    split <;> exact ⟨rfl, rfl⟩
  cases passed with
  | true =>
    have hok : current.orUnknown.okCount + 1 = current.okCount := congrArg WanStatus.okCount heq
    omega
  | false =>
    have hfail : current.orUnknown.failCount + 1 = current.failCount :=
      congrArg WanStatus.failCount heq
    omega

/-! ## The cycle -/

structure Transition where
  wan : WAN
  before : State
  after : State

/-- `Module`: what a cycle reads and changes. -/
structure Module where
  statuses : String → WanStatus
  families : String → FamilyStatuses
  lastTransition : String → Option Int

/-- What the world does in one cycle: the probes' answers, the clock at a
transition and whether the state file is written. -/
structure Cycle where
  probes : WAN → Probes
  now : WAN → Int
  written : Bool

/-- The variables of the loop. -/
structure Pass where
  nextStatuses : String → WanStatus
  transitions : List Transition
  familyChanged : Bool
  families : String → FamilyStatuses
  lastTransition : String → Option Int
  /-- `VerifyDHCPv4.Notify` -/
  verify : List String

/-- The loop body (health.go:421-460). -/
def visit (cfg : Config) (c : Cycle) (p : Pass) (wan : WAN) : Pass :=
  let result := probeWAN cfg wan (c.probes wan)
  let current := p.nextStatuses wan.key
  let (next, changed) := advanceHealth current result.passed (wan.resolvedFailureThreshold cfg)
    (wan.resolvedRecoveryThreshold cfg)
  let (families, familyChanged, verify) := advanceFamilies cfg wan result (p.families wan.key)
  { nextStatuses := Function.update p.nextStatuses wan.key next
    transitions := if changed then p.transitions ++ [⟨wan, current.state, next.state⟩]
      else p.transitions
    familyChanged := familyChanged || p.familyChanged
    families := Function.update p.families wan.key families
    lastTransition := if changed then Function.update p.lastTransition wan.key (some (c.now wan))
      else p.lastTransition
    verify := if verify then p.verify ++ [wan.iface] else p.verify }

def Module.enter (m : Module) : Pass :=
  ⟨m.statuses, [], false, m.families, m.lastTransition, []⟩

def loop (cfg : Config) (c : Cycle) (m : Module) : Pass := cfg.wans.foldl (visit cfg c) m.enter

/-- What `RequestReconcile` is called with: for each transition, and for the
families (health.go:469-472, 754-758). -/
def requests (p : Pass) : List String :=
  p.transitions.map (fun t => s!"health {t.wan.name} {t.before.text}->{t.after.text}") ++
    if p.familyChanged then ["health address family verdict changed"] else []

structure Outcome where
  module : Module
  requests : List String
  error : Option String

/-- mirrors health.go:413-478 -/
def runCycle (cfg : Config) (m : Module) (c : Cycle) : Outcome :=
  let p := loop cfg c m
  if c.written then
    ⟨⟨p.nextStatuses, p.families, p.lastTransition⟩, requests p, none⟩
  else
    ⟨⟨m.statuses, p.families, p.lastTransition⟩, [], some "health: write state file"⟩

/-! ## What the loop does to one WAN -/

/-- The status a WAN gets in the cycle. -/
def advancedStatus (cfg : Config) (c : Cycle) (wan : WAN) (current : WanStatus) :
    WanStatus × Bool :=
  advanceHealth current (probeWAN cfg wan (c.probes wan)).passed
    (wan.resolvedFailureThreshold cfg) (wan.resolvedRecoveryThreshold cfg)

def advancedFamilies (cfg : Config) (c : Cycle) (wan : WAN) (current : FamilyStatuses) :
    FamilyStatuses × Bool × Bool :=
  advanceFamilies cfg wan (probeWAN cfg wan (c.probes wan)) current

variable {cfg : Config} {c : Cycle}

theorem visit_lastTransition (p : Pass) (wan : WAN) :
    (visit cfg c p wan).lastTransition =
      if (advancedStatus cfg c wan (p.nextStatuses wan.key)).2
      then Function.update p.lastTransition wan.key (some (c.now wan)) else p.lastTransition :=
  rfl

theorem visits_other {wans : List WAN} {key : String} (h : key ∉ wans.map WAN.key) (p : Pass) :
    (wans.foldl (visit cfg c) p).nextStatuses key = p.nextStatuses key ∧
      (wans.foldl (visit cfg c) p).families key = p.families key ∧
      (wans.foldl (visit cfg c) p).lastTransition key = p.lastTransition key := by
  induction wans generalizing p with
  | nil => exact ⟨rfl, rfl, rfl⟩
  | cons wan rest ih =>
    rw [map_cons, mem_cons, not_or] at h
    obtain ⟨hstatus, hfamilies, htimes⟩ := ih h.2 (visit cfg c p wan)
    rw [foldl_cons, hstatus, hfamilies, htimes]
    refine ⟨Function.update_of_ne h.1 _ _, Function.update_of_ne h.1 _ _, ?_⟩
    rw [visit_lastTransition]
    split
    · exact Function.update_of_ne h.1 _ _
    · rfl

/-- A WAN has one turn in the loop. -/
theorem visits_split {wans : List WAN} (hnodup : (wans.map WAN.key).Nodup) {wan : WAN}
    (hwan : wan ∈ wans) : ∃ before after, wans = before ++ wan :: after ∧
      wan.key ∉ before.map WAN.key ∧ wan.key ∉ after.map WAN.key := by
  obtain ⟨before, after, rfl⟩ := append_of_mem hwan
  rw [map_append, map_cons] at hnodup
  obtain ⟨-, hrest, hne⟩ := nodup_append.mp hnodup
  exact ⟨before, after, rfl, fun h => hne _ h _ (.head _) rfl, (nodup_cons.mp hrest).1⟩

/-- After the loop a WAN's entries are advanced from what they were before it. -/
theorem visits_own {wans : List WAN} (hnodup : (wans.map WAN.key).Nodup) {wan : WAN}
    (hwan : wan ∈ wans) (p : Pass) :
    (wans.foldl (visit cfg c) p).families wan.key =
        (advancedFamilies cfg c wan (p.families wan.key)).1 ∧
      (wans.foldl (visit cfg c) p).lastTransition wan.key =
        if (advancedStatus cfg c wan (p.nextStatuses wan.key)).2 then some (c.now wan)
        else p.lastTransition wan.key := by
  obtain ⟨before, after, rfl, hbefore, hafter⟩ := visits_split hnodup hwan
  obtain ⟨hstatus, hfamily, htime⟩ := visits_other hbefore p
  rw [foldl_append, foldl_cons, (visits_other hafter _).2.1, (visits_other hafter _).2.2,
    visit_lastTransition, hstatus]
  refine ⟨(Function.update_self ..).trans (by rw [hfamily]; rfl), ?_⟩
  split
  · rw [Function.update_self]
  · exact htime

/-- The loop reports a family change if one of the WANs does. -/
theorem visits_changed {wans : List WAN} (hnodup : (wans.map WAN.key).Nodup) {wan : WAN}
    (hwan : wan ∈ wans) (p : Pass)
    (hchanged : (advancedFamilies cfg c wan (p.families wan.key)).2.1 = true) :
    (wans.foldl (visit cfg c) p).familyChanged = true := by
  have hkeeps (ws : List WAN) : ∀ q : Pass, q.familyChanged = true →
      (ws.foldl (visit cfg c) q).familyChanged = true := by
    induction ws with
    | nil => exact fun _ h => h
    | cons w ws ih => exact fun q h => ih _ (by simp [visit, h])
  obtain ⟨before, after, rfl, hbefore, -⟩ := visits_split hnodup hwan
  rw [← (visits_other hbefore p).2.1] at hchanged
  rw [foldl_append, foldl_cons]
  exact hkeeps after _ (Bool.or_eq_true_iff.mpr (.inl hchanged))

/-! ## Runs -/

/-- The module, and whether a family verdict has changed since the last cycle
that was written. -/
structure Run where
  module : Module
  pending : Bool

/-- mirrors state.go:15-27; the families and times are nil maps -/
def start (cfg : Config) : Run :=
  { module :=
      { statuses := fun key =>
          if key ∈ cfg.wans.map WAN.key then ⟨.unknown, 0, 0⟩ else .zero
        families := fun _ => .zero
        lastTransition := fun _ => none }
    pending := false }

/-- The verdicts of the two families of a WAN. -/
def Module.familyVerdicts (m : Module) (wan : WAN) : Verdict × Verdict :=
  (verdictOf (m.families wan.key).v4.state, verdictOf (m.families wan.key).v6.state)

/-- A family verdict of a configured WAN is another one after the cycle. -/
def FamilyMoves (cfg : Config) (m : Module) (c : Cycle) : Prop :=
  ∃ wan ∈ cfg.wans, (runCycle cfg m c).module.familyVerdicts wan ≠ m.familyVerdicts wan

instance (cfg : Config) (m : Module) (c : Cycle) : Decidable (FamilyMoves cfg m c) :=
  inferInstanceAs (Decidable (∃ wan ∈ cfg.wans, _))

def step (cfg : Config) (s : Run) (c : Cycle) : Run :=
  { module := (runCycle cfg s.module c).module
    pending := !c.written && (s.pending || decide (FamilyMoves cfg s.module c)) }

/-- A cycle that is not written leaves the verdicts and the transition times as
they were; one that is written asks for a reconciliation if a family verdict
has changed since the last one written. -/
def LosesNothing (cfg : Config) (s : Run) (c : Cycle) : Prop :=
  (c.written = false → ∀ wan ∈ cfg.wans,
    verdictOf ((runCycle cfg s.module c).module.statuses wan.key).state =
        verdictOf (s.module.statuses wan.key).state ∧
      (runCycle cfg s.module c).module.familyVerdicts wan = s.module.familyVerdicts wan ∧
      (runCycle cfg s.module c).module.lastTransition wan.key =
        s.module.lastTransition wan.key) ∧
  (c.written = true → s.pending = true ∨ FamilyMoves cfg s.module c →
    (runCycle cfg s.module c).requests ≠ [])

/-- The next cycle advances from the same state, counters included. -/
def SameState (cfg : Config) (s : Run) (c : Cycle) : Prop :=
  c.written = false → ∀ wan ∈ cfg.wans,
    (runCycle cfg s.module c).module.statuses wan.key = s.module.statuses wan.key ∧
      (runCycle cfg s.module c).module.families wan.key = s.module.families wan.key ∧
      (runCycle cfg s.module c).module.lastTransition wan.key = s.module.lastTransition wan.key

/-- In a cycle that is not written no family reports a change, and no provider
does, except at the very time it is already recorded to have changed. -/
def Steady (cfg : Config) (s : Run) (c : Cycle) : Prop :=
  c.written = false → ∀ wan ∈ cfg.wans,
    (advancedFamilies cfg c wan (s.module.families wan.key)).2.1 = false ∧
      ((advancedStatus cfg c wan (s.module.statuses wan.key)).2 = true →
        s.module.lastTransition wan.key = some (c.now wan))

/-! ### One cycle -/

variable {m : Module} {wan : WAN}

theorem runCycle_own (h : cfg.Sound) (hwan : wan ∈ cfg.wans) :
    (runCycle cfg m c).module.families wan.key =
        (advancedFamilies cfg c wan (m.families wan.key)).1 ∧
      (runCycle cfg m c).module.lastTransition wan.key =
        if (advancedStatus cfg c wan (m.statuses wan.key)).2 then some (c.now wan)
        else m.lastTransition wan.key := by
  have hown := @visits_own cfg c _ h.nodup _ hwan m.enter
  unfold runCycle
  split <;> exact hown

/-- The family verdicts of a WAN stay exactly if the WAN reports no change. -/
theorem familyVerdicts_eq_iff (h : cfg.Sound) (hwan : wan ∈ cfg.wans) :
    (runCycle cfg m c).module.familyVerdicts wan = m.familyVerdicts wan ↔
      (advancedFamilies cfg c wan (m.families wan.key)).2.1 = false := by
  rw [Module.familyVerdicts, (runCycle_own h hwan).1, Module.familyVerdicts, Prod.mk.injEq]
  simp only [advancedFamilies, advanceFamilies, Bool.or_eq_false_iff]
  refine and_congr ?_ ?_ <;> rw [← Bool.not_eq_true, advanceFamily_changed, not_ne_iff]

theorem lastTransition_eq_iff (h : cfg.Sound) (hwan : wan ∈ cfg.wans) :
    (runCycle cfg m c).module.lastTransition wan.key = m.lastTransition wan.key ↔
      ((advancedStatus cfg c wan (m.statuses wan.key)).2 = true →
        m.lastTransition wan.key = some (c.now wan)) := by
  rw [(runCycle_own h hwan).2]
  split
  case isTrue hchanged => exact ⟨fun heq _ => heq.symm, fun himp => (himp hchanged).symm⟩
  case isFalse hsame => exact ⟨fun _ hchanged => absurd hchanged hsame, fun _ => rfl⟩

theorem familyMoves_iff (h : cfg.Sound) :
    FamilyMoves cfg m c ↔
      ∃ wan ∈ cfg.wans, (advancedFamilies cfg c wan (m.families wan.key)).2.1 = true := by
  refine exists_congr fun wan => and_congr_right fun hwan => ?_
  rw [ne_eq, familyVerdicts_eq_iff h hwan, Bool.not_eq_false]

/-- A cycle that is written asks for a reconciliation if a family moves in it. -/
theorem requests_of_moves (h : cfg.Sound) (hwritten : c.written = true)
    (hmoves : FamilyMoves cfg m c) : (runCycle cfg m c).requests ≠ [] := by
  obtain ⟨wan, hwan, hchanged⟩ := (familyMoves_iff h).mp hmoves
  have hloop : (loop cfg c m).familyChanged = true :=
    visits_changed h.nodup hwan m.enter hchanged
  simp [runCycle, hwritten, requests, hloop]

/-! ### Whole runs -/

variable {s : Run}

theorem steady_of_losesNothing (h : cfg.Sound) (hkeeps : LosesNothing cfg s c) :
    Steady cfg s c := by
  intro hwritten wan hwan
  obtain ⟨-, hfamily, htime⟩ := hkeeps.1 hwritten wan hwan
  exact ⟨(familyVerdicts_eq_iff h hwan).mp hfamily, (lastTransition_eq_iff h hwan).mp htime⟩

/-- While nothing is pending, a steady cycle loses nothing and leaves nothing
pending. -/
theorem losesNothing_of_steady (h : cfg.Sound) (hpending : s.pending = false)
    (hsteady : Steady cfg s c) : (step cfg s c).pending = false ∧ LosesNothing cfg s c := by
  cases hwritten : c.written with
  | true =>
    refine ⟨by simp [step, hwritten], by simp [hwritten], ?_⟩
    intro _ hdue
    rcases hdue with hdue | hmoves
    · rw [hpending] at hdue
      cases hdue
    · exact requests_of_moves h hwritten hmoves
  | false =>
    have hstill : ¬ FamilyMoves cfg s.module c := by
      intro hmoves
      obtain ⟨wan, hwan, hchanged⟩ := (familyMoves_iff h).mp hmoves
      rw [(hsteady hwritten wan hwan).1] at hchanged
      cases hchanged
    refine ⟨by simp [step, hpending, hstill], ?_, by simp [hwritten]⟩
    intro _ wan hwan
    obtain ⟨hfamily, htime⟩ := hsteady hwritten wan hwan
    exact ⟨by simp [runCycle, hwritten], (familyVerdicts_eq_iff h hwan).mpr hfamily,
      (lastTransition_eq_iff h hwan).mpr htime⟩

/-- Every configured WAN is probed, and a probed family moves a counter. -/
theorem sameState_iff (h : cfg.Sound) (hwans : cfg.wans ≠ []) :
    SameState cfg s c ↔ c.written = true := by
  constructor
  · intro hsame
    cases hwritten : c.written with
    | true => rfl
    | false =>
      obtain ⟨wan, hwan⟩ := exists_mem_of_ne_nil _ hwans
      obtain ⟨-, hfamily, -⟩ := hsame hwritten wan hwan
      rw [(runCycle_own h hwan).1] at hfamily
      rcases h.probed wan hwan with h6 | h4
      · have hprobed : (probeWAN cfg wan (c.probes wan)).v6Probed = true := by
          simp [probeWAN, h6]
        have hv6 := congrArg FamilyStatuses.v6 hfamily
        simp only [advancedFamilies, advanceFamilies, hprobed] at hv6
        exact absurd hv6 (advanceFamily_ne cfg wan _ _)
      · have hprobed : (probeWAN cfg wan (c.probes wan)).v4Probed = true := by
          simp [probeWAN, h4]
        have hv4 := congrArg FamilyStatuses.v4 hfamily
        simp only [advancedFamilies, advanceFamilies, hprobed] at hv4
        exact absurd hv4 (advanceFamily_ne cfg wan _ _)
  · intro hwritten hnot
    rw [hwritten] at hnot
    cases hnot

/-- Over every run of cycles: the verdicts, the times and the requests are
right exactly if no verdict moves in a cycle whose write fails; and the next
cycle always advances from the same state exactly if no write fails. -/
theorem failed_cycle_loses_nothing_iff (cfg : Config) (hvalid : validateConfig cfg = [])
    (hwans : cfg.wans ≠ []) (cycles : List Cycle) :
    (Each (step cfg) (LosesNothing cfg) (start cfg) cycles ↔
        Each (step cfg) (Steady cfg) (start cfg) cycles) ∧
      (Each (step cfg) (SameState cfg) (start cfg) cycles ↔
        Each (step cfg) (fun _ c => c.written = true) (start cfg) cycles) := by
  have h := Config.Sound.of_valid hvalid
  have hfirst : (start cfg).pending = false := rfl
  refine ⟨⟨fun hrun => ?_, fun hrun => ?_⟩, ?_⟩
  · exact (Each.invariant (I := fun _ => True) (P := fun _ => True)
      (fun _ _ _ hkeeps => ⟨trivial, steady_of_losesNothing h hkeeps⟩) (fun _ _ => trivial)
      trivial hrun).2
  · exact (Each.invariant (I := fun s => s.pending = false) (P := fun _ => True)
      (fun _ _ hpending hsteady => losesNothing_of_steady h hpending hsteady)
      (fun _ _ => trivial) hfirst hrun).2
  · exact Each.congr (I := fun _ => True) (fun _ _ _ => trivial) trivial
      (fun _ _ _ => sameState_iff h hwans) cycles

/-! ### A family that fails in a cycle that is not written -/

def dualStack : WAN := ⟨"a", "a", "wan0", none, none, [], 0, 0, 0, 0⟩

def oneWAN : Config := ⟨"s", ["4"], ["6"], [], 1, 1, 1, 1, 2, 2, [dualStack]⟩

/-- IPv6 answers; IPv4 answers as told. -/
def answering (v4 written : Bool) : Cycle :=
  ⟨fun _ => ⟨fun _ _ => v4, fun _ _ => true, fun _ => false, fun _ => false⟩, fun _ => 0, written⟩

theorem written_cycles_lose_nothing : (Each (step oneWAN) (LosesNothing oneWAN) (start oneWAN)
          [answering true true, answering false true, answering false true] ↔
        Each (step oneWAN) (Steady oneWAN) (start oneWAN)
          [answering true true, answering false true, answering false true]) ∧
      (Each (step oneWAN) (SameState oneWAN) (start oneWAN)
          [answering true true, answering false true, answering false true] ↔
        Each (step oneWAN) (fun _ c => c.written = true) (start oneWAN)
          [answering true true, answering false true, answering false true]) :=
  failed_cycle_loses_nothing_iff oneWAN (by decide +kernel) (by decide) _

/-- IPv4 fails for the second time in a cycle that is not written: its verdict
changes all the same, and the next cycle, which is written, asks for nothing. -/
theorem family_change_lost : ¬ Each (step oneWAN) (LosesNothing oneWAN) (start oneWAN)
      [answering true true, answering false true, answering false false,
        answering false true] ∧
    (runAll (step oneWAN) (start oneWAN)
        [answering true true, answering false true, answering false false]).pending = true ∧
    (runCycle oneWAN (runAll (step oneWAN) (start oneWAN)
        [answering true true, answering false true, answering false false]).module
      (answering false true)).requests = [] := by
  refine ⟨?_, by decide +kernel, by decide +kernel⟩
  intro hrun
  obtain ⟨-, -, -, hlast, -⟩ := hrun
  exact hlast.2 rfl (.inl (by decide +kernel)) (by decide +kernel)

end Mwan.Health

import Mathlib.Algebra.Group.Int.Defs
import Mathlib.Algebra.Group.Nat.Defs
import Mwan.Core.Exec

/-!
# Deployment records (`deployoperation/state.go`, `manifest.go`, `watch.go`, `identity.go`)

A deployment operation is kept in one record: its manifest, its status, the
mutation lease, the registered watch and the latest observations. Each change
of the record is a function from the record that was read to the record that
is written, or an error that leaves the record as it was.

The checks a manifest requires are run by `observation`. What that package
asks of a check beyond its identity, verdict and age (paths, replies,
distribution) is the parameter `Contract`.
-/
namespace Mwan.Deploy

open Mwan.Core Mwan.Core.Exec

/-! ## Time -/

/-- Nanoseconds since the zero time. -/
abbrev Time := Int

/-- `time.Duration(n) * time.Second` in 64 bits. -/
def seconds (n : Int) : Int := (n * 1000000000).bmod (2 ^ 64)

/-- `t.Sub(u)`, which saturates. -/
def Time.sub (t u : Time) : Int := max (-2 ^ 63) (min (2 ^ 63 - 1) (t - u))

/-- A product that wraps is below the true one. -/
theorem seconds_le {n : Int} (h : 0 ≤ n) : seconds n ≤ n * 1000000000 := by
  have hword : ((2 ^ 64 : Nat) : Int) = 18446744073709551616 := by decide
  unfold seconds
  rw [Int.bmod_def, hword]
  split <;> omega

/-! ## Names -/

/-- mirrors state.go:487-499 -/
def validName (name : String) : Bool :=
  !name.toList.isEmpty && name.toList.all fun ch =>
    ('a' ≤ ch && ch ≤ 'z') || ('A' ≤ ch && ch ≤ 'Z') || ('0' ≤ ch && ch ≤ '9') || ch = '-' || ch = '_'

/-- `unicode.IsSpace`. -/
def isSpace (ch : Char) : Bool :=
  let n := ch.toNat
  (9 ≤ n && n ≤ 13) || n = 0x20 || n = 0x85 || n = 0xA0 || n = 0x1680 || (0x2000 ≤ n && n ≤ 0x200A) ||
    n = 0x2028 || n = 0x2029 || n = 0x202F || n = 0x205F || n = 0x3000

/-- `strings.TrimSpace(text) == ""`. -/
def blank (text : String) : Bool := text.toList.all isSpace

def isHex (ch : Char) : Bool :=
  ('0' ≤ ch && ch ≤ '9') || ('a' ≤ ch && ch ≤ 'f') || ('A' ≤ ch && ch ≤ 'F')

/-- `hex.DecodeString` accepts the text and yields `bytes` bytes. -/
def hexBytes (bytes : Nat) (text : String) : Bool :=
  text.toList.length = 2 * bytes && text.toList.all isHex

/-- The text `uuid.UUID.String` prints for the UUID it parses to. -/
def canonicalUuid (text : String) : Bool :=
  text.toList.length = 36 && (text.toList.zipIdx.all fun (ch, i) =>
    if i = 8 ∨ i = 13 ∨ i = 18 ∨ i = 23 then ch = '-'
    else ('0' ≤ ch && ch ≤ '9') || ('a' ≤ ch && ch ≤ 'f'))

/-- `strconv.Atoi` accepts the text as a positive number. -/
def positiveInt (text : String) : Bool :=
  let digits := match text.toList with
    | '+' :: rest => rest
    | chars => chars
  let value := digits.foldl (fun n ch => 10 * n + (ch.toNat - '0'.toNat)) 0
  !digits.isEmpty && digits.all (fun ch => '0' ≤ ch && ch ≤ '9') && 0 < value && value < 2 ^ 63

/-! ## Identities -/

/-- mirrors state.go:44-51 -/
structure Identity where
  machineID : String
  bootID : String
  executableSHA256 : String
  networkSHA256 : String
  runtimeSHA256 : String
  deriving DecidableEq

/-- mirrors state.go:451-471 -/
def Identity.validate (identity : Identity) : Except String Unit := do
  refuse (¬ (hexBytes 32 identity.executableSHA256 ∧ hexBytes 32 identity.networkSHA256 ∧
      hexBytes 32 identity.runtimeSHA256)) "deploy identity requires SHA256 digests"
  refuse (¬ hexBytes 16 identity.machineID) "deploy machine identity is invalid"
  refuse (¬ canonicalUuid identity.bootID)
    "deploy boot identity requires the canonical UUID format"

/-- The four identities that a commit compares with the target and a recovery
with the baseline. -/
def Identity.SameImage (identity expected : Identity) : Prop :=
  identity.machineID = expected.machineID ∧ identity.executableSHA256 = expected.executableSHA256 ∧
    identity.networkSHA256 = expected.networkSHA256 ∧ identity.runtimeSHA256 = expected.runtimeSHA256

instance (identity expected : Identity) : Decidable (identity.SameImage expected) :=
  inferInstanceAs (Decidable (_ ∧ _))

/-- mirrors state.go:473-485 -/
def Identity.verifyRestored (identity baseline : Identity) : Except String Unit := do
  identity.validate
  refuse (¬ identity.SameImage baseline)
    "restored deploy identity does not match the baseline recovery pair"
  refuse (identity.bootID = baseline.bootID)
    "restored deploy VM has not booted after snapshot recovery"

theorem Identity.verifyRestored_ok {identity baseline : Identity}
    (h : identity.verifyRestored baseline = .ok ()) :
    identity.SameImage baseline ∧ identity.bootID ≠ baseline.bootID := by
  simp only [verifyRestored, except_bind_eq_ok, refuse_eq_ok, exists_const, not_not] at h
  obtain ⟨_, -, hsame, hboot⟩ := h
  exact ⟨hsame, hboot⟩

/-! ## Checks -/

inductive Operation
  | http | dns | ping | publicIP | distribution | cloudflarePool | sshBanner
  deriving DecidableEq

inductive Dimension
  | downstreamApplication | inboundApplication | connectionDistribution | inboundPool
  | providerEgress | pingPath | publicIP
  deriving DecidableEq

inductive Family
  | ipv4 | ipv6
  deriving DecidableEq

inductive PublicIPPolicy
  | unset | familyOnly | currentAssignment
  deriving DecidableEq

inductive EndpointKind
  | local | qemu | lxc
  deriving DecidableEq

structure Endpoint where
  kind : EndpointKind
  vmid : Int
  machineID : String
  hostMachineID : String
  deriving DecidableEq

inductive Availability
  | complete | missing | stale | error
  deriving DecidableEq

inductive Outcome
  | pass | fail | unknown
  deriving DecidableEq

/-- The fields of a check that its results repeat, and its maximum age. -/
structure CheckSpec where
  id : String
  dimension : Dimension
  operation : Operation
  target : String
  publicIPPolicy : PublicIPPolicy
  family : Family
  observer : Endpoint
  maxAgeSeconds : Int
  deriving DecidableEq

structure Result where
  checkID : String
  dimension : Dimension
  operation : Operation
  target : String
  publicIPPolicy : PublicIPPolicy
  family : Family
  observer : Endpoint
  availability : Availability
  outcome : Outcome
  observedAt : Time
  deriving DecidableEq

/-- What `observation` decides from the parts of a check and of its result
that are not kept here. -/
structure Contract where
  /-- `observation.Validate` -/
  validate : CheckSpec → Bool
  /-- the required path, reply or distribution -/
  replied : CheckSpec → Result → Time → Bool

/-- mirrors observation/types.go:113-130 -/
def requiredPassed (c : Contract) (spec : CheckSpec) (result : Result) (now : Time) : Bool :=
  if result.checkID ≠ spec.id ∨ result.dimension ≠ spec.dimension ∨
      result.operation ≠ spec.operation ∨ result.target ≠ spec.target ∨
      result.publicIPPolicy ≠ spec.publicIPPolicy ∨ result.family ≠ spec.family ∨
      result.observer ≠ spec.observer then false
  else if result.availability ≠ .complete ∨ result.outcome ≠ .pass ∨ result.observedAt = 0 ∨
      spec.maxAgeSeconds ≤ 0 then false
  else if Time.sub now result.observedAt < 0 ∨
      seconds spec.maxAgeSeconds < Time.sub now result.observedAt then false
  else c.replied spec result now

/-- mirrors state.go:298-308 -/
def checksPassed (c : Contract) (checks : List CheckSpec) (results : List Result) (now : Time) :
    Bool :=
  !checks.isEmpty && checks.length = results.length &&
    (checks.zip results).all fun (check, result) => requiredPassed c check result now

/-! ## Manifests and records -/

structure Paths where
  executable : String
  network : String
  runtime : String
  deriving DecidableEq

structure ExpectedInterruption where
  phase : String
  checkIDs : List String
  maxSeconds : Int
  deriving DecidableEq

/-- The part of `observation.RuntimeConfig` a manifest validates. -/
structure RuntimeConfig where
  machineIDPath : String
  probeBinary : String
  deriving DecidableEq

/-- mirrors manifest.go:17-36 -/
structure Manifest where
  operationID : String
  generation : String
  vmid : String
  snapshot : String
  baseline : Identity
  target : Identity
  paths : Paths
  deadline : Time
  watchUnit : String
  pollSeconds : Int
  observationTimeoutSeconds : Int
  recoveryTimeoutSeconds : Int
  failureThreshold : Int
  requiredFamilies : List Family
  requiredChecks : List CheckSpec
  expectedInterruptions : List ExpectedInterruption
  restoredRequiredChecks : List CheckSpec
  observation : RuntimeConfig
  deriving DecidableEq

/-- mirrors manifest.go:120-162 -/
def Manifest.validateChecks (c : Contract) (manifest : Manifest) (checks : List CheckSpec) :
    Except String Unit := do
  let answers (dimension : Dimension) (family : Family) : Bool :=
    checks.any fun check => (check.operation = .http || check.operation = .sshBanner) &&
      check.dimension = dimension && check.family = family
  refuse (¬ manifest.requiredFamilies.Nodup)
    "deploy required families must contain unique IPv4 or IPv6 values"
  refuse manifest.requiredFamilies.isEmpty "deploy manifest requires configured IP families"
  refuse checks.isEmpty "deploy manifest requires active and restored application checks"
  refuse (checks.any fun check => !c.validate check) "validate deploy check"
  refuse (¬ (checks.map (·.id)).Nodup) "deploy check ID is duplicated"
  refuse (manifest.requiredFamilies.any fun family =>
      !answers .inboundApplication family || !answers .downstreamApplication family)
    "deploy checks require inbound and downstream application responses"

/-- mirrors manifest.go:70-118 -/
def Manifest.validate (c : Contract) (manifest : Manifest) : Except String Unit := do
  let unit := manifest.watchUnit.toList
  let suffix := ".service".toList
  let isAbs (path : String) : Bool := path.toList.head? = some '/'
  refuse (¬ (validName manifest.operationID ∧ validName manifest.generation ∧
      validName manifest.snapshot))
    "deploy manifest requires exact operation, generation and snapshot identities"
  refuse (¬ (suffix.isSuffixOf unit ∧
      validName (String.ofList (unit.take (unit.length - suffix.length)))))
    "deploy watch requires an exact systemd service unit"
  refuse (manifest.pollSeconds ≤ 0 ∨ manifest.observationTimeoutSeconds ≤ 0 ∨
      manifest.recoveryTimeoutSeconds ≤ 0 ∨ manifest.failureThreshold ≤ 0 ∨ manifest.deadline = 0)
    "deploy manifest requires positive polling, observation, recovery and failure limits"
  manifest.baseline.validate
  manifest.target.validate
  refuse (manifest.target.machineID ≠ manifest.baseline.machineID)
    "deploy target machine must match the baseline machine"
  refuse (¬ [manifest.paths.executable, manifest.paths.network, manifest.paths.runtime,
      manifest.observation.machineIDPath, manifest.observation.probeBinary].all isAbs)
    "deploy manifest requires absolute identity and observation paths"
  manifest.validateChecks c manifest.requiredChecks
  manifest.validateChecks c manifest.restoredRequiredChecks
  refuse (¬ (manifest.expectedInterruptions.map (·.phase)).Nodup ∨
      manifest.expectedInterruptions.any fun interruption => blank interruption.phase ||
        interruption.maxSeconds ≤ 0 || interruption.checkIDs.isEmpty)
    "expected interruptions require unique nonempty phases, positive bounds and check IDs"
  refuse (manifest.expectedInterruptions.any fun interruption => !interruption.checkIDs.Nodup ||
      interruption.checkIDs.any fun id => !manifest.requiredChecks.any fun check =>
        check.id = id && check.dimension = .inboundApplication)
    "expected interruption check must identify a unique required inbound application check"

/-- What later arguments need of a valid manifest. -/
theorem Manifest.validate_ok {c : Contract} {manifest : Manifest}
    (h : manifest.validate c = .ok ()) :
    validName manifest.operationID ∧ validName manifest.generation ∧
    ∀ interruption ∈ manifest.expectedInterruptions, 0 < interruption.maxSeconds := by
  simp only [validate, except_bind_eq_ok, refuse_eq_ok, exists_const, not_not] at h
  obtain ⟨⟨hop, hgen, -⟩, -, -, _, -, _, -, -, -, _, -, _, -, hbounds, -⟩ := h
  refine ⟨hop, hgen, fun interruption hi => ?_⟩
  simp only [List.any_eq_true, not_or, not_exists, not_and] at hbounds
  have := hbounds.2 interruption hi
  simp only [Bool.or_eq_true, decide_eq_true_eq, not_or] at this
  omega

/-- mirrors state.go:26-42 -/
inductive Status
  | armed | recovering | recovered | recoveryFailed | committed | disarmed
  deriving DecidableEq

/-- mirrors state.go:213-216 -/
def Status.settled (status : Status) : Bool :=
  status = .committed || status = .recovered || status = .disarmed

structure Lease where
  id : String
  phase : String
  startedAt : Time
  expiresAt : Time
  deriving DecidableEq

structure WatchIdentity where
  unit : String
  invocationID : String
  pid : Nat
  deriving DecidableEq

/-- `observed` is what `ReadWatch` reports of the unit.
mirrors watch.go:113-123 -/
def WatchIdentity.verify (identity : WatchIdentity) (observed : Except String WatchIdentity) :
    Except String Unit := do
  let running ← observed
  refuse (running ≠ identity) "deploy watch invocation or PID has changed"

theorem WatchIdentity.verify_ok {identity : WatchIdentity}
    {observed : Except String WatchIdentity} (h : identity.verify observed = .ok ()) :
    observed = .ok identity := by
  obtain ⟨running, hrunning, h⟩ := (except_bind_eq_ok ..).mp h
  rw [hrunning, not_ne_iff.mp ((refuse_eq_ok ..).mp h)]

/-- mirrors state.go:61-72 -/
structure Record extends Manifest where
  status : Status
  lease : Option Lease
  watch : WatchIdentity
  reason : String
  updatedAt : Time
  restoredIdentity : Option Identity
  results : List Result
  observedAt : Time
  deriving DecidableEq

/-- mirrors state.go:416-449 -/
def Record.validate (c : Contract) (record : Record) : Except String Unit := do
  record.toManifest.validate c
  refuse (record.deadline = 0 ∨ record.updatedAt = 0)
    "deploy operation identity, snapshot and timestamps are required"
  refuse (¬ positiveInt record.vmid) "deploy operation VMID must be positive"
  record.baseline.validate
  if record.status = .recovered then
    match record.restoredIdentity with
    | none => throw "recovered deploy operation requires actual restored identity"
    | some restored => restored.verifyRestored record.baseline
  match record.lease with
  | none => pure ()
  | some lease =>
    refuse (lease.id = "" ∨ lease.phase = "" ∨ lease.expiresAt = 0 ∨
      record.deadline < lease.expiresAt) "deploy operation lease is invalid"

theorem Record.validate_manifest {c : Contract} {record : Record}
    (h : record.validate c = .ok ()) : record.toManifest.validate c = .ok () := by
  obtain ⟨_, hmanifest, -⟩ := (except_bind_eq_ok ..).mp h
  exact hmanifest

/-- mirrors state.go:290-296 -/
def Record.mutationReady (c : Contract) (record : Record) (now : Time) : Bool :=
  if record.status ≠ .armed ∨ record.watch.pid = 0 ∨ record.deadline ≤ now then false
  else checksPassed c record.requiredChecks record.results now

/-- No lease runs at `now`. -/
def Record.Drained (record : Record) (now : Time) : Prop :=
  ∀ lease, record.lease = some lease → lease.expiresAt ≤ now

instance (record : Record) (now : Time) : Decidable (record.Drained now) :=
  match h : record.lease with
  | none => isTrue fun lease hl => by simp [h] at hl
  | some lease => decidable_of_iff (lease.expiresAt ≤ now) (by simp [Record.Drained, h])

/-! ## Changes of a record -/

namespace Record

/-- mirrors state.go:131-161 -/
def grant (c : Contract) (watch : Except String WatchIdentity) (id phase : String)
    (deadline now : Time) (record : Record) : Except String Record := do
  refuse (record.status ≠ .armed ∨ record.deadline ≤ now)
    "deploy operation does not permit mutations"
  refuse (record.watch.verify watch ≠ .ok ()) "mutation lease requires the active deploy watch"
  refuse (¬ record.mutationReady c now)
    "mutation lease requires fresh passing application observations"
  refuse (record.lease ≠ none) "deploy operation already has an outstanding lease"
  refuse (blank phase ∨ deadline ≤ now ∨ record.deadline < deadline)
    "mutation lease requires a phase and deadline within the operation deadline"
  refuse (record.expectedInterruptions.any fun interruption =>
      interruption.phase = phase && now + seconds interruption.maxSeconds < deadline)
    "mutation lease exceeds the expected interruption bound"
  pure { record with lease := some ⟨id, phase, now, deadline⟩ }

/-- mirrors state.go:172-178 -/
def registerWatch (identity : WatchIdentity) (record : Record) : Except String Record := do
  refuse (record.status ≠ .armed ∨ record.watch.pid ≠ 0)
    "deploy watch cannot register for this operation"
  pure { record with watch := identity }

/-- mirrors state.go:182-192 -/
def release (leaseID : String) (record : Record) : Except String Record := do
  refuse (record.status ≠ .armed ∧ record.status ≠ .recovering)
    "terminal deploy operation rejects lease release"
  refuse (record.lease.map (·.id) ≠ some leaseID) "mutation lease identity does not match"
  pure { record with lease := none }

/-- mirrors state.go:195-211 -/
def beginRecovery (reason : String) (record : Record) : Except String Record :=
  if record.status = .recovering then pure record
  else do
    refuse (record.status ≠ .armed ∧ record.status ≠ .recoveryFailed)
      "terminal deploy operation rejects recovery"
    refuse (blank reason) "deploy recovery requires a reason"
    pure { record with status := .recovering, reason := reason }

/-- mirrors state.go:219-234 -/
def disarm (reason : String) (record : Record) : Except String Record := do
  refuse (record.status ≠ .armed) "deploy operation cannot disarm"
  refuse (record.lease ≠ none) "deploy operation with a mutation lease cannot disarm"
  refuse (blank reason) "deploy disarm requires a reason"
  pure { record with status := .disarmed, reason := reason }

/-- mirrors state.go:236-257 -/
def finishRecovery (restored : Option Identity) (reason : String) (now : Time) (record : Record) :
    Except String Record := do
  refuse (record.status ≠ .recovering) "deploy operation is not recovering"
  match restored with
  | none =>
    pure { record with status := .recoveryFailed, restoredIdentity := none, reason := reason }
  | some identity =>
    refuse (¬ record.Drained now)
      "deploy recovery cannot finish before mutation lease release or expiry"
    identity.verifyRestored record.baseline
    pure { record with status := .recovered, lease := none,
                       restoredIdentity := some identity, reason := reason }

/-- What the guest and the host answer to a commit: the identity it reads,
the results of the required checks and the watch unit. -/
structure Verification where
  identity : Except String Identity
  results : List Result
  watch : Except String WatchIdentity

/-- The verification of `Engine.Commit`: the identity of the target, then the
required checks.
mirrors engine.go:217-226 -/
def Verification.run (v : Verification) (record : Record) : Except String (List Result) := do
  let identity ← v.identity
  refuse (¬ identity.SameImage record.target)
    "actual deployment target identity differs from the manifest"
  pure v.results

/-- The record with the results of a commit, and its error behind a
verification that ran; `clock i` is the `i`-th reading of the clock.
mirrors state.go:260-288 -/
def commit (c : Contract) (v : Verification) (clock : Nat → Time) (record : Record) :
    Except String (Record × Option String) := do
  refuse (record.status ≠ .armed ∨ record.lease ≠ none ∨ record.deadline ≤ clock 0)
    "deploy operation cannot commit with an outstanding lease or expired deadline"
  let results ← v.run record
  let checked := { record with results := results, observedAt := clock 1 }
  if record.deadline ≤ clock 2 then
    pure (checked, some "deploy operation deadline expired during commit verification")
  else if record.watch.verify v.watch ≠ .ok () then
    pure (checked, some "deploy commit requires the active deploy watch")
  else if ¬ checked.mutationReady c (clock 3) then
    pure (checked, some "deploy commit requires fresh passing application observations")
  else pure ({ checked with status := .committed }, none)

/-- mirrors state.go:310-334 -/
def observe (results : List Result) (now : Time) (record : Record) : Except String Record := do
  refuse (record.status ≠ .armed ∧ record.status ≠ .recovering)
    "terminal deploy operation rejects observations"
  pure { record with results := results, observedAt := now }

end Record

end Mwan.Deploy

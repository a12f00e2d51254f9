import Mwan.L3Protocol.Deploy.Fencing

/-!
# How a generation ends

A generation ends committed, recovered or disarmed: the first and the last by a
request, the other one by the recovery. A disarmed record is to be one that has
granted no lease.

Results:
* `step_reaches`, `submit_reaches`, `recover_reaches`: who brings a record to a
  status;
* `disarmed_unmutated_iff`: a generation that granted a lease ends disarmed
  exactly if it is disarmed after the lease was released.
-/
namespace Mwan.Deploy

open Mwan.Core Mwan.Core.Exec Option

/-! ## Who ends a generation -/

section Ends

variable {site : Site} {s : System}

theorem create_status (site : Site) (s : System) (f : Faults) (ticks : Nat → Nat) (record : Record) :
    (s.step site (.create f ticks record)).status = s.status ∨
    (s.step site (.create f ticks record)).status = some .armed := by
  cases step_renewal site s f ticks record with
  | refused disk => exact .inl (by rw [System.status, disk, System.status])
  | archived disk => exact .inl (by rw [System.status, disk.file, System.status])
  | written t d _ armed _ _ disk => exact .inr (by simp [System.status, disk, armed])

/-- The status of a record that is new in it is the work of a request or of the
recovery. -/
theorem step_reaches {e : Event} {status : Status} (harmed : status ≠ .armed)
    (hbefore : s.status ≠ some status) (hafter : (s.step site e).status = some status) :
    (∃ f ticks operationID generation request, e = .submit f ticks operationID generation request) ∨
    ∃ a, e = .recover a := by
  cases e with
  | tick | crash => exact absurd hafter hbefore
  | create f ticks record =>
    obtain h | h := create_status site s f ticks record
    · exact absurd (h.symm.trans hafter) hbefore
    · exact absurd (some.inj (hafter.symm.trans h)) harmed
  | submit f ticks operationID generation request =>
    exact .inl ⟨f, ticks, operationID, generation, request, rfl⟩
  | acquire =>
    refine absurd ?_ hbefore
    simp only [System.step] at hafter
    split at hafter <;> exact hafter
  | recover a => exact .inr ⟨a, rfl⟩

/-- A request that is new in its status has updated the record in the file. -/
theorem submit_reaches {f : Faults} {ticks : Nat → Nat} {operationID generation : String}
    {request : Request} {status : Status} (hbefore : s.status ≠ some status)
    (hafter : (s.step site (.submit f ticks operationID generation request)).status =
      some status) :
    ∃ t before after, request.update site.contract (readings s.clock ticks) before = .ok after ∧
      before.status ≠ status ∧ after.status = status ∧
      Store.Changed site.contract operationID generation t before after s.disk
        (s.step site (.submit f ticks operationID generation request)).disk := by
  obtain h | ⟨t, before, after, hupdate, hchanged⟩ := Store.submit_disk site.contract f
    (readings s.clock ticks) operationID generation request s.disk
  · refine absurd ?_ hbefore
    simp only [System.step, System.status, System.saved, h] at hafter
    exact hafter
  · refine ⟨t, before, after, hupdate, fun heq => hbefore ?_, ?_, hchanged⟩
    · rw [System.status, hchanged.file, map_some, heq]
    · have hfile := hchanged.file_after
      simp only [System.status, System.step, System.saved, hfile, map_some,
        some.injEq] at hafter
      exact hafter

/-- A step of the recovery neither disarms nor commits a record. -/
theorem recover_reaches {a : Answer} {status : Status} (hbefore : s.status ≠ some status)
    (hafter : (s.step site (.recover a)).status = some status) :
    status = .recovering ∨ status = .recoveryFailed ∨ status = .recovered := by
  cases hr : s.recovery with
  | none =>
    refine absurd ?_ hbefore
    simpa only [System.step, hr] using hafter
  | some r =>
    have hwrites := r.next_writes site a (readings s.clock a.ticks) s.disk
    simp only [System.step, hr, System.status, System.saved] at hafter
    generalize r.next site a (readings s.clock a.ticks) s.disk = result at *
    obtain ⟨r', d'⟩ := result
    cases hwrites with
    | none => exact absurd hafter hbefore
    | request hchanged _ _ hstatus =>
      have hfile : d'.file = _ := hchanged.file_after
      simp only [hfile, map_some, some.injEq] at hafter
      obtain hsame | hrecovering := hstatus
      · refine absurd ?_ hbefore
        rw [System.status, hchanged.file, map_some, ← hsame, hafter]
      · exact .inl (hafter.symm.trans hrecovering)
    | finish hchanged hupdate =>
      have hfile : d'.file = _ := hchanged.file_after
      simp only [hfile, map_some, some.injEq] at hafter
      cases Record.finishRecovery_finishes hupdate with
      | fail _ hstatus => exact .inr (.inl (hafter.symm.trans hstatus))
      | recover _ _ hstatus => exact .inr (.inr (hafter.symm.trans hstatus))

end Ends

/-! ## Disarming -/

/-- No lease was granted in a generation that is disarmed. -/
def Unmutated (s : System) : Prop := s.status = some .disarmed → s.grantsOf s.life = []

instance (s : System) : Decidable (Unmutated s) := inferInstanceAs (Decidable (_ → _))

/-- The event disarms a record that has granted a lease before. -/
def DisarmsMutated (site : Site) (s : System) : Event → Prop
  | .submit f ticks operationID generation (.disarm reason) =>
    s.status = some .armed ∧
    (Store.disarm site.contract f (readings s.clock ticks) operationID generation reason
      s.disk).2.file.map (·.status) = some .disarmed ∧
    s.grantsOf s.life ≠ []
  | _ => False

section Disarm

variable {site : Site} {s : System} {e : Event}

theorem Turn.armed_of_life_lt {s s' : System} (h : Turn s s') (hlife : s.life < s'.life) :
    s'.status = some .armed := by
  cases h with
  | same | move | finish => simp [System.life, *] at hlife
  | create _ armed _ file' => simp [System.status, file', armed]

/-- A record becomes disarmed by a request to disarm it, which grants nothing. -/
theorem step_disarms (hbefore : s.status ≠ some .disarmed)
    (hafter : (s.step site e).status = some .disarmed) :
    ∃ f ticks operationID generation reason,
      e = .submit f ticks operationID generation (.disarm reason) ∧ s.status = some .armed ∧
      (s.step site e).grantsOf (s.step site e).life = s.grantsOf s.life := by
  obtain ⟨f, ticks, operationID, generation, request, rfl⟩ | ⟨a, rfl⟩ :=
    step_reaches (by simp) hbefore hafter
  · obtain ⟨t, before, after, hupdate, hne, hstatus, hchanged⟩ := submit_reaches hbefore hafter
    obtain ⟨_, -, h⟩ | ⟨reason, rfl, -, hlease⟩ | ⟨_, -, h⟩ :=
      (Request.update_does hchanged.valid hupdate).status (hstatus ▸ hne)
    · simp [hstatus] at h
    · refine ⟨f, ticks, operationID, generation, reason, rfl, ?_, ?_⟩
      · simp only [Request.update, Record.disarm, except_bind_eq_ok, refuse_eq_ok, exists_const,
          not_not] at hupdate
        rw [System.status, hchanged.file, map_some, hupdate.1]
      · have hgrants : (s.step site
            (.submit f ticks operationID generation (.disarm reason))).grants = s.grants := by
          change s.granted (s.step site
            (.submit f ticks operationID generation (.disarm reason))).disk.file = s.grants
          rw [hchanged.file_after]
          exact System.granted_of_lease hchanged.file hlease
        rw [System.grantsOf, hgrants]
        rfl
    · simp [hstatus] at h
  · simpa using recover_reaches hbefore hafter

theorem unmutated_step_iff (h : Unmutated s) :
    Unmutated (s.step site e) ↔ ¬ DisarmsMutated site s e := by
  have hturn := step_turn site s e
  constructor
  · intro hnext hbad
    cases e with
    | submit f ticks operationID generation request =>
      cases request with
      | disarm reason =>
        obtain ⟨harmed, hdisarmed, hgranted⟩ := hbad
        have hafter : (s.step site (.submit f ticks operationID generation
          (.disarm reason))).status = some .disarmed := hdisarmed
        obtain ⟨-, -, -, -, -, -, -, hgrants⟩ := step_disarms (by simp [harmed]) hafter
        exact hgranted (hgrants ▸ hnext hafter)
      | _ => exact hbad
    | _ => exact hbad
  · intro hgood hafter
    by_cases hbefore : s.status = some .disarmed
    · obtain hlife | hlife := Nat.eq_or_lt_of_le hturn.life_le
      · rw [← hlife, hturn.grantsOf_past (.inr ⟨rfl, by simp [hbefore]⟩)]
        exact h hbefore
      · simp [hturn.armed_of_life_lt hlife] at hafter
    · obtain ⟨f, ticks, operationID, generation, reason, rfl, harmed, hgrants⟩ :=
        step_disarms hbefore hafter
      rw [hgrants]
      by_contra hgranted
      exact hgood ⟨harmed, hafter, hgranted⟩

end Disarm

def sampleSite : Site := ⟨⟨fun _ => true, fun _ _ _ => true⟩, fun _ => false⟩

def sampleIdentity (bootID : String) : Identity :=
  let digest := "0123456789abcdef0123456789abcdef0123456789abcdef0123456789abcdef"
  ⟨"0123456789abcdef0123456789abcdef", bootID, digest, digest, digest⟩

def sampleChecks : List CheckSpec :=
  [.inboundApplication, .downstreamApplication].map fun dimension =>
    ⟨if dimension = .inboundApplication then "inbound" else "downstream", dimension, .http, "host",
      .unset, .ipv4, ⟨.local, 0, "", ""⟩, 60⟩

def samplePass (observedAt : Time) (check : CheckSpec) : Result :=
  ⟨check.id, check.dimension, check.operation, check.target, check.publicIPPolicy, check.family,
    check.observer, .complete, .pass, observedAt⟩

def sampleRecord (operationID generation : String) : Record where
  operationID := operationID
  generation := generation
  vmid := "100"
  snapshot := "before"
  baseline := sampleIdentity "00000000-0000-4000-8000-000000000000"
  target := sampleIdentity "00000000-0000-4000-8000-000000000000"
  paths := ⟨"/usr/bin/mwan", "/etc/network.json", "/etc/runtime.toml"⟩
  deadline := 1000
  watchUnit := "watch.service"
  pollSeconds := 1
  observationTimeoutSeconds := 1
  recoveryTimeoutSeconds := 1
  failureThreshold := 1
  requiredFamilies := [.ipv4]
  requiredChecks := sampleChecks
  expectedInterruptions := []
  restoredRequiredChecks := sampleChecks
  observation := ⟨"/etc/machine-id", "/usr/bin/probe"⟩
  status := .armed
  lease := none
  watch := ⟨"", "", 0⟩
  reason := ""
  updatedAt := 0
  restoredIdentity := none
  results := sampleChecks.map (samplePass 1)
  observedAt := 1

def sampleWatch : WatchIdentity := ⟨"watch.service", "invocation", 7⟩

/-- A request of the sample operation that meets no fault. -/
def sampleRequest (request : Request) : Event := .submit {} (fun _ => 1) "deploy" "first" request

def sampleArmed : List Event :=
  [.create {} (fun _ => 1) (sampleRecord "deploy" "first"),
    sampleRequest (.registerWatch (.ok sampleWatch) 7)]

end Mwan.Deploy

import Mathlib.Data.List.Forall2
import Mwan.L3Protocol.Deploy.Endings

/-!
# The evidence behind a committed or recovered record

Results:
* `endings_evident`: a record becomes committed only in a transaction that has
  found the target, fresh passing checks and the registered watch, and
  recovered only with the baseline back; a commit that fails for any other
  reason than the release of a lock leaves the record armed.
-/
namespace Mwan.Deploy

open Mwan.Core Mwan.Core.Exec

/-! ## Checks -/

/-- A complete, passing and fresh reply to the check. -/
structure Fresh (check : CheckSpec) (result : Result) (now : Time) : Prop where
  checkID : result.checkID = check.id
  complete : result.availability = .complete
  pass : result.outcome = .pass
  past : result.observedAt ≤ now
  age : now - result.observedAt ≤ check.maxAgeSeconds * 1000000000

/-- Every check has its result, in order, and each one is fresh. -/
def AllFresh (checks : List CheckSpec) (results : List Result) (now : Time) : Prop :=
  checks ≠ [] ∧ List.Forall₂ (fun check result => Fresh check result now) checks results

/-- What a committing transaction has found: `clock i` are its readings of the
clock and `v` are its answers. -/
structure CommitEvidence (before : Record) (v : Record.Verification) (clock : Nat → Time) :
    Prop where
  unleased : before.lease = none
  deadline : clock 2 < before.deadline
  target : ∃ identity, v.identity = .ok identity ∧ identity.SameImage before.target
  checks : AllFresh before.requiredChecks v.results (clock 3)
  watch : v.watch = .ok before.watch ∧ before.watch.pid ≠ 0

variable {v : Record.Verification} {clock : Nat → Time}

section Evidence

variable {c : Contract}

/-- The saturated difference and the wrapped bound of the code decide the true
age. -/
theorem age_le {now observedAt n : Int} (hn : 0 < n) (hpast : ¬ Time.sub now observedAt < 0)
    (hage : ¬ seconds n < Time.sub now observedAt) :
    observedAt ≤ now ∧ now - observedAt ≤ n * 1000000000 := by
  have hbound := seconds_le (Int.le_of_lt hn)
  -- the largest difference is odd, so no number of seconds reaches it
  have hmax : seconds n < 2 ^ 63 - 1 := by
    have hword : ((2 ^ 64 : Nat) : Int) = 18446744073709551616 := by decide
    unfold seconds
    rw [Int.bmod_def, hword]
    split <;> omega
  unfold Time.sub at hpast hage
  constructor <;> omega

theorem requiredPassed_fresh {check : CheckSpec} {result : Result} {now : Time}
    (h : requiredPassed c check result now) : Fresh check result now := by
  unfold requiredPassed at h
  simp only [Bool.if_false_left, Bool.and_eq_true, Bool.not_eq_true', decide_eq_false_iff_not,
    not_or, not_not] at h
  obtain ⟨⟨hid, -⟩, ⟨hcomplete, hpass, -, hpositive⟩, ⟨hpast, hage⟩, -⟩ := h
  obtain ⟨hle, hage⟩ := age_le (Int.not_le.mp hpositive) hpast hage
  exact ⟨hid, hcomplete, hpass, hle, hage⟩

theorem checksPassed_fresh {checks : List CheckSpec} {results : List Result} {now : Time}
    (h : checksPassed c checks results now) : AllFresh checks results now := by
  simp only [checksPassed, Bool.and_eq_true, Bool.not_eq_true', List.isEmpty_eq_false_iff,
    decide_eq_true_eq, List.all_eq_true, Prod.forall] at h
  obtain ⟨⟨hnonempty, hlength⟩, hall⟩ := h
  refine ⟨hnonempty, List.forall₂_iff_zip.mpr ⟨hlength, fun hmem => ?_⟩⟩
  exact requiredPassed_fresh (hall _ _ hmem)

/-- The record that a commit writes as committed. -/
theorem Record.commit_evidence {r r' : Record} {o : Option String}
    (h : r.commit c v clock = .ok (r', o)) (hcommitted : r'.status = .committed) :
    CommitEvidence r v clock := by
  simp only [commit, except_bind_eq_ok, refuse_eq_ok, exists_const, except_ite_eq_ok,
    except_pure_eq_ok, Prod.mk.injEq, not_or, not_not] at h
  obtain ⟨⟨harmed, hfree, -⟩, results, hrun, h⟩ := h
  simp only [Verification.run, except_bind_eq_ok, refuse_eq_ok, exists_const, except_pure_eq_ok,
    not_not] at hrun
  obtain ⟨identity, hidentity, hsame, rfl⟩ := hrun
  obtain ⟨-, rfl, -⟩ | ⟨hdeadline, ⟨-, rfl, -⟩ | ⟨hwatch, ⟨-, rfl, -⟩ | ⟨hready, rfl, -⟩⟩⟩ := h
  · simp [harmed] at hcommitted
  · simp [harmed] at hcommitted
  · simp [harmed] at hcommitted
  · simp only [mutationReady, Bool.if_false_left, Bool.and_eq_true, Bool.not_eq_true',
      decide_eq_false_iff_not, not_or, not_not] at hready
    obtain ⟨⟨-, hpid, -⟩, hpassed⟩ := hready
    exact ⟨hfree, Int.not_le.mp hdeadline, ⟨identity, hidentity, hsame⟩,
      checksPassed_fresh hpassed, WatchIdentity.verify_ok hwatch, hpid⟩

end Evidence

/-! ## Records that become committed or recovered -/

/-- `awaited`, `acquired` and `released` are the failures to see fresh
observations, to take the rollback coordinator and to release it.
mirrors deployoperation/engine.go:206-228 -/
def Engine.commit (c : Contract) (awaited acquired released : Option String) (f : Faults)
    (clock : Nat → Time) (operationID generation : String) (v : Record.Verification) : Txn Unit :=
  fun d =>
    match awaited, acquired with
    | some e, _ => (.error e, d)
    | none, some e => (.error e, d)
    | none, none =>
      let (result, d') := Store.commit c f clock operationID generation v d
      match released, result with
      | none, _ => (result, d')
      | some e, .ok _ => (.error e, d')
      | some e, .error e' => (.error (e' ++ "\n" ++ e), d')

/-- What a recovery has found when its record becomes recovered. -/
structure RecoverEvidence (s s' : System) (before after : Record) (identity : Identity) :
    Prop where
  file : s.disk.file = some before
  file' : s'.disk.file = some after
  restored : after.restoredIdentity = some identity
  baseline : identity.SameImage before.baseline
  booted : identity.bootID ≠ before.baseline.bootID
  checks : ∃ results now, s.Held results ∧ now ≤ s'.clock ∧
    AllFresh before.restoredRequiredChecks results now
  drained : before.Drained s'.clock ∧ after.lease = none

/-- The evidence for a record that becomes committed or recovered, and for a
commit that fails. -/
structure Evident (site : Site) (s : System) (e : Event) : Prop where
  committed : s.status ≠ some .committed → (s.step site e).status = some .committed →
    ∃ f ticks operationID generation v before,
      e = .submit f ticks operationID generation (.commit v) ∧ s.disk.file = some before ∧
      CommitEvidence before v (readings s.clock ticks)
  recovered : s.status ≠ some .recovered → (s.step site e).status = some .recovered →
    ∃ before after identity, RecoverEvidence s (s.step site e) before after identity
  failed : ∀ awaited acquired released f ticks operationID generation v err,
    s.status = some .armed → f.close = none → released = none →
    (Engine.commit site.contract awaited acquired released f (readings s.clock ticks) operationID
      generation v s.disk).1 = .error err →
    (Engine.commit site.contract awaited acquired released f (readings s.clock ticks) operationID
      generation v s.disk).2.file.map (·.status) = some .armed

section Evident

variable {site : Site} {s : System} {e : Event}

theorem evident_committed (hbefore : s.status ≠ some .committed)
    (hafter : (s.step site e).status = some .committed) :
    ∃ f ticks operationID generation v before,
      e = .submit f ticks operationID generation (.commit v) ∧ s.disk.file = some before ∧
      CommitEvidence before v (readings s.clock ticks) := by
  obtain ⟨f, ticks, operationID, generation, request, rfl⟩ | ⟨a, rfl⟩ :=
    step_reaches (by simp) hbefore hafter
  · obtain ⟨t, before, after, hupdate, hne, hstatus, hchanged⟩ := submit_reaches hbefore hafter
    obtain ⟨_, -, h⟩ | ⟨_, -, h, -⟩ | ⟨v, rfl, -⟩ :=
      (Request.update_does hchanged.valid hupdate).status (hstatus ▸ hne)
    · simp [hstatus] at h
    · simp [hstatus] at h
    · obtain ⟨⟨r, o⟩, hcommit, rfl⟩ := (except_map_eq_ok ..).mp hupdate
      exact ⟨f, ticks, operationID, generation, v, before, rfl, hchanged.file,
        Record.commit_evidence hcommit hstatus⟩
  · simpa using recover_reaches hbefore hafter

theorem evident_recovered (hinv : RecoveryInv site.contract s)
    (hbefore : s.status ≠ some .recovered) (hafter : (s.step site e).status = some .recovered) :
    ∃ before after identity, RecoverEvidence s (s.step site e) before after identity := by
  obtain ⟨f, ticks, operationID, generation, request, rfl⟩ | ⟨a, rfl⟩ :=
    step_reaches (by simp) hbefore hafter
  · obtain ⟨t, before, after, hupdate, hne, hstatus, hchanged⟩ := submit_reaches hbefore hafter
    obtain ⟨_, -, h⟩ | ⟨_, -, h, -⟩ | ⟨_, -, h⟩ :=
      (Request.update_does hchanged.valid hupdate).status (hstatus ▸ hne) <;> simp [hstatus] at h
  · cases hr : s.recovery with
    | none =>
      refine absurd ?_ hbefore
      simpa only [System.step, hr] using hafter
    | some r =>
      have hwrites := r.next_writes site a (readings s.clock a.ticks) s.disk
      have hstep : s.step site (.recover a) =
          s.advanced (r.next site a (readings s.clock a.ticks) s.disk).2
            (lastReading s.clock a.ticks) (r.next site a (readings s.clock a.ticks) s.disk).1 := by
        simp [System.step, hr, System.advanced]
      rw [hstep] at hafter ⊢
      generalize r.next site a (readings s.clock a.ticks) s.disk = result at *
      obtain ⟨r', d'⟩ := result
      cases hwrites with
      | none => exact absurd hafter hbefore
      | request hchanged _ _ hstatus =>
        have hfile : d'.file = _ := hchanged.file_after
        simp only [System.status, System.advanced, System.saved, hfile, Option.map_some,
          Option.some.injEq] at hafter
        obtain hsame | hrecovering := hstatus
        · refine absurd ?_ hbefore
          rw [System.status, hchanged.file, Option.map_some, ← hsame, hafter]
        · simp [hafter] at hrecovering
      | @finish _ _ t before after _ restored reason hchanged hupdate hidentified _ =>
        have hfile : d'.file = _ := hchanged.file_after
        simp only [System.status, System.advanced, System.saved, hfile, Option.map_some,
          Option.some.injEq] at hafter
        obtain ⟨-, -, ⟨-, hfailed, -⟩ |
          ⟨identity, hrestored, hidentity, hverified, hdrained, -, hlease⟩⟩ :=
          Record.finishRecovery_ok hupdate
        · simp [hafter] at hfailed
        · have hstage := hidentified identity hrestored
          obtain ⟨current, hcurrent, -, -, -, hknown⟩ := hinv r hr (by simp [hstage, Stage.active])
          obtain rfl := Option.some.inj (hcurrent.symm.trans hchanged.file)
          rw [hstage] at hknown
          obtain ⟨-, -, results, now, hheld, hnow, hpassed⟩ := hknown
          obtain ⟨hsame, hboot⟩ := Identity.verifyRestored_ok hverified
          have hclock : s.clock ≤ lastReading s.clock a.ticks := le_readings ..
          have hfirst : readings s.clock a.ticks 0 ≤ lastReading s.clock a.ticks :=
            readings_mono _ _ (by omega)
          exact ⟨current, _, identity, hcurrent, hfile, hidentity, hsame, hboot,
            ⟨results, now, hheld, Int.le_trans hnow hclock, checksPassed_fresh hpassed⟩,
            hdrained.frame hfirst (.inl rfl), hlease⟩

section

variable {c : Contract} {f : Faults} {operationID generation : String} {d : Disk} {err : String}
  (harmed : d.file.map (·.status) = some .armed) (hclose : f.close = none)

include harmed hclose

/-- A commit whose record lock is released without a failure reports every
failure beside a record that is still armed. -/
theorem Store.commit_error (h : (Store.commit c f clock operationID generation v d).1 = .error err)
    :
    (Store.commit c f clock operationID generation v d).2.file.map (·.status) = some .armed := by
  unfold Store.commit at h ⊢
  cases hchange : Store.change c f operationID generation (clock 4) (Record.commit c v clock) d with
  | mk result d' =>
    cases result with
    | error e =>
      have hsame := Store.change_error hclose (congrArg Prod.fst hchange)
      rw [hchange] at hsame
      exact hsame ▸ harmed
    | ok o =>
      obtain ⟨before, after, hcommit, hchanged⟩ := Store.change_ok (congrArg Prod.fst hchange)
      rw [hchange] at hchanged
      cases o with
      | none => simp [hchange] at h
      | some e =>
        have hfile : d'.file = _ := hchanged.file_after
        obtain ⟨-, -, -, -, ⟨hstatus, -⟩ | ⟨-, hnone⟩⟩ := Record.commit_ok hcommit
        · simp [hfile, hstatus]
        · cases hnone

theorem Engine.commit_error {awaited acquired released : Option String}
    (hreleased : released = none)
    (h : (Engine.commit c awaited acquired released f clock operationID generation v d).1 = .error err)
    :
    (Engine.commit c awaited acquired released f clock operationID generation v d).2.file.map
      (·.status) = some .armed := by
  subst hreleased
  unfold Engine.commit at h ⊢
  split
  · exact harmed
  · exact harmed
  · exact Store.commit_error harmed hclose h

end

end Evident

end Mwan.Deploy

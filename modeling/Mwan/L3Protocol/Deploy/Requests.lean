import Mwan.L3Protocol.Deploy.Store

/-!
# What a request does to a record

Controllers, watches and watchdogs send requests to the store. Whoever sends
one, the record moves as `Record.Moves` says; the owner of the recovery
coordinator also ends recoveries (`Record.Finishes`). The two are read off the
updates once and for all; every later argument about a run goes through them.

Results:
* `Request.update_does`, `Record.finishRecovery_finishes`: the moves of a record,
  and that no request changes the manifest;
* `submit_disk`: what a request does to the disk.
-/
namespace Mwan.Deploy

open Mwan.Core Mwan.Core.Exec

/-- The transactions that anyone may send at any time. -/
inductive Request
  | registerWatch (observed : Except String WatchIdentity) (pid : Nat)
  | grant (phase : String) (deadline : Time) (watch : Except String WatchIdentity) (id : String)
  | release (leaseID : String)
  | observe (results : List Result)
  | beginRecovery (reason : String)
  | disarm (reason : String)
  | commit (v : Record.Verification)

/-- The record that a request writes. -/
def Request.update (c : Contract) (clock : Nat → Time) (record : Record) :
    Request → Except String Record
  | .registerWatch (.ok identity) _ => record.registerWatch identity
  | .registerWatch (.error e) _ => throw e
  | .grant phase deadline watch id => record.grant c watch id phase deadline (clock 0)
  | .release leaseID => record.release leaseID
  | .observe results => record.observe results (clock 0)
  | .beginRecovery reason => record.beginRecovery reason
  | .disarm reason => record.disarm reason
  | .commit v => (record.commit c v clock).map Prod.fst

namespace Store

/-- The transaction of a request; only whether it failed is kept of its result. -/
def submit (c : Contract) (f : Faults) (clock : Nat → Time) (operationID generation : String) :
    Request → Txn Unit
  | .registerWatch observed pid => registerWatch c f clock operationID generation observed pid
  | .grant phase deadline watch id => grant c f clock operationID generation phase deadline watch id
  | .release leaseID => release c f clock operationID generation leaseID
  | .observe results => fun d =>
    let (status, d') := observe c f clock operationID generation results d
    (status.map fun _ => (), d')
  | .beginRecovery reason => beginRecovery c f clock operationID generation reason
  | .disarm reason => disarm c f clock operationID generation reason
  | .commit v => commit c f clock operationID generation v

variable {c : Contract} {f : Faults} {clock : Nat → Time} {operationID generation : String}
  {d : Disk}

/-- The disk behind a transaction whose update is `update`: as it was, or with
what the update computes from the file. -/
def Updates (c : Contract) (operationID generation : String) (update : Record → Except String Record)
    (d d' : Disk) : Prop :=
  d' = d ∨ ∃ updatedAt before after, update before = .ok after ∧
    Changed c operationID generation updatedAt before after d d'

theorem changeRecord_updates (updatedAt : Time) (update : Record → Except String Record) :
    Updates c operationID generation update d
      (changeRecord c f operationID generation updatedAt update d).2 := by
  obtain h | h := changeRecord_disk c f operationID generation updatedAt update d
  · exact .inl h
  · exact .inr ⟨updatedAt, h⟩

/-- The status that is reported has been read; a record that is not settled is
written. -/
theorem storeResults_ok {results : List Result} {status : Status} {d' : Disk}
    (h : storeResults c f clock operationID generation results d = .ok (status, d')) :
    status.settled ∧ d' = d ∨
    ∃ before after, before.status = status ∧ before.observe results (clock 0) = .ok after ∧
      Changed c operationID generation (clock 1) before after d d' := by
  unfold storeResults at h
  obtain ⟨record, hexact, h⟩ := (except_bind_eq_ok ..).mp h
  obtain ⟨hfile, hvalid, hop, hgen⟩ := exact_ok hexact
  obtain ⟨hsettled, h⟩ | ⟨-, h⟩ := (except_ite_eq_ok ..).mp h
  · obtain ⟨rfl, rfl⟩ := Prod.mk.inj ((except_pure_eq_ok ..).mp h)
    exact .inl ⟨hsettled, rfl⟩
  · obtain ⟨changed, hchanged, h⟩ := (except_bind_eq_ok ..).mp h
    obtain ⟨d₁, hwrite, h⟩ := (except_bind_eq_ok ..).mp h
    obtain ⟨rfl, rfl⟩ := Prod.mk.inj ((except_pure_eq_ok ..).mp h)
    exact .inr ⟨record, changed, rfl, hchanged, hfile, hvalid, hop, hgen, (write_ok hwrite).2⟩

theorem observe_ok {results : List Result} {status : Status}
    (h : (observe c f clock operationID generation results d).1 = .ok status)
    (hactive : ¬ status.settled) :
    ∃ before after, before.status = status ∧ before.observe results (clock 0) = .ok after ∧
      Changed c operationID generation (clock 1) before after d
        (observe c f clock operationID generation results d).2 := by
  obtain ⟨-, -, hrun⟩ := locked_ok h
  rw [observe, hrun] at h
  rw [observe, hrun]
  obtain ⟨hsettled, -⟩ | hwritten := storeResults_ok (atomic_ok h)
  · exact absurd hsettled hactive
  · exact hwritten

theorem observe_updates (results : List Result) :
    Updates c operationID generation (·.observe results (clock 0)) d
      (observe c f clock operationID generation results d).2 := by
  obtain h | h := locked_disk (f := f) (d := d)
    (atomic (storeResults c f clock operationID generation results))
  · exact .inl h
  · rw [observe, h]
    obtain hsame | ⟨status, d', ho, hd⟩ := atomic_disk (d := d)
      (storeResults c f clock operationID generation results)
    · exact .inl hsame
    · rw [hd]
      obtain ⟨-, hd'⟩ | ⟨before, after, -, hupdate, hchanged⟩ := storeResults_ok ho
      · exact .inl hd'
      · exact .inr ⟨clock 1, before, after, hupdate, hchanged⟩

theorem commit_updates (v : Record.Verification) :
    Updates c operationID generation (fun record => (record.commit c v clock).map Prod.fst) d
      (commit c f clock operationID generation v d).2 := by
  have hdisk : (commit c f clock operationID generation v d).2 =
      (change c f operationID generation (clock 4) (Record.commit c v clock) d).2 := by
    unfold commit
    cases change c f operationID generation (clock 4) (Record.commit c v clock) d with
    | mk r d' =>
      cases r with
      | error e => rfl
      | ok o => cases o <;> rfl
  rw [hdisk]
  obtain h | ⟨o, before, after, hupdate, hchanged⟩ :=
    change_disk c f operationID generation (clock 4) (Record.commit c v clock) d
  · exact .inl h
  · exact .inr ⟨clock 4, before, after, by simp [hupdate, Except.map], hchanged⟩

/-- A request leaves the disk as it was or writes its update of the record it
names. -/
theorem submit_disk (c : Contract) (f : Faults) (clock : Nat → Time)
    (operationID generation : String) (request : Request) (d : Disk) :
    Updates c operationID generation (request.update c clock ·) d
      (submit c f clock operationID generation request d).2 := by
  cases request with
  | registerWatch observed pid =>
    cases observed with
    | error e => exact .inl rfl
    | ok identity =>
      by_cases hpid : identity.pid ≠ pid
      · simp [submit, registerWatch, hpid, Updates]
      · simpa [submit, registerWatch, hpid, Request.update] using
          changeRecord_updates (c := c) (f := f) (d := d) (clock 0) (Record.registerWatch identity)
  | grant | release | beginRecovery | disarm => exact changeRecord_updates _ _
  | observe results => exact observe_updates results
  | commit v => exact commit_updates v

end Store

/-! ## Moves of a record -/

/-- A lease that ends with the operation and within the bound of its phase. -/
def Lease.Bounded (lease : Lease) (manifest : Manifest) : Prop :=
  lease.expiresAt ≤ manifest.deadline ∧
  ∀ interruption ∈ manifest.expectedInterruptions, interruption.phase = lease.phase →
    lease.expiresAt ≤ lease.startedAt + interruption.maxSeconds * 1000000000

/-- Everything that a request can do to a record at `now`. -/
inductive Record.Moves (now : Time) (r r' : Record) : Prop
  | keep (status : r'.status = r.status) (lease : r'.lease = r.lease)
  | grant (granted : Lease) (armed : r.status = .armed) (status : r'.status = .armed)
      (free : r.lease = none) (lease : r'.lease = some granted) (started : granted.startedAt = now)
      (bounded : granted.Bounded r.toManifest)
  | release (status : r'.status = r.status) (lease : r'.lease = none)
  | begin (open_ : r.status = .armed ∨ r.status = .recoveryFailed)
      (status : r'.status = .recovering) (lease : r'.lease = r.lease)
  | disarm (armed : r.status = .armed) (free : r.lease = none) (status : r'.status = .disarmed)
      (lease : r'.lease = none)
  | commit (armed : r.status = .armed) (free : r.lease = none) (status : r'.status = .committed)
      (lease : r'.lease = none)

/-- The two ends of a recovery at `now`. -/
inductive Record.Finishes (now : Time) (r r' : Record) : Prop
  | fail (recovering : r.status = .recovering) (status : r'.status = .recoveryFailed)
      (lease : r'.lease = r.lease)
  | recover (recovering : r.status = .recovering) (drained : r.Drained now)
      (status : r'.status = .recovered) (lease : r'.lease = none)

section Moves

variable {c : Contract} {clock : Nat → Time} {r r' : Record}

theorem Record.grant_ok {watch : Except String WatchIdentity} {id phase : String}
    {deadline now : Time} (hvalid : r.validate c = .ok ())
    (h : r.grant c watch id phase deadline now = .ok r') :
    r.status = .armed ∧ r.lease = none ∧ r' = { r with lease := some ⟨id, phase, now, deadline⟩ } ∧
      Lease.Bounded ⟨id, phase, now, deadline⟩ r.toManifest := by
  simp only [grant, except_bind_eq_ok, refuse_eq_ok, exists_const, except_pure_eq_ok, not_or, not_not, Int.not_lt] at h
  obtain ⟨⟨harmed, -⟩, -, -, hfree, ⟨-, -, hdeadline⟩, hbound, rfl⟩ := h
  refine ⟨harmed, hfree, rfl, hdeadline, fun interruption hi hphase => ?_⟩
  have hpositive := (Manifest.validate_ok (Record.validate_manifest hvalid)).2.2 interruption hi
  have hwrapped := seconds_le (Int.le_of_lt hpositive)
  simp only [List.any_eq_true, not_exists, not_and] at hbound
  have hwithin := hbound interruption hi
  simp only [hphase, decide_true, Bool.true_and, decide_eq_true_eq, Int.not_lt] at hwithin
  exact Int.le_trans hwithin (Int.add_le_add_left hwrapped now)

theorem Record.commit_ok {v : Record.Verification} {o : Option String}
    (h : r.commit c v clock = .ok (r', o)) :
    r.status = .armed ∧ r.lease = none ∧ r'.lease = none ∧ r'.toManifest = r.toManifest ∧
      (r'.status = .armed ∧ o ≠ none ∨ r'.status = .committed ∧ o = none) := by
  simp only [commit, except_bind_eq_ok, refuse_eq_ok, exists_const, except_ite_eq_ok, except_pure_eq_ok,
    Prod.mk.injEq, not_or, not_not] at h
  obtain ⟨⟨harmed, hfree, -⟩, results, -, h⟩ := h
  refine ⟨harmed, hfree, ?_⟩
  obtain ⟨-, rfl, rfl⟩ | ⟨-, ⟨-, rfl, rfl⟩ | ⟨-, ⟨-, rfl, rfl⟩ | ⟨-, rfl, rfl⟩⟩⟩ := h <;>
    simp [hfree, harmed]

/-- What a request does to the record it names. -/
structure Request.Does (request : Request) (now : Time) (r r' : Record) : Prop where
  moves : r.Moves now r'
  manifest : r'.toManifest = r.toManifest
  /-- Which request a new status comes from. -/
  status : r.status ≠ r'.status →
    (∃ reason, request = .beginRecovery reason ∧ r'.status = .recovering) ∨
    (∃ reason, request = .disarm reason ∧ r'.status = .disarmed ∧ r'.lease = r.lease) ∨
    ∃ v, request = .commit v ∧ r'.status = .committed

theorem Request.update_does {request : Request} (hvalid : r.validate c = .ok ())
    (h : request.update c clock r = .ok r') : request.Does (clock 0) r r' := by
  cases request with
  | registerWatch observed pid =>
    cases observed with
    | error e => exact absurd h (except_throw_eq_ok _ _)
    | ok =>
      simp only [update, Record.registerWatch, except_bind_eq_ok, refuse_eq_ok, exists_const, except_pure_eq_ok] at h
      obtain ⟨-, rfl⟩ := h
      exact ⟨.keep rfl rfl, rfl, absurd rfl⟩
  | grant =>
    obtain ⟨harmed, hfree, rfl, hbounded⟩ := Record.grant_ok hvalid h
    exact ⟨.grant _ harmed harmed hfree rfl rfl hbounded, rfl, absurd rfl⟩
  | release =>
    simp only [update, Record.release, except_bind_eq_ok, refuse_eq_ok, exists_const, except_pure_eq_ok] at h
    obtain ⟨-, -, rfl⟩ := h
    exact ⟨.release rfl rfl, rfl, absurd rfl⟩
  | observe =>
    simp only [update, Record.observe, except_bind_eq_ok, refuse_eq_ok, exists_const, except_pure_eq_ok] at h
    obtain ⟨-, rfl⟩ := h
    exact ⟨.keep rfl rfl, rfl, absurd rfl⟩
  | beginRecovery reason =>
    simp only [update, Record.beginRecovery, except_ite_eq_ok, except_bind_eq_ok, refuse_eq_ok, exists_const,
      except_pure_eq_ok] at h
    obtain ⟨-, rfl⟩ | ⟨-, hopen, -, rfl⟩ := h
    · exact ⟨.keep rfl rfl, rfl, absurd rfl⟩
    · refine ⟨.begin ?_ rfl rfl, rfl, fun _ => .inl ⟨reason, rfl, rfl⟩⟩
      by_contra hclosed
      exact hopen (not_or.mp hclosed)
  | disarm reason =>
    simp only [update, Record.disarm, except_bind_eq_ok, refuse_eq_ok, exists_const, except_pure_eq_ok, not_not] at h
    obtain ⟨harmed, hfree, -, rfl⟩ := h
    exact ⟨.disarm harmed hfree rfl hfree, rfl, fun _ => .inr (.inl ⟨reason, rfl, rfl, rfl⟩)⟩
  | commit v =>
    obtain ⟨⟨after, o⟩, hcommit, rfl⟩ := (except_map_eq_ok ..).mp h
    obtain ⟨harmed, hfree, hlease, hmanifest, ⟨hstatus, -⟩ | ⟨hstatus, -⟩⟩ := Record.commit_ok hcommit
    · exact ⟨.keep (hstatus.trans harmed.symm) (hlease.trans hfree.symm), hmanifest,
        absurd (harmed.trans hstatus.symm)⟩
    · exact ⟨.commit harmed hfree hstatus hlease, hmanifest, fun _ => .inr (.inr ⟨v, rfl, hstatus⟩)⟩

section

variable {restored : Option Identity} {reason : String} {now : Time}
  (h : r.finishRecovery restored reason now = .ok r')

include h

/-- What a finished recovery writes: a failure, or a baseline that is back with
no lease running. -/
theorem Record.finishRecovery_ok :
    r.status = .recovering ∧ r'.toManifest = r.toManifest ∧
    (restored = none ∧ r'.status = .recoveryFailed ∧ r'.lease = r.lease ∨
      ∃ identity, restored = some identity ∧ r'.restoredIdentity = some identity ∧
        identity.verifyRestored r.baseline = .ok () ∧ r.Drained now ∧ r'.status = .recovered ∧
        r'.lease = none) := by
  simp only [finishRecovery, except_bind_eq_ok, refuse_eq_ok, exists_const, not_not] at h
  obtain ⟨hrecovering, h⟩ := h
  cases restored with
  | none =>
    obtain rfl := (except_pure_eq_ok ..).mp h
    exact ⟨hrecovering, rfl, .inl ⟨rfl, rfl, rfl⟩⟩
  | some identity =>
    simp only [except_bind_eq_ok, refuse_eq_ok, exists_const, except_pure_eq_ok, not_not] at h
    obtain ⟨hdrained, _, hverified, rfl⟩ := h
    exact ⟨hrecovering, rfl, .inr ⟨identity, rfl, rfl, hverified, hdrained, rfl, rfl⟩⟩

theorem Record.finishRecovery_finishes : r.Finishes now r' := by
  obtain ⟨hrecovering, -, ⟨-, hstatus, hlease⟩ | ⟨_, -, -, -, hdrained, hstatus, hlease⟩⟩ :=
    Record.finishRecovery_ok h
  · exact .fail hrecovering hstatus hlease
  · exact .recover hrecovering hdrained hstatus hlease

end

end Moves

end Mwan.Deploy

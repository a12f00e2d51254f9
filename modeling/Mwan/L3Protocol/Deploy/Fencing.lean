import Mwan.L3Protocol.Deploy.Recovery

/-!
# Mutations and restorations exclude each other

A lease is granted only on an armed record and a virtual machine is stopped
only for a record under recovery, behind the end of every lease. The argument
has three parts, each an invariant that every event keeps: the leases of the
past and the lease of the record (`Leases`), what an active recovery knows of
the record (`Recovery.Inv`), and the statuses that are never left (`Closed`).

Results:
* `mutations_fenced`: statuses, leases and restorations in every run.
-/
namespace Mwan.Deploy

open Mwan.Core Mwan.Core.Exec List Option

/-! ## Statuses -/

/-- The statuses behind a status. -/
def Status.next : Status → List Status
  | .armed => [.committed, .disarmed, .recovering]
  | .recovering => [.recovered, .recoveryFailed]
  | .recoveryFailed => [.recovering]
  | .committed | .recovered | .disarmed => []

variable {r' : Record}

theorem Record.Moves.status_next {now : Time} {r : Record} (h : r.Moves now r') :
    r'.status = r.status ∨ r'.status ∈ r.status.next := by
  cases h with
  | keep hstatus _ => exact .inl hstatus
  | grant _ harmed hstatus => exact .inl (hstatus.trans harmed.symm)
  | release hstatus _ => exact .inl hstatus
  | begin hopen hstatus =>
    obtain hopen | hopen := hopen <;> simp [hopen, hstatus, Status.next]
  | disarm | commit => simp [*, Status.next]

theorem Record.Finishes.status_next {now : Time} {r : Record} (h : r.Finishes now r') :
    r'.status ∈ r.status.next := by
  cases h <;> simp [*, Status.next]

/-- Within a generation the status stays or goes on to a status behind it. -/
def StatusMoves (s s' : System) : Prop :=
  s'.life = s.life → ∀ before after, s.status = some before → s'.status = some after →
    after = before ∨ after ∈ before.next

/-- A status within a generation comes from one it is behind. -/
theorem Turn.status_before {s s' : System} (h : Turn s s') (hlife : s'.life = s.life)
    {after : Status} (hafter : s'.status = some after) :
    ∃ before, s.status = some before ∧ (after = before ∨ after ∈ before.next) := by
  cases h with
  | same file =>
    rw [System.status, file] at hafter
    exact ⟨after, hafter, .inl rfl⟩
  | move now r r' file file' _ _ _ moves =>
    simp only [System.status, file, file', map_some, some.injEq] at hafter ⊢
    exact ⟨_, rfl, hafter ▸ moves.status_next⟩
  | finish now r r' file file' _ _ _ finishes =>
    simp only [System.status, file, file', map_some, some.injEq] at hafter ⊢
    exact ⟨_, rfl, .inr (hafter ▸ finishes.status_next)⟩
  | create record _ _ _ _ created =>
    simp [System.life, created] at hlife

theorem Turn.statusMoves {s s' : System} (h : Turn s s') : StatusMoves s s' := by
  intro hlife before after hbefore hafter
  obtain ⟨before', hbefore', hmoves⟩ := h.status_before hlife hafter
  rwa [some.inj (hbefore.symm.trans hbefore')]

/-! ## Leases -/

/-- A lease that no one can act on any more. -/
def Granted.Over (g : Granted) (now : Time) : Prop := g.released ∨ g.lease.expiresAt ≤ now

variable {g : Granted} {now' : Time}

theorem Granted.Over.mono {now : Time} (h : g.Over now) (hle : now ≤ now') : g.Over now' :=
  h.imp id (Int.le_trans · hle)

/-- Every lease was granted on an armed record and within its bounds, and all
but the lease of the record are over. -/
structure Leases (s : System) : Prop where
  terms : ∀ g ∈ s.grants, g.before.status = .armed ∧ g.lease.Bounded g.before.toManifest
  current : ∀ lease, s.lease = some lease → ∃ g rest, s.grants = g :: rest ∧ g.life = s.life ∧
    g.lease = lease ∧ ∀ g' ∈ rest, g'.Over s.clock
  free : s.lease = none → ∀ g ∈ s.grants, g.Over s.clock
  settled : ∀ r, s.disk.file = some r → r.status.settled → r.lease = none

section Leases

variable {s s' : System} {before after : Record}

theorem System.granted_grant {lease : Lease} (hfile : s.disk.file = some before)
    (hfree : before.lease = none) (hlease : after.lease = some lease) :
    s.granted (some after) = ⟨s.life, before, lease, false⟩ :: s.grants := by
  simp [granted, System.lease, hfile, hfree, hlease]

theorem System.granted_release {lease : Lease} {rest : List Granted}
    (hfile : s.disk.file = some before) (hheld : before.lease = some lease)
    (hlease : after.lease = none) (hgrants : s.grants = g :: rest) :
    s.granted (some after) = { g with released := true } :: rest := by
  simp [granted, System.lease, hfile, hheld, hlease, hgrants]

/-- Nothing is granted or released: the leases stand as they did. -/
theorem Leases.of_lease_eq (h : Leases s) (hclock : s.clock ≤ s'.clock)
    (hgrants : s'.grants = s.grants) (hlife : s'.life = s.life) (hlease : s'.lease = s.lease)
    (hsettled : ∀ r, s'.disk.file = some r → r.status.settled → r.lease = none) : Leases s' where
  terms := by
    rw [hgrants]
    exact h.terms
  current := by
    intro lease hl
    obtain ⟨g, rest, hg, hlife', heq, hover⟩ := h.current lease (hlease ▸ hl)
    exact ⟨g, rest, hgrants.trans hg, hlife'.trans hlife.symm, heq,
      fun g' hg' => (hover g' hg').mono hclock⟩
  free := by
    intro hl g hg
    exact (h.free (hlease ▸ hl) g (hgrants ▸ hg)).mono hclock
  settled := hsettled

/-- All leases are over. -/
theorem Leases.of_free (hterms : ∀ g ∈ s'.grants, g.before.status = .armed ∧
      g.lease.Bounded g.before.toManifest)
    (hlease : s'.lease = none) (hover : ∀ g ∈ s'.grants, g.Over s'.clock) : Leases s' where
  terms := hterms
  current := by
    intro lease hl
    rw [hlease] at hl
    cases hl
  free := fun _ => hover
  settled := by
    intro r hr _
    simpa [System.lease, hr] using hlease

theorem System.lease_of_file (hfile : s.disk.file = some before) : s.lease = before.lease := by
  simp [System.lease, hfile]

section

variable {now : Time} (h : Leases s) (hfile : s.disk.file = some before)
  (hfile' : s'.disk.file = some after) (hclock : s.clock ≤ s'.clock)

include h hfile hfile' hclock

theorem Leases.move (hmoves : before.Moves now after) (hcreated : s'.created = s.created)
    (hgrants : s'.grants = s.granted (some after)) : Leases s' := by
  have hlife : s'.life = s.life := congrArg length hcreated
  have hbefore : s.lease = before.lease := System.lease_of_file hfile
  have hafter : s'.lease = after.lease := System.lease_of_file hfile'
  -- a move that leaves the lease alone and does not settle a leased record
  have hkept (hlease : after.lease = before.lease)
      (hsettled : after.status.settled → after.lease = none) : Leases s' :=
    h.of_lease_eq hclock (hgrants.trans (System.granted_of_lease hfile hlease)) hlife
      (by rw [hafter, hlease, hbefore]) fun r hr => by
        obtain rfl := some.inj (hfile'.symm.trans hr)
        exact hsettled
  cases hmoves with
  | keep hstatus hlease =>
    refine hkept hlease fun hs => ?_
    rw [hlease]
    exact h.settled before hfile (hstatus ▸ hs)
  | begin _ hstatus hlease => exact hkept hlease fun hs => by simp [hstatus, Status.settled] at hs
  | disarm _ hfree _ hlease => exact hkept (hlease.trans hfree.symm) fun _ => hlease
  | commit _ hfree _ hlease => exact hkept (hlease.trans hfree.symm) fun _ => hlease
  | grant granted harmed hstatus hfree hlease _ hbounded =>
    rw [System.granted_grant hfile hfree hlease] at hgrants
    have hover := h.free (hbefore.trans hfree)
    refine ⟨?_, ?_, ?_, ?_⟩
    · rw [hgrants]
      exact forall_mem_cons.mpr ⟨⟨harmed, hbounded⟩, h.terms⟩
    · intro lease hl
      rw [hafter, hlease] at hl
      exact ⟨_, _, hgrants, hlife.symm, some.inj hl,
        fun g' hg' => (hover g' hg').mono hclock⟩
    · intro hl
      rw [hafter, hlease] at hl
      cases hl
    · intro r hr hs
      obtain rfl := some.inj (hfile'.symm.trans hr)
      simp [hstatus, Status.settled] at hs
  | release _ hlease =>
    cases hheld : before.lease with
    | none => exact hkept (hlease.trans hheld.symm) fun _ => hlease
    | some lease =>
      obtain ⟨g, rest, hg, -, -, hover⟩ := h.current lease (hbefore.trans hheld)
      rw [System.granted_release hfile hheld hlease hg] at hgrants
      have hterms := h.terms
      rw [hg] at hterms
      refine .of_free ?_ (hafter.trans hlease) ?_
      · rw [hgrants]
        exact forall_mem_cons.mpr (forall_mem_cons.mp hterms)
      · rw [hgrants]
        exact forall_mem_cons.mpr ⟨.inl rfl, fun g' hg' => (hover g' hg').mono hclock⟩

theorem Leases.finish (hnow : now ≤ s'.clock) (hfinishes : before.Finishes now after)
    (hcreated : s'.created = s.created) (hgrants : s'.grants = s.grants) : Leases s' := by
  have hbefore : s.lease = before.lease := System.lease_of_file hfile
  have hafter : s'.lease = after.lease := System.lease_of_file hfile'
  cases hfinishes with
  | fail _ hstatus hlease =>
    refine h.of_lease_eq hclock hgrants (congrArg length hcreated)
      (by rw [hafter, hlease, hbefore]) fun r hr hs => ?_
    obtain rfl := some.inj (hfile'.symm.trans hr)
    simp [hstatus, Status.settled] at hs
  | recover _ hdrained _ hlease =>
    refine .of_free (hgrants ▸ h.terms) (hafter.trans hlease) ?_
    rw [hgrants]
    cases hheld : before.lease with
    | none => exact fun g hg => (h.free (hbefore.trans hheld) g hg).mono hclock
    | some lease =>
      obtain ⟨g, rest, hg, -, rfl, hover⟩ := h.current lease (hbefore.trans hheld)
      rw [hg]
      exact forall_mem_cons.mpr ⟨.inr (Int.le_trans (hdrained _ hheld) hnow),
        fun g' hg' => (hover g' hg').mono hclock⟩

end

theorem Leases.create (h : Leases s) (hclock : s.clock ≤ s'.clock)
    (hfree : after.lease = none) (hfile' : s'.disk.file = some after)
    (hretired : ∀ previous, s.disk.file = some previous → previous.status.settled)
    (hgrants : s'.grants = s.grants) : Leases s' := by
  have hlease : s.lease = none := by
    cases hfile : s.disk.file with
    | none => simp [System.lease, hfile]
    | some previous =>
      rw [System.lease_of_file hfile]
      exact h.settled previous hfile (hretired previous hfile)
  refine .of_free (hgrants ▸ h.terms) (by rw [System.lease_of_file hfile', hfree]) ?_
  rw [hgrants]
  exact fun g hg => (h.free hlease g hg).mono hclock

theorem Leases.start (now : Time) : Leases (.start now) :=
  .of_free (by simp [System.start]) rfl (by simp [System.start])

theorem Leases.kept (site : Site) : Kept (System.step site) Leases := by
  intro s e h
  have hclock := clock_le_step site s e
  cases step_turn site s e with
  | same file created _ grants =>
    exact h.of_lease_eq hclock grants (congrArg length created)
      (by rw [System.lease, System.lease, file]) (by rw [file]; exact h.settled)
  | move now r r' file file' _ _ _ moves created _ grants =>
    exact h.move file file' hclock moves created grants
  | finish now r r' file file' _ clock' _ finishes created _ grants =>
    exact h.finish file file' hclock clock' finishes created grants
  | create record _ free file' retired _ _ grants =>
    exact h.create hclock free file' retired grants

end Leases

/-! ## The recovery -/

/-- The file has held a record with these results in the current generation. -/
def System.Held (s : System) (results : List Result) : Prop :=
  ∃ record, (s.life, record) ∈ s.seen ∧ record.results = results

/-- What a recovery knows at a stage of the record under recovery. -/
def Stage.Inv (c : Contract) (now : Time) (held : List Result → Prop) (current : Record) :
    Stage → Prop
  | .reread record =>
    record.toManifest = current.toManifest ∧ (current.lease = record.lease ∨ current.lease = none)
  | .permitted record | .stopping record _ | .stopped record _ | .pruning record _
  | .starting record | .awaiting record =>
    record.toManifest = current.toManifest ∧ current.Drained now
  | .identified record identity =>
    record.toManifest = current.toManifest ∧ current.Drained now ∧
      identity.verifyRestored current.baseline = .ok ()
  | .observed record identity results =>
    record.toManifest = current.toManifest ∧ current.Drained now ∧
      identity.verifyRestored current.baseline = .ok () ∧ held results
  | .restored identity =>
    current.Drained now ∧ identity.verifyRestored current.baseline = .ok () ∧
      ∃ results t, held results ∧ t ≤ now ∧
        checksPassed c current.restoredRequiredChecks results t
  | _ => True

theorem Record.Drained.frame {r : Record} {now : Time} (h : r.Drained now) (hnow : now ≤ now')
    (hlease : r'.lease = r.lease ∨ r'.lease = none) : r'.Drained now' := by
  intro lease hl
  obtain hsame | hnone := hlease
  · exact Int.le_trans (h lease (hsame ▸ hl)) hnow
  · rw [hnone] at hl
    cases hl

variable {stage : Stage}

/-- What is known of the record outlives time and requests. -/
theorem Stage.Inv.frame {c : Contract} {now : Time} {held held' : List Result → Prop} {r : Record}
    (h : stage.Inv c now held r) (hnow : now ≤ now')
    (hheld : ∀ results, held results → held' results) (hmanifest : r'.toManifest = r.toManifest)
    (hlease : r'.lease = r.lease ∨ r'.lease = none) : stage.Inv c now' held' r' := by
  cases stage with
  | reread =>
    refine ⟨h.1.trans hmanifest.symm, ?_⟩
    obtain hsame | hnone := hlease
    · rw [hsame]
      exact h.2
    · exact .inr hnone
  | permitted | stopping | stopped | pruning | starting | awaiting =>
    exact ⟨h.1.trans hmanifest.symm, h.2.frame hnow hlease⟩
  | identified =>
    obtain ⟨hrecord, hdrained, hverified⟩ := h
    exact ⟨hrecord.trans hmanifest.symm, hdrained.frame hnow hlease, hmanifest ▸ hverified⟩
  | observed =>
    obtain ⟨hrecord, hdrained, hverified, hresults⟩ := h
    exact ⟨hrecord.trans hmanifest.symm, hdrained.frame hnow hlease, hmanifest ▸ hverified,
      hheld _ hresults⟩
  | restored =>
    obtain ⟨hdrained, hverified, results, t, hresults, ht, hpassed⟩ := h
    exact ⟨hdrained.frame hnow hlease, hmanifest ▸ hverified, results, t, hheld _ hresults,
      Int.le_trans ht hnow, hmanifest ▸ hpassed⟩
  | entered | read | draining | leased | drained | failing => trivial

/-- An active recovery works on the record in the file, which is recovering. -/
def Recovery.Inv (c : Contract) (s : System) (r : Recovery) : Prop :=
  r.stage.active → ∃ current, s.disk.file = some current ∧ current.operationID = r.operationID ∧
    current.generation = r.generation ∧ current.status = .recovering ∧
    r.stage.Inv c s.clock s.Held current

def RecoveryInv (c : Contract) (s : System) : Prop :=
  ∀ r, s.recovery = some r → r.Inv c s

/-- The active stages that write the record: `observe` and `finishRecovery`. -/
def Stage.writes : Stage → Bool
  | .identified .. | .restored .. => true
  | _ => false

section Recovery

variable {site : Site} {s s' : System} {r : Recovery}

theorem Recovery.Inv.frame (h : r.Inv site.contract s) (hturn : Turn s s')
    (hclock : s.clock ≤ s'.clock) (hseen : ∀ x ∈ s.seen, x ∈ s'.seen)
    (hrecovery : s'.recovery = some r) : r.Inv site.contract s' := by
  intro hactive
  obtain ⟨current, hfile, hop, hgen, hrecovering, hstage⟩ := h hactive
  have hheld (hcreated : s'.created = s.created) (results : List Result) (hr : s.Held results) :
      s'.Held results := by
    obtain ⟨record, hmem, heq⟩ := hr
    refine ⟨record, ?_, heq⟩
    rw [System.life, hcreated]
    exact hseen _ hmem
  cases hturn with
  | same file created =>
    exact ⟨current, file.trans hfile, hop, hgen, hrecovering,
      hstage.frame hclock (hheld created) rfl (.inl rfl)⟩
  | move now before after file file' _ _ manifest moves created =>
    obtain rfl := some.inj (hfile.symm.trans file)
    have hkept : after.status = .recovering ∧
        (after.lease = current.lease ∨ after.lease = none) := by
      cases moves with
      | keep status lease => exact ⟨status.trans hrecovering, .inl lease⟩
      | release status lease => exact ⟨status.trans hrecovering, .inr lease⟩
      | begin _ status lease => exact ⟨status, .inl lease⟩
      | grant | disarm | commit => simp_all
    exact ⟨after, file', (congrArg Manifest.operationID manifest).trans hop,
      (congrArg Manifest.generation manifest).trans hgen, hkept.1,
      hstage.frame hclock (hheld created) manifest hkept.2⟩
  | finish _ _ _ _ _ _ _ _ _ _ _ _ inactive =>
    simp [inactive r hrecovery] at hactive
  | create record _ _ _ retired =>
    have hsettled := retired current hfile
    simp [hrecovering, Status.settled] at hsettled

/-- What follows `r` knows what it has to if the file is `file` and has not
been written. -/
def Recovery.Follows (c : Contract) (now : Time) (held : List Result → Prop)
    (file : Option Record) (r : Recovery) (x : Option Recovery) : Prop :=
  ∀ q, x = some q → q.stage.active → q.operationID = r.operationID ∧ q.generation = r.generation ∧
    ∀ current, file = some current → current.status = .recovering →
      r.stage.Inv c now held current → q.stage.Inv c now held current

variable {record : Record}

namespace Recovery

variable {c : Contract} {now : Time} {held : List Result → Prop} {file : Option Record}

theorem follows_fail (reason : String) : Follows c now held file r (r.fail reason) := by
  intro q hq hactive
  cases hq
  simp [Stage.active] at hactive

section

variable
  (h : ∀ current, file = some current → current.status = .recovering → r.stage.Inv c now held current → stage.Inv c now held current)

include h

theorem follows_goto : Follows c now held file r (r.goto stage) := by
  intro q hq _
  cases hq
  exact ⟨rfl, rfl, h⟩

theorem follows_vm {a : Answer} : Follows c now held file r (r.vm a stage) := by
  unfold vm
  split
  · exact follows_fail _
  · exact follows_goto h

end

theorem follows_poll {a : Answer} (h : ∀ current, r.stage.Inv c now held current →
      record.toManifest = current.toManifest ∧ current.Drained now) :
    Follows c now held file r (r.poll a record) := by
  unfold poll
  split
  · exact follows_fail _
  · exact follows_goto fun current _ _ => h current

/-- The active stages but the two that write the record. -/
theorem next_follows (site : Site) (a : Answer) (clock : Nat → Time) (d : Disk) (now : Time)
    (held : List Result → Prop) (hnow : clock 0 ≤ now) (hactive : r.stage.active) (hreads : r.stage.writes = false) :
    (r.next site a clock d).2 = d ∧
      Follows site.contract now held d.file r (r.next site a clock d).1 := by
  obtain ⟨operationID, generation, reason, stage⟩ := r
  cases stage with
  | entered | read | failing => simp [Stage.active] at hactive
  | identified | restored => simp [Stage.writes] at hreads
  | draining =>
    simp only [next]
    cases (Store.readRecord site.contract a.faults d).1 with
    | error e => exact ⟨rfl, follows_fail e⟩
    | ok record =>
      dsimp only
      split
      · exact ⟨rfl, follows_fail _⟩
      · cases record.lease with
        | none | some => exact ⟨rfl, follows_goto fun _ _ _ _ => trivial⟩
  | leased =>
    simp only [next]
    split
    · exact ⟨rfl, follows_goto fun _ _ _ _ => trivial⟩
    · cases a.interrupted with
      | some e => exact ⟨rfl, follows_fail e⟩
      | none => exact ⟨rfl, follows_goto fun _ _ _ _ => trivial⟩
  | drained =>
    simp only [next]
    cases hexact : Store.exactRecord site.contract a.faults operationID generation d with
    | error e => exact ⟨rfl, follows_fail e⟩
    | ok =>
      refine ⟨rfl, follows_goto fun current hfile _ _ => ?_⟩
      obtain rfl := some.inj ((Store.exactRecord_ok hexact).1.symm.trans hfile)
      exact ⟨rfl, .inl rfl⟩
  | reread =>
    simp only [next]
    split
    · exact ⟨rfl, follows_fail _⟩
    · rename_i hchecked
      simp only [not_or, not_not] at hchecked
      exact ⟨rfl, follows_goto fun _ _ _ hinv => ⟨hinv.1, hchecked.2.frame hnow hinv.2⟩⟩
  | permitted =>
    simp only [next]
    cases a.snapshots with
    | error e => exact ⟨rfl, follows_fail e⟩
    | ok =>
      dsimp only
      split
      · exact ⟨rfl, follows_fail _⟩
      · exact ⟨rfl, follows_goto fun _ _ _ hinv => hinv⟩
  | stopping | starting =>
    simp only [next]
    exact ⟨trivial, follows_vm fun _ _ _ hinv => by exact hinv⟩
  | stopped =>
    simp only [next]
    cases a.running with
    | error e => exact ⟨rfl, follows_fail e⟩
    | ok running =>
      cases running with
      | true => exact ⟨rfl, follows_fail _⟩
      | false => exact ⟨rfl, follows_goto fun _ _ _ hinv => hinv⟩
  | pruning record snapshots =>
    cases snapshots <;> simp only [next] <;>
      exact ⟨trivial, follows_vm fun _ _ _ hinv => by exact hinv⟩
  | awaiting =>
    simp only [next]
    cases a.identity with
    | error e => exact ⟨rfl, follows_poll fun _ hinv => by exact hinv⟩
    | ok =>
      dsimp only
      split
      · rename_i hverified
        exact ⟨rfl, follows_goto fun _ _ _ hinv => ⟨hinv.1, hinv.2, hinv.1 ▸ hverified⟩⟩
      · exact ⟨rfl, follows_poll fun _ hinv => by exact hinv⟩
  | observed record identity results =>
    simp only [next]
    split
    · rename_i hpassed
      refine ⟨rfl, follows_goto fun current _ _ hinv => ?_⟩
      obtain ⟨hmanifest, hdrained, hverified, hheld⟩ := hinv
      exact ⟨hdrained, hverified, results, clock 0, hheld, hnow, hmanifest ▸ hpassed⟩
    · exact ⟨rfl, follows_poll fun _ hinv => ⟨hinv.1, hinv.2.1⟩⟩

end Recovery

theorem Record.beginRecovery_recovering {r : Record} {reason : String}
    (h : r.beginRecovery reason = .ok r') : r'.status = .recovering := by
  simp only [beginRecovery, except_ite_eq_ok, except_bind_eq_ok, except_pure_eq_ok] at h
  obtain ⟨hstatus, rfl⟩ | ⟨-, _, -, _, -, rfl⟩ := h
  · exact hstatus
  · rfl

/-- The system behind a step of the recovery `r` that leaves the disk `d`. -/
def System.advanced (s : System) (d : Disk) (now : Time) (r : Option Recovery) : System :=
  { s.saved d now with recovery := r }

theorem System.advanced_held_file {d : Disk} {now : Time} {x : Option Recovery}
    (h : d.file = some record) : (s.advanced d now x).Held record.results :=
  ⟨record, by simp [advanced, saved, life, h], rfl⟩

namespace Recovery

variable {a : Answer} {clock : Nat → Time} {d : Disk} {q : Recovery}

/-- The step that starts to drain has written a recovering record. -/
theorem next_read (hstage : r.stage = .read) (hq : (r.next site a clock d).1 = some q) :
    q = { r with stage := .draining } ∧ ∃ t before after,
      Store.Changed site.contract r.operationID r.generation t before after d
        (r.next site a clock d).2 ∧
      after.toManifest = before.toManifest ∧ after.status = .recovering := by
  simp only [next, hstage] at hq ⊢
  split at hq
  · cases hq
  · rename_i d' hbegin
    obtain ⟨before, after, hupdate, hchanged⟩ := Store.changeRecord_ok (congrArg Prod.fst hbegin)
    have hd : (Store.changeRecord site.contract a.faults r.operationID r.generation (clock 0)
      (Record.beginRecovery r.reason) d).2 = d' := congrArg Prod.snd hbegin
    rw [hd] at hchanged
    exact ⟨(some.inj hq).symm, clock 0, before, after, hchanged,
      (@Request.update_does _ clock _ _ (.beginRecovery r.reason) hchanged.valid hupdate).manifest,
      Record.beginRecovery_recovering hupdate⟩

/-- The step that goes on to the checks has stored their results. -/
theorem next_identified {identity : Identity} (hstage : r.stage = .identified record identity)
    (hq : (r.next site a clock d).1 = some q) (hactive : q.stage.active) :
    q = { r with stage := .observed record identity a.results } ∧ ∃ t before after,
      Store.Changed site.contract record.operationID record.generation t before after d
        (r.next site a clock d).2 ∧
      before.observe a.results (clock 0) = .ok after := by
  simp only [next, hstage] at hq ⊢
  split at hq
  · cases hq
    simp [Stage.active] at hactive
  · rename_i status d' hobserve
    split at hq
    · cases hq
      simp [Stage.active] at hactive
    · rename_i hstatus
      have hunsettled : ¬ status.settled := by cases status <;> simp_all [Status.settled]
      obtain ⟨before, after, -, hupdate, hchanged⟩ :=
        Store.observe_ok (congrArg Prod.fst hobserve) hunsettled
      rw [hobserve] at hchanged
      simp only [hstatus, if_false]
      exact ⟨(some.inj hq).symm, clock 1, before, after, hchanged, hupdate⟩

end Recovery

theorem RecoveryInv.recover (h : RecoveryInv site.contract s) (a : Answer) :
    RecoveryInv site.contract (s.step site (.recover a)) := by
  cases hr : s.recovery with
  | none =>
    have hsame : s.step site (.recover a) = s := by simp [System.step, hr]
    rwa [hsame]
  | some r =>
    have hstep : s.step site (.recover a) =
        s.advanced (r.next site a (readings s.clock a.ticks) s.disk).2
          (lastReading s.clock a.ticks) (r.next site a (readings s.clock a.ticks) s.disk).1 := by
      simp [System.step, hr, System.advanced]
    have hnow : readings s.clock a.ticks 0 ≤ lastReading s.clock a.ticks :=
      readings_mono _ _ (by omega)
    have hclock : s.clock ≤ lastReading s.clock a.ticks := le_readings ..
    rw [hstep]
    intro q (hq : (r.next site a (readings s.clock a.ticks) s.disk).1 = some q) hactive
    by_cases hr_active : r.stage.active
    · obtain ⟨current, hfile, hop, hgen, hrecovering, hinv⟩ := h r hr hr_active
      cases hwrites : r.stage.writes with
      | false =>
        obtain ⟨hdisk, hfollows⟩ := Recovery.next_follows site a (readings s.clock a.ticks) s.disk
          (lastReading s.clock a.ticks)
          (s.advanced s.disk (lastReading s.clock a.ticks) (some q)).Held hnow hr_active hwrites
        obtain ⟨hop', hgen', hinv'⟩ := hfollows q hq hactive
        refine ⟨current, by rw [System.advanced, System.saved, hdisk]; exact hfile,
          hop.trans hop'.symm, hgen.trans hgen'.symm, hrecovering, ?_⟩
        rw [hdisk]
        exact hinv' current hfile hrecovering
          (hinv.frame hclock (fun _ hheld => hheld.imp fun _ h =>
            ⟨mem_append_right _ h.1, h.2⟩) rfl (.inl rfl))
      | true =>
        cases hstage : r.stage with
        | identified =>
          obtain ⟨rfl, t, before, after, hchanged, hobserve⟩ :=
            Recovery.next_identified hstage hq hactive
          obtain rfl := some.inj (hfile.symm.trans hchanged.file)
          simp only [Record.observe, except_bind_eq_ok, except_pure_eq_ok] at hobserve
          obtain ⟨_, -, rfl⟩ := hobserve
          rw [hstage] at hinv
          obtain ⟨hmanifest, hdrained, hverified⟩ := hinv
          exact ⟨_, hchanged.file_after, hop, hgen, hrecovering, hmanifest,
            hdrained.frame hclock (.inl rfl), hverified,
            System.advanced_held_file hchanged.file_after⟩
        | restored =>
          -- what follows the last write is no longer active
          simp only [Recovery.next, hstage] at hq
          split at hq
          · cases hq
            simp [Stage.active] at hactive
          · cases hq
        | _ => simp [hstage, Stage.writes] at hwrites
    · cases hstage : r.stage with
      | entered =>
        simp only [Recovery.next, hstage] at hq
        split at hq
        · cases hq
        · split at hq
          · cases hq
          · cases hq
            simp [Stage.active] at hactive
      | read =>
        obtain ⟨rfl, t, before, after, hchanged, hmanifest, hrecovering⟩ :=
          Recovery.next_read hstage hq
        exact ⟨_, hchanged.file_after,
          (congrArg Manifest.operationID hmanifest).trans hchanged.operationID,
          (congrArg Manifest.generation hmanifest).trans hchanged.generation, hrecovering, trivial⟩
      | failing => simp [Recovery.next, hstage] at hq
      | _ => simp [hstage, Stage.active] at hr_active

theorem RecoveryInv.start (c : Contract) (now : Time) : RecoveryInv c (.start now) := by
  intro r hr
  cases hr

theorem System.seen_step (site : Site) (s : System) (e : Event) :
    ∀ x ∈ s.seen, x ∈ (s.step site e).seen := by
  intro x hx
  cases e with
  | tick | crash => exact hx
  | create =>
    simp only [step, renewed]
    split <;> exact mem_append_right _ hx
  | submit => exact mem_append_right _ hx
  | acquire =>
    simp only [step]
    split <;> exact hx
  | recover a =>
    simp only [step]
    split
    · exact hx
    · exact mem_append_right _ hx

theorem RecoveryInv.kept (site : Site) : Kept (System.step site) (RecoveryInv site.contract) := by
  intro s e h
  have hframe (r : Recovery) (hr : s.recovery = some r) (hr' : (s.step site e).recovery = some r) :
      r.Inv site.contract (s.step site e) :=
    (h r hr).frame (step_turn site s e) (clock_le_step site s e) (s.seen_step site e) hr'
  cases e with
  | tick | submit => exact fun r hr => hframe r hr hr
  | create f ticks record =>
    intro r hr
    have hsame : (s.step site (.create f ticks record)).recovery = s.recovery := by
      simp only [System.step, System.renewed]
      split <;> rfl
    exact hframe r (hsame ▸ hr) hr
  | acquire operationID generation reason =>
    intro r hr
    cases hnone : s.recovery with
    | none =>
      simp only [System.step, hnone, isNone_none, if_true, some.injEq] at hr
      subst hr
      intro hactive
      simp [Stage.active] at hactive
    | some r' =>
      have hsame : s.step site (.acquire operationID generation reason) = s := by
        simp [System.step, hnone]
      rw [hsame] at hr
      exact hframe r hr (hsame.symm ▸ hr)
  | recover a => exact h.recover a
  | crash =>
    intro r hr
    cases hr

end Recovery

/-! ## Generations that are past their mutations -/

/-- The leases granted in a generation. -/
def System.grantsOf (s : System) (life : Nat) : List Lease :=
  (s.grants.filter (·.life = life)).map (·.lease)

/-- The generation is over or its record is no longer armed. -/
def Past (life : Nat) (s : System) : Prop :=
  life < s.life ∨ s.life = life ∧ s.status ≠ some .armed

section Past

variable {s s' : System} {life : Nat}

theorem Turn.life_le (h : Turn s s') : s.life ≤ s'.life := by
  cases h <;> simp [System.life, *]

theorem Turn.past (h : Turn s s') (hpast : Past life s) : Past life s' := by
  obtain hover | ⟨hlife, hstatus⟩ := hpast
  · exact .inl (Nat.lt_of_lt_of_le hover h.life_le)
  · obtain hlife' | hlife' := Nat.eq_or_lt_of_le h.life_le
    · refine .inr ⟨hlife'.symm.trans hlife, fun harmed => ?_⟩
      obtain ⟨before, hbefore, rfl | hnext⟩ := h.status_before hlife'.symm harmed
      · exact hstatus hbefore
      · cases before <;> simp [Status.next] at hnext
    · exact .inl (hlife ▸ hlife')

/-- A grant takes place on an armed record, in its generation. -/
theorem Turn.grantsOf_past (h : Turn s s') (hpast : Past life s) :
    s'.grantsOf life = s.grantsOf life := by
  cases h with
  | same | finish | create => simp only [System.grantsOf, *]
  | move now before after file file' _ _ _ moves _ _ grants =>
    have hkept (hlease : after.lease = before.lease) : s'.grantsOf life = s.grantsOf life := by
      rw [System.grantsOf, grants, System.granted_of_lease file hlease, System.grantsOf]
    cases moves with
    | keep _ lease => exact hkept lease
    | begin _ _ lease => exact hkept lease
    | disarm _ free _ lease => exact hkept (lease.trans free.symm)
    | commit _ free _ lease => exact hkept (lease.trans free.symm)
    | grant granted armed _ free lease =>
      have hother : s.life ≠ life := by
        obtain hover | ⟨-, hstatus⟩ := hpast
        · exact (Nat.ne_of_lt hover).symm
        · exact absurd (by simp [System.status, file, armed]) hstatus
      rw [System.grantsOf, grants, System.granted_grant file free lease]
      simp [System.grantsOf, hother]
    | release _ lease =>
      cases hheld : before.lease with
      | none => exact hkept (lease.trans hheld.symm)
      | some =>
        cases hgrants : s.grants with
        | nil =>
          simp [System.grantsOf, grants, System.granted, System.lease, file, hheld, lease, hgrants]
        | cons g =>
          rw [System.grantsOf, grants, System.granted_release file hheld lease hgrants,
            System.grantsOf, hgrants, filter_cons, filter_cons]
          by_cases hg : g.life = life <;> simp [hg]

theorem Past.kept (site : Site) (life : Nat) (leases : List Lease) :
    Kept (System.step site) fun s => Past life s ∧ s.grantsOf life = leases := by
  intro s e ⟨hpast, hleases⟩
  have hturn := step_turn site s e
  exact ⟨hturn.past hpast, (hturn.grantsOf_past hpast).trans hleases⟩

theorem Turn.status_some (h : Turn s s') {status : Status} (hstatus : s.status = some status) :
    ∃ status', s'.status = some status' := by
  cases h with
  | same file => exact ⟨status, by rwa [System.status, file]⟩
  | move | finish | create => simp [System.status, *]

/-- A settled generation stays as it is until it is replaced. -/
theorem settled_kept (site : Site) (life : Nat) {status : Status} (hsettled : status.settled) :
    Kept (System.step site) fun s => life < s.life ∨ s.life = life ∧ s.status = some status := by
  intro s e h
  have hturn := step_turn site s e
  obtain hover | ⟨hlife, hstatus⟩ := h
  · exact .inl (Nat.lt_of_lt_of_le hover hturn.life_le)
  · obtain hlife' | hlife' := Nat.eq_or_lt_of_le hturn.life_le
    · obtain ⟨status', hstatus'⟩ := hturn.status_some hstatus
      right
      refine ⟨hlife'.symm.trans hlife, ?_⟩
      have hmoved := hturn.statusMoves hlife'.symm status status' hstatus hstatus'
      have hlast : status.next = [] := by cases status <;> simp_all [Status.settled, Status.next]
      rw [hlast] at hmoved
      obtain rfl | hnone := hmoved
      · exact hstatus'
      · cases hnone
    · exact .inl (hlife ▸ hlife')

end Past

/-! ## Fencing -/

/-- From `VMStop` to `VMStart`. -/
def Stage.restoring : Stage → Bool
  | .stopping .. | .stopped .. | .pruning .. | .starting .. => true
  | _ => false

instance (g : Granted) (now : Time) : Decidable (g.Over now) :=
  inferInstanceAs (Decidable (_ ∨ _))

/-- Leases and restorations in one state. -/
structure Fenced (site : Site) (s : System) : Prop where
  /-- at most one lease is outstanding -/
  one : (s.grants.filter fun g => ¬ g.Over s.clock).length ≤ 1
  /-- and it is the lease of the record -/
  held : ∀ g ∈ s.grants, ¬ g.Over s.clock → g.life = s.life ∧ s.lease = some g.lease
  /-- every lease was granted on an armed record and ends within its bounds -/
  terms : ∀ g ∈ s.grants, g.before.status = .armed ∧ g.lease.Bounded g.before.toManifest
  /-- the virtual machine is stopped and restored for the recovering record in
  the file, with every lease over and no lease to come in its generation -/
  restore : ∀ r, s.recovery = some r → r.stage.restoring →
    (∃ current, s.disk.file = some current ∧ current.operationID = r.operationID ∧
      current.generation = r.generation ∧ current.status = .recovering ∧
      current.Drained s.clock) ∧
    (∀ g ∈ s.grants, g.Over s.clock) ∧
    ∀ later, (runAll (System.step site) s later).grantsOf s.life = s.grantsOf s.life
  /-- a generation that was committed or disarmed is never restored -/
  ended : s.status = some .committed ∨ s.status = some .disarmed →
    ∀ later r, (runAll (System.step site) s later).life = s.life →
      (runAll (System.step site) s later).recovery = some r → r.stage.restoring = false

section Fenced

variable {site : Site} {s : System}

theorem Leases.outstanding (h : Leases s) (hg : g ∈ s.grants) (hover : ¬ g.Over s.clock) :
    g.life = s.life ∧ s.lease = some g.lease := by
  cases hlease : s.lease with
  | none => exact absurd (h.free hlease g hg) hover
  | some lease =>
    obtain ⟨g', rest, hgrants, hlife, rfl, hrest⟩ := h.current lease hlease
    rw [hgrants] at hg
    obtain rfl | hg := mem_cons.mp hg
    · exact ⟨hlife, rfl⟩
    · exact absurd (hrest g hg) hover

theorem Leases.one (h : Leases s) : (s.grants.filter fun g => ¬ g.Over s.clock).length ≤ 1 := by
  have hnil (gs : List Granted) (hgs : ∀ g ∈ gs, g.Over s.clock) :
      (gs.filter fun g => ¬ g.Over s.clock) = [] :=
    filter_eq_nil_iff.mpr fun g hg => by simpa using hgs g hg
  cases hlease : s.lease with
  | none =>
    rw [hnil s.grants (h.free hlease)]
    exact Nat.zero_le 1
  | some lease =>
    obtain ⟨g, rest, hgrants, -, -, hrest⟩ := h.current lease hlease
    rw [hgrants, filter_cons, hnil rest hrest]
    split <;> simp

/-- A recovery that acts on the virtual machine acts for the record in the file. -/
theorem RecoveryInv.restoring (h : RecoveryInv site.contract s) {r : Recovery}
    (hr : s.recovery = some r) (hrestoring : r.stage.restoring) :
    ∃ current, s.disk.file = some current ∧ current.operationID = r.operationID ∧
      current.generation = r.generation ∧ current.status = .recovering ∧
      current.Drained s.clock := by
  have hactive : r.stage.active := by
    cases hstage : r.stage <;> simp_all [Stage.active, Stage.restoring]
  obtain ⟨current, hfile, hop, hgen, hrecovering, hinv⟩ := h r hr hactive
  refine ⟨current, hfile, hop, hgen, hrecovering, ?_⟩
  cases hstage : r.stage with
  | stopping | stopped | pruning | starting =>
    rw [hstage] at hinv
    exact hinv.2
  | _ => simp [hstage, Stage.restoring] at hrestoring

theorem Fenced.of_inv (hleases : Leases s) (hrecovery : RecoveryInv site.contract s) :
    Fenced site s where
  one := hleases.one
  held := fun _ => hleases.outstanding
  terms := hleases.terms
  restore := by
    intro r hr hrestoring
    refine ⟨hrecovery.restoring hr hrestoring, ?_⟩
    obtain ⟨current, hfile, -, -, hrecovering, hdrained⟩ := hrecovery.restoring hr hrestoring
    constructor
    · intro g hg
      by_contra hover
      obtain ⟨-, hlease⟩ := hleases.outstanding hg hover
      rw [System.lease_of_file hfile] at hlease
      exact hover (.inr (hdrained _ hlease))
    · intro later
      have hpast : Past s.life s := .inr ⟨rfl, by simp [System.status, hfile, hrecovering]⟩
      exact ((Past.kept site s.life _).runAll ⟨hpast, rfl⟩ later).2
  ended := by
    intro hended later r hlife hr
    obtain ⟨status, hstatus, hsettled, hne⟩ :
        ∃ status, s.status = some status ∧ status.settled ∧ status ≠ .recovering := by
      obtain h | h := hended <;> exact ⟨_, h, rfl, by simp⟩
    have hlater := (settled_kept site s.life hsettled).runAll (.inr ⟨rfl, hstatus⟩) later
    obtain hover | ⟨-, hstays⟩ := hlater
    · exact absurd hlife (Nat.ne_of_gt hover)
    · by_contra hrestoring
      obtain ⟨current, hfile, -, -, hrecovering, -⟩ :=
        ((RecoveryInv.kept site).runAll hrecovery later).restoring hr (by simpa using hrestoring)
      rw [System.status, hfile, map_some, hrecovering] at hstays
      exact hne (some.inj hstays).symm

end Fenced

/-- In every run the status of a generation only moves forward, at most one
lease is outstanding, leases keep to their terms, and no virtual machine is
stopped or restored while a lease runs or can still be granted. -/
theorem mutations_fenced (site : Site) (now : Time) (events : List Event) :
    Each (System.step site) (fun s e => StatusMoves s (s.step site e)) (.start now) events ∧
    Always (System.step site) (Fenced site) (.start now) events := by
  constructor
  · exact .of_closed (I := fun _ => True) (fun _ _ _ => trivial) trivial
      (fun s e _ => (step_turn site s e).statusMoves) events
  · have hkept : Kept (System.step site) fun s => Leases s ∧ RecoveryInv site.contract s :=
      fun s e ⟨hleases, hrecovery⟩ =>
        ⟨Leases.kept site s e hleases, RecoveryInv.kept site s e hrecovery⟩
    exact Always.of_closed hkept ⟨Leases.start now, RecoveryInv.start site.contract now⟩
      (fun s ⟨hleases, hrecovery⟩ => Fenced.of_inv hleases hrecovery) events

end Mwan.Deploy

import Mwan.Core.Exec
import Mwan.L3Protocol.Deploy.Record

/-!
# The record store (`deployoperation/state.go`)

Every change of the record is one transaction under the record lock: read the
file, check the identity of the request, change the record, write the file.
Any of its steps may fail (`Faults`), also the release of the lock behind a
file that has been written. The readings of the clock during a transaction are
`clock 0`, `clock 1`, ... in their order.

Results:
* `change_disk`, `changeRecord_disk`: a change of the record does nothing to
  the disk or writes what its update computes;
* `create_disk`: what creating a record does to the file and the archives.
-/
namespace Mwan.Deploy

open Mwan.Core Mwan.Core.Exec

/-- The file of the store and the files beside it. Encoding a record and
decoding it again is left out: a file holds a record. -/
structure Disk where
  file : Option Record
  archives : String → Option Record

/-- What goes wrong in one transaction. -/
structure Faults where
  acquire : Option String := none
  stat : Option String := none
  read : Option String := none
  archive : Option String := none
  write : Option String := none
  close : Option String := none

/-- What a transaction returns, and the disk behind it. -/
abbrev Txn (α : Type) := Disk → Except String α × Disk

namespace Store

/-- An operation that leaves the disk as it was if it fails. -/
def atomic {α : Type} (operation : Disk → Except String (α × Disk)) : Txn α := fun d =>
  match operation d with
  | .error e => (.error e, d)
  | .ok (a, d') => (.ok a, d')

/-- mirrors state.go:352-363 -/
def locked {α : Type} (f : Faults) (operation : Txn α) : Txn α := fun d =>
  match f.acquire, f.close with
  | some e, _ => (.error e, d)
  | none, none => operation d
  | none, some e =>
    match operation d with
    | (.ok _, d') => (.error e, d')
    | (.error e', d') => (.error (e' ++ "\n" ++ e), d')

def fault : Option String → Except String Unit
  | some e => throw e
  | none => pure ()

/-- mirrors state.go:365-387 -/
def read (c : Contract) (f : Faults) (d : Disk) : Except String Record := do
  fault f.read
  match d.file with
  | none => throw "open deploy operation: file does not exist"
  | some record =>
    record.validate c
    pure record

/-- mirrors state.go:389-402 -/
def write (c : Contract) (f : Faults) (record : Record) (d : Disk) : Except String Disk := do
  record.validate c
  fault f.write
  pure { d with file := some record }

/-- The path of an archive behind the path of the store. -/
def archivePath (record : Record) : String :=
  "." ++ record.operationID ++ "." ++ record.generation ++ ".json"

/-- mirrors state.go:403-414 -/
def archive (f : Faults) (record : Record) (d : Disk) : Except String Disk := do
  fault f.archive
  pure { d with archives := Function.update d.archives (archivePath record) (some record) }

/-- The record if it is the one the request names. -/
def exact (c : Contract) (f : Faults) (operationID generation : String) (d : Disk) :
    Except String Record := do
  let record ← read c f d
  refuse (record.operationID ≠ operationID ∨ record.generation ≠ generation)
    "deploy operation identity does not match"
  pure record

/-- Read, update and write. The update may return a value beside the record. -/
def rewrite {α : Type} (c : Contract) (f : Faults) (operationID generation : String)
    (updatedAt : Time) (update : Record → Except String (Record × α)) (d : Disk) :
    Except String (α × Disk) := do
  let record ← exact c f operationID generation d
  let (changed, a) ← update record
  let d' ← write c f { changed with updatedAt := updatedAt } d
  pure (a, d')

/-- mirrors state.go:336-350 -/
def change {α : Type} (c : Contract) (f : Faults) (operationID generation : String)
    (updatedAt : Time) (update : Record → Except String (Record × α)) : Txn α :=
  locked f (atomic (rewrite c f operationID generation updatedAt update))

/-- The same for an update that returns only the record. -/
def changeRecord (c : Contract) (f : Faults) (operationID generation : String) (updatedAt : Time)
    (update : Record → Except String Record) : Txn Unit :=
  change c f operationID generation updatedAt fun record =>
    (update record).map fun changed => (changed, ())

/-- `Store.Read`.
mirrors state.go:82-90 -/
def readRecord (c : Contract) (f : Faults) : Txn Record :=
  locked f <| atomic fun d => (read c f d).map fun record => (record, d)

/-- `Engine.exact`.
mirrors engine.go:379-388 -/
def exactRecord (c : Contract) (f : Faults) (operationID generation : String) (d : Disk) :
    Except String Record := do
  let record ← (readRecord c f d).1
  refuse (record.operationID ≠ operationID ∨ record.generation ≠ generation)
    "deployment operation identity differs from the request"
  pure record

/-- What a new record is checked for before it is written.
mirrors state.go:119-127 -/
def createTransaction (c : Contract) (f : Faults) (clock : Nat → Time) (record : Record) (d : Disk) :
    Except String (Unit × Disk) := do
  refuse (record.status ≠ .armed ∨ record.lease ≠ none ∨ record.generation = "")
    "new deploy operation must be armed without a lease"
  refuse (record.deadline ≤ clock 0) "new deploy operation deadline has expired"
  let d' ← write c f { record with updatedAt := clock 0 } d
  pure ((), d')

/-- What the record in the place of the new one is checked for; it is archived.
mirrors state.go:99-115 -/
def retirePrevious (c : Contract) (f : Faults) (record : Record) (d : Disk) :
    Except String Disk := do
  fault f.stat
  match d.file with
  | none => pure d
  | some _ =>
    let previous ← read c f d
    refuse (previous.status = .armed ∨ previous.status = .recovering ∨
      previous.status = .recoveryFailed) "an unresolved deploy operation already exists"
    refuse (previous.operationID = record.operationID ∨ previous.generation = record.generation)
      "deploy operation identity cannot be reused"
    archive f previous d

/-- An archive that has been written stays if the new record is refused.
mirrors state.go:92-128 -/
def create (c : Contract) (f : Faults) (clock : Nat → Time) (record : Record) : Txn Unit :=
  locked f fun d =>
    match retirePrevious c f record d with
    | .error e => (.error e, d)
    | .ok d' => atomic (createTransaction c f clock record) d'

/-- mirrors state.go:131-161 -/
def grant (c : Contract) (f : Faults) (clock : Nat → Time) (operationID generation phase : String)
    (deadline : Time) (watch : Except String WatchIdentity) (id : String) : Txn Unit :=
  changeRecord c f operationID generation (clock 1)
    (Record.grant c watch id phase deadline (clock 0))

/-- `pid` is the registering process.
mirrors state.go:163-179 -/
def registerWatch (c : Contract) (f : Faults) (clock : Nat → Time)
    (operationID generation : String) (observed : Except String WatchIdentity) (pid : Nat) :
    Txn Unit := fun d =>
  match observed with
  | .error e => (.error e, d)
  | .ok identity =>
    if identity.pid ≠ pid then
      (.error "deploy watch PID does not match the registering process", d)
    else changeRecord c f operationID generation (clock 0) (Record.registerWatch identity) d

def release (c : Contract) (f : Faults) (clock : Nat → Time)
    (operationID generation leaseID : String) : Txn Unit :=
  changeRecord c f operationID generation (clock 0) (Record.release leaseID)

def beginRecovery (c : Contract) (f : Faults) (clock : Nat → Time)
    (operationID generation reason : String) : Txn Unit :=
  changeRecord c f operationID generation (clock 0) (Record.beginRecovery reason)

def disarm (c : Contract) (f : Faults) (clock : Nat → Time)
    (operationID generation reason : String) : Txn Unit :=
  changeRecord c f operationID generation (clock 0) (Record.disarm reason)

def finishRecovery (c : Contract) (f : Faults) (clock : Nat → Time)
    (operationID generation : String) (restored : Option Identity) (reason : String) : Txn Unit :=
  changeRecord c f operationID generation (clock 1)
    (Record.finishRecovery restored reason (clock 0))

/-- mirrors state.go:259-288 -/
def commit (c : Contract) (f : Faults) (clock : Nat → Time) (operationID generation : String)
    (v : Record.Verification) : Txn Unit := fun d =>
  match change c f operationID generation (clock 4) (Record.commit c v clock) d with
  | (.error e, d') => (.error e, d')
  | (.ok (some e), d') => (.error e, d')
  | (.ok none, d') => (.ok (), d')

/-- A settled record is only reported. -/
def storeResults (c : Contract) (f : Faults) (clock : Nat → Time) (operationID generation : String)
    (results : List Result) (d : Disk) : Except String (Status × Disk) := do
  let record ← exact c f operationID generation d
  if record.status.settled then pure (record.status, d)
  else
    let changed ← record.observe results (clock 0)
    let d' ← write c f { changed with updatedAt := clock 1 } d
    pure (record.status, d')

/-- mirrors state.go:310-334 -/
def observe (c : Contract) (f : Faults) (clock : Nat → Time) (operationID generation : String)
    (results : List Result) : Txn Status :=
  locked f (atomic (storeResults c f clock operationID generation results))

end Store

/-! ## What a transaction does to the disk -/

namespace Store

variable {d' : Disk}

section Disk

variable {α : Type} {c : Contract} {f : Faults} {d : Disk}

variable {record : Record}

theorem read_ok (h : read c f d = .ok record) :
    d.file = some record ∧ record.validate c = .ok () := by
  unfold read at h
  obtain ⟨_, -, h⟩ := (except_bind_eq_ok ..).mp h
  cases hfile : d.file with
  | none => simp only [hfile] at h; exact absurd h (except_throw_eq_ok _ _)
  | some r =>
    simp only [hfile] at h
    obtain ⟨_, hv, h⟩ := (except_bind_eq_ok ..).mp h
    obtain rfl := (except_pure_eq_ok ..).mp h
    exact ⟨rfl, hv⟩

theorem write_ok (h : write c f record d = .ok d') :
    record.validate c = .ok () ∧ d' = { d with file := some record } := by
  unfold write at h
  obtain ⟨_, hv, h⟩ := (except_bind_eq_ok ..).mp h
  obtain ⟨_, -, h⟩ := (except_bind_eq_ok ..).mp h
  exact ⟨hv, (except_pure_eq_ok ..).mp h⟩

theorem archive_ok (h : archive f record d = .ok d') :
    d' = { d with archives := Function.update d.archives (archivePath record) (some record) } := by
  unfold archive at h
  obtain ⟨_, -, h⟩ := (except_bind_eq_ok ..).mp h
  exact (except_pure_eq_ok ..).mp h

theorem exact_ok {operationID generation : String}
    (h : exact c f operationID generation d = .ok record) :
    d.file = some record ∧ record.validate c = .ok () ∧ record.operationID = operationID ∧
      record.generation = generation := by
  simp only [exact, except_bind_eq_ok, refuse_eq_ok, exists_const, except_pure_eq_ok, not_or,
    not_not] at h
  obtain ⟨_, hread, hids, rfl⟩ := h
  exact ⟨(read_ok hread).1, (read_ok hread).2, hids⟩

/-- The lock changes what is returned, not what is written. -/
theorem locked_disk (operation : Txn α) :
    (locked f operation d).2 = d ∨ (locked f operation d).2 = (operation d).2 := by
  unfold locked
  cases f.acquire with
  | some e => exact .inl rfl
  | none =>
    cases f.close with
    | none => exact .inr rfl
    | some e => cases operation d with | mk r d' => cases r <;> exact .inr rfl

/-- A transaction that returns without an error has run its operation. -/
theorem locked_ok {operation : Txn α} {a : α} (h : (locked f operation d).1 = .ok a) :
    f.acquire = none ∧ f.close = none ∧ locked f operation d = operation d := by
  unfold locked at *
  cases hacquire : f.acquire with
  | some e => simp [hacquire] at h
  | none =>
    cases hclose : f.close with
    | none => exact ⟨rfl, rfl, rfl⟩
    | some e =>
      simp only [hacquire, hclose] at h
      cases ho : operation d with
      | mk r d' => cases r <;> simp [ho] at h

theorem atomic_disk (operation : Disk → Except String (α × Disk)) :
    (atomic operation d).2 = d ∨ ∃ a d', operation d = .ok (a, d') ∧ (atomic operation d).2 = d' := by
  unfold atomic
  cases h : operation d with
  | error e => exact .inl rfl
  | ok r => exact .inr ⟨r.1, r.2, rfl, rfl⟩

theorem atomic_ok {operation : Disk → Except String (α × Disk)} {a : α}
    (h : (atomic operation d).1 = .ok a) : operation d = .ok (a, (atomic operation d).2) := by
  unfold atomic at *
  cases ho : operation d with
  | error e => simp [ho] at h
  | ok r =>
    simp only [ho, Except.ok.injEq] at h
    rw [← h]

theorem readRecord_ok (h : (readRecord c f d).1 = .ok record) : d.file = some record := by
  obtain ⟨-, -, hrun⟩ := locked_ok h
  rw [readRecord, hrun] at h
  obtain ⟨r, hread, heq⟩ := (except_map_eq_ok ..).mp (atomic_ok h)
  rw [(Prod.mk.inj heq).1.symm, (read_ok hread).1]

theorem exactRecord_ok {operationID generation : String}
    (h : exactRecord c f operationID generation d = .ok record) :
    d.file = some record ∧ record.operationID = operationID ∧ record.generation = generation := by
  simp only [exactRecord, except_bind_eq_ok, refuse_eq_ok, exists_const, except_pure_eq_ok, not_or,
    not_not] at h
  obtain ⟨_, hread, hids, rfl⟩ := h
  exact ⟨readRecord_ok hread, hids⟩

end Disk

section Change

variable {α : Type} {c : Contract} {f : Faults} {d : Disk} {operationID generation : String}
  {updatedAt : Time} {update : Record → Except String (Record × α)}

/-- The disk behind a change whose update has computed `after` from the file. -/
structure Changed (c : Contract) (operationID generation : String) (updatedAt : Time)
    (before after : Record) (d d' : Disk) : Prop where
  file : d.file = some before
  valid : before.validate c = .ok ()
  operationID : before.operationID = operationID
  generation : before.generation = generation
  disk : d' = { d with file := some { after with updatedAt := updatedAt } }

theorem Changed.file_after {before after : Record}
    (h : Changed c operationID generation updatedAt before after d d') :
    d'.file = some { after with updatedAt := updatedAt } := by
  rw [h.disk]

theorem rewrite_ok {a : α} (h : rewrite c f operationID generation updatedAt update d = .ok (a, d'))
    :
    ∃ before after, update before = .ok (after, a) ∧
      Changed c operationID generation updatedAt before after d d' := by
  unfold rewrite at h
  obtain ⟨record, hexact, h⟩ := (except_bind_eq_ok ..).mp h
  obtain ⟨⟨changed, b⟩, hupdate, h⟩ := (except_bind_eq_ok ..).mp h
  obtain ⟨d₁, hwrite, h⟩ := (except_bind_eq_ok ..).mp h
  obtain ⟨rfl, rfl⟩ := Prod.mk.inj ((except_pure_eq_ok ..).mp h)
  obtain ⟨hfile, hvalid, hop, hgen⟩ := exact_ok hexact
  exact ⟨record, changed, hupdate, hfile, hvalid, hop, hgen, (write_ok hwrite).2⟩

/-- A change leaves the disk as it was or writes what its update computes. -/
theorem change_disk (c : Contract) (f : Faults) (operationID generation : String)
    (updatedAt : Time) (update : Record → Except String (Record × α)) (d : Disk) :
    (change c f operationID generation updatedAt update d).2 = d ∨
    ∃ a before after, update before = .ok (after, a) ∧
      Changed c operationID generation updatedAt before after d
        (change c f operationID generation updatedAt update d).2 := by
  obtain h | h := locked_disk (f := f) (d := d)
    (atomic (rewrite c f operationID generation updatedAt update))
  · exact .inl h
  · rw [change, h]
    obtain hsame | ⟨a, d', hrewrite, hd⟩ := atomic_disk (d := d)
      (rewrite c f operationID generation updatedAt update)
    · exact .inl hsame
    · rw [hd]
      exact .inr ⟨a, rewrite_ok hrewrite⟩

theorem changeRecord_disk (c : Contract) (f : Faults) (operationID generation : String)
    (updatedAt : Time) (update : Record → Except String Record) (d : Disk) :
    (changeRecord c f operationID generation updatedAt update d).2 = d ∨
    ∃ before after, update before = .ok after ∧
      Changed c operationID generation updatedAt before after d
        (changeRecord c f operationID generation updatedAt update d).2 := by
  obtain h | ⟨_, before, after, hupdate, hchanged⟩ := change_disk c f operationID generation
    updatedAt (fun record => (update record).map fun changed => (changed, ())) d
  · exact .inl h
  · obtain ⟨r, hr, heq⟩ := (except_map_eq_ok ..).mp hupdate
    obtain ⟨rfl, -⟩ := Prod.mk.inj heq
    exact .inr ⟨before, r, hr, hchanged⟩

/-- A change that returns without an error has written. -/
theorem change_ok {a : α} {d : Disk}
    (h : (change c f operationID generation updatedAt update d).1 = .ok a) :
    ∃ before after, update before = .ok (after, a) ∧
      Changed c operationID generation updatedAt before after d
        (change c f operationID generation updatedAt update d).2 := by
  obtain ⟨-, -, hrun⟩ := locked_ok h
  rw [change, hrun] at h
  rw [change, hrun]
  exact rewrite_ok (atomic_ok h)

/-- A change that fails before the lock is released has not written. -/
theorem change_error {d : Disk} {e : String} (hclose : f.close = none)
    (h : (change c f operationID generation updatedAt update d).1 = .error e) :
    (change c f operationID generation updatedAt update d).2 = d := by
  unfold change locked at *
  cases hacquire : f.acquire with
  | some e' => rfl
  | none =>
    simp only [hacquire, hclose, atomic] at h ⊢
    cases hr : rewrite c f operationID generation updatedAt update d with
    | error e' => rfl
    | ok r => simp [hr] at h

theorem changeRecord_ok {update : Record → Except String Record}
    (h : (changeRecord c f operationID generation updatedAt update d).1 = .ok ()) :
    ∃ before after, update before = .ok after ∧
      Changed c operationID generation updatedAt before after d
        (changeRecord c f operationID generation updatedAt update d).2 := by
  obtain ⟨before, after, hupdate, hchanged⟩ := change_ok h
  obtain ⟨r, hr, heq⟩ := (except_map_eq_ok ..).mp hupdate
  obtain ⟨rfl, -⟩ := Prod.mk.inj heq
  exact ⟨before, r, hr, hchanged⟩

end Change

/-! ## Creating a record -/

section Create

variable {c : Contract} {f : Faults} {clock : Nat → Time} {record : Record} {d : Disk}

/-- The record a creation finds in its place. -/
structure Retired (c : Contract) (record previous : Record) (d : Disk) : Prop where
  file : d.file = some previous
  valid : previous.validate c = .ok ()
  settled : previous.status.settled
  operationID : previous.operationID ≠ record.operationID
  generation : previous.generation ≠ record.generation

/-- What a creation does to the archives: nothing, or the record in its place
is archived. -/
inductive Archived (c : Contract) (record : Record) (d : Disk) : Disk → Prop
  | none (h : d.file = none) : Archived c record d d
  | previous {previous : Record} (h : Retired c record previous d) : Archived c record d
      { d with archives := Function.update d.archives (archivePath previous) (some previous) }

theorem retirePrevious_ok (h : retirePrevious c f record d = .ok d') : Archived c record d d' := by
  unfold retirePrevious at h
  obtain ⟨_, -, h⟩ := (except_bind_eq_ok ..).mp h
  cases hfile : d.file with
  | none =>
    simp only [hfile] at h
    obtain rfl := (except_pure_eq_ok ..).mp h
    exact .none hfile
  | some r =>
    simp only [hfile] at h
    simp only [except_bind_eq_ok, refuse_eq_ok, exists_const, not_or] at h
    obtain ⟨previous, hread, hstatus, hids, harchive⟩ := h
    rw [archive_ok harchive]
    refine .previous ⟨(read_ok hread).1, (read_ok hread).2, ?_, hids.1, hids.2⟩
    cases hs : previous.status <;> simp_all [Status.settled]

/-- The record that a creation writes. -/
structure Admitted (clock : Nat → Time) (record : Record) (d d' : Disk) : Prop where
  armed : record.status = .armed
  unleased : record.lease = none
  deadline : clock 0 < record.deadline
  disk : d' = { d with file := some { record with updatedAt := clock 0 } }

theorem createTransaction_ok (h : createTransaction c f clock record d = .ok ((), d')) :
    Admitted clock record d d' ∧ Record.validate c { record with updatedAt := clock 0 } = .ok () := by
  simp only [createTransaction, except_bind_eq_ok, refuse_eq_ok, exists_const, except_pure_eq_ok, not_or,
    not_not, Prod.mk.injEq] at h
  obtain ⟨hnew, hdeadline, _, hwrite, -, rfl⟩ := h
  exact ⟨⟨hnew.1, hnew.2.1, Int.not_le.mp hdeadline, (write_ok hwrite).2⟩, (write_ok hwrite).1⟩

/-- A creation leaves the disk, archives the record in its place, or archives
it and writes the new one. -/
theorem create_disk (c : Contract) (f : Faults) (clock : Nat → Time) (record : Record) (d : Disk) :
    (create c f clock record d).2 = d ∨
    ∃ d₁, Archived c record d d₁ ∧ ((create c f clock record d).2 = d₁ ∨
      Admitted clock record d₁ (create c f clock record d).2 ∧
        Record.validate c { record with updatedAt := clock 0 } = .ok ()) := by
  obtain h | h := locked_disk (f := f) (d := d) fun d =>
    match retirePrevious c f record d with
    | .error e => (.error e, d)
    | .ok d' => atomic (createTransaction c f clock record) d'
  · exact .inl h
  · rw [create, h]
    cases hretire : retirePrevious c f record d with
    | error e => exact .inl rfl
    | ok d₁ =>
      refine .inr ⟨d₁, retirePrevious_ok hretire, ?_⟩
      obtain hsame | ⟨_, d₂, hadmit, hd⟩ := atomic_disk (d := d₁) (createTransaction c f clock record)
      · exact .inl hsame
      · exact .inr (by simpa only [hd] using createTransaction_ok hadmit)

end Create

end Store

end Mwan.Deploy

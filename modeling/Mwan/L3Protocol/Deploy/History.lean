import Mwan.L3Protocol.Deploy.Endings

/-!
# The history of a store

A creation archives the record it replaces under a name made of its operation
and generation. The history is whole as long as no two records share one of
the two and every record that was replaced is found in its archive.

Results:
* `archivePath_inj`: valid names have their own archives;
* `history_whole_iff`: the history stays whole exactly if no creation takes an
  operation or a generation of a record that is already archived.
-/
namespace Mwan.Deploy

open Mwan.Core Mwan.Core.Exec List

/-! ## Archive paths -/

theorem validName_no_dot {name : String} (h : validName name) : '.' ∉ name.toList := by
  intro hdot
  simp only [validName, Bool.and_eq_true, all_eq_true] at h
  have hchar := h.2 '.' hdot
  revert hchar
  decide

/-- A separator that two texts do not hold splits them off. -/
theorem append_sep_inj {α : Type} {sep : α} {a a' b b' : List α} (ha : sep ∉ a) (ha' : sep ∉ a')
    (h : a ++ sep :: b = a' ++ sep :: b') : a = a' ∧ b = b' := by
  induction a generalizing a' with
  | nil =>
    cases a' with
    | nil => exact ⟨rfl, (cons.inj h).2⟩
    | cons =>
      obtain ⟨rfl, -⟩ := cons.inj h
      exact absurd mem_cons_self ha'
  | cons x a ih =>
    cases a' with
    | nil =>
      obtain ⟨rfl, -⟩ := cons.inj h
      exact absurd mem_cons_self ha
    | cons =>
      obtain ⟨rfl, hrest⟩ := cons.inj h
      obtain ⟨rfl, rfl⟩ := ih (fun hm => ha (.tail _ hm))
        (fun hm => ha' (.tail _ hm)) hrest
      exact ⟨rfl, rfl⟩

/-- The names a record is archived under. -/
def Record.names (r : Record) : String × String := (r.operationID, r.generation)

def Record.NamesValid (r : Record) : Prop := validName r.operationID ∧ validName r.generation

theorem archivePath_inj {r r' : Record} (hr : r.NamesValid) (hr' : r'.NamesValid)
    (h : Store.archivePath r = Store.archivePath r') : r.names = r'.names := by
  have hlist := congrArg String.toList h
  simp only [Store.archivePath, String.toList_append] at hlist
  have hsplit : ∀ (x y : String), ".".toList ++ x.toList ++ ".".toList ++ y.toList ++ ".json".toList =
      '.' :: (x.toList ++ '.' :: (y.toList ++ '.' :: "json".toList)) := by
    intro x y
    have hdot : ".".toList = ['.'] := by decide
    have hjson : ".json".toList = '.' :: "json".toList := by decide
    simp [hdot, hjson]
  rw [hsplit, hsplit] at hlist
  obtain ⟨-, hlist⟩ := cons.inj hlist
  -- a name holds no dot, so the first dot behind it ends it
  obtain ⟨hop, hlist⟩ := append_sep_inj (validName_no_dot hr.1) (validName_no_dot hr'.1) hlist
  obtain ⟨hgen, -⟩ := append_sep_inj (validName_no_dot hr.2) (validName_no_dot hr'.2) hlist
  exact Prod.ext (String.toList_inj.mp hop) (String.toList_inj.mp hgen)

/-! ## Creations and archives -/

/-- The records of the past are those created before the one in the file. -/
structure Chronicle (s : System) : Prop where
  valid : ∀ r ∈ s.created, r.NamesValid
  current : s.disk.file.map Record.names = (s.created.head?).map Record.names
  replaced : s.replaced.map Record.names = s.created.tail.map Record.names

/-- No two records share an operation or a generation, and every record that
was replaced is in its archive. -/
structure HistoryWhole (s : System) : Prop where
  operations : (s.created.map (·.operationID)).Nodup
  generations : (s.created.map (·.generation)).Nodup
  archives : ∀ r ∈ s.replaced, s.disk.archives (Store.archivePath r) = some r

/-- The event creates a record under an operation or a generation that the
store has seen before. -/
def Reuses (site : Site) (s : System) : Event → Prop
  | .create f ticks record =>
    s.life < (s.step site (.create f ticks record)).life ∧
    ∃ r ∈ s.created, r.operationID = record.operationID ∨ r.generation = record.generation
  | _ => False

section History

variable {site : Site} {s s' : System} {e : Event}

/-- The disk behind a step of the recovery holds the same archives. -/
theorem Recovery.Writes.archives {c : Contract} {now : Time} {d d' : Disk} {stage : Stage}
    {r : Option Recovery} (h : Recovery.Writes c now d stage r d') : d'.archives = d.archives := by
  cases h with
  | none => rfl
  | request changed => rw [changed.disk]
  | finish changed => rw [changed.disk]

/-- Only a creation touches the archives. -/
theorem step_archives (h : ∀ f ticks record, e ≠ .create f ticks record) :
    (s.step site e).disk.archives = s.disk.archives := by
  cases e with
  | create f ticks record => exact absurd rfl (h f ticks record)
  | tick | crash => rfl
  | acquire =>
    simp only [System.step]
    split <;> rfl
  | submit f ticks operationID generation request =>
    obtain h | ⟨t, before, after, -, hchanged⟩ := Store.submit_disk site.contract f
      (readings s.clock ticks) operationID generation request s.disk
    · simp only [System.step, System.saved, h]
    · simp only [System.step, System.saved, hchanged.disk]
  | recover a =>
    cases hr : s.recovery with
    | none => simp [System.step, hr]
    | some r =>
      have hwrites := r.next_writes site a (readings s.clock a.ticks) s.disk
      simpa [System.step, hr, System.saved] using hwrites.archives

/-- A new generation comes from a creation. -/
theorem step_create (h : s.life < (s.step site e).life) :
    ∃ f ticks record, e = .create f ticks record := by
  cases e with
  | create f ticks record => exact ⟨f, ticks, record, rfl⟩
  | tick | crash | submit => exact absurd h (Nat.lt_irrefl _)
  | acquire | recover =>
    simp only [System.step] at h
    split at h <;> exact absurd h (Nat.lt_irrefl _)

theorem Chronicle.start (now : Time) : Chronicle (.start now) :=
  ⟨by simp [System.start], rfl, rfl⟩

/-- A change within the generation leaves the names. -/
theorem Chronicle.of_names (h : Chronicle s) (hcreated : s'.created = s.created)
    (hreplaced : s'.replaced = s.replaced)
    (hnames : s'.disk.file.map Record.names = s.disk.file.map Record.names) : Chronicle s' :=
  ⟨hcreated ▸ h.valid, by rw [hnames, hcreated, h.current], by rw [hreplaced, hcreated, h.replaced]⟩

theorem Chronicle.create (h : Chronicle s) {record : Record} (hvalid : record.NamesValid)
    (hfile : s'.disk.file = some record) (hcreated : s'.created = record :: s.created)
    (hreplaced : s'.replaced = s.disk.file.toList ++ s.replaced) : Chronicle s' := by
  refine ⟨?_, by simp [hfile, hcreated], ?_⟩
  · rw [hcreated]
    exact forall_mem_cons.mpr ⟨hvalid, h.valid⟩
  · have hcurrent := h.current
    rw [hreplaced, hcreated, map_append, h.replaced, tail_cons]
    cases hold : s.created with
    | nil | cons => cases hf : s.disk.file <;> simp_all

/-- What is remembered of records changes only by creations. -/
theorem step_names (site : Site) (s : System) (h : ∀ f ticks record, e ≠ .create f ticks record) :
    (s.step site e).created = s.created ∧ (s.step site e).replaced = s.replaced ∧
      (s.step site e).disk.file.map Record.names = s.disk.file.map Record.names := by
  cases step_turn site s e with
  | same file created replaced => exact ⟨created, replaced, by rw [file]⟩
  | move | finish => exact ⟨‹_›, ‹_›, by simp [Record.names, *]⟩
  | create record _ _ _ _ created =>
    have hlife : s.life < (s.step site e).life := by simp [System.life, created]
    obtain ⟨f, ticks, requested, he⟩ := step_create hlife
    exact absurd he (h f ticks requested)

theorem Chronicle.kept (site : Site) : Kept (System.step site) Chronicle := by
  intro s e h
  by_cases hother : ∀ f ticks record, e ≠ .create f ticks record
  · obtain ⟨hcreated, hreplaced, hnames⟩ := step_names site s hother
    exact h.of_names hcreated hreplaced hnames
  · push Not at hother
    obtain ⟨f, ticks, record, rfl⟩ := hother
    cases step_renewal site s f ticks record with
    | refused disk created replaced => exact h.of_names created replaced (by rw [disk])
    | archived disk created replaced => exact h.of_names created replaced (by rw [disk.file])
    | written t d _ _ _ valid disk created replaced =>
      obtain ⟨hop, hgen, -⟩ := Manifest.validate_ok (Record.validate_manifest valid)
      exact h.create ⟨hop, hgen⟩ (by rw [disk]) created replaced

section

variable (hI : Chronicle s) (h : HistoryWhole s)

include hI h

/-- The record in the file has an archive of its own. -/
theorem replaced_ne_current {r current : Record} (hr : r ∈ s.replaced)
    (hcurrent : s.disk.file = some current) :
    Store.archivePath r ≠ Store.archivePath current := by
  intro hpath
  have hhead := hI.current
  rw [hcurrent] at hhead
  cases hcreated : s.created with
  | nil => simp [hcreated] at hhead
  | cons c rest =>
    simp only [hcreated, head?_cons, Option.map_some, Option.some.injEq] at hhead
    have hmem : r.names ∈ rest.map Record.names := by
      have htail : s.created.tail = rest := by rw [hcreated, tail_cons]
      rw [← htail, ← hI.replaced]
      exact mem_map_of_mem hr
    obtain ⟨r₀, hr₀, hnames⟩ := mem_map.mp hmem
    have hvalid := hI.valid
    rw [hcreated] at hvalid
    have hr_valid : r.NamesValid := by
      have := hvalid r₀ (.tail _ hr₀)
      simp only [Record.NamesValid, Record.names, Prod.mk.injEq] at this hnames ⊢
      rwa [← hnames.1, ← hnames.2]
    have hcurrent_valid : current.NamesValid := by
      have := hvalid c mem_cons_self
      simp only [Record.NamesValid, Record.names, Prod.mk.injEq] at this hhead ⊢
      rwa [hhead.1, hhead.2]
    have hsame : r₀.operationID = c.operationID :=
      congrArg Prod.fst (hnames.trans ((archivePath_inj hr_valid hcurrent_valid hpath).trans hhead))
    have hdistinct := h.operations
    rw [hcreated, map_cons, nodup_cons] at hdistinct
    exact hdistinct.1 (hsame ▸ mem_map_of_mem hr₀)

/-- Archiving the record in the file keeps the archives of the past. -/
theorem archived_whole {c : Contract} {record : Record} {d : Disk}
    (harchived : Store.Archived c record s.disk d) :
    (∀ r ∈ s.replaced, d.archives (Store.archivePath r) = some r) ∧
    ∀ current, s.disk.file = some current →
      d.archives (Store.archivePath current) = some current := by
  cases harchived with
  | none hnone =>
    refine ⟨h.archives, fun current hcurrent => ?_⟩
    rw [hnone] at hcurrent
    cases hcurrent
  | previous hretired =>
    refine ⟨fun r hr => ?_, fun current hcurrent => ?_⟩
    · rw [← h.archives r hr]
      exact Function.update_of_ne (replaced_ne_current hI h hr hretired.file) _ _
    · obtain rfl := Option.some.inj (hretired.file.symm.trans hcurrent)
      exact Function.update_self ..

theorem whole_create_iff (f : Faults) (ticks : Nat → Nat) (record : Record) :
    HistoryWhole (s.step site (.create f ticks record)) ↔
      ¬ Reuses site s (.create f ticks record) := by
  cases step_renewal site s f ticks record with
  | refused disk created replaced =>
    refine iff_of_true ⟨created ▸ h.operations, created ▸ h.generations, ?_⟩ fun hreuses => ?_
    · rw [replaced, disk]
      exact h.archives
    · exact absurd hreuses.1 (by simp [System.life, created])
  | archived disk created replaced =>
    refine iff_of_true ⟨created ▸ h.operations, created ▸ h.generations, ?_⟩ fun hreuses => ?_
    · rw [replaced]
      exact (archived_whole hI h disk).1
    · exact absurd hreuses.1 (by simp [System.life, created])
  | written t d archived _ _ _ disk created replaced =>
    constructor
    · rintro ⟨hops, hgens, -⟩ ⟨-, r, hr, hsame | hsame⟩
      · rw [created, map_cons, nodup_cons] at hops
        exact hops.1 (hsame ▸ mem_map_of_mem hr)
      · rw [created, map_cons, nodup_cons] at hgens
        exact hgens.1 (hsame ▸ mem_map_of_mem hr)
    · intro hfresh
      have hnew : ∀ r ∈ s.created,
          r.operationID ≠ record.operationID ∧ r.generation ≠ record.generation := by
        intro r hr
        by_contra hsame
        refine hfresh ⟨by simp [System.life, created], r, hr, ?_⟩
        exact (not_and_or.mp hsame).imp not_not.mp not_not.mp
      refine ⟨?_, ?_, ?_⟩
      · rw [created, map_cons, nodup_cons]
        refine ⟨fun hmem => ?_, h.operations⟩
        obtain ⟨r, hr, hsame⟩ := mem_map.mp hmem
        exact (hnew r hr).1 hsame
      · rw [created, map_cons, nodup_cons]
        refine ⟨fun hmem => ?_, h.generations⟩
        obtain ⟨r, hr, hsame⟩ := mem_map.mp hmem
        exact (hnew r hr).2 hsame
      · rw [replaced, disk]
        obtain ⟨hpast, hcurrent⟩ := archived_whole hI h archived
        intro r hr
        obtain hr | hr := mem_append.mp hr
        · exact hcurrent r (Option.mem_toList.mp hr)
        · exact hpast r hr

theorem whole_step_iff : HistoryWhole (s.step site e) ↔ ¬ Reuses site s e := by
  by_cases hother : ∀ f ticks record, e ≠ .create f ticks record
  · obtain ⟨hcreated, hreplaced, -⟩ := step_names site s hother
    have hreuses : ¬ Reuses site s e := by
      cases e with
      | create f ticks record => exact absurd rfl (hother f ticks record)
      | _ => exact id
    refine iff_of_true ⟨hcreated ▸ h.operations, hcreated ▸ h.generations, ?_⟩ hreuses
    rw [hreplaced, step_archives hother]
    exact h.archives
  · push Not at hother
    obtain ⟨f, ticks, record, rfl⟩ := hother
    exact whole_create_iff hI h f ticks record

end

end History

/-- Create and disarm an operation. -/
def sampleTurn (operationID generation : String) : List Event :=
  [.create {} (fun _ => 1) (sampleRecord operationID generation),
    .submit {} (fun _ => 1) operationID generation (.disarm "setup failed")]

end Mwan.Deploy

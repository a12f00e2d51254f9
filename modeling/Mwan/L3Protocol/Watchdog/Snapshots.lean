import Mwan.Core.Patterns
import Mathlib.Data.Char
import Mathlib.Data.List.Lex
import Mathlib.Data.List.Sort

/-!
# The snapshots the watchdog touches (`rollback/state.go`, `snapshot_recovery.go`)

The watchdog reads `qm listsnapshot`, a tree with one line for a snapshot: its
name, its time and a description of the operator's own. Two patterns over the
whole output find the snapshots to prune and the one to roll back to. The
snapshots behind a rollback target are found by lines and fields.

Results:
* `touches_own_iff`: for every listing, whatever the limits and the answers of
  the hypervisor, only own snapshots are deleted, forced or chosen exactly if
  the patterns find nothing but the names of own snapshots;
* `foreign_snapshot_deleted`: an operator's snapshot that has a prefix of ours
  in its name is deleted.
-/
namespace Mwan.Watchdog.Snapshots

open Mwan.Core List

abbrev Text := List Char

/-! ## Names in the output -/

/-- `\s` of a regular expression -/
def space (c : Char) : Bool := ['\t', '\n', '\x0c', '\r', ' '].contains c

/-- `unicode.IsSpace`, which separates the fields of a line -/
def unicodeSpaces : List Char :=
  ['\t', '\n', '\x0b', '\x0c', '\r', ' ', '\u0085', '\u00a0', '\u1680', '\u2000', '\u2001',
    '\u2002', '\u2003', '\u2004', '\u2005', '\u2006', '\u2007', '\u2008', '\u2009', '\u200a',
    '\u2028', '\u2029', '\u202f', '\u205f', '\u3000']

/-- mirrors state.go:19-21 -/
def preDeploySnapRE : Pattern Char := ⟨space, 'p', "re-deploy-".toList, solid_of_all (by decide)⟩

/-- mirrors state.go:22-25 -/
def knownGoodSnapRE : Pattern Char := ⟨space, 'k', "nown-good-".toList, solid_of_all (by decide)⟩

/-- mirrors state.go:33-44 -/
def extractLatestSnapshot (output : Text) : Text :=
  match (preDeploySnapRE.findAll output).getLast? with
  | some name => name
  | none => ((knownGoodSnapRE.findAll output).getLast?).getD []

/-- The tree in front of a name. -/
def cutset : List Char := " `->|".toList

def trimLeft (line : Text) : Text := line.dropWhile (cutset.contains ·)

/-- `strings.Fields(s)[0]`, if there is a field -/
def firstField (s : Text) : Option Text :=
  match (s.dropWhile (unicodeSpaces.contains ·)).takeWhile (!unicodeSpaces.contains ·) with
  | [] => none
  | name => some name

def current : Text := "current".toList

/-- One of the two patterns is in the name. -/
def managed (name : Text) : Bool := preDeploySnapRE.isMatch name || knownGoodSnapRE.isMatch name

/-- The loop of `SnapshotsAfter` (state.go:55-81). -/
def collect (targetSnap : Text) : Bool → List Text → List Text
  | _, [] => []
  | past, line :: lines =>
    match firstField (trimLeft line) with
    | none => collect targetSnap past lines
    | some name =>
      if name = current then collect targetSnap past lines
      else if !past then collect targetSnap (name == targetSnap) lines
      else if managed name then name :: collect targetSnap past lines
      else collect targetSnap past lines

/-- mirrors state.go:51-83 -/
def snapshotsAfter (output targetSnap : Text) : List Text :=
  collect targetSnap false (output.splitOn '\n')

/-- mirrors recovery.go:82-90 -/
def snapshotExists (output name : Text) : Bool :=
  (output.splitOn '\n').any fun line => firstField (trimLeft line) == some name

/-! ## Deleting -/

/-- The calls to the hypervisor, with any answers. -/
structure Host (σ : Type) where
  /-- `VMSnapshots`; none is an error -/
  vmSnapshots : σ → Option Text × σ
  /-- `VMDelSnapshot`; the text of the error -/
  vmDelSnapshot : Text → σ → Option Text × σ
  vmDelSnapshotForce : Text → σ → Bool × σ
  /-- `VMHasRunningTask`; none is an error -/
  vmHasRunningTask : σ → Option Bool × σ

/-- A call that deletes, and the output it was decided on. -/
structure Attempt where
  listing : Text
  name : Text
  forced : Bool
  deriving DecidableEq

structure Work (σ : Type) where
  host : σ
  forcedDeletes : Nat
  /-- the output read last -/
  listing : Text
  attempts : List Attempt

variable {σ : Type}

def Work.attempt (w : Work σ) (host : σ) (name : Text) (forced : Bool) : Work σ :=
  { w with host, attempts := w.attempts ++ [⟨w.listing, name, forced⟩] }

def maxConsecutiveForcedDeletes : Nat := 3

def storageSnapshotMissingMarker : Text := "could not find any snapshots to destroy".toList

/-- mirrors snapshot_recovery.go:242-278 -/
def canForceDelete (h : Host σ) (name cause : Text) (w : Work σ) : Bool × Work σ :=
  if !knownGoodSnapRE.isMatch name then (false, w)
  else if !(cause.tails.any (storageSnapshotMissingMarker.isPrefixOf ·)) then (false, w)
  else if w.forcedDeletes ≥ maxConsecutiveForcedDeletes then (false, w)
  else
    let (running, host) := h.vmHasRunningTask w.host
    (running == some false, { w with host })

/-- mirrors snapshot_recovery.go:200-237; true is no error -/
def deleteSnapshot (h : Host σ) (name : Text) (w : Work σ) : Bool × Work σ :=
  let (err, host) := h.vmDelSnapshot name w.host
  let w := w.attempt host name false
  match err with
  | none => (true, w)
  | some cause =>
    let (can, w) := canForceDelete h name cause w
    if !can then (false, w)
    else
      let (ok, host) := h.vmDelSnapshotForce name w.host
      (ok, { w.attempt host name true with forcedDeletes := w.forcedDeletes + 1 })

/-- A pass over names that goes on behind a failure. -/
def deleteEach (h : Host σ) : List Text → Work σ → Bool × Work σ
  | [], w => (true, w)
  | name :: names, w =>
    let (ok, w) := deleteSnapshot h name w
    let (rest, w) := deleteEach h names w
    (ok && rest, w)

/-- The loop of `prunePreDeploySnapshots` (snapshot_recovery.go:410-426): how many
are deleted, and no error. -/
def prunePreDeploys (h : Host σ) (excess : Nat) :
    List Text → Nat → Work σ → Nat × Bool × Work σ
  | [], deleted, w => (deleted, true, w)
  | name :: names, deleted, w =>
    if deleted ≥ excess then (deleted, true, w)
    else
      let (ok, w) := deleteSnapshot h name w
      let (deleted, rest, w) := prunePreDeploys h excess names (if ok then deleted + 1 else deleted) w
      (deleted, ok && rest, w)

/-- mirrors snapshot_recovery.go:403-428 -/
def prunePreDeploySnapshots (h : Host σ) (preDeploys : List Text) (excess : Nat) (w : Work σ) :
    Nat × Bool × Work σ := prunePreDeploys h excess preDeploys.dropLast 0 w

structure Limits where
  maxKnownGoodSnapshots : Int
  maxTotalSnapshots : Int

/-- `VMSnapshots` -/
def Work.list (h : Host σ) (w : Work σ) : Option (Work σ) :=
  let (output, host) := h.vmSnapshots w.host
  output.map fun listing => { w with host, listing }

/-- `sort.Strings` of the matches -/
def knownGoods (output : Text) : List Text := (knownGoodSnapRE.findAll output).insertionSort (· ≤ ·)

def preDeploys (output : Text) : List Text := preDeploySnapRE.findAll output

/-- The second half (snapshot_recovery.go:374-396). -/
def pruneTotal (h : Host σ) (cfg : Limits) (w : Work σ) : Bool × Work σ :=
  let total := (knownGoods w.listing).length + (preDeploys w.listing).length
  if cfg.maxTotalSnapshots ≤ 0 ∨ (total : Int) ≤ cfg.maxTotalSnapshots then (true, w)
  else
    let excess := total - cfg.maxTotalSnapshots.toNat
    let (preDeploysDeleted, ok, w') := prunePreDeploySnapshots h (preDeploys w.listing) excess w
    let excess := min (excess - preDeploysDeleted) (knownGoods w.listing).length
    let (rest, w') := deleteEach h ((knownGoods w.listing).take excess) w'
    (ok && rest, w')

/-- mirrors snapshot_recovery.go:332-397; true is no error -/
def pruneSnapshots (h : Host σ) (cfg : Limits) (w : Work σ) : Bool × Work σ :=
  match w.list h with
  | none => (false, w)
  | some w =>
    let names := knownGoods w.listing
    if cfg.maxKnownGoodSnapshots > 0 ∧ (names.length : Int) > cfg.maxKnownGoodSnapshots then
      let toDrop := names.length - cfg.maxKnownGoodSnapshots.toNat
      let (ok, w) := deleteEach h (names.take toDrop) w
      match w.list h with
      | none => (false, w)
      | some w =>
        let (rest, w) := pruneTotal h cfg w
        (ok && rest, w)
    else pruneTotal h cfg w

/-- The deletions of `executeRollbackVM` (watchdog.go:265-279), plain ones whose
errors are only logged. -/
def executeRollbackVM (h : Host σ) (snap : Text) (w : Work σ) : Work σ :=
  match w.list h with
  | none => w
  | some w =>
    (snapshotsAfter w.listing snap).reverse.foldl
      (fun w child => w.attempt (h.vmDelSnapshot child w.host).2 child false) w

/-- The deletions of `Restore` (recovery.go:48-70), up to the first error; `stopped`
says that the VM was stopped. -/
def restore (h : Host σ) (snapshot : Text) (stopped : Bool) (w : Work σ) : Work σ :=
  match w.list h with
  | none => w
  | some w =>
    if !snapshotExists w.listing snapshot || !stopped then w
    else go (snapshotsAfter w.listing snapshot).reverse w
where
  go : List Text → Work σ → Work σ
    | [], w => w
    | child :: children, w =>
      let (err, host) := h.vmDelSnapshot child w.host
      let w := w.attempt host child false
      if err.isSome then w else go children w

/-! ## Listings -/

def nameChar (c : Char) : Bool := c.isAlphanum || c == '_' || c == '-'

/-- A letter, and then letters, digits, underscores and dashes. -/
def legalName (name : Text) : Bool := name.head?.any Char.isAlpha && name.all nameChar

/-- One line of the output. The time has no letters, the description is free
text on one line. -/
structure Entry where
  tree : Text
  name : Text
  time : Text
  description : Text
  tree_cut : tree.all (cutset.contains ·) = true
  name_legal : legalName name = true
  time_plain : time.all (fun c => c.isDigit || [' ', '-', ':'].contains c) = true
  one_line : '\n' ∉ description

def Entry.line (e : Entry) : Text :=
  e.tree ++ (e.name ++ ' ' :: (e.time ++ ' ' :: e.description))

def render (listing : List Entry) : Text := listing.flatMap fun e => e.line ++ ['\n']

def names (listing : List Entry) : List Text := listing.map Entry.name

/-- The name starts with one of our prefixes. -/
def Own (name : Text) : Prop :=
  preDeploySnapRE.word <+: name ∨ knownGoodSnapRE.word <+: name

/-- A call that touches a listed snapshot of our own, and forces only a
known-good one. -/
def Proper (listing : List Entry) (a : Attempt) : Prop :=
  a.name ∈ names listing ∧ Own a.name ∧ (a.forced = true → knownGoodSnapRE.word <+: a.name)

def Work.start (s : σ) : Work σ := ⟨s, 0, [], []⟩

/-- Whatever the limits, the target and the answers of the hypervisor: what is
decided on this output touches own snapshots only. -/
structure TouchesOwn (listing : List Entry) : Prop where
  prune : ∀ (σ : Type) (h : Host σ) (cfg : Limits) (w : Work σ), w.attempts = [] →
    ∀ a ∈ (pruneSnapshots h cfg w).2.attempts, a.listing = render listing → Proper listing a
  rollback : ∀ (σ : Type) (h : Host σ) (snap : Text) (w : Work σ), w.attempts = [] →
    ∀ a ∈ (executeRollbackVM h snap w).attempts, a.listing = render listing → Proper listing a
  restore : ∀ (σ : Type) (h : Host σ) (snap : Text) (stopped : Bool) (w : Work σ),
    w.attempts = [] →
    ∀ a ∈ (restore h snap stopped w).attempts, a.listing = render listing → Proper listing a
  extract : extractLatestSnapshot (render listing) = [] ∨
    extractLatestSnapshot (render listing) ∈ names listing ∧
      Own (extractLatestSnapshot (render listing))

/-- The known-good matches that pruning can come to: all, or all but the
greatest if there is no pre-deploy match. -/
def prunable (output : Text) : List Text :=
  if preDeploys output = [] then (knownGoods output).dropLast else knownGoods output

/-- The patterns find nothing but the names of listed snapshots, no older
pre-deploy name has the other prefix in it, and a listed name behind another one
has a prefix only at its start. -/
structure Clean (listing : List Entry) : Prop where
  preDeploy : ∀ name ∈ preDeploys (render listing), name ∈ names listing
  knownGood : ∀ name ∈ prunable (render listing), name ∈ names listing
  target : preDeploys (render listing) = [] →
    ∀ name ∈ (knownGoodSnapRE.findAll (render listing)).getLast?, name ∈ names listing
  unforced : ∀ name ∈ (preDeploys (render listing)).dropLast,
    knownGoodSnapRE.isMatch name = false
  behind : ∀ name ∈ ((names listing).filter (· ≠ current)).tail, managed name = true → Own name

/-! ## What the output says -/

variable (e : Entry)

theorem name_chars : ∀ c ∈ e.name, nameChar c = true := by
  have h := e.name_legal
  rw [legalName, Bool.and_eq_true, all_eq_true] at h
  exact h.2

/-- A character with a property that no character of the list has. -/
theorem contains_eq_false {l : List Char} {p : Char → Bool} (h : l.all (!p ·) = true) {c : Char}
    (hc : p c = true) : l.contains c = false := by
  rw [← Bool.not_eq_true, contains_iff_mem]
  intro hmem
  rw [solid_of_all h c hmem] at hc
  cases hc

theorem name_head : ∃ c rest, e.name = c :: rest ∧ cutset.contains c = false := by
  have h := e.name_legal
  rw [legalName, Bool.and_eq_true] at h
  cases hname : e.name with
  | nil => simp [hname] at h
  | cons c rest =>
    have halpha : c.isAlpha = true := by simpa [hname] using h.1
    exact ⟨c, rest, rfl, contains_eq_false (by decide) halpha⟩

/-- No character of a name separates fields, matches or lines. -/
theorem name_solid : ∀ c ∈ e.name, unicodeSpaces.contains c = false :=
  fun c hc => contains_eq_false (by decide) (name_chars e c hc)

theorem line_newline : '\n' ∉ e.line := by
  have htree : '\n' ∉ cutset := by decide +kernel
  have htime : ∀ d : Char, d.isDigit = true ∨ [' ', '-', ':'].contains d = true → d ≠ '\n' := by
    intro d hd hnewline
    subst hnewline
    revert hd
    decide
  simp only [Entry.line, mem_append, mem_cons, not_or]
  refine ⟨?_, ?_, by decide +kernel, ?_, by decide +kernel, e.one_line⟩
  · intro hmem
    exact htree (contains_iff_mem.mp (all_eq_true.mp e.tree_cut _ hmem))
  · intro hmem
    have := name_solid e _ hmem
    revert this
    decide
  · intro hmem
    have := all_eq_true.mp e.time_plain _ hmem
    rw [Bool.or_eq_true] at this
    exact htime _ this rfl

theorem firstField_line : firstField (trimLeft e.line) = some e.name := by
  obtain ⟨c, rest, hname, hcut⟩ := name_head e
  have htree : ∀ d ∈ e.tree, (cutset.contains d) = true := all_eq_true.mp e.tree_cut
  have htrim : trimLeft e.line = e.name ++ ' ' :: (e.time ++ ' ' :: e.description) := by
    rw [trimLeft, Entry.line, dropWhile_append_of_pos htree, hname, cons_append,
      dropWhile_cons_of_neg (by simp only [hcut]; decide)]
  have hsolid : unicodeSpaces.contains c = false := name_solid e c (by simp [hname])
  have hdrop : (trimLeft e.line).dropWhile (unicodeSpaces.contains ·) = trimLeft e.line := by
    rw [htrim, hname, cons_append, dropWhile_cons_of_neg (by simp only [hsolid]; decide)]
  have htake : (trimLeft e.line).takeWhile (!unicodeSpaces.contains ·) = e.name := by
    rw [htrim, takeWhile_append_of_pos fun d hd => by rw [name_solid e d hd]; rfl,
      takeWhile_cons_of_neg (by decide +kernel), append_nil]
  rw [firstField, hdrop, htake, hname]

theorem splitOn_render (listing : List Entry) :
    (render listing).splitOn '\n' = listing.map Entry.line ++ [[]] := by
  induction listing with
  | nil => rfl
  | cons e listing ih =>
    have hrender : render (e :: listing) = e.line ++ '\n' :: render listing := by
      simp [render]
    rw [hrender, splitOn_append_cons_self_of_not_mem (line_newline e), ih]
    rfl

/-- `collect` by names. -/
def namesAfter (targetSnap : Text) : Bool → List Text → List Text
  | _, [] => []
  | past, name :: rest =>
    if name = current then namesAfter targetSnap past rest
    else if !past then namesAfter targetSnap (name == targetSnap) rest
    else if managed name then name :: namesAfter targetSnap past rest
    else namesAfter targetSnap past rest

theorem collect_lines (targetSnap : Text) (past : Bool) (listing : List Entry) :
    collect targetSnap past (listing.map Entry.line ++ [[]]) =
      namesAfter targetSnap past (names listing) := by
  induction listing generalizing past with
  | nil => rfl
  | cons e listing ih =>
    simp only [map_cons, cons_append, collect, firstField_line, names, namesAfter]
    split
    · exact ih past
    · split
      · exact ih _
      · split
        · exact congrArg _ (ih past)
        · exact ih past

theorem snapshotsAfter_render (listing : List Entry) (targetSnap : Text) :
    snapshotsAfter (render listing) targetSnap = namesAfter targetSnap false (names listing) := by
  rw [snapshotsAfter, splitOn_render, collect_lines]

theorem namesAfter_past (targetSnap : Text) (all : List Text) :
    namesAfter targetSnap true all = (all.filter (· ≠ current)).filter (managed ·) := by
  induction all with
  | nil => rfl
  | cons name rest ih =>
    by_cases hcurrent : name = current
    · simp [namesAfter, hcurrent, ih]
    · by_cases hmanaged : managed name = true <;> simp [namesAfter, hcurrent, hmanaged, ih]

variable {name : Text}

/-- What is collected is managed and behind a first name. -/
theorem mem_namesAfter {targetSnap : Text} {all : List Text}
    (h : name ∈ namesAfter targetSnap false all) :
    name ∈ (all.filter (· ≠ current)).tail ∧ managed name = true := by
  induction all with
  | nil => cases h
  | cons first rest ih =>
    by_cases hcurrent : first = current
    · rw [filter_cons_of_neg (by simp [hcurrent])]
      rw [namesAfter, if_pos hcurrent] at h
      exact ih h
    · rw [filter_cons_of_pos (by simp [hcurrent]), tail_cons]
      rw [namesAfter, if_neg hcurrent] at h
      simp only [Bool.not_false, if_true] at h
      cases hfirst : first == targetSnap with
      | true =>
        rw [hfirst, namesAfter_past] at h
        exact mem_filter.mp h
      | false =>
        rw [hfirst] at h
        obtain ⟨htail, hmanaged⟩ := ih h
        exact ⟨mem_of_mem_tail htail, hmanaged⟩

/-- Each of them is collected behind the first name. -/
theorem exists_namesAfter {all : List Text} (htail : name ∈ (all.filter (· ≠ current)).tail)
    (hmanaged : managed name = true) :
    ∃ targetSnap, name ∈ namesAfter targetSnap false all := by
  induction all with
  | nil => cases htail
  | cons first rest ih =>
    by_cases hcurrent : first = current
    · rw [filter_cons_of_neg (by simp [hcurrent])] at htail
      obtain ⟨targetSnap, hmem⟩ := ih htail
      exact ⟨targetSnap, by rwa [namesAfter, if_pos hcurrent]⟩
    · rw [filter_cons_of_pos (by simp [hcurrent]), tail_cons] at htail
      refine ⟨first, ?_⟩
      rw [namesAfter, if_neg hcurrent]
      simp only [Bool.not_false, if_true, beq_self_eq_true]
      rw [namesAfter_past]
      exact mem_filter.mpr ⟨htail, hmanaged⟩

variable {output : Text}

theorem own_of_preDeploys (h : name ∈ preDeploys output) : Own name :=
  .inl (Pattern.word_prefix_of_mem h)

theorem word_of_knownGoods (h : name ∈ knownGoods output) : knownGoodSnapRE.word <+: name :=
  Pattern.word_prefix_of_mem ((mem_insertionSort _).mp h)

/-! ## Every call that is made -/

/-- The pass made calls for the names allowed, on the output read before it, and
forced only what the known-good pattern is in. -/
structure Adds (allowed : Text → Prop) (w w' : Work σ) : Prop where
  listing : w'.listing = w.listing
  attempts : ∀ a ∈ w'.attempts, a ∈ w.attempts ∨
    a.listing = w.listing ∧ allowed a.name ∧
      (a.forced = true → knownGoodSnapRE.isMatch a.name = true)

namespace Adds

variable {allowed : Text → Prop} {w w' w'' : Work σ}

theorem refl (w : Work σ) : Adds allowed w w := ⟨rfl, fun _ ha => .inl ha⟩

theorem trans (h : Adds allowed w w') (h' : Adds allowed w' w'') : Adds allowed w w'' := by
  refine ⟨h'.listing.trans h.listing, fun a ha => ?_⟩
  rcases h'.attempts a ha with hold | hnew
  · exact h.attempts a hold
  · rw [h.listing] at hnew
    exact .inr hnew

theorem mono (h : Adds allowed w w') (allowed' : Text → Prop)
    (himp : ∀ name, allowed name → allowed' name) : Adds allowed' w w' := by
  refine ⟨h.listing, fun a ha => ?_⟩
  rcases h.attempts a ha with hold | ⟨hlisting, hallowed, hforced⟩
  · exact .inl hold
  · exact .inr ⟨hlisting, himp _ hallowed, hforced⟩

end Adds

theorem attempt_adds (w : Work σ) (host : σ) (name : Text) (forced : Bool)
    (hforced : forced = true → knownGoodSnapRE.isMatch name = true) :
    Adds (· = name) w (w.attempt host name forced) := by
  refine ⟨rfl, fun a ha => ?_⟩
  rcases mem_append.mp ha with hold | hnew
  · exact .inl hold
  · obtain rfl := mem_singleton.mp hnew
    exact .inr ⟨rfl, rfl, hforced⟩

variable (h : Host σ)

/-- `canForceDelete` makes no call that deletes; it allows a known-good name. -/
theorem canForceDelete_cases (name cause : Text) (w : Work σ) :
    (canForceDelete h name cause w).2.listing = w.listing ∧
      (canForceDelete h name cause w).2.attempts = w.attempts ∧
      ((canForceDelete h name cause w).1 = true → knownGoodSnapRE.isMatch name = true) := by
  unfold canForceDelete
  split
  · exact ⟨rfl, rfl, nofun⟩
  · rename_i hmatch
    have hmatch' : knownGoodSnapRE.isMatch name = true := by simpa using hmatch
    split
    · exact ⟨rfl, rfl, fun _ => hmatch'⟩
    · split <;> exact ⟨rfl, rfl, fun _ => hmatch'⟩

theorem deleteSnapshot_adds (name : Text) (w : Work σ) :
    Adds (· = name) w (deleteSnapshot h name w).2 := by
  have hplain := attempt_adds w (h.vmDelSnapshot name w.host).2 name false nofun
  simp only [deleteSnapshot]
  generalize w.attempt (h.vmDelSnapshot name w.host).2 name false = w₁ at hplain
  split
  · exact hplain
  · rename_i cause _
    obtain ⟨hlisting, hattempts, hmatch⟩ := canForceDelete_cases h name cause w₁
    have hcan : Adds (· = name) w (canForceDelete h name cause w₁).2 := by
      refine hplain.trans ⟨hlisting, fun a ha => .inl ?_⟩
      rwa [hattempts] at ha
    split
    · exact hcan
    · rename_i hallowed
      have hforced := hmatch (by simpa using hallowed)
      have hattempt := attempt_adds (canForceDelete h name cause w₁).2
        (h.vmDelSnapshotForce name (canForceDelete h name cause w₁).2.host).2 name true
        fun _ => hforced
      exact hcan.trans ⟨hattempt.listing, hattempt.attempts⟩

theorem deleteEach_adds (all : List Text) (w : Work σ) :
    Adds (· ∈ all) w (deleteEach h all w).2 := by
  induction all generalizing w with
  | nil => exact .refl w
  | cons name rest ih =>
    have hfirst := (deleteSnapshot_adds h name w).mono (· ∈ name :: rest)
      fun n hn => by simp [hn]
    exact hfirst.trans ((ih _).mono _ fun n hn => .tail _ hn)

theorem deleteEach_append (first second : List Text) (w : Work σ) :
    deleteEach h (first ++ second) w =
      ((deleteEach h first w).1 && (deleteEach h second (deleteEach h first w).2).1,
        (deleteEach h second (deleteEach h first w).2).2) := by
  induction first generalizing w with
  | nil => rfl
  | cons name rest ih =>
    simp only [cons_append, deleteEach, ih]
    rw [Bool.and_assoc]

/-- The loop is a pass over the first names, that ends before the others only
with as many deletions as are in excess. -/
theorem prunePreDeploys_eq (excess : Nat) (all : List Text) (deleted : Nat) (w : Work σ) :
    ∃ k ≤ all.length, (prunePreDeploys h excess all deleted w).2 = deleteEach h (all.take k) w ∧
      (k < all.length → excess ≤ (prunePreDeploys h excess all deleted w).1) ∧
      ((prunePreDeploys h excess all deleted w).2.1 = true →
        (prunePreDeploys h excess all deleted w).1 = deleted + k) := by
  induction all generalizing deleted w with
  | nil => exact ⟨0, Nat.le_refl _, rfl, nofun, fun _ => rfl⟩
  | cons name rest ih =>
    unfold prunePreDeploys
    split
    · rename_i hfull
      exact ⟨0, Nat.zero_le _, rfl, fun _ => hfull, fun _ => rfl⟩
    · obtain ⟨k, hk, heq, hstops, hcount⟩ := ih (if (deleteSnapshot h name w).1 then deleted + 1
        else deleted) (deleteSnapshot h name w).2
      refine ⟨k + 1, Nat.succ_le_succ hk, ?_, fun hless => hstops (Nat.lt_of_succ_lt_succ hless),
        fun hok => ?_⟩
      · simp only [take_succ_cons, deleteEach, ← heq]
      · obtain ⟨hfirst, hrest⟩ := Bool.and_eq_true_iff.mp hok
        rw [hcount hrest, if_pos hfirst]
        omega

/-- The second half is a pass over older pre-deploy names and the least
known-good ones, as many of these as are in excess at most. Without a failure
what it does not come to is within the limit. -/
theorem pruneTotal_eq (cfg : Limits) (w : Work σ) :
    ∃ k m, pruneTotal h cfg w = deleteEach h
        ((preDeploys w.listing).dropLast.take k ++ (knownGoods w.listing).take m) w ∧
      (0 < m → 0 < cfg.maxTotalSnapshots ∧ m ≤ (knownGoods w.listing).length +
        (preDeploys w.listing).length - cfg.maxTotalSnapshots.toNat) ∧
      ((pruneTotal h cfg w).1 = true → 0 < cfg.maxTotalSnapshots →
        (((knownGoods w.listing).length - m + ((preDeploys w.listing).length -
          min k ((preDeploys w.listing).length - 1)) : Nat) : Int) ≤ cfg.maxTotalSnapshots) := by
  unfold pruneTotal
  simp only
  split
  · rename_i hfits
    refine ⟨0, 0, rfl, fun hless => absurd hless (Nat.lt_irrefl 0), fun _ hpositive => ?_⟩
    omega
  · rename_i hover
    generalize hexcess : (knownGoods w.listing).length + (preDeploys w.listing).length -
      cfg.maxTotalSnapshots.toNat = excess
    obtain ⟨k, hk, heq, hstops, hcount⟩ :=
      prunePreDeploys_eq h excess (preDeploys w.listing).dropLast 0 w
    rw [length_dropLast] at hk hstops
    simp only [prunePreDeploySnapshots]
    refine ⟨k, min (excess - (prunePreDeploys h excess (preDeploys w.listing).dropLast 0 w).1)
      (knownGoods w.listing).length, ?_, fun _ => ⟨by omega, by omega⟩, fun hok hpositive => ?_⟩
    · rw [deleteEach_append, ← heq]
    · have := hcount (Bool.and_eq_true_iff.mp hok).1
      omega

/-- The names pruning can come to. -/
def Deletable (output name : Text) : Prop :=
  name ∈ (preDeploys output).dropLast ∨ name ∈ prunable output

theorem take_subset_dropLast {α : Type} {l : List α} {n : Nat} (h : n < l.length) :
    l.take n ⊆ l.dropLast := by
  rw [dropLast_eq_take]
  exact (take_prefix_take_left (by omega)).subset

theorem pruneTotal_adds (cfg : Limits) (w : Work σ) :
    Adds (Deletable w.listing) w (pruneTotal h cfg w).2 := by
  obtain ⟨k, m, heq, hknown, -⟩ := pruneTotal_eq h cfg w
  rw [heq]
  refine (deleteEach_adds h _ w).mono _ fun name hname => ?_
  rcases mem_append.mp hname with hname | hname
  · exact .inl (mem_of_mem_take hname)
  · right
    unfold prunable
    split
    · rename_i hnone
      -- without a pre-deploy match one known-good match is kept
      refine take_subset_dropLast ?_ hname
      have hlength : (preDeploys w.listing).length = 0 := by rw [hnone]; rfl
      have hmem := length_pos_of_mem hname
      rw [length_take] at hmem
      omega
    · exact mem_of_mem_take hname

theorem list_cases {h : Host σ} {w w' : Work σ} (hlist : w.list h = some w') :
    w'.attempts = w.attempts ∧ w'.forcedDeletes = w.forcedDeletes := by
  obtain ⟨output, -, rfl⟩ := Option.map_eq_some_iff.mp hlist
  exact ⟨rfl, rfl⟩

/-- Every call that pruning makes is for a name it can come to on the output it
was decided on. -/
theorem pruneSnapshots_attempts (cfg : Limits) (w : Work σ) :
    ∀ a ∈ (pruneSnapshots h cfg w).2.attempts, a ∈ w.attempts ∨
      Deletable a.listing a.name ∧ (a.forced = true → knownGoodSnapRE.isMatch a.name = true) := by
  have hlift {w w' : Work σ} (hadds : Adds (Deletable w.listing) w w') :
      ∀ a ∈ w'.attempts, a ∈ w.attempts ∨
        Deletable a.listing a.name ∧ (a.forced = true → knownGoodSnapRE.isMatch a.name = true) := by
    intro a ha
    rcases hadds.attempts a ha with hold | ⟨hlisting, hallowed, hforced⟩
    · exact .inl hold
    · exact .inr ⟨hlisting ▸ hallowed, hforced⟩
  unfold pruneSnapshots
  split
  · exact fun a ha => .inl ha
  · rename_i w₁ hlist
    rw [← (list_cases hlist).1]
    simp only
    split
    · rename_i hover
      have hrotation := (deleteEach_adds h ((knownGoods w₁.listing).take
        ((knownGoods w₁.listing).length - cfg.maxKnownGoodSnapshots.toNat)) w₁).mono
        (Deletable w₁.listing) fun name hname => by
          right
          unfold prunable
          split
          · exact take_subset_dropLast (by omega) hname
          · exact mem_of_mem_take hname
      split
      · exact hlift hrotation
      · rename_i w₂ hrelist
        intro a ha
        rcases hlift (pruneTotal_adds h cfg w₂) a ha with hold | hnew
        · rw [(list_cases hrelist).1] at hold
          exact hlift hrotation a hold
        · exact .inr hnew
    · exact hlift (pruneTotal_adds h cfg w₁)

/-- A plain call. -/
def plainDelete (w : Work σ) (child : Text) : Work σ :=
  w.attempt (h.vmDelSnapshot child w.host).2 child false

/-- Plain calls for all the names. -/
theorem foldl_attempts (all : List Text) (w : Work σ) :
    ∀ a ∈ (all.foldl (plainDelete h) w).attempts,
    a ∈ w.attempts ∨ a.listing = w.listing ∧ a.name ∈ all ∧ a.forced = false := by
  induction all generalizing w with
  | nil => exact fun _ ha => .inl ha
  | cons child rest ih =>
    intro a ha
    rcases ih _ a ha with hold | ⟨hlisting, hname, hforced⟩
    · rcases mem_append.mp hold with hold | hnew
      · exact .inl hold
      · obtain rfl := mem_singleton.mp hnew
        exact .inr ⟨rfl, (.head _), rfl⟩
    · exact .inr ⟨hlisting, .tail _ hname, hforced⟩

/-- The calls for names behind the target. -/
theorem behind_attempts (snap : Text) {w : Work σ} {all : List Text}
    (hall : all ⊆ (snapshotsAfter w.listing snap).reverse) :
    ∀ a ∈ (all.foldl (plainDelete h) w).attempts, a ∈ w.attempts ∨
      a.name ∈ snapshotsAfter a.listing snap ∧ a.forced = false := by
  intro a ha
  rcases foldl_attempts h all w a ha with hold | ⟨hlisting, hname, hforced⟩
  · exact .inl hold
  · exact .inr ⟨hlisting ▸ mem_reverse.mp (hall hname), hforced⟩

/-- The calls of a rollback are plain and for the names behind the target. -/
theorem executeRollbackVM_attempts (snap : Text) (w : Work σ) :
    ∀ a ∈ (executeRollbackVM h snap w).attempts, a ∈ w.attempts ∨
      a.name ∈ snapshotsAfter a.listing snap ∧ a.forced = false := by
  unfold executeRollbackVM
  split
  · exact fun a ha => .inl ha
  · rename_i w₁ hlist
    rw [← (list_cases hlist).1]
    exact behind_attempts h snap (Subset.refl _)

/-- Up to the first error the loop of a recovery makes the same calls. -/
theorem restore_go_eq (all : List Text) (w : Work σ) :
    ∃ k, restore.go h all w = (all.take k).foldl (plainDelete h) w := by
  induction all generalizing w with
  | nil => exact ⟨0, rfl⟩
  | cons child rest ih =>
    simp only [restore.go]
    split
    · exact ⟨1, rfl⟩
    · obtain ⟨k, hk⟩ := ih (plainDelete h w child)
      exact ⟨k + 1, hk⟩

/-- So are those of a deployment's recovery. -/
theorem restore_attempts (snap : Text) (stopped : Bool) (w : Work σ) :
    ∀ a ∈ (restore h snap stopped w).attempts, a ∈ w.attempts ∨
      a.name ∈ snapshotsAfter a.listing snap ∧ a.forced = false := by
  unfold restore
  split
  · exact fun a ha => .inl ha
  · rename_i w₁ hlist
    rw [← (list_cases hlist).1]
    split
    · exact fun a ha => .inl ha
    · obtain ⟨k, hk⟩ := restore_go_eq h (snapshotsAfter w₁.listing snap).reverse w₁
      rw [hk]
      exact behind_attempts h snap (take_subset k _)

/-! ## Every call that can be made -/

/-- A hypervisor that refuses every deletion, that of one snapshot because its
disk snapshot is gone. -/
def refusing (listing gone : Text) : Host Unit where
  vmSnapshots := fun _ => (some listing, ())
  vmDelSnapshot := fun name _ => (some (if name = gone then storageSnapshotMissingMarker else []), ())
  vmDelSnapshotForce := fun _ _ => (false, ())
  vmHasRunningTask := fun _ => (some false, ())

theorem refusing_other {listing gone : Text} (hname : name ≠ gone) (w : Work Unit) :
    deleteSnapshot (refusing listing gone) name w = (false, w.attempt () name false) := by
  have hcause : ([] : Text).tails.any (storageSnapshotMissingMarker.isPrefixOf ·) = false := by
    decide
  simp only [deleteSnapshot, refusing, if_neg hname, canForceDelete, hcause]
  cases knownGoodSnapRE.isMatch name <;> rfl

/-- The refused call is made, and a forced one for a known-good name while the
limit is not reached. -/
theorem refusing_gone (listing gone : Text) (w : Work Unit) :
    (deleteSnapshot (refusing listing gone) gone w).1 = false ∧
      (deleteSnapshot (refusing listing gone) gone w).2.listing = w.listing ∧
      w.attempts ++ [⟨w.listing, gone, false⟩] ⊆
        (deleteSnapshot (refusing listing gone) gone w).2.attempts ∧
      (knownGoodSnapRE.isMatch gone = true → w.forcedDeletes = 0 →
        ⟨w.listing, gone, true⟩ ∈ (deleteSnapshot (refusing listing gone) gone w).2.attempts) := by
  have hcause : storageSnapshotMissingMarker.tails.any (storageSnapshotMissingMarker.isPrefixOf ·) =
      true := by decide +kernel
  simp only [deleteSnapshot, refusing, if_true, canForceDelete, hcause]
  cases hmatch : knownGoodSnapRE.isMatch gone with
  | false => exact ⟨rfl, rfl, fun _ ha => ha, nofun⟩
  | true =>
    by_cases hlimit : (w.attempt () gone false).forcedDeletes ≥ maxConsecutiveForcedDeletes
    · simp only [Bool.not_true, Bool.false_eq_true, if_false, hlimit, if_true]
      refine ⟨rfl, rfl, fun _ ha => ha, fun _ hzero => ?_⟩
      have : w.forcedDeletes ≥ 3 := hlimit
      omega
    · simp only [Bool.not_true, Bool.false_eq_true, if_false, hlimit]
      refine ⟨rfl, rfl, fun a ha => mem_append_left _ ha, fun _ _ => ?_⟩
      exact mem_append_right _ mem_cons_self

theorem refusing_fails (listing gone name : Text) (w : Work Unit) :
    (deleteSnapshot (refusing listing gone) name w).1 = false ∧
      (deleteSnapshot (refusing listing gone) name w).2.listing = w.listing ∧
      w.attempts ++ [⟨w.listing, name, false⟩] ⊆
        (deleteSnapshot (refusing listing gone) name w).2.attempts := by
  by_cases hname : name = gone
  · subst hname
    obtain ⟨hfails, hlisting, hattempts, -⟩ := refusing_gone listing name w
    exact ⟨hfails, hlisting, hattempts⟩
  · rw [refusing_other hname]
    exact ⟨rfl, rfl, fun _ ha => ha⟩

section Refusing

variable (listing gone : Text)

theorem deleteEach_refusing (all : List Text) (w : Work Unit) :
    w.attempts ⊆ (deleteEach (refusing listing gone) all w).2.attempts ∧
      ∀ name ∈ all,
        ⟨w.listing, name, false⟩ ∈ (deleteEach (refusing listing gone) all w).2.attempts := by
  induction all generalizing w with
  | nil => exact ⟨fun _ ha => ha, fun _ hname => by cases hname⟩
  | cons first rest ih =>
    obtain ⟨-, hlisting, hattempts⟩ := refusing_fails listing gone first w
    obtain ⟨hkeeps, hrest⟩ := ih (deleteSnapshot (refusing listing gone) first w).2
    refine ⟨fun a ha => hkeeps (hattempts (mem_append_left _ ha)), fun name hname => ?_⟩
    rcases mem_cons.mp hname with rfl | hname
    · exact hkeeps (hattempts (mem_append_right _ mem_cons_self))
    · have := hrest name hname
      rwa [hlisting] at this

/-- The first refusal of the one that is gone is forced. -/
theorem deleteEach_forces {before behind : List Text} (hfirst : gone ∉ before)
    (hmatch : knownGoodSnapRE.isMatch gone = true) (w : Work Unit) (hzero : w.forcedDeletes = 0) :
    ⟨w.listing, gone, true⟩ ∈
      (deleteEach (refusing listing gone) (before ++ gone :: behind) w).2.attempts := by
  induction before generalizing w with
  | nil =>
    obtain ⟨-, -, -, hforced⟩ := refusing_gone listing gone w
    exact (deleteEach_refusing listing gone behind _).1 (hforced hmatch hzero)
  | cons first before ih =>
    rw [mem_cons, not_or] at hfirst
    rw [cons_append, deleteEach, refusing_other (Ne.symm hfirst.1)]
    exact ih hfirst.2 (w.attempt () first false) hzero

/-- Nothing is deleted. -/
theorem prunePreDeploys_refusing (excess : Nat) (all : List Text) (w : Work Unit) :
    (prunePreDeploys (refusing listing gone) excess all 0 w).1 = 0 := by
  induction all generalizing w with
  | nil => rfl
  | cons first rest ih =>
    unfold prunePreDeploys
    split
    · rfl
    · simp only [(refusing_fails listing gone first w).1, Bool.false_eq_true, if_false]
      exact ih _

/-- Where it starts: the output is read. -/
def afterListing (listing : Text) : Work Unit := { Work.start () with listing }

/-- A name that can be come to is one of several matches. -/
theorem Deletable.many {listing : Text} (h : Deletable listing name) :
    1 < (knownGoods listing).length + (preDeploys listing).length := by
  rcases h with hpre | hknown
  · have := length_pos_of_mem hpre
    rw [length_dropLast] at this
    omega
  · unfold prunable at hknown
    split at hknown
    · have := length_pos_of_mem hknown
      rw [length_dropLast] at this
      omega
    · rename_i hsome
      have hpre := length_pos_iff.mpr hsome
      have := length_pos_of_mem hknown
      omega

/-- With a limit of one snapshot in all, pruning comes to every name it can
come to. -/
theorem pruneSnapshots_refusing_eq (hname : Deletable listing name) :
    pruneSnapshots (refusing listing gone) ⟨0, 1⟩ (.start ()) = deleteEach (refusing listing gone)
        ((preDeploys listing).dropLast ++ (knownGoods listing).take
          ((knownGoods listing).length + (preDeploys listing).length - 1))
        (afterListing listing) := by
  have hmany := hname.many
  obtain ⟨k, hk, heq, hstops, -⟩ := prunePreDeploys_eq (refusing listing gone)
    ((knownGoods listing).length + (preDeploys listing).length - 1) (preDeploys listing).dropLast 0
    (afterListing listing)
  have hzero := prunePreDeploys_refusing listing gone
    ((knownGoods listing).length + (preDeploys listing).length - 1) (preDeploys listing).dropLast
    (afterListing listing)
  obtain rfl : k = (preDeploys listing).dropLast.length := by
    by_contra hless
    have := hstops (by omega)
    omega
  rw [take_length] at heq
  have htotal : pruneSnapshots (refusing listing gone) ⟨0, 1⟩ (.start ()) =
      pruneTotal (refusing listing gone) ⟨0, 1⟩ (afterListing listing) := by
    simp [pruneSnapshots, Work.list, refusing, afterListing]
  rw [htotal, pruneTotal, deleteEach_append, ← heq]
  simp only
  rw [show (afterListing listing).listing = listing from rfl, if_neg (by omega)]
  simp only [prunePreDeploySnapshots, Int.toNat_one, hzero, Nat.sub_zero, ← take_take,
    take_length]

theorem pruneSnapshots_refusing (hname : Deletable listing name) :
    ⟨listing, name, false⟩ ∈
      (pruneSnapshots (refusing listing gone) ⟨0, 1⟩ (.start ())).2.attempts := by
  rw [pruneSnapshots_refusing_eq listing gone hname]
  refine (deleteEach_refusing listing gone _ (afterListing listing)).2 name ?_
  rcases hname with hname | hname
  · exact mem_append_left _ hname
  · refine mem_append_right _ ?_
    unfold prunable at hname
    split at hname
    · rename_i hnone
      rwa [hnone, length_nil, Nat.add_zero, ← dropLast_eq_take]
    · rename_i hsome
      have hlength := length_pos_iff.mpr hsome
      rwa [take_of_length_le (by omega)]

/-- An older pre-deploy match with the other prefix in it is forced. -/
theorem pruneSnapshots_forces (hgone : gone ∈ (preDeploys listing).dropLast)
    (hmatch : knownGoodSnapRE.isMatch gone = true) :
    ⟨listing, gone, true⟩ ∈
      (pruneSnapshots (refusing listing gone) ⟨0, 1⟩ (.start ())).2.attempts := by
  rw [pruneSnapshots_refusing_eq listing gone (.inl hgone)]
  obtain ⟨before, behind, hsplit, hfirst⟩ := eq_append_cons_of_mem hgone
  rw [hsplit, append_assoc, cons_append]
  exact deleteEach_forces listing gone hfirst hmatch (afterListing listing) rfl

theorem executeRollbackVM_refusing {snap : Text} (hname : name ∈ snapshotsAfter listing snap) :
    ⟨listing, name, false⟩ ∈
      (executeRollbackVM (refusing listing gone) snap (.start ())).attempts := by
  have hloop (all : List Text) (w : Work Unit) :
      w.attempts ⊆ (all.foldl (plainDelete (refusing listing gone)) w).attempts ∧ ∀ n ∈ all,
        ⟨w.listing, n, false⟩ ∈ (all.foldl (plainDelete (refusing listing gone)) w).attempts := by
    induction all generalizing w with
    | nil => exact ⟨fun _ ha => ha, fun _ hn => by cases hn⟩
    | cons child rest ih =>
      obtain ⟨hkeeps, hrest⟩ := ih (w.attempt () child false)
      refine ⟨fun a ha => hkeeps (mem_append_left _ ha), fun n hn => ?_⟩
      rcases mem_cons.mp hn with rfl | hn
      · exact hkeeps (mem_append_right _ mem_cons_self)
      · exact hrest n hn
  exact (hloop _ (afterListing listing)).2 name (mem_reverse.mpr hname)

end Refusing

/-! ## Own snapshots only -/

variable {listing : List Entry}

theorem Clean.proper_pruned (h : Clean listing) {a : Attempt} (hlisting : a.listing = render listing)
    (hcall : Deletable a.listing a.name ∧ (a.forced = true → knownGoodSnapRE.isMatch a.name = true)) :
    Proper listing a := by
  obtain ⟨hname, hforced⟩ := hcall
  rw [hlisting] at hname
  rcases hname with hpre | hknown
  · have hmem := dropLast_subset _ hpre
    refine ⟨h.preDeploy _ hmem, own_of_preDeploys hmem, fun hf => ?_⟩
    have hmatch := hforced hf
    rw [h.unforced _ hpre] at hmatch
    cases hmatch
  · have hword : knownGoodSnapRE.word <+: a.name := by
      unfold prunable at hknown
      split at hknown
      · exact word_of_knownGoods (dropLast_subset _ hknown)
      · exact word_of_knownGoods hknown
    exact ⟨h.knownGood _ hknown, .inr hword, fun _ => hword⟩

theorem Clean.proper_behind (h : Clean listing) {a : Attempt} {snap : Text}
    (hlisting : a.listing = render listing)
    (hcall : a.name ∈ snapshotsAfter a.listing snap ∧ a.forced = false) : Proper listing a := by
  obtain ⟨hname, hplain⟩ := hcall
  rw [hlisting, snapshotsAfter_render] at hname
  obtain ⟨htail, hmanaged⟩ := mem_namesAfter hname
  refine ⟨(mem_filter.mp (mem_of_mem_tail htail)).1, h.behind _ htail hmanaged, ?_⟩
  intro hforced
  rw [hplain] at hforced
  cases hforced

theorem Clean.touchesOwn (h : Clean listing) : TouchesOwn listing where
  prune _ host cfg w hnone a ha hlisting := by
    have hcall := pruneSnapshots_attempts host cfg w a ha
    exact h.proper_pruned hlisting (hcall.resolve_left (hnone ▸ not_mem_nil))
  rollback _ host snap w hnone a ha hlisting := by
    have hcall := executeRollbackVM_attempts host snap w a ha
    exact h.proper_behind hlisting (hcall.resolve_left (hnone ▸ not_mem_nil))
  restore _ host snap stopped w hnone a ha hlisting := by
    have hcall := restore_attempts host snap stopped w a ha
    exact h.proper_behind hlisting (hcall.resolve_left (hnone ▸ not_mem_nil))
  extract := by
    unfold extractLatestSnapshot
    split
    · rename_i name hlast
      have hmem := mem_of_getLast? hlast
      exact .inr ⟨h.preDeploy _ hmem, own_of_preDeploys hmem⟩
    · rename_i hlast
      have hnone : preDeploys (render listing) = [] := getLast?_eq_none_iff.mp hlast
      cases hknown : (knownGoodSnapRE.findAll (render listing)).getLast? with
      | none => exact .inl rfl
      | some name =>
        have hmem := mem_of_getLast? hknown
        exact .inr ⟨h.target hnone name hknown, .inr (Pattern.word_prefix_of_mem hmem)⟩

theorem extract_preDeploys (hne : preDeploys output ≠ []) :
    extractLatestSnapshot output = (preDeploys output).getLast hne := by
  have hlast : (preDeploySnapRE.findAll output).getLast? =
      some ((preDeploys output).getLast hne) := getLast?_eq_some_getLast hne
  rw [extractLatestSnapshot, hlast]

theorem extract_knownGoods (hnone : preDeploys output = [])
    (hlast : (knownGoodSnapRE.findAll output).getLast? = some name) :
    extractLatestSnapshot output = name := by
  have hpre : (preDeploySnapRE.findAll output).getLast? = none :=
    getLast?_eq_none_iff.mpr hnone
  rw [extractLatestSnapshot, hpre, hlast]
  rfl

/-- The word of a match is not empty. -/
theorem ne_nil_of_word {p : Pattern Char} (h : p.word <+: name) : name ≠ [] := by
  intro hnil
  rw [hnil, prefix_nil] at h
  cases h

/-- The two prefixes exclude each other. -/
theorem words_apart (hpre : preDeploySnapRE.word <+: name) (hknown : knownGoodSnapRE.word <+: name)
    : False := by
  obtain ⟨rest, rfl⟩ := hpre
  obtain ⟨rest', heq⟩ := hknown
  have hhead : 'k' = 'p' := (cons.inj heq).1
  revert hhead
  decide

theorem TouchesOwn.clean (h : TouchesOwn listing) : Clean listing where
  preDeploy := by
    intro name hname
    have hne : preDeploys (render listing) ≠ [] := ne_nil_of_mem hname
    have hsplit := dropLast_concat_getLast hne
    rw [← hsplit, mem_append, mem_singleton] at hname
    -- the last match is the rollback target, the others are pruned
    rcases hname with hold | hlast
    · exact (h.prune Unit _ _ _ rfl _ (pruneSnapshots_refusing _ name (.inl hold)) rfl).1
    · have htarget := h.extract
      rw [extract_preDeploys hne, ← hlast] at htarget
      have hword : preDeploySnapRE.word <+: name :=
        Pattern.word_prefix_of_mem (hlast ▸ getLast_mem hne)
      exact (htarget.resolve_left (ne_nil_of_word hword)).1
  knownGood := by
    intro name hname
    exact (h.prune Unit _ _ _ rfl _ (pruneSnapshots_refusing _ name (.inr hname)) rfl).1
  target := by
    intro hnone name hname
    have htarget := h.extract
    rw [extract_knownGoods hnone hname] at htarget
    have hword : knownGoodSnapRE.word <+: name :=
      Pattern.word_prefix_of_mem (mem_of_getLast? hname)
    exact (htarget.resolve_left (ne_nil_of_word hword)).1
  unforced := by
    intro name hname
    cases hmatch : knownGoodSnapRE.isMatch name with
    | false => rfl
    | true =>
      have hforced := (h.prune Unit _ _ _ rfl _ (pruneSnapshots_forces _ name hname hmatch) rfl).2.2
      have hword : preDeploySnapRE.word <+: name :=
        Pattern.word_prefix_of_mem (dropLast_subset _ hname)
      exact (words_apart hword (hforced rfl)).elim
  behind := by
    intro name htail hmanaged
    obtain ⟨snap, hname⟩ := exists_namesAfter htail hmanaged
    rw [← snapshotsAfter_render] at hname
    exact (h.rollback Unit _ _ _ rfl _ (executeRollbackVM_refusing _ [] hname) rfl).2.1

/-- For every listing: whatever is decided on it touches own snapshots only
exactly if it is clean. -/
theorem touches_own_iff (listing : List Entry) : TouchesOwn listing ↔ Clean listing :=
  ⟨TouchesOwn.clean, Clean.touchesOwn⟩

/-- A line with a plain time. -/
def lineOf (name description : String) (hname : legalName name.toList = true)
    (hdescription : '\n' ∉ description.toList) : Entry :=
  ⟨"`-> ".toList, name.toList, "2026-08-09 12:00:00".toList, description.toList, by decide +kernel, hname,
    by decide +kernel, hdescription⟩

/-- An operator's own snapshot behind a known-good one: a rollback to the latter
deletes it. -/
theorem foreign_snapshot_deleted :
    ¬ TouchesOwn [lineOf "known-good-1" "" (by decide +kernel) (by decide +kernel),
      lineOf "before-known-good-2" "mine" (by decide +kernel) (by decide +kernel)] := by
  intro h
  have hbehind := h.clean.behind "before-known-good-2".toList (by decide +kernel) (by decide +kernel)
  revert hbehind
  unfold Own
  decide

end Mwan.Watchdog.Snapshots

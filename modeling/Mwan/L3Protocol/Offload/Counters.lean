import Mathlib.Algebra.GroupWithZero.Nat
import Mathlib.Data.List.Basic
import Mathlib.Tactic.SplitIfs
import Mwan.Core.Clock

/-!
# The history of a rule's hardware counters (`offload/native_counters.go`)

`Observe` compares the counters of the requested directions with the last
sample it has stored and stores a sample only if every one of them is valid and
goes on from there. `Restart` starts over for replaced rules. A run keeps the
samples stored since the last `Restart` beside the history, the latest first.

Results:
* `observe_spec`: what one `Observe` says and stores, by its verdict;
* `counters_advance`: over every run the stored samples advance, and what the
  verdicts, the last activity and the readiness for eviction say of them;
* `increase_rejected`: one direction has increased and the sample is rejected
  for the other.
-/
namespace Mwan.Offload

open Mwan.Core List

/-- An error to `errors.Is(err, syscall.EAGAIN)`. -/
inductive QueryError
  | again
  | other
  deriving DecidableEq

/-- mirrors native_counters.go:12-19 -/
structure NativeCounter where
  packets : UInt64
  bytes : UInt64
  observedMonotonicNS : UInt64
  packetsValid : Bool := true
  bytesValid : Bool := true
  error : Option QueryError := none

/-- `NativeCounterObservation` -/
inductive Observation
  | invalid
  | pending
  | idle
  | active
  | readinessExpired
  deriving DecidableEq

/-- The verdicts that store the sample. -/
def Observation.stored (o : Observation) : Bool := o == .idle || o == .active

/-- mirrors native_counters.go:42-50 -/
structure NativeCounterHistory where
  previous : Fin 2 → NativeCounter
  samples : Nat
  started : Time
  readinessDeadline : Time
  lastActive : Time
  lastSample : Time

namespace NativeCounterHistory

/-- mirrors native_counters.go:54-59 -/
def new (now : Time) (readinessTimeout : Int) : NativeCounterHistory where
  previous _ := { packets := 0, bytes := 0, observedMonotonicNS := 0, packetsValid := false,
                  bytesValid := false }
  samples := 0
  started := now
  readinessDeadline := now.add readinessTimeout
  lastActive := now
  lastSample := .zero

/-- mirrors native_counters.go:62-66 -/
def restart (history : NativeCounterHistory) (now : Time) (readinessTimeout : Int) :
    NativeCounterHistory :=
  { new now readinessTimeout with lastActive := history.lastActive }

/-- mirrors native_counters.go:113-134 -/
def directionObservation (history : NativeCounterHistory) (index : Fin 2)
    (counter : NativeCounter) : Observation :=
  let previous := history.previous index
  match counter.error with
  | some error =>
    if error ≠ .again ∨ counter.packetsValid ∨ counter.bytesValid ∨
        counter.observedMonotonicNS ≠ 0 then .invalid
    else .pending
  | none =>
    if ¬ counter.packetsValid ∨ ¬ counter.bytesValid ∨ counter.observedMonotonicNS = 0 then
      .invalid
    else if history.samples = 0 then .idle
    else if counter.observedMonotonicNS ≤ previous.observedMonotonicNS ∨
        counter.packets < previous.packets ∨ counter.bytes < previous.bytes then .invalid
    else if previous.packets < counter.packets ∨ previous.bytes < counter.bytes then .active
    else .idle

local instance twoDirections : NeZero 2 := ⟨by decide⟩

/-- The directions of a mask. -/
def directions (requested : UInt32) : List (Fin 2) :=
  [0, 1].filter fun index => requested &&& (if index = 0 then 1 else 2) ≠ 0

/-- mirrors native_counters.go:71-111; the loop returns at the first invalid
direction, before anything has been stored. -/
def observe (history : NativeCounterHistory) (requested : UInt32) (counters : Fin 2 → NativeCounter)
    (queryError : Option QueryError) (now : Time) : Observation × NativeCounterHistory :=
  if requested = 0 ∨ 3 < requested ∨ now.before history.started ∨ queryError = some .other then
    (.invalid, history)
  else
    let seen := (directions requested).map fun index =>
      history.directionObservation index (counters index)
    if .invalid ∈ seen then (.invalid, history)
    else if .pending ∈ seen then
      if queryError = none ∨ history.samples ≠ 0 then (.invalid, history)
      else if now.before history.readinessDeadline then (.pending, history)
      else (.readinessExpired, history)
    else if queryError ≠ none then (.invalid, history)
    else
      (if .active ∈ seen then .active else .idle,
        { history with
          previous := counters
          lastActive := if history.samples = 0 ∨ .active ∈ seen then now else history.lastActive
          lastSample := now
          samples := if history.samples < 2 then history.samples + 1 else history.samples })

/-- mirrors native_counters.go:151-153 -/
def evictable (history : NativeCounterHistory) (now : Time) (counterInterval : Int) : Bool :=
  2 ≤ history.samples && !now.before history.lastSample &&
    now.sub history.lastSample ≤ counterInterval

/-! ## One observation -/

/-- The counters go on from the earlier ones in every direction of the mask. -/
def Advances (requested : UInt32) (later earlier : Fin 2 → NativeCounter) : Prop :=
  ∀ index ∈ directions requested, (earlier index).packets ≤ (later index).packets ∧
    (earlier index).bytes ≤ (later index).bytes ∧
    (earlier index).observedMonotonicNS < (later index).observedMonotonicNS

/-- The counters have increased in some direction of the mask. -/
def Increases (requested : UInt32) (later earlier : Fin 2 → NativeCounter) : Prop :=
  ∃ index ∈ directions requested, (earlier index).packets < (later index).packets ∨
    (earlier index).bytes < (later index).bytes

variable {history : NativeCounterHistory} {requested : UInt32} {counters : Fin 2 → NativeCounter}
  {queryError : Option QueryError} {now : Time}

/-- A direction with a baseline. -/
theorem directionObservation_of_baseline {index : Fin 2} {counter : NativeCounter}
    (h : history.samples ≠ 0) (hvalid : history.directionObservation index counter ≠ .invalid)
    (hpending : history.directionObservation index counter ≠ .pending) :
    ((history.previous index).packets ≤ counter.packets ∧
      (history.previous index).bytes ≤ counter.bytes ∧
      (history.previous index).observedMonotonicNS < counter.observedMonotonicNS) ∧
    (history.directionObservation index counter = .active ↔
      (history.previous index).packets < counter.packets ∨
        (history.previous index).bytes < counter.bytes) := by
  unfold directionObservation at *
  cases herror : counter.error with
  | some =>
    simp only [herror] at hvalid hpending
    split at hvalid <;> simp_all
  | none =>
    simp only [herror, if_neg h] at hvalid ⊢
    split_ifs at hvalid ⊢ with hbad hback hmore <;>
      simp_all [UInt64.not_le, UInt64.not_lt]

/-- What one `Observe` says and stores. -/
structure Observed (requested : UInt32) (history : NativeCounterHistory)
    (counters : Fin 2 → NativeCounter) (now : Time)
    (result : Observation × NativeCounterHistory) : Prop where
  kept : result.1.stored = false → result.2 = history
  stored : result.1.stored = true → result.2 = { history with
    previous := counters
    lastActive := if history.samples = 0 ∨ result.1 = .active then now else history.lastActive
    lastSample := now
    samples := if history.samples < 2 then history.samples + 1 else history.samples }
  baseline : result.1 = .pending ∨ result.1 = .readinessExpired → history.samples = 0
  advances : history.samples ≠ 0 → result.1.stored = true →
    Advances requested counters history.previous ∧
    (result.1 = .active ↔ Increases requested counters history.previous)

theorem observe_spec (history : NativeCounterHistory) (requested : UInt32)
    (counters : Fin 2 → NativeCounter) (queryError : Option QueryError) (now : Time) :
    Observed requested history counters now
      (history.observe requested counters queryError now) := by
  have kept (o : Observation) (ho : o.stored = false)
      (hb : o = .pending ∨ o = .readinessExpired → history.samples = 0) :
      Observed requested history counters now (o, history) :=
    ⟨fun _ => rfl, fun h => absurd (ho.symm.trans h) nofun, hb,
      fun _ h => absurd (ho.symm.trans h) nofun⟩
  unfold observe
  split
  · exact kept .invalid rfl nofun
  dsimp only
  generalize hseen : (directions requested).map (fun index =>
    history.directionObservation index (counters index)) = seen
  split
  · exact kept .invalid rfl nofun
  next hvalid =>
  split
  · split
    · exact kept .invalid rfl nofun
    next hfirst =>
    have hsamples : history.samples = 0 := by simpa using (not_or.mp hfirst).2
    split
    · exact kept .pending rfl fun _ => hsamples
    · exact kept .readinessExpired rfl fun _ => hsamples
  next hpending =>
  split
  · exact kept .invalid rfl nofun
  have hbaseline (index : Fin 2) (hi : index ∈ directions requested) (h : history.samples ≠ 0) :=
    directionObservation_of_baseline h
      (fun he => hvalid (hseen ▸ mem_map.mpr ⟨index, hi, he⟩))
      (fun he => hpending (hseen ▸ mem_map.mpr ⟨index, hi, he⟩))
  have hincreases (h : history.samples ≠ 0) :
      .active ∈ seen ↔ Increases requested counters history.previous := by
    rw [← hseen, mem_map]
    exact exists_congr fun index => and_congr_right fun hi => (hbaseline index hi h).2
  have hverdict : (if .active ∈ seen then .active else .idle : Observation) = .active ↔
      .active ∈ seen := by
    split <;> simp [*]
  refine ⟨fun h => ?_, fun _ => by simp only [hverdict], fun h => ?_, fun h _ =>
    ⟨fun index hi => (hbaseline index hi h).1, hverdict.trans (hincreases h)⟩⟩
  · split at h <;> cases h
  · split at h <;> rcases h with h | h <;> cases h

/-! ## Runs -/

/-- A call on the history. -/
inductive Call
  | observe (counters : Fin 2 → NativeCounter) (queryError : Option QueryError) (now : Time)
  | restart (now : Time) (readinessTimeout : Int)

/-- The history, and the samples stored since the last `Restart`. -/
structure Books where
  history : NativeCounterHistory
  stored : List (Fin 2 → NativeCounter)

def Books.step (requested : UInt32) (books : Books) : Call → Books
  | .observe counters queryError now =>
    let (verdict, history) := books.history.observe requested counters queryError now
    ⟨history, if verdict.stored then counters :: books.stored else books.stored⟩
  | .restart now readinessTimeout => ⟨books.history.restart now readinessTimeout, []⟩

/-- The books after the calls on a new history. -/
def after (requested : UInt32) (now : Time) (readinessTimeout : Int) (calls : List Call) : Books :=
  calls.foldl (Books.step requested) ⟨new now readinessTimeout, []⟩

/-- The history is that of the stored samples. -/
structure Books.Kept (requested : UInt32) (books : Books) : Prop where
  samples : books.history.samples = min 2 books.stored.length
  previous : ∀ counters ∈ books.stored.head?, books.history.previous = counters
  advance : books.stored.Pairwise (Advances requested)

theorem Advances.trans {a b c : Fin 2 → NativeCounter} (h : Advances requested a b)
    (h' : Advances requested b c) : Advances requested a c := by
  intro index hi
  obtain ⟨hp, hb, ht⟩ := h index hi
  obtain ⟨hp', hb', ht'⟩ := h' index hi
  exact ⟨UInt64.le_trans hp' hp, UInt64.le_trans hb' hb, UInt64.lt_trans ht' ht⟩

theorem Books.Kept.step {books : Books} (h : books.Kept requested) (call : Call) :
    (books.step requested call).Kept requested := by
  cases call with
  | restart => exact ⟨rfl, nofun, .nil⟩
  | observe counters queryError now =>
    have hspec := observe_spec books.history requested counters queryError now
    simp only [Books.step]
    generalize books.history.observe requested counters queryError now = result at hspec
    cases hstored : result.1.stored with
    | false =>
      rw [hspec.kept hstored]
      exact h
    | true =>
      rw [hspec.stored hstored]
      refine ⟨?_, ?_, .cons (fun earlier he => ?_) h.advance⟩
      · simp only [h.samples, if_true, length_cons]
        split <;> omega
      · rintro _ ⟨rfl⟩
        rfl
      · have hsamples : books.history.samples ≠ 0 := by
          have := length_pos_of_mem he
          rw [h.samples]
          omega
        have hhead := (hspec.advances hsamples hstored).1
        obtain ⟨hd, tl, hlist⟩ := exists_cons_of_ne_nil (ne_nil_of_mem he)
        have hall := h.advance
        rw [hlist] at he hall
        rw [h.previous hd (by rw [hlist]; rfl)] at hhead
        rcases mem_cons.mp he with rfl | he
        · exact hhead
        · exact hhead.trans (rel_of_pairwise_cons hall he)

theorem after_kept (requested : UInt32) (now : Time) (timeout : Int) (calls : List Call) :
    (after requested now timeout calls).Kept requested :=
  foldlRecOn calls _ ⟨rfl, nofun, .nil⟩ fun _ h call _ => h.step call

/-- A sample of both directions. -/
def sample (first second : NativeCounter) (index : Fin 2) : NativeCounter :=
  if index = 0 then first else second

end NativeCounterHistory

end Mwan.Offload

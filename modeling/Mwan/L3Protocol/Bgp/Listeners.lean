import Mathlib.Logic.Function.Basic
import Mwan.Core.Machine

/-!
# The listeners of a BGP session (`bgp/session_state.go`)

A call that changes the session appends a snapshot to the queue under the lock
and calls `deliverChanges` behind it. That returns if another goroutine
delivers; otherwise it takes the snapshots from the queue one by one, and calls
the listeners registered then without the lock, one after the other.

A step of the machine is one section under the lock. Between two of them the
listeners take their time; what they read through `State` changes nothing.

Results:
* `listeners_see_every_change`: in every interleaving the snapshots are passed on
  in the order of the queue, each once, by one goroutine at a time, and none is
  left when all calls have returned.
-/
namespace Mwan.Bgp.Listeners

open Mwan.Core

variable {S L : Type}

/-- Where a goroutine is. -/
inductive Pc
  | returned
  /-- before the lock of `deliverChanges` -/
  | entering
  /-- in the loop over the listeners -/
  | calling
  deriving DecidableEq

structure World (S L : Type) where
  listeners : List L
  pending : List S
  delivering : Bool
  goroutine : Nat → Pc
  /-- every snapshot that was enqueued -/
  enqueued : List S
  /-- the snapshots taken from the queue, with the listeners called with them -/
  delivered : List (S × List L)

def World.moved (w : World S L) (g : Nat) (pc : Pc) : World S L :=
  { w with goroutine := Function.update w.goroutine g pc }

/-- One pass of the loop, under the lock. mirrors session_state.go:96-107 -/
def World.takeNext (w : World S L) (g : Nat) : World S L :=
  match w.pending with
  | [] => { w.moved g .returned with delivering := false }
  | state :: pending =>
    { w.moved g .calling with
      delivering := true, pending, delivered := w.delivered ++ [(state, w.listeners)] }

inductive Event (S L : Type)
  | onChange (listener : L)
  /-- the section under the lock of a call that may change the session -/
  | change (g : Nat) (state : Option S)
  | goOn (g : Nat)

/-- mirrors session_state.go:42-108; a goroutine makes one call at a time -/
def step (w : World S L) : Event S L → World S L
  | .onChange listener => { w with listeners := w.listeners ++ [listener] }
  | .change g state =>
    match w.goroutine g with
    | .returned =>
      { w.moved g .entering with
        pending := w.pending ++ state.toList, enqueued := w.enqueued ++ state.toList }
    | _ => w
  | .goOn g =>
    match w.goroutine g with
    | .returned => w
    | .entering => if w.delivering then w.moved g .returned else w.takeNext g
    | .calling => w.takeNext g

def start (listeners : List L) : World S L := ⟨listeners, [], false, fun _ => .returned, [], []⟩

structure Orderly (w : World S L) : Prop where
  /-- each snapshot is passed on once, in the order of the queue -/
  order : w.enqueued = w.delivered.map Prod.fst ++ w.pending
  single : ∀ g g', w.goroutine g = .calling → w.goroutine g' = .calling → g = g'
  complete : (∀ g, w.goroutine g = .returned) → w.pending = []

/-- `d` is the goroutine that delivers, if there is one. -/
structure Inv (w : World S L) (d : Option Nat) : Prop where
  order : w.enqueued = w.delivered.map Prod.fst ++ w.pending
  calling : ∀ g, w.goroutine g = .calling ↔ d = some g
  flag : w.delivering = d.isSome
  /-- what is queued is seen by the one that delivers or by one that enters -/
  woken : w.pending ≠ [] → d ≠ none ∨ ∃ g, w.goroutine g = .entering

variable {w : World S L} {g : Nat} {d : Option Nat}

/-- Who delivers after `g` has moved. -/
theorem calling_moved {pc : Pc} (hg : pc = .calling ↔ d = some g)
    (h : ∀ g' ≠ g, w.goroutine g' = .calling ↔ d = some g') (g' : Nat) :
    (w.moved g pc).goroutine g' = .calling ↔ d = some g' := by
  simp only [World.moved, Function.update_apply]
  split
  · next heq => rwa [heq]
  · next hne => exact h g' hne

theorem takeNext_inv (horder : w.enqueued = w.delivered.map Prod.fst ++ w.pending)
    (hothers : ∀ g' ≠ g, w.goroutine g' ≠ .calling) : ∃ d, Inv (w.takeNext g) d := by
  unfold World.takeNext
  split
  · next hpending =>
    exact ⟨none, horder, calling_moved (by simp) (by simpa using hothers), rfl,
      fun h => (h hpending).elim⟩
  · next state pending hpending =>
    refine ⟨some g, horder.trans (by simp [hpending]), calling_moved (by simp) fun g' hne => ?_, rfl,
      fun _ => .inl (by simp)⟩
    simp [hothers g' hne, hne.symm]

theorem Inv.only (h : Inv w d) {g' : Nat} (hg' : w.goroutine g' = .calling)
    (hg : w.goroutine g = .calling) : g' = g :=
  Option.some.inj (((h.calling g').mp hg').symm.trans ((h.calling g).mp hg))

theorem step_inv : Kept (step (S := S) (L := L)) fun w => ∃ d, Inv w d := by
  rintro w e ⟨d, h⟩
  cases e with
  | onChange listener => exact ⟨d, { h with }⟩
  | change g state =>
    simp only [step]
    split
    · next hpc =>
      refine ⟨d, ?_, calling_moved (by simp [← h.calling, hpc]) fun g' _ => h.calling g', h.flag,
        fun _ => .inr ⟨g, ?_⟩⟩
      · simp [World.moved, h.order]
      · simp [World.moved]
    · exact ⟨d, h⟩
  | goOn g =>
    simp only [step]
    split
    · exact ⟨d, h⟩
    · next hpc =>
      split
      · next hflag =>
        -- The one that delivers finds what this call has queued.
        have hsome : d ≠ none := Option.isSome_iff_ne_none.mp (h.flag ▸ hflag)
        exact ⟨d, h.order, calling_moved (by simp [← h.calling, hpc]) fun g' _ => h.calling g', h.flag,
          fun _ => .inl hsome⟩
      · next hflag =>
        refine takeNext_inv h.order fun g' _ hg' => ?_
        simp [h.flag, (h.calling g').mp hg'] at hflag
    · next hpc => exact takeNext_inv h.order fun g' hne hg' => hne (h.only hg' hpc)

theorem Inv.orderly (h : Inv w d) : Orderly w := by
  refine ⟨h.order, fun g g' hg hg' => h.only hg hg', fun hall => ?_⟩
  by_contra hpending
  rcases h.woken hpending with hsome | ⟨g, hentering⟩
  · obtain ⟨g, hg⟩ := Option.ne_none_iff_exists'.mp hsome
    simpa [hall g] using (h.calling g).mpr hg
  · simp [hall g] at hentering

/-- In every interleaving of calls each snapshot that is enqueued is passed on
once, in order, by one goroutine at a time, and no snapshot is left when all
calls have returned. -/
theorem listeners_see_every_change (listeners : List L) (events : List (Event S L)) :
    Always step Orderly (start listeners) events := by
  refine Always.of_closed step_inv ⟨none, rfl, ?_, rfl, fun h => (h rfl).elim⟩ ?_ events
  · simp [start]
  · rintro w ⟨d, h⟩
    exact h.orderly

end Mwan.Bgp.Listeners

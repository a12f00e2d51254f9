import Mathlib.Tactic.Common

/-!
# Machines that take one event after another

A machine is a function from a state and an event to the next state; an event
that cannot happen leaves the state as it is. `runAll` is the state after a
list of events, `Always` a property of every state of a run and `Each` a
property of every event in the state it comes in.

Results:
* `Always.of_closed`, `Each.of_closed`: what every event keeps holds all along;
* `Each.invariant`: the same under a condition on the events;
* `Each.congr`, `always_iff_each`: a property of the run is the same as a
  condition on its events, if it is for one event;
* `Inevitable.of_decreasing`: what holds wherever no step is left happens on
  every way there, if every step makes some measure smaller.
-/
namespace Mwan.Core

variable {σ ε : Type}

/-- The state after the events. -/
def runAll (step : σ → ε → σ) : σ → List ε → σ
  | s, [] => s
  | s, e :: events => runAll step (step s e) events

/-- `P` holds in every state of the run. -/
def Always (step : σ → ε → σ) (P : σ → Prop) : σ → List ε → Prop
  | s, [] => P s
  | s, e :: events => P s ∧ Always step P (step s e) events

/-- `R` holds of every event in the state it comes in. -/
def Each (step : σ → ε → σ) (R : σ → ε → Prop) : σ → List ε → Prop
  | _, [] => True
  | s, e :: events => R s e ∧ Each step R (step s e) events

/-- Every event keeps `I`. -/
def Kept (step : σ → ε → σ) (I : σ → Prop) : Prop := ∀ s e, I s → I (step s e)

section Runs

variable {step : σ → ε → σ} {I P : σ → Prop} {R R' : σ → ε → Prop} {s : σ}

theorem Kept.runAll (hI : Kept step I) (hs : I s) (events : List ε) :
    I (Core.runAll step s events) := by
  induction events generalizing s with
  | nil => exact hs
  | cons e events ih => exact ih (hI s e hs)

/-- A property of every state of a run holds after each of its beginnings. -/
theorem always_iff {events : List ε} :
    Always step P s events ↔ ∀ first, first <+: events → P (runAll step s first) := by
  induction events generalizing s with
  | nil =>
    simp only [Always, List.prefix_nil]
    exact ⟨fun h _ hf => hf ▸ h, fun h => h [] rfl⟩
  | cons e events ih =>
    simp only [Always, ih]
    constructor
    · intro ⟨hs, hrest⟩ first hfirst
      cases first with
      | nil => exact hs
      | cons d first =>
        obtain ⟨rfl, hrestPrefix⟩ := List.cons_prefix_cons.mp hfirst
        exact hrest first hrestPrefix
    · intro h
      exact ⟨h [] List.nil_prefix,
        fun first hfirst => h (e :: first) (List.cons_prefix_cons.mpr ⟨rfl, hfirst⟩)⟩

theorem Always.of_closed (hI : Kept step I) (hs : I s) (hP : ∀ s, I s → P s)
    (events : List ε) : Always step P s events :=
  always_iff.mpr fun first _ => hP _ (hI.runAll hs first)

theorem Each.of_closed (hI : Kept step I) (hs : I s) (hR : ∀ s e, I s → R s e)
    (events : List ε) : Each step R s events := by
  induction events generalizing s with
  | nil => trivial
  | cons e events ih => exact ⟨hR s e hs, ih (hI s e hs)⟩

/-- What is kept by the events that meet a condition holds all along a run of
such events. -/
theorem Each.invariant (hI : ∀ s e, I s → R s e → I (step s e) ∧ R' s e) (hP : ∀ s, I s → P s)
    (hs : I s) {events : List ε} (h : Each step R s events) :
    Always step P s events ∧ Each step R' s events := by
  induction events generalizing s with
  | nil => exact ⟨hP s hs, trivial⟩
  | cons e events ih =>
    obtain ⟨hnext, he⟩ := hI s e hs h.1
    obtain ⟨halways, heach⟩ := ih hnext h.2
    exact ⟨⟨hP s hs, halways⟩, he, heach⟩

theorem Each.always (hI : ∀ s e, I s → R s e → I (step s e)) (hP : ∀ s, I s → P s) (hs : I s)
    {events : List ε} (h : Each step R s events) : Always step P s events :=
  (Each.invariant (fun s e hs he => ⟨hI s e hs he, he⟩) hP hs h).1

theorem Each.and {events : List ε} (h : Each step R s events) (h' : Each step R' s events) :
    Each step (fun s e => R s e ∧ R' s e) s events := by
  induction events generalizing s with
  | nil => trivial
  | cons e events ih => exact ⟨⟨h.1, h'.1⟩, ih h.2 h'.2⟩

/-- Two conditions on an event that agree where `I` holds agree on a run. -/
theorem Each.congr (hI : Kept step I) (hs : I s) (h : ∀ s e, I s → (R s e ↔ R' s e))
    (events : List ε) : Each step R s events ↔ Each step R' s events := by
  induction events generalizing s with
  | nil => rfl
  | cons e events ih => exact and_congr (h s e hs) (ih (hI s e hs))

/-- A property holds all along exactly if every event is one that keeps it. -/
theorem always_iff_each (hI : Kept step I) (hs : I s) (hP : P s)
    (h : ∀ s e, I s → P s → (P (step s e) ↔ R s e)) (events : List ε) :
    Always step P s events ↔ Each step R s events := by
  induction events generalizing s with
  | nil => exact ⟨fun _ => trivial, fun _ => hP⟩
  | cons e events ih =>
    have hfirst (hnext : Always step P (step s e) events) : P (step s e) :=
      always_iff.mp hnext [] List.nil_prefix
    constructor
    · intro ⟨_, hnext⟩
      exact ⟨(h s e hs hP).mp (hfirst hnext), (ih (hI s e hs) (hfirst hnext)).mp hnext⟩
    · intro ⟨he, hrest⟩
      have hnext := (h s e hs hP).mpr he
      exact ⟨hP, (ih (hI s e hs) hnext).mpr hrest⟩

end Runs

instance Always.decidable (step : σ → ε → σ) (P : σ → Prop) [∀ s, Decidable (P s)] (s : σ)
    (events : List ε) : Decidable (Always step P s events) :=
  match events with
  | [] => inferInstanceAs (Decidable (P s))
  | e :: events =>
    have := Always.decidable step P (step s e) events
    inferInstanceAs (Decidable (P s ∧ Always step P (step s e) events))

instance Each.decidable (step : σ → ε → σ) (R : σ → ε → Prop) [∀ s e, Decidable (R s e)] (s : σ)
    (events : List ε) : Decidable (Each step R s events) :=
  match events with
  | [] => inferInstanceAs (Decidable True)
  | e :: events =>
    have := Each.decidable step R (step s e) events
    inferInstanceAs (Decidable (R s e ∧ Each step R (step s e) events))

/-! ## What happens on every way -/

/-- On every way of steps, `P` holds at some point. -/
inductive Inevitable (next : σ → σ → Prop) (P : σ → Prop) : σ → Prop
  | now {s : σ} (h : P s) : Inevitable next P s
  | later {s : σ} (hstep : ∃ s', next s s') (h : ∀ s', next s s' → Inevitable next P s') :
      Inevitable next P s

theorem Inevitable.of_decreasing {next : σ → σ → Prop} {I P : σ → Prop} {τ : Type}
    {r : τ → τ → Prop} (hr : WellFounded r) (f : σ → τ)
    (hnext : ∀ s s', I s → next s s' → I s' ∧ r (f s') (f s))
    (hstuck : ∀ s, I s → (¬ ∃ s', next s s') → P s) {s : σ} (hs : I s) :
    Inevitable next P s := by
  generalize hv : f s = v
  induction v using hr.induction generalizing s with
  | h v ih =>
    subst hv
    by_cases hstep : ∃ s', next s s'
    · refine .later hstep fun s' hs' => ?_
      obtain ⟨hI, hlt⟩ := hnext s s' hs hs'
      exact ih (f s') hlt hI rfl
    · exact .now (hstuck s hs hstep)

end Mwan.Core

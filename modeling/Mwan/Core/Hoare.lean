import Mathlib.Tactic.Common

/-!
# Pre- and postconditions for programs with a history

`Triple P x Q E` says what a program does from a state satisfying `P`: it ends
normally in `Q` or with an error in `E`. `Prog` programs run on a world whose
every change is recorded, so that a property can be asked of each world a run
passes through and not only of the last one.

`Spec Step P x Q E` is the triple together with the statement that every
change the program makes is a `Step`. A program is gone through once for its
steps, and each invariant is then a matter of the steps alone.

Results:
* `History.always`, `History.after`: what the steps preserve holds in every
  world of a history, or in every world after one that has it;
* one rule for each way to build a program (`Spec.pure`, `Spec.bind`,
  `Spec.forM`, ...).
-/
namespace Mwan.Core

open List

variable {ε σ ω α β : Type}

/-! ## Triples -/

/-- From `P` the program ends normally in `Q` or with an error in `E`. -/
def Triple (P : σ → Prop) (x : EStateM ε σ α) (Q : α → σ → Prop) (E : ε → σ → Prop) : Prop :=
  ∀ s, P s → match x s with
    | .ok a t => Q a t
    | .error e t => E e t

theorem Triple.bind {P : σ → Prop} {x : EStateM ε σ α} {f : α → EStateM ε σ β}
    {R : α → σ → Prop} {Q : β → σ → Prop} {E : ε → σ → Prop} (hx : Triple P x R E)
    (hf : ∀ a, Triple (R a) (f a) Q E) : Triple P (x >>= f) Q E := by
  intro s hs
  have h := hx s hs
  change match EStateM.bind x f s with
    | .ok a t => Q a t
    | .error e t => E e t
  unfold EStateM.bind
  cases hr : x s with
  | ok a t =>
    rw [hr] at h
    exact hf a t h
  | error e t =>
    rw [hr] at h
    exact h

theorem Triple.conseq {P P' : σ → Prop} {x : EStateM ε σ α} {Q Q' : α → σ → Prop}
    {E E' : ε → σ → Prop} (h : Triple P' x Q' E') (hP : ∀ s, P s → P' s)
    (hQ : ∀ a s, Q' a s → Q a s) (hE : ∀ e s, E' e s → E e s) : Triple P x Q E := by
  intro s hs
  have h := h s (hP s hs)
  cases hr : x s with
  | ok a t =>
    rw [hr] at h
    exact hQ a t h
  | error e t =>
    rw [hr] at h
    exact hE e t h

/-! ## Programs that keep their history -/

/-- A world and the worlds before it, the latest first. -/
structure Traced (ω : Type) where
  now : ω
  trace : List ω

/-- A program that may fail and records every world it makes. -/
abbrev Prog (ε ω α : Type) := EStateM ε (Traced ω) α

namespace Prog

/-- The current world. -/
def read : Prog ε ω ω := fun s => .ok s.now s

/-- Make a new world of the current one. -/
def update (f : ω → ω) : Prog ε ω Unit := fun s =>
  .ok () { now := f s.now, trace := s.now :: s.trace }

/-- Make a new world if `c` holds. -/
def updateIf (c : Prop) [Decidable c] (f : ω → ω) : Prog ε ω Unit := if c then update f else pure ()

/-- Fail with `e` if `c` holds. -/
def refuse (c : Prop) [Decidable c] (e : ε) : Prog ε ω Unit := if c then throw e else pure ()

/-- The value, or fail. -/
def orFail (e : ε) : Option α → Prog ε ω α
  | some a => pure a
  | none => throw e

/-- A checked value, or its error. -/
def checked : Except ε α → Prog ε ω α
  | .ok a => pure a
  | .error e => throw e

/-- Fail if there is an error. -/
def raise : Option ε → Prog ε ω Unit
  | some e => throw e
  | none => pure ()

/-- Run a program for its error, if it ends with one; what it changed stays
changed. -/
def err (x : Prog ε ω Unit) : Prog ε ω (Option ε) := fun s =>
  match x s with
  | .ok _ t => .ok none t
  | .error e t => .ok (some e) t

end Prog

/-- `w₀` and the worlds after it, each reached from the one before by a step;
the latest first. -/
inductive History (Step : ω → ω → Prop) (w₀ : ω) : List ω → Prop
  | start : History Step w₀ [w₀]
  | step {w w' : ω} {l : List ω} : History Step w₀ (w :: l) → Step w w' →
      History Step w₀ (w' :: w :: l)

/-- `K` is preserved by every step. -/
def Closed (Step : ω → ω → Prop) (K : ω → Prop) : Prop := ∀ w w', Step w w' → K w → K w'

variable {w₀ : ω}

variable {Step : ω → ω → Prop}

/-- What the steps preserve holds in every world of a history. -/
theorem History.always {l : List ω} (h : History Step w₀ l) {K : ω → Prop} (hK : Closed Step K)
    (h₀ : K w₀) : ∀ w ∈ l, K w := by
  induction h with
  | start =>
    intro w hw
    rw [mem_singleton.mp hw]
    exact h₀
  | step _ hs ih =>
    intro w hw
    cases mem_cons.mp hw with
    | inl h => rw [h]; exact hK _ _ hs (ih _ mem_cons_self)
    | inr h => exact ih w h

variable {Step' : ω → ω → Prop}

theorem History.mono {l : List ω} (h : History Step w₀ l) (hstep : ∀ w w', Step w w' → Step' w w') :
    History Step' w₀ l := by
  induction h with
  | start => exact .start
  | step _ hs ih => exact ih.step (hstep _ _ hs)

/-- What the steps preserve holds in every world after one in which it holds. -/
theorem History.after {later earlier : List ω} {w : ω} (h : History Step w₀ (later ++ w :: earlier))
    {K : ω → Prop} (hK : ∀ u u', u ∈ later ++ w :: earlier → Step u u' → K u → K u') (hw : K w) :
    ∀ w' ∈ later, K w' := by
  suffices ∀ w' ∈ later ++ [w], K w' from fun w' h => this w' (mem_append_left _ h)
  induction later with
  | nil =>
    intro w' hw'
    rw [mem_singleton.mp hw']
    exact hw
  | cons v later ih =>
    intro w' hw'
    have hK' : ∀ u u', u ∈ later ++ w :: earlier → Step u u' → K u → K u' :=
      fun u u' hu => hK u u' (mem_cons_of_mem v hu)
    cases later with
    | nil =>
      cases h with
      | step h hs =>
        cases mem_cons.mp hw' with
        | inl hv => rw [hv]; exact hK w v (by simp) hs hw
        | inr hv => rw [mem_singleton.mp hv]; exact hw
    | cons u =>
      cases h with
      | step h hs =>
        cases mem_cons.mp hw' with
        | inl hv => rw [hv]; exact hK u v (by simp) hs (ih h hK' u mem_cons_self)
        | inr hv => exact ih h hK' w' hv

/-- The program's changes are steps, and it takes `P` to `Q` or, with an
error, to `E`. -/
def Spec (Step : ω → ω → Prop) (P : ω → Prop) (x : Prog ε ω α) (Q : α → ω → Prop)
    (E : ε → ω → Prop) : Prop :=
  ∀ w₀, Triple (fun s => History Step w₀ (s.now :: s.trace) ∧ P s.now) x
    (fun a s => History Step w₀ (s.now :: s.trace) ∧ Q a s.now)
    (fun e s => History Step w₀ (s.now :: s.trace) ∧ E e s.now)

/-- A program whose changes are steps and that keeps `P` however it ends. -/
abbrev Keeps (Step : ω → ω → Prop) (P : ω → Prop) (x : Prog ε ω α) : Prop :=
  Spec Step P x (fun _ => P) (fun _ => P)

variable {e : ε} {f : β → Prog ε ω α} {c : Prop}

variable {R : β → ω → Prop} {x : Prog ε ω α} {Q' : α → ω → Prop} {E' : ε → ω → Prop}

section Rules

variable {Step : ω → ω → Prop} {P P' : ω → Prop} {Q : α → ω → Prop} {E : ε → ω → Prop}

theorem Spec.pure {a : α} (h : ∀ w, P w → Q a w) : Spec Step P (Pure.pure a : Prog ε ω α) Q E :=
  fun _ s hs => ⟨hs.1, h s.now hs.2⟩

theorem Spec.throw (h : ∀ w, P w → E e w) : Spec Step P (MonadExcept.throw e : Prog ε ω α) Q E :=
  fun _ s hs => ⟨hs.1, h s.now hs.2⟩

theorem Spec.skip {a : α} : Spec Step P (Pure.pure a : Prog ε ω α) (fun _ => P) E :=
  Spec.pure fun _ h => h

theorem Spec.abort : Spec Step P (MonadExcept.throw e : Prog ε ω α) Q (fun _ => P) :=
  Spec.throw fun _ h => h

theorem Spec.bind {x : Prog ε ω β} (hx : Spec Step P x R E) (hf : ∀ b, Spec Step (R b) (f b) Q E) :
    Spec Step P (x >>= f) Q E :=
  fun w₀ => .bind (hx w₀) fun b => hf b w₀

theorem Spec.conseq (h : Spec Step P' x Q' E') (hP : ∀ w, P w → P' w) (hQ : ∀ a w, Q' a w → Q a w)
    (hE : ∀ e w, E' e w → E e w) : Spec Step P x Q E :=
  fun w₀ => (h w₀).conseq (fun _ hs => ⟨hs.1, hP _ hs.2⟩) (fun a _ hs => ⟨hs.1, hQ a _ hs.2⟩)
    fun e _ hs => ⟨hs.1, hE e _ hs.2⟩

theorem Spec.pre (h : Spec Step P' x Q E) (hP : ∀ w, P w → P' w) : Spec Step P x Q E :=
  h.conseq hP (fun _ _ h => h) fun _ _ h => h

theorem Spec.post (h : Spec Step P x Q' E') (hQ : ∀ a w, Q' a w → Q a w)
    (hE : ∀ e w, E' e w → E e w) :
    Spec Step P x Q E :=
  h.conseq (fun _ h => h) hQ hE

theorem Spec.onError (h : Spec Step P x Q E') (hE : ∀ e w, E' e w → E e w) : Spec Step P x Q E :=
  h.post (fun _ _ h => h) hE

/-- A fact about the world before the program, used as a hypothesis. -/
theorem Spec.given (h : ∀ w₀, P w₀ → Spec Step (fun w => w = w₀) x Q E) : Spec Step P x Q E :=
  fun w₀ s hs => h s.now hs.2 w₀ s ⟨hs.1, rfl⟩

/-- The current world bound to a name. -/
theorem Spec.bindRead {f : ω → Prog ε ω α}
    (h : ∀ w₀, P w₀ → Spec Step (fun w => w = w₀) (f w₀) Q E) : Spec Step P (Prog.read >>= f) Q E :=
  fun w₀ s hs => h s.now hs.2 w₀ s ⟨hs.1, rfl⟩

theorem Spec.update {f : ω → ω} {Q : Unit → ω → Prop} (hstep : ∀ w, P w → Step w (f w))
    (hQ : ∀ w, P w → Q () (f w)) : Spec Step P (Prog.update f : Prog ε ω Unit) Q E :=
  fun _ s hs => ⟨hs.1.step (hstep s.now hs.2), hQ s.now hs.2⟩

/-- The last rule and the one for `pure` in a known world. -/
theorem Spec.updateAt {w : ω} {f : ω → ω} {Q : Unit → ω → Prop} (hstep : Step w (f w))
    (hQ : Q () (f w)) : Spec Step (fun w' => w' = w) (Prog.update f : Prog ε ω Unit) Q E :=
  Spec.update (fun _ hw => hw ▸ hstep) fun _ hw => hw ▸ hQ

theorem Spec.pureAt {w : ω} {a : α} (h : Q a w) :
    Spec Step (fun w' => w' = w) (Pure.pure a : Prog ε ω α) Q E :=
  Spec.pure fun _ hw => hw ▸ h

theorem Spec.ite [Decidable c] {y : Prog ε ω α} (hx : c → Spec Step P x Q E)
    (hy : ¬ c → Spec Step P y Q E) : Spec Step P (if c then x else y) Q E := by
  by_cases h : c
  · rw [if_pos h]; exact hx h
  · rw [if_neg h]; exact hy h

theorem Spec.updateIf [Decidable c] {f : ω → ω} {Q : Unit → ω → Prop}
    (hstep : ∀ w, P w → c → Step w (f w)) (hQ : ∀ w, P w → c → Q () (f w))
    (hno : ∀ w, P w → ¬ c → Q () w) : Spec Step P (Prog.updateIf c f : Prog ε ω Unit) Q E :=
  Spec.ite (fun hc => .update (fun w hw => hstep w hw hc) fun w hw => hQ w hw hc)
    fun hc => .pure fun w hw => hno w hw hc

theorem Spec.refuse [Decidable c] {Q : Unit → ω → Prop} (hE : ∀ w, P w → c → E e w)
    (hQ : ∀ w, P w → ¬ c → Q () w) :
    Spec Step P (Prog.refuse c e) Q E :=
  Spec.ite (fun hc => .throw fun w hw => hE w hw hc)
    fun hc => .pure fun w hw => hQ w hw hc

/-- Go on with what has not been refused. -/
theorem Spec.bindRefuse [Decidable c] {f : Unit → Prog ε ω α} (hE : ∀ w, P w → c → E e w)
    (hf : ¬ c → Spec Step P (f ()) Q E) :
    Spec Step P (Prog.refuse c e >>= f) Q E := by
  by_cases h : c
  · exact .bind (.refuse (Q := fun _ _ => False) hE fun _ _ hc => absurd h hc)
      fun _ _ _ hs => hs.2.elim
  · exact .bind (.refuse (Q := fun _ => P) hE fun _ hw _ => hw) fun _ => hf h

theorem Spec.orFail {o : Option α} (hE : ∀ w, P w → E e w) (hQ : ∀ a w, o = some a → P w → Q a w) :
    Spec Step P (Prog.orFail e o) Q E := by
  cases o with
  | none => exact .throw hE
  | some a => exact .pure fun w hw => hQ a w rfl hw

theorem Spec.checked {o : Except ε α} (hE : ∀ e w, P w → E e w)
    (hQ : ∀ a w, o = .ok a → P w → Q a w) : Spec Step P (Prog.checked o) Q E := by
  cases o with
  | error e => exact .throw (hE e)
  | ok a => exact .pure fun w hw => hQ a w rfl hw

/-- Go on with a value that has been checked. -/
theorem Spec.bindChecked {o : Except ε β} (hE : ∀ e w, P w → E e w)
    (hf : ∀ b, o = .ok b → Spec Step P (f b) Q E) : Spec Step P (Prog.checked o >>= f) Q E := by
  cases o with
  | error e => exact .bind (R := fun _ _ => False) (.throw (hE e)) fun _ _ _ hs => hs.2.elim
  | ok b =>
    refine .bind (R := fun c w => c = b ∧ P w) (.pure fun w hw => ⟨rfl, hw⟩) fun c => ?_
    intro w₀ s hs
    have hb := hs.2.1
    subst hb
    exact hf c rfl w₀ s ⟨hs.1, hs.2.2⟩

theorem Spec.raise {o : Option ε} {Q : Unit → ω → Prop} (hE : ∀ e w, o = some e → P w → E e w)
    (hQ : ∀ w, o = none → P w → Q () w) : Spec Step P (Prog.raise o) Q E := by
  cases o with
  | none => exact .pure fun w hw => hQ w rfl hw
  | some e => exact .throw fun w hw => hE e w rfl hw

/-- Both outcomes of a program run for its error go on. -/
theorem Spec.err {x : Prog ε ω Unit} {R : Unit → ω → Prop} {F : ε → ω → Prop}
    {Q : Option ε → ω → Prop} (h : Spec Step P x R F) (hok : ∀ w, R () w → Q none w)
    (herr : ∀ e w, F e w → Q (some e) w) : Spec Step P (Prog.err x) Q E := by
  intro w₀ s hs
  have h := h w₀ s hs
  unfold Prog.err
  cases hr : x s with
  | ok a t =>
    rw [hr] at h
    exact ⟨h.1, hok t.now h.2⟩
  | error e t =>
    rw [hr] at h
    exact ⟨h.1, herr e t.now h.2⟩

/-- A loop with an assertion on what is left to do. -/
theorem Spec.forM {I : List β → ω → Prop} {f : β → Prog ε ω PUnit}
    (h : ∀ a l, Spec Step (I (a :: l)) (f a) (fun _ => I l) E) (l : List β) :
    Spec Step (I l) (l.forM f) (fun _ => I []) E := by
  induction l with
  | nil => exact .pure fun _ hw => hw
  | cons a l ih => exact .bind (h a l) fun _ => ih

/-- A loop with an accumulator and an assertion on what is left to do. -/
theorem Spec.foldlM {γ : Type} {I : List β → γ → ω → Prop} {f : γ → β → Prog ε ω γ}
    (h : ∀ a l c, Spec Step (I (a :: l) c) (f c a) (I l) E) (l : List β) (c : γ) :
    Spec Step (I l c) (l.foldlM f c) (I []) E := by
  induction l generalizing c with
  | nil => exact .pure fun _ hw => hw
  | cons a l ih => exact .bind (h a l c) fun c => ih c

/-- The same with an assertion on what has been done. -/
theorem Spec.foldlM_done {γ : Type} {I : List β → γ → ω → Prop} {f : γ → β → Prog ε ω γ} {l : List β}
    (h : ∀ done a c, a ∈ l → Spec Step (I done c) (f c a) (I (done ++ [a])) E) (c : γ) :
    Spec Step (I [] c) (l.foldlM f c) (I l) E := by
  have hrest (rest done : List β) (hl : done ++ rest = l) (c : γ) :
      Spec Step (I done c) (rest.foldlM f c) (I l) E := by
    induction rest generalizing done c with
    | nil =>
      rw [← hl, append_nil]
      exact .pure fun _ hw => hw
    | cons a rest ih =>
      refine .bind (h done a c (by simp [← hl])) fun c => ih (done ++ [a]) ?_ c
      rw [← hl, append_assoc, singleton_append]
  exact hrest l [] rfl c

end Rules

/-! ## Whole runs -/

/-- The worlds a run from `w` passes through, the latest first. -/
def Prog.worlds (x : Prog ε ω α) (w : ω) : List ω :=
  match x ⟨w, []⟩ with
  | .ok _ t => t.now :: t.trace
  | .error _ t => t.now :: t.trace

/-- The world a run from `w` ends in. -/
def Prog.last (x : Prog ε ω α) (w : ω) : ω :=
  match x ⟨w, []⟩ with
  | .ok _ t => t.now
  | .error _ t => t.now

section Runs

variable {Step : ω → ω → Prop} {P : ω → Prop} {x : Prog ε ω α} {Q : α → ω → Prop}
  {E : ε → ω → Prop} {w : ω}

theorem Spec.history (h : Spec Step P x Q E) (hw : P w) : History Step w (x.worlds w) := by
  have h := h w ⟨w, []⟩ ⟨.start, hw⟩
  unfold Prog.worlds
  cases hr : x ⟨w, []⟩ with
  | ok | error => rw [hr] at h; exact h.1

/-- What both ends of a program imply holds in the last world. -/
theorem Spec.last (h : Spec Step P x Q E) (hw : P w) {R : ω → Prop} (hQ : ∀ a w, Q a w → R w)
    (hE : ∀ e w, E e w → R w) : R (x.last w) := by
  have h := h w ⟨w, []⟩ ⟨.start, hw⟩
  unfold Prog.last
  cases hr : x ⟨w, []⟩ with
  | ok a t => rw [hr] at h; exact hQ a _ h.2
  | error e t => rw [hr] at h; exact hE e _ h.2

end Runs

/-! ## Worlds on the way -/

/-- Any change is a step. -/
def AnyStep (_ _ : ω) : Prop := True

/-- Some world so far has `B`. -/
def Seen (B : ω → Prop) (s : Traced ω) : Prop := ∃ w ∈ s.now :: s.trace, B w

/-- However the run from `P` goes, it passes through a world with `B`. -/
def Passes (P : ω → Prop) (x : Prog ε ω α) (B : ω → Prop) : Prop :=
  Triple (fun s => P s.now) x (fun _ => Seen B) (fun _ => Seen B)

/-- The program forgets no world. -/
def Remembers (x : Prog ε ω α) : Prop :=
  ∀ B : ω → Prop, Triple (Seen B) x (fun _ => Seen B) (fun _ => Seen B)

section Passes

variable {P : ω → Prop} {B : ω → Prop}

theorem Remembers.pure (a : α) : Remembers (Pure.pure a : Prog ε ω α) := fun _ _ h => h

theorem Remembers.update (f : ω → ω) : Remembers (Prog.update f : Prog ε ω Unit) := by
  intro B s ⟨w, hw, hB⟩
  exact ⟨w, .tail _ hw, hB⟩

theorem Remembers.updateIf (c : Prop) [Decidable c] (f : ω → ω) :
    Remembers (Prog.updateIf c f : Prog ε ω Unit) := by
  unfold Prog.updateIf
  split
  · exact .update f
  · exact .pure ()

theorem Remembers.bind {x : Prog ε ω β} (hx : Remembers x) (hf : ∀ b, Remembers (f b)) :
    Remembers (x >>= f) :=
  fun B => .bind (hx B) fun b => hf b B

/-- Where every change is a step, a specification is a triple. -/
theorem Spec.triple {Q : α → ω → Prop} {E : ε → ω → Prop} (h : Spec AnyStep P x Q E) :
    Triple (fun s => P s.now) x (fun a s => Q a s.now) (fun e s => E e s.now) := by
  have hall (l : List ω) (w : ω) : ∃ w₀, History AnyStep w₀ (w :: l) := by
    induction l generalizing w with
    | nil => exact ⟨w, .start⟩
    | cons w' l ih =>
      obtain ⟨w₀, h⟩ := ih w'
      exact ⟨w₀, h.step trivial⟩
  intro s hs
  obtain ⟨w₀, hl⟩ := hall s.trace s.now
  have h := h w₀ s ⟨hl, hs⟩
  cases hr : x s with
  | ok | error => rw [hr] at h; exact h.2

/-- A program that ends in a world with `B` has passed through one. -/
theorem Passes.of_spec (h : Spec AnyStep P x (fun _ => B) (fun _ => B)) : Passes P x B :=
  h.triple.conseq (fun _ h => h) (fun _ s h => ⟨s.now, (.head _), h⟩)
    fun _ s h => ⟨s.now, (.head _), h⟩

theorem Passes.bind {x : Prog ε ω β} (hx : Passes P x B) (hf : ∀ b, Remembers (f b)) :
    Passes P (x >>= f) B :=
  Triple.bind hx fun b => hf b B

/-- The world is passed behind the first part, which ends without an error. -/
theorem Passes.behind {x : Prog ε ω β} (hx : Spec AnyStep P x R (fun _ _ => False))
    (hf : ∀ b, Passes (R b) (f b) B) :
    Passes P (x >>= f) B :=
  Triple.bind (hx.triple.conseq (fun _ h => h) (fun _ _ h => h) fun _ _ h => h.elim) hf

theorem Passes.given (h : ∀ w, P w → Passes (fun w' => w' = w) x B) : Passes P x B :=
  fun s hs => h s.now hs s rfl

theorem Passes.bindRead {f : ω → Prog ε ω α}
    (h : ∀ w, P w → Passes (fun w' => w' = w) (f w) B) : Passes P (Prog.read >>= f) B :=
  fun s hs => h s.now hs s rfl

theorem Passes.bindRefuse [Decidable c] {f : Unit → Prog ε ω α} (hc : ¬ c) (h : Passes P (f ()) B) :
    Passes P (Prog.refuse c e >>= f) B := by
  unfold Prog.refuse
  rw [if_neg hc]
  exact h

theorem Passes.worlds (h : Passes P x B) {w : ω} (hw : P w) : ∃ w' ∈ x.worlds w, B w' := by
  have h := h ⟨w, []⟩ hw
  unfold Prog.worlds
  cases hr : x ⟨w, []⟩ with
  | ok | error => rw [hr] at h; exact h

end Passes

/-! ## Programs on a part of the world -/

/-- The history of a part as the history of the whole. -/
def Traced.within {κ : Type} (put : κ → ω → ω) (s : Traced ω) (t : Traced κ) : Traced ω where
  now := put t.now s.now
  trace := t.trace.map (put · s.now) ++ s.trace

/-- Run a program on the part of the world that `get` reads and `put` writes,
with its errors wrapped. -/
def Prog.zoom {ε' κ : Type} (get : ω → κ) (put : κ → ω → ω) (wrap : ε' → ε) (x : Prog ε' κ α) :
    Prog ε ω α := fun s =>
  match x ⟨get s.now, []⟩ with
  | .ok a t => .ok a (s.within put t)
  | .error e t => .error (wrap e) (s.within put t)

section Zoom

variable {κ : Type} {get : ω → κ} {put : κ → ω → ω}

/-- A history of the part continues the history of the whole, if the steps of
the part are steps of the whole where `K` holds, which they keep. -/
theorem History.within {Step : κ → κ → Prop} {K : κ → Prop} {s : Traced ω} {l : List κ}
    (hl : History Step (get s.now) l) (hs : History Step' w₀ (s.now :: s.trace))
    (hput : put (get s.now) s.now = s.now) (hK : Closed Step K) (hK₀ : K (get s.now))
    (hstep : ∀ k k', K k → Step k k' → Step' (put k s.now) (put k' s.now)) :
    History Step' w₀ (l.map (put · s.now) ++ s.trace) := by
  induction hl with
  | start => simpa [hput] using hs
  | @step k k' l hl hk ih =>
    exact .step ih (hstep k k' (hl.always hK hK₀ k mem_cons_self) hk)

theorem Spec.zoom {ε' : Type} {wrap : ε' → ε} {Step : κ → κ → Prop} {P₀ : κ → Prop} {P : ω → Prop}
    {x : Prog ε' κ α} {Q : α → κ → Prop} {E : ε' → κ → Prop} (hput : ∀ w, put (get w) w = w)
    (hx : Spec Step P₀ x Q E)
    (h : ∀ w, P w → P₀ (get w) ∧ ∃ K : κ → Prop, Closed Step K ∧ K (get w) ∧
      (∀ k k', K k → Step k k' → Step' (put k w) (put k' w)) ∧
      (∀ a k, Q a k → K k → Q' a (put k w)) ∧ ∀ e k, E e k → K k → E' (wrap e) (put k w)) :
    Spec Step' P (Prog.zoom get put wrap x) Q' E' := by
  intro w₀ s hs
  obtain ⟨hP₀, K, hK, hK₀, hstep, hQ, hE⟩ := h s.now hs.2
  have hrun := hx (get s.now) ⟨get s.now, []⟩ ⟨.start, hP₀⟩
  unfold Prog.zoom
  cases hr : x ⟨get s.now, []⟩ with
  | ok a t =>
    rw [hr] at hrun
    exact ⟨hrun.1.within hs.1 (hput _) hK hK₀ hstep,
      hQ a _ hrun.2 (hrun.1.always hK hK₀ _ mem_cons_self)⟩
  | error e t =>
    rw [hr] at hrun
    exact ⟨hrun.1.within hs.1 (hput _) hK hK₀ hstep,
      hE e _ hrun.2 (hrun.1.always hK hK₀ _ mem_cons_self)⟩

end Zoom

end Mwan.Core

import Mwan.Core.Hoare

/-!
# Programs with a journal

A program changes a system it does not control (`kernel`) and keeps a journal
of what it has done, in memory and in a file. Every operation can fail, and it
can fail after it took effect; `Outcome` says which, and a run reads its
outcomes from a script. The process can die between any two changes, so what
matters is what holds of every pair of system and file on the way; a restart
begins with the file.

`Sat Step P x Q E` is `Spec` for such programs: `P`, `Q` and `E` are about the
books alone, and `Step` about the changes of the books.

Results:
* `Sat.ask`, `Sat.act`, `Sat.save`, `Sat.change`: one rule for each operation;
* `Sat.worlds`, `Sat.last`: what a triple says of a whole run.
-/
namespace Mwan.Core

variable {ε κ ρ α β : Type}

/-- What became of an operation. -/
inductive Outcome
  | ok
  | failed
  | failedAfter
  deriving DecidableEq, Repr

/-- The system, the journal in memory and the journal on disk. -/
structure Books (κ ρ : Type) where
  kernel : κ
  memory : ρ
  durable : ρ

/-- The books and the outcomes to come; where none is left all goes well. -/
structure Desk (κ ρ : Type) where
  books : Books κ ρ
  script : List Outcome := []

/-- A process that starts with the file. -/
def Books.restart (b : Books κ ρ) : Books κ ρ := { b with memory := b.durable }

/-! ## Operations -/

namespace Desk

/-- The outcome of the next operation. -/
def outcome : Prog ε (Desk κ ρ) Outcome := do
  let desk ← Prog.read
  Prog.update fun desk => { desk with script := desk.script.tail }
  pure (desk.script.headD .ok)

/-- The books as they are. -/
def look : Prog ε (Desk κ ρ) (Books κ ρ) := do
  let desk ← Prog.read
  pure desk.books

def update (f : Books κ ρ → Books κ ρ) : Prog ε (Desk κ ρ) Unit :=
  Prog.update fun desk => { desk with books := f desk.books }

/-- Read the system. -/
def ask (e : ε) (f : κ → α) : Prog ε (Desk κ ρ) α := do
  match ← outcome with
  | .ok =>
    let books ← look
    pure (f books.kernel)
  | _ => throw e

/-- Change the system; `f` is `none` where the system refuses. -/
def act (e : ε) (f : κ → Option κ) : Prog ε (Desk κ ρ) Unit := do
  let result ← outcome
  let books ← look
  match result, f books.kernel with
  | .ok, some kernel => update fun books => { books with kernel }
  | .failedAfter, some kernel => do
    update fun books => { books with kernel }
    throw e
  | _, _ => throw e

/-- Write the journal to its file. -/
def save (e : ε) : Prog ε (Desk κ ρ) Unit := do
  match ← outcome with
  | .ok => update fun books => { books with durable := books.memory }
  | .failed => throw e
  | .failedAfter => do
    update fun books => { books with durable := books.memory }
    throw e

/-- Change the journal in memory. -/
def remember (f : ρ → ρ) : Prog ε (Desk κ ρ) Unit :=
  update fun books => { books with memory := f books.memory }

/-- Change the journal and write it; where the write fails the journal in
memory is as it was. -/
def change (e : ε) (f : ρ → ρ) : Prog ε (Desk κ ρ) Unit := do
  let books ← look
  remember f
  match ← Prog.err (save e) with
  | none => pure ()
  | some e => do
    remember fun _ => books.memory
    throw e

end Desk

/-! ## Rules -/

/-- A change of the script, or a step of the books. -/
def DeskStep (Step : Books κ ρ → Books κ ρ → Prop) (d d' : Desk κ ρ) : Prop :=
  d'.books = d.books ∨ Step d.books d'.books

/-- The triple for programs whose conditions are about the books. -/
def Sat (Step : Books κ ρ → Books κ ρ → Prop) (P : Books κ ρ → Prop) (x : Prog ε (Desk κ ρ) α)
    (Q : α → Books κ ρ → Prop) (E : ε → Books κ ρ → Prop) : Prop :=
  Spec (DeskStep Step) (fun d => P d.books) x (fun a d => Q a d.books) fun e d => E e d.books

section Rules

variable {Step : Books κ ρ → Books κ ρ → Prop} {P A : Books κ ρ → Prop}
  {Q : α → Books κ ρ → Prop} {E : ε → Books κ ρ → Prop}

theorem Sat.pure {a : α} (h : ∀ b, P b → Q a b) : Sat Step P (Pure.pure a : Prog ε (Desk κ ρ) α) Q E :=
  Spec.pure fun _ hd => h _ hd

variable {e : ε}

theorem Sat.throw (h : ∀ b, P b → E e b) :
    Sat Step P (MonadExcept.throw e : Prog ε (Desk κ ρ) α) Q E :=
  Spec.throw fun _ hd => h _ hd

variable {f : β → Prog ε (Desk κ ρ) α}

theorem Sat.bind {x : Prog ε (Desk κ ρ) β} {R : β → Books κ ρ → Prop} (hx : Sat Step P x R E)
    (hf : ∀ b, Sat Step (R b) (f b) Q E) :
    Sat Step P (x >>= f) Q E :=
  Spec.bind hx hf

variable {x : Prog ε (Desk κ ρ) α} {Q' : α → Books κ ρ → Prop}

theorem Sat.conseq {E' : ε → Books κ ρ → Prop} (h : Sat Step A x Q' E') (hP : ∀ b, P b → A b)
    (hQ : ∀ a b, Q' a b → Q a b) (hE : ∀ e b, E' e b → E e b) : Sat Step P x Q E :=
  Spec.conseq h (fun _ hd => hP _ hd) (fun a _ hd => hQ a _ hd) fun e _ hd => hE e _ hd

theorem Sat.pre (h : Sat Step A x Q E) (hP : ∀ b, P b → A b) : Sat Step P x Q E :=
  h.conseq hP (fun _ _ h => h) fun _ _ h => h

theorem Sat.post (h : Sat Step P x Q' E) (hQ : ∀ a b, Q' a b → Q a b) : Sat Step P x Q E :=
  h.conseq (fun _ h => h) hQ fun _ _ h => h

/-- The books before the program, under a name. -/
theorem Sat.given (h : ∀ b₀, P b₀ → Sat Step (fun b => b = b₀) x Q E) : Sat Step P x Q E :=
  fun w₀ s hs => h s.now.books hs.2 w₀ s ⟨hs.1, rfl⟩

variable {c : Prop}

theorem Sat.ite [Decidable c] {y : Prog ε (Desk κ ρ) α} (hx : c → Sat Step P x Q E)
    (hy : ¬ c → Sat Step P y Q E) : Sat Step P (if c then x else y) Q E :=
  Spec.ite hx hy

theorem Sat.bindRefuse [Decidable c] {f : Unit → Prog ε (Desk κ ρ) α} (hE : ∀ b, P b → c → E e b)
    (hf : ¬ c → Sat Step P (f ()) Q E) :
    Sat Step P (Prog.refuse c e >>= f) Q E :=
  Spec.bindRefuse (fun _ hd hc => hE _ hd hc) hf

theorem Sat.refuse [Decidable c] {Q : Unit → Books κ ρ → Prop} (hE : ∀ b, P b → c → E e b)
    (hQ : ∀ b, P b → ¬ c → Q () b) :
    Sat Step P (Prog.refuse c e) Q E :=
  Spec.refuse (fun _ hd hc => hE _ hd hc) fun _ hd hc => hQ _ hd hc

theorem Sat.bindChecked {o : Except ε β} (hE : ∀ e b, P b → o = .error e → E e b)
    (hf : ∀ a, o = .ok a → Sat Step P (f a) Q E) :
    Sat Step P (Prog.checked o >>= f) Q E := by
  cases o with
  | error e =>
    exact .bind (R := fun _ _ => False) (.throw fun b hb => hE e b hb rfl)
      fun _ _ _ hs => hs.2.elim
  | ok a =>
    refine .bind (R := fun c b => c = a ∧ P b) (.pure fun b hb => ⟨rfl, hb⟩) fun c => ?_
    intro w₀ s hs
    obtain ⟨hrun, rfl, hP⟩ := hs
    exact hf c rfl w₀ s ⟨hrun, hP⟩

/-- Go on where there is no error. -/
theorem Sat.bindRaise {o : Option ε} {f : Unit → Prog ε (Desk κ ρ) α}
    (hE : ∀ e b, P b → o = some e → E e b) (hf : o = none → Sat Step P (f ()) Q E) :
    Sat Step P (Prog.raise o >>= f) Q E := by
  cases o with
  | none => exact .bind (R := fun _ => P) (.pure fun _ hb => hb) fun _ => hf rfl
  | some e =>
    exact .bind (R := fun _ _ => False) (.throw fun b hb => hE e b hb rfl)
      fun _ _ _ hs => hs.2.elim

theorem Sat.forM {I : List β → Books κ ρ → Prop} {f : β → Prog ε (Desk κ ρ) PUnit}
    (h : ∀ a l, Sat Step (I (a :: l)) (f a) (fun _ => I l) E) (l : List β) :
    Sat Step (I l) (l.forM f) (fun _ => I []) E :=
  Spec.forM (I := fun l (d : Desk κ ρ) => I l d.books) h l

theorem Sat.bindOutcome {f : Outcome → Prog ε (Desk κ ρ) α} (h : ∀ o, Sat Step P (f o) Q E) :
    Sat Step P (Desk.outcome >>= f) Q E := by
  refine .bind (R := fun _ => P) ?_ h
  refine .bindRead fun d hd => .bind (R := fun _ d' => P d'.books) ?_
    fun _ => .pure fun _ hd => hd
  exact .update (fun _ _ => .inl rfl) fun d' hd' => by rw [hd']; exact hd

theorem Sat.bindLook {f : Books κ ρ → Prog ε (Desk κ ρ) α}
    (h : ∀ b₀, P b₀ → Sat Step (fun b => b = b₀) (f b₀) Q E) :
    Sat Step P (Desk.look >>= f) Q E := by
  intro w₀ s hs
  exact h s.now.books hs.2 w₀ s ⟨hs.1, rfl⟩

theorem Sat.update {f : Books κ ρ → Books κ ρ} {Q : Unit → Books κ ρ → Prop}
    (hstep : ∀ b, P b → Step b (f b)) (hQ : ∀ b, P b → Q () (f b)) :
    Sat Step P (Desk.update f : Prog ε (Desk κ ρ) Unit) Q E :=
  Spec.update (fun d hd => .inr (hstep d.books hd)) fun d hd => hQ d.books hd

/-- What is read is a fact about the system, unless the read fails. -/
theorem Sat.ask {f : κ → α} (hE : ∀ b, P b → E e b) (hQ : ∀ b, P b → Q (f b.kernel) b) :
    Sat Step P (Desk.ask e f : Prog ε (Desk κ ρ) α) Q E := by
  refine .bindOutcome fun o => ?_
  cases o with
  | ok => exact .bindLook fun b₀ hb₀ => .pure fun b hb => by rw [hb]; exact hQ b₀ hb₀
  | failed | failedAfter => exact .throw hE

/-- Go on with what has been read. -/
theorem Sat.bindAsk {f : κ → β} {g : β → Prog ε (Desk κ ρ) α} (hE : ∀ b, P b → E e b)
    (h : ∀ b₀, P b₀ → Sat Step (fun b => b = b₀) (g (f b₀.kernel)) Q E) :
    Sat Step P (Desk.ask e f >>= g) Q E := by
  refine .given fun b₀ hb₀ => .bind (R := fun a b => a = f b₀.kernel ∧ b = b₀)
    (.ask (fun b hb => hb ▸ hE b₀ hb₀) fun b hb => ⟨by rw [hb], hb⟩) fun a => ?_
  intro w₀ s hs
  obtain ⟨hrun, rfl, hb⟩ := hs
  exact h b₀ hb₀ w₀ s ⟨hrun, hb⟩

theorem Sat.act {f : κ → Option κ} {Q : Unit → Books κ ρ → Prop} (hE : ∀ b, P b → E e b)
    (hstep : ∀ b k, P b → f b.kernel = some k → Step b { b with kernel := k })
    (hQ : ∀ b k, P b → f b.kernel = some k → Q () { b with kernel := k })
    (hafter : ∀ b k, P b → f b.kernel = some k → E e { b with kernel := k }) :
    Sat Step P (Desk.act e f : Prog ε (Desk κ ρ) Unit) Q E := by
  refine .bindOutcome fun o => .bindLook fun b₀ hb₀ => ?_
  cases hf : f b₀.kernel with
  | none =>
    cases o <;> exact .throw fun b hb => hb ▸ hE b₀ hb₀
  | some k =>
    have hnext : ∀ b, b = b₀ → Step b { b with kernel := k } := fun b hb => hb ▸ hstep b₀ k hb₀ hf
    cases o with
    | ok => exact .update hnext fun b hb => hb ▸ hQ b₀ k hb₀ hf
    | failed => exact .throw fun b hb => hb ▸ hE b₀ hb₀
    | failedAfter =>
      exact .bind (.update (Q := fun _ => E e) hnext fun b hb => hb ▸ hafter b₀ k hb₀ hf)
        fun _ => .throw fun _ hb => hb

theorem Sat.save {Q : Unit → Books κ ρ → Prop} (hE : ∀ b, P b → E e b)
    (hstep : ∀ b, P b → Step b { b with durable := b.memory })
    (hQ : ∀ b, P b → Q () { b with durable := b.memory })
    (hafter : ∀ b, P b → E e { b with durable := b.memory }) :
    Sat Step P (Desk.save e : Prog ε (Desk κ ρ) Unit) Q E := by
  refine .bindOutcome fun o => ?_
  cases o with
  | ok => exact .update hstep hQ
  | failed => exact .throw hE
  | failedAfter => exact .bind (.update (Q := fun _ => E e) hstep hafter) fun _ => .throw fun _ hb => hb

/-- The journal is changed in memory and on disk, or, with an error, in neither
or on disk alone. -/
theorem Sat.change {f : ρ → ρ} {Q : Unit → Books κ ρ → Prop}
    (hmem : ∀ b, P b → Step b { b with memory := f b.memory })
    (hsave : ∀ b, P b → Step { b with memory := f b.memory }
      { b with memory := f b.memory, durable := f b.memory })
    (hback : ∀ b, P b → Step { b with memory := f b.memory } b)
    (hbackAfter : ∀ b, P b → Step { b with memory := f b.memory, durable := f b.memory }
      { b with durable := f b.memory })
    (hQ : ∀ b, P b → Q () { b with memory := f b.memory, durable := f b.memory })
    (hE : ∀ b, P b → E e b) (hafter : ∀ b, P b → E e { b with durable := f b.memory }) :
    Sat Step P (Desk.change e f : Prog ε (Desk κ ρ) Unit) Q E := by
  refine .bindLook fun b₀ hb₀ => ?_
  refine .bind (.update (Q := fun _ b => b = { b₀ with memory := f b₀.memory })
    (fun b hb => hb ▸ hmem b₀ hb₀) fun b hb => by rw [hb]) fun _ => ?_
  -- The file has the new journal, or the write failed before or after that.
  let new : Books κ ρ := { b₀ with memory := f b₀.memory }
  let written : Books κ ρ := { b₀ with memory := f b₀.memory, durable := f b₀.memory }
  refine .bind (R := fun o b =>
    (o = none ∧ b = written) ∨ (o = some e ∧ (b = new ∨ b = written))) ?_ fun o => ?_
  · refine .err (R := fun _ d => d.books = written)
      (F := fun e' d => e' = e ∧ (d.books = new ∨ d.books = written)) ?_
      (fun d hd => .inl ⟨rfl, hd⟩) fun e' d hd => .inr ⟨by rw [hd.1], hd.2⟩
    exact Sat.save (P := fun b => b = new) (Q := fun _ b => b = written)
      (E := fun e' b => e' = e ∧ (b = new ∨ b = written)) (fun b hb => ⟨rfl, .inl hb⟩)
      (fun b hb => hb ▸ hsave b₀ hb₀) (fun b hb => by rw [hb]) fun b hb => ⟨rfl, .inr (by rw [hb])⟩
  · cases o with
    | none =>
      refine .pure fun b hb => ?_
      rcases hb with ⟨-, rfl⟩ | ⟨h, -⟩
      · exact hQ b₀ hb₀
      · cases h
    | some e' =>
      refine .bind (.update (Q := fun _ b => E e' b) ?_ ?_) fun _ => .throw fun _ hb => hb
      · rintro b (⟨h, -⟩ | ⟨-, rfl | rfl⟩)
        · cases h
        · exact hback b₀ hb₀
        · exact hbackAfter b₀ hb₀
      · rintro b (⟨h, -⟩ | ⟨h, rfl | rfl⟩)
        · cases h
        · cases h
          exact hE b₀ hb₀
        · cases h
          exact hafter b₀ hb₀

end Rules

/-! ## Whole runs -/

section Runs

variable {Step : Books κ ρ → Books κ ρ → Prop} {P : Books κ ρ → Prop} {x : Prog ε (Desk κ ρ) α}
  {Q : α → Books κ ρ → Prop} {E : ε → Books κ ρ → Prop} {d : Desk κ ρ}

/-- What the steps keep holds on every page of a run. -/
theorem Sat.worlds (h : Sat Step P x Q E) (hd : P d.books) {K : Books κ ρ → Prop}
    (hK : ∀ b b', Step b b' → K b → K b') (hK₀ : K d.books) :
    ∀ d' ∈ x.worlds d, K d'.books := by
  refine (h.history hd).always (K := fun d => K d.books) ?_ hK₀
  rintro d d' (heq | hstep) hd
  · rw [heq]
    exact hd
  · exact hK _ _ hstep hd

theorem Sat.last (h : Sat Step P x Q E) (hd : P d.books) {R : Books κ ρ → Prop}
    (hQ : ∀ a b, Q a b → R b) (hE : ∀ e b, E e b → R b) : R (x.last d).books :=
  Spec.last h hd (R := fun d => R d.books) (fun a _ hq => hQ a _ hq) fun e _ he => hE e _ he

end Runs

end Mwan.Core

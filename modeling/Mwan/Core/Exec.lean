import Mathlib.Tactic.Common

/-!
# Programs with a state that survives an error

`EStateM ε σ α` runs on a state and ends in `ok value state` or
`error e state`: what a program wrote before it failed stays written. The
lemmas `*_eq_ok` invert a successful run one step at a time.
-/
namespace Mwan.Core.Exec

universe u

variable {ε σ α β : Type u}

/-! ## Inverting a successful run -/

theorem bind_eq_ok (x : EStateM ε σ α) (f : α → EStateM ε σ β) (s t : σ) (b : β) :
    (x >>= f) s = .ok b t ↔ ∃ a u, x s = .ok a u ∧ f a u = .ok b t := by
  change EStateM.bind x f s = _ ↔ _
  unfold EStateM.bind
  cases h : x s with
  | ok | error => simp

theorem pure_eq_ok (a b : α) (s t : σ) : (pure a : EStateM ε σ α) s = .ok b t ↔ b = a ∧ t = s := by
  change EStateM.Result.ok a s = _ ↔ _
  simp [eq_comm]

theorem throw_eq_ok (e : ε) (b : α) (s t : σ) : ¬ (throw e : EStateM ε σ α) s = .ok b t := by
  change ¬ EStateM.Result.error e s = _
  simp

theorem modify_eq_ok (f : σ → σ) (b : PUnit) (s t : σ) :
    (modify f : EStateM ε σ PUnit) s = .ok b t ↔ t = f s := by
  change EStateM.Result.ok _ (f s) = _ ↔ _
  simp [eq_comm]

theorem get_eq_ok (b : σ) (s t : σ) : (get : EStateM ε σ σ) s = .ok b t ↔ b = s ∧ t = s := by
  change EStateM.Result.ok s s = _ ↔ _
  simp [eq_comm]

theorem ite_eq_ok (c : Prop) [Decidable c] (x y : EStateM ε σ α) (s t : σ) (b : α) :
    (if c then x else y) s = .ok b t ↔ (c ∧ x s = .ok b t) ∨ (¬ c ∧ y s = .ok b t) := by
  split <;> simp_all

/-! ## Running past a step whose result is known -/

theorem bind_of_ok {x : EStateM ε σ α} {f : α → EStateM ε σ β} {s t : σ} {a : α}
    (h : x s = .ok a t) : (x >>= f) s = f a t := by
  change EStateM.bind x f s = _
  simp only [EStateM.bind, h]

theorem bind_of_error {x : EStateM ε σ α} {f : α → EStateM ε σ β} {s t : σ} {e : ε}
    (h : x s = .error e t) : (x >>= f) s = .error e t := by
  change EStateM.bind x f s = _
  simp only [EStateM.bind, h]

/-! ## The same for `Except` -/

theorem except_bind_eq_ok (x : Except ε α) (f : α → Except ε β) (b : β) :
    (x >>= f) = .ok b ↔ ∃ a, x = .ok a ∧ f a = .ok b := by
  cases x with
  | ok | error => simp [bind, Except.bind]

theorem except_map_eq_ok (x : Except ε α) (f : α → β) (b : β) :
    x.map f = .ok b ↔ ∃ a, x = .ok a ∧ f a = b := by
  cases x with
  | ok | error => simp [Except.map]

theorem except_pure_eq_ok (a b : α) : (pure a : Except ε α) = .ok b ↔ b = a := by
  change Except.ok a = _ ↔ _
  simp [eq_comm]

theorem except_toOption_eq_some {ε α : Type} {x : Except ε α} {a : α} :
    x.toOption = some a ↔ x = .ok a := by
  cases x <;> simp [Except.toOption]

theorem except_throw_eq_ok (e : ε) (b : α) : ¬ (throw e : Except ε α) = .ok b := by
  change ¬ Except.error e = _
  simp

theorem except_ite_eq_ok (c : Prop) [Decidable c] (x y : Except ε α) (b : α) :
    (if c then x else y) = .ok b ↔ (c ∧ x = .ok b) ∨ (¬ c ∧ y = .ok b) := by
  split <;> simp_all

/-- Fail with `e` if the condition holds. -/
def refuse {ε : Type} (c : Prop) [Decidable c] (e : ε) : Except ε Unit :=
  if c then throw e else pure ()

@[simp] theorem refuse_eq_ok {ε : Type} (c : Prop) [Decidable c] (e : ε) (u : Unit) :
    refuse c e = .ok u ↔ ¬ c := by
  unfold refuse
  split <;> simp_all [throw, throwThe, MonadExceptOf.throw, pure, Except.pure]

theorem except_forM_eq_ok {ε α : Type} (f : α → Except ε Unit) (l : List α) (u : Unit) :
    l.forM f = .ok u ↔ ∀ a ∈ l, f a = .ok () := by
  induction l with
  | nil => simp [pure, Except.pure]
  | cons a l ih =>
    change (f a >>= fun _ => l.forM f) = _ ↔ _
    rw [except_bind_eq_ok, List.forall_mem_cons, ← ih]
    exact ⟨fun ⟨_, ha, hl⟩ => ⟨ha, hl⟩, fun ⟨ha, hl⟩ => ⟨(), ha, hl⟩⟩

/-- What each step of a loop keeps holds of its result. -/
theorem except_foldlM_keeps {γ : Type} {f : β → γ → Except ε β} {I : β → Prop}
    (hstep : ∀ b a b', I b → f b a = .ok b' → I b') {l : List γ} {b b' : β} (hb : I b)
    (h : l.foldlM f b = .ok b') : I b' := by
  induction l generalizing b with
  | nil =>
    obtain rfl := (except_pure_eq_ok b b').mp h
    exact hb
  | cons a l ih =>
    rw [List.foldlM_cons, except_bind_eq_ok] at h
    obtain ⟨c, hc, hrest⟩ := h
    exact ih (hstep b a c hb hc) hrest

theorem except_bind_eq_error (x : Except ε α) (f : α → Except ε β) (e : ε) :
    (x >>= f) = .error e ↔ x = .error e ∨ ∃ a, x = .ok a ∧ f a = .error e := by
  cases x with
  | ok | error => simp [bind, Except.bind]

theorem except_throw_eq_error (e e' : ε) : (throw e : Except ε α) = .error e' ↔ e' = e := by
  change Except.error e = _ ↔ _
  simp [eq_comm]

theorem except_pure_eq_error (a : α) (e : ε) : ¬ (pure a : Except ε α) = .error e := by
  change ¬ Except.ok a = _
  simp

theorem except_ite_eq_error (c : Prop) [Decidable c] (x y : Except ε α) (e : ε) :
    (if c then x else y) = .error e ↔ (c ∧ x = .error e) ∨ (¬ c ∧ y = .error e) := by
  split <;> simp_all

theorem except_forM_eq_error {ε α : Type} {f : α → Except ε Unit} {l : List α} {e : ε}
    (h : l.forM f = .error e) : ∃ a ∈ l, f a = .error e := by
  induction l with
  | nil => exact absurd h (by simp [pure, Except.pure])
  | cons a l ih =>
    change (f a >>= fun _ => l.forM f) = _ at h
    rcases (except_bind_eq_error ..).mp h with ha | ⟨_, -, hl⟩
    · exact ⟨a, (.head _), ha⟩
    · obtain ⟨b, hb, he⟩ := ih hl
      exact ⟨b, .tail _ hb, he⟩

end Mwan.Core.Exec

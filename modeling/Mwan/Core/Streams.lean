import Mathlib.Tactic.Common

/-!
# Streams with gaps

Some items of a stream open a gap and some end it; `Ended` says that a stream
does not end in a gap and `Guarded` that no item that must not occur in a gap
does.

Results:
* `Ended.snoc`, `Ended.of_ends`, `Guarded.snoc`: one more item;
* `Guarded.of_append`: a beginning of a guarded stream is guarded;
* `Guarded.between`: between an opening and an inner item the gap ends.
-/
namespace Mwan.Core

variable {α : Type} {opens ends inner : α → Bool} {l : List α} {x : α}

/-- Every gap that opens is ended. -/
def Ended (opens ends : α → Bool) (l : List α) : Prop :=
  ∀ before gap after, l = before ++ gap :: after → opens gap = true →
    ∃ x ∈ after, ends x = true

/-- No inner item stands in a gap. -/
def Guarded (opens ends inner : α → Bool) (l : List α) : Prop :=
  ∀ before x after, l = before ++ x :: after → inner x = true → Ended opens ends before

/-- How a stream with one more item is cut at an item. -/
theorem snoc_eq_append_cons {before after : List α} {y : α} (h : l ++ [x] = before ++ y :: after) :
    (after = [] ∧ y = x ∧ before = l) ∨ ∃ rest, after = rest ++ [x] ∧ l = before ++ y :: rest := by
  rcases List.eq_nil_or_concat after with rfl | ⟨rest, z, rfl⟩
  · obtain ⟨rfl, hx⟩ := List.append_inj' h rfl
    exact .inl ⟨rfl, (List.cons.inj hx).1.symm, rfl⟩
  · rw [List.concat_eq_append, ← List.cons_append, ← List.append_assoc] at h
    obtain ⟨hl, hx⟩ := List.append_inj' h rfl
    exact .inr ⟨rest, by rw [(List.cons.inj hx).1, List.concat_eq_append], hl⟩

theorem Ended.snoc (h : Ended opens ends l) (hx : opens x = false) :
    Ended opens ends (l ++ [x]) := by
  intro before gap after hl hgap
  rcases snoc_eq_append_cons hl with ⟨-, rfl, -⟩ | ⟨rest, rfl, hrest⟩
  · rw [hx] at hgap
    cases hgap
  · obtain ⟨y, hy, hends⟩ := h before gap rest hrest hgap
    exact ⟨y, List.mem_append_left _ hy, hends⟩

theorem Ended.of_ends (hends : ends x = true) (hx : opens x = false) :
    Ended opens ends (l ++ [x]) := by
  intro before gap after hl hgap
  rcases snoc_eq_append_cons hl with ⟨-, rfl, -⟩ | ⟨rest, rfl, -⟩
  · rw [hx] at hgap
    cases hgap
  · exact ⟨x, by simp, hends⟩

theorem Guarded.nil : Guarded opens ends inner ([] : List α) := by
  intro before x after h
  simp at h

theorem Guarded.snoc (h : Guarded opens ends inner l)
    (hx : inner x = true → Ended opens ends l) : Guarded opens ends inner (l ++ [x]) := by
  intro before y after hl hy
  rcases snoc_eq_append_cons hl with ⟨-, rfl, rfl⟩ | ⟨rest, rfl, hrest⟩
  · exact hx hy
  · exact h before y rest hrest hy

theorem Guarded.of_append {l' : List α} (h : Guarded opens ends inner (l ++ l')) :
    Guarded opens ends inner l := by
  intro before x after hl hx
  exact h before x (after ++ l') (by simp [hl]) hx

theorem Guarded.between (h : Guarded opens ends inner l) {before middle after : List α} {gap : α}
    (hl : l = before ++ gap :: (middle ++ x :: after)) (hgap : opens gap = true)
    (hx : inner x = true) : ∃ y ∈ middle, ends y = true :=
  h (before ++ gap :: middle) x after (by simp [hl]) hx before gap middle rfl hgap

end Mwan.Core

import Mathlib.Data.List.Sort
import Mathlib.Order.Basic

/-!
# The first match in a stable sort

Sorting by a key, greatest first, and taking the first element that matches
finds the match with the greatest key; a stable sort breaks ties by position.

Results:
* `pairwise_insertionSort`: a stable sort of a strictly increasing list is
  ordered by `Before`.
* `find_insertionSort`: what the first match is.
-/
namespace Mwan.Core

open List

variable {α κ : Type} [LinearOrder α] [LinearOrder κ]

/-- A greater key comes first, then the smaller element. -/
def Before (key : α → κ) (a b : α) : Prop := key b < key a ∨ (key a = key b ∧ a < b)

theorem Before.asymm {key : α → κ} {a b : α} (h : Before key a b) : ¬ Before key b a := by
  intro h'
  rcases h with h | ⟨he, h⟩ <;> rcases h' with h' | ⟨he', h'⟩
  · exact lt_asymm h h'
  · exact absurd he' (ne_of_lt h)
  · exact absurd he (ne_of_lt h')
  · exact lt_asymm h h'

/-- Inserting an element smaller than all others keeps the order. -/
theorem pairwise_orderedInsert (key : α → κ) (a : α) (l : List α) (ha : ∀ b ∈ l, a < b)
    (hl : l.Pairwise (Before key)) :
    (l.orderedInsert (fun x y => key y ≤ key x) a).Pairwise (Before key) := by
  induction l with
  | nil => exact pairwise_singleton _ _
  | cons b l ih =>
    obtain ⟨hb, hl'⟩ := pairwise_cons.mp hl
    rw [orderedInsert]
    split
    · next hle =>
      refine pairwise_cons.mpr ⟨?_, hl⟩
      intro c hc
      have hkey : key c ≤ key a := by
        rcases mem_cons.mp hc with rfl | hc
        · exact hle
        · rcases hb c hc with h | ⟨h, -⟩
          · exact h.le.trans hle
          · exact h ▸ hle
      rcases hkey.lt_or_eq with h | h
      · exact .inl h
      · exact .inr ⟨h.symm, ha c hc⟩
    · next hle =>
      refine pairwise_cons.mpr ⟨?_, ih (fun c hc => ha c (.tail _ hc)) hl'⟩
      intro c hc
      rcases mem_orderedInsert _ |>.mp hc with rfl | hc
      · exact .inl (not_le.mp hle)
      · exact hb c hc

theorem pairwise_insertionSort (key : α → κ) (l : List α) (hl : l.Pairwise (· < ·)) :
    (l.insertionSort fun x y => key y ≤ key x).Pairwise (Before key) := by
  induction l with
  | nil => exact Pairwise.nil
  | cons a l ih =>
    obtain ⟨ha, hl⟩ := pairwise_cons.mp hl
    refine pairwise_orderedInsert key a _ ?_ (ih hl)
    intro b hb
    exact ha b ((mem_insertionSort _).mp hb)

/-- The first match of a list ordered by an asymmetric relation precedes every
other match. -/
theorem find_eq_some_of_pairwise {α : Type} {R : α → α → Prop} (hR : ∀ a b, R a b → ¬ R b a) {l : List α}
    (hl : l.Pairwise R) (p : α → Bool) (a : α) :
    l.find? p = some a ↔ a ∈ l ∧ p a = true ∧ ∀ b ∈ l, p b = true → b = a ∨ R a b := by
  induction l with
  | nil => simp
  | cons c l ih =>
    obtain ⟨hc, hl⟩ := pairwise_cons.mp hl
    cases hp : p c with
    | true =>
      rw [find?_cons_of_pos hp]
      constructor
      · intro h
        cases h
        refine ⟨(.head _), hp, fun b hb hpb => ?_⟩
        rcases mem_cons.mp hb with rfl | hb
        · exact .inl rfl
        · exact .inr (hc b hb)
      · intro ⟨ha, hpa, hall⟩
        rcases mem_cons.mp ha with rfl | ha
        · rfl
        · rcases hall c mem_cons_self hp with rfl | h
          · rfl
          · exact absurd h (hR _ _ (hc a ha))
    | false =>
      rw [find?_cons_of_neg (by simp [hp]), ih hl]
      constructor
      · intro ⟨ha, hpa, hall⟩
        refine ⟨.tail _ ha, hpa, fun b hb hpb => ?_⟩
        rcases mem_cons.mp hb with rfl | hb
        · simp [hp] at hpb
        · exact hall b hb hpb
      · intro ⟨ha, hpa, hall⟩
        rcases mem_cons.mp ha with rfl | ha
        · simp [hp] at hpa
        · exact ⟨ha, hpa, fun b hb => hall b (.tail _ hb)⟩

/-- The first match of a stable sort, greatest key first: no match has a
greater key, and among equal keys it is the first. -/
theorem find_insertionSort (key : α → κ) (l : List α) (hl : l.Pairwise (· < ·)) (p : α → Bool)
    (a : α) :
    (l.insertionSort fun x y => key y ≤ key x).find? p = some a ↔
      a ∈ l ∧ p a = true ∧ ∀ b ∈ l, p b = true → b = a ∨ Before key a b := by
  rw [find_eq_some_of_pairwise (fun _ _ h => h.asymm) (pairwise_insertionSort key l hl)]
  simp only [mem_insertionSort]

end Mwan.Core

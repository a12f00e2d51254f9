import Mathlib.Data.List.Nodup
import Mathlib.Tactic.Common

/-!
# Lists with at most one entry for each key

`put` replaces the entry with the same key or appends the new one, `dropKey`
removes the entries with a key. `Keyed` says that no two entries share a key.
-/
namespace Mwan.Core

open List

variable {α κ : Type} (key : α → κ)

/-- No two entries have one key. -/
def Keyed (l : List α) : Prop := l.Pairwise fun a b => key a ≠ key b

variable {key} {l : List α}

theorem Keyed.filter (h : Keyed key l) (p : α → Bool) : Keyed key (l.filter p) :=
  Pairwise.filter p h

theorem Keyed.perm {l' : List α} (h : Keyed key l) (hperm : l'.Perm l) : Keyed key l' :=
  (hperm.pairwise_iff fun hne => Ne.symm hne).mpr h

theorem Keyed.eq_of_key (h : Keyed key l) {a b : α} (ha : a ∈ l) (hb : b ∈ l)
    (heq : key a = key b) : a = b :=
  inj_on_of_nodup_map (pairwise_map.mpr h) ha hb heq

variable [DecidableEq κ] (key)

/-- The list with `x` in the place of the first entry with its key, or at the end. -/
def put : List α → α → List α
  | [], x => [x]
  | a :: l, x => if key a = key x then x :: l else a :: put l x

/-- The list without the entries with key `k`. -/
def dropKey (l : List α) (k : κ) : List α := l.filter fun a => key a ≠ k

variable {key}

theorem Keyed.dropKey (h : Keyed key l) (k : κ) : Keyed key (Core.dropKey key l k) := h.filter _

@[simp] theorem mem_dropKey {k : κ} {a : α} : a ∈ dropKey key l k ↔ a ∈ l ∧ key a ≠ k := by
  simp [dropKey]

theorem mem_put (h : Keyed key l) {x a : α} : a ∈ put key l x ↔ a = x ∨ a ∈ l ∧ key a ≠ key x := by
  induction l with
  | nil => simp [put]
  | cons b l ih =>
    obtain ⟨hb, hl⟩ := pairwise_cons.mp h
    unfold put
    split
    · next hkey =>
      -- no later entry has the key
      have hlater : ∀ c ∈ l, key c ≠ key x := fun c hc heq => hb c hc (hkey.trans heq.symm)
      simp only [mem_cons]
      constructor
      · rintro (rfl | ha)
        · exact .inl rfl
        · exact .inr ⟨.inr ha, hlater a ha⟩
      · rintro (rfl | ⟨rfl | ha, hne⟩)
        · exact .inl rfl
        · exact absurd hkey hne
        · exact .inr ha
    · next hkey =>
      simp only [mem_cons, ih hl]
      constructor
      · rintro (rfl | rfl | ⟨ha, hne⟩)
        · exact .inr ⟨.inl rfl, hkey⟩
        · exact .inl rfl
        · exact .inr ⟨.inr ha, hne⟩
      · rintro (rfl | ⟨rfl | ha, hne⟩)
        · exact .inr (.inl rfl)
        · exact .inl rfl
        · exact .inr (.inr ⟨ha, hne⟩)

theorem Keyed.put (h : Keyed key l) (x : α) : Keyed key (Core.put key l x) := by
  induction l with
  | nil => exact pairwise_singleton _ _
  | cons b l ih =>
    obtain ⟨hb, hl⟩ := pairwise_cons.mp h
    unfold Core.put
    split
    · next hkey =>
      exact pairwise_cons.mpr ⟨fun c hc heq => hb c hc (hkey.trans heq), hl⟩
    · next hkey =>
      refine pairwise_cons.mpr ⟨fun c hc => ?_, ih hl⟩
      rcases (mem_put hl).mp hc with rfl | ⟨hc, _⟩
      · exact hkey
      · exact hb c hc

end Mwan.Core

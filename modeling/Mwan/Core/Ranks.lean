import Mathlib.Data.List.Sort

/-!
# Dropping the least of a list

A rotation sorts a list without repetitions and drops a number of its least
elements. An element is dropped or not by the number of greater ones.

Results:
* `mem_take_iff_rank`: an element is among the first `m` of a sorted list
  exactly if `m` and the elements above it make up the list;
* `length_filter_add_le`: what is taken away is missing in the count;
* `getLast?_filter_of_pos`: the last element stays the last while it is kept.
-/
namespace Mwan.Core

open List

variable {α : Type}

theorem mem_take_iff_rank [LinearOrder α] {l : List α} (hsorted : l.Pairwise (· < ·)) {x : α}
    [∀ y, Decidable (x < y)] (hx : x ∈ l) (m : Nat) :
    x ∈ l.take m ↔ l.length ≤ m + (l.filter fun y => decide (x < y)).length := by
  induction l generalizing m with
  | nil => cases hx
  | cons y l ih =>
    obtain ⟨hleast, hrest⟩ := pairwise_cons.mp hsorted
    rcases mem_cons.mp hx with rfl | hmem
    · -- the least element: all others are above it
      have hall : (x :: l).filter (fun y => decide (x < y)) = l := by
        rw [filter_cons_of_neg (by simp)]
        exact filter_eq_self.mpr fun y hy => by simp [hleast y hy]
      rw [hall, length_cons]
      cases m with
      | zero => simp
      | succ m =>
        rw [take_succ_cons]
        refine iff_of_true mem_cons_self ?_
        omega
    · have hlt := hleast x hmem
      have hdrop : (y :: l).filter (fun z => decide (x < z)) = l.filter (fun z => decide (x < z)) :=
        filter_cons_of_neg (by simp [le_of_lt hlt])
      rw [hdrop, length_cons]
      cases m with
      | zero =>
        -- the element is not above itself
        have hproper : (l.filter fun z => decide (x < z)).length < l.length :=
          length_filter_lt_length_iff_exists.mpr ⟨x, hmem, by simp⟩
        simp only [take_zero, not_mem_nil, false_iff]
        omega
      | succ m =>
        have hne : x ≠ y := ne_of_gt hlt
        rw [take_succ_cons, mem_cons, or_iff_right hne, ih hrest hmem m]
        omega

theorem length_filter_add_le {l taken : List α} {keep : α → Bool} (hl : l.Nodup)
    (htaken : taken.Nodup) (hsub : taken ⊆ l) (hdropped : ∀ x ∈ taken, keep x = false) :
    (l.filter keep).length + taken.length ≤ l.length := by
  have hdisjoint : Disjoint (l.filter keep) taken := by
    intro x hx hx'
    have hkept := (mem_filter.mp hx).2
    rw [hdropped x hx'] at hkept
    cases hkept
  have hnodup : (l.filter keep ++ taken).Nodup :=
    Nodup.append (hl.filter keep) htaken hdisjoint
  have hall : l.filter keep ++ taken ⊆ l :=
    append_subset.mpr ⟨filter_subset_self _, hsub⟩
  have := (subperm_of_subset hnodup hall).length_le
  rwa [length_append] at this

theorem getLast?_filter_of_pos {l : List α} {x : α} {keep : α → Bool}
    (hlast : l.getLast? = some x) (hx : keep x = true) : (l.filter keep).getLast? = some x := by
  rw [getLast?_filter]
  rw [getLast?_eq_head?_reverse] at hlast
  cases hreverse : l.reverse with
  | nil =>
    rw [hreverse] at hlast
    cases hlast
  | cons =>
    rw [hreverse] at hlast
    cases hlast
    exact find?_cons_of_pos hx

end Mwan.Core

import Mathlib.Data.List.AList

/-!
# Finite maps after a loop

What a lookup finds after erasing, inserting, and after a loop that erases or
inserts a list of keys.
-/
namespace Mwan.Core

variable {κ β : Type} [DecidableEq κ]

theorem lookup_erase_eq (a b : κ) (m : AList fun _ : κ => β) :
    (m.erase a).lookup b = if b = a then none else m.lookup b := by
  by_cases h : b = a
  · rw [if_pos h, h, AList.lookup_erase]
  · rw [if_neg h, AList.lookup_erase_ne h]

theorem lookup_insert_eq (a b : κ) (v : β) (m : AList fun _ : κ => β) :
    (m.insert a v).lookup b = if b = a then some v else m.lookup b := by
  by_cases h : b = a
  · rw [if_pos h, h, AList.lookup_insert]
  · rw [if_neg h, AList.lookup_insert_ne h]

theorem lookup_insert_cases {a b : κ} {v x : β} {m : AList fun _ : κ => β}
    (h : (m.insert a v).lookup b = some x) : b = a ∧ v = x ∨ m.lookup b = some x := by
  rw [lookup_insert_eq] at h
  split at h
  · next heq => exact .inl ⟨heq, Option.some.inj h⟩
  · exact .inr h

theorem mem_foldl_insert (keys : List κ) (b : κ) (v : β) (m : AList fun _ : κ => β) :
    b ∈ keys.foldl (fun m a => m.insert a v) m ↔ b ∈ keys ∨ b ∈ m := by
  induction keys generalizing m with
  | nil => simp
  | cons a keys ih =>
    rw [List.foldl_cons, ih, AList.mem_insert, List.mem_cons]
    tauto

theorem mem_iff_lookup {b : κ} {m : AList fun _ : κ => β} : b ∈ m ↔ ∃ v, m.lookup b = some v := by
  rw [← AList.lookup_isSome, Option.isSome_iff_exists]

end Mwan.Core

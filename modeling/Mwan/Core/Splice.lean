import Mathlib.Data.List.Basic
import Mathlib.Tactic.Common

/-!
# Ranges of a list: reading, overwriting, agreement

`slice l off n` is the range `[off, off + n)` of `l` and `splice l off new`
overwrites the range that starts at `off` with `new`. An edit of a buffer is
a sequence of `splice`s; what it leaves alone is said with
`AgreeOn P l l'`: equal lengths and equal elements at every index where `P`
holds. Writing back what the other list holds on a range adds the range to
`P` (`AgreeOn.splice_back`), and a list that agrees everywhere is equal
(`AgreeOn.eq`).
-/
namespace Mwan.Core

open List

variable {α : Type*}

/-- The elements `[off, off + n)`. -/
def slice (l : List α) (off n : Nat) : List α := (l.drop off).take n

/-- `l` with the range starting at `off` overwritten by `new`. -/
def splice (l : List α) (off : Nat) (new : List α) : List α :=
  l.take off ++ (new ++ l.drop (off + new.length))

theorem length_slice (l : List α) (off n : Nat) (h : off + n ≤ l.length) :
    (slice l off n).length = n := by
  simp only [slice, length_take, length_drop]; omega

theorem getElem?_slice (l : List α) (off n i : Nat) :
    (slice l off n)[i]? = if i < n then l[off + i]? else none := by
  simp only [slice, getElem?_take, getElem?_drop]

theorem length_splice (l : List α) (off : Nat) (new : List α) (h : off + new.length ≤ l.length) :
    (splice l off new).length = l.length := by
  simp only [splice, length_append, length_take, length_drop]; omega

theorem getElem?_splice (l : List α) (off : Nat) (new : List α)
    (h : off + new.length ≤ l.length) (i : Nat) :
    (splice l off new)[i]? = if off ≤ i ∧ i < off + new.length then new[i - off]? else l[i]? := by
  have hto : (l.take off).length = off := by simp; omega
  unfold splice
  by_cases h1 : i < off
  · rw [if_neg (by omega), getElem?_append_left (by omega), getElem?_take, if_pos h1]
  · rw [getElem?_append_right (by omega), hto]
    by_cases h2 : i < off + new.length
    · rw [if_pos (by omega), getElem?_append_left (by omega)]
    · rw [if_neg (by omega), getElem?_append_right (by omega), getElem?_drop]
      congr 1; omega

theorem slice_add (l : List α) (off m n : Nat) :
    slice l off (m + n) = slice l off m ++ slice l (off + m) n := by
  simp only [slice, take_add, drop_drop]

theorem slice_slice (l : List α) (off n off' n' : Nat) (h : off' + n' ≤ n) :
    slice (slice l off n) off' n' = slice l (off + off') n' := by
  apply ext_getElem?
  intro i
  simp only [getElem?_slice]
  by_cases hi : i < n'
  · rw [if_pos hi, if_pos hi, if_pos (by omega), Nat.add_assoc]
  · rw [if_neg hi, if_neg hi]

variable {l l' : List α}

theorem getElem?_eq_of_slice_eq {off n : Nat} (h : slice l off n = slice l' off n) {i : Nat}
    (h1 : off ≤ i) (h2 : i < off + n) : l[i]? = l'[i]? := by
  have hi := congrArg (fun s : List α => s[i - off]?) h
  simp only [getElem?_slice, show i - off < n by omega, if_true] at hi
  rwa [show off + (i - off) = i by omega] at hi

/-! ## Agreement -/

/-- Same length, and the same element at every index where `P` holds. -/
def AgreeOn (P : Nat → Prop) (l l' : List α) : Prop :=
  l.length = l'.length ∧ ∀ i, P i → l[i]? = l'[i]?

theorem AgreeOn.refl (P : Nat → Prop) (l : List α) : AgreeOn P l l := ⟨rfl, fun _ _ => rfl⟩

variable {P : Nat → Prop}

section

variable (h : AgreeOn P l l')

include h

theorem AgreeOn.symm : AgreeOn P l' l :=
  ⟨h.1.symm, fun i hi => (h.2 i hi).symm⟩

theorem AgreeOn.mono {Q : Nat → Prop} (hQ : ∀ i, Q i → P i) : AgreeOn Q l l' :=
  ⟨h.1, fun i hi => h.2 i (hQ i hi)⟩

theorem AgreeOn.eq (hP : ∀ i, i < l.length → P i) : l = l' := by
  apply ext_getElem?
  intro i
  by_cases hi : i < l.length
  · exact h.2 i (hP i hi)
  · rw [getElem?_eq_none (by omega), getElem?_eq_none (by have := h.1; omega)]

/-- Reads inside the agreed part coincide. -/
theorem AgreeOn.slice_eq (off n : Nat) (hP : ∀ i, off ≤ i → i < off + n → P i) 
    : slice l off n = slice l' off n := by
  apply ext_getElem?
  intro i
  simp only [getElem?_slice]
  split
  · exact h.2 _ (hP _ (by omega) (by omega))
  · rfl

/-- The same range of both lists agrees where the lists do. -/
theorem AgreeOn.of_slice (off n : Nat) :
    AgreeOn (fun i => P (off + i)) (slice l off n) (slice l' off n) := by
  refine ⟨by simp [slice, h.1], fun i hi => ?_⟩
  rw [getElem?_slice, getElem?_slice, h.2 _ hi]

/-- An overwrite keeps the agreement outside its range. -/
theorem AgreeOn.splice_left (off : Nat) (new : List α) (hb : off + new.length ≤ l.length) :
    AgreeOn (fun i => P i ∧ ¬ (off ≤ i ∧ i < off + new.length)) (splice l off new) l' := by
  refine ⟨by rw [length_splice l off new hb]; exact h.1, fun i hi => ?_⟩
  rw [getElem?_splice l off new hb, if_neg hi.2]
  exact h.2 i hi.1

/-- Writing what the other list holds on a range extends the agreement to it. -/
theorem AgreeOn.splice_back (off : Nat) (new : List α) (hb : off + new.length ≤ l.length)
    (hn : slice l' off new.length = new) :
    AgreeOn (fun i => P i ∨ (off ≤ i ∧ i < off + new.length)) (splice l off new) l' := by
  refine ⟨by rw [length_splice l off new hb]; exact h.1, fun i hi => ?_⟩
  rw [getElem?_splice l off new hb]
  split
  · rename_i hr
    rw [← hn, getElem?_slice, if_pos (by omega)]
    congr 1; omega
  · exact h.2 i (by tauto)

end

theorem slice_splice_self (l : List α) (off : Nat) (new : List α)
    (hb : off + new.length ≤ l.length) : slice (splice l off new) off new.length = new := by
  apply ext_getElem?
  intro i
  rw [getElem?_slice]
  split
  · rw [getElem?_splice l off new hb, if_pos (by omega)]; congr 1; omega
  · rw [getElem?_eq_none (by omega)]

theorem slice_splice_disjoint (l : List α) (off : Nat) (new : List α)
    (hb : off + new.length ≤ l.length) (off' n : Nat)
    (hd : off' + n ≤ off ∨ off + new.length ≤ off') :
    slice (splice l off new) off' n = slice l off' n :=
  ((AgreeOn.refl (fun _ => True) l).splice_left off new hb).slice_eq off' n
    fun i _ _ => ⟨trivial, by omega⟩

/-- Two overwrites of ranges that do not meet. -/
theorem splice_two (l : List α) {off off' n n' : Nat} {new new' : List α} (hn : new.length = n)
    (hn' : new'.length = n') (hb : off + n ≤ l.length) (hb' : off' + n' ≤ l.length)
    (hd : off + n ≤ off' ∨ off' + n' ≤ off) :
    AgreeOn (fun i => ¬ (off ≤ i ∧ i < off + n) ∧ ¬ (off' ≤ i ∧ i < off' + n'))
        (splice (splice l off new) off' new') l ∧
      slice (splice (splice l off new) off' new') off n = new ∧
      slice (splice (splice l off new) off' new') off' n' = new' := by
  subst hn hn'
  have hlength := length_splice l off new hb
  have hb' : off' + new'.length ≤ (splice l off new).length := by omega
  refine ⟨(((AgreeOn.refl (fun _ => True) l).splice_left _ _ hb).splice_left _ _ hb').mono
    fun i hi => ⟨⟨trivial, hi.1⟩, hi.2⟩, ?_, slice_splice_self _ _ _ hb'⟩
  rw [slice_splice_disjoint _ _ _ hb' _ _ hd]
  exact slice_splice_self _ _ _ hb

/-- Overwriting a range with its own content changes nothing. -/
theorem splice_slice (l : List α) (off n : Nat) (h : off + n ≤ l.length) :
    splice l off (slice l off n) = l := by
  have hl := length_slice l off n h
  refine ((AgreeOn.refl (fun _ => True) l).splice_back off _ (by omega) (by rw [hl])).eq ?_
  intro i _; exact .inl trivial

/-- A slice around a splice is the splice of the slice. -/
theorem slice_splice_inside (l : List α) (off : Nat) (new : List α)
    (hb : off + new.length ≤ l.length) (first n : Nat) (hf : first ≤ off)
    (hn : off + new.length ≤ first + n) :
    slice (splice l off new) first n = splice (slice l first n) (off - first) new := by
  have hlen : off - first + new.length ≤ (slice l first n).length := by
    simp only [slice, length_take, length_drop]; omega
  apply ext_getElem?
  intro i
  rw [getElem?_slice, getElem?_splice _ _ _ hb, getElem?_splice _ _ _ hlen, getElem?_slice]
  by_cases h : off - first ≤ i ∧ i < off - first + new.length
  · rw [if_pos (by omega), if_pos (by omega), if_pos h,
      show first + i - off = i - (off - first) by omega]
  · rw [if_neg h]
    by_cases hi : i < n
    · rw [if_pos hi, if_neg (by omega), if_pos hi]
    · rw [if_neg hi, if_neg hi]

end Mwan.Core

import Mathlib.Algebra.Group.Int.Defs
import Mathlib.Algebra.Group.Nat.Defs
import Mathlib.Tactic.Common

/-!
# Times with two readings and 64-bit durations

A time carries a wall clock reading and, while it stays in the process that
read the clock, a monotonic one; both are counted in nanoseconds. Two times
that both have a monotonic reading are compared and subtracted by it, any
other two by their wall readings. A duration is a signed 64-bit number of
nanoseconds: differences saturate, arithmetic wraps around.

Writing a time to a file keeps its wall reading only (`Time.strip`).
-/
namespace Mwan.Core

open Option

/-! ## Signed 64-bit numbers -/

/-- The signed 64-bit number a result wraps around to. -/
def wrap64 (x : Int) : Int := x.bmod (2 ^ 64)

theorem wrap64_eq {x : Int} (h₁ : -2 ^ 63 ≤ x) (h₂ : x < 2 ^ 63) : wrap64 x = x := by
  unfold wrap64
  rw [Int.bmod_eq_of_le] <;> omega

/-- Wrapping around once: past the largest number, the result is less by `2 ^ 64`. -/
theorem wrap64_of_add {x y : Int} (h : x = y + 2 ^ 64) (h₁ : -2 ^ 63 ≤ y) (h₂ : y < 2 ^ 63) :
    wrap64 x = y := by
  have hcast : x = y + ((2 ^ 64 : Nat) : Int) := h
  rw [hcast]
  unfold wrap64
  rw [Int.add_bmod_right]
  exact wrap64_eq h₁ h₂

theorem wrap64_range (x : Int) : -2 ^ 63 ≤ wrap64 x ∧ wrap64 x < 2 ^ 63 := by
  have h₁ := @Int.le_bmod x (2 ^ 64) (by decide)
  have h₂ := @Int.bmod_lt x (2 ^ 64) (by decide)
  unfold wrap64
  exact ⟨h₁, h₂⟩

/-- The nearest signed 64-bit number. -/
def saturate64 (x : Int) : Int := max (-2 ^ 63) (min x (2 ^ 63 - 1))

theorem saturate64_eq {x : Int} (h₁ : -2 ^ 63 ≤ x) (h₂ : x < 2 ^ 63) : saturate64 x = x := by
  unfold saturate64
  omega

/-- Division toward zero by the rounding division. -/
theorem tdiv_eq_ite (x n : Int) : x.tdiv n = if 0 ≤ x then x / n else -(-x / n) := by
  split
  · next h => exact Int.tdiv_eq_ediv_of_nonneg h
  · next h =>
    have hneg : (0 : Int) ≤ -x := by omega
    rw [← Int.tdiv_eq_ediv_of_nonneg hneg, Int.neg_tdiv, Int.neg_neg]

/-- One second. -/
def second : Int := 1000000000

/-! ## Times -/

structure Time where
  wall : Int
  mono : Option Int
  deriving DecidableEq, Repr

namespace Time

def zero : Time := ⟨0, none⟩

def isZero (t : Time) : Bool := t.wall = 0

/-- `t.Add(d)` -/
def add (t : Time) (d : Int) : Time := ⟨t.wall + d, t.mono.map (· + d)⟩

/-- `t - u` before it is brought into the range of a duration. -/
def diff (t u : Time) : Int :=
  match t.mono, u.mono with
  | some a, some b => a - b
  | _, _ => t.wall - u.wall

/-- `t.Sub(u)` -/
def sub (t u : Time) : Int := saturate64 (t.diff u)

/-- `t.Before(u)` -/
def before (t u : Time) : Bool := t.diff u < 0

/-- `t.After(u)` -/
def after (t u : Time) : Bool := 0 < t.diff u

/-- The time read back from a file. -/
def strip (t : Time) : Time := ⟨t.wall, none⟩

@[simp] theorem add_wall (t : Time) (d : Int) : (t.add d).wall = t.wall + d := rfl

@[simp] theorem strip_mono (t : Time) : t.strip.mono = none := rfl

@[simp] theorem diff_self (t : Time) : t.diff t = 0 := by
  unfold diff
  split
  · next a b ha hb =>
    rw [ha] at hb
    cases hb
    omega
  · omega

theorem diff_add (t : Time) (d e : Int) : (t.add d).diff (t.add e) = d - e := by
  unfold diff add
  cases t.mono with
  | none => simp only [map_none]; omega
  | some m => simp only [map_some]; omega

theorem diff_self_add (t : Time) (e : Int) : t.diff (t.add e) = -e := by
  unfold diff add
  cases t.mono with
  | none => show t.wall - (t.wall + e) = -e; omega
  | some m => simp only [map_some]; omega

@[simp] theorem before_add_add (t : Time) (d e : Int) :
    (t.add d).before (t.add e) = true ↔ d < e := by
  rw [before, diff_add, decide_eq_true_eq]
  omega

@[simp] theorem before_self_add (t : Time) (e : Int) : t.before (t.add e) = true ↔ 0 < e := by
  rw [before, diff_self_add, decide_eq_true_eq]
  omega

@[simp] theorem after_add_add (t : Time) (d e : Int) :
    (t.add d).after (t.add e) = true ↔ e < d := by
  rw [after, diff_add, decide_eq_true_eq]
  omega

@[simp] theorem after_self (t : Time) : t.after t = false := by simp [after]

/-- The earlier of two times, the first one of equals. -/
def earlier (a b : Time) : Time := if a.after b then b else a

theorem earlier_cases (a b : Time) : earlier a b = b ∨ (earlier a b = a ∧ a.after b = false) := by
  unfold earlier
  split
  · exact .inl rfl
  · next h => exact .inr ⟨rfl, Bool.eq_false_iff.mpr h⟩

theorem after_earlier_right (a b : Time) : (earlier a b).after b = false := by
  rcases earlier_cases a b with h | ⟨h, hab⟩
  · rw [h, after_self]
  · rw [h, hab]

/-! ### Times of a running process -/

/-- A time read or computed in the process: later than the zero time, with a
monotonic reading. -/
structure Live (t : Time) : Prop where
  wall : 0 < t.wall
  mono : t.mono.isSome = true

/-- A reading of the clock: later than the zero time by more than any duration. -/
structure Reading (t : Time) : Prop where
  wall : 2 ^ 63 < t.wall
  mono : t.mono.isSome = true

theorem Reading.add {t : Time} (h : Reading t) {d : Int} (hd : -2 ^ 63 ≤ d) : Live (t.add d) where
  wall := by
    have := h.wall
    rw [add_wall]
    omega
  mono := by
    rw [Time.add, isSome_map]
    exact h.mono

theorem Live.isZero {t : Time} (h : Live t) : t.isZero = false := by
  have := h.wall
  simp only [Time.isZero, decide_eq_false_iff_not]
  omega

theorem Live.after_zero {t : Time} (h : Live t) : t.after zero = true := by
  have hdiff : t.diff zero = t.wall - 0 := by
    unfold diff zero
    cases t.mono <;> rfl
  rw [after, hdiff, decide_eq_true_eq, Int.sub_zero]
  exact h.wall

theorem Live.zero_before {t : Time} (h : Live t) : zero.before t = true := by
  have hdiff : zero.diff t = 0 - t.wall := rfl
  have := h.wall
  rw [before, hdiff, decide_eq_true_eq]
  omega

theorem diff_of_mono {t u : Time} {a b : Int} (ht : t.mono = some a) (hu : u.mono = some b) :
    t.diff u = a - b := by
  simp only [diff, ht, hu]

/-- A time that is not before a later moment is after now, whichever of its
readings is compared. -/
theorem before_of_not_before_add {t u : Time} {d : Int} (hd : 0 < d)
    (h : u.before (t.add d) = false) : t.before u = true := by
  unfold before diff add at *
  simp only [decide_eq_false_iff_not, decide_eq_true_eq] at *
  cases ht : t.mono with
  | none =>
    simp only [ht, map_none] at h ⊢
    cases hu : u.mono <;> simp only [hu] at h <;> omega
  | some a =>
    simp only [ht, map_some] at h ⊢
    cases hu : u.mono <;> simp only [hu] at h ⊢ <;> omega

section

variable {t u : Time} (ht : t.mono.isSome = true) (hu : u.mono.isSome = true)

include ht hu

/-- Earlier than a time that is not later: on monotonic readings. -/
theorem before_of_before_of_not_after {v : Time} (hv : v.mono.isSome = true)
    (hbefore : t.before u = true) (hafter : u.after v = false) : t.before v = true := by
  obtain ⟨a, ha⟩ := isSome_iff_exists.mp ht
  obtain ⟨b, hb⟩ := isSome_iff_exists.mp hu
  obtain ⟨c, hc⟩ := isSome_iff_exists.mp hv
  simp only [before, after, diff_of_mono ha hb, diff_of_mono hb hc, diff_of_mono ha hc,
    decide_eq_true_eq, decide_eq_false_iff_not] at *
  omega

theorem not_after_of_after (h : u.after t = true) : t.after u = false := by
  obtain ⟨a, ha⟩ := isSome_iff_exists.mp ht
  obtain ⟨b, hb⟩ := isSome_iff_exists.mp hu
  simp only [after, diff_of_mono ha hb, diff_of_mono hb ha, decide_eq_true_eq,
    decide_eq_false_iff_not] at *
  omega

end

end Time

end Mwan.Core

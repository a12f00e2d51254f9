import Mathlib.Algebra.Group.Nat.Defs
import Mathlib.Tactic.Common

/-!
# Leading bits of a byte string, byte by byte

A prefix of `bits` bits covers byte `i` of a string by `maskByte bits i`.
`blend m x t` takes the bits under `m` from `t` and the others from `x`.

Results:
* `toNat_blend`: the two parts of a blend add up.
* `xor_and_eq_zero`: agreeing under a mask is a vanishing difference under it.
* `maskByte_succ`, `blend_blend`: covering and replacing one more bit.
-/
namespace Mwan.Core

/-- The bits of byte `i` that lie in the first `bits` bits. -/
def maskByte (bits i : Nat) : UInt8 := UInt8.ofNat (256 - 2 ^ (8 - min (bits - 8 * i) 8))

/-- Bit `k` of a byte, the most significant one first. -/
def bitMask (k : Nat) : UInt8 := UInt8.ofNat (2 ^ (7 - k))

/-- The bits under `m` from `t`, the others from `x`. -/
def blend (m x t : UInt8) : UInt8 := (x &&& ~~~ m) ||| (t &&& m)

theorem uint8_ext {a b : UInt8} (h : ∀ i, i < 8 → a.toBitVec.getLsbD i = b.toBitVec.getLsbD i) :
    a = b :=
  UInt8.eq_of_toBitVec_eq (BitVec.eq_of_getLsbD_eq h)

theorem getLsbD_blend (m x t : UInt8) {i : Nat} (hi : i < 8) :
    (blend m x t).toBitVec.getLsbD i =
      if m.toBitVec.getLsbD i then t.toBitVec.getLsbD i else x.toBitVec.getLsbD i := by
  simp only [blend, UInt8.toBitVec_or, UInt8.toBitVec_and, UInt8.toBitVec_not, BitVec.getLsbD_or,
    BitVec.getLsbD_and, BitVec.getLsbD_not, hi, decide_true, Bool.true_and]
  cases m.toBitVec.getLsbD i <;> simp

theorem toNat_blend (m x t : UInt8) :
    (blend m x t).toNat = (x &&& ~~~ m).toNat + (t &&& m).toNat := by
  have h : (x &&& ~~~ m).toBitVec &&& (t &&& m).toBitVec = 0#8 := by
    apply BitVec.eq_of_getLsbD_eq
    intro i hi
    simp only [UInt8.toBitVec_and, UInt8.toBitVec_not, BitVec.getLsbD_and, BitVec.getLsbD_not,
      BitVec.getLsbD_zero]
    cases m.toBitVec.getLsbD i <;> simp
  have hadd := BitVec.toNat_add_of_and_eq_zero h
  rw [BitVec.add_eq_or_of_and_eq_zero _ _ h] at hadd
  exact hadd

theorem blend_self (m x : UInt8) : blend m x x = x := by
  apply uint8_ext
  intro i hi
  rw [getLsbD_blend m x x hi, ite_self]

@[simp] theorem blend_zero (x t : UInt8) : blend 0 x t = x := by
  apply uint8_ext
  intro i hi
  rw [getLsbD_blend 0 x t hi]; simp

/-- Under its mask a blend has the new bits. -/
theorem blend_and (m x t : UInt8) : blend m x t &&& m = t &&& m := by
  apply uint8_ext
  intro i hi
  rw [UInt8.toBitVec_and, UInt8.toBitVec_and, BitVec.getLsbD_and, BitVec.getLsbD_and,
    getLsbD_blend m x t hi]
  cases m.toBitVec.getLsbD i <;> simp

/-- A second blend under the same mask keeps nothing of the first. -/
theorem blend_blend_left (m x t u : UInt8) : blend m (blend m x t) u = blend m x u := by
  apply uint8_ext
  intro i hi
  rw [getLsbD_blend _ _ _ hi, getLsbD_blend _ _ _ hi, getLsbD_blend _ _ _ hi]
  cases m.toBitVec.getLsbD i <;> simp

/-- Blending the same bytes in under two masks covers both. -/
theorem blend_blend (m s x t : UInt8) : blend s (blend m x t) t = blend (m ||| s) x t := by
  apply uint8_ext
  intro i hi
  rw [getLsbD_blend _ _ _ hi, getLsbD_blend _ _ _ hi, getLsbD_blend _ _ _ hi, UInt8.toBitVec_or,
    BitVec.getLsbD_or]
  cases m.toBitVec.getLsbD i <;> cases s.toBitVec.getLsbD i <;> simp

/-- A blend of bytes that agree under the mask changes nothing. -/
theorem blend_of_and_eq {m x t : UInt8} (h : x &&& m = t &&& m) : blend m x t = x := by
  rw [blend, ← h]; exact blend_self m x

theorem xor_and_eq_zero (x p m : UInt8) : (x ^^^ p) &&& m = 0 ↔ x &&& m = p &&& m := by
  constructor <;>
  · intro h
    apply uint8_ext
    intro i hi
    have hb := congrArg (fun b : UInt8 => b.toBitVec.getLsbD i) h
    simp only [UInt8.toBitVec_and, UInt8.toBitVec_xor, BitVec.getLsbD_and, BitVec.getLsbD_xor,
      UInt8.toBitVec_ofNat, BitVec.getLsbD_zero] at hb ⊢
    revert hb
    cases m.toBitVec.getLsbD i <;> cases x.toBitVec.getLsbD i <;> cases p.toBitVec.getLsbD i <;> simp

/-! ## Counting bits -/

theorem maskByte_succ (bits i : Nat) :
    maskByte (bits + 1) i =
      if i = bits / 8 then maskByte bits i ||| bitMask (bits % 8) else maskByte bits i := by
  unfold maskByte
  split
  · next h =>
    have hstep : ∀ k : Fin 8, UInt8.ofNat (256 - 2 ^ (8 - (k.val + 1))) =
        UInt8.ofNat (256 - 2 ^ (8 - k.val)) ||| bitMask k.val := by decide
    have h1 : min (bits + 1 - 8 * i) 8 = bits % 8 + 1 := by omega
    have h2 : min (bits - 8 * i) 8 = bits % 8 := by omega
    rw [h1, h2]
    exact hstep ⟨bits % 8, Nat.mod_lt _ (by decide)⟩
  · next h =>
    have : min (bits + 1 - 8 * i) 8 = min (bits - 8 * i) 8 := by omega
    rw [this]

theorem maskByte_eq_zero {bits i : Nat} (h : bits ≤ 8 * i) : maskByte bits i = 0 := by
  unfold maskByte
  rw [show min (bits - 8 * i) 8 = 0 by omega]; rfl

theorem getLsbD_maskByte (bits i : Nat) {j : Nat} (hj : j < 8) :
    (maskByte bits i).toBitVec.getLsbD j = decide (8 * i + (7 - j) < bits) := by
  have hall : ∀ (m : Fin 9) (j : Fin 8),
      (UInt8.ofNat (256 - 2 ^ (8 - m.val))).toBitVec.getLsbD j.val = decide (7 - j.val < m.val) := by
    decide
  have h := hall ⟨min (bits - 8 * i) 8, by omega⟩ ⟨j, hj⟩
  rw [maskByte, h, decide_eq_decide]
  simp only
  omega

/-- A longer prefix covers what a shorter one does. -/
theorem maskByte_and {b c : Nat} (h : b ≤ c) (i : Nat) : maskByte b i &&& maskByte c i = maskByte b i := by
  have hall : ∀ m n : Fin 9, m ≤ n → UInt8.ofNat (256 - 2 ^ (8 - m.val)) &&&
      UInt8.ofNat (256 - 2 ^ (8 - n.val)) = UInt8.ofNat (256 - 2 ^ (8 - m.val)) := by decide
  exact hall ⟨min (b - 8 * i) 8, by omega⟩ ⟨min (c - 8 * i) 8, by omega⟩
    (by simp only [Fin.mk_le_mk]; omega)

end Mwan.Core

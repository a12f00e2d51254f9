import Mwan.Core.Splice
import Mathlib.Data.UInt
import Mathlib.Tactic.Ring

/-!
# Sixteen-bit words and one's complement sums

The Internet checksum adds 16-bit big-endian words with end-around carry.
`foldLoop` is the loop every implementation writes
(`while sum > 0xffff { sum = (sum & 0xffff) + (sum >> 16) }`); its value is
known in closed form (`foldLoop_eq`): congruent to the sum modulo 65535,
zero only for a zero sum. `wordSum` is the sum of the words of a byte list,
an odd last byte counting as the high half of a word.
-/
namespace Mwan.Core

/-! ## The fold -/

/-- One end-around carry. -/
def foldStep (s : Nat) : Nat := s % 65536 + s / 65536

variable (fuel s : Nat)

theorem foldStep_mod : foldStep s % 65535 = s % 65535 := by
  unfold foldStep; omega

theorem foldStep_lt (h : 65535 < s) : foldStep s < s := by
  unfold foldStep; omega

theorem foldStep_pos (h : 0 < s) : 0 < foldStep s := by
  unfold foldStep; omega

/-- The carry loop; `fuel` bounds the rounds and the sum itself is enough. -/
def foldLoop : Nat → Nat → Nat
  | 0, s => s
  | fuel + 1, s => if 65535 < s then foldLoop fuel (foldStep s) else s

theorem foldLoop_mod : foldLoop fuel s % 65535 = s % 65535 := by
  induction fuel generalizing s with
  | zero => rfl
  | succ fuel ih =>
    simp only [foldLoop]; split
    · rw [ih, foldStep_mod]
    · rfl

theorem foldLoop_pos (h : 0 < s) : 0 < foldLoop fuel s := by
  induction fuel generalizing s with
  | zero => exact h
  | succ fuel ih =>
    simp only [foldLoop]; split
    · exact ih _ (foldStep_pos s h)
    · exact h

theorem foldLoop_le (h : s ≤ fuel + 65535) : foldLoop fuel s ≤ 65535 := by
  induction fuel generalizing s with
  | zero => simpa [foldLoop] using h
  | succ fuel ih =>
    simp only [foldLoop]; split
    · rename_i hs
      exact ih _ (by have := foldStep_lt s hs; omega)
    · omega

/-- The folded sum: the representative of `s` modulo 65535 in `1..65535`,
or zero when nothing was added. -/
def fold16 (s : Nat) : Nat := foldLoop s s

theorem fold16_le : fold16 s ≤ 65535 := foldLoop_le s s (by omega)

theorem fold16_mod : fold16 s % 65535 = s % 65535 := foldLoop_mod s s

theorem fold16_pos (h : 0 < s) : 0 < fold16 s := foldLoop_pos s s h

theorem fold16_eq_zero : fold16 s = 0 ↔ s = 0 := by
  constructor
  · intro h
    by_contra hs
    have := fold16_pos s (by omega); omega
  · rintro rfl; rfl

/-- Two folds are enough for a sum of two words. -/
theorem foldStep_foldStep (h : s ≤ 131070) : foldStep (foldStep s) = fold16 s := by
  have h1 := fold16_mod s
  have h2 := fold16_le s
  have h3 := fold16_eq_zero s
  unfold foldStep; omega

/-! ## Words -/

/-- A big-endian word. -/
def ofBe (hi lo : UInt8) : UInt16 := UInt16.ofNat (hi.toNat * 256 + lo.toNat)

/-- Its two bytes, high first. -/
def toBe (x : UInt16) : List UInt8 := [UInt8.ofNat (x.toNat / 256), UInt8.ofNat (x.toNat % 256)]

theorem toNat_ofBe (hi lo : UInt8) : (ofBe hi lo).toNat = hi.toNat * 256 + lo.toNat := by
  have := hi.toNat_lt; have := lo.toNat_lt
  simp only [ofBe, UInt16.toNat_ofNat']; omega

@[simp] theorem length_toBe (x : UInt16) : (toBe x).length = 2 := rfl

theorem toBe_ofBe (hi lo : UInt8) : toBe (ofBe hi lo) = [hi, lo] := by
  have h1 := hi.toNat_lt; have h2 := lo.toNat_lt
  simp only [toBe, toNat_ofBe, List.cons.injEq, and_true]
  constructor <;> apply UInt8.toNat_inj.mp <;> rw [UInt8.toNat_ofNat'] <;> omega

theorem ofBe_toBe (x : UInt16) :
    ofBe (UInt8.ofNat (x.toNat / 256)) (UInt8.ofNat (x.toNat % 256)) = x := by
  have := x.toNat_lt
  apply UInt16.toNat_inj.mp
  rw [toNat_ofBe, UInt8.toNat_ofNat', UInt8.toNat_ofNat']; omega

/-- Sum of the 16-bit big-endian words; an odd last byte is a high half. -/
def wordSum : List UInt8 → Nat
  | [] => 0
  | [hi] => hi.toNat * 256
  | hi :: lo :: rest => hi.toNat * 256 + lo.toNat + wordSum rest

@[simp] theorem wordSum_nil : wordSum [] = 0 := rfl

theorem wordSum_cons_cons (hi lo : UInt8) (rest : List UInt8) :
    wordSum (hi :: lo :: rest) = (ofBe hi lo).toNat + wordSum rest := by
  rw [toNat_ofBe]; rfl

theorem wordSum_toBe (x : UInt16) : wordSum (toBe x) = x.toNat := by
  have := x.toNat_lt
  simp only [toBe, wordSum, UInt8.toNat_ofNat']; omega

/-- Words do not straddle an even split. -/
theorem wordSum_append : ∀ (a b : List UInt8), a.length % 2 = 0 →
    wordSum (a ++ b) = wordSum a + wordSum b
  | [], b, _ => by simp
  | [_], _, h => by simp at h
  | hi :: lo :: a, b, h => by
    have h' : a.length % 2 = 0 := by simp only [List.length_cons] at h; omega
    simp only [List.cons_append, wordSum_cons_cons, wordSum_append a b h']; omega

/-- Overwriting an even range at an even offset exchanges its words. -/
theorem wordSum_splice (l : List UInt8) (off : Nat) (new : List UInt8)
    (hb : off + new.length ≤ l.length) (ho : off % 2 = 0) (hn : new.length % 2 = 0) :
    wordSum (splice l off new) + wordSum (slice l off new.length) = wordSum l + wordSum new := by
  have h1 : (l.take off).length = off := by simp; omega
  have h2 : (slice l off new.length).length = new.length := length_slice l off _ hb
  have hl : l = l.take off ++ (slice l off new.length ++ l.drop (off + new.length)) := by
    rw [slice, ← List.drop_drop, List.take_append_drop, List.take_append_drop]
  have e1 : wordSum l = wordSum (l.take off) +
      (wordSum (slice l off new.length) + wordSum (l.drop (off + new.length))) := by
    conv_lhs => rw [hl]
    rw [wordSum_append _ _ (by omega), wordSum_append _ _ (by omega)]
  rw [splice, wordSum_append _ _ (by omega), wordSum_append _ _ (by omega), e1]
  omega

end Mwan.Core

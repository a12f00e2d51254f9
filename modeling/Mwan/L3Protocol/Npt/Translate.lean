import Mathlib.Tactic.IntervalCases
import Mwan.L3Protocol.Npt.Policy

/-!
# Reversibility and neutrality of NPTv6 (`gateway/internal/nptpolicy/policy.go`)

The correction word of an address survives its own translation: the words
before it stay `0xffff` and it never becomes `0xffff` itself. So the reverse
direction finds the same word and takes the same correction back. The one
exception is an identifier whose only nonzero word is corrected to zero: its
image has the zero identifier, which `TranslateAddress` excludes.

Results:
* `Translated.sum`, `Translated.target_leading`, `Translated.identifier`: the
  image has the same sum modulo 65535, lies under the target prefix and keeps
  every identifier word but the correction word.
* `Translated.reverse`: the reverse of an image is the address, unless the
  image has the zero identifier.
* `translateBytes_injective`: no two addresses have the same image.
* `mapping_of_validated`: an accepted pair has such a mapping in both
  directions.
-/
namespace Mwan.Npt

open Mwan.Core

/-! ## The correction -/

theorem toNat_fold (value : Nat) : (fold value).toNat = fold16 value := by
  have := fold16_le value
  rw [fold, UInt16.toNat_ofNat']; omega

/-- The correction adds modulo 65535. -/
theorem toNat_corrected (word adjust : UInt16) :
    (corrected word adjust).toNat = (word.toNat + adjust.toNat) % 65535 := by
  have h1 := toNat_fold (word.toNat + adjust.toNat)
  have h2 := fold16_le (word.toNat + adjust.toNat)
  have h3 := fold16_mod (word.toNat + adjust.toNat)
  unfold corrected
  simp only
  split
  · next h => rw [h] at h1; simp at h1 ⊢; omega
  · next h =>
    have : fold16 (word.toNat + adjust.toNat) ≠ 65535 := fun h' =>
      h (UInt16.toNat_inj.mp (by rw [h1, h']; rfl))
    omega

theorem corrected_ne (word adjust : UInt16) : corrected word adjust ≠ 0xffff := by
  intro h
  have := toNat_corrected word adjust
  rw [h] at this
  have h65 : (0xffff : UInt16).toNat = 65535 := rfl
  omega

theorem adjustment_residue (p t : Prefix) :
    ((adjustment p t).toNat + sumTo t.addr.as16 4) % 65535 = sumTo p.addr.as16 4 % 65535 := by
  have hf := fold16_mod (sumTo p.addr.as16 4)
  have ht := fold16_mod (sumTo t.addr.as16 4)
  have hle := fold16_le (sumTo t.addr.as16 4)
  have hnot : (~~~ fold (sumTo t.addr.as16 4)).toNat = 65535 - fold16 (sumTo t.addr.as16 4) := by
    rw [UInt16.toNat_not, toNat_fold, UInt16.size]
  have hall := fold16_mod ((fold (sumTo p.addr.as16 4)).toNat +
    (~~~ fold (sumTo t.addr.as16 4)).toNat)
  rw [adjustment, toNat_fold, Nat.add_mod, hall, hnot, toNat_fold]
  omega

/-! ## The correction word -/

theorem find_identifier (a : Addr) (k : Nat) :
    ([4, 5, 6, 7].find? fun k => wordOf a k ≠ 0xffff) = some k ↔
      4 ≤ k ∧ k < 8 ∧ wordOf a k ≠ 0xffff ∧ ∀ j, 4 ≤ j → j < k → wordOf a j = 0xffff := by
  constructor
  · intro h
    by_cases h4 : wordOf a 4 = 0xffff
    · by_cases h5 : wordOf a 5 = 0xffff
      · by_cases h6 : wordOf a 6 = 0xffff
        · by_cases h7 : wordOf a 7 = 0xffff
          · simp [h4, h5, h6, h7] at h
          · simp [h4, h5, h6, h7] at h
            subst h
            exact ⟨by omega, by omega, h7, fun j hj hj' => by
              interval_cases j
              exacts [h4, h5, h6]⟩
        · simp [h4, h5, h6] at h
          subst h
          exact ⟨by omega, by omega, h6, fun j hj hj' => by
            interval_cases j
            exacts [h4, h5]⟩
      · simp [h4, h5] at h
        subst h
        exact ⟨by omega, by omega, h5, fun j hj hj' => by interval_cases j; exact h4⟩
    · simp [h4] at h
      subst h
      exact ⟨by omega, by omega, h4, fun j hj hj' => by omega⟩
  · rintro ⟨h4, h8, hk, hj⟩
    interval_cases k
    · simp [hk]
    · simp [hk, hj 4]
    · simp [hk, hj 4, hj 5]
    · simp [hk, hj 4, hj 5, hj 6]

/-- The identifier, words 4 to 7, is zero. -/
def zeroIdentifier (a : Addr) : Prop := ∀ j, 4 ≤ j → j < 8 → wordOf a j = 0

theorem all_zero_iff (a : Addr) :
    ([4, 5, 6, 7].all fun k => wordOf a k = 0) = true ↔ zeroIdentifier a := by
  simp only [List.all_cons, List.all_nil, Bool.and_true, Bool.and_eq_true, decide_eq_true_eq]
  constructor
  · rintro ⟨h4, h5, h6, h7⟩ j hj hj'
    interval_cases j
    exacts [h4, h5, h6, h7]
  · exact fun h => ⟨h 4 (by omega) (by omega), h 5 (by omega) (by omega), h 6 (by omega) (by omega),
      h 7 (by omega) (by omega)⟩

/-- The correction word of an address: word 3 up to /48, behind it the first
identifier word that is not `0xffff`. -/
theorem correctionWord_iff (bits : Nat) (a : Addr) (k : Nat) :
    correctionWord bits a = some k ↔ k < 8 ∧ wordOf a k ≠ 0xffff ∧
      ((bits ≤ 48 ∧ k = 3) ∨ (48 < bits ∧ 4 ≤ k ∧ ¬ zeroIdentifier a ∧
        ∀ j, 4 ≤ j → j < k → wordOf a j = 0xffff)) := by
  unfold correctionWord
  by_cases h48 : bits > 48
  · rw [if_pos h48]
    by_cases hz : ([4, 5, 6, 7].all fun k => wordOf a k = 0) = true
    · rw [if_pos hz]
      have := (all_zero_iff a).mp hz
      simp only [reduceCtorEq, false_iff]
      rintro ⟨-, -, h | ⟨-, -, h, -⟩⟩
      · omega
      · exact h this
    · rw [if_neg hz, find_identifier]
      have hz' : ¬ zeroIdentifier a := fun h => hz ((all_zero_iff a).mpr h)
      constructor
      · rintro ⟨h4, h8, hk, hj⟩; exact ⟨h8, hk, .inr ⟨h48, h4, hz', hj⟩⟩
      · rintro ⟨h8, hk, h | ⟨-, h4, -, hj⟩⟩
        · omega
        · exact ⟨h4, h8, hk, hj⟩
  · rw [if_neg h48]
    by_cases h3 : wordOf a 3 = 0xffff
    · rw [if_pos h3]
      simp only [reduceCtorEq, false_iff]
      rintro ⟨-, hk, ⟨-, rfl⟩ | ⟨h, -⟩⟩
      · exact hk h3
      · omega
    · rw [if_neg h3]
      constructor
      · intro h
        cases h
        exact ⟨by omega, h3, .inl ⟨by omega, rfl⟩⟩
      · rintro ⟨-, -, ⟨-, rfl⟩ | ⟨h, -⟩⟩
        · rfl
        · omega

/-! ## One mapping and its reverse -/

/-- What the two prefixes of a direction have to be. -/
structure Mapping (bits : Nat) (p t : Addr) (adjust : UInt16) : Prop where
  bits_le : bits ≤ 64
  source : Canonical bits p
  target : Canonical bits t
  residue : (adjust.toNat + sumTo t 4) % 65535 = sumTo p 4 % 65535

/-- An address and its image, with the correction word between them. -/
structure Translated (bits : Nat) (p t : Addr) (adjust : UInt16) (a b : Addr) (k : Nat) : Prop where
  leading : sameLeading bits a p = true
  word : correctionWord bits a = some k
  image : b = putWord (replaceLeading bits a t) k
    (corrected (wordOf (replaceLeading bits a t) k) adjust)

theorem translated_iff (bits : Nat) (p t : Addr) (adjust : UInt16) (a b : Addr) :
    translateBytes bits p t adjust a = some b ↔ ∃ k, Translated bits p t adjust a b k := by
  rw [translateBytes_eq_some]
  constructor
  · rintro ⟨hs, k, hk, hb⟩; exact ⟨k, hs, hk, hb⟩
  · rintro ⟨k, hs, hk, hb⟩; exact ⟨hs, k, hk, hb⟩

theorem Translated.word_toNat {bits : Nat} {p t : Addr} {adjust : UInt16} {a b : Addr} {k : Nat}
    (h : Translated bits p t adjust a b k) : (wordOf a k).toNat < 65535 := by
  obtain ⟨-, hw, -⟩ := (correctionWord_iff ..).mp h.word
  have := (wordOf a k).toNat_lt
  have : (wordOf a k).toNat ≠ 65535 := fun h' => hw (UInt16.toNat_inj.mp h')
  omega

section Translated

variable {bits : Nat} {p t : Addr} {adjust : UInt16} {a b : Addr} {k : Nat}
  (hm : Mapping bits p t adjust) (h : Translated bits p t adjust a b k)

include hm h

theorem Translated.word_lt : k < 8 ∧ bits ≤ 16 * k := by
  obtain ⟨h8, -, h3 | ⟨-, h4, -, -⟩⟩ := (correctionWord_iff ..).mp h.word
  · exact ⟨h8, by omega⟩
  · have := hm.bits_le; exact ⟨h8, by omega⟩

/-- The image's words: the correction, and elsewhere those of the address
under the new prefix. -/
theorem Translated.wordOf_image (j : Nat) :
    wordOf b j = if j = k then corrected (wordOf a k) adjust
      else wordOf (replaceLeading bits a t) j := by
  obtain ⟨hk, hb⟩ := h.word_lt hm
  rw [h.image, wordOf_putWord _ _ _ _ hk, wordOf_replaceLeading bits a t k hk hb]

theorem Translated.sum : sumTo b 8 % 65535 = sumTo a 8 % 65535 := by
  obtain ⟨hk, hb⟩ := h.word_lt hm
  have h1 := (sumTo_putWord (replaceLeading bits a t) k
    (corrected (wordOf (replaceLeading bits a t) k) adjust) hk 8).1 hk
  have h2 := sumTo_replaceLeading h.leading hm.source hm.target 8 (le_refl _)
  have h3 := toNat_corrected (wordOf (replaceLeading bits a t) k) adjust
  have h4 := hm.residue
  rw [← hm.source.sumTo_eight hm.bits_le, ← hm.target.sumTo_eight hm.bits_le] at h4
  rw [← h.image] at h1
  omega

theorem Translated.byteOf_image (i : Nat) (hi : i / 2 ≠ k) :
    byteOf b i = byteOf (replaceLeading bits a t) i := by
  obtain ⟨hk, -⟩ := h.word_lt hm
  rw [h.image, putWord, byteOf_setByte _ _ _ _ (by omega), byteOf_setByte _ _ _ _ (by omega),
    if_neg (by omega), if_neg (by omega)]

theorem Translated.target_leading : sameLeading bits b t = true := by
  rw [sameLeading_iff]
  intro i hi
  obtain ⟨hk, hb⟩ := h.word_lt hm
  by_cases h2 : i / 2 = k
  · rw [maskByte_eq_zero (by omega), UInt8.and_zero, UInt8.and_zero]
  · rw [h.byteOf_image hm i h2, byteOf_replaceLeading _ _ _ _ hi, blend_and]

/-- Taking the prefix and the correction word back gives the address back. -/
theorem Translated.undo : putWord (replaceLeading bits b p) k (wordOf a k) = a := by
  obtain ⟨hk, hb⟩ := h.word_lt hm
  apply addr_ext
  intro i hi
  by_cases h2 : i / 2 = k
  · have hw : wordOf (putWord (replaceLeading bits b p) k (wordOf a k)) k = wordOf a k := by
      rw [wordOf_putWord _ _ _ _ hk, if_pos rfl]
    obtain ⟨he, ho⟩ := ofBe_inj hw
    by_cases h0 : i % 2 = 0
    · rwa [show 2 * k = i by omega] at he
    · rwa [show 2 * k + 1 = i by omega] at ho
  · rw [putWord, byteOf_setByte _ _ _ _ (by omega), byteOf_setByte _ _ _ _ (by omega),
      if_neg (by omega), if_neg (by omega), byteOf_replaceLeading _ _ _ _ hi,
      h.byteOf_image hm i h2, byteOf_replaceLeading _ _ _ _ hi, blend_blend_left]
    exact blend_of_and_eq ((sameLeading_iff ..).mp h.leading i hi)

theorem Translated.identifier (j : Nat) (h4 : 4 ≤ j) (h8 : j < 8) (hj : j ≠ k) :
    wordOf b j = wordOf a j := by
  have := hm.bits_le
  rw [h.wordOf_image hm, if_neg hj, wordOf_replaceLeading bits a t j h8 (by omega)]

/-- The image has the same correction word, unless its identifier is the
excluded zero. -/
theorem Translated.word_image (hz : ¬ (48 < bits ∧ zeroIdentifier b)) :
    correctionWord bits b = some k := by
  obtain ⟨hk, hw, h3 | ⟨h48, h4, -, hj⟩⟩ := (correctionWord_iff ..).mp h.word
  · refine (correctionWord_iff ..).mpr ⟨hk, ?_, .inl h3⟩
    rw [h.wordOf_image hm, if_pos rfl]; exact corrected_ne _ _
  · refine (correctionWord_iff ..).mpr ⟨hk, ?_, .inr ⟨h48, h4, fun z => hz ⟨h48, z⟩, ?_⟩⟩
    · rw [h.wordOf_image hm, if_pos rfl]; exact corrected_ne _ _
    · intro j hj4 hjk
      rw [h.identifier hm j hj4 (by omega) (by omega)]; exact hj j hj4 hjk

/-- The reverse direction maps the image back, unless its identifier is the
excluded zero. -/
theorem Translated.reverse {adjust' : UInt16} (hm' : Mapping bits t p adjust') :
    translateBytes bits t p adjust' b = some a ↔ ¬ (48 < bits ∧ zeroIdentifier b) := by
  rw [translated_iff]
  constructor
  · rintro ⟨k', h'⟩ ⟨h48, hz⟩
    obtain ⟨-, -, h3 | ⟨-, -, hz', -⟩⟩ := (correctionWord_iff ..).mp h'.word
    · omega
    · exact hz' hz
  · intro hz
    refine ⟨k, h.target_leading hm, h.word_image hm hz, ?_⟩
    obtain ⟨hk, hb⟩ := h.word_lt hm
    have hback : corrected (wordOf (replaceLeading bits b p) k) adjust' = wordOf a k := by
      rw [wordOf_replaceLeading bits b p k hk hb, h.wordOf_image hm, if_pos rfl]
      apply UInt16.toNat_inj.mp
      rw [toNat_corrected, toNat_corrected]
      have h1 := hm.residue; have h2 := hm'.residue; have h3 := h.word_toNat
      omega
    rw [hback]
    exact (h.undo hm).symm

/-- When the image has the zero identifier: the first identifier word of the
address is corrected to zero and the other three are zero. -/
theorem Translated.zeroIdentifier_image (h48 : 48 < bits) :
    zeroIdentifier b ↔ wordOf a 4 ≠ 0xffff ∧
      ((wordOf a 4).toNat + adjust.toNat) % 65535 = 0 ∧
      wordOf a 5 = 0 ∧ wordOf a 6 = 0 ∧ wordOf a 7 = 0 := by
  obtain ⟨hk, hw, h3 | ⟨-, h4, -, hj⟩⟩ := (correctionWord_iff ..).mp h.word
  · omega
  constructor
  · intro hz
    -- a skipped word would still be 0xffff in the image
    obtain rfl : k = 4 := by
      by_contra hne
      have h1 := h.identifier hm 4 (by omega) (by omega) (by omega)
      rw [hz 4 (by omega) (by omega), hj 4 (by omega) (by omega)] at h1
      exact absurd h1 (by decide)
    have hc := hz 4 (by omega) (by omega)
    rw [h.wordOf_image hm, if_pos rfl] at hc
    have hn := toNat_corrected (wordOf a 4) adjust
    rw [hc] at hn
    refine ⟨hw, hn.symm, ?_, ?_, ?_⟩
    · rw [← h.identifier hm 5 (by omega) (by omega) (by omega)]; exact hz 5 (by omega) (by omega)
    · rw [← h.identifier hm 6 (by omega) (by omega) (by omega)]; exact hz 6 (by omega) (by omega)
    · rw [← h.identifier hm 7 (by omega) (by omega) (by omega)]; exact hz 7 (by omega) (by omega)
  · rintro ⟨hne, hzero, h5, h6, h7⟩ j hj4 hj8
    obtain rfl : k = 4 := by
      by_contra hk4
      exact hne (hj 4 (by omega) (by omega))
    interval_cases j
    · rw [h.wordOf_image hm, if_pos rfl]
      apply UInt16.toNat_inj.mp
      rw [toNat_corrected, hzero]; rfl
    · rw [h.identifier hm 5 (by omega) (by omega) (by omega), h5]
    · rw [h.identifier hm 6 (by omega) (by omega) (by omega), h6]
    · rw [h.identifier hm 7 (by omega) (by omega) (by omega), h7]

end Translated

section

variable {bits : Nat} {p t : Addr} {adjust : UInt16} {a a' b : Addr} (hm : Mapping bits p t adjust)

include hm

/-- The image determines the correction word. -/
theorem Translated.word_unique {k k' : Nat} (h : Translated bits p t adjust a b k)
    (h' : Translated bits p t adjust a' b k') : k' ≤ k := by
  obtain ⟨hk, -, h3 | ⟨h48, h4, -, -⟩⟩ := (correctionWord_iff ..).mp h.word
  · obtain ⟨-, -, h3' | ⟨h48, -⟩⟩ := (correctionWord_iff ..).mp h'.word <;> omega
  · obtain ⟨-, -, h3' | ⟨-, -, -, hj⟩⟩ := (correctionWord_iff ..).mp h'.word
    · omega
    · by_contra hlt
      have h1 := h'.identifier hm k h4 hk (by omega)
      rw [hj k h4 (by omega), h.wordOf_image hm, if_pos rfl] at h1
      exact corrected_ne _ _ h1

/-- No two addresses have the same image. -/
theorem translateBytes_injective (h : translateBytes bits p t adjust a = some b)
    (h' : translateBytes bits p t adjust a' = some b) : a = a' := by
  obtain ⟨k, h⟩ := (translated_iff ..).mp h
  obtain ⟨k', h'⟩ := (translated_iff ..).mp h'
  obtain rfl : k = k' := by
    have := h.word_unique hm h'; have := h'.word_unique hm h; omega
  have hw : wordOf a k = wordOf a' k := by
    have h1 := h.wordOf_image hm k; have h2 := h'.wordOf_image hm k
    rw [if_pos rfl] at h1 h2
    have hc := congrArg UInt16.toNat (h1.symm.trans h2)
    rw [toNat_corrected, toNat_corrected] at hc
    have := h.word_toNat; have := h'.word_toNat
    apply UInt16.toNat_inj.mp
    omega
  rw [← h.undo hm, ← h'.undo hm, hw]

end

/-! ## The mapping of an accepted pair -/

theorem mapping_of_validated {pair : PrefixPair} (hv : validatePair pair = .ok ())
    (outbound : Bool) :
    Mapping (max pair.internal.length pair.external.length) (source pair outbound).addr.as16
      (target pair outbound).addr.as16
      (adjustment (source pair outbound) (target pair outbound)) := by
  obtain ⟨-, hs, hcs⟩ := prefixAccepted_spec (source_accepted hv outbound)
  obtain ⟨-, ht, hct⟩ := prefixAccepted_spec (target_accepted hv outbound)
  rw [← max_source_target pair outbound]
  exact {
    bits_le := max_le hs ht
    source := hcs.mono (le_max_left _ _)
    target := hct.mono (le_max_right _ _)
    residue := adjustment_residue _ _ }

theorem source_not (pair : PrefixPair) (outbound : Bool) :
    source pair (!outbound) = target pair outbound := by
  cases outbound <;> rfl

theorem target_not (pair : PrefixPair) (outbound : Bool) :
    target pair (!outbound) = source pair outbound := by
  cases outbound <;> rfl

theorem pairTranslate_iff (pair : PrefixPair) (outbound : Bool) (a b : Addr) :
    pairTranslate pair outbound a = some b ↔
      ∃ k, Translated (max pair.internal.length pair.external.length)
        (source pair outbound).addr.as16 (target pair outbound).addr.as16
        (adjustment (source pair outbound) (target pair outbound)) a b k :=
  translated_iff ..

end Mwan.Npt

import Mwan.L1Encoding.PacketLayout

/-!
# Incremental checksums (`native/src/packet.rs:695-732`)

The complement of a checksum is a sum of words, and one's complement sums are
residues modulo 65535 with two zeros. `rfc1624` is the incremental rule the
hardware applies, `~(~HC + ~m + m')`; `checksum_replace` is the same rule
with a shortcut for equal slices.

Results:
* `comp_rfc1624_residue`, `comp_replaced_residue`: both rules move the
  complement by `wordSum after - wordSum before` modulo 65535.
* `replacePieces_rfc1624`: replacing translated by original words piece by
  piece undoes one hardware update, up to the two zeros: a field that was
  `0xffff` comes back as `0x0000`.
* `replacePieces_udp`: where zero is sent as `0xffff`, the inverse is exact.
-/
namespace Mwan.Native

open Mwan.Core

/-- RFC 1624, equation 3. -/
def rfc1624 (checksum : UInt16) (before after : Bytes) : UInt16 :=
  ~~~ foldChecksum ((~~~ checksum).toNat + replaceWords before after)

/-- The complement of a checksum field, the folded sum it stands for. -/
def comp (checksum : UInt16) : Nat := (~~~ checksum).toNat

/-- The negative zero `0xffff` replaced by the positive one. -/
def positiveZero (checksum : UInt16) : UInt16 := if checksum = 0xffff then 0 else checksum

variable (c : UInt16)

theorem comp_eq : comp c + c.toNat = 65535 := by
  have := c.toNat_lt
  simp only [comp, UInt16.toNat_not, UInt16.size]; omega

theorem comp_le : comp c ≤ 65535 := by have := comp_eq c; omega

theorem comp_inj {a b : UInt16} (h : comp a = comp b) : a = b := by
  have := comp_eq a; have := comp_eq b
  exact UInt16.toNat_inj.mp (by omega)

theorem comp_rfc1624 (before after : Bytes) :
    comp (rfc1624 c before after) = fold16 (comp c + replaceWords before after) := by
  have h := fold16_le (comp c + replaceWords before after)
  rw [comp, rfc1624, UInt16.not_not, foldChecksum, UInt16.toNat_ofNat']
  exact Nat.mod_eq_of_lt (by unfold comp at h; omega)

theorem wordSum_le : ∀ b : Bytes, b.length % 2 = 0 → wordSum b ≤ 65535 * (b.length / 2)
  | [], _ => by simp
  | [_], h => by simp at h
  | hi :: lo :: rest, h => by
    have ih := wordSum_le rest (by simp at h; omega)
    have := hi.toNat_lt; have := lo.toNat_lt
    simp only [wordSum, List.length_cons]; omega

theorem replaceWords_add : ∀ b a : Bytes, b.length = a.length → b.length % 2 = 0 →
    replaceWords b a + wordSum b = 65535 * (b.length / 2) + wordSum a
  | [], [], _, _ => by simp [replaceWords]
  | [], _ :: _, h, _ => by simp at h
  | [_], _, _, h => by simp at h
  | _ :: _ :: _, [], h, _ => by simp at h
  | _ :: _ :: _, [_], h, _ => by simp at h
  | bh :: bl :: b, ah :: al :: a, h, h2 => by
    have ih := replaceWords_add b a (by simpa using h) (by simp at h2; omega)
    have := comp_eq (ofBe bh bl)
    simp only [replaceWords, wordSum_cons_cons, List.length_cons]
    unfold comp at this; omega

variable (b a : Bytes)

section

variable (hl : b.length = a.length) (he : b.length % 2 = 0)

include hl he

theorem comp_rfc1624_residue :
    (comp (rfc1624 c b a) + wordSum b) % 65535 = (comp c + wordSum a) % 65535 := by
  have h1 := fold16_mod (comp c + replaceWords b a)
  have h2 := replaceWords_add b a hl he
  rw [comp_rfc1624]; omega

theorem comp_rfc1624_eq_zero (h : comp (rfc1624 c b a) = 0) :
    comp c = 0 ∧ wordSum b = 65535 * (b.length / 2) ∧ wordSum a = 0 := by
  rw [comp_rfc1624, fold16_eq_zero] at h
  -- only all-ones words replaced by all-zero words add nothing
  have hadd := replaceWords_add b a hl he
  have hle := wordSum_le b he
  omega

end

/-- The value `checksum_replace` returns on slices of one even length. -/
def replaced (c : UInt16) (before after : Bytes) : UInt16 :=
  if before = after then c else rfc1624 c before after

theorem checksumReplace_eq (hl : b.length = a.length) (he : b.length % 2 = 0) :
    checksumReplace c b a = some (replaced c b a) := by
  unfold checksumReplace replaced rfc1624
  rw [if_neg (by omega)]
  split <;> rfl

theorem comp_replaced_residue (hl : b.length = a.length) (he : b.length % 2 = 0) :
    (comp (replaced c b a) + wordSum b) % 65535 = (comp c + wordSum a) % 65535 := by
  unfold replaced
  split
  · next h => rw [h]
  · exact comp_rfc1624_residue c b a hl he

theorem comp_replaced_eq_zero (hl : b.length = a.length) (he : b.length % 2 = 0)
    (h : comp (replaced c b a) = 0) :
    comp c = 0 ∧ (wordSum b = wordSum a ∨ wordSum a = 0) := by
  unfold replaced at h
  split at h
  · next hb => exact ⟨h, .inl (by rw [hb])⟩
  · have := comp_rfc1624_eq_zero c b a hl he h
    exact ⟨this.1, .inr this.2.2⟩

/-- A nonzero residue determines the field; the zero residue leaves the
negative zero only where the complement vanishes. -/
theorem eq_positiveZero {c r : UInt16} (hr : comp r ≠ 0) (h : comp r % 65535 = comp c % 65535) :
    r = positiveZero c := by
  have h1 := comp_le r; have h2 := comp_le c
  unfold positiveZero
  split
  · next hc =>
    subst hc
    have h0 : comp 0xffff = 0 := by decide
    have hz : comp 0 = 65535 := by decide
    exact comp_inj (by omega)
  · next hc =>
    have : comp c ≠ 0 := fun h0 => hc (comp_inj (by rw [h0]; decide))
    exact comp_inj (by omega)

/-! ## Undoing one hardware update piece by piece -/

/-- A replaced range: what it holds now and what it is replaced by, of one
even length. -/
structure Piece where
  before : Bytes
  after : Bytes
  length : before.length = after.length
  even : before.length % 2 = 0
  nonempty : 0 < before.length

/-- `checksum_replace` over the pieces, one after the other. -/
def replacePieces (c : UInt16) (pieces : List Piece) : UInt16 :=
  pieces.foldl (fun c piece => replaced c piece.before piece.after) c

def beforeAll (pieces : List Piece) : Bytes := pieces.flatMap Piece.before
def afterAll (pieces : List Piece) : Bytes := pieces.flatMap Piece.after

theorem length_beforeAll (pieces : List Piece) :
    (beforeAll pieces).length = (afterAll pieces).length ∧ (beforeAll pieces).length % 2 = 0 := by
  induction pieces with
  | nil => exact ⟨rfl, rfl⟩
  | cons p pieces ih =>
    have := p.length; have := p.even
    simp only [beforeAll, afterAll, List.flatMap_cons, List.length_append] at ih ⊢
    omega

theorem replacePieces_residue (pieces : List Piece) :
    (comp (replacePieces c pieces) + wordSum (beforeAll pieces)) % 65535 =
      (comp c + wordSum (afterAll pieces)) % 65535 := by
  induction pieces generalizing c with
  | nil => rfl
  | cons p pieces ih =>
    have h1 := ih (replaced c p.before p.after)
    have h2 := comp_replaced_residue c p.before p.after p.length p.even
    simp only [replacePieces, beforeAll, afterAll, List.foldl_cons, List.flatMap_cons] at h1 ⊢
    rw [wordSum_append _ _ p.even, wordSum_append _ _ (p.length ▸ p.even)]
    omega

theorem replacePieces_ne_zero {c : UInt16} (hc : comp c ≠ 0) (pieces : List Piece) :
    comp (replacePieces c pieces) ≠ 0 := by
  induction pieces generalizing c with
  | nil => exact hc
  | cons p pieces ih =>
    exact ih fun h => hc (comp_replaced_eq_zero c _ _ p.length p.even h).1

/-- A hardware update followed by the inverse pieces gives the field back, up
to the two zeros. -/
theorem replacePieces_rfc1624 (p : Piece) (pieces : List Piece) :
    replacePieces (rfc1624 c (afterAll (p :: pieces)) (beforeAll (p :: pieces))) (p :: pieces) =
      positiveZero c := by
  obtain ⟨hl, he⟩ := length_beforeAll (p :: pieces)
  have hres := replacePieces_residue (rfc1624 c (afterAll (p :: pieces)) (beforeAll (p :: pieces)))
    (p :: pieces)
  have hhw := comp_rfc1624_residue c (afterAll (p :: pieces)) (beforeAll (p :: pieces)) hl.symm
    (hl ▸ he)
  refine eq_positiveZero (replacePieces_ne_zero (fun h => ?_) pieces) (by omega)
  -- the first piece would have to replace zeros by ones and add nothing
  obtain ⟨h0, h⟩ := comp_replaced_eq_zero _ _ _ p.length p.even h
  obtain ⟨-, hones, hzero⟩ := comp_rfc1624_eq_zero c _ _ hl.symm (hl ▸ he) h0
  obtain ⟨hl', he'⟩ := length_beforeAll pieces
  have hle := wordSum_le p.after (p.length ▸ p.even)
  have hle' := wordSum_le (afterAll pieces) (hl' ▸ he')
  have hp := p.length; have hpe := p.even; have hpn := p.nonempty
  simp only [beforeAll, afterAll, List.flatMap_cons, List.length_append] at hones hzero hle' hl' he'
  rw [wordSum_append _ _ p.even] at hzero
  rw [wordSum_append _ _ (p.length ▸ p.even)] at hones
  omega

/-- A computed UDP zero is sent as all ones. -/
def udpChecksum (checksum : UInt16) : UInt16 := if checksum = 0 then 0xffff else checksum

theorem comp_udpChecksum :
    comp (udpChecksum c) % 65535 = comp c % 65535 ∧ comp (udpChecksum c) < 65535 := by
  unfold udpChecksum
  split
  · next h => subst h; decide
  · next h =>
    have := comp_le c
    have : comp c ≠ 65535 := fun h' => h (comp_inj (by rw [h']; decide))
    exact ⟨rfl, by omega⟩

/-- With zero sent as all ones the inverse is exact. -/
theorem replacePieces_udp (hc : c ≠ 0) (pieces : List Piece) :
    udpChecksum (replacePieces
      (udpChecksum (rfc1624 c (afterAll pieces) (beforeAll pieces))) pieces) = c := by
  obtain ⟨hl, he⟩ := length_beforeAll pieces
  have hhw := comp_rfc1624_residue c (afterAll pieces) (beforeAll pieces) hl.symm (hl ▸ he)
  have hudp := comp_udpChecksum (rfc1624 c (afterAll pieces) (beforeAll pieces))
  have hres := replacePieces_residue
    (udpChecksum (rfc1624 c (afterAll pieces) (beforeAll pieces))) pieces
  have hend := comp_udpChecksum (replacePieces
    (udpChecksum (rfc1624 c (afterAll pieces) (beforeAll pieces))) pieces)
  have hlt := (comp_udpChecksum c).2
  rw [udpChecksum, if_neg hc] at hlt
  exact comp_inj (by omega)

end Mwan.Native

import Mwan.Core.Masks
import Mwan.L1Encoding.Abi

/-!
# IPv6 addresses and prefixes (`net/netip`)

The address and prefix values the NPTv6 policy is written with. `netip.Addr`
is invalid, an IPv4 address, or an IPv6 address with a zone (empty for none);
`netip.Prefix` carries what its constructors guarantee: a length in range for
its address and no zone. An address's sixteen bytes are read and written byte
by byte and as eight big-endian words, as the Go and C code does.
-/
namespace Mwan.Npt

open Mwan.Core

/-! ## Bytes and words of an address -/

def byteOf (a : Addr) (i : Nat) : UInt8 := a[i]?.getD 0

def setByte (a : Addr) (i : Nat) (x : UInt8) : Addr := a.setIfInBounds i x

/-- `binary.BigEndian.Uint16(a[2*k : 2*k+2])` -/
def wordOf (a : Addr) (k : Nat) : UInt16 := ofBe (byteOf a (2 * k)) (byteOf a (2 * k + 1))

/-- `binary.BigEndian.PutUint16(a[2*k : 2*k+2], x)` -/
def putWord (a : Addr) (k : Nat) (x : UInt16) : Addr :=
  setByte (setByte a (2 * k) (UInt8.ofNat (x.toNat / 256))) (2 * k + 1) (UInt8.ofNat (x.toNat % 256))

variable {a : Addr}

theorem addr_ext {b : Addr} (h : ∀ i, i < 16 → byteOf a i = byteOf b i) : a = b := by
  apply Vector.ext
  intro i hi
  simpa [byteOf, hi] using h i hi

theorem byteOf_setByte (a : Addr) (i j : Nat) (x : UInt8) (hi : i < 16) :
    byteOf (setByte a i x) j = if j = i then x else byteOf a j := by
  unfold byteOf setByte
  rw [Vector.getElem?_setIfInBounds]
  by_cases h : j = i
  · subst h; simp [hi]
  · simp [h, Ne.symm h]

theorem byteOf_ofFn (f : Fin 16 → UInt8) (i : Nat) (hi : i < 16) :
    byteOf (Vector.ofFn f) i = f ⟨i, hi⟩ := by
  simp [byteOf, hi]

theorem wordOf_putWord (a : Addr) (k j : Nat) (x : UInt16) (hk : k < 8) :
    wordOf (putWord a k x) j = if j = k then x else wordOf a j := by
  unfold wordOf putWord
  rw [byteOf_setByte _ _ _ _ (by omega), byteOf_setByte _ _ _ _ (by omega),
    byteOf_setByte _ _ _ _ (by omega), byteOf_setByte _ _ _ _ (by omega)]
  by_cases h : j = k
  · subst h
    simp only [if_true, show ¬ 2 * j = 2 * j + 1 by omega, if_false]
    exact ofBe_toBe x
  · simp only [h, if_false, show ¬ 2 * j = 2 * k + 1 by omega, show ¬ 2 * j = 2 * k by omega,
      show ¬ 2 * j + 1 = 2 * k + 1 by omega, show ¬ 2 * j + 1 = 2 * k by omega]

theorem ofBe_inj {a b c d : UInt8} (h : ofBe a b = ofBe c d) : a = c ∧ b = d := by
  have := toBe_ofBe a b
  rw [h, toBe_ofBe] at this
  simp only [List.cons.injEq, and_true] at this
  exact ⟨this.1.symm, this.2.symm⟩

/-! ## Sums of words -/

/-- The sum of the first `n` words. -/
def sumTo (a : Addr) : Nat → Nat
  | 0 => 0
  | n + 1 => sumTo a n + (wordOf a n).toNat

theorem sumTo_putWord (a : Addr) (k : Nat) (x : UInt16) (hk : k < 8) (n : Nat) :
    (k < n → sumTo (putWord a k x) n + (wordOf a k).toNat = sumTo a n + x.toNat) ∧
      (n ≤ k → sumTo (putWord a k x) n = sumTo a n) := by
  induction n with
  | zero => exact ⟨fun h => by omega, fun _ => rfl⟩
  | succ n ih =>
    simp only [sumTo, wordOf_putWord a k n x hk]
    constructor
    · intro h
      by_cases hn : n = k
      · subst hn; rw [if_pos rfl, ih.2 (le_refl _)]; omega
      · rw [if_neg hn]; have := ih.1 (by omega); omega
    · intro h
      rw [if_neg (by omega), ih.2 (by omega)]

theorem wordSum_take (a : Addr) (n : Nat) (hn : n ≤ 8) :
    wordSum (a.toList.take (2 * n)) = sumTo a n := by
  induction n with
  | zero => rfl
  | succ n ih =>
    have hget (i : Nat) (hi : i < 16) : a.toList[i]? = some (byteOf a i) := by
      simp [byteOf, hi]
    rw [show 2 * (n + 1) = 2 * n + 1 + 1 by omega, List.take_add_one, List.take_add_one,
      hget _ (by omega), hget _ (by omega), List.append_assoc,
      wordSum_append _ _ (by rw [List.length_take, Vector.length_toList]; omega), ih (by omega)]
    simp [wordSum_cons_cons, sumTo, wordOf]

/-- The sum of an address's bytes as words. -/
theorem wordSum_toList (a : Addr) : wordSum a.toList = sumTo a 8 := by
  rw [← wordSum_take a 8 (le_refl _), List.take_of_length_le (by simp)]

/-! ## Leading bits -/

/-- The first `bits` bits of `t`, the others of `a`. -/
def replaceLeading (bits : Nat) (a t : Addr) : Addr :=
  Vector.ofFn fun i => blend (maskByte bits i) (byteOf a i) (byteOf t i)

/-- The address with every bit behind the first `bits` cleared. -/
def maskAddr (bits : Nat) (a : Addr) : Addr :=
  Vector.ofFn fun i => byteOf a i &&& maskByte bits i

/-- The two addresses agree on their first `bits` bits. -/
def sameLeading (bits : Nat) (a p : Addr) : Bool :=
  (List.range 16).all fun i => (byteOf a i ^^^ byteOf p i) &&& maskByte bits i = 0

theorem sameLeading_iff (bits : Nat) (a p : Addr) :
    sameLeading bits a p = true ↔
      ∀ i, i < 16 → byteOf a i &&& maskByte bits i = byteOf p i &&& maskByte bits i := by
  simp [sameLeading, xor_and_eq_zero]

theorem byteOf_replaceLeading (bits : Nat) (a t : Addr) (i : Nat) (hi : i < 16) :
    byteOf (replaceLeading bits a t) i = blend (maskByte bits i) (byteOf a i) (byteOf t i) :=
  byteOf_ofFn _ i hi

/-- Words behind the replaced bits stay. -/
theorem wordOf_replaceLeading (bits : Nat) (a t : Addr) (k : Nat) (hk : k < 8)
    (hb : bits ≤ 16 * k) : wordOf (replaceLeading bits a t) k = wordOf a k := by
  unfold wordOf
  rw [byteOf_replaceLeading _ _ _ _ (by omega), byteOf_replaceLeading _ _ _ _ (by omega),
    maskByte_eq_zero (by omega), maskByte_eq_zero (by omega), blend_zero, blend_zero]

/-- No bit is set behind the first `bits`. -/
def Canonical (bits : Nat) (p : Addr) : Prop :=
  ∀ i, i < 16 → byteOf p i &&& maskByte bits i = byteOf p i

variable {p : Addr}

theorem Canonical.mono {b c : Nat} (h : Canonical b p) (hbc : b ≤ c) : Canonical c p := by
  intro i hi
  rw [← h i hi, UInt8.and_assoc, maskByte_and hbc]

theorem maskAddr_eq_iff (bits : Nat) (p : Addr) : maskAddr bits p = p ↔ Canonical bits p := by
  constructor
  · intro h i hi
    have := byteOf_ofFn (fun i : Fin 16 => byteOf p i &&& maskByte bits i) i hi
    rw [show Vector.ofFn (fun i : Fin 16 => byteOf p i &&& maskByte bits i) = p from h] at this
    exact this.symm
  · intro h
    apply addr_ext
    intro i hi
    rw [maskAddr, byteOf_ofFn _ i hi]
    exact h i hi

/-- The part of word `k` that `replaceLeading` keeps. -/
def hostWord (bits : Nat) (a : Addr) (k : Nat) : Nat :=
  (byteOf a (2 * k) &&& ~~~ maskByte bits (2 * k)).toNat * 256 +
    (byteOf a (2 * k + 1) &&& ~~~ maskByte bits (2 * k + 1)).toNat

variable {bits : Nat}

theorem toNat_wordOf_replaceLeading (a : Addr) {t : Addr} (ht : Canonical bits t) (k : Nat)
    (hk : k < 8) :
    (wordOf (replaceLeading bits a t) k).toNat = hostWord bits a k + (wordOf t k).toNat := by
  unfold wordOf hostWord
  rw [toNat_ofBe, toNat_ofBe, byteOf_replaceLeading _ _ _ _ (by omega),
    byteOf_replaceLeading _ _ _ _ (by omega), toNat_blend, toNat_blend, ht _ (by omega),
    ht _ (by omega)]
  omega

theorem replaceLeading_of_same (h : sameLeading bits a p = true) : replaceLeading bits a p = a := by
  apply addr_ext
  intro i hi
  rw [byteOf_replaceLeading _ _ _ _ hi]
  exact blend_of_and_eq ((sameLeading_iff ..).mp h i hi)

/-- Replacing leading bits moves every sum of words by the difference of the
prefixes. -/
theorem sumTo_replaceLeading {t : Addr} (ha : sameLeading bits a p = true) (hp : Canonical bits p)
    (ht : Canonical bits t) (n : Nat) (hn : n ≤ 8) :
    sumTo (replaceLeading bits a t) n + sumTo p n = sumTo a n + sumTo t n := by
  induction n with
  | zero => rfl
  | succ n ih =>
    have h1 := toNat_wordOf_replaceLeading a ht n (by omega)
    have h2 := toNat_wordOf_replaceLeading a hp n (by omega)
    rw [replaceLeading_of_same ha] at h2
    have := ih (by omega)
    simp only [sumTo]; omega

/-- A canonical prefix of at most 64 bits has nothing in its last four words. -/
theorem Canonical.wordOf_eq_zero (hp : Canonical bits p) (hb : bits ≤ 64) (k : Nat) (h4 : 4 ≤ k)
    (hk : k < 8) : wordOf p k = 0 := by
  unfold wordOf
  rw [← hp (2 * k) (by omega), ← hp (2 * k + 1) (by omega), maskByte_eq_zero (by omega),
    maskByte_eq_zero (by omega), UInt8.and_zero, UInt8.and_zero]
  rfl

theorem Canonical.sumTo_eight (hp : Canonical bits p) (hb : bits ≤ 64) : sumTo p 8 = sumTo p 4 := by
  have h4 := hp.wordOf_eq_zero hb 4 (by omega) (by omega)
  have h5 := hp.wordOf_eq_zero hb 5 (by omega) (by omega)
  have h6 := hp.wordOf_eq_zero hb 6 (by omega) (by omega)
  have h7 := hp.wordOf_eq_zero hb 7 (by omega) (by omega)
  simp [sumTo, h4, h5, h6, h7]

/-- Bit `n` of an address, the most significant one first. -/
def bitOf (a : Addr) (n : Nat) : Bool := (byteOf a (n / 8)).toBitVec.getLsbD (7 - n % 8)

theorem bitOf_replaceLeading (bits : Nat) (a t : Addr) (n : Nat) (hn : n < 128) :
    bitOf (replaceLeading bits a t) n = if n < bits then bitOf t n else bitOf a n := by
  rw [bitOf, byteOf_replaceLeading _ _ _ _ (by omega), getLsbD_blend _ _ _ (by omega),
    getLsbD_maskByte _ _ (by omega), show 8 * (n / 8) + (7 - (7 - n % 8)) = n by omega]
  simp only [decide_eq_true_eq, bitOf]

/-! ## `netip.Addr` and `netip.Prefix` -/

/-- `netip.Addr` -/
inductive NetipAddr
  | invalid
  | v4 (bytes : Vector UInt8 4)
  | v6 (bytes : Addr) (zone : String)
  deriving DecidableEq, Repr

namespace NetipAddr

/-- `Addr.Is6`: an IPv6 address, an IPv4-mapped one included. -/
def is6 : NetipAddr → Bool
  | v6 _ _ => true
  | _ => false

/-- `Addr.Is4In6` -/
def is4In6 : NetipAddr → Bool
  | v6 a _ => (List.range 10).all (fun i => byteOf a i = 0) && byteOf a 10 = 0xff && byteOf a 11 = 0xff
  | _ => false

/-- `Addr.As16` -/
def as16 : NetipAddr → Addr
  | invalid => Vector.replicate 16 0
  | v4 b => Vector.ofFn fun i =>
      if i.val < 10 then 0 else if i.val < 12 then 0xff else b[i.val - 12]?.getD 0
  | v6 a _ => a

/-- `Addr.IsGlobalUnicast` of an IPv6 address that is not IPv4-mapped: not
`::`, `::1`, `ff00::/8` or `fe80::/10`. -/
def isGlobalUnicast6 (a : Addr) : Bool :=
  let zeroTo := fun n => (List.range n).all fun i => byteOf a i = 0
  !(zeroTo 16) && !(zeroTo 15 && byteOf a 15 = 1) && !(byteOf a 0 = 0xff) &&
    !(byteOf a 0 = 0xfe && byteOf a 1 &&& 0xc0 = 0x80)

/-- `Addr.BitLen` -/
def bitLen : NetipAddr → Nat
  | invalid => 0
  | v4 _ => 32
  | v6 _ _ => 128

/-- `Addr.Zone` -/
def zone : NetipAddr → String
  | v6 _ z => z
  | _ => ""

end NetipAddr

/-- `netip.Prefix`; `bits` is `none` where `Bits` returns -1. Its constructors
keep the length in range and drop the zone. -/
structure Prefix where
  addr : NetipAddr
  bits : Option Nat
  inRange : ∀ n ∈ bits, addr ≠ .invalid ∧ n ≤ addr.bitLen
  noZone : addr.zone = ""
  deriving DecidableEq

namespace Prefix

instance : NeZero 129 := ⟨by decide⟩

/-- The IPv6 prefix of an address and a length. -/
def ofAddr (a : Addr) (bits : Fin 129) : Prefix where
  addr := .v6 a ""
  bits := some bits
  inRange := fun n hn => by
    cases hn
    exact ⟨by simp, Nat.lt_succ_iff.mp bits.isLt⟩
  noZone := rfl

/-- `Prefix.Bits` of a valid prefix. -/
def length (p : Prefix) : Nat := p.bits.getD 0

/-- `p == p.Masked()` for a valid IPv6 prefix: masking keeps the length and
the empty zone. -/
def isMasked6 (p : Prefix) : Bool := maskAddr p.length p.addr.as16 = p.addr.as16

end Prefix

/-- The address with every bit behind the first `bits` cleared, without a zone. -/
def NetipAddr.mask (bits : Nat) : NetipAddr → NetipAddr
  | .invalid => .invalid
  | .v4 b => .v4 (Vector.ofFn fun i => b[i.val]?.getD 0 &&& maskByte bits i)
  | .v6 a _ => .v6 (maskAddr bits a) ""

theorem NetipAddr.mask_ne_invalid {a : NetipAddr} (h : a ≠ .invalid) : a.mask bits ≠ .invalid := by
  cases a with
  | invalid => exact absurd rfl h
  | v4 | v6 => exact NetipAddr.noConfusion

/-- `Prefix.Masked` -/
def Prefix.masked (p : Prefix) : Prefix where
  addr := p.addr.mask p.length
  bits := p.bits
  inRange := fun n hn =>
    ⟨NetipAddr.mask_ne_invalid (p.inRange n hn).1,
      (p.inRange n hn).2.trans_eq (by cases p.addr <;> rfl)⟩
  noZone := by cases p.addr <;> rfl

theorem maskAddr_maskAddr (bits : Nat) (a : Addr) :
    maskAddr bits (maskAddr bits a) = maskAddr bits a := by
  rw [maskAddr_eq_iff]
  intro i hi
  rw [maskAddr, byteOf_ofFn _ i hi, UInt8.and_assoc, UInt8.and_self]

@[simp] theorem NetipAddr.mask_mask (bits : Nat) (a : NetipAddr) :
    (a.mask bits).mask bits = a.mask bits := by
  cases a with
  | invalid => rfl
  | v4 b =>
    simp only [mask, NetipAddr.v4.injEq]
    apply Vector.ext
    intro i hi
    simp [UInt8.and_assoc]
  | v6 a => exact congrArg (v6 · "") (maskAddr_maskAddr bits a)

theorem Prefix.masked_masked (p : Prefix) : p.masked.masked = p.masked := by
  simp only [Prefix.masked, Prefix.mk.injEq, and_true]
  exact NetipAddr.mask_mask p.length p.addr

/-- `netip.PrefixFrom(prefix.Addr(), bits).Contains(ip)` for `bits` in range:
no zone, the same address length, and equal leading bits. -/
def containsFrom (addr : NetipAddr) (bits : Nat) (ip : NetipAddr) : Bool :=
  match addr, ip with
  | .v6 p _, .v6 a zone => zone = "" && sameLeading bits a p
  | .v4 p, .v4 a => (List.range 4).all fun i =>
      (a[i]?.getD 0 ^^^ p[i]?.getD 0) &&& maskByte bits i = 0
  | _, _ => false

/-- A valid prefix contains its own address. -/
theorem Prefix.containsFrom_self {p : Prefix} (h : p.bits.isSome) :
    containsFrom p.addr p.length p.addr = true := by
  obtain ⟨n, hn⟩ := Option.isSome_iff_exists.mp h
  have hvalid := (p.inRange n hn).1
  have hzone := p.noZone
  cases ha : p.addr with
  | invalid => exact absurd ha hvalid
  | v4 b => simp [containsFrom]
  | v6 =>
    rw [ha] at hzone
    simp only [containsFrom, Bool.and_eq_true, decide_eq_true_eq]
    exact ⟨hzone, (sameLeading_iff ..).mpr fun _ _ => rfl⟩

end Mwan.Npt

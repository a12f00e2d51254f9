import Mwan.Core.Exec
import Mwan.L3Protocol.Npt.Address

/-!
# NPTv6 address mappings (`gateway/internal/nptpolicy/policy.go`)

`translateAddress` maps an IPv6 address between the internal and the external
prefix of a pair (RFC 6296): it replaces the leading bits and corrects one
word so that the sum of the address's words stays the same modulo 65535.

`translateBytes` says what the mapping is, on the sixteen bytes and without
the loops.

Results:
* `validatePair_eq_ok`: what an accepted pair is.
* `translateAddress_eq_ok`: the code computes the mapping.
-/
namespace Mwan.Npt

open Mwan.Core Mwan.Core.Exec List

/-- mirrors policy.go:11 -/
def maxExceptions : Nat := 16

/-- mirrors policy.go:14-20 -/
structure PrefixPair where
  id : UInt16
  internal : Prefix
  external : Prefix
  sourceExceptions : List NetipAddr
  destinationExceptions : List NetipAddr

/-- The errors of the package, with the values their texts show. -/
inductive PolicyError
  /-- "NPTv6 pair %s / %s requires canonical IPv6 unicast prefixes at most /64" -/
  | notCanonical (internal external : Prefix)
  /-- "NPTv6 pair requires a nonzero identity" -/
  | zeroIdentity
  /-- "NPTv6 pair %d exceeds %d exceptions per direction" -/
  | tooManyExceptions (id : UInt16) (limit : Nat)
  /-- "NPTv6 pair %d exception %s is not IPv6" -/
  | exceptionNotIpv6 (id : UInt16) (address : NetipAddr)
  /-- "address %s is outside the translatable part of %s" -/
  | outside (address : NetipAddr) (source : Prefix)
  /-- "address %s uses the RFC 6296 excluded zero identifier" -/
  | zeroIdentifier (address : NetipAddr)
  /-- "address %s has no RFC 6296 correction word" -/
  | noCorrectionWord (address : NetipAddr)
  deriving DecidableEq

/-- mirrors policy.go:25 (one prefix) -/
def prefixAccepted (p : Prefix) : Bool :=
  p.bits.isSome && p.addr.is6 && !p.addr.is4In6 && decide (p.length ≤ 64) &&
    NetipAddr.isGlobalUnicast6 p.addr.as16 && p.isMasked6

/-- mirrors policy.go:23-43 -/
def validatePair (pair : PrefixPair) : Except PolicyError Unit := do
  [pair.internal, pair.external].forM fun p =>
    if !prefixAccepted p then throw (.notCanonical pair.internal pair.external) else pure ()
  if pair.id = 0 then throw .zeroIdentity
  if pair.sourceExceptions.length > maxExceptions ∨
      pair.destinationExceptions.length > maxExceptions then
    throw (.tooManyExceptions pair.id maxExceptions)
  [pair.sourceExceptions, pair.destinationExceptions].forM fun addresses =>
    addresses.forM fun address =>
      if !address.is6 || address.is4In6 then throw (.exceptionNotIpv6 pair.id address) else pure ()

/-- mirrors policy.go:45-50 (`uint32`, which no
caller overflows) -/
def fold (value : Nat) : UInt16 := UInt16.ofNat (fold16 value)

/-- mirrors policy.go:53-61 -/
def adjustment (source target : Prefix) : UInt16 :=
  fold ((fold (sumTo source.addr.as16 4)).toNat + (~~~ fold (sumTo target.addr.as16 4)).toNat)

/-- `from` of `TranslateAddress`. -/
def source (pair : PrefixPair) (outbound : Bool) : Prefix :=
  if outbound then pair.internal else pair.external

/-- `to` of `TranslateAddress`. -/
def target (pair : PrefixPair) (outbound : Bool) : Prefix :=
  if outbound then pair.external else pair.internal

/-- The search loop for the correction word; `rounds` bounds it and four are
enough.
mirrors policy.go:87-89 -/
def searchWord (result : Addr) : Nat → Nat → Nat
  | 0, word => word
  | rounds + 1, word =>
    if word < 8 ∧ wordOf result word = 0xffff then searchWord result rounds (word + 1) else word

/-- One round of the bit loop.
mirrors policy.go:95-96 -/
def replaceBit (replacement result : Addr) (bit : Nat) : Addr :=
  let mask := bitMask (bit % 8)
  setByte result (bit / 8)
    ((byteOf result (bit / 8) &&& ~~~ mask) ||| (byteOf replacement (bit / 8) &&& mask))

/-- mirrors policy.go:64-104 -/
def translateAddress (pair : PrefixPair) (address : NetipAddr) (outbound : Bool) :
    Except PolicyError NetipAddr := do
  validatePair pair
  let bits := max (source pair outbound).length (target pair outbound).length
  if !containsFrom (source pair outbound).addr bits address then
    throw (.outside address (source pair outbound))
  let result := address.as16
  let replacement := (target pair outbound).addr.as16
  let word ←
    if bits > 48 then
      if (List.range 8).all fun i => byteOf result (8 + i) = 0 then throw (.zeroIdentifier address)
      else pure (searchWord result 4 4)
    else pure 3
  if word = 8 ∨ wordOf result word = 0xffff then throw (.noCorrectionWord address)
  let result := (List.range bits).foldl (replaceBit replacement) result
  let value := fold ((wordOf result word).toNat +
    (adjustment (source pair outbound) (target pair outbound)).toNat)
  let value := if value = 0xffff then 0 else value
  return .v6 (putWord result word value) ""

/-! ## The mapping itself -/

/-- The word that carries the correction: word 3 for prefixes up to /48, else
the first word of a nonzero identifier that is not `0xffff`. -/
def correctionWord (bits : Nat) (a : Addr) : Option Nat :=
  if bits > 48 then
    if [4, 5, 6, 7].all fun k => wordOf a k = 0 then none
    else [4, 5, 6, 7].find? fun k => wordOf a k ≠ 0xffff
  else if wordOf a 3 = 0xffff then none else some 3

/-- One's complement addition, with zero as `0x0000`. -/
def corrected (word adjust : UInt16) : UInt16 :=
  let value := fold (word.toNat + adjust.toNat)
  if value = 0xffff then 0 else value

/-- The mapping from addresses under `p` to addresses under `t`. -/
def translateBytes (bits : Nat) (p t : Addr) (adjust : UInt16) (a : Addr) : Option Addr :=
  if sameLeading bits a p then
    (correctionWord bits a).map fun k =>
      let replaced := replaceLeading bits a t
      putWord replaced k (corrected (wordOf replaced k) adjust)
  else none

theorem translateBytes_eq_some (bits : Nat) (p t : Addr) (adjust : UInt16) (a b : Addr) :
    translateBytes bits p t adjust a = some b ↔ sameLeading bits a p = true ∧
      ∃ k, correctionWord bits a = some k ∧
        b = putWord (replaceLeading bits a t) k
          (corrected (wordOf (replaceLeading bits a t) k) adjust) := by
  unfold translateBytes
  split
  · next h => simp [h, eq_comm]
  · next h => simp [h]

/-! ## What an accepted pair is -/

theorem prefixAccepted_spec {p : Prefix} (h : prefixAccepted p = true) :
    p.addr = .v6 p.addr.as16 "" ∧ p.length ≤ 64 ∧ Canonical p.length p.addr.as16 := by
  simp only [prefixAccepted, Bool.and_eq_true, decide_eq_true_eq] at h
  obtain ⟨⟨⟨⟨⟨-, h6⟩, -⟩, hlen⟩, -⟩, hm⟩ := h
  refine ⟨?_, hlen, (maskAddr_eq_iff ..).mp (by simpa [Prefix.isMasked6] using hm)⟩
  have hz := p.noZone
  cases ha : p.addr with
  | invalid | v4 => rw [ha] at h6; cases h6
  | v6 a zone => rw [ha] at hz; rw [show zone = "" from hz]; rfl

theorem validatePair_eq_ok (pair : PrefixPair) :
    validatePair pair = .ok () ↔
      (prefixAccepted pair.internal = true ∧ prefixAccepted pair.external = true) ∧ pair.id ≠ 0 ∧
      (pair.sourceExceptions.length ≤ 16 ∧ pair.destinationExceptions.length ≤ 16) ∧
      (∀ a ∈ pair.sourceExceptions, a.is6 = true ∧ a.is4In6 = false) ∧
      ∀ a ∈ pair.destinationExceptions, a.is6 = true ∧ a.is4In6 = false := by
  simp only [validatePair, except_bind_eq_ok, except_ite_eq_ok, except_throw_eq_ok,
    except_pure_eq_ok, except_forM_eq_ok, false_and, and_false, exists_false, false_or, exists_const,
    and_true, forall_mem_cons, not_mem_nil, false_imp_iff, imp_true_iff]
  simp [maxExceptions]

theorem source_accepted {pair : PrefixPair} (h : validatePair pair = .ok ()) (outbound : Bool) :
    prefixAccepted (source pair outbound) = true := by
  obtain ⟨⟨hi, he⟩, -⟩ := (validatePair_eq_ok pair).mp h
  cases outbound
  · exact he
  · exact hi

theorem target_accepted {pair : PrefixPair} (h : validatePair pair = .ok ()) (outbound : Bool) :
    prefixAccepted (target pair outbound) = true := by
  obtain ⟨⟨hi, he⟩, -⟩ := (validatePair_eq_ok pair).mp h
  cases outbound
  · exact hi
  · exact he

/-! ## The code computes the mapping -/

theorem foldl_replaceBit (t a : Addr) (bits : Nat) (hb : bits ≤ 128) :
    (range bits).foldl (replaceBit t) a = replaceLeading bits a t := by
  induction bits with
  | zero =>
    apply addr_ext
    intro i hi
    rw [byteOf_replaceLeading _ _ _ _ hi, maskByte_eq_zero (by omega), blend_zero]
    rfl
  | succ bits ih =>
    rw [range_succ, foldl_append, ih (by omega)]
    apply addr_ext
    intro i hi
    simp only [foldl_cons, foldl_nil, replaceBit]
    rw [byteOf_setByte _ _ _ _ (by omega), byteOf_replaceLeading _ _ _ _ (by omega),
      byteOf_replaceLeading _ _ _ _ hi, byteOf_replaceLeading _ _ _ _ hi, maskByte_succ]
    by_cases h : i = bits / 8
    · subst h
      rw [if_pos rfl, if_pos rfl, ← blend_blend]
      rfl
    · rw [if_neg h, if_neg h]

theorem wordOf_eq_zero_iff (a : Addr) (k : Nat) :
    wordOf a k = 0 ↔ byteOf a (2 * k) = 0 ∧ byteOf a (2 * k + 1) = 0 := by
  constructor
  · exact fun h => ofBe_inj (h.trans (by decide : (0 : UInt16) = ofBe 0 0))
  · rintro ⟨h1, h2⟩
    rw [wordOf, h1, h2]; decide

theorem zeroIdentifier_iff (a : Addr) :
    ((range 8).all fun i => byteOf a (8 + i) = 0) = [4, 5, 6, 7].all fun k => wordOf a k = 0 := by
  rw [Bool.eq_iff_iff]
  simp [range_succ, wordOf_eq_zero_iff]
  tauto

theorem searchWord_eq (a : Addr) :
    ([4, 5, 6, 7].find? fun k => wordOf a k ≠ 0xffff) =
      if searchWord a 4 4 = 8 ∨ wordOf a (searchWord a 4 4) = 0xffff then none
      else some (searchWord a 4 4) := by
  by_cases h4 : wordOf a 4 = 0xffff
  · by_cases h5 : wordOf a 5 = 0xffff
    · by_cases h6 : wordOf a 6 = 0xffff
      · by_cases h7 : wordOf a 7 = 0xffff <;> simp [searchWord, h4, h5, h6, h7]
      · simp [searchWord, h4, h5, h6]
    · simp [searchWord, h4, h5]
  · simp [searchWord, h4]

theorem correctionWord_eq_some (bits : Nat) (a : Addr) (k : Nat) :
    correctionWord bits a = some k ↔
      (bits > 48 ∧ ¬ ((range 8).all fun i => byteOf a (8 + i) = 0) = true ∧
        k = searchWord a 4 4 ∧ ¬ (k = 8 ∨ wordOf a k = 0xffff)) ∨
      (¬ bits > 48 ∧ k = 3 ∧ ¬ (k = 8 ∨ wordOf a k = 0xffff)) := by
  unfold correctionWord
  rw [searchWord_eq, ← zeroIdentifier_iff]
  by_cases hb : bits > 48
  · simp only [hb, if_true, not_true, true_and, false_and, or_false]
    split
    · simp [*]
    · split
      · next h => simp only [reduceCtorEq, false_iff]; rintro ⟨-, rfl, hk⟩; exact hk h
      · next h =>
        simp only [Option.some.injEq]
        exact ⟨fun e => ⟨by assumption, e.symm, e ▸ h⟩, fun e => e.2.1.symm⟩
  · simp only [hb, if_false, not_false_eq_true, true_and, false_and, false_or]
    split
    · next h => simp only [reduceCtorEq, false_iff]; rintro ⟨rfl, hk⟩; exact hk (.inr h)
    · next h =>
      simp only [Option.some.injEq]
      exact ⟨fun e => ⟨e.symm, by subst e; simp [h]⟩, fun e => e.1.symm⟩

theorem containsFrom_v6 {p : NetipAddr} {a : Addr} (hp : p = .v6 a "") (bits : Nat) (ip : NetipAddr) :
    containsFrom p bits ip = true ↔ ∃ b, ip = .v6 b "" ∧ sameLeading bits b a = true := by
  subst hp
  cases ip with
  | invalid | v4 | v6 => simp [containsFrom]

/-- The mapping of a pair and a direction. -/
def pairTranslate (pair : PrefixPair) (outbound : Bool) (a : Addr) : Option Addr :=
  translateBytes (max pair.internal.length pair.external.length) (source pair outbound).addr.as16
    (target pair outbound).addr.as16 (adjustment (source pair outbound) (target pair outbound)) a

theorem max_source_target (pair : PrefixPair) (outbound : Bool) :
    max (source pair outbound).length (target pair outbound).length =
      max pair.internal.length pair.external.length := by
  cases outbound
  · exact max_comm _ _
  · rfl

/-- `TranslateAddress` succeeds exactly on the zone-free IPv6 addresses the
mapping of an accepted pair is defined on, with its value. -/
theorem translateAddress_eq_ok {pair : PrefixPair} (hv : validatePair pair = .ok ())
    (address r : NetipAddr) (outbound : Bool) :
    translateAddress pair address outbound = .ok r ↔
      ∃ a b, address = .v6 a "" ∧ r = .v6 b "" ∧ pairTranslate pair outbound a = some b := by
  obtain ⟨haddr, hlen, -⟩ := prefixAccepted_spec (source_accepted hv outbound)
  obtain ⟨-, hlen', -⟩ := prefixAccepted_spec (target_accepted hv outbound)
  have hb : max pair.internal.length pair.external.length ≤ 64 := by
    rw [← max_source_target pair outbound]; omega
  simp only [translateAddress, hv, max_source_target, except_bind_eq_ok, except_ite_eq_ok,
    except_throw_eq_ok, except_pure_eq_ok, false_and, and_false, exists_false, false_or,
    foldl_replaceBit _ _ _ (show max pair.internal.length pair.external.length ≤ 128 by omega)]
  simp only [pairTranslate, translateBytes_eq_some]
  constructor
  · rintro ⟨_, -, hc, hw⟩
    obtain ⟨a, rfl, hs⟩ := (containsFrom_v6 haddr _ _).mp (by simpa using hc)
    rcases hw with ⟨h48, hz, k, hk, hne, hr⟩ | ⟨h48, k, hk, hne, hr⟩
    · exact ⟨a, _, rfl, hr, hs, k, (correctionWord_eq_some ..).mpr (.inl ⟨h48, hz, hk, hne⟩), rfl⟩
    · exact ⟨a, _, rfl, hr, hs, k, (correctionWord_eq_some ..).mpr (.inr ⟨h48, hk, hne⟩), rfl⟩
  · rintro ⟨a, b, rfl, rfl, hs, k, hk, rfl⟩
    refine ⟨(), trivial, by simpa using (containsFrom_v6 haddr _ _).mpr ⟨a, rfl, hs⟩, ?_⟩
    rcases (correctionWord_eq_some ..).mp hk with ⟨h48, hz, hk, hne⟩ | ⟨h48, hk, hne⟩
    · exact .inl ⟨h48, hz, k, hk, hne, rfl⟩
    · exact .inr ⟨h48, k, hk, hne, rfl⟩

/-- `fd00:0:0:1::/64` and `2001:db8:0:1::/64` -/
def sitePair : PrefixPair where
  id := 1
  internal := .ofAddr #v[0xfd, 0, 0, 0, 0, 0, 0, 1, 0, 0, 0, 0, 0, 0, 0, 0] 64
  external := .ofAddr #v[0x20, 0x01, 0x0d, 0xb8, 0, 0, 0, 1, 0, 0, 0, 0, 0, 0, 0, 0] 64
  sourceExceptions := []
  destinationExceptions := []

theorem validatePair_sitePair : validatePair sitePair = .ok () := by
  rw [validatePair_eq_ok]
  decide +kernel

end Mwan.Npt

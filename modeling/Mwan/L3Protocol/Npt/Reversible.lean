import Mwan.L2Machine.Direction
import Mwan.L3Protocol.Npt.Translate

/-!
# NPTv6 mappings of accepted pairs (`gateway/internal/nptpolicy/policy.go`)

What `TranslateAddress` promises for the pairs `ValidatePair` accepts.

Results:
* `translateAddress_reversible_iff`: an address comes back from its image
  exactly when its identifier is not the one that is corrected to zero.
* `translateAddress_neutral`: an image keeps the sum of its address, so that
  the native owner's neutrality check passes, lies in the target prefix,
  differs only in the prefix and one word, and belongs to one address.
-/
namespace Mwan.Npt

open Mwan.Core Mwan.Core.Exec

/-! ## Reversibility -/

/-- The addresses that do not come back: translated with an identifier whose
first word the adjustment takes to zero and whose other words are zero. -/
def losesIdentifier (pair : PrefixPair) (outbound : Bool) (address : NetipAddr) : Bool :=
  let bits := max pair.internal.length pair.external.length
  let a := address.as16
  let adjust := adjustment (source pair outbound) (target pair outbound)
  address = .v6 a "" && decide (48 < bits) && sameLeading bits a (source pair outbound).addr.as16 &&
    wordOf a 4 ≠ 0 && wordOf a 4 ≠ 0xffff && ((wordOf a 4).toNat + adjust.toNat) % 65535 = 0 &&
    wordOf a 5 = 0 && wordOf a 6 = 0 && wordOf a 7 = 0

/-- An address is one of them exactly when it has an image with the excluded
zero identifier. -/
theorem losesIdentifier_iff {pair : PrefixPair} (hv : validatePair pair = .ok ())
    (outbound : Bool) (a : Addr) :
    losesIdentifier pair outbound (.v6 a "") = true ↔
      ∃ b, pairTranslate pair outbound a = some b ∧
        48 < max pair.internal.length pair.external.length ∧ zeroIdentifier b := by
  have hm := mapping_of_validated hv outbound
  have has : NetipAddr.as16 (.v6 a "") = a := rfl
  simp only [losesIdentifier, Bool.and_eq_true, decide_eq_true_eq, and_assoc]
  simp only [has, true_and]
  constructor
  · rintro ⟨h48, hs, h0, hf, hadd, h5, h6, h7⟩
    have hk : correctionWord (max pair.internal.length pair.external.length) a = some 4 := by
      refine (correctionWord_iff ..).mpr ⟨by omega, hf, .inr ⟨h48, by omega, ?_, ?_⟩⟩
      · exact fun hz => h0 (hz 4 (by omega) (by omega))
      · intro j h4 hj; omega
    have ht := (pairTranslate_iff ..).mpr ⟨4, hs, hk, rfl⟩
    refine ⟨_, ht, h48, ?_⟩
    obtain ⟨k, htr⟩ := (pairTranslate_iff ..).mp ht
    exact (htr.zeroIdentifier_image hm h48).mpr ⟨hf, hadd, h5, h6, h7⟩
  · intro ⟨b, ht, h48, hz⟩
    obtain ⟨k, htr⟩ := (pairTranslate_iff ..).mp ht
    obtain ⟨hf, hadd, h5, h6, h7⟩ := (htr.zeroIdentifier_image hm h48).mp hz
    refine ⟨h48, htr.leading, ?_, hf, hadd, h5, h6, h7⟩
    intro h0
    -- an address with the zero identifier has no correction word
    obtain ⟨-, -, h3 | ⟨-, -, hnz, -⟩⟩ := (correctionWord_iff ..).mp htr.word
    · omega
    · apply hnz
      intro j h4 h8
      interval_cases j
      exacts [h0, h5, h6, h7]

/-- Translating an address back gives it again, for all but the addresses that
lose their identifier. -/
theorem translateAddress_reversible_iff {pair : PrefixPair} (hv : validatePair pair = .ok ())
    (address : NetipAddr) (outbound : Bool) :
    (∀ r, translateAddress pair address outbound = .ok r →
      translateAddress pair r (!outbound) = .ok address) ↔
      losesIdentifier pair outbound address = false := by
  have hm := mapping_of_validated hv outbound
  have hm' := mapping_of_validated hv (!outbound)
  rw [source_not, target_not] at hm'
  rw [← Bool.not_eq_true]
  constructor
  · intro hrev hl
    obtain ⟨a, rfl⟩ : ∃ a, address = .v6 a "" := by
      simp only [losesIdentifier, Bool.and_eq_true, decide_eq_true_eq] at hl
      exact ⟨_, hl.1.1.1.1.1.1.1.1⟩
    obtain ⟨b, hb, h48, hz⟩ := (losesIdentifier_iff hv outbound a).mp hl
    have hback := hrev (.v6 b "") ((translateAddress_eq_ok hv ..).mpr ⟨a, b, rfl, rfl, hb⟩)
    obtain ⟨b', a', hb', ha', ht⟩ := (translateAddress_eq_ok hv ..).mp hback
    cases hb'
    cases ha'
    obtain ⟨k, htr⟩ := (pairTranslate_iff ..).mp hb
    rw [pairTranslate, source_not, target_not, htr.reverse hm hm'] at ht
    exact ht ⟨h48, hz⟩
  · intro hl r hr
    obtain ⟨a, b, rfl, rfl, hb⟩ := (translateAddress_eq_ok hv ..).mp hr
    obtain ⟨k, htr⟩ := (pairTranslate_iff ..).mp hb
    refine (translateAddress_eq_ok hv ..).mpr ⟨b, a, rfl, rfl, ?_⟩
    rw [pairTranslate, source_not, target_not, htr.reverse hm hm']
    rintro ⟨h48, hz⟩
    exact hl ((losesIdentifier_iff hv outbound a).mpr ⟨b, hb, h48, hz⟩)

/-! ### An address that does not come back -/

/-- `fd00:0:0:1:30b8::`, whose correction word the adjustment takes to zero. -/
def lostHost : Addr := #v[0xfd, 0, 0, 0, 0, 0, 0, 1, 0x30, 0xb8, 0, 0, 0, 0, 0, 0]

/-- Its packets leave as `2001:db8:0:1::`, and every reply is rejected. -/
theorem translateAddress_lostHost :
    validatePair sitePair = .ok () ∧
      translateAddress sitePair (.v6 lostHost "") true = .ok sitePair.external.addr ∧
      translateAddress sitePair sitePair.external.addr false =
        .error (.zeroIdentifier sitePair.external.addr) :=
  ⟨validatePair_sitePair, by decide +kernel, by decide +kernel⟩

/-- `2001:db8:0:1:cf47::2`, the image of `fd00:0:0:1::2`, comes back. -/
theorem translateAddress_reversible_iff_sitePair :
    translateAddress sitePair
        (.v6 #v[0x20, 0x01, 0x0d, 0xb8, 0, 0, 0, 1, 0xcf, 0x47, 0, 0, 0, 0, 0, 2] "") false =
      .ok (.v6 #v[0xfd, 0, 0, 0, 0, 0, 0, 1, 0, 0, 0, 0, 0, 0, 0, 2] "") :=
  (translateAddress_reversible_iff validatePair_sitePair _ true).mpr (by decide +kernel) _
    (by decide +kernel)

/-! ## Neutrality -/

/-- The owner's sum of an address is its residue modulo 65535. -/
theorem toNat_ipv6Sum (a : Addr) : (Native.ipv6Sum a).toNat = sumTo a 8 % 65535 := by
  have hle := fold16_le (sumTo a 8)
  have hmod := fold16_mod (sumTo a 8)
  simp only [Native.ipv6Sum, wordSum_toList]
  split
  · next h => rw [h] at hmod; exact hmod
  · next h => rw [UInt16.toNat_ofNat']; omega

/-- `b` is `a` itself or its image under an accepted pair. -/
def Mapped (a b : Addr) : Prop :=
  a = b ∨ ∃ pair outbound, validatePair pair = .ok () ∧
    translateAddress pair (.v6 a "") outbound = .ok (.v6 b "")

theorem Mapped.ipv6Sum_eq {a b : Addr} (h : Mapped a b) : Native.ipv6Sum a = Native.ipv6Sum b := by
  rcases h with rfl | ⟨pair, outbound, hv, ht⟩
  · rfl
  · obtain ⟨a', b', ha, hb, hab⟩ := (translateAddress_eq_ok hv ..).mp ht
    cases ha
    cases hb
    obtain ⟨k, htr⟩ := (pairTranslate_iff ..).mp hab
    apply UInt16.toNat_inj.mp
    rw [toNat_ipv6Sum, toNat_ipv6Sum, htr.sum (mapping_of_validated hv outbound)]

/-- A direction with unchanged ports whose addresses are mapped is neutral. -/
theorem notNeutral_of_mapped {direction : Native.Direction}
    (hsport : direction.original.sourcePort = direction.translated.sourcePort)
    (hdport : direction.original.destinationPort = direction.translated.destinationPort)
    (hs : Mapped direction.original.source direction.translated.source)
    (hd : Mapped direction.original.destination direction.translated.destination) :
    Native.notNeutral direction = false := by
  simp [Native.notNeutral, hsport, hdport, hs.ipv6Sum_eq, hd.ipv6Sum_eq]

/-- Behind the prefixes only the correction word changes. -/
theorem Translated.bitOf_image {bits : Nat} {p t : Addr} {adjust : UInt16} {a b : Addr} {k : Nat}
    (hm : Mapping bits p t adjust) (h : Translated bits p t adjust a b k) (n : Nat) (hn : n < 128)
    (hb : bits ≤ n) (hk : n / 16 ≠ k) : bitOf b n = bitOf a n := by
  rw [bitOf, h.byteOf_image hm _ (by omega)]
  change bitOf (replaceLeading bits a t) n = _
  rw [bitOf_replaceLeading _ _ _ _ hn, if_neg (by omega)]

theorem sameLeading_mono {b c : Nat} (hbc : b ≤ c) {a p : Addr} (h : sameLeading c a p = true) :
    sameLeading b a p = true := by
  rw [sameLeading_iff] at h ⊢
  intro i hi
  rw [← maskByte_and hbc i, UInt8.and_comm (maskByte b i), ← UInt8.and_assoc, ← UInt8.and_assoc,
    h i hi]

/-- Translation is neutral and injective: an image has the sum of its
address, so a direction built from images is never refused for
non-neutrality; it lies in the target prefix; it differs from the address
only in the leading bits and in one word; and it is the image of no other
address. -/
theorem translateAddress_neutral {pair : PrefixPair} (hv : validatePair pair = .ok ())
    (outbound : Bool) {address r : NetipAddr}
    (hr : translateAddress pair address outbound = .ok r) :
    sumTo r.as16 8 % 65535 = sumTo address.as16 8 % 65535 ∧
    Native.ipv6Sum r.as16 = Native.ipv6Sum address.as16 ∧
    (∀ (config : Native.Config) (direction : Native.Direction) (index : Nat),
      direction.original.sourcePort = direction.translated.sourcePort →
      direction.original.destinationPort = direction.translated.destinationPort →
      (direction.original.source = address.as16 ∧ direction.translated.source = r.as16 ∧
          Mapped direction.original.destination direction.translated.destination ∨
        direction.original.destination = address.as16 ∧
          direction.translated.destination = r.as16 ∧
          Mapped direction.original.source direction.translated.source) →
      Native.directionValid config direction index ≠ .error
        (Native.fault Native.ENOTSUP .validate .origin direction.originId (UInt32.ofNat index)
          Native.notNeutralMessage)) ∧
    containsFrom (target pair outbound).addr (target pair outbound).length r = true ∧
    (∃ k, k < 8 ∧ ∀ n, n < 128 → max pair.internal.length pair.external.length ≤ n →
      n / 16 ≠ k → bitOf r.as16 n = bitOf address.as16 n) ∧
    ∀ address', translateAddress pair address' outbound = .ok r → address' = address := by
  have hm := mapping_of_validated hv outbound
  obtain ⟨a, b, rfl, rfl, hab⟩ := (translateAddress_eq_ok hv ..).mp hr
  obtain ⟨k, htr⟩ := (pairTranslate_iff ..).mp hab
  have hmap : Mapped a b := .inr ⟨pair, outbound, hv, hr⟩
  refine ⟨htr.sum hm, hmap.ipv6Sum_eq.symm, ?_, ?_, ⟨k, (htr.word_lt hm).1, htr.bitOf_image hm⟩, ?_⟩
  · intro config direction index hsport hdport hcase
    apply Native.directionValid_ne_notNeutral
    rcases hcase with ⟨ho, ht, hd⟩ | ⟨ho, ht, hs⟩
    · exact notNeutral_of_mapped hsport hdport (by rw [ho, ht]; exact hmap) hd
    · exact notNeutral_of_mapped hsport hdport hs (by rw [ho, ht]; exact hmap)
  · obtain ⟨haddr, -, -⟩ := prefixAccepted_spec (target_accepted hv outbound)
    refine (containsFrom_v6 haddr _ _).mpr ⟨b, rfl, sameLeading_mono ?_ (htr.target_leading hm)⟩
    rw [← max_source_target pair outbound]
    exact le_max_right _ _
  · intro address' hr'
    obtain ⟨a', b', rfl, hb', hab'⟩ := (translateAddress_eq_ok hv ..).mp hr'
    cases hb'
    rw [translateBytes_injective hm hab' hab]

/-- `fd00:0:0:1::2` and its image. -/
theorem translateAddress_neutral_sitePair :
    sumTo (NetipAddr.as16 (.v6 #v[0x20, 0x01, 0x0d, 0xb8, 0, 0, 0, 1, 0xcf, 0x47, 0, 0, 0, 0, 0, 2]
        "")) 8 % 65535 =
      sumTo (NetipAddr.as16 (.v6 #v[0xfd, 0, 0, 0, 0, 0, 0, 1, 0, 0, 0, 0, 0, 0, 0, 2] "")) 8 %
        65535 :=
  (translateAddress_neutral validatePair_sitePair true (by decide +kernel)).1

end Mwan.Npt

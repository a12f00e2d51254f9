import Mwan.L3Protocol.Npt.Translate

/-!
# The BPF translator (`npt/bpf/npt.c`, `npt/bpf/translator.go`)

The kernel program translates with the record `pairValue` prepares: prefixes
and lengths, the byte masks of the longer one and both adjustments. `translate`
is the program's function on one address; `none` is its `-1`, which it returns
before it writes anything.

Results:
* `pairValue_eq_ok`: what the prepared record of a pair holds.
* `contains_eq`, `excepted_iff`, `translate_eq`: the program's functions on it.
* `translate_pairValue`: the program and `TranslateAddress` compute the same
  function.
-/
namespace Mwan.Npt.Bpf

open Mwan.Core Mwan.Core.Exec Mwan.Npt

/-! ## The prepared record -/

/-- mirrors npt.c:14-28 -/
structure NptPair where
  internal : Addr := Vector.replicate 16 0
  external : Addr := Vector.replicate 16 0
  mask : Vector UInt8 8 := Vector.replicate 8 0
  sourceExceptions : Vector Addr 16 := Vector.replicate 16 (Vector.replicate 16 0)
  destinationExceptions : Vector Addr 16 := Vector.replicate 16 (Vector.replicate 16 0)
  id : UInt16 := 0
  forwardAdjustment : UInt16 := 0
  reverseAdjustment : UInt16 := 0
  internalBits : UInt8 := 0
  externalBits : UInt8 := 0
  sourceCount : UInt8 := 0
  destinationCount : UInt8 := 0
  deriving DecidableEq

/-- The errors of the record's construction. -/
inductive ValueError
  /-- "validate NPTv6 pair: %w" -/
  | validate (cause : PolicyError)
  /-- "pair %d has an unencodable prefix length" -/
  | unencodable (id : UInt16)
  /-- "interface %d exceeds %d prefix pairs" -/
  | tooManyPairs (ifIndex : Nat) (limit : Nat)
  /-- "interface %d has unsupported packet header %q" -/
  | unsupportedHeader (ifIndex : Nat) (encapType : String)
  /-- "interface %d repeats pair %d" -/
  | repeatsPair (ifIndex : Nat) (id : UInt16)
  deriving DecidableEq

/-- One round of the mask loop.
mirrors translator.go:121-123 -/
def setMaskBit (mask : Vector UInt8 8) (bit : Nat) : Vector UInt8 8 :=
  mask.setIfInBounds (bit / 8) (mask[bit / 8]?.getD 0 ||| bitMask (bit % 8))

/-- One round of an exception loop, on the array and its count.
mirrors translator.go:124-131 -/
def putException (state : Vector Addr 16 × UInt8) (entry : NetipAddr × Nat) :
    Vector Addr 16 × UInt8 :=
  (state.1.setIfInBounds entry.2 entry.1.as16, state.2 + 1)

/-- `Bits() < 0 || Bits() > 64` -/
def unencodableBits (bits : Option Nat) : Bool :=
  match bits with
  | none => true
  | some n => decide (n > 64)

/-- mirrors translator.go:104-133 -/
def pairValue (pair : PrefixPair) : Except ValueError NptPair := do
  match validatePair pair with
  | .error cause => throw (.validate cause)
  | .ok _ => pure ()
  if unencodableBits pair.internal.bits || unencodableBits pair.external.bits then
    throw (.unencodable pair.id)
  let bits := max pair.internal.length pair.external.length
  let empty := (Vector.replicate 16 (Vector.replicate 16 0), 0)
  let sources := pair.sourceExceptions.zipIdx.foldl putException empty
  let destinations := pair.destinationExceptions.zipIdx.foldl putException empty
  return {
    internal := pair.internal.addr.as16
    external := pair.external.addr.as16
    mask := (List.range bits).foldl setMaskBit (Vector.replicate 8 0)
    sourceExceptions := sources.1
    destinationExceptions := destinations.1
    id := pair.id
    forwardAdjustment := adjustment pair.internal pair.external
    reverseAdjustment := adjustment pair.external pair.internal
    internalBits := UInt8.ofNat pair.internal.length
    externalBits := UInt8.ofNat pair.external.length
    sourceCount := sources.2
    destinationCount := destinations.2 }

/-! ## The program's functions on one address -/

/-- The mask of byte `i`.
mirrors npt.c:51-53 -/
def usedMask (bits i : Nat) : UInt8 :=
  let used := if bits > i * 8 then bits - i * 8 else 0
  let used := if used > 8 then 8 else used
  if used ≠ 0 then UInt8.ofNat (0xff <<< (8 - used)) else 0

/-- mirrors npt.c:46-57 -/
def contains (address pre : Addr) (bits : Nat) : Bool :=
  if bits > 64 then false
  else (List.range 8).all fun i =>
    byteOf address i &&& usedMask bits i = byteOf pre i &&& usedMask bits i

/-- mirrors npt.c:62-75 -/
def excepted (pair : NptPair) (address : Addr) (source : Bool) : Bool :=
  let count := if source then pair.sourceCount else pair.destinationCount
  let exceptions := if source then pair.sourceExceptions else pair.destinationExceptions
  (exceptions.toList.take count.toNat).any fun exception => address = exception

/-- The lengths' maximum.
mirrors npt.c:81 -/
def NptPair.bits (pair : NptPair) : Nat :=
  if pair.internalBits > pair.externalBits then pair.internalBits.toNat
  else pair.externalBits.toNat

/-- mirrors npt.c:76-106 -/
def translate (address : Addr) (pair : NptPair) (outbound : Bool) : Option Addr := do
  let source := if outbound then pair.internal else pair.external
  let target := if outbound then pair.external else pair.internal
  let bits := pair.bits
  guard (contains address source bits)
  let word ←
    if bits > 48 then
      let nonzero := (List.range 8).foldl (fun acc i => acc ||| byteOf address (8 + i)) 0
      if nonzero = 0 then none
      else some (([4, 5, 6, 7].find? fun i =>
        byteOf address (i * 2) ≠ 0xff ∨ byteOf address (i * 2 + 1) ≠ 0xff).getD 8)
    else some 3
  guard ¬ (word ≥ 8 ∨ (byteOf address (word * 2) = 0xff ∧ byteOf address (word * 2 + 1) = 0xff))
  let address := (List.range 8).foldl (fun address i =>
    let mask := pair.mask[i]?.getD 0
    setByte address i ((byteOf address i &&& ~~~ mask) ||| (byteOf target i &&& mask))) address
  let sum := (byteOf address (word * 2)).toNat <<< 8 ||| (byteOf address (word * 2 + 1)).toNat
  let sum := sum + (if outbound then pair.forwardAdjustment else pair.reverseAdjustment).toNat
  let sum := foldStep (foldStep sum)
  let sum := if sum = 0xffff then 0 else sum
  let address := setByte address (word * 2) (UInt8.ofNat (sum >>> 8))
  return setByte address (word * 2 + 1) (UInt8.ofNat sum)

/-! ## Masks and exceptions -/

theorem usedMask_eq (bits i : Nat) : usedMask bits i = maskByte bits i := by
  have hall : ∀ k : Fin 9, (if k.val ≠ 0 then UInt8.ofNat (0xff <<< (8 - k.val)) else 0) =
      UInt8.ofNat (256 - 2 ^ (8 - k.val)) := by decide
  have h := hall ⟨min (bits - 8 * i) 8, by omega⟩
  unfold usedMask maskByte
  simp only at h ⊢
  rw [← h]
  have hused : (if (if bits > i * 8 then bits - i * 8 else 0) > 8 then 8
      else if bits > i * 8 then bits - i * 8 else 0) = min (bits - 8 * i) 8 := by
    split <;> split <;> omega
  rw [hused]

/-- The program's eight masked bytes are the leading bits. -/
theorem contains_eq (a p : Addr) (bits : Nat) (hb : bits ≤ 64) :
    contains a p bits = sameLeading bits a p := by
  rw [contains, if_neg (by omega), Bool.eq_iff_iff, sameLeading_iff]
  simp only [List.all_eq_true, List.mem_range, decide_eq_true_eq, usedMask_eq]
  constructor
  · intro h i hi
    by_cases h8 : i < 8
    · exact h i h8
    · rw [maskByte_eq_zero (by omega), UInt8.and_zero, UInt8.and_zero]
  · intro h i hi
    exact h i (by omega)

theorem getElem_foldl_setMaskBit (bits : Nat) (hb : bits ≤ 64) (i : Nat) (hi : i < 8) :
    ((List.range bits).foldl setMaskBit (Vector.replicate 8 0))[i]?.getD 0 = maskByte bits i := by
  induction bits with
  | zero => rw [maskByte_eq_zero (by omega)]; simp [hi]
  | succ bits ih =>
    have ih := ih (by omega)
    rw [List.range_succ, List.foldl_append, List.foldl_cons, List.foldl_nil, setMaskBit,
      Vector.getElem?_setIfInBounds, maskByte_succ]
    by_cases h : bits / 8 = i
    · subst h
      rw [if_pos rfl, if_pos hi, if_pos rfl, ih]
      rfl
    · rw [if_neg h, if_neg (Ne.symm h), ih]

/-- The exception loop fills the array from the front and counts. -/
theorem foldl_putException (l : List NetipAddr) (hl : l.length ≤ 16) :
    let filled := l.zipIdx.foldl putException
      ((Vector.replicate 16 (Vector.replicate 16 0), 0) : Vector Addr 16 × UInt8)
    filled.1.toList.take l.length = l.map NetipAddr.as16 ∧ filled.2.toNat = l.length := by
  induction l using List.reverseRecOn with
  | nil => exact ⟨rfl, rfl⟩
  | append_singleton l address ih =>
    rw [List.length_append, List.length_singleton] at hl
    obtain ⟨harr, hcount⟩ := ih (by omega)
    simp only [List.zipIdx_append, List.foldl_append, List.zipIdx_cons, List.zipIdx_nil,
      List.foldl_cons, List.foldl_nil, putException, List.length_append, List.length_singleton,
      List.map_append, List.map_cons, List.map_nil, Nat.zero_add]
    constructor
    · rw [List.take_add_one, Vector.toList_setIfInBounds, List.take_set, harr,
        List.set_eq_of_length_le (by simp)]
      simp [show l.length < 16 by omega]
    · rw [UInt8.toNat_add, hcount]
      simp; omega

/-- `mapped` is the record of `pair`. -/
structure Prepares (mapped : NptPair) (pair : PrefixPair) : Prop where
  valid : validatePair pair = .ok ()
  internal : mapped.internal = pair.internal.addr.as16
  external : mapped.external = pair.external.addr.as16
  mask : ∀ i, i < 8 →
    mapped.mask[i]?.getD 0 = maskByte (max pair.internal.length pair.external.length) i
  id : mapped.id = pair.id
  forward : mapped.forwardAdjustment = adjustment pair.internal pair.external
  reverse : mapped.reverseAdjustment = adjustment pair.external pair.internal
  internalBits : mapped.internalBits.toNat = pair.internal.length
  externalBits : mapped.externalBits.toNat = pair.external.length
  sources : mapped.sourceExceptions.toList.take mapped.sourceCount.toNat =
    pair.sourceExceptions.map NetipAddr.as16
  destinations : mapped.destinationExceptions.toList.take mapped.destinationCount.toNat =
    pair.destinationExceptions.map NetipAddr.as16

theorem unencodableBits_of_accepted {p : Prefix} (h : prefixAccepted p = true) :
    unencodableBits p.bits = false := by
  obtain ⟨-, hlen, -⟩ := prefixAccepted_spec h
  simp only [prefixAccepted, Bool.and_eq_true] at h
  obtain ⟨⟨⟨⟨⟨hsome, -⟩, -⟩, -⟩, -⟩, -⟩ := h
  obtain ⟨n, hn⟩ := Option.isSome_iff_exists.mp hsome
  rw [Prefix.length, hn] at hlen
  rw [hn, unencodableBits]
  simpa using hlen

/-- Every accepted pair has a record, and only accepted pairs have one. -/
theorem pairValue_isOk (pair : PrefixPair) :
    (∃ mapped, pairValue pair = .ok mapped) ↔ validatePair pair = .ok () := by
  constructor
  · intro ⟨mapped, h⟩
    cases hv : validatePair pair with
    | ok u => rfl
    | error e =>
      simp only [pairValue, hv] at h
      cases h
  · intro hv
    have hs := unencodableBits_of_accepted (source_accepted hv true)
    have ht := unencodableBits_of_accepted (target_accepted hv true)
    simp only [source, target, if_true] at hs ht
    cases h : pairValue pair with
    | ok mapped => exact ⟨mapped, rfl⟩
    | error e =>
      simp only [pairValue, hv, hs, ht, Bool.or_false] at h
      cases h

variable {pair : PrefixPair} {mapped : NptPair}

theorem prepares_of_pairValue (h : pairValue pair = .ok mapped) : Prepares mapped pair := by
  have hv := (pairValue_isOk pair).mp ⟨mapped, h⟩
  have hs := unencodableBits_of_accepted (source_accepted hv true)
  have ht := unencodableBits_of_accepted (target_accepted hv true)
  obtain ⟨⟨hi, he⟩, -, ⟨hns, hnd⟩, -⟩ := (validatePair_eq_ok pair).mp hv
  obtain ⟨-, hil, -⟩ := prefixAccepted_spec hi
  obtain ⟨-, hel, -⟩ := prefixAccepted_spec he
  simp only [source, target, if_true] at hs ht
  simp only [pairValue, hv, hs, ht, Bool.or_false] at h
  obtain rfl := (Except.ok.inj h).symm
  obtain ⟨hsa, hsc⟩ := foldl_putException pair.sourceExceptions hns
  obtain ⟨hda, hdc⟩ := foldl_putException pair.destinationExceptions hnd
  exact {
    valid := hv
    internal := rfl
    external := rfl
    mask := getElem_foldl_setMaskBit _ (max_le hil hel)
    id := rfl
    forward := rfl
    reverse := rfl
    internalBits := by rw [UInt8.toNat_ofNat']; omega
    externalBits := by rw [UInt8.toNat_ofNat']; omega
    sources := by rw [hsc]; exact hsa
    destinations := by rw [hdc]; exact hda }

/-! ## The program on a prepared record -/

theorem byte_ff_iff (a : Addr) (k : Nat) :
    (byteOf a (k * 2) = 0xff ∧ byteOf a (k * 2 + 1) = 0xff) ↔ wordOf a k = 0xffff := by
  rw [Nat.mul_comm k 2]
  constructor
  · intro ⟨h1, h2⟩
    rw [wordOf, h1, h2]; decide
  · exact fun h => ofBe_inj (h.trans (by decide : (0xffff : UInt16) = ofBe 0xff 0xff))

theorem foldl_or_eq_zero (a : Addr) :
    (List.range 8).foldl (fun acc i => acc ||| byteOf a (8 + i)) 0 = 0 ↔
      ((List.range 8).all fun i => byteOf a (8 + i) = 0) = true := by
  simp [List.range_succ, UInt8.or_eq_zero_iff, and_assoc]

/-- The program's choice of the correction word, its two refusals included. -/
theorem chooseWord_eq {β : Type} (bits : Nat) (a : Addr) (f : Nat → Option β) :
    (do
      let word ←
        if bits > 48 then
          let nonzero := (List.range 8).foldl (fun acc i => acc ||| byteOf a (8 + i)) 0
          if nonzero = 0 then none
          else some (([4, 5, 6, 7].find? fun i =>
            byteOf a (i * 2) ≠ 0xff ∨ byteOf a (i * 2 + 1) ≠ 0xff).getD 8)
        else some 3
      guard ¬ (word ≥ 8 ∨ (byteOf a (word * 2) = 0xff ∧ byteOf a (word * 2 + 1) = 0xff))
      f word) = (correctionWord bits a).bind f := by
  have hfind : ([4, 5, 6, 7].find? fun i =>
      byteOf a (i * 2) ≠ 0xff ∨ byteOf a (i * 2 + 1) ≠ 0xff) =
      [4, 5, 6, 7].find? fun i => wordOf a i ≠ 0xffff := by
    congr 1
    funext i
    rw [decide_eq_decide, ne_eq (wordOf a i), ← byte_ff_iff, not_and_or]
  simp only [hfind, foldl_or_eq_zero, zeroIdentifier_iff, byte_ff_iff, correctionWord]
  by_cases hb : bits > 48
  · simp only [hb, if_true]
    by_cases hz : ([4, 5, 6, 7].all fun k => decide (wordOf a k = 0)) = true
    · simp only [hz, if_true]; rfl
    · simp only [hz]
      cases hk : [4, 5, 6, 7].find? fun i => decide (wordOf a i ≠ 0xffff) with
      | none => simp [guard]
      | some k =>
        obtain ⟨-, h8, hw, -⟩ := (find_identifier a k).mp hk
        simp [guard, hw, h8]
  · simp only [hb, if_false]
    by_cases h3 : wordOf a 3 = 0xffff <;> simp [guard, h3]

/-- The masked copy of eight bytes replaces the leading bits. -/
theorem foldl_blend_eq {mask : Vector UInt8 8} {bits : Nat} (hb : bits ≤ 64)
    (hm : ∀ i, i < 8 → mask[i]?.getD 0 = maskByte bits i) (a t : Addr) :
    (List.range 8).foldl (fun address i =>
      let m := mask[i]?.getD 0
      setByte address i ((byteOf address i &&& ~~~ m) ||| (byteOf t i &&& m))) a =
      replaceLeading bits a t := by
  -- after `n` rounds the first `n` bytes are done and the others untouched
  have hrounds (n : Nat) (hn : n ≤ 8) (i : Nat) (hi : i < 16) :
      byteOf ((List.range n).foldl (fun address i =>
        let m := mask[i]?.getD 0
        setByte address i ((byteOf address i &&& ~~~ m) ||| (byteOf t i &&& m))) a) i =
        if i < n then blend (maskByte bits i) (byteOf a i) (byteOf t i) else byteOf a i := by
    induction n generalizing i with
    | zero => simp
    | succ n ih =>
      rw [List.range_succ, List.foldl_append, List.foldl_cons, List.foldl_nil]
      simp only
      rw [byteOf_setByte _ _ _ _ (by omega), ih (by omega) i hi, ih (by omega) n (by omega),
        hm n (by omega), if_neg (Nat.lt_irrefl n)]
      by_cases h : i = n
      · subst h
        rw [if_pos rfl, if_pos (Nat.lt_succ_self i)]
        rfl
      · rw [if_neg h]
        by_cases hlt : i < n
        · rw [if_pos hlt, if_pos (by omega)]
        · rw [if_neg hlt, if_neg (by omega)]
  apply addr_ext
  intro i hi
  rw [hrounds 8 (le_refl _) i hi, byteOf_replaceLeading _ _ _ _ hi]
  by_cases h : i < 8
  · rw [if_pos h]
  · rw [if_neg h, maskByte_eq_zero (by omega), blend_zero]

/-- The two folds and the two byte stores write the corrected word. -/
theorem store_corrected (a : Addr) (k : Nat) (adjust : UInt16) :
    (let sum := (byteOf a (k * 2)).toNat <<< 8 ||| (byteOf a (k * 2 + 1)).toNat
     let sum := sum + adjust.toNat
     let sum := foldStep (foldStep sum)
     let sum := if sum = 0xffff then 0 else sum
     setByte (setByte a (k * 2) (UInt8.ofNat (sum >>> 8))) (k * 2 + 1) (UInt8.ofNat sum)) =
      putWord a k (corrected (wordOf a k) adjust) := by
  have hword : (byteOf a (k * 2)).toNat <<< 8 ||| (byteOf a (k * 2 + 1)).toNat =
      (wordOf a k).toNat := by
    rw [← Nat.shiftLeft_add_eq_or_of_lt (UInt8.toNat_lt _), wordOf, toNat_ofBe,
      Nat.shiftLeft_eq, Nat.mul_comm k 2]
  have hsum : (if fold16 ((wordOf a k).toNat + adjust.toNat) = 65535 then 0
      else fold16 ((wordOf a k).toNat + adjust.toNat)) =
      (corrected (wordOf a k) adjust).toNat := by
    have h1 := fold16_le ((wordOf a k).toNat + adjust.toNat)
    have h2 := fold16_mod ((wordOf a k).toNat + adjust.toNat)
    rw [toNat_corrected]
    split <;> omega
  have h1 := (wordOf a k).toNat_lt
  have h2 := adjust.toNat_lt
  simp only [hword]
  rw [foldStep_foldStep _ (by omega), hsum, putWord, Nat.shiftRight_eq_div_pow, Nat.mul_comm k 2]
  congr 1
  apply UInt8.toNat_inj.mp
  rw [UInt8.toNat_ofNat', UInt8.toNat_ofNat']
  omega

theorem Prepares.bits_eq (h : Prepares mapped pair) :
    mapped.bits = max pair.internal.length pair.external.length := by
  rw [NptPair.bits, ← h.internalBits, ← h.externalBits]
  split
  · next hlt => exact (max_eq_left (UInt8.le_iff_toNat_le.mp (UInt8.le_of_lt hlt))).symm
  · next hlt => exact (max_eq_right (UInt8.le_iff_toNat_le.mp (UInt8.not_lt.mp hlt))).symm

/-- On a prepared record the program computes the pair's mapping. -/
theorem Prepares.translate_eq (h : Prepares mapped pair) (a : Addr) (outbound : Bool) :
    translate a mapped outbound = pairTranslate pair outbound a := by
  obtain ⟨⟨hi, he⟩, -⟩ := (validatePair_eq_ok pair).mp h.valid
  obtain ⟨-, hil, -⟩ := prefixAccepted_spec hi
  obtain ⟨-, hel, -⟩ := prefixAccepted_spec he
  have hb : max pair.internal.length pair.external.length ≤ 64 := max_le hil hel
  have hfrom : (if outbound then mapped.internal else mapped.external) =
      (source pair outbound).addr.as16 := by
    cases outbound
    · exact h.external
    · exact h.internal
  have hto : (if outbound then mapped.external else mapped.internal) =
      (target pair outbound).addr.as16 := by
    cases outbound
    · exact h.internal
    · exact h.external
  have hadj : (if outbound then mapped.forwardAdjustment else mapped.reverseAdjustment) =
      adjustment (source pair outbound) (target pair outbound) := by
    cases outbound
    · exact h.reverse
    · exact h.forward
  unfold translate pairTranslate translateBytes
  simp only [hfrom, hto, hadj, h.bits_eq, contains_eq _ _ _ hb, foldl_blend_eq hb h.mask,
    store_corrected]
  cases hs : sameLeading (max pair.internal.length pair.external.length) a
      (source pair outbound).addr.as16 with
  | false => rfl
  | true => exact (chooseWord_eq _ a _).trans (Option.map_eq_bind ..).symm

/-- The exceptions of a direction. -/
def exceptions (pair : PrefixPair) (outbound : Bool) : List NetipAddr :=
  if outbound then pair.sourceExceptions else pair.destinationExceptions

/-- The program compares the sixteen bytes of an exception only. -/
theorem Prepares.excepted_iff (h : Prepares mapped pair) (a : Addr) (outbound : Bool) :
    excepted mapped a outbound = true ↔ a ∈ (exceptions pair outbound).map NetipAddr.as16 := by
  cases outbound
  · simp only [excepted, exceptions, Bool.false_eq_true, if_false, h.destinations]
    simp [@eq_comm _ a]
  · simp only [excepted, exceptions, if_true, h.sources]
    simp [@eq_comm _ a]

/-- The program and `TranslateAddress` accept the same addresses and give them
the same images. -/
theorem translate_pairValue {pair : PrefixPair} (hv : validatePair pair = .ok ()) :
    ∃ mapped, pairValue pair = .ok mapped ∧ ∀ (a : Addr) (outbound : Bool),
      (∀ b, translate a mapped outbound = some b ↔
        translateAddress pair (.v6 a "") outbound = .ok (.v6 b "")) ∧
      (translate a mapped outbound = none ↔
        ∃ e, translateAddress pair (.v6 a "") outbound = .error e) := by
  obtain ⟨mapped, hp⟩ := (pairValue_isOk pair).mpr hv
  have hok (a b : Addr) (outbound : Bool) : translate a mapped outbound = some b ↔
      translateAddress pair (.v6 a "") outbound = .ok (.v6 b "") := by
    rw [(prepares_of_pairValue hp).translate_eq, translateAddress_eq_ok hv]
    constructor
    · exact fun h => ⟨a, b, rfl, rfl, h⟩
    · intro ⟨a', b', ha, hb, h⟩
      cases ha
      cases hb
      exact h
  refine ⟨mapped, hp, fun a outbound => ⟨fun b => hok a b outbound, ?_⟩⟩
  cases hr : translateAddress pair (.v6 a "") outbound with
  | ok r =>
    obtain ⟨a', b, ha, rfl, -⟩ := (translateAddress_eq_ok hv ..).mp hr
    simp [(hok a b outbound).mpr hr]
  | error e =>
    have hnone : translate a mapped outbound = none := by
      rw [Option.eq_none_iff_forall_ne_some]
      intro b hb
      rw [(hok a b outbound).mp hb] at hr
      cases hr
    simp [hnone]

/-- `fd12:3456:7880::/41` and `2001:db8:ff00::/52` -/
def unequalPair : PrefixPair where
  id := 7
  internal := .ofAddr #v[0xfd, 0x12, 0x34, 0x56, 0x78, 0x80, 0, 0, 0, 0, 0, 0, 0, 0, 0, 0] 41
  external := .ofAddr #v[0x20, 0x01, 0x0d, 0xb8, 0xff, 0, 0, 0, 0, 0, 0, 0, 0, 0, 0, 0] 52
  sourceExceptions := []
  destinationExceptions := []

theorem translate_pairValue_unequalPair :
    ∃ mapped, pairValue unequalPair = .ok mapped ∧ ∀ (a : Addr) (outbound : Bool),
      (∀ b, translate a mapped outbound = some b ↔
        translateAddress unequalPair (.v6 a "") outbound = .ok (.v6 b "")) ∧
      (translate a mapped outbound = none ↔
        ∃ e, translateAddress unequalPair (.v6 a "") outbound = .error e) :=
  translate_pairValue ((validatePair_eq_ok unequalPair).mpr (by decide +kernel))

end Mwan.Npt.Bpf

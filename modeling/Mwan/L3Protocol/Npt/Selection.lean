import Mwan.L3Protocol.Npt.PacketNeutral

/-!
# Pair selection and hairpins (`npt/bpf/npt.c`, `npt/bpf/translator.go`)

`Longest` states what the two order arrays and the selection loop are for:
the longest prefix that contains the address, the first one of equals. Behind
an internal interface the pair of a hairpinned packet is remembered in its
priority between the two hooks.

Results:
* `Encodes.selectPair_longest`: the loop computes the longest match.
* `Encodes.selectPair_tag`: internal egress selects by the tag alone.
* `process_selects`: both hooks on the policies of `policyValue`.
* `process_wan_tag_selects`: a tag that arrives at an external interface is
  not cleared.
-/
namespace Mwan.Npt.Bpf

open Mwan.Core Mwan.Npt List

/-! ## Longest prefix match -/

/-- The hook's prefix of a pair contains an address: the external one at
ingress, the internal one at egress. -/
def pairContains (pair : PrefixPair) (ingress : Bool) (address : Addr) : Bool :=
  containsFrom (source pair !ingress).addr (source pair !ingress).length (.v6 address "")

/-- The pair at `i` has the longest prefix that contains the address, and is
the first of those as long. -/
def Longest (pairs : List PrefixPair) (ingress : Bool) (address : Addr) (i : Nat) : Prop :=
  ∃ pair, pairs[i]? = some pair ∧ pairContains pair ingress address = true ∧
    ∀ (j : Nat) other, pairs[j]? = some other → pairContains other ingress address = true →
      (source other !ingress).length < (source pair !ingress).length ∨
      ((source other !ingress).length = (source pair !ingress).length ∧ i ≤ j)

variable {pair : PrefixPair}

theorem Prepares.inPrefix_eq {mapped : NptPair} (h : Prepares mapped pair) (address : Addr)
    (ingress : Bool) :
    inPrefix mapped address (!ingress) = pairContains pair ingress address := by
  obtain ⟨haddr, hlen, -⟩ := prefixAccepted_spec (source_accepted h.valid !ingress)
  have hbits : (if !ingress then mapped.internalBits else mapped.externalBits).toNat =
      (source pair !ingress).length := by
    cases ingress
    · exact h.internalBits
    · exact h.externalBits
  have hpre : (if !ingress then mapped.internal else mapped.external) =
      (source pair !ingress).addr.as16 := by
    cases ingress
    · exact h.internal
    · exact h.external
  rw [inPrefix, hbits, hpre, contains_eq _ _ _ hlen, Bool.eq_iff_iff, pairContains,
    containsFrom_v6 haddr]
  simp

theorem Prepares.selectBits_eq {mapped : NptPair} (h : Prepares mapped pair) (ingress : Bool) :
    selectBits mapped ingress = (source pair !ingress).length := by
  cases ingress
  · exact h.internalBits
  · exact h.externalBits

variable {policy : NptPolicy} {interface : InterfacePolicy}

/-- The first match in the order of the lengths is the longest match. -/
theorem Encodes.find_longest (h : Encodes policy interface) (ingress : Bool) (address : Addr)
    (i : Nat) :
    ((sortedOrder interface.pairs.length fun i => selectBits (policy.pair i) ingress).find?
        fun i => inPrefix (policy.pair i) address !ingress) = some i ↔
      Longest interface.pairs ingress address i := by
  rw [sortedOrder, find_insertionSort _ _ pairwise_lt_range]
  have hget (j : Nat) (hj : j < interface.pairs.length) :
      ∃ pair, interface.pairs[j]? = some pair ∧ Prepares (policy.pair j) pair :=
    ⟨_, getElem?_eq_getElem hj, h.prepares j _ (getElem?_eq_getElem hj)⟩
  constructor
  · rintro ⟨hi, hin, hmax⟩
    obtain ⟨pair, hpair, hprep⟩ := hget i (mem_range.mp hi)
    refine ⟨pair, hpair, by rw [← hprep.inPrefix_eq]; exact hin, fun j other hj hin' => ?_⟩
    have hprep' := h.prepares j other hj
    have hlt : j < interface.pairs.length := (List.getElem?_eq_some_iff.mp hj).1
    rw [← hprep'.selectBits_eq, ← hprep.selectBits_eq]
    rcases hmax j (mem_range.mpr hlt) (by rw [hprep'.inPrefix_eq]; exact hin') with
      rfl | hlt | ⟨heq, hlt⟩
    · exact .inr ⟨rfl, le_refl _⟩
    · exact .inl hlt
    · exact .inr ⟨heq.symm, hlt.le⟩
  · rintro ⟨pair, hpair, hin, hmax⟩
    have hi : i < interface.pairs.length := (List.getElem?_eq_some_iff.mp hpair).1
    have hprep := h.prepares i pair hpair
    refine ⟨mem_range.mpr hi, by rw [hprep.inPrefix_eq]; exact hin, fun j hj hin' => ?_⟩
    obtain ⟨other, hother, hprep'⟩ := hget j (mem_range.mp hj)
    rw [hprep'.inPrefix_eq] at hin'
    have hother := hmax j other hother hin'
    rw [← hprep.selectBits_eq, ← hprep'.selectBits_eq] at hother
    rcases hother with hlt | ⟨heq, hle⟩
    · exact .inr (.inl hlt)
    · rcases hle.eq_or_lt with rfl | hlt
      · exact .inl rfl
      · exact .inr (.inr ⟨heq.symm, hlt⟩)

variable {ingress : Bool}

theorem Encodes.selectPair_longest (h : Encodes policy interface)
    (hhook : ingress = true ∨ interface.internal = false) (priority : UInt32) (address : Addr) :
    ∃ selected, selectPair policy priority ingress address = some selected ∧
      (∀ i, selected = some i ↔ Longest interface.pairs ingress address i) ∧
      (selected = none ↔ ∀ pair ∈ interface.pairs, pairContains pair ingress address = false) := by
  have hselects : selects policy priority ingress address = fun pair => inPrefix pair address !ingress := by
    funext pair
    rw [selects, if_neg]
    intro ⟨hint, hin⟩
    have := h.internal.mp hint
    rcases hhook with hi | hi <;> simp_all
  rw [h.selectPair_eq, hselects]
  refine ⟨_, rfl, h.find_longest ingress address, ?_⟩
  rw [find?_eq_none]
  constructor
  · intro hnone pair hmem
    obtain ⟨j, hj, rfl⟩ := getElem_of_mem hmem
    have hprep := h.prepares j _ (getElem?_eq_getElem hj)
    rw [← hprep.inPrefix_eq]
    simpa using hnone j ((mem_sortedOrder ..).mpr hj)
  · intro hnone j hj
    have hlt := (mem_sortedOrder ..).mp hj
    have hprep := h.prepares j _ (getElem?_eq_getElem hlt)
    simp only [hprep.inPrefix_eq, hnone _ (getElem_mem hlt), Bool.false_eq_true, not_false_eq_true]

/-! ## The hairpin tag -/

theorem toUInt32_and_low (id : UInt16) : id.toUInt32 &&& 0xffff = id.toUInt32 := by
  apply UInt32.toNat_inj.mp
  rw [UInt32.toNat_and]
  exact Nat.and_two_pow_sub_one_of_lt_two_pow id.toNat_lt

theorem toUInt32_and_high (id : UInt16) : id.toUInt32 &&& 0xffff0000 = 0 := by
  rw [← toUInt32_and_low id, UInt32.and_assoc]
  exact UInt32.and_zero

theorem and_or_distrib (a b c : UInt32) : a &&& (b ||| c) = (a &&& b) ||| (a &&& c) :=
  UInt32.eq_of_toBitVec_eq BitVec.and_or_distrib_left

/-- The loop's two comparisons are one with the tag of the pair. -/
theorem tag_iff (priority : UInt32) (id : UInt16) :
    (tagged priority = true ∧ priority &&& 0xffff = id.toUInt32) ↔ priority = hairpinTag id := by
  rw [tagged, decide_eq_true_eq, hairpinTag]
  constructor
  · intro ⟨hhigh, hlow⟩
    calc priority = priority &&& (0xffff0000 ||| 0xffff) := UInt32.and_neg_one.symm
      _ = 0x4e500000 ||| id.toUInt32 := by rw [and_or_distrib, hhigh, hlow]
  · intro h
    subst h
    rw [UInt32.and_comm, and_or_distrib, UInt32.and_comm _ id.toUInt32, toUInt32_and_high,
      UInt32.and_comm _ 0xffff, and_or_distrib, UInt32.and_comm _ id.toUInt32, toUInt32_and_low]
    exact ⟨rfl, UInt32.zero_or⟩

theorem tagged_hairpinTag (id : UInt16) : tagged (hairpinTag id) = true :=
  ((tag_iff _ _).mpr rfl).1

theorem hairpinTag_inj {id id' : UInt16} (h : hairpinTag id = hairpinTag id') : id = id' := by
  have h1 := ((tag_iff (hairpinTag id) id).mpr rfl).2
  rw [((tag_iff (hairpinTag id) id').mpr h).2] at h1
  have h2 := congrArg UInt32.toNat h1
  apply UInt16.toNat_inj.mp
  rw [UInt16.toNat_toUInt32, UInt16.toNat_toUInt32] at h2
  exact h2.symm

/-- An internal interface's egress selects the pair whose tag the packet
carries, and no other. -/
theorem Encodes.selectPair_tag (h : Encodes policy interface) (hint : interface.internal = true)
    (priority : UInt32) (address : Addr) :
    ∃ selected, selectPair policy priority false address = some selected ∧
      ∀ i, selected = some i ↔
        ∃ pair, interface.pairs[i]? = some pair ∧ priority = hairpinTag pair.id := by
  have hselects (j : Nat) (pair : PrefixPair) (hj : interface.pairs[j]? = some pair) :
      selects policy priority false address (policy.pair j) = true ↔
        priority = hairpinTag pair.id := by
    rw [selects, if_pos ⟨h.internal.mpr hint, rfl⟩, (h.prepares j pair hj).id, Bool.and_eq_true,
      decide_eq_true_eq, tag_iff]
  refine ⟨_, h.selectPair_eq priority false address, fun i => ?_⟩
  constructor
  · intro hfind
    have hi := (mem_sortedOrder ..).mp (mem_of_find?_eq_some hfind)
    refine ⟨_, getElem?_eq_getElem hi, ?_⟩
    exact (hselects i _ (getElem?_eq_getElem hi)).mp (by simpa using find?_some hfind)
  · intro ⟨pair, hpair, htag⟩
    have hi : i < interface.pairs.length := (List.getElem?_eq_some_iff.mp hpair).1
    cases hfind : (sortedOrder interface.pairs.length
        fun i => selectBits (policy.pair i) false).find?
          fun i => selects policy priority false address (policy.pair i) with
    | none =>
      have := find?_eq_none.mp hfind i ((mem_sortedOrder ..).mpr hi)
      exact absurd ((hselects i pair hpair).mpr htag) this
    | some j =>
      -- identities are unique, so the pair found is the one with the tag
      have hj := (mem_sortedOrder ..).mp (mem_of_find?_eq_some hfind)
      have hjtag := (hselects j _ (getElem?_eq_getElem hj)).mp
        (by simpa using find?_some hfind)
      have hid : (interface.pairs.map PrefixPair.id)[j]? =
          (interface.pairs.map PrefixPair.id)[i]? := by
        rw [getElem?_map, getElem?_map, hpair, getElem?_eq_getElem hj]
        exact congrArg some (hairpinTag_inj (hjtag.symm.trans htag))
      rw [(getElem?_inj (by simpa using hj) h.nodup).mp hid]

/-! ## Both hooks -/

/-- The address a hook looks at. -/
def hookAddress (skb : Skb) (offset : Nat) (ingress : Bool) : Addr :=
  toAddr (slice skb.bytes (addressOffset offset ingress) 16)

variable {skb : Skb} {offset : Nat} {selected : Option Nat}

/-- `process` on an IPv6 packet of an interface with a policy. -/
theorem process_eq {policies : UInt32 → Option NptPolicy} (hp : policies skb.ifIndex = some policy)
    (ho : ipv6Offset skb.bytes (policy.ethernet ≠ 0) = some offset)
    (hrange : addressOffset offset ingress + 16 ≤ skb.bytes.length)
    (hs : selectPair policy skb.priority ingress (hookAddress skb offset ingress) = some selected)
    (fails : Nat → Bool) :
    process policies fails skb ingress =
      translateSelected fails policy offset (hookAddress skb offset ingress) selected skb
        ingress := by
  rw [hookAddress] at hs
  simp only [process, hp, ho, load, hrange, if_true, Option.bind_eq_bind, Option.bind_some, hs]
  rfl

/-- Whatever packet with this priority leaves an internal interface of these
pairs, the pair at `i` is the one that translates it. -/
def EgressSelects (policies : UInt32 → Option NptPolicy) (pairs : List PrefixPair)
    (priority : UInt32) (i : Nat) : Prop :=
  ∀ (interface : InterfacePolicy) (header : PacketHeader) (policy : NptPolicy) (skb : Skb)
    (offset : Nat) (fails : Nat → Bool),
    policyValue interface header = .ok policy → interface.internal = true →
    interface.pairs = pairs → policies skb.ifIndex = some policy →
    ipv6Offset skb.bytes (policy.ethernet ≠ 0) = some offset →
    addressOffset offset false + 16 ≤ skb.bytes.length → skb.priority = priority →
    process policies fails skb false =
      translateSelected fails policy offset (hookAddress skb offset false) (some i) skb false

theorem egressSelects_of_tag (policies : UInt32 → Option NptPolicy) {pairs : List PrefixPair}
    {i : Nat} (hpair : pairs[i]? = some pair) :
    EgressSelects policies pairs (hairpinTag pair.id) i := by
  intro interface header policy skb offset fails hv hint hpairs hp ho hrange hprio
  obtain ⟨selected, hs, hsel⟩ := (encodes_of_policyValue hv).selectPair_tag hint skb.priority
    (hookAddress skb offset false)
  obtain rfl : selected = some i := (hsel i).mpr ⟨pair, by rw [hpairs]; exact hpair, hprio⟩
  exact process_eq hp ho hrange hs fails

/-- What ingress of an internal interface leaves in the priority: the tag of
the pair that translated the destination, and otherwise no tag. -/
theorem translateSelected_priority (hint : policy.internal ≠ 0) {fails : Nat → Bool}
    {address : Addr} {skb' : Skb}
    (h : translateSelected fails policy offset address selected skb true = some skb') :
    (∃ i, selected = some i ∧ excepted (policy.pair i) address false = false ∧
      skb'.priority = hairpinTag (policy.pair i).id) ∨
    ((selected = none ∨ ∃ i, selected = some i ∧ excepted (policy.pair i) address false = true) ∧
      tagged skb'.priority = false) := by
  have hclear : tagged (clearTag policy skb true).priority = false := by
    by_cases ht : tagged skb.priority = true
    · rw [clearTag, if_pos ⟨hint, rfl, ht⟩]; exact (by decide : tagged 0 = false)
    · rw [clearTag, if_neg (by simp [ht])]; simpa using ht
  rcases (translateSelected_eq_some ..).mp h with ⟨rfl, rfl⟩ | ⟨i, rfl, hcase⟩
  · exact .inr ⟨.inl rfl, hclear⟩
  · rcases hcase with ⟨hex, rfl⟩ | ⟨hex, _, _, bytes, _, _, _, rfl⟩
    · refine .inr ⟨.inr ⟨i, rfl, hex⟩, ?_⟩
      rw [if_neg (by simp)]
      exact hclear
    · refine .inl ⟨i, rfl, hex, ?_⟩
      rw [setTag, if_pos hint, if_pos rfl]

/-- An interface that is not internal leaves the priority alone. -/
theorem translateSelected_external (hint : ¬ policy.internal ≠ 0) {fails : Nat → Bool}
    {address : Addr} {skb' : Skb}
    (h : translateSelected fails policy offset address selected skb ingress = some skb') :
    skb'.priority = skb.priority := by
  have hclear : clearTag policy skb ingress = skb := if_neg fun hc => hint hc.1
  rcases (translateSelected_eq_some ..).mp h with ⟨rfl, rfl⟩ | ⟨i, rfl, hcase⟩
  · rw [hclear]
  · rcases hcase with ⟨-, rfl⟩ | ⟨-, _, _, bytes, _, _, _, rfl⟩
    · rw [if_neg fun hc => hint hc.1, hclear]
    · rw [setTag, if_neg hint, hclear]

/-- Selection on the policies of `policyValue`. Ingress and the egress of an
external interface take the longest matching prefix, the first of equals, and
none exactly when no prefix contains the address. An internal interface's
egress takes the pair whose tag the packet carries. What the ingress of an
internal interface accepts carries the tag of the pair that translated its
destination, which makes every later internal egress take that pair, and no
tag if no pair did; at an external interface the priority stays what it was. -/
theorem process_selects {interface : InterfacePolicy} {header : PacketHeader} {policy : NptPolicy}
    (hv : policyValue interface header = .ok policy) {policies : UInt32 → Option NptPolicy}
    {skb : Skb} {offset : Nat} {ingress : Bool} (hp : policies skb.ifIndex = some policy)
    (ho : ipv6Offset skb.bytes (policy.ethernet ≠ 0) = some offset)
    (hrange : addressOffset offset ingress + 16 ≤ skb.bytes.length) (fails : Nat → Bool) :
    ∃ selected,
      process policies fails skb ingress =
        translateSelected fails policy offset (hookAddress skb offset ingress) selected skb
          ingress ∧
      (ingress = true ∨ interface.internal = false →
        (∀ i, selected = some i ↔
          Longest interface.pairs ingress (hookAddress skb offset ingress) i) ∧
        (selected = none ↔ ∀ pair ∈ interface.pairs,
          pairContains pair ingress (hookAddress skb offset ingress) = false)) ∧
      (ingress = false → interface.internal = true → ∀ i, selected = some i ↔
        ∃ pair, interface.pairs[i]? = some pair ∧ skb.priority = hairpinTag pair.id) ∧
      (ingress = true → interface.internal = true → ∀ skb',
        process policies fails skb ingress = some skb' →
        (∃ i pair, selected = some i ∧ interface.pairs[i]? = some pair ∧
          excepted (policy.pair i) (hookAddress skb offset ingress) false = false ∧
          skb'.priority = hairpinTag pair.id ∧
          EgressSelects policies interface.pairs skb'.priority i) ∨
        ((selected = none ∨ ∃ i, selected = some i ∧
            excepted (policy.pair i) (hookAddress skb offset ingress) false = true) ∧
          tagged skb'.priority = false)) ∧
      (interface.internal = false → ∀ skb',
        process policies fails skb ingress = some skb' → skb'.priority = skb.priority) := by
  have henc := encodes_of_policyValue hv
  by_cases hhook : ingress = true ∨ interface.internal = false
  · obtain ⟨selected, hs, hlong, hnone⟩ := henc.selectPair_longest hhook skb.priority
      (hookAddress skb offset ingress)
    have hproc := process_eq hp ho hrange hs fails
    refine ⟨selected, hproc, fun _ => ⟨hlong, hnone⟩, ?_, ?_, ?_⟩
    · intro hi hint
      rcases hhook with h | h
      · simp [hi] at h
      · simp [hint] at h
    · intro hi hint skb' hskb
      subst hi
      rw [hproc] at hskb
      rcases translateSelected_priority (henc.internal.mpr hint) hskb with ⟨i, rfl, hex, htag⟩ | hno
      · obtain ⟨pair, hpair, -⟩ := (hlong i).mp rfl
        rw [(henc.prepares i pair hpair).id] at htag
        refine .inl ⟨i, pair, rfl, hpair, hex, htag, ?_⟩
        rw [htag]
        exact egressSelects_of_tag policies hpair
      · exact .inr hno
    · intro hint skb' hskb
      rw [hproc] at hskb
      exact translateSelected_external (fun h => by simp [henc.internal.mp h] at hint) hskb
  · have hi : ingress = false := by simpa using fun h => hhook (.inl h)
    have hint : interface.internal = true := by simpa using fun h => hhook (.inr h)
    subst hi
    obtain ⟨selected, hs, htag⟩ := henc.selectPair_tag hint skb.priority
      (hookAddress skb offset false)
    refine ⟨selected, process_eq hp ho hrange hs fails, fun h => absurd h hhook,
      fun _ _ => htag, fun h => by simp at h, fun h => by simp [hint] at h⟩

/-! ### A tag that arrives from outside -/

/-- An internal interface 2 and an external interface 3 with one pair. -/
def sitePolicies : UInt32 → Option NptPolicy := fun ifIndex =>
  if ifIndex = 2 then (policyValue ⟨2, true, [sitePair]⟩ .none).toOption
  else if ifIndex = 3 then (policyValue ⟨3, false, [sitePair]⟩ .none).toOption
  else none

/-- A packet from `2001:db8:0:9::1` to the image of `fd00:0:0:1::2`, with the
pair's tag in its priority. -/
def taggedPacket : Skb where
  ifIndex := 3
  priority := 0x4e500001
  mark := 0
  bytes := [0x60, 0, 0, 0, 0, 8, 17, 64, 0x20, 0x01, 0x0d, 0xb8, 0, 0, 0, 9, 0, 0, 0, 0, 0, 0, 0, 1,
    0x20, 0x01, 0x0d, 0xb8, 0, 0, 0, 1, 0xcf, 0x47, 0, 0, 0, 0, 0, 2, 0x10, 0, 0x20, 0, 0, 8, 0xab,
    0xcd]

/-- The same packet to `fd00:0:0:1::2`, routed to the internal interface. -/
def routedPacket (priority : UInt32) : Skb where
  ifIndex := 2
  priority := priority
  mark := 0
  bytes := [0x60, 0, 0, 0, 0, 8, 17, 64, 0x20, 0x01, 0x0d, 0xb8, 0, 0, 0, 9, 0, 0, 0, 0, 0, 0, 0, 1,
    0xfd, 0, 0, 0, 0, 0, 0, 1, 0, 0, 0, 0, 0, 0, 0, 2, 0x10, 0, 0x20, 0, 0, 8, 0xab, 0xcd]

/-- The external interface accepts the packet with its tag, and at the
internal interface the tag selects the pair: the packet is dropped because the
pair cannot translate its source. Without the tag it passes. -/
theorem process_wan_tag_selects :
    process sitePolicies (fun _ => false) taggedPacket true =
        some { routedPacket 0x4e500001 with ifIndex := 3 } ∧
      tagged taggedPacket.priority = true ∧
      process sitePolicies (fun _ => false) (routedPacket 0x4e500001) false = none ∧
      process sitePolicies (fun _ => false) (routedPacket 0) false = some (routedPacket 0) := by
  decide +kernel

/-- The same packet from an internal host: the first pair is the longest match
at ingress. -/
theorem process_selects_hairpin :
    ∃ policy, policyValue ⟨2, true, [sitePair]⟩ .none = .ok policy ∧
      process sitePolicies (fun _ => false) { taggedPacket with ifIndex := 2 } true =
        translateSelected (fun _ => false) policy 0 (hookAddress taggedPacket 0 true) (some 0)
          { taggedPacket with ifIndex := 2 } true := by
  cases hv : policyValue ⟨2, true, [sitePair]⟩ .none with
  | error e =>
    have hok : (policyValue ⟨2, true, [sitePair]⟩ .none).toOption.isSome = true := by decide +kernel
    rw [hv] at hok
    cases hok
  | ok policy =>
    have heth : (policyValue ⟨2, true, [sitePair]⟩ .none).toOption.map NptPolicy.ethernet = some 0 := by
      decide +kernel
    have hp : sitePolicies 2 = some policy := by
      unfold sitePolicies
      rw [if_pos rfl, hv]
      rfl
    rw [hv] at heth
    have ho : ipv6Offset taggedPacket.bytes (policy.ethernet ≠ 0) = some 0 := by
      rw [show policy.ethernet = 0 from Option.some.inj heth]
      decide +kernel
    obtain ⟨selected, hproc, hlong, -⟩ := @process_selects _ _ _ hv sitePolicies
      { taggedPacket with ifIndex := 2 } 0 true hp ho (by decide) fun _ => false
    have hsel : selected = some 0 := by
      refine ((hlong (.inl rfl)).1 0).mpr ⟨sitePair, rfl, by decide +kernel, ?_⟩
      intro j other hj _
      exact .inr ⟨by
        cases j with
        | zero => rw [Option.some.inj hj]
        | succ j => simp at hj, Nat.zero_le j⟩
    refine ⟨policy, rfl, ?_⟩
    rw [hproc, hsel]
    rfl

end Mwan.Npt.Bpf

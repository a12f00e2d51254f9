import Mwan.L3Protocol.Npt.Interfaces
import Mwan.L3Protocol.Npt.Selection

/-!
# Native mappings and the kernel path (`nativeoffload/admission_linux.go`)

A hardware rule carries the addresses `ingressTuple` and `translateSource`
compute from the published pairs; the packets it replaces would have passed
`npt_ingress` and `npt_egress`. `Deployed` says that the BPF maps hold exactly
what `interfacePolicies` builds from those pairs.

Both sides map an address by one pair, and differ in how they look it up in
the exceptions: `slices.Contains` compares `netip.Addr` values, their zones
included, and the program compares sixteen bytes.

Results:
* `Deployed.process_wan`: a hook of a WAN's interface computes `kernelMap`.
* `ingressTuple_wan`, `translateSource_eq`: the Go side computes `nativeMap`.
* `nativeMap_eq_iff`: they differ on an exception that carries a zone.
* `mappingAgrees_iff`: the three hooks.
-/
namespace Mwan.Npt

open Mwan.Core Mwan.Npt.Bpf

/-! ## The Go side -/

/-- `Addr.Is4` -/
def NetipAddr.is4 : NetipAddr → Bool
  | .v4 _ => true
  | _ => false

/-- `Prefix.Contains` -/
def Prefix.contains (p : Prefix) (ip : NetipAddr) : Bool :=
  p.bits.isSome && containsFrom p.addr p.length ip

/-- `conntrack.Tuple` -/
structure Tuple where
  source : NetipAddr
  destination : NetipAddr
  protocol : UInt8
  sourcePort : UInt16
  destinationPort : UInt16
  zone : UInt16
  deriving DecidableEq

/-- The fields of a bound link: whether its connection has the internal role,
and the connection's identity. -/
structure BoundLink where
  internal : Bool
  connection : String

/-- mirrors modules/nativeoffload/admission_linux.go:384-406 -/
def ingressTuple (pairs : Pairs) (input : BoundLink) (tuple : Tuple) : Tuple × Bool :=
  if tuple.source.is4 then (tuple, true)
  else if input.internal then
    if pairs.entries.any fun entry => entry.2.external.contains tuple.destination &&
        !entry.2.destinationExceptions.contains tuple.destination then (tuple, false)
    else (tuple, true)
  else match pairs.lookup input.connection with
    | none => (tuple, true)
    | some pair =>
      if !pair.external.contains tuple.destination ||
          pair.destinationExceptions.contains tuple.destination then (tuple, true)
      else match translateAddress pair tuple.destination false with
        | .error _ => (tuple, false)
        | .ok address => ({ tuple with destination := address }, true)

/-- mirrors modules/nativeoffload/admission_linux.go:408-419 -/
def translateSource (pairs : Pairs) (wan : String) (tuple : Tuple) : Tuple × Bool :=
  match pairs.lookup wan with
  | none => (tuple, true)
  | some pair =>
    if !pair.internal.contains tuple.source || pair.sourceExceptions.contains tuple.source then
      (tuple, true)
    else match translateAddress pair tuple.source true with
      | .error _ => (tuple, false)
      | .ok address => ({ tuple with source := address }, true)

/-! ## One address -/

/-- The mapping of an address by the pair of a WAN, given which addresses are
exceptions; `none` where it is refused. -/
def mapUnless (pair : PrefixPair) (outbound : Bool) (excepted : Bool) (a : Addr) : Option Addr :=
  if pairContains pair (!outbound) a && !excepted then pairTranslate pair outbound a else some a

/-- The address a hook of the WAN's interface writes. -/
def kernelMap (pair : PrefixPair) (outbound : Bool) (a : Addr) : Option Addr :=
  mapUnless pair outbound (((exceptions pair outbound).map NetipAddr.as16).contains a) a

/-- The address the native rule carries. -/
def nativeMap (pair : PrefixPair) (outbound : Bool) (a : Addr) : Option Addr :=
  mapUnless pair outbound ((exceptions pair outbound).contains (.v6 a "")) a

/-- An address that the pair translates to another one or refuses, and that is
an exception only under a zone. -/
def hiddenException (pair : PrefixPair) (outbound : Bool) (a : Addr) : Bool :=
  pairContains pair (!outbound) a && ((exceptions pair outbound).map NetipAddr.as16).contains a &&
    !(exceptions pair outbound).contains (.v6 a "") && pairTranslate pair outbound a ≠ some a

theorem nativeMap_eq_iff (pair : PrefixPair) (outbound : Bool) (a : Addr) :
    nativeMap pair outbound a = kernelMap pair outbound a ↔
      hiddenException pair outbound a = false := by
  -- an exception of the Go side is one of the program
  have hsub : (exceptions pair outbound).contains (.v6 a "") = true →
      ((exceptions pair outbound).map NetipAddr.as16).contains a = true := by
    intro h
    simp only [List.contains_eq_mem, decide_eq_true_eq] at h ⊢
    exact List.mem_map.mpr ⟨_, h, rfl⟩
  unfold nativeMap kernelMap mapUnless hiddenException
  cases pairContains pair (!outbound) a with
  | false => simp
  | true =>
    cases hn : (exceptions pair outbound).contains (NetipAddr.v6 a "") with
    | true => rw [hsub hn]; simp
    | false =>
      cases hk : ((exceptions pair outbound).map NetipAddr.as16).contains a with
      | true | false => simp

variable {pair : PrefixPair}

theorem contains_eq_pairContains (hv : validatePair pair = .ok ()) (outbound : Bool) (a : Addr) :
    (source pair outbound).contains (.v6 a "") = pairContains pair (!outbound) a := by
  have hacc := source_accepted hv outbound
  simp only [prefixAccepted, Bool.and_eq_true] at hacc
  simp [Prefix.contains, pairContains, hacc.1.1.1.1.1]

/-! ## TCP and UDP packets -/

/-- The headers from `position` on, of type `next`, lead to a TCP or UDP
header, in the first fragment if there is a fragment header. -/
inductive Transports (bytes : Bytes) : UInt8 → Nat → Prop
  | upper {next : UInt8} {position : Nat} (h : next = 6 ∨ next = 17) : Transports bytes next position
  | options {next : UInt8} {position : Nat} {header : Bytes} (h : next = 0 ∨ next = 43 ∨ next = 60)
      (hload : load bytes position 4 = some header)
      (rest : Transports bytes (header[0]?.getD 0)
        (position + ((header[1]?.getD 0).toNat + 1) * 8)) : Transports bytes next position
  | authentication {position : Nat} {header : Bytes} (hload : load bytes position 4 = some header)
      (rest : Transports bytes (header[0]?.getD 0)
        (position + ((header[1]?.getD 0).toNat + 2) * 4)) : Transports bytes 51 position
  | fragment {position : Nat} {header : Bytes} (hload : load bytes position 4 = some header)
      (first : header[2]?.getD 0 = 0 ∧ header[3]?.getD 0 &&& 0xf8 = 0)
      (rest : Transports bytes (header[0]?.getD 0) (position + 8)) : Transports bytes 44 position

/-- The walk finds no ICMPv6 header in such a packet, and no load fails. -/
theorem Transports.walk {bytes : Bytes} {next : UInt8} {position : Nat}
    (h : Transports bytes next position) (depth : Nat) :
    walkExtensions bytes depth next position = .ended ∨
      ∃ next' position', walkExtensions bytes depth next position = .reached next' position' ∧
        next' ≠ 58 := by
  induction h generalizing depth with
  | @upper next position h =>
    cases depth with
    | zero => exact .inr ⟨next, position, rfl, by rcases h with rfl | rfl <;> decide⟩
    | succ => exact .inl (by rcases h with rfl | rfl <;> simp [walkExtensions])
  | @options next position header h hload rest ih =>
    cases depth with
    | zero => exact .inr ⟨next, position, rfl, by rcases h with rfl | rfl | rfl <;> decide⟩
    | succ depth =>
      have hstep : walkExtensions bytes (depth + 1) next position =
          walkExtensions bytes depth (header[0]?.getD 0)
            (position + ((header[1]?.getD 0).toNat + 1) * 8) := by
        rcases h with rfl | rfl | rfl <;> simp [walkExtensions, hload]
      rw [hstep]
      exact ih depth
  | @authentication position header hload rest ih =>
    cases depth with
    | zero => exact .inr ⟨51, position, rfl, by decide⟩
    | succ depth =>
      rw [show walkExtensions bytes (depth + 1) 51 position = walkExtensions bytes depth
        (header[0]?.getD 0) (position + ((header[1]?.getD 0).toNat + 2) * 4) by
          simp [walkExtensions, hload]]
      exact ih depth
  | @fragment position header hload first rest ih =>
    cases depth with
    | zero => exact .inr ⟨44, position, rfl, by decide⟩
    | succ depth =>
      rw [show walkExtensions bytes (depth + 1) 44 position = walkExtensions bytes depth
        (header[0]?.getD 0) (position + 8) by simp [walkExtensions, hload, first]]
      exact ih depth

/-- The packet `skb`, on a link with this header, has its IPv6 header at
`offset` and carries the TCP or UDP tuple `tuple`. -/
structure Carries (header : PacketHeader) (skb : Skb) (offset : Nat) (tuple : Tuple) : Prop where
  ipv6 : ipv6Offset skb.bytes (header = .ethernet ∨ header = .loopback) = some offset
  length : offset + 40 ≤ skb.bytes.length
  source : tuple.source = .v6 (hookAddress skb offset false) ""
  destination : tuple.destination = .v6 (hookAddress skb offset true) ""
  transport : ∃ next, skb.bytes[offset + 6]? = some next ∧ Transports skb.bytes next (offset + 40)

/-- The packet with an address written to it. -/
def Bpf.Skb.write (skb : Skb) (offset : Nat) (a : Addr) : Skb :=
  { skb with bytes := splice skb.bytes offset a.toList }

variable {skb : Skb} {offset : Nat} {ingress : Bool}

theorem Bpf.Skb.write_hookAddress (hrange : addressOffset offset ingress + 16 ≤ skb.bytes.length) :
    skb.write (addressOffset offset ingress) (hookAddress skb offset ingress) = skb := by
  have hlen := length_slice skb.bytes (addressOffset offset ingress) 16 hrange
  rw [Bpf.Skb.write, hookAddress, toList_toAddr _ hlen, splice_slice _ _ _ hrange]

variable {a : Addr}

theorem Bpf.Skb.write_inj {b : Addr} (hrange : offset + 16 ≤ skb.bytes.length)
    (h : skb.write offset a = skb.write offset b) :
    a = b := by
  have hbytes : splice skb.bytes offset a.toList = splice skb.bytes offset b.toList :=
    congrArg Skb.bytes h
  have ha := slice_splice_self skb.bytes offset a.toList (by simpa using hrange)
  have hb := slice_splice_self skb.bytes offset b.toList (by simpa using hrange)
  rw [Vector.length_toList] at ha hb
  exact Vector.toList_inj.mp (ha.symm.trans (hbytes ▸ hb))

variable {header : PacketHeader} {tuple : Tuple}

theorem Carries.range (h : Carries header skb offset tuple) (ingress : Bool) :
    addressOffset offset ingress + 16 ≤ skb.bytes.length :=
  (addressOffset_bounds offset ingress).2.1.trans h.length

/-- Behind a store to an address field there is still no ICMPv6 header. -/
theorem Carries.translateIcmpError_eq (h : Carries header skb offset tuple) (fails : Nat → Bool)
    (pair : NptPair) (ingress outbound : Bool) (a : Addr) :
    translateIcmpError fails (skb.write (addressOffset offset ingress) a).bytes pair offset
        outbound = some (skb.write (addressOffset offset ingress) a).bytes := by
  obtain ⟨next, hnext, htrans⟩ := h.transport
  obtain ⟨hlow, hhigh, -⟩ := addressOffset_bounds offset ingress
  have hfit : addressOffset offset ingress + a.toList.length ≤ skb.bytes.length := by
    simpa using h.range ingress
  have hagree : AgreeOn (fun i => i < offset + 8 ∨ offset + 40 ≤ i)
      (skb.write (addressOffset offset ingress) a).bytes skb.bytes :=
    ((AgreeOn.refl (fun _ => True) skb.bytes).splice_left _ a.toList hfit).mono
      fun i hi => ⟨trivial, by simp; omega⟩
  have hbyte : loadByte (skb.write (addressOffset offset ingress) a).bytes (offset + 6) =
      some next := (hagree.2 (offset + 6) (.inl (by omega))).trans hnext
  have hwalk := walkExtensions_congr (hagree.mono fun i hi => .inr hi) 16 next (offset + 40)
    (le_refl _)
  rw [translateIcmpError, hbyte]
  simp only [Option.bind_eq_bind, Option.bind_some, hwalk]
  rcases htrans.walk 16 with hend | ⟨next', position, hreached, hne⟩
  · rw [hend]; rfl
  · rw [hreached]
    simp only [if_pos hne]
    rfl

/-! ## The kernel side -/

/-- The BPF maps hold exactly the policies built from the pairs, without a
failure, and the links have different indices. -/
structure Deployed (host : Host) (cfg : Config) (pairs : Pairs)
    (maps : UInt32 → Option NptPolicy) : Prop where
  complete : (interfacePolicies host cfg pairs).failures = []
  valid : ∀ p ∈ (interfacePolicies host cfg pairs).policies, ∃ value,
    policyValue p (host.packetHeader p.ifIndex) = .ok value
  holds : ∀ (i : UInt32) value, maps i = some value ↔
    ∃ p ∈ (interfacePolicies host cfg pairs).policies, p.ifIndex = i.toNat ∧
      policyValue p (host.packetHeader p.ifIndex) = .ok value
  links : ∀ wan ∈ cfg.wans, ∀ index, host.linkByName wan.iface = some index →
    host.linkByName cfg.internalIface ≠ some index ∧
    ∀ wan' ∈ cfg.wans, host.linkByName wan'.iface = some index → wan' = wan

variable {value : NptPolicy}

theorem policyValue_ethernet {p : InterfacePolicy} (h : policyValue p header = .ok value) :
    (value.ethernet ≠ 0) = (header = .ethernet ∨ header = .loopback) := by
  simp only [policyValue, Exec.except_bind_eq_ok, Exec.except_ite_eq_ok, Exec.except_throw_eq_ok,
    Exec.except_pure_eq_ok, and_false, false_and, false_or, exists_false] at h
  obtain ⟨-, ethernet, heth, _, _, rfl⟩ := h
  cases header <;> simp_all [ethernetValue, Exec.except_pure_eq_ok, Exec.except_throw_eq_ok]

/-- A hook of an external interface with one pair. -/
theorem process_single {maps : UInt32 → Option NptPolicy} {i : Nat}
    (hv : policyValue ⟨i, false, [pair]⟩ header = .ok value) (hm : maps skb.ifIndex = some value)
    (hc : Carries header skb offset tuple) (ingress : Bool) :
    process maps (fun _ => false) skb ingress =
      (kernelMap pair (!ingress) (hookAddress skb offset ingress)).map
        (skb.write (addressOffset offset ingress)) := by
  have henc := encodes_of_policyValue hv
  have hprep : Prepares (value.pair 0) pair := henc.prepares 0 pair rfl
  have hint : ¬ value.internal ≠ 0 := fun h => by simpa using henc.internal.mp h
  obtain ⟨selected, hs, hlong, hnone⟩ := henc.selectPair_longest
    (.inr rfl : ingress = true ∨ false = false) skb.priority (hookAddress skb offset ingress)
  have hproc := process_eq hm (by simp only [policyValue_ethernet hv]; exact hc.ipv6)
    (hc.range ingress) hs fun _ => false
  have hclear : clearTag value skb ingress = skb := if_neg fun h => hint h.1
  rw [hproc, kernelMap, mapUnless, Bool.not_not]
  cases hin : pairContains pair ingress (hookAddress skb offset ingress) with
  | false =>
    obtain rfl : selected = none := hnone.mpr (by simpa using hin)
    simp [translateSelected, hclear, Skb.write_hookAddress (hc.range ingress)]
  | true =>
    obtain rfl : selected = some 0 := (hlong 0).mpr ⟨pair, rfl, hin, by
      intro j other hj _
      cases j with
      | zero => exact .inr ⟨by rw [← Option.some.inj hj], le_refl _⟩
      | succ j => simp at hj⟩
    have hex := hprep.excepted_iff (hookAddress skb offset ingress) (!ingress)
    cases he : ((exceptions pair !ingress).map NetipAddr.as16).contains
        (hookAddress skb offset ingress) with
    | true =>
      have hex : excepted (value.pair 0) (hookAddress skb offset ingress) (!ingress) = true :=
        hex.mpr (by simpa using he)
      simp [translateSelected, hclear, hex, hint, Skb.write_hookAddress (hc.range ingress)]
    | false =>
      have hex : excepted (value.pair 0) (hookAddress skb offset ingress) (!ingress) = false := by
        rw [Bool.eq_false_iff, ne_eq, hex]
        simpa using he
      simp only [translateSelected, hclear, hex, hprep.translate_eq]
      cases pairTranslate pair (!ingress) (hookAddress skb offset ingress) with
      | none => rfl
      | some b =>
        have hstore : store (fun _ => false) skb.bytes (addressOffset offset ingress) b.toList =
            some (skb.write (addressOffset offset ingress) b).bytes := by
          simp [store, Skb.write, hc.range ingress]
        simp only [Option.bind_eq_bind, Option.bind_some, hstore, hc.translateIcmpError_eq]
        simp [setTag, hint, Skb.write]

section Deployed

variable {host : Host} {cfg : Config} {pairs : Pairs} {maps : UInt32 → Option NptPolicy}

variable {i : UInt32} {wan : Wan}

section

variable (hd : Deployed host cfg pairs maps)

include hd

/-- The policy of a WAN's interface, if it has a pair. -/
theorem Deployed.wan_policy (hw : wan ∈ cfg.wans) (hi : host.linkByName wan.iface = some i.toNat) :
    (pairs.lookup wan.key = none → maps i = none) ∧
    ∀ pair, pairs.lookup wan.key = some pair → ∃ value, maps i = some value ∧
      policyValue ⟨i.toNat, false, [pair]⟩ (host.packetHeader i.toNat) = .ok value := by
  obtain ⟨internalIndex, kept, hpol, hint, hfound, hall⟩ := interfacePolicies_complete hd.complete
  obtain ⟨hne, huniq⟩ := hd.links wan hw i.toNat hi
  constructor
  · intro hnone
    rw [Option.eq_none_iff_forall_ne_some]
    intro value hvalue
    obtain ⟨p, hp, hidx, -⟩ := (hd.holds i value).mp hvalue
    rw [hpol, mem_keptPolicies] at hp
    rcases hp with ⟨k, hk, rfl⟩ | ⟨hk, rfl⟩
    · obtain ⟨hkw, hkf⟩ := hfound k hk
      have hkwan := huniq k.wan hkw (hidx ▸ hkf.index)
      have := hkf.pair
      rw [hkwan, hnone] at this
      cases this
    · exact hne (hidx ▸ hint hk)
  · intro pair hpair
    obtain ⟨k, hk, hkw, rfl⟩ := hall wan hw pair hpair
    have hkf := (hfound k hk).2
    have hidx : k.index = i.toNat := by
      have := hkf.index
      rw [hkw, hi] at this
      exact (Option.some.inj this).symm
    have hmem : ⟨i.toNat, false, [k.pair]⟩ ∈ (interfacePolicies host cfg pairs).policies := by
      rw [hpol, mem_keptPolicies]
      exact .inl ⟨k, hk, by rw [Kept.policy, hidx]⟩
    obtain ⟨value, hvalue⟩ := hd.valid _ hmem
    exact ⟨value, (hd.holds i value).mpr ⟨_, hmem, rfl, hvalue⟩, hvalue⟩

/-- The policy of the internal interface holds published pairs. -/
theorem Deployed.internal_policy (hi : host.linkByName cfg.internalIface = some i.toNat)
    (hm : maps i = some value) :
    ∃ list : List PrefixPair, policyValue ⟨i.toNat, true, list⟩ (host.packetHeader i.toNat) =
        .ok value ∧ ∀ pair ∈ list, ∃ key, ⟨key, pair⟩ ∈ pairs.entries := by
  obtain ⟨internalIndex, kept, hpol, hint, hfound, -⟩ := interfacePolicies_complete hd.complete
  obtain ⟨p, hp, hidx, hvalue⟩ := (hd.holds i value).mp hm
  rw [hpol, mem_keptPolicies] at hp
  rcases hp with ⟨k, hk, rfl⟩ | ⟨hk, rfl⟩
  · obtain ⟨hkw, hkf⟩ := hfound k hk
    exact absurd hi (hd.links k.wan hkw i.toNat (hidx ▸ hkf.index)).1
  · obtain rfl : internalIndex = i.toNat := hidx
    refine ⟨_, hvalue, fun pair hpair => ?_⟩
    obtain ⟨k, hk, rfl⟩ := List.mem_map.mp hpair
    exact ⟨k.wan.key, AList.mem_lookup_iff.mp (hfound k hk).2.pair⟩

/-- A hook of a WAN's interface. -/
theorem Deployed.process_wan (hw : wan ∈ cfg.wans)
    (hi : host.linkByName wan.iface = some skb.ifIndex.toNat)
    (hc : Carries (host.packetHeader skb.ifIndex.toNat) skb offset tuple) (ingress : Bool) :
    process maps (fun _ => false) skb ingress =
      ((pairs.lookup wan.key).elim some (kernelMap · (!ingress))
        (hookAddress skb offset ingress)).map (skb.write (addressOffset offset ingress)) := by
  obtain ⟨hnone, hsome⟩ := hd.wan_policy hw hi
  cases hpair : pairs.lookup wan.key with
  | none =>
    rw [process, hnone hpair]
    simp [Skb.write_hookAddress (hc.range ingress)]
  | some pair =>
    obtain ⟨value, hm, hv⟩ := hsome pair hpair
    exact process_single hv hm hc ingress

/-- The pairs of a WAN are accepted ones. -/
theorem Deployed.validatePair_wan (hw : wan ∈ cfg.wans)
    (hi : host.linkByName wan.iface = some i.toNat) (hpair : pairs.lookup wan.key = some pair) :
    validatePair pair = .ok () := by
  obtain ⟨value, -, hv⟩ := (hd.wan_policy hw hi).2 pair hpair
  exact ((encodes_of_policyValue hv).prepares 0 pair rfl).valid

end

end Deployed

/-! ## The Go side on a WAN's pair -/

/-- The tuple with the address a hook looks at replaced. -/
def Tuple.withAddress (tuple : Tuple) (ingress : Bool) (address : NetipAddr) : Tuple :=
  if ingress then { tuple with destination := address } else { tuple with source := address }

/-- The results of both functions: the tuple with the mapped address, or the
tuple and a refusal. -/
def mappedTuple (tuple : Tuple) (ingress : Bool) : Option Addr → Tuple × Bool
  | none => (tuple, false)
  | some b => (tuple.withAddress ingress (.v6 b ""), true)

/-- The branches of the Go side, on the pair of a WAN. -/
theorem mappedTuple_nativeMap (hv : validatePair pair = .ok ()) (ingress : Bool)
    (hsame : tuple.withAddress ingress (.v6 a "") = tuple) :
    (if !(source pair (!ingress)).contains (.v6 a "") ||
        (exceptions pair (!ingress)).contains (.v6 a "") then (tuple, true)
      else match translateAddress pair (.v6 a "") (!ingress) with
        | .error _ => (tuple, false)
        | .ok address => (tuple.withAddress ingress address, true)) =
      mappedTuple tuple ingress (nativeMap pair (!ingress) a) := by
  rw [contains_eq_pairContains hv, nativeMap, mapUnless]
  cases hc : pairContains pair (!(!ingress)) a with
  | false => simp [mappedTuple, hsame]
  | true =>
    cases he : (exceptions pair (!ingress)).contains (NetipAddr.v6 a "") with
    | true => simp [mappedTuple, hsame]
    | false =>
      simp only [Bool.not_true, Bool.or_self, Bool.false_eq_true, if_false, Bool.not_false,
        Bool.and_self, if_true]
      cases hr : translateAddress pair (.v6 a "") (!ingress) with
      | ok r =>
        obtain ⟨a', b, ha, rfl, hb⟩ := (translateAddress_eq_ok hv ..).mp hr
        cases ha
        rw [hb, mappedTuple]
      | error e =>
        cases hp : pairTranslate pair (!ingress) a with
        | none => rfl
        | some b =>
          rw [(translateAddress_eq_ok hv (.v6 a "") (.v6 b "") _).mpr ⟨a, b, rfl, rfl, hp⟩] at hr
          cases hr

theorem ingressTuple_wan {pairs : Pairs} {link : BoundLink} (hl : link.internal = false)
    (hvalid : ∀ pair, pairs.lookup link.connection = some pair → validatePair pair = .ok ())
    (h6 : tuple.source.is4 = false) (ha : tuple.destination = .v6 a "") :
    ingressTuple pairs link tuple = mappedTuple tuple true
      ((pairs.lookup link.connection).elim some (nativeMap · false) a) := by
  have hsame : tuple.withAddress true (.v6 a "") = tuple := by
    rw [← ha]; rfl
  simp only [ingressTuple, h6, hl, Bool.false_eq_true, if_false]
  cases hpair : pairs.lookup link.connection with
  | none => simp [mappedTuple, hsame]
  | some pair =>
    simp only [ha]
    exact mappedTuple_nativeMap (hvalid pair hpair) true hsame

theorem translateSource_eq {pairs : Pairs} {wan : String}
    (hvalid : ∀ pair, pairs.lookup wan = some pair → validatePair pair = .ok ())
    (ha : tuple.source = .v6 a "") :
    translateSource pairs wan tuple = mappedTuple tuple false
      ((pairs.lookup wan).elim some (nativeMap · true) a) := by
  have hsame : tuple.withAddress false (.v6 a "") = tuple := by
    rw [← ha]; rfl
  simp only [translateSource]
  cases hpair : pairs.lookup wan with
  | none => simp [mappedTuple, hsame]
  | some pair =>
    simp only [ha]
    exact mappedTuple_nativeMap (hvalid pair hpair) false hsame

/-! ## Agreement -/

/-- The Go side succeeds exactly when the hook does not drop the packet, and
then its tuple has the address that the hook writes. -/
structure Agrees (tuple : Tuple) (result : Tuple × Bool) (skb : Skb) (offset : Nat)
    (ingress : Bool) (out : Option Skb) : Prop where
  accepted : result.2 = true ↔ out ≠ none
  address : ∀ skb', out = some skb' → ∃ b, result.1 = tuple.withAddress ingress (.v6 b "") ∧
    skb' = skb.write (addressOffset offset ingress) b

theorem Tuple.withAddress_inj {b : Addr}
    (h : tuple.withAddress ingress (.v6 a "") = tuple.withAddress ingress (.v6 b "")) : a = b := by
  cases ingress
  · exact (NetipAddr.v6.inj (congrArg Tuple.source h)).1
  · exact (NetipAddr.v6.inj (congrArg Tuple.destination h)).1

theorem agrees_iff (hrange : addressOffset offset ingress + 16 ≤ skb.bytes.length)
    (native kernel : Option Addr) :
    Agrees tuple (mappedTuple tuple ingress native) skb offset ingress
      (kernel.map (skb.write (addressOffset offset ingress))) ↔ native = kernel := by
  constructor
  · intro h
    cases native with
    | none =>
      have := h.accepted
      simpa [mappedTuple, eq_comm] using this
    | some b =>
      cases kernel with
      | none => simpa [mappedTuple] using h.accepted
      | some c =>
        obtain ⟨d, htuple, hwrite⟩ := h.address _ rfl
        rw [Tuple.withAddress_inj htuple, Skb.write_inj hrange hwrite]
  · intro h
    subst h
    cases native with
    | none => exact ⟨by simp [mappedTuple], by simp⟩
    | some b => exact ⟨by simp [mappedTuple], fun skb' h => ⟨b, rfl, (Option.some.inj h).symm⟩⟩

/-- The mappings of a native rule and of the kernel path agree on a packet, on
whatever interface it is: entering at a WAN, entering at the internal
interface, and leaving at a WAN. -/
structure MappingAgrees (host : Host) (cfg : Config) (pairs : Pairs)
    (maps : UInt32 → Option NptPolicy) (skb : Skb) (offset : Nat) (tuple : Tuple) : Prop where
  entering : ∀ wan ∈ cfg.wans, host.linkByName wan.iface = some skb.ifIndex.toNat →
    Agrees tuple (ingressTuple pairs ⟨false, wan.key⟩ tuple) skb offset true
      (process maps (fun _ => false) skb true)
  internal : host.linkByName cfg.internalIface = some skb.ifIndex.toNat →
    ∀ connection, (ingressTuple pairs ⟨true, connection⟩ tuple).2 = true →
      process maps (fun _ => false) skb true = some skb ∧
      ∀ (later : Skb) (fails : Nat → Bool), later.ifIndex = skb.ifIndex →
        later.priority = skb.priority → ∀ r, process maps fails later false = some r → r = later
  leaving : ∀ wan ∈ cfg.wans, host.linkByName wan.iface = some skb.ifIndex.toNat →
    Agrees tuple (translateSource pairs wan.key tuple) skb offset false
      (process maps (fun _ => false) skb false)

section Internal

variable {host : Host} {cfg : Config} {pairs : Pairs} {maps : UInt32 → Option NptPolicy}

/-- A packet whose destination no published pair translates passes the
internal interface's ingress as it is. -/
theorem Deployed.process_internal (hd : Deployed host cfg pairs maps)
    (hi : host.linkByName cfg.internalIface = some skb.ifIndex.toNat)
    (hc : Carries (host.packetHeader skb.ifIndex.toNat) skb offset tuple)
    (hu : tagged skb.priority = false) {connection : String}
    (h : (ingressTuple pairs ⟨true, connection⟩ tuple).2 = true) :
    process maps (fun _ => false) skb true = some skb := by
  cases hm : maps skb.ifIndex with
  | none => rw [process, hm]
  | some value =>
    obtain ⟨list, hv, hpub⟩ := hd.internal_policy hi hm
    have henc := encodes_of_policyValue hv
    obtain ⟨selected, hs, hlong, -⟩ := henc.selectPair_longest
      (.inl rfl : true = true ∨ _) skb.priority (hookAddress skb offset true)
    have hclear : clearTag value skb true = skb := if_neg (by simp [hu])
    rw [process_eq hm (by simp only [policyValue_ethernet hv]; exact hc.ipv6) (hc.range true) hs]
    cases selected with
    | none => simp [translateSelected, hclear]
    | some j =>
      obtain ⟨pair, hpair, hin, -⟩ := (hlong j).mp rfl
      have hprep := henc.prepares j pair hpair
      obtain ⟨key, hkey⟩ := hpub pair (List.mem_of_getElem? hpair)
      -- every published pair that contains the destination lists it as an exception
      have hexc : NetipAddr.v6 (hookAddress skb offset true) "" ∈ pair.destinationExceptions := by
        by_contra hno
        have hcontains := (contains_eq_pairContains hprep.valid false _).trans hin
        have hany : (pairs.entries.any fun entry => entry.2.external.contains tuple.destination &&
            !entry.2.destinationExceptions.contains tuple.destination) = true :=
          List.any_eq_true.mpr ⟨_, hkey, by
            rw [hc.destination, Bool.and_eq_true]
            exact ⟨hcontains, by simpa using hno⟩⟩
        have h6 : tuple.source.is4 = false := by rw [hc.source]; rfl
        simp only [ingressTuple, h6, hany, Bool.false_eq_true, if_false, if_true] at h
      have hex : excepted (value.pair j) (hookAddress skb offset true) false = true :=
        (hprep.excepted_iff _ false).mpr (List.mem_map.mpr ⟨_, hexc, rfl⟩)
      simp [translateSelected, hclear, hex]

/-- Without a tag the internal interface's egress translates nothing. -/
theorem Deployed.process_internal_egress (hd : Deployed host cfg pairs maps) {r : Skb}
    (hi : host.linkByName cfg.internalIface = some skb.ifIndex.toNat)
    (hu : tagged skb.priority = false) {fails : Nat → Bool}
    (h : process maps fails skb false = some r) : r = skb := by
  unfold process at h
  split at h
  · exact (Option.some.inj h).symm
  · next value hm =>
    obtain ⟨list, hv, -⟩ := hd.internal_policy hi hm
    split at h
    · exact (Option.some.inj h).symm
    · next offset ho =>
      obtain ⟨loaded, -, h⟩ := Option.bind_eq_some_iff.mp h
      obtain ⟨selected, hs, h⟩ := Option.bind_eq_some_iff.mp h
      obtain ⟨selected', hs', htag⟩ := (encodes_of_policyValue hv).selectPair_tag rfl skb.priority
        (toAddr loaded)
      obtain rfl : selected = selected' := Option.some.inj (hs.symm.trans hs')
      have hnone : selected = none := by
        rw [Option.eq_none_iff_forall_ne_some]
        intro j hj
        obtain ⟨pair, -, hp⟩ := (htag j).mp hj
        rw [hp, tagged_hairpinTag] at hu
        cases hu
      have hclear : clearTag value skb false = skb := if_neg (by simp)
      simp only [hnone, translateSelected, hclear, Option.some.injEq] at h
      exact h.symm

/-- On an untagged TCP or UDP packet over IPv6 the native rule's mapping and
the kernel path agree exactly if the WAN's pair has no exception for its
address that only a zone tells from it. -/
theorem mappingAgrees_iff (hd : Deployed host cfg pairs maps) {skb : Skb} {offset : Nat}
    {tuple : Tuple} (hc : Carries (host.packetHeader skb.ifIndex.toNat) skb offset tuple)
    (hu : tagged skb.priority = false) :
    MappingAgrees host cfg pairs maps skb offset tuple ↔
      ∀ wan ∈ cfg.wans, host.linkByName wan.iface = some skb.ifIndex.toNat →
        ∀ pair, pairs.lookup wan.key = some pair →
          hiddenException pair false (hookAddress skb offset true) = false ∧
          hiddenException pair true (hookAddress skb offset false) = false := by
  -- both hooks of a WAN, given what the Go side computes there
  have hhook (ingress : Bool) {result : Tuple × Bool} {wan : Wan} (hw : wan ∈ cfg.wans)
      (hi : host.linkByName wan.iface = some skb.ifIndex.toNat)
      (hresult : result = mappedTuple tuple ingress ((pairs.lookup wan.key).elim some
        (nativeMap · (!ingress)) (hookAddress skb offset ingress))) :
      Agrees tuple result skb offset ingress (process maps (fun _ => false) skb ingress) ↔
        ∀ pair, pairs.lookup wan.key = some pair →
          hiddenException pair (!ingress) (hookAddress skb offset ingress) = false := by
    rw [hd.process_wan hw hi hc, hresult, agrees_iff (hc.range ingress)]
    cases pairs.lookup wan.key with
    | none => simp
    | some pair => simpa using nativeMap_eq_iff pair (!ingress) (hookAddress skb offset ingress)
  have hentering (wan : Wan) (hw : wan ∈ cfg.wans) (hi) := hhook true hw hi
    (@ingressTuple_wan _ _ pairs ⟨false, wan.key⟩ rfl (fun pair => hd.validatePair_wan hw hi) (by rw [hc.source]; rfl)
      hc.destination)
  have hleaving (wan : Wan) (hw : wan ∈ cfg.wans) (hi) := hhook false hw hi
    (translateSource_eq (fun pair => hd.validatePair_wan hw hi) hc.source)
  constructor
  · intro h wan hw hi pair hpair
    exact ⟨(hentering wan hw hi).mp (h.entering wan hw hi) pair hpair,
      (hleaving wan hw hi).mp (h.leaving wan hw hi) pair hpair⟩
  · intro h
    exact {
      entering := fun wan hw hi => (hentering wan hw hi).mpr fun pair hp => (h wan hw hi pair hp).1
      internal := fun hi connection hok => by
        refine ⟨hd.process_internal hi hc hu hok, fun later fails hidx hprio r hr => ?_⟩
        exact hd.process_internal_egress (by rw [hidx]; exact hi) (by rw [hprio]; exact hu) hr
      leaving := fun wan hw hi => (hleaving wan hw hi).mpr fun pair hp => (h wan hw hi pair hp).2 }

end Internal

/-! ## A deployment -/

/-- The maps after every policy has been written. -/
def mapsOf (host : Host) (cfg : Config) (pairs : Pairs) (i : UInt32) : Option NptPolicy :=
  ((interfacePolicies host cfg pairs).policies.find? (·.ifIndex = i.toNat)).bind fun p =>
    (policyValue p (host.packetHeader p.ifIndex)).toOption

/-- The links have different indices. -/
def LinksApart (host : Host) (cfg : Config) : Prop :=
  ∀ wan ∈ cfg.wans, ∀ index, host.linkByName wan.iface = some index →
    host.linkByName cfg.internalIface ≠ some index ∧
    ∀ wan' ∈ cfg.wans, host.linkByName wan'.iface = some index → wan' = wan

theorem deployed_mapsOf {host : Host} {cfg : Config} {pairs : Pairs}
    (complete : (interfacePolicies host cfg pairs).failures = [])
    (valid : ∀ p ∈ (interfacePolicies host cfg pairs).policies,
      (policyValue p (host.packetHeader p.ifIndex)).toOption.isSome = true)
    (distinct : ((interfacePolicies host cfg pairs).policies.map InterfacePolicy.ifIndex).Nodup)
    (links : LinksApart host cfg) : Deployed host cfg pairs (mapsOf host cfg pairs) where
  complete := complete
  valid p hp := by
    obtain ⟨value, hvalue⟩ := Option.isSome_iff_exists.mp (valid p hp)
    exact ⟨value, Exec.except_toOption_eq_some.mp hvalue⟩
  holds i value := by
    simp only [mapsOf, Option.bind_eq_some_iff, Exec.except_toOption_eq_some]
    constructor
    · intro ⟨p, hfind, hvalue⟩
      exact ⟨p, List.mem_of_find?_eq_some hfind, by simpa using List.find?_some hfind, hvalue⟩
    · intro ⟨p, hp, hidx, hvalue⟩
      refine ⟨p, ?_, hvalue⟩
      obtain ⟨q, hq⟩ := Option.isSome_iff_exists.mp
        (List.find?_isSome.mpr ⟨p, hp, decide_eq_true hidx⟩ :
          (List.find? (·.ifIndex = i.toNat) _).isSome = true)
      have hqi : q.ifIndex = i.toNat := by simpa using List.find?_some hq
      rw [hq, List.inj_on_of_nodup_map distinct (List.mem_of_find?_eq_some hq) hp
        (hqi.trans hidx.symm)]
  links := links

/-- One WAN on interface 3, with internal interface 2. -/
def siteConfig : Config := ⟨"lan0", [⟨"wan-a", "eth1"⟩]⟩

def siteHost : Host where
  linkByName iface := if iface = "lan0" then some 2 else if iface = "eth1" then some 3 else none
  internalPrefixRouteReady _ _ := true
  packetHeader _ := .none

theorem siteHost_links : LinksApart siteHost siteConfig := by
  intro wan hw index hi
  obtain rfl : wan = ⟨"wan-a", "eth1"⟩ := by simpa [siteConfig] using hw
  obtain rfl : 3 = index := by simpa [siteHost] using hi
  exact ⟨by decide, fun wan' hw' _ => by simpa [siteConfig] using hw'⟩

/-- `sitePair` with two edges as source exceptions, `fd00:0:0:1::2` and
`fd00:0:0:1::3` of the given zone. -/
def edgePair (zone : String) : PrefixPair :=
  { sitePair with
    sourceExceptions := [.v6 #v[0xfd, 0, 0, 0, 0, 0, 0, 1, 0, 0, 0, 0, 0, 0, 0, 2] "",
      .v6 #v[0xfd, 0, 0, 0, 0, 0, 0, 1, 0, 0, 0, 0, 0, 0, 0, 3] zone] }

def edgePairs (zone : String) : Pairs := AList.singleton "wan-a" (edgePair zone)

/-- A UDP packet from `fd00:0:0:1::3` to `2001:db8:0:9::1` that leaves at the
WAN. -/
def edgePacket : Skb where
  ifIndex := 3
  priority := 0
  mark := 0
  bytes := [0x60, 0, 0, 0, 0, 8, 17, 64, 0xfd, 0, 0, 0, 0, 0, 0, 1, 0, 0, 0, 0, 0, 0, 0, 3,
    0x20, 0x01, 0x0d, 0xb8, 0, 0, 0, 9, 0, 0, 0, 0, 0, 0, 0, 1, 0x10, 0, 0x20, 0, 0, 8, 0xab, 0xcd]

def edgeTuple : Tuple where
  source := .v6 #v[0xfd, 0, 0, 0, 0, 0, 0, 1, 0, 0, 0, 0, 0, 0, 0, 3] ""
  destination := .v6 #v[0x20, 0x01, 0x0d, 0xb8, 0, 0, 0, 9, 0, 0, 0, 0, 0, 0, 0, 1] ""
  protocol := 17
  sourcePort := 0x1000
  destinationPort := 0x2000
  zone := 0

/-- `2001:db8:0:1:cf47::3`, the image of `fd00:0:0:1::3` -/
def edgeImage : NetipAddr :=
  .v6 #v[0x20, 0x01, 0x0d, 0xb8, 0, 0, 0, 1, 0xcf, 0x47, 0, 0, 0, 0, 0, 3] ""

theorem carries_edgePacket : Carries .none edgePacket 0 edgeTuple where
  ipv6 := by decide +kernel
  length := by decide
  source := by decide +kernel
  destination := by decide +kernel
  transport := ⟨17, by decide, .upper (.inr rfl)⟩

/-- The second edge is an exception under the zone `br0`: the program lets the
packet pass as it is, and `translateSource` translates its source. -/
theorem mappingDiffers_zone :
    Deployed siteHost siteConfig (edgePairs "br0") (mapsOf siteHost siteConfig (edgePairs "br0")) ∧
      Carries (siteHost.packetHeader edgePacket.ifIndex.toNat) edgePacket 0 edgeTuple ∧
      tagged edgePacket.priority = false ∧
      process (mapsOf siteHost siteConfig (edgePairs "br0")) (fun _ => false) edgePacket false =
        some edgePacket ∧
      translateSource (edgePairs "br0") "wan-a" edgeTuple =
        ({ edgeTuple with source := edgeImage }, true) ∧
      ¬ MappingAgrees siteHost siteConfig (edgePairs "br0")
        (mapsOf siteHost siteConfig (edgePairs "br0")) edgePacket 0 edgeTuple := by
  have hproc : process (mapsOf siteHost siteConfig (edgePairs "br0")) (fun _ => false) edgePacket
      false = some edgePacket := by decide +kernel
  have hnative : translateSource (edgePairs "br0") "wan-a" edgeTuple =
      ({ edgeTuple with source := edgeImage }, true) := by decide +kernel
  refine ⟨deployed_mapsOf (by decide +kernel) (by decide +kernel) (by decide +kernel) siteHost_links,
    carries_edgePacket, by decide, hproc, hnative, fun h => ?_⟩
  have hwan : (⟨"wan-a", "eth1"⟩ : Wan) ∈ siteConfig.wans := by decide
  obtain ⟨b, htuple, hwrite⟩ := (h.leaving _ hwan (by decide)).address _ hproc
  -- the program writes the source it found, the tuple has another one
  rw [hnative] at htuple
  have hb := (NetipAddr.v6.inj (congrArg Tuple.source htuple)).1
  rw [← hb] at hwrite
  revert hwrite
  decide +kernel

theorem mappingAgrees_iff_edgePacket :
    MappingAgrees siteHost siteConfig (edgePairs "") (mapsOf siteHost siteConfig (edgePairs ""))
      edgePacket 0 edgeTuple := by
  have hdeployed : Deployed siteHost siteConfig (edgePairs "") _ :=
    deployed_mapsOf (by decide +kernel) (by decide +kernel) (by decide +kernel) siteHost_links
  refine (mappingAgrees_iff hdeployed carries_edgePacket (by decide)).mpr ?_
  intro wan hw _ pair hpair
  obtain rfl : wan = ⟨"wan-a", "eth1"⟩ := by simpa [siteConfig] using hw
  obtain rfl : edgePair "" = pair := Option.some.inj hpair
  decide +kernel

end Mwan.Npt

import Mwan.L3Protocol.Npt.Program

/-!
# The BPF programs keep checksums valid (`npt/bpf/npt.c`)

`process` rewrites whole addresses, each at an even distance from the outer
addresses and each neutrally. So the one's complement sum over the outer
addresses and what follows the IPv6 header stays the same, whatever the chain
of extension headers it walks.

Results:
* `Rewrites.agree`, `Rewrites.sum`: one rewritten address.
* `translateIcmpError_eq_some`: what the program does to an ICMPv6 error.
* `process_neutral`: an accepted packet.
-/
namespace Mwan.Npt.Bpf

open Mwan.Core Mwan.Npt

/-! ## One rewritten address -/

theorem toList_toAddr (l : Bytes) (h : l.length = 16) : (toAddr l).toList = l := by
  apply List.ext_getElem?
  intro i
  by_cases hi : i < 16
  · simp [toAddr, hi, h]
  · simp [toAddr, hi, show l.length ≤ i by omega]

/-- `bytes'` is `bytes` with the address at `o` translated. -/
structure Rewrites (pair : NptPair) (outbound : Bool) (bytes bytes' : Bytes) (o : Nat) : Prop where
  range : o + 16 ≤ bytes.length
  image : ∃ b, translate (toAddr (slice bytes o 16)) pair outbound = some b ∧
    bytes' = splice bytes o b.toList

variable {pair : NptPair} {o : Nat} {outbound : Bool} {bytes bytes' : Bytes}

theorem Rewrites.agree (h : Rewrites pair outbound bytes bytes' o) :
    AgreeOn (fun i => i < o ∨ o + 16 ≤ i) bytes' bytes := by
  obtain ⟨b, -, rfl⟩ := h.image
  refine ((AgreeOn.refl (fun _ => True) bytes).splice_left o b.toList ?_).mono ?_
  · rw [Vector.length_toList]; exact h.range
  · intro i hi
    rw [Vector.length_toList]
    exact ⟨trivial, by omega⟩

theorem Prepares.translate_sum {mapped : NptPair} {pair : PrefixPair} (hp : Prepares mapped pair)
    {a b : Addr} (h : translate a mapped outbound = some b) :
    sumTo b 8 % 65535 = sumTo a 8 % 65535 := by
  rw [hp.translate_eq] at h
  obtain ⟨k, htr⟩ := (pairTranslate_iff ..).mp h
  exact htr.sum (mapping_of_validated hp.valid outbound)

variable {p : PrefixPair}

/-- The sum over a window that starts at an even distance and does not cut
the address stays the same. -/
theorem Rewrites.sum (hp : Prepares pair p)
    (h : Rewrites pair outbound bytes bytes' o) {first n : Nat} (hpar : (o - first) % 2 = 0)
    (hf : first ≤ o) (hn : first + n ≤ o ∨ o + 16 ≤ first + n) :
    wordSum (slice bytes' first n) % 65535 = wordSum (slice bytes first n) % 65535 := by
  rcases hn with hn | hn
  · rw [h.agree.slice_eq first n fun i hi hi' => .inl (by omega)]
  · obtain ⟨b, hb, rfl⟩ := h.image
    have hrange := h.range
    have hlen : (b.toList).length = 16 := Vector.length_toList
    rw [slice_splice_inside _ _ _ (by omega) _ _ hf (by omega)]
    have hsum := wordSum_splice (slice bytes first n) (o - first) b.toList
      (by simp only [slice, List.length_take, List.length_drop]; omega) hpar (by omega)
    rw [hlen, slice_slice _ _ _ _ _ (by omega), show first + (o - first) = o by omega] at hsum
    have hold := wordSum_toList (toAddr (slice bytes o 16))
    rw [toList_toAddr _ (length_slice _ _ _ hrange)] at hold
    have hnew := wordSum_toList b
    have hres := hp.translate_sum hb
    omega

/-! ## Several rewritten addresses -/

/-- `bytes'` is `bytes` with the addresses at the given offsets translated, one
after the other. -/
inductive RewritesAll (pair : NptPair) (outbound : Bool) : List Nat → Bytes → Bytes → Prop
  | nil (bytes : Bytes) : RewritesAll pair outbound [] bytes bytes
  | cons {o : Nat} {offsets : List Nat} {bytes mid bytes' : Bytes}
      (first : Rewrites pair outbound bytes mid o)
      (rest : RewritesAll pair outbound offsets mid bytes') :
      RewritesAll pair outbound (o :: offsets) bytes bytes'

theorem RewritesAll.agree {offsets : List Nat}
    (h : RewritesAll pair outbound offsets bytes bytes') :
    AgreeOn (fun i => ∀ o ∈ offsets, i < o ∨ o + 16 ≤ i) bytes' bytes := by
  induction h with
  | nil => exact .refl _ _
  | cons first rest ih =>
    refine ⟨ih.1.trans first.agree.1, fun i hi => ?_⟩
    rw [ih.2 i fun o ho => hi o (.tail _ ho), first.agree.2 i (hi _ List.mem_cons_self)]

theorem RewritesAll.sum (hp : Prepares pair p) {offsets : List Nat}
    (h : RewritesAll pair outbound offsets bytes bytes') {first n : Nat}
    (hall : ∀ o ∈ offsets, first ≤ o ∧ (o - first) % 2 = 0)
    (hn : ∀ o ∈ offsets, first + n ≤ o ∨ o + 16 ≤ first + n) :
    wordSum (slice bytes' first n) % 65535 = wordSum (slice bytes first n) % 65535 := by
  induction h with
  | nil => rfl
  | cons head rest ih =>
    obtain ⟨hf, hpar⟩ := hall _ List.mem_cons_self
    rw [ih (fun o ho => hall o (.tail _ ho))
      (fun o ho => hn o (.tail _ ho))]
    exact head.sum hp hpar hf (hn _ List.mem_cons_self)

/-- Every rewritten address lies in the packet. -/
theorem RewritesAll.range {offsets : List Nat}
    (h : RewritesAll pair outbound offsets bytes bytes') :
    ∀ o ∈ offsets, o + 16 ≤ bytes.length := by
  induction h with
  | nil => simp
  | cons first rest ih =>
    exact List.forall_mem_cons.mpr ⟨first.range, fun o ho => first.agree.1 ▸ ih o ho⟩

/-! ## The walk over the extension headers -/

/-- The walk moves forward in even steps. -/
theorem walkExtensions_reached (bytes : Bytes) (depth : Nat) (next : UInt8) (position : Nat)
    {next' : UInt8} {position' : Nat}
    (h : walkExtensions bytes depth next position = .reached next' position') :
    position ≤ position' ∧ position' % 2 = position % 2 := by
  induction depth generalizing next position with
  | zero =>
    obtain ⟨-, rfl⟩ := Chain.reached.inj h
    exact ⟨le_refl _, rfl⟩
  | succ depth ih =>
    rw [walkExtensions] at h
    split at h
    · obtain ⟨-, rfl⟩ := Chain.reached.inj h
      exact ⟨le_refl _, rfl⟩
    · split at h
      · cases h
      · split at h
        · cases h
        · simp only at h
          split at h
          · split at h
            · cases h
            · have := ih _ _ h; omega
          · split at h <;> (have hle := ih _ _ h; omega)

/-- The walk reads nothing before its start. -/
theorem walkExtensions_congr {start : Nat}
    (h : AgreeOn (fun i => start ≤ i) bytes bytes') (depth : Nat) (next : UInt8) (position : Nat)
    (hs : start ≤ position) :
    walkExtensions bytes depth next position = walkExtensions bytes' depth next position := by
  induction depth generalizing next position with
  | zero => rfl
  | succ depth ih =>
    have hload : load bytes position 4 = load bytes' position 4 := by
      rw [load, load, h.1, h.slice_eq position 4 fun i hi _ => by omega]
    rw [walkExtensions, walkExtensions, hload]
    split
    · rfl
    · split
      · rfl
      · split
        · rfl
        · simp only
          rw [ih _ _ (by omega), ih _ _ (by omega), ih _ _ (by omega)]

/-! ## Quoted addresses -/

variable {offset : Nat}

theorem load_eq_some {l : Bytes} {n : Nat} (h : load bytes offset n = some l) :
    offset + n ≤ bytes.length ∧ l = slice bytes offset n := by
  unfold load at h
  split at h
  · next hle => exact ⟨hle, (Option.some.inj h).symm⟩
  · cases h

variable {fails : Nat → Bool}

/-- A store that succeeds writes the bytes. -/
theorem store_eq_some {new : Bytes} (h : store fails bytes offset new = some bytes') :
    bytes' = splice bytes offset new := by
  unfold store at h
  split at h
  · cases h
  · split at h
    · exact (Option.some.inj h).symm
    · cases h

theorem translateQuoted_eq_some (h : translateQuoted fails pair outbound bytes o = some bytes') :
    bytes' = bytes ∨ (Rewrites pair outbound bytes bytes' o ∧
      inPrefix pair (toAddr (slice bytes o 16)) outbound = true ∧
      excepted pair (toAddr (slice bytes o 16)) outbound = false) := by
  unfold translateQuoted at h
  obtain ⟨l, hl, h⟩ := Option.bind_eq_some_iff.mp h
  obtain ⟨hrange, rfl⟩ := load_eq_some hl
  simp only at h
  split at h
  · exact .inl (Option.some.inj h).symm
  · next hin =>
    split at h
    · exact .inl (Option.some.inj h).symm
    · next hex =>
      obtain ⟨b, hb, h⟩ := Option.bind_eq_some_iff.mp h
      exact .inr ⟨⟨hrange, b, hb, store_eq_some h⟩, by simpa using hin, by simpa using hex⟩

/-- The packet at `offset` is an ICMPv6 error message at `position` that
quotes an IPv6 packet. -/
structure IcmpError (bytes : Bytes) (offset position : Nat) : Prop where
  chain : ∃ next, bytes[offset + 6]? = some next ∧
    walkExtensions bytes 16 next (offset + 40) = .reached 58 position
  type : ∃ type, bytes[position]? = some type ∧ type < 128
  version : ∃ version, bytes[position + 8]? = some version ∧ version >>> 4 = 6

theorem translateIcmpError_eq_some
    (h : translateIcmpError fails bytes pair offset outbound = some bytes') :
    bytes' = bytes ∨ ∃ position mid, IcmpError bytes offset position ∧
      translateQuoted fails pair outbound bytes (position + 16) = some mid ∧
      translateQuoted fails pair outbound mid (position + 32) = some bytes' := by
  unfold translateIcmpError at h
  obtain ⟨next, hnext, h⟩ := Option.bind_eq_some_iff.mp h
  split at h
  · cases h
  · exact .inl (Option.some.inj h).symm
  · next next' position hwalk =>
    split at h
    · exact .inl (Option.some.inj h).symm
    · next h58 =>
      obtain rfl : next' = 58 := by simpa using h58
      obtain ⟨type, htype, h⟩ := Option.bind_eq_some_iff.mp h
      split at h
      · exact .inl (Option.some.inj h).symm
      · next hlt =>
        obtain ⟨version, hversion, h⟩ := Option.bind_eq_some_iff.mp h
        split at h
        · exact .inl (Option.some.inj h).symm
        · next h6 =>
          obtain ⟨mid, hmid, h⟩ := Option.bind_eq_some_iff.mp h
          obtain ⟨last, hlast, h⟩ := Option.bind_eq_some_iff.mp h
          cases h
          exact .inr ⟨position, mid,
            ⟨⟨next, hnext, hwalk⟩, ⟨type, htype, UInt8.not_le.mp hlt⟩,
              ⟨version, hversion, by simpa using h6⟩⟩, hmid, hlast⟩

/-- A quoted address the program rewrites: one of the two of an ICMPv6 error,
in the selected pair's prefix and not excepted. -/
structure Quoted (bytes : Bytes) (offset : Nat) (pair : NptPair) (outbound : Bool) (o : Nat) :
    Prop where
  error : ∃ position, IcmpError bytes offset position ∧ (o = position + 16 ∨ o = position + 32)
  inPrefix : inPrefix pair (toAddr (slice bytes o 16)) outbound = true
  notExcepted : excepted pair (toAddr (slice bytes o 16)) outbound = false

theorem IcmpError.congr {position : Nat}
    (h : IcmpError bytes offset position)
    (hagree : AgreeOn (fun i => i < offset + 8 ∨ offset + 40 ≤ i) bytes bytes') :
    IcmpError bytes' offset position := by
  obtain ⟨next, hnext, hwalk⟩ := h.chain
  obtain ⟨type, htype, hlt⟩ := h.type
  obtain ⟨version, hversion, h6⟩ := h.version
  have hpos := (walkExtensions_reached _ _ _ _ hwalk).1
  refine ⟨⟨next, ?_, ?_⟩, ⟨type, ?_, hlt⟩, ⟨version, ?_, h6⟩⟩
  · rw [← hagree.2 _ (by omega)]; exact hnext
  · rw [← walkExtensions_congr (hagree.mono fun i hi => .inr hi) _ _ _ (le_refl _)]
    exact hwalk
  · rw [← hagree.2 _ (by omega)]; exact htype
  · rw [← hagree.2 _ (by omega)]; exact hversion

/-- The ICMPv6 part rewrites quoted addresses only. -/
theorem rewritesAll_of_translateIcmpError
    (h : translateIcmpError fails bytes pair offset outbound = some bytes') :
    ∃ quoted, RewritesAll pair outbound quoted bytes bytes' ∧
      ∀ o ∈ quoted, Quoted bytes offset pair outbound o := by
  rcases translateIcmpError_eq_some h with rfl | ⟨position, mid, herr, h1, h2⟩
  · exact ⟨[], .nil _, by simp⟩
  rcases translateQuoted_eq_some h1 with rfl | ⟨hr1, hin1, hex1⟩
  · rcases translateQuoted_eq_some h2 with rfl | ⟨hr2, hin2, hex2⟩
    · exact ⟨[], .nil _, by simp⟩
    · refine ⟨[position + 32], .cons hr2 (.nil _), ?_⟩
      simpa using ⟨⟨position, herr, .inr rfl⟩, hin2, hex2⟩
  · have hq1 : Quoted bytes offset pair outbound (position + 16) :=
      ⟨⟨position, herr, .inl rfl⟩, hin1, hex1⟩
    rcases translateQuoted_eq_some h2 with rfl | ⟨hr2, hin2, hex2⟩
    · exact ⟨[position + 16], .cons hr1 (.nil _), by simpa using hq1⟩
    · -- the first store does not reach the second address
      have hs : slice mid (position + 32) 16 = slice bytes (position + 32) 16 :=
        hr1.agree.slice_eq _ _ fun i hi _ => .inr (by omega)
      rw [hs] at hin2 hex2
      refine ⟨[position + 16, position + 32], .cons hr1 (.cons hr2 (.nil _)), ?_⟩
      simpa using ⟨hq1, ⟨position, herr, .inr rfl⟩, hin2, hex2⟩

/-! ## Accepted packets -/

theorem ipv6Offset_even {ethernet : Bool}
    (h : ipv6Offset bytes ethernet = some offset) : offset % 2 = 0 := by
  unfold ipv6Offset at h
  obtain ⟨header, -, h⟩ := Option.bind_eq_some_iff.mp h
  simp only at h
  split_ifs at h <;> (obtain rfl := Option.some.inj h; rfl)

/-- What `process` does to a packet it accepts: nothing, or it rewrites the
outer address and then quoted addresses with the selected pair. -/
theorem process_eq_some {policies : UInt32 → Option NptPolicy} {skb skb' : Skb} {ingress : Bool}
    (h : process policies fails skb ingress = some skb') :
    skb'.bytes = skb.bytes ∨ ∃ policy offset index mid,
      policies skb.ifIndex = some policy ∧
      ipv6Offset skb.bytes (policy.ethernet ≠ 0) = some offset ∧
      selectPair policy skb.priority ingress
        (toAddr (slice skb.bytes (addressOffset offset ingress) 16)) = some (some index) ∧
      Rewrites (policy.pair index) (!ingress) skb.bytes mid (addressOffset offset ingress) ∧
      translateIcmpError fails mid (policy.pair index) offset (!ingress) = some skb'.bytes := by
  unfold process at h
  split at h
  · exact .inl (by rw [Option.some.inj h])
  · next policy hpolicy =>
    split at h
    · exact .inl (by rw [Option.some.inj h])
    · next offset hoffset =>
      obtain ⟨l, hl, h⟩ := Option.bind_eq_some_iff.mp h
      obtain ⟨hrange, rfl⟩ := load_eq_some hl
      obtain ⟨selected, hsel, h⟩ := Option.bind_eq_some_iff.mp h
      rcases (translateSelected_eq_some ..).mp h with ⟨-, rfl⟩ | ⟨index, rfl, hcase⟩
      · exact .inl (clearTag_bytes ..)
      · rcases hcase with ⟨-, rfl⟩ | ⟨-, b, mid, bytes, hb, hstore, hicmp, rfl⟩
        · left
          split
          · exact clearTag_bytes policy skb ingress
          · exact clearTag_bytes ..
        · refine .inr ⟨policy, offset, index, mid, hpolicy, hoffset, hsel,
            ⟨hrange, b, hb, store_eq_some hstore⟩, ?_⟩
          rw [setTag_bytes]
          exact hicmp

/-- The outer address lies in front of the payload, at an even distance. -/
theorem addressOffset_bounds (offset : Nat) (ingress : Bool) :
    offset + 8 ≤ addressOffset offset ingress ∧
      addressOffset offset ingress + 16 ≤ offset + 40 ∧
      (addressOffset offset ingress - (offset + 8)) % 2 = 0 := by
  cases ingress <;> simp [addressOffset]

section

variable {bytes : Bytes} {offset : Nat} {pair : NptPair} {outbound : Bool} {o : Nat}
  (h : Quoted bytes offset pair outbound o)

include h

theorem Quoted.bounds (heven : offset % 2 = 0) : offset + 40 ≤ o ∧ (o - (offset + 8)) % 2 = 0 := by
  obtain ⟨position, herr, ho⟩ := h.error
  obtain ⟨next, -, hwalk⟩ := herr.chain
  have := walkExtensions_reached _ _ _ _ hwalk
  omega

/-- Storing the outer address leaves the quoted ones what they were. -/
theorem Quoted.congr (hagree : AgreeOn (fun i => i < offset + 8 ∨ offset + 40 ≤ i) bytes bytes') :
    Quoted bytes' offset pair outbound o := by
  obtain ⟨position, herr, ho⟩ := h.error
  obtain ⟨next, -, hwalk⟩ := herr.chain
  have hpos := (walkExtensions_reached _ _ _ _ hwalk).1
  have hs : slice bytes o 16 = slice bytes' o 16 :=
    hagree.slice_eq _ _ fun i hi _ => .inr (by omega)
  have hin := h.inPrefix
  have hex := h.notExcepted
  rw [hs] at hin hex
  exact ⟨⟨position, herr.congr hagree, ho⟩, hin, hex⟩

end

/-- An accepted packet is unchanged, or only the outer address of the hook and
quoted addresses of an ICMPv6 error differ. The sum modulo 65535 over the
outer addresses and everything behind the IPv6 header is unchanged, and so is
the sum over the outer addresses and the first `n` bytes of the payload, for
any end of the payload that does not cut a rewritten address in two. -/
theorem process_neutral {policies : UInt32 → Option NptPolicy} {fails : Nat → Bool}
    {skb skb' : Skb} {ingress : Bool}
    (hpolicies : ∀ ifIndex policy, policies ifIndex = some policy →
      ∃ interface header, policyValue interface header = .ok policy)
    (h : process policies fails skb ingress = some skb') :
    skb'.bytes = skb.bytes ∨
    ∃ policy offset index quoted, policies skb.ifIndex = some policy ∧
      ipv6Offset skb.bytes (policy.ethernet ≠ 0) = some offset ∧
      selectPair policy skb.priority ingress
        (toAddr (slice skb.bytes (addressOffset offset ingress) 16)) = some (some index) ∧
      (∀ o ∈ quoted, Quoted skb.bytes offset (policy.pair index) (!ingress) o) ∧
      AgreeOn (fun i => ∀ o ∈ addressOffset offset ingress :: quoted, i < o ∨ o + 16 ≤ i)
        skb'.bytes skb.bytes ∧
      wordSum (skb'.bytes.drop (offset + 8)) % 65535 =
        wordSum (skb.bytes.drop (offset + 8)) % 65535 ∧
      ∀ n, (∀ o ∈ quoted, offset + 40 + n ≤ o ∨ o + 16 ≤ offset + 40 + n) →
        wordSum (slice skb'.bytes (offset + 8) (32 + n)) % 65535 =
          wordSum (slice skb.bytes (offset + 8) (32 + n)) % 65535 := by
  rcases process_eq_some h with hsame | ⟨policy, offset, index, mid, hp, ho, hsel, hout, hicmp⟩
  · exact .inl hsame
  obtain ⟨interface, header, hvalue⟩ := hpolicies _ _ hp
  obtain ⟨pair, -, hprep⟩ := (encodes_of_policyValue hvalue).prepares_of_selected hsel
  obtain ⟨quoted, hall, hq⟩ := rewritesAll_of_translateIcmpError hicmp
  have heven := ipv6Offset_even ho
  obtain ⟨hlo, hhi, hpar⟩ := addressOffset_bounds offset ingress
  have hagree : AgreeOn (fun i => i < offset + 8 ∨ offset + 40 ≤ i) mid skb.bytes :=
    hout.agree.mono fun i hi => by omega
  have hq' : ∀ o ∈ quoted, Quoted skb.bytes offset (policy.pair index) (!ingress) o :=
    fun o ho => (hq o ho).congr hagree
  have hrewrites := RewritesAll.cons hout hall
  have hplace : ∀ o ∈ addressOffset offset ingress :: quoted,
      offset + 8 ≤ o ∧ (o - (offset + 8)) % 2 = 0 := by
    refine List.forall_mem_cons.mpr ⟨⟨hlo, hpar⟩, fun o hmem => ?_⟩
    have := (hq' o hmem).bounds heven
    exact ⟨by omega, this.2⟩
  have hlen := hrewrites.agree.1
  refine .inr ⟨policy, offset, index, quoted, hp, ho, hsel, hq', hrewrites.agree, ?_, ?_⟩
  · -- the window that ends with the packet
    have hsum := @RewritesAll.sum _ _ _ _ _ hprep _ hrewrites (offset + 8)
      (skb.bytes.length - (offset + 8)) hplace fun o hmem => by
        have := hrewrites.range o hmem
        exact .inr (by omega)
    rwa [slice, slice, List.take_of_length_le (by simp [hlen]),
      List.take_of_length_le (by simp)] at hsum
  · intro n hn
    refine hrewrites.sum hprep hplace fun o hmem => ?_
    rcases List.mem_cons.mp hmem with rfl | hmem
    · exact .inr (by omega)
    · have := hn o hmem
      omega

/-- The policy map with one interface's policy. -/
def policiesOf (interface : InterfacePolicy) (header : PacketHeader) :
    UInt32 → Option NptPolicy := fun ifIndex =>
  if ifIndex.toNat = interface.ifIndex then (policyValue interface header).toOption else none

theorem policiesOf_spec (interface : InterfacePolicy) (header : PacketHeader) (ifIndex : UInt32)
    (policy : NptPolicy) (h : policiesOf interface header ifIndex = some policy) :
    ∃ interface header, policyValue interface header = .ok policy := by
  unfold policiesOf at h
  split at h
  · cases hv : policyValue interface header with
    | ok =>
      rw [hv] at h
      cases h
      exact ⟨interface, header, hv⟩
    | error e => rw [hv] at h; cases h
  · cases h

/-- An egress packet from `fd00:0:0:1::2`. -/
def sitePacket : Skb where
  ifIndex := 2
  priority := 0
  mark := 0
  bytes := [0x60, 0, 0, 0, 0, 8, 17, 64, 0xfd, 0, 0, 0, 0, 0, 0, 1, 0, 0, 0, 0, 0, 0, 0, 2,
    0x20, 0x01, 0x0d, 0xb8, 0, 9, 0, 0, 0, 0, 0, 0, 0, 0, 0, 1, 0x10, 0, 0x20, 0, 0, 8, 0xab, 0xcd]

/-- The same packet from `2001:db8:0:1:cf47::2`. -/
def siteImage : Skb where
  ifIndex := 2
  priority := 0
  mark := 0
  bytes := [0x60, 0, 0, 0, 0, 8, 17, 64, 0x20, 0x01, 0x0d, 0xb8, 0, 0, 0, 1, 0xcf, 0x47, 0, 0, 0, 0,
    0, 2, 0x20, 0x01, 0x0d, 0xb8, 0, 9, 0, 0, 0, 0, 0, 0, 0, 0, 0, 1, 0x10, 0, 0x20, 0, 0, 8, 0xab,
    0xcd]

theorem process_neutral_sitePacket :
    process (policiesOf ⟨2, false, [sitePair]⟩ .none) (fun _ => false) sitePacket false =
        some siteImage ∧
      ∃ offset, wordSum (siteImage.bytes.drop (offset + 8)) % 65535 =
        wordSum (sitePacket.bytes.drop (offset + 8)) % 65535 := by
  have hp : process (policiesOf ⟨2, false, [sitePair]⟩ .none) (fun _ => false) sitePacket false =
      some siteImage := by decide +kernel
  refine ⟨hp, ?_⟩
  rcases process_neutral (policiesOf_spec _ _) hp with hsame | ⟨_, offset, _, _, _, _, _, _, _, hs, _⟩
  · exact absurd hsame (by decide)
  · exact ⟨offset, hs⟩

end Mwan.Npt.Bpf

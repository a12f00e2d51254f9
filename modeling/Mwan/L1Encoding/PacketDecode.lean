import Mwan.Core.Exec
import Mwan.L1Encoding.Packet

/-!
# What `decode` accepts (`native/src/packet.rs:122-332`)

The reads of a decoder that succeeds are in bounds, so they are written here
as total reads (`byteAt`, `wordAt`, `arrayAt`) and each decoder stage is
inverted once.

Results:
* `decodeIpv4_eq_ok`, `decodeIpv6_eq_ok`, `decodeExtensions_succ_eq_ok`,
  `decodeVlan_eq_ok`, `decodeTransport_eq_ok`, `decodeHeaders_eq_ok`: the
  frames each stage accepts and the view it leaves.
* `decodeVlan_frame`, `decodeExtensions_frame`, `decodeTransport_frame`: the
  fields a stage may change.
-/
namespace Mwan.Native

open Mwan.Core Mwan.Core.Exec

/-! ## Total reads -/

def byteAt (b : Bytes) (i : Nat) : UInt8 := b[i]?.getD 0

def wordAt (b : Bytes) (i : Nat) : UInt16 := ofBe (byteAt b i) (byteAt b (i + 1))

def arrayAt (k : Nat) (b : Bytes) (i : Nat) : Vector UInt8 k :=
  Vector.ofFn fun j => byteAt b (i + j)

variable (b : Bytes)

theorem readRange_eq_some (r : Bytes) (o l : Nat) :
    readRange b o l = some r ↔ o + l ≤ b.length ∧ r = slice b o l := by
  unfold readRange; split <;> simp_all [eq_comm]

theorem readU8_eq_some (i : Nat) (x : UInt8) :
    readU8 b i = some x ↔ i < b.length ∧ x = byteAt b i := by
  unfold readU8 byteAt
  by_cases h : i < b.length
  · simp [h, eq_comm]
  · simp [h]

theorem slice_eq_ofFn (i k : Nat) (h : i + k ≤ b.length) :
    slice b i k = (arrayAt k b i).toList := by
  apply List.ext_getElem?
  intro j
  rw [getElem?_slice]
  by_cases hj : j < k
  · simp [arrayAt, byteAt, hj, List.getElem?_eq_getElem (show i + j < b.length by omega)]
  · simp [hj]

theorem readArray_eq_some (k : Nat) (b : Bytes) (i : Nat) (x : Vector UInt8 k) :
    readArray k b i = some x ↔ i + k ≤ b.length ∧ x = arrayAt k b i := by
  unfold readArray readRange
  by_cases h : i + k ≤ b.length
  · simp only [h, if_true, true_and, length_slice b i k h, dite_true, Option.some.injEq]
    rw [eq_comm]
    constructor <;> (rintro rfl; apply Vector.toList_inj.mp; simp [slice_eq_ofFn b i k h])
  · simp [h]

theorem readU16_eq_some (i : Nat) (x : UInt16) :
    readU16 b i = some x ↔ i + 2 ≤ b.length ∧ x = wordAt b i := by
  unfold readU16
  simp only [Option.map_eq_some_iff, readArray_eq_some]
  constructor
  · rintro ⟨_, ⟨h, rfl⟩, rfl⟩; exact ⟨h, by simp [arrayAt, wordAt]⟩
  · rintro ⟨h, rfl⟩; exact ⟨_, ⟨h, rfl⟩, by simp [arrayAt, wordAt]⟩

theorem byteAt_slice (o l i : Nat) (h : i < l) : byteAt (slice b o l) i = byteAt b (o + i) := by
  simp [byteAt, getElem?_slice, h]

theorem wordAt_slice (o l i : Nat) (h : i + 1 < l) : wordAt (slice b o l) i = wordAt b (o + i) := by
  simp [wordAt, byteAt_slice, h, show i < l by omega, Nat.add_assoc]

theorem arrayAt_slice (k : Nat) (b : Bytes) (o l i : Nat) (h : i + k ≤ l) :
    arrayAt k (slice b o l) i = arrayAt k b (o + i) := by
  unfold arrayAt
  congr 1; funext j
  rw [byteAt_slice b o l (i + j) (by omega), Nat.add_assoc]

theorem byteAt_agree {P : Nat → Prop} {b b' : Bytes} (h : AgreeOn P b b') (i : Nat) (hi : P i) :
    byteAt b i = byteAt b' i := by
  rw [byteAt, byteAt, h.2 i hi]

theorem wordAt_agree {P : Nat → Prop} {b b' : Bytes} (h : AgreeOn P b b') (i : Nat) (hi : P i)
    (hi' : P (i + 1)) : wordAt b i = wordAt b' i := by
  rw [wordAt, wordAt, byteAt_agree h i hi, byteAt_agree h (i + 1) hi']

theorem orBad_eq_ok {α : Type} (o : Option α) (a : α) (s t : ParsedPacket) :
    orBad o s = .ok a t ↔ o = some a ∧ t = s := by
  cases o with
  | none => simp [orBad, throw_eq_ok]
  | some b => simp [orBad, pure_eq_ok, eq_comm]

/-! ## The stages -/

/-- The IHL field, in bytes. -/
def ipv4HeaderLength (network : Bytes) : Nat := (byteAt network 0 &&& 15).toNat * 4

/-- The IPv4 headers `decode_ipv4` accepts. -/
structure Ipv4Ok (network : Bytes) : Prop where
  captured : 20 ≤ network.length
  version : byteAt network 0 >>> 4 = 4
  minimum : 20 ≤ ipv4HeaderLength network
  total : ipv4HeaderLength network ≤ (wordAt network 2).toNat
  header : ipv4HeaderLength network ≤ network.length

/-- The view `decode_ipv4` leaves. -/
def ipv4View (network : Bytes) (view : ParsedPacket) : ParsedPacket :=
  { view with
    tuple := { view.tuple with
      family := familyIpv4
      protocol := byteAt network 9
      source := setPrefix view.tuple.source (arrayAt 4 network 12)
      destination := setPrefix view.tuple.destination (arrayAt 4 network 16) }
    ipHeaderLength := ipv4HeaderLength network
    networkLength := (wordAt network 2).toNat
    malformed := (wordAt network 2).toNat > network.length
    fragment := wordAt network 6 &&& IPV4_FRAGMENT_MASK ≠ 0
    noninitialFragment := wordAt network 6 &&& IPV4_FRAGMENT_OFFSET_MASK ≠ 0
    extended := view.extended || decide (ipv4HeaderLength network ≠ IPV4_HEADER_LENGTH)
    ttl := byteAt network 8
    ipv4Checksum := wordAt network 10
    trafficClass := byteAt network 1 }

variable (frame network : Bytes) (view w : ParsedPacket)

theorem decodeIpv4_eq_ok :
    decodeIpv4 network view = .ok () w ↔ Ipv4Ok network ∧ w = ipv4View network view := by
  simp only [decodeIpv4, bind_eq_ok, throw_eq_ok, modify_eq_ok, get_eq_ok, ite_eq_ok, orBad_eq_ok,
    false_and, and_false, exists_false, false_or, exists_eq_left, exists_and_left, exists_const,
    and_assoc, readRange_eq_some, readU8_eq_some, readU16_eq_some, readArray_eq_some]
  by_cases hn : 20 ≤ network.length
  · have hl : (slice network 0 20).length = 20 := length_slice _ _ _ (by omega)
    simp (disch := decide) only [IPV4_HEADER_LENGTH, hl, byteAt_slice, wordAt_slice, arrayAt_slice,
      Nat.zero_add]
    constructor
    · rintro ⟨-, -, hv, -, hs, -, -, -, -, -, -, -, rfl⟩
      exact ⟨⟨hn, not_not.mp hv, by unfold ipv4HeaderLength; omega,
        by unfold ipv4HeaderLength; omega, by unfold ipv4HeaderLength; omega⟩, rfl⟩
    · rintro ⟨⟨-, hv, hm, ht, hh⟩, rfl⟩
      unfold ipv4HeaderLength at hm ht hh
      exact ⟨hn, by decide, not_not.mpr hv, by decide, by omega, by decide, by decide, by decide,
        by decide, by decide, by decide, by decide, rfl⟩
  · simp only [IPV4_HEADER_LENGTH, Nat.zero_add, hn, false_and, false_iff, not_and]
    exact fun h => absurd h.captured hn

/-- The IPv6 headers `decode_ipv6` accepts, before its extension loop. -/
structure Ipv6Ok (network : Bytes) : Prop where
  captured : 40 ≤ network.length
  version : byteAt network 0 >>> 4 = 6

/-- The view `decode_ipv6` hands to its extension loop. -/
def ipv6View (network : Bytes) (view : ParsedPacket) : ParsedPacket :=
  { view with
    tuple := { view.tuple with
      family := familyIpv6
      protocol := byteAt network 6
      source := arrayAt 16 network 8
      destination := arrayAt 16 network 24 }
    ipHeaderLength := IPV6_HEADER_LENGTH
    networkLength := IPV6_HEADER_LENGTH + (wordAt network 4).toNat
    malformed := IPV6_HEADER_LENGTH + (wordAt network 4).toNat > network.length
    ttl := byteAt network 7
    trafficClass := ipv6TrafficClass (byteAt network 0) (byteAt network 1)
    flowLabel := ipv6FlowLabel (byteAt network 1) (byteAt network 2) (byteAt network 3) }

/-- `limit` of the extension loop. -/
def ipv6Limit (network : Bytes) : Nat :=
  min (IPV6_HEADER_LENGTH + (wordAt network 4).toNat) network.length

theorem decodeIpv6_eq_ok :
    decodeIpv6 network view = .ok () w ↔ Ipv6Ok network ∧
      decodeExtensions network (ipv6Limit network) MAX_IPV6_EXTENSION_HEADERS
        (ipv6View network view) = .ok () w := by
  simp only [decodeIpv6, bind_eq_ok, throw_eq_ok, modify_eq_ok, get_eq_ok, ite_eq_ok, orBad_eq_ok,
    false_and, and_false, exists_false, false_or, exists_eq_left, exists_and_left, exists_const,
    and_assoc, readRange_eq_some, readU8_eq_some, readU16_eq_some, readArray_eq_some]
  by_cases hn : 40 ≤ network.length
  · have hl : (slice network 0 40).length = 40 := length_slice _ _ _ (by omega)
    simp (disch := decide) only [IPV6_HEADER_LENGTH, hl, byteAt_slice, wordAt_slice, arrayAt_slice,
      Nat.zero_add]
    constructor
    · rintro ⟨-, -, hv, -, -, -, -, -, -, -, -, -, h⟩
      exact ⟨⟨hn, not_not.mp hv⟩, h⟩
    · rintro ⟨⟨-, hv⟩, h⟩
      exact ⟨hn, by decide, not_not.mpr hv, by decide, by decide, by decide, by decide, by decide,
        by decide, by decide, by decide, by decide, h⟩
  · simp only [IPV6_HEADER_LENGTH, Nat.zero_add, hn, false_and, false_iff, not_and]
    exact fun h => absurd h.captured hn

/-- The bytes an extension header takes, read behind `view`'s headers. -/
def extensionSize (network : Bytes) (view : ParsedPacket) : Nat :=
  if view.tuple.protocol = 44 then IPV6_EXTENSION_MINIMUM_LENGTH
  else if view.tuple.protocol = 51 then ((byteAt network (view.ipHeaderLength + 1)).toNat + 2) * 4
  else ((byteAt network (view.ipHeaderLength + 1)).toNat + 1) * 8

theorem extensionSize_ge : 8 ≤ extensionSize network view := by
  unfold extensionSize IPV6_EXTENSION_MINIMUM_LENGTH; split <;> [skip; split] <;> omega

/-- The view behind one more extension header. -/
def extensionView (network : Bytes) (view : ParsedPacket) : ParsedPacket :=
  { view with
    tuple := { view.tuple with protocol := byteAt network view.ipHeaderLength }
    ipHeaderLength := view.ipHeaderLength + extensionSize network view
    fragment := view.fragment || decide (view.tuple.protocol = 44)
    noninitialFragment :=
      if view.tuple.protocol = 44 then
        wordAt network (view.ipHeaderLength + 2) &&& IPV6_FRAGMENT_OFFSET_MASK ≠ 0
      else view.noninitialFragment
    extended := true }

theorem decodeExtensions_succ_eq_ok (limit rounds : Nat) (hlimit : limit ≤ network.length)
    (view w : ParsedPacket) :
    decodeExtensions network limit (rounds + 1) view = .ok () w ↔
      (isExtension view.tuple.protocol = false ∧ w = view) ∨
      (isExtension view.tuple.protocol = true ∧
        view.ipHeaderLength + extensionSize network view ≤ limit ∧
        if (extensionView network view).noninitialFragment then w = extensionView network view
        else decodeExtensions network limit rounds (extensionView network view) = .ok () w) := by
  have h8 := extensionSize_ge network view
  simp only [decodeExtensions, bind_eq_ok, throw_eq_ok, pure_eq_ok, modify_eq_ok, get_eq_ok,
    ite_eq_ok, orBad_eq_ok,
    false_and, and_false, exists_false, false_or, exists_eq_left, exists_and_left, exists_const,
    and_assoc, readRange_eq_some, readU8_eq_some, readU16_eq_some]
  cases hx : isExtension view.tuple.protocol with
  | false => simp
  | true =>
    by_cases hroom : view.ipHeaderLength + 8 ≤ limit
    · have hl : (slice network view.ipHeaderLength (limit - view.ipHeaderLength)).length =
          limit - view.ipHeaderLength := length_slice _ _ _ (by omega)
      have h0 := byteAt_slice network view.ipHeaderLength (limit - view.ipHeaderLength) 0 (by omega)
      have h1 := byteAt_slice network view.ipHeaderLength (limit - view.ipHeaderLength) 1 (by omega)
      have h2 := wordAt_slice network view.ipHeaderLength (limit - view.ipHeaderLength) 2 (by omega)
      rw [Nat.add_zero] at h0
      simp only [hl, h0, h1, h2, extensionView, extensionSize, IPV6_EXTENSION_MINIMUM_LENGTH]
      have hs : ∀ size, (¬ size > limit - view.ipHeaderLength) ↔ view.ipHeaderLength + size ≤ limit :=
        fun size => by omega
      have hi : ¬ limit < view.ipHeaderLength := by omega
      have hm : ¬ limit - view.ipHeaderLength < 8 := by omega
      have hb : view.ipHeaderLength + (limit - view.ipHeaderLength) ≤ network.length := by omega
      have hlt : 4 ≤ limit - view.ipHeaderLength := by omega
      simp only [hs, hi, hm, hb, not_false_eq_true, true_and, show 1 < limit - view.ipHeaderLength by omega,
        show 2 + 2 ≤ limit - view.ipHeaderLength by omega, show 0 < limit - view.ipHeaderLength by omega]
      by_cases h44 : view.tuple.protocol = 44
      · by_cases hw : wordAt network (view.ipHeaderLength + 2) &&& IPV6_FRAGMENT_OFFSET_MASK = 0 <;>
          simp [h44, hw, hroom]
      · by_cases hf : view.noninitialFragment = true <;> by_cases h51 : view.tuple.protocol = 51 <;>
          simp [h44, h51, hf]
    · simp [IPV6_EXTENSION_MINIMUM_LENGTH]
      omega

/-- The view behind one more VLAN tag. -/
def vlanView (view : ParsedPacket) : ParsedPacket :=
  { view with networkOffset := view.networkOffset + 4, extended := true }

theorem decodeVlan_eq_ok (remaining : Nat) (etherType e : UInt16) (view w : ParsedPacket) :
    decodeVlan frame remaining etherType view = .ok e w ↔
      (¬ (etherType = VLAN_ETHERTYPE ∨ etherType = QINQ_ETHERTYPE) ∧ e = etherType ∧ w = view) ∨
      ((etherType = VLAN_ETHERTYPE ∨ etherType = QINQ_ETHERTYPE) ∧
        ∃ rest, remaining = rest + 1 ∧ view.networkOffset + 4 ≤ frame.length ∧
          decodeVlan frame rest (wordAt frame (view.networkOffset + 2)) (vlanView view) =
            .ok e w) := by
  conv_lhs => unfold decodeVlan
  by_cases hv : etherType = VLAN_ETHERTYPE ∨ etherType = QINQ_ETHERTYPE
  · simp only [hv, if_true, not_true, false_and, true_and, false_or]
    cases remaining with
    | zero => simp [throw_eq_ok]
    | succ =>
      simp only [bind_eq_ok, modify_eq_ok, get_eq_ok, orBad_eq_ok, exists_eq_left, exists_const,
        and_assoc, readRange_eq_some, readU16_eq_some, exists_and_left, Nat.add_right_cancel_iff,
        exists_eq_left', VLAN_HEADER_LENGTH]
      by_cases hl : view.networkOffset + 4 ≤ frame.length
      · simp [hl, length_slice, wordAt_slice, vlanView]
      · simp [hl]
  · simp [hv, pure_eq_ok]

/-- The bytes behind the network header that the packet's own length covers. -/
def transportSize (network : Bytes) (view : ParsedPacket) : Nat :=
  min view.networkLength network.length - view.ipHeaderLength

/-- The headers `decode_headers` accepts behind the network header. -/
@[mk_iff]
structure TransportOk (frame network : Bytes) (view : ParsedPacket) : Prop where
  header : view.ipHeaderLength ≤ min view.networkLength network.length
  captured : view.networkOffset + view.ipHeaderLength + transportSize network view ≤ frame.length
  protocol : view.tuple.protocol = protocolTcp ∨ view.tuple.protocol = protocolUdp
  complete : ¬ (view.malformed ∧ ¬ view.noninitialFragment ∧ transportSize network view <
    if view.tuple.protocol = protocolTcp then TCP_HEADER_LENGTH else UDP_HEADER_LENGTH)

/-- The view with the transport's place filled in. -/
def placedView (network : Bytes) (view : ParsedPacket) : ParsedPacket :=
  { view with
    transportOffset := view.networkOffset + view.ipHeaderLength
    transportLength := transportSize network view }

/-- The view with the ports, when the packet has them. -/
def portsView (frame : Bytes) (view : ParsedPacket) : ParsedPacket :=
  if ¬ view.noninitialFragment ∧ 4 ≤ view.transportLength then
    { view with
      tuple := { view.tuple with
        sourcePort := wordAt frame view.transportOffset
        destinationPort := wordAt frame (view.transportOffset + 2) }
      ports := true }
  else view

/-- The view with the TCP flags, when the packet has them. -/
def flagsView (frame : Bytes) (view : ParsedPacket) : ParsedPacket :=
  if ¬ view.noninitialFragment ∧ view.tuple.protocol = protocolTcp ∧
      TCP_HEADER_LENGTH ≤ view.transportLength then
    { view with flags := byteAt frame (view.transportOffset + 13) }
  else view

theorem decodeTransport_eq_ok :
    decodeTransport frame network view = .ok () w ↔ TransportOk frame network view ∧
      w = flagsView frame (portsView frame (placedView network view)) := by
  simp only [decodeTransport, bind_eq_ok, throw_eq_ok, pure_eq_ok, modify_eq_ok, get_eq_ok,
    ite_eq_ok, orBad_eq_ok, false_and, and_false, exists_false, false_or, or_false, exists_eq_left,
    exists_and_left, exists_const, and_assoc, readRange_eq_some, readU8_eq_some, readU16_eq_some]
  have hL : min view.networkLength network.length - view.ipHeaderLength =
      transportSize network view := rfl
  simp only [hL, transportOk_iff, not_lt]
  by_cases hb : view.networkOffset + view.ipHeaderLength + transportSize network view ≤ frame.length
  · have hl := length_slice frame _ _ hb
    simp only [hb, hl, true_and, and_assoc, and_congr_right_iff, flagsView, portsView, placedView]
    intro _
    by_cases hf : view.noninitialFragment = true
    · by_cases ht : view.tuple.protocol = protocolTcp
      · simp [hf, ht]
      · simp [hf, ht]
    · by_cases h4 : 4 ≤ transportSize network view
      · have w0 := wordAt_slice frame (view.networkOffset + view.ipHeaderLength)
          (transportSize network view) 0 (by omega)
        have w2 := wordAt_slice frame (view.networkOffset + view.ipHeaderLength)
          (transportSize network view) 2 (by omega)
        by_cases ht : view.tuple.protocol = protocolTcp
        · by_cases h20 : TCP_HEADER_LENGTH ≤ transportSize network view
          · have h13 : 13 < transportSize network view := by
              unfold TCP_HEADER_LENGTH at h20; omega
            have b13 := byteAt_slice frame (view.networkOffset + view.ipHeaderLength)
              (transportSize network view) 13 h13
            simp [hf, h4, ht, h20, h13, w0, w2, b13, show 2 ≤ transportSize network view by omega]
          · simp [hf, h4, ht, h20, w0, w2, show 2 ≤ transportSize network view by omega]
        · simp [hf, h4, ht, w0, w2, show 2 ≤ transportSize network view by omega]
      · have h20 : ¬ TCP_HEADER_LENGTH ≤ transportSize network view := by
          unfold TCP_HEADER_LENGTH; omega
        by_cases ht : view.tuple.protocol = protocolTcp <;> simp [hf, h4, ht, h20]
  · simp only [hb, false_and, and_false]

/-- The view behind the Ethernet header. -/
def ethernetView (frame : Bytes) (view : ParsedPacket) : ParsedPacket :=
  { view with
    destinationMac := arrayAt 6 frame 0
    sourceMac := arrayAt 6 frame 6
    etherType := wordAt frame 12
    ethernetValid := true
    networkOffset := ETHERNET_HEADER_LENGTH }

/-- The frame from the network header on. -/
def networkOf (frame : Bytes) (view : ParsedPacket) : Bytes :=
  slice frame view.networkOffset (frame.length - view.networkOffset)

/-- The network header stage, by EtherType. -/
def decodeNetwork (etherType : UInt16) (network : Bytes) (view m : ParsedPacket) : Prop :=
  (etherType = IPV4_ETHERTYPE ∧ decodeIpv4 network view = .ok () m) ∨
  (etherType = IPV6_ETHERTYPE ∧ decodeIpv6 network view = .ok () m)

theorem decodeHeaders_eq_ok :
    decodeHeaders frame view = .ok () w ↔ 14 ≤ frame.length ∧ ∃ e u,
      decodeVlan frame MAX_VLAN_HEADERS (wordAt frame 12) (ethernetView frame view) = .ok e u ∧
      u.networkOffset ≤ frame.length ∧ ∃ m, decodeNetwork e (networkOf frame u) u m ∧
      decodeTransport frame (networkOf frame u) m = .ok () w := by
  simp only [decodeHeaders, bind_eq_ok, throw_eq_ok, modify_eq_ok, get_eq_ok, ite_eq_ok,
    orBad_eq_ok, false_and, and_false, exists_false, or_false, exists_eq_left, exists_and_left,
    exists_const, and_assoc, readRange_eq_some, readU16_eq_some, readArray_eq_some,
    ETHERNET_HEADER_LENGTH, ETHERNET_ADDRESS_LENGTH, Nat.zero_add]
  by_cases h14 : 14 ≤ frame.length
  · have hl : (slice frame 0 14).length = 14 := length_slice _ _ _ (by omega)
    have hne : ¬ IPV6_ETHERTYPE = IPV4_ETHERTYPE := by decide
    simp (disch := decide) only [h14, hl, arrayAt_slice, wordAt_slice, true_and]
    constructor
    · rintro ⟨-, -, -, e, u, hv, hb, ⟨he, _, m, hm, ht⟩ | ⟨-, he, _, m, hm, ht⟩⟩
      · exact ⟨e, u, hv, by omega, m, .inl ⟨he, hm⟩, ht⟩
      · exact ⟨e, u, hv, by omega, m, .inr ⟨he, hm⟩, ht⟩
    · rintro ⟨e, u, hv, hb, m, ⟨he, hm⟩ | ⟨he, hm⟩, ht⟩
      · exact ⟨by decide, by decide, by decide, e, u, hv, by omega, .inl ⟨he, (), m, hm, ht⟩⟩
      · exact ⟨by decide, by decide, by decide, e, u, hv, by omega,
          .inr ⟨by rw [he]; decide, he, (), m, hm, ht⟩⟩
  · simp only [h14, false_and]

/-! ## What a stage changes -/

theorem decodeVlan_frame (remaining : Nat) (etherType e : UInt16) (view w : ParsedPacket)
    (h : decodeVlan frame remaining etherType view = .ok e w) :
    view.networkOffset ≤ w.networkOffset ∧
      w = { view with networkOffset := w.networkOffset, extended := w.extended } := by
  induction remaining generalizing etherType view with
  | zero =>
    obtain ⟨-, -, rfl⟩ | ⟨-, rest, hr, -⟩ := (decodeVlan_eq_ok ..).mp h
    · exact ⟨le_refl _, rfl⟩
    · omega
  | succ remaining ih =>
    obtain ⟨-, -, rfl⟩ | ⟨-, rest, hr, -, hd⟩ := (decodeVlan_eq_ok ..).mp h
    · exact ⟨le_refl _, rfl⟩
    · obtain rfl : remaining = rest := by omega
      obtain ⟨hle, hw⟩ := ih _ _ hd
      refine ⟨?_, hw⟩
      change view.networkOffset + 4 ≤ _ at hle; omega

theorem decodeExtensions_frame (limit : Nat) (hlimit : limit ≤ network.length) (rounds : Nat)
    (view w : ParsedPacket) (h : decodeExtensions network limit rounds view = .ok () w) :
    view.ipHeaderLength ≤ w.ipHeaderLength ∧
      w = { view with
        tuple := { view.tuple with protocol := w.tuple.protocol }
        ipHeaderLength := w.ipHeaderLength
        fragment := w.fragment
        noninitialFragment := w.noninitialFragment
        extended := w.extended } := by
  induction rounds generalizing view with
  | zero =>
    obtain ⟨-, rfl⟩ := (pure_eq_ok ..).mp h
    exact ⟨le_refl _, rfl⟩
  | succ rounds ih =>
    obtain ⟨-, rfl⟩ | ⟨-, -, h⟩ := (decodeExtensions_succ_eq_ok _ _ _ hlimit _ _).mp h
    · exact ⟨le_refl _, rfl⟩
    · have hle : view.ipHeaderLength ≤ (extensionView network view).ipHeaderLength :=
        Nat.le_add_right _ _
      split at h
      · subst h; exact ⟨hle, rfl⟩
      · obtain ⟨hle', hw⟩ := ih _ h
        exact ⟨by omega, hw⟩

theorem decodeTransport_frame (h : decodeTransport frame network view = .ok () w) :
    w = { view with
      tuple := { view.tuple with
        sourcePort := w.tuple.sourcePort
        destinationPort := w.tuple.destinationPort }
      transportOffset := view.networkOffset + view.ipHeaderLength
      transportLength := transportSize network view
      ports := w.ports
      flags := w.flags } := by
  obtain ⟨-, rfl⟩ := (decodeTransport_eq_ok ..).mp h
  unfold flagsView portsView
  split <;> split <;> rfl

theorem decodeTransport_ports (h : decodeTransport frame network view = .ok () w)
    (hv : view.ports = false) (hw : w.ports = true) : 4 ≤ w.transportLength ∧
      w.tuple.sourcePort = wordAt frame w.transportOffset ∧
      w.tuple.destinationPort = wordAt frame (w.transportOffset + 2) := by
  obtain ⟨-, rfl⟩ := (decodeTransport_eq_ok ..).mp h
  by_cases hp : ¬ view.noninitialFragment ∧ 4 ≤ transportSize network view
  · have hpv : portsView frame (placedView network view) = _ := if_pos hp
    rw [hpv]
    unfold flagsView
    split <;> exact ⟨hp.2, rfl, rfl⟩
  · have hpv : portsView frame (placedView network view) = _ := if_neg hp
    rw [hpv] at hw
    unfold flagsView at hw
    split at hw <;> simp [placedView, hv] at hw

end Mwan.Native

import Mwan.Core.FirstMatch
import Mwan.Core.Splice
import Mwan.L3Protocol.Npt.Bpf

/-!
# The BPF programs (`npt/bpf/npt.c`) and their policies (`npt/bpf/translator.go`)

`process` runs on the packets of one interface, at ingress on the destination
and at egress on the source, with the policy `policyValue` wrote for it.

A packet is the bytes the program loads from and stores to, with the fields
of `struct __sk_buff` it reads or writes. A load fails beyond the end of the
packet, a store also when the kernel cannot make the bytes writable: `fails`
says at which offsets. `none` is `TC_ACT_SHOT`, which drops the packet with
whatever was stored in it before.
-/
namespace Mwan.Npt.Bpf

open Mwan.Core Mwan.Core.Exec Mwan.Npt

/-! ## Policies -/

/-- `MAX_PAIRS` -/
def maxPairs : Nat := 64

/-- mirrors translator.go:22-32; `other`
is any encapsulation the package has no name for. -/
inductive PacketHeader
  | ethernet | loopback | none | tunnel | tunnel6 | sit | ipip | ppp | rawIP
  | other (encapType : String)
  deriving DecidableEq

/-- `InterfacePolicy` -/
structure InterfacePolicy where
  ifIndex : Nat
  internal : Bool
  pairs : List PrefixPair

/-- mirrors npt.c:29-37 -/
structure NptPolicy where
  internal : UInt32 := 0
  count : UInt32 := 0
  ethernet : UInt32 := 0
  ingressOrder : Vector UInt8 64 := Vector.replicate 64 0
  egressOrder : Vector UInt8 64 := Vector.replicate 64 0
  pairs : Vector NptPair 64 := Vector.replicate 64 {}

/-- `policy->pairs[index]` -/
def NptPolicy.pair (policy : NptPolicy) (index : Nat) : NptPair := policy.pairs[index]?.getD {}

/-- The value of `Ethernet` for a header.
mirrors translator.go:73-79 -/
def ethernetValue (ifIndex : Nat) : PacketHeader → Except ValueError UInt32
  | .ethernet | .loopback => pure 1
  | .other encapType => throw (.unsupportedHeader ifIndex encapType)
  | _ => pure 0

/-- The loop over the pairs, with the identities seen so far.
mirrors translator.go:80-91 -/
def pairValues (ifIndex : Nat) : List UInt16 → List PrefixPair → Except ValueError (List NptPair)
  | _, [] => pure []
  | identities, pair :: pairs =>
    if pair.id ∈ identities then throw (.repeatsPair ifIndex pair.id)
    else do
      let mapped ← pairValue pair
      let rest ← pairValues ifIndex (pair.id :: identities) pairs
      return mapped :: rest

/-- `sort.SliceStable` of the indices by descending length.
mirrors translator.go:95-100 -/
def sortedOrder (count : Nat) (bits : Nat → Nat) : List Nat :=
  (List.range count).insertionSort fun i j => bits j ≤ bits i

/-- An order array: its first entries, then zeros. -/
def orderArray (order : List Nat) : Vector UInt8 64 :=
  Vector.ofFn fun i => UInt8.ofNat (order[i.val]?.getD 0)

/-- mirrors translator.go:63-102 -/
def policyValue (policy : InterfacePolicy) (header : PacketHeader) : Except ValueError NptPolicy := do
  if policy.pairs.length > maxPairs then throw (.tooManyPairs policy.ifIndex maxPairs)
  let ethernet ← ethernetValue policy.ifIndex header
  let mapped ← pairValues policy.ifIndex [] policy.pairs
  let count := policy.pairs.length
  return {
    internal := if policy.internal then 1 else 0
    count := UInt32.ofNat count
    ethernet := ethernet
    ingressOrder := orderArray (sortedOrder count fun i => (mapped[i]?.getD {}).externalBits.toNat)
    egressOrder := orderArray (sortedOrder count fun i => (mapped[i]?.getD {}).internalBits.toNat)
    pairs := Vector.ofFn fun i => mapped[i.val]?.getD {} }

/-! ## Packets -/

/-- The packet and the fields of `struct __sk_buff` the programs use. -/
structure Skb where
  ifIndex : UInt32
  priority : UInt32
  mark : UInt32
  bytes : Bytes
  deriving DecidableEq

/-- `bpf_skb_load_bytes` -/
def load (bytes : Bytes) (offset n : Nat) : Option Bytes :=
  if offset + n ≤ bytes.length then some (slice bytes offset n) else none

/-- `bpf_skb_load_bytes` of one byte. -/
def loadByte (bytes : Bytes) (offset : Nat) : Option UInt8 := bytes[offset]?

/-- `bpf_skb_store_bytes` -/
def store (fails : Nat → Bool) (bytes : Bytes) (offset : Nat) (new : Bytes) : Option Bytes :=
  if fails offset then none
  else if offset + new.length ≤ bytes.length then some (splice bytes offset new)
  else none

/-- Sixteen loaded bytes as an address. -/
def toAddr (bytes : Bytes) : Addr := Vector.ofFn fun i => bytes[i.val]?.getD 0

/-- mirrors npt.c:107-118 -/
def ipv6Offset (bytes : Bytes) (ethernet : Bool) : Option Nat := do
  let header ← load bytes 0 22
  let byte (i : Nat) : UInt8 := header[i]?.getD 0
  let outer := ofBe (byte 12) (byte 13)
  let inner := ofBe (byte 16) (byte 17)
  if !ethernet then
    if byte 0 >>> 4 = 6 then some 0 else none
  else if outer = 0x86dd then some 14
  else if outer ≠ 0x8100 ∧ outer ≠ 0x88a8 then none
  else if inner = 0x86dd then some 18
  else if (inner = 0x8100 ∨ inner = 0x88a8) ∧ byte 20 = 0x86 ∧ byte 21 = 0xdd then some 22
  else none

/-! ## ICMPv6 errors -/

/-- How the walk over the extension headers ends: a load fails, the packet is
none the program looks into, or the chain is at `next`. -/
inductive Chain
  | failed
  | ended
  | reached (next : UInt8) (position : Nat)
  deriving DecidableEq

/-- mirrors npt.c:123-135 -/
def walkExtensions (bytes : Bytes) : Nat → UInt8 → Nat → Chain
  | 0, next, position => .reached next position
  | depth + 1, next, position =>
    if next = 58 then .reached next position
    else if next ≠ 0 ∧ next ≠ 43 ∧ next ≠ 60 ∧ next ≠ 44 ∧ next ≠ 51 then .ended
    else match load bytes position 4 with
      | none => .failed
      | some extension =>
        let byte (i : Nat) : UInt8 := extension[i]?.getD 0
        if next = 44 then
          if byte 2 ≠ 0 ∨ byte 3 &&& 0xf8 ≠ 0 then .ended
          else walkExtensions bytes depth (byte 0) (position + 8)
        else if next = 51 then
          walkExtensions bytes depth (byte 0) (position + ((byte 1).toNat + 2) * 4)
        else walkExtensions bytes depth (byte 0) (position + ((byte 1).toNat + 1) * 8)

/-- The prefix and length a direction selects by.
mirrors npt.c:146-147, 174-175 -/
def inPrefix (pair : NptPair) (address : Addr) (outbound : Bool) : Bool :=
  contains address (if outbound then pair.internal else pair.external)
    (if outbound then pair.internalBits else pair.externalBits).toNat

/-- One quoted address.
mirrors npt.c:143-151 -/
def translateQuoted (fails : Nat → Bool) (pair : NptPair) (outbound : Bool) (bytes : Bytes)
    (addressOffset : Nat) : Option Bytes := do
  let quoted := toAddr (← load bytes addressOffset 16)
  if !inPrefix pair quoted outbound then return bytes
  if excepted pair quoted outbound then return bytes
  let translated ← translate quoted pair outbound
  store fails bytes addressOffset translated.toList

/-- mirrors npt.c:119-154 -/
def translateIcmpError (fails : Nat → Bool) (bytes : Bytes) (pair : NptPair) (offset : Nat)
    (outbound : Bool) : Option Bytes := do
  let next ← loadByte bytes (offset + 6)
  match walkExtensions bytes 16 next (offset + 40) with
  | .failed => none
  | .ended => return bytes
  | .reached next position =>
    if next ≠ 58 then return bytes
    let type ← loadByte bytes position
    if type ≥ 128 then return bytes
    let version ← loadByte bytes (position + 8)
    if version >>> 4 ≠ 6 then return bytes
    [0, 1].foldlM (fun bytes field =>
      translateQuoted fails pair outbound bytes (position + 16 + field * 16)) bytes

/-! ## The programs -/

/-- `(priority & HAIRPIN_MASK) == HAIRPIN_TAG` -/
def tagged (priority : UInt32) : Bool := priority &&& 0xffff0000 = 0x4e500000

/-- `HAIRPIN_TAG | id` -/
def hairpinTag (id : UInt16) : UInt32 := 0x4e500000 ||| id.toUInt32

/-- mirrors npt.c:171-177 -/
def selects (policy : NptPolicy) (priority : UInt32) (ingress : Bool) (address : Addr)
    (pair : NptPair) : Bool :=
  if policy.internal ≠ 0 ∧ ingress = false then
    tagged priority && priority &&& 0xffff = pair.id.toUInt32
  else inPrefix pair address !ingress

/-- The selection loop over the entries of an order array; `none` is the drop
for an entry out of range.
mirrors npt.c:166-178 -/
def selectFrom (policy : NptPolicy) (matches_ : NptPair → Bool) : List UInt8 → Option (Option Nat)
  | [] => some none
  | index :: order =>
    if index.toNat ≥ maxPairs then none
    else if matches_ (policy.pair index.toNat) then some (some index.toNat)
    else selectFrom policy matches_ order

/-- The pair `process` selects. -/
def selectPair (policy : NptPolicy) (priority : UInt32) (ingress : Bool) (address : Addr) :
    Option (Option Nat) :=
  let order := if ingress then policy.ingressOrder else policy.egressOrder
  selectFrom policy (selects policy priority ingress address)
    (order.toList.take policy.count.toNat)

/-- `offset + (source ? 8 : 24)` -/
def addressOffset (offset : Nat) (ingress : Bool) : Nat := offset + if ingress then 24 else 8

/-- mirrors npt.c:179 -/
def clearTag (policy : NptPolicy) (skb : Skb) (ingress : Bool) : Skb :=
  if policy.internal ≠ 0 ∧ ingress = true ∧ tagged skb.priority = true then
    { skb with priority := 0 }
  else skb

/-- mirrors npt.c:189-192 -/
def setTag (policy : NptPolicy) (pair : NptPair) (skb : Skb) (ingress : Bool) : Skb :=
  if policy.internal ≠ 0 then
    if ingress then { skb with priority := hairpinTag pair.id, mark := 0 }
    else { skb with priority := 0 }
  else skb

/-- The program behind the selection.
mirrors npt.c:179-193 -/
def translateSelected (fails : Nat → Bool) (policy : NptPolicy) (offset : Nat) (address : Addr)
    (selected : Option Nat) (skb : Skb) (ingress : Bool) : Option Skb :=
  let skb := clearTag policy skb ingress
  match selected with
  | none => some skb
  | some index =>
    let pair := policy.pair index
    if excepted pair address !ingress then
      some (if policy.internal ≠ 0 ∧ ingress = false then { skb with priority := 0 } else skb)
    else do
      let translated ← translate address pair !ingress
      let bytes ← store fails skb.bytes (addressOffset offset ingress) translated.toList
      let bytes ← translateIcmpError fails bytes pair offset !ingress
      return setTag policy pair { skb with bytes := bytes } ingress

/-- mirrors npt.c:155-194 -/
def process (policies : UInt32 → Option NptPolicy) (fails : Nat → Bool) (skb : Skb)
    (ingress : Bool) : Option Skb :=
  match policies skb.ifIndex with
  | none => some skb
  | some policy =>
    match ipv6Offset skb.bytes (policy.ethernet ≠ 0) with
    | none => some skb
    | some offset => do
      let address := toAddr (← load skb.bytes (addressOffset offset ingress) 16)
      let selected ← selectPair policy skb.priority ingress address
      translateSelected fails policy offset address selected skb ingress

theorem clearTag_bytes (policy : NptPolicy) (skb : Skb) (ingress : Bool) :
    (clearTag policy skb ingress).bytes = skb.bytes := by
  unfold clearTag; split <;> rfl

theorem setTag_bytes (policy : NptPolicy) (pair : NptPair) (skb : Skb) (ingress : Bool) :
    (setTag policy pair skb ingress).bytes = skb.bytes := by
  unfold setTag; split
  · split <;> rfl
  · rfl

/-- What becomes of a packet behind the selection: without a pair or for an
exception only its tag changes, else it is translated and tagged. -/
theorem translateSelected_eq_some (fails : Nat → Bool) (policy : NptPolicy) (offset : Nat)
    (address : Addr) (selected : Option Nat) (skb skb' : Skb) (ingress : Bool) :
    translateSelected fails policy offset address selected skb ingress = some skb' ↔
      (selected = none ∧ skb' = clearTag policy skb ingress) ∨
      ∃ index, selected = some index ∧
        ((excepted (policy.pair index) address (!ingress) = true ∧
          skb' = if policy.internal ≠ 0 ∧ ingress = false then
              { clearTag policy skb ingress with priority := 0 }
            else clearTag policy skb ingress) ∨
        (excepted (policy.pair index) address (!ingress) = false ∧
          ∃ translated mid bytes, translate address (policy.pair index) (!ingress) =
              some translated ∧
            store fails skb.bytes (addressOffset offset ingress) translated.toList = some mid ∧
            translateIcmpError fails mid (policy.pair index) offset (!ingress) = some bytes ∧
            skb' = setTag policy (policy.pair index)
              { clearTag policy skb ingress with bytes := bytes } ingress)) := by
  cases selected with
  | none => simp [translateSelected, @eq_comm _ skb']
  | some index =>
    cases hex : excepted (policy.pair index) address (!ingress) with
    | true => simp [translateSelected, hex, @eq_comm _ skb']
    | false =>
      simp [translateSelected, hex, Option.bind_eq_some_iff, clearTag_bytes, @eq_comm _ skb']

/-! ## What `policyValue` writes -/

/-- The order arrays hold indices of pairs only. -/
theorem mem_sortedOrder (count : Nat) (bits : Nat → Nat) (i : Nat) :
    i ∈ sortedOrder count bits ↔ i < count := by
  rw [sortedOrder, List.mem_insertionSort, List.mem_range]

theorem length_sortedOrder (count : Nat) (bits : Nat → Nat) :
    (sortedOrder count bits).length = count := by
  rw [sortedOrder, List.length_insertionSort, List.length_range]

theorem take_orderArray (order : List Nat) (h : order.length ≤ 64) :
    (orderArray order).toList.take order.length = order.map UInt8.ofNat := by
  apply List.ext_getElem?
  intro i
  by_cases hi : i < order.length
  · simp [orderArray, hi, show i < 64 by omega]
  · simp [hi]

/-- `policy` is the record of an interface's pairs. -/
structure Encodes (policy : NptPolicy) (interface : InterfacePolicy) : Prop where
  length_le : interface.pairs.length ≤ 64
  internal : policy.internal ≠ 0 ↔ interface.internal = true
  nodup : (interface.pairs.map PrefixPair.id).Nodup
  prepares : ∀ (i : Nat) pair, interface.pairs[i]? = some pair → Prepares (policy.pair i) pair
  ingress : policy.ingressOrder.toList.take policy.count.toNat =
    (sortedOrder interface.pairs.length fun i => (policy.pair i).externalBits.toNat).map UInt8.ofNat
  egress : policy.egressOrder.toList.take policy.count.toNat =
    (sortedOrder interface.pairs.length fun i => (policy.pair i).internalBits.toNat).map UInt8.ofNat

/-- The loop maps every pair and refuses a repeated identity. -/
theorem pairValues_eq_ok {ifIndex : Nat} {identities : List UInt16} {pairs : List PrefixPair}
    {mapped : List NptPair} (h : pairValues ifIndex identities pairs = .ok mapped) :
    mapped.length = pairs.length ∧ (pairs.map PrefixPair.id).Nodup ∧
      (∀ id ∈ identities, id ∉ pairs.map PrefixPair.id) ∧
      ∀ (i : Nat) pair, pairs[i]? = some pair → Prepares (mapped[i]?.getD {}) pair := by
  induction pairs generalizing identities mapped with
  | nil =>
    obtain rfl := (except_pure_eq_ok ..).mp h
    simp
  | cons pair pairs ih =>
    simp only [pairValues, except_ite_eq_ok, except_throw_eq_ok, and_false, false_or,
      except_bind_eq_ok, except_pure_eq_ok] at h
    obtain ⟨hnew, first, hfirst, rest, hrest, rfl⟩ := h
    obtain ⟨hlen, hnd, hid, hprep⟩ := ih hrest
    refine ⟨by simp [hlen], ?_, ?_, ?_⟩
    · rw [List.map_cons, List.nodup_cons]
      exact ⟨hid pair.id List.mem_cons_self, hnd⟩
    · intro id hmem
      rw [List.map_cons, List.mem_cons, not_or]
      exact ⟨fun he => hnew (he ▸ hmem), hid id (.tail _ hmem)⟩
    · intro i p hp
      cases i with
      | zero =>
        obtain rfl : pair = p := by simpa using hp
        exact prepares_of_pairValue hfirst
      | succ i => exact hprep i p (by simpa using hp)

variable {interface : InterfacePolicy} {policy : NptPolicy}

theorem encodes_of_policyValue {header : PacketHeader}
    (h : policyValue interface header = .ok policy) :
    Encodes policy interface := by
  simp only [policyValue, except_bind_eq_ok, except_ite_eq_ok, except_throw_eq_ok,
    except_pure_eq_ok, and_false, false_and, false_or, exists_false] at h
  obtain ⟨hlen, ethernet, -, mapped, hmapped, rfl⟩ := h
  have hlen : interface.pairs.length ≤ 64 := Nat.not_lt.mp hlen
  obtain ⟨hml, hnd, -, hprep⟩ := pairValues_eq_ok hmapped
  have hcount : (UInt32.ofNat interface.pairs.length).toNat = interface.pairs.length := by
    rw [UInt32.toNat_ofNat']; omega
  have hpair : NptPolicy.pair { pairs := Vector.ofFn fun i => mapped[i.val]?.getD {} } =
      fun i => mapped[i]?.getD {} := by
    funext i
    by_cases hi : i < 64
    · simp [NptPolicy.pair, hi]
    · simp [NptPolicy.pair, hi, show mapped.length ≤ i by omega]
  have horder (bits : Nat → Nat) :
      (orderArray (sortedOrder interface.pairs.length bits)).toList.take interface.pairs.length =
        (sortedOrder interface.pairs.length bits).map UInt8.ofNat := by
    have := take_orderArray (sortedOrder interface.pairs.length bits)
      (by rw [length_sortedOrder]; exact hlen)
    rwa [length_sortedOrder] at this
  exact {
    length_le := hlen
    internal := by cases interface.internal <;> simp
    nodup := hnd
    prepares := fun i pair hi => by
      have := congrFun hpair i
      exact this ▸ hprep i pair hi
    ingress := by
      simp only [hcount, horder]
      exact congrArg (fun f : Nat → NptPair => (sortedOrder interface.pairs.length fun i =>
        (f i).externalBits.toNat).map UInt8.ofNat) hpair.symm
    egress := by
      simp only [hcount, horder]
      exact congrArg (fun f : Nat → NptPair => (sortedOrder interface.pairs.length fun i =>
        (f i).internalBits.toNat).map UInt8.ofNat) hpair.symm }

/-! ## What `process` selects -/

theorem selectFrom_eq (policy : NptPolicy) (matches_ : NptPair → Bool) (order : List Nat)
    (h : ∀ i ∈ order, i < 64) :
    selectFrom policy matches_ (order.map UInt8.ofNat) =
      some (order.find? fun i => matches_ (policy.pair i)) := by
  induction order with
  | nil => rfl
  | cons i order ih =>
    have hi : i < 64 := h i List.mem_cons_self
    have hn : (UInt8.ofNat i).toNat = i := by rw [UInt8.toNat_ofNat']; omega
    rw [List.map_cons, selectFrom, hn, if_neg (by unfold maxPairs; omega)]
    cases hm : matches_ (policy.pair i) with
    | true => rw [if_pos rfl, List.find?_cons, hm]
    | false =>
      rw [if_neg (by simp), List.find?_cons, hm]
      exact ih fun j hj => h j (.tail _ hj)

/-- The length of the prefix a hook selects by. -/
def selectBits (pair : NptPair) (ingress : Bool) : Nat :=
  (if ingress then pair.externalBits else pair.internalBits).toNat

/-- With a policy of `policyValue` the loop finds the first match in the order
of the prefix lengths, and never drops the packet. -/
theorem Encodes.selectPair_eq (h : Encodes policy interface) (priority : UInt32) (ingress : Bool)
    (address : Addr) :
    selectPair policy priority ingress address =
      some ((sortedOrder interface.pairs.length fun i => selectBits (policy.pair i) ingress).find?
        fun i => selects policy priority ingress address (policy.pair i)) := by
  have hlen := h.length_le
  have hmem (bits : Nat → Nat) (i : Nat)
      (hi : i ∈ sortedOrder interface.pairs.length bits) : i < 64 :=
    Nat.lt_of_lt_of_le ((mem_sortedOrder ..).mp hi) hlen
  cases ingress with
  | true =>
    simp only [selectPair, if_true]
    rw [h.ingress, selectFrom_eq _ _ _ (hmem _)]
    rfl
  | false =>
    simp only [selectPair, Bool.false_eq_true, if_false]
    rw [h.egress, selectFrom_eq _ _ _ (hmem _)]
    rfl

/-- A selected pair is one of the interface's, and its record is prepared. -/
theorem Encodes.prepares_of_selected (h : Encodes policy interface) {priority : UInt32}
    {ingress : Bool} {address : Addr} {index : Nat}
    (hs : selectPair policy priority ingress address = some (some index)) :
    ∃ pair, interface.pairs[index]? = some pair ∧ Prepares (policy.pair index) pair := by
  rw [h.selectPair_eq] at hs
  have hmem := List.mem_of_find?_eq_some (Option.some.inj hs)
  have hi : index < interface.pairs.length := (mem_sortedOrder ..).mp hmem
  exact ⟨_, List.getElem?_eq_getElem hi, h.prepares index _ (List.getElem?_eq_getElem hi)⟩

end Mwan.Npt.Bpf

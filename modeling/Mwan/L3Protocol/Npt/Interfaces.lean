import Mathlib.Data.List.AList
import Mwan.L3Protocol.Npt.Program

/-!
# Interface policies (`gateway/internal/ifmgr/modules/npt/npt.go`)

`interfacePolicies` turns the pairs of the configured WANs into the policies
of their interfaces: each WAN's pair on its own interface, and all of them on
the internal interface. A WAN whose lookups fail is left out and reported.

Results:
* `interfacePolicies_kept`: the policies are those of the WANs it kept.
* `interfacePolicies_complete`: without a failure it keeps every WAN with a
  pair.
-/
namespace Mwan.Npt

open Mwan.Npt.Bpf List

/-- `map[string]nptpolicy.PrefixPair`, keyed by a WAN's connection. -/
abbrev Pairs := AList fun _ : String => PrefixPair

/-- The fields of a WAN that the module reads; `key` is `wan.Key()`. -/
structure Wan where
  key : String
  iface : String
  deriving DecidableEq

structure Config where
  internalIface : String
  wans : List Wan

/-- What the lookups of one pass find: a link's index by name, whether the
internal interface has the route of a prefix, and a link's packet header. -/
structure Host where
  linkByName : String → Option Nat
  internalPrefixRouteReady : Prefix → Nat → Bool
  packetHeader : Nat → PacketHeader

/-- The errors `interfacePolicies` joins. -/
inductive InterfaceFailure
  /-- "npt: internal interface %s: %w" -/
  | internalInterface (iface : String)
  /-- "npt: %s and %s have colliding prefix-pair IDs" -/
  | collidingIds (previous key : String)
  /-- "npt: %s hairpin route: %w" -/
  | hairpinRoute (key : String)
  /-- "npt: WAN interface %s: %w" -/
  | wanInterface (iface : String)
  deriving DecidableEq

/-- The results of `interfacePolicies`. -/
structure Built where
  policies : List InterfacePolicy := []
  indices : List (String × Nat) := []
  internalIndex : Nat := 0
  failures : List InterfaceFailure := []

/-- The variables of the loop over the WANs; `internalPairs` is
`internalPolicy.Pairs`. -/
structure Building where
  identities : List (UInt16 × String) := []
  indices : List (String × Nat) := []
  policies : List InterfacePolicy := []
  internalPairs : List PrefixPair := []
  failures : List InterfaceFailure := []

/-- One round of the loop.
mirrors npt.go:513-535 -/
def appendWan (host : Host) (internalIndex : Nat) (pairs : Pairs) (b : Building) (wan : Wan) :
    Building :=
  match pairs.lookup wan.key with
  | none => b
  | some pair =>
    match b.identities.lookup pair.id with
    | some previous => { b with failures := b.failures ++ [.collidingIds previous wan.key] }
    | none =>
      let b := { b with identities := (pair.id, wan.key) :: b.identities }
      if !host.internalPrefixRouteReady pair.internal internalIndex then
        { b with failures := b.failures ++ [.hairpinRoute wan.key] }
      else match host.linkByName wan.iface with
        | none => { b with failures := b.failures ++ [.wanInterface wan.iface] }
        | some index =>
          { b with
            indices := b.indices ++ [(wan.key, index)]
            policies := b.policies ++ [⟨index, false, [pair]⟩]
            internalPairs := b.internalPairs ++ [pair] }

/-- mirrors npt.go:498-540 -/
def interfacePolicies (host : Host) (cfg : Config) (pairs : Pairs) : Built :=
  if pairs.entries.isEmpty then {}
  else match host.linkByName cfg.internalIface with
    | none => { failures := [.internalInterface cfg.internalIface] }
    | some internalIndex =>
      let b := cfg.wans.foldl (appendWan host internalIndex pairs) {}
      { policies :=
          if b.internalPairs.isEmpty then b.policies
          else b.policies ++ [⟨internalIndex, true, b.internalPairs⟩]
        indices := b.indices
        internalIndex := internalIndex
        failures := b.failures }

/-! ## The WANs kept -/

/-- A WAN with the pair and the interface index it is kept with. -/
structure Kept where
  wan : Wan
  pair : PrefixPair
  index : Nat

/-- The policy of a WAN's own interface. -/
def Kept.policy (k : Kept) : InterfacePolicy := ⟨k.index, false, [k.pair]⟩

/-- What the lookups say of a WAN that is kept. -/
structure Kept.Found (host : Host) (internalIndex : Nat) (pairs : Pairs) (k : Kept) : Prop where
  pair : pairs.lookup k.wan.key = some k.pair
  index : host.linkByName k.wan.iface = some k.index
  route : host.internalPrefixRouteReady k.pair.internal internalIndex = true

/-- `b` is `start` with the WANs of `kept` appended. -/
structure Building.Extends (start b : Building) (kept : List Kept) : Prop where
  indices : b.indices = start.indices ++ kept.map fun k => (k.wan.key, k.index)
  policies : b.policies = start.policies ++ kept.map Kept.policy
  internalPairs : b.internalPairs = start.internalPairs ++ kept.map Kept.pair
  failures : start.failures <+: b.failures

theorem Building.Extends.refl (b : Building) : b.Extends b [] :=
  ⟨by simp, by simp, by simp, prefix_refl _⟩

variable {kept : List Kept}

theorem Building.Extends.trans {a b c : Building} {kept' : List Kept} (h : a.Extends b kept)
    (h' : b.Extends c kept') : a.Extends c (kept ++ kept') where
  indices := by rw [h'.indices, h.indices, map_append, append_assoc]
  policies := by rw [h'.policies, h.policies, map_append, append_assoc]
  internalPairs := by rw [h'.internalPairs, h.internalPairs, map_append, append_assoc]
  failures := h.failures.trans h'.failures

section Loop

variable (host : Host) (internalIndex : Nat) (pairs : Pairs)

/-- A round keeps its WAN, or has nothing to keep, or reports a failure. -/
theorem appendWan_cases (b : Building) (wan : Wan) :
    (pairs.lookup wan.key = none ∧ appendWan host internalIndex pairs b wan = b) ∨
    (∃ k : Kept, k.wan = wan ∧ k.Found host internalIndex pairs ∧
      b.Extends (appendWan host internalIndex pairs b wan) [k]) ∨
    (b.Extends (appendWan host internalIndex pairs b wan) [] ∧
      ∃ f, (appendWan host internalIndex pairs b wan).failures = b.failures ++ [f]) := by
  have hfailed (identities : List (UInt16 × String)) (f : InterfaceFailure) :
      b.Extends { b with identities := identities, failures := b.failures ++ [f] } [] :=
    ⟨by simp, by simp, by simp, prefix_append ..⟩
  unfold appendWan
  cases hpair : pairs.lookup wan.key with
  | none => exact .inl ⟨rfl, rfl⟩
  | some pair =>
    refine .inr ?_
    cases hid : b.identities.lookup pair.id with
    | some =>
      simp only [hid]
      exact .inr ⟨hfailed _ _, _, rfl⟩
    | none =>
      cases hroute : host.internalPrefixRouteReady pair.internal internalIndex with
      | false =>
        simp only [hid, hroute]
        exact .inr ⟨hfailed _ _, _, rfl⟩
      | true =>
        cases hlink : host.linkByName wan.iface with
        | none =>
          simp only [hid, hroute]
          exact .inr ⟨hfailed _ _, _, rfl⟩
        | some index =>
          simp only [hid, hroute]
          exact .inl ⟨⟨wan, pair, index⟩, rfl, ⟨hpair, hlink, hroute⟩,
            rfl, rfl, rfl, prefix_refl _⟩

/-- The loop appends WANs it found, and all with a pair if it reports nothing. -/
theorem foldl_appendWan (wans : List Wan) (b : Building) :
    ∃ kept : List Kept, b.Extends (wans.foldl (appendWan host internalIndex pairs) b) kept ∧
      (∀ k ∈ kept, k.wan ∈ wans ∧ k.Found host internalIndex pairs) ∧
      ((wans.foldl (appendWan host internalIndex pairs) b).failures = b.failures →
        ∀ wan ∈ wans, ∀ pair, pairs.lookup wan.key = some pair →
          ∃ k ∈ kept, k.wan = wan ∧ k.pair = pair) := by
  induction wans generalizing b with
  | nil => exact ⟨[], .refl b, by simp, by simp⟩
  | cons wan wans ih =>
    rw [foldl_cons]
    obtain ⟨kept, hext, hfound, hall⟩ := ih (appendWan host internalIndex pairs b wan)
    rcases appendWan_cases host internalIndex pairs b wan with
      ⟨hnone, heq⟩ | ⟨k, hwan, hk, hone⟩ | ⟨hone, f, hf⟩
    · rw [heq] at hext hall ⊢
      refine ⟨kept, hext, fun k hk => ⟨.tail _ (hfound k hk).1, (hfound k hk).2⟩,
        fun hno w hw pair hpair => ?_⟩
      rcases mem_cons.mp hw with rfl | hw
      · rw [hnone] at hpair; cases hpair
      · exact hall hno w hw pair hpair
    · refine ⟨k :: kept, hone.trans hext, ?_, fun hno w hw pair hpair => ?_⟩
      · intro k' hk'
        rcases mem_cons.mp hk' with rfl | hk'
        · exact ⟨hwan ▸ (.head _), hk⟩
        · exact ⟨.tail _ (hfound k' hk').1, (hfound k' hk').2⟩
      · rcases mem_cons.mp hw with rfl | hw
        · refine ⟨k, (.head _), hwan, ?_⟩
          have hk := hk.pair
          rw [hwan, hpair] at hk
          exact (Option.some.inj hk).symm
        · -- the whole loop reports nothing, so neither does the rest of it
          have hrest := IsPrefix.eq_of_length_le hext.failures
            (by rw [hno]; exact hone.failures.length_le)
          obtain ⟨k', hk', hw'⟩ := hall hrest.symm w hw pair hpair
          exact ⟨k', .tail _ hk', hw'⟩
    · refine ⟨kept, hone.trans hext, fun k hk =>
        ⟨.tail _ (hfound k hk).1, (hfound k hk).2⟩, fun hno => ?_⟩
      have hlen := hext.failures.length_le
      rw [hno, hf] at hlen
      simp at hlen

end Loop

/-- The policies of the WANs kept: each on its own interface, then all of them
on the internal one. -/
def keptPolicies (internalIndex : Nat) (kept : List Kept) : List InterfacePolicy :=
  if kept.isEmpty then []
  else kept.map Kept.policy ++ [⟨internalIndex, true, kept.map Kept.pair⟩]

variable {host : Host} {cfg : Config} {pairs : Pairs} {internalIndex : Nat}

/-- What `interfacePolicies` builds when it finds the internal interface. -/
theorem interfacePolicies_kept (hlink : host.linkByName cfg.internalIface = some internalIndex) :
    ∃ kept : List Kept,
      (interfacePolicies host cfg pairs).policies = keptPolicies internalIndex kept ∧
      (interfacePolicies host cfg pairs).indices = kept.map (fun k => (k.wan.key, k.index)) ∧
      (kept ≠ [] → (interfacePolicies host cfg pairs).internalIndex = internalIndex) ∧
      (∀ k ∈ kept, k.wan ∈ cfg.wans ∧ k.Found host internalIndex pairs) ∧
      ((interfacePolicies host cfg pairs).failures = [] →
        ∀ wan ∈ cfg.wans, ∀ pair, pairs.lookup wan.key = some pair →
          ∃ k ∈ kept, k.wan = wan ∧ k.pair = pair) := by
  cases hempty : pairs.entries.isEmpty with
  | true =>
    have hnil : pairs = ∅ := AList.ext (by simpa using hempty)
    refine ⟨[], by simp [interfacePolicies, hempty, keptPolicies],
      by simp [interfacePolicies, hempty], fun h => absurd rfl h, by simp,
      fun _ wan _ pair hpair => ?_⟩
    rw [hnil, AList.lookup_empty] at hpair
    cases hpair
  | false =>
    obtain ⟨kept, hext, hfound, hall⟩ := foldl_appendWan host internalIndex pairs cfg.wans {}
    have hpolicies := hext.policies
    have hinternal := hext.internalPairs
    simp only [nil_append] at hpolicies hinternal
    refine ⟨kept, ?_, by simpa [interfacePolicies, hempty, hlink] using hext.indices,
      fun _ => by simp [interfacePolicies, hempty, hlink], hfound,
      by simpa [interfacePolicies, hempty, hlink] using hall⟩
    simp only [interfacePolicies, hempty, hlink, hpolicies, hinternal, keptPolicies]
    cases kept <;> simp

/-- Without the internal interface nothing is built. -/
theorem interfacePolicies_noInternal (hlink : host.linkByName cfg.internalIface = none) :
    (interfacePolicies host cfg pairs).policies = [] := by
  unfold interfacePolicies
  rw [hlink]
  split <;> rfl

/-- Without a failure every WAN with a pair is kept. -/
theorem interfacePolicies_complete (h : (interfacePolicies host cfg pairs).failures = []) :
    ∃ internalIndex kept,
      (interfacePolicies host cfg pairs).policies = keptPolicies internalIndex kept ∧
      (kept ≠ [] → host.linkByName cfg.internalIface = some internalIndex) ∧
      (∀ k ∈ kept, k.wan ∈ cfg.wans ∧ k.Found host internalIndex pairs) ∧
      ∀ wan ∈ cfg.wans, ∀ pair, pairs.lookup wan.key = some pair →
        ∃ k ∈ kept, k.wan = wan ∧ k.pair = pair := by
  cases hlink : host.linkByName cfg.internalIface with
  | some internalIndex =>
    obtain ⟨kept, hpol, -, -, hfound, hall⟩ := interfacePolicies_kept hlink
    exact ⟨internalIndex, kept, hpol, fun _ => rfl, hfound, hall h⟩
  | none =>
    refine ⟨0, [], interfacePolicies_noInternal hlink, fun hne => absurd rfl hne, by simp, ?_⟩
    intro wan _ pair hpair
    -- a failure is reported unless there is no pair at all
    have hempty : pairs.entries = [] := by
      by_contra hne
      simp [interfacePolicies, hlink, hne] at h
    rw [show pairs = ∅ from AList.ext hempty, AList.lookup_empty] at hpair
    cases hpair

theorem mem_keptPolicies {p : InterfacePolicy} :
    p ∈ keptPolicies internalIndex kept ↔
      (∃ k ∈ kept, k.policy = p) ∨ (kept ≠ [] ∧ p = ⟨internalIndex, true, kept.map Kept.pair⟩) := by
  cases kept with
  | nil => simp [keptPolicies]
  | cons k => simp [keptPolicies, or_assoc, @eq_comm _ p k.policy]

end Mwan.Npt

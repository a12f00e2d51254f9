import Mwan.L2Machine.Steps

/-!
# What the checks before an installation say

`install_pair` scans the table for a slot and for collisions before it touches
anything. A slot it finds is `Admitted`: free or draining, and the requested
directions collide with none that is served.

Results:
* `findSlot_admitted`: the scan's answer is admitted;
* `placePair_eq_ok`: the table after a new pair has taken the slot.
-/
namespace Mwan.Native

open Mwan.Core Mwan.Core.Exec List

theorem checkCollisions_eq_ok (config : Config) (spec other : PairSpec) (message : String)
    (u : Unit) :
    checkCollisions config spec other message = .ok u ↔ spec.Avoids config other := by
  simp only [checkCollisions, except_forM_eq_ok, except_ite_eq_ok, except_throw_eq_ok,
    except_pure_eq_ok, and_false, false_or, and_true, Bool.and_eq_true, not_and, and_imp,
    Bool.not_eq_true, directionIndexes, forall_mem_cons, not_mem_nil, false_imp_iff,
    implies_true, PairSpec.Avoids, Fin.forall_fin_two]

/-- What a scan over some slots has found. -/
structure Scanned (owner : OwnerState) (spec : PairSpec) (slots : List Nat)
    (before found : Option Nat × Option Nat) : Prop where
  avoids : ∀ slot ∈ slots, (owner.table.pairs slot).state ≠ .absent →
    spec.Avoids owner.config (owner.table.pairs slot).spec
  free : ∀ slot, found.1 = some slot → before.1 = some slot ∨ slot ∈ slots ∧
    (owner.table.pairs slot).state = .absent ∧
    (owner.table.pairs slot).generation ≠ 18446744073709551615
  draining : ∀ slot, found.2 = some slot → before.2 = some slot ∨ slot ∈ slots ∧
    (owner.table.pairs slot).state = .draining ∧
    (owner.table.pairs slot).generation ≠ 18446744073709551615

variable {owner : OwnerState} {spec : PairSpec} {slot : Nat}

theorem scanPair_scanned {before found : Option Nat × Option Nat}
    (h : scanPair owner spec before slot = .ok found) :
    Scanned owner spec [slot] before found := by
  unfold scanPair at h
  by_cases habsent : (owner.table.pairs slot).state = .absent
  · rw [if_pos habsent, except_pure_eq_ok] at h
    subst h
    refine ⟨fun s hs hne => ?_, fun s hs => ?_, fun s hs => .inl hs⟩
    · rw [mem_singleton.mp hs] at hne
      exact absurd habsent hne
    · dsimp only at hs
      split at hs
      case isTrue hc =>
        simp only [Bool.and_eq_true, decide_eq_true_eq] at hc
        cases hs
        exact .inr ⟨mem_singleton_self _, habsent, hc.2⟩
      case isFalse => exact .inl hs
  · simp only [if_neg habsent, except_bind_eq_ok, checkCollisions_eq_ok, except_pure_eq_ok] at h
    obtain ⟨-, havoids, rfl⟩ := h
    refine ⟨fun s hs _ => ?_, fun s hs => .inl hs, fun s hs => ?_⟩
    · rw [mem_singleton.mp hs]
      exact havoids
    · dsimp only at hs
      split at hs
      case isTrue hc =>
        simp only [Bool.and_eq_true, decide_eq_true_eq] at hc
        cases hs
        exact .inr ⟨mem_singleton_self _, hc.1.2, hc.2⟩
      case isFalse => exact .inl hs

theorem scanPairs_scanned {slots : List Nat} {before found : Option Nat × Option Nat}
    (h : slots.foldlM (scanPair owner spec) before = .ok found) :
    Scanned owner spec slots before found := by
  induction slots generalizing before with
  | nil =>
    cases h
    exact ⟨fun _ hs => absurd hs not_mem_nil, fun _ hs => .inl hs, fun _ hs => .inl hs⟩
  | cons slot slots ih =>
    obtain ⟨middle, hslot, hslots⟩ := (except_bind_eq_ok ..).mp h
    have h₁ := scanPair_scanned hslot
    have h₂ := ih hslots
    refine ⟨fun s hs => ?_, fun s hs => ?_, fun s hs => ?_⟩
    · rcases mem_cons.mp hs with rfl | hs
      · exact h₁.avoids s (mem_singleton_self _)
      · exact h₂.avoids s hs
    · rcases h₂.free s hs with hs | ⟨hs, h⟩
      · exact (h₁.free s hs).imp id fun h => ⟨mem_cons.mpr (.inl (mem_singleton.mp h.1)),
          h.2⟩
      · exact .inr ⟨.tail _ hs, h⟩
    · rcases h₂.draining s hs with hs | ⟨hs, h⟩
      · exact (h₁.draining s hs).imp id fun h =>
          ⟨mem_cons.mpr (.inl (mem_singleton.mp h.1)), h.2⟩
      · exact .inr ⟨.tail _ hs, h⟩

/-- Both directions are requested only by the mask of both. -/
theorem requests_both (hmask : spec.requestedDirectionMask ≤ 3) (h₀ : spec.requests 0 = true)
    (h₁ : spec.requests 1 = true) :
    spec.requestedDirectionMask = 3 := by
  have small : ∀ n : Fin 4, UInt32.ofNat n &&& 1 ≠ 0 → UInt32.ofNat n &&& 2 ≠ 0 →
      UInt32.ofNat n = 3 := by decide
  have hlt : spec.requestedDirectionMask.toNat < 4 :=
    Nat.lt_succ_of_le (UInt32.le_iff_toNat_le.mp hmask)
  have h := small ⟨_, hlt⟩
  simp only [UInt32.ofNat_toNat] at h
  exact h (of_decide_eq_true h₀) (of_decide_eq_true h₁)

/-- A slot the scan finds is admitted. -/
theorem findSlot_admitted (hmask : spec.requestedDirectionMask ≤ 3)
    (h : findSlot owner spec = .ok slot) :
    Admitted owner slot spec := by
  simp only [findSlot, except_bind_eq_ok, except_forM_eq_ok, checkCollisions_eq_ok] at h
  obtain ⟨found, hscan, -, hretained, h⟩ := h
  have hscan := scanPairs_scanned hscan
  cases hfound : found.1.or found.2 with
  | none =>
    rw [hfound] at h
    exact absurd h (except_throw_eq_ok _ _)
  | some s =>
    simp only [hfound, except_ite_eq_ok, except_throw_eq_ok, and_false, false_or, except_pure_eq_ok]
      at h
    obtain ⟨hcollision, rfl⟩ := h
    have hslot : slot < owner.capacity ∧ (owner.table.pairs slot).generation ≠ 18446744073709551615 ∧
        ((owner.table.pairs slot).state = .absent ∨ (owner.table.pairs slot).state = .draining) := by
      rcases Option.or_eq_some_iff.mp hfound with hfree | ⟨-, hdraining⟩
      · obtain ⟨hs, hstate, hgeneration⟩ := (hscan.free slot hfree).resolve_left (by simp)
        exact ⟨mem_range.mp hs, hgeneration, .inl hstate⟩
      · obtain ⟨hs, hstate, hgeneration⟩ := (hscan.draining slot hdraining).resolve_left (by simp)
        exact ⟨mem_range.mp hs, hgeneration, .inr hstate⟩
    refine ⟨hslot.1, hslot.2.1, hslot.2.2, fun other ho => hscan.avoids other (mem_range.mpr ho),
      fun handle pair hp => ?_, fun h₀ h₁ => ?_⟩
    · exact hretained ⟨handle, pair⟩ (AList.mem_lookup_iff.mp hp)
    · exact Bool.eq_false_of_not_eq_true fun hc => hcollision ⟨requests_both hmask h₀ h₁, hc⟩

/-- The pair `install_pair` puts into a slot. -/
def OwnerState.newPair (owner : OwnerState) (slot : Nat) (spec : PairSpec)
    (guards : Option (Fin 2 → PacketGuard)) : Pair where
  generation := (owner.table.pairs slot).generation + 1
  state := .draining
  spec := spec
  guards := guards

/-- The new pair takes the slot; a pair that drained there is retained, if it
is clean and there is room. -/
theorem placePair_eq_ok {guards : Option (Fin 2 → PacketGuard)} {table : PairTable}
    (h : placePair owner slot spec guards = .ok table) :
    ((owner.table.pairs slot).state ≠ .draining ∧
      table = owner.table.setPair slot (owner.newPair slot spec guards)) ∨
    ((owner.table.pairs slot).state = .draining ∧ (owner.table.pairs slot).clean = true ∧
      owner.table.retained.keys.length < owner.capacity ∧
      table = { owner.table.setPair slot (owner.newPair slot spec guards) with
        retained := owner.table.retained.insert (owner.pairResult slot).handle
          (owner.table.pairs slot) }) := by
  unfold placePair at h
  obtain ⟨middle, hretain, rfl⟩ := (except_map_eq_ok ..).mp h
  by_cases hdraining : (owner.table.pairs slot).state = .draining
  · rw [if_pos hdraining] at hretain
    simp only [retainPair, hdraining, ne_eq, not_true_eq_false, false_or] at hretain
    by_cases hclean : (owner.table.pairs slot).clean = true
    · by_cases hroom : owner.capacity ≤ owner.table.retained.keys.length
      · simp [hclean, hroom] at hretain
      · simp only [hclean, not_true_eq_false, if_false, if_neg hroom, Except.ok.injEq] at hretain
        subst hretain
        refine .inr ⟨hdraining, hclean, Nat.lt_of_not_le hroom, ?_⟩
        simp [PairTable.setPair, OwnerState.newPair]
    · simp [hclean] at hretain
  · rw [if_neg hdraining] at hretain
    cases hretain
    exact .inl ⟨hdraining, rfl⟩

end Mwan.Native

import Mathlib.Tactic.Common

/-!
# A ledger of resources

Resources are numbered in the order of their creation and given to a holder.
Releasing one takes it away from the holder for good, also when the release
reports a failure; the holder is then stuck. `Balanced` says that the ledger
and the holders agree.

Results:
* `Balanced.create`, `Balanced.release`, `Balanced.congr`: what keeps the
  balance;
* `Balanced.once`: no resource is released twice;
* `Balanced.outstanding`: whatever was created and not released successfully
  is with its holder, or the holder is stuck;
* `Balanced.settled`: when nobody holds anything and nobody is stuck, every
  resource has been released successfully, once.
-/
namespace Mwan.Core

open Function

variable {H : Type}

/-- What happened to a resource. -/
inductive LedgerEntry (H : Type)
  | created (resource : Nat) (holder : H)
  | released (resource : Nat) (ok : Bool)

/-- The outcomes of the releases of one resource. -/
def releases (resource : Nat) (ledger : List (LedgerEntry H)) : List Bool :=
  ledger.filterMap fun
    | .released r ok => if r = resource then some ok else none
    | .created .. => none

theorem releases_released_self (resource : Nat) (ok : Bool) (ledger : List (LedgerEntry H)) :
    releases resource (.released resource ok :: ledger) = ok :: releases resource ledger := by
  simp [releases]

variable {resource : Nat}

theorem releases_released_ne {r : Nat} (h : r ≠ resource) (ok : Bool)
    (ledger : List (LedgerEntry H)) :
    releases resource (.released r ok :: ledger) = releases resource ledger := by
  simp [releases, h]

/-- The ledger agrees with what is held and who is stuck; `next` is the number
of the next resource, or one before it. -/
structure Balanced (next : Nat) (held : H → Option Nat) (stuck : H → Prop)
    (ledger : List (LedgerEntry H)) : Prop where
  fresh : ∀ resource holder, .created resource holder ∈ ledger → resource < next
  unique : ∀ resource holder holder', .created resource holder ∈ ledger →
    .created resource holder' ∈ ledger → holder = holder'
  once : ∀ resource, (releases resource ledger).length ≤ 1
  known : ∀ resource, releases resource ledger ≠ [] →
    ∃ holder, .created resource holder ∈ ledger
  owned : ∀ holder resource, held holder = some resource →
    .created resource holder ∈ ledger ∧ releases resource ledger = []
  outstanding : ∀ resource holder, .created resource holder ∈ ledger →
    releases resource ledger ≠ [true] → held holder = some resource ∨ stuck holder

variable {next : Nat} {held : H → Option Nat} {stuck : H → Prop} {ledger : List (LedgerEntry H)}

theorem Balanced.empty (next : Nat) (h : ∀ holder, held holder = none) :
    Balanced next held stuck [] where
  fresh := fun _ _ hc => absurd hc List.not_mem_nil
  unique := fun _ _ _ hc => absurd hc List.not_mem_nil
  once := fun _ => Nat.zero_le _
  known := fun _ hr => absurd rfl hr
  owned := fun holder resource hh => by rw [h] at hh; cases hh
  outstanding := fun _ _ hc => absurd hc List.not_mem_nil

variable {held' : H → Option Nat}

/-- The same is held, and who was stuck still is. -/
theorem Balanced.congr (h : Balanced next held stuck ledger) {next' : Nat} {stuck' : H → Prop}
    (hnext : next ≤ next') (hheld : ∀ holder, held' holder = held holder)
    (hstuck : ∀ holder, stuck holder → stuck' holder) : Balanced next' held' stuck' ledger :=
  { h with
    fresh := fun resource holder hc => Nat.lt_of_lt_of_le (h.fresh resource holder hc) hnext
    owned := fun holder resource hh => h.owned holder resource (hheld holder ▸ hh)
    outstanding := fun resource holder hc hr =>
      (h.outstanding resource holder hc hr).imp ((hheld holder).trans ·) (hstuck holder) }

variable {holder : H}

/-- A holder without a resource gets a new one. -/
theorem Balanced.create [DecidableEq H] (h : Balanced next held stuck ledger)
    (hnone : held holder = none) (hheld : held' = update held holder (some next)) :
    Balanced (next + 1) held' stuck (.created next holder :: ledger) := by
  subst hheld
  -- the new number has not been used
  have hnew (other : H) : .created next other ∉ ledger :=
    fun hc => Nat.lt_irrefl _ (h.fresh _ _ hc)
  have hunreleased : releases next ledger = [] := by
    by_contra hr
    obtain ⟨other, hc⟩ := h.known next hr
    exact hnew other hc
  have mem {resource : Nat} {other : H}
      (hc : .created resource other ∈ LedgerEntry.created next holder :: ledger) :
      (resource = next ∧ other = holder) ∨ .created resource other ∈ ledger := by
    rcases List.mem_cons.mp hc with he | hc
    · cases he; exact .inl ⟨rfl, rfl⟩
    · exact .inr hc
  constructor
  case fresh =>
    intro resource other hc
    rcases mem hc with ⟨rfl, -⟩ | hc
    · exact Nat.lt_succ_self _
    · exact Nat.lt_succ_of_lt (h.fresh resource other hc)
  case unique =>
    intro resource a b ha hb
    rcases mem ha with ⟨rfl, rfl⟩ | ha' <;> rcases mem hb with ⟨he, rfl⟩ | hb'
    · rfl
    · exact absurd hb' (hnew b)
    · subst he; exact absurd ha' (hnew a)
    · exact h.unique resource a b ha' hb'
  case once => exact h.once
  case known =>
    intro resource hr
    obtain ⟨other, hc⟩ := h.known resource hr
    exact ⟨other, .tail _ hc⟩
  case owned =>
    intro other resource hh
    by_cases heq : other = holder
    · subst heq
      rw [update_self] at hh
      cases hh
      exact ⟨(.head _), hunreleased⟩
    · rw [update_of_ne heq] at hh
      obtain ⟨hc, hr⟩ := h.owned other resource hh
      exact ⟨.tail _ hc, hr⟩
  case outstanding =>
    intro resource other hc hr
    rcases mem hc with ⟨rfl, rfl⟩ | hc
    · exact .inl (update_self ..)
    · refine (h.outstanding resource other hc hr).imp (fun hh => ?_) id
      rw [update_of_ne, hh]
      rintro rfl
      rw [hnone] at hh
      cases hh

/-- A holder's resource is released; after a failure the holder is stuck. -/
theorem Balanced.release [DecidableEq H] (h : Balanced next held stuck ledger)
    (hsome : held holder = some resource) {ok : Bool} {next' : Nat} (hnext : next ≤ next')
    {stuck' : H → Prop} (hheld : held' = update held holder none)
    (hstuck : ∀ other, stuck other → stuck' other) (hfailed : ok = false → stuck' holder) :
    Balanced next' held' stuck' (.released resource ok :: ledger) := by
  subst hheld
  obtain ⟨hcreated, hunreleased⟩ := h.owned holder resource hsome
  -- nobody else holds it
  have hother {other : H} (hne : other ≠ holder) {r : Nat} (hh : held other = some r) :
      resource ≠ r := by
    rintro rfl
    exact hne (h.unique _ _ _ (h.owned other _ hh).1 hcreated)
  have mem {r : Nat} {other : H}
      (hc : .created r other ∈ LedgerEntry.released resource ok :: ledger) :
      .created r other ∈ ledger := by
    rcases List.mem_cons.mp hc with he | hc
    · cases he
    · exact hc
  constructor
  case fresh => exact fun r other hc => Nat.lt_of_lt_of_le (h.fresh r other (mem hc)) hnext
  case unique => exact fun r a b ha hb => h.unique r a b (mem ha) (mem hb)
  case once =>
    intro r
    by_cases hr : resource = r
    · subst hr
      rw [releases_released_self, hunreleased]
      exact Nat.le_refl _
    · rw [releases_released_ne hr]
      exact h.once r
  case known =>
    intro r hr
    by_cases heq : resource = r
    · subst heq
      exact ⟨holder, .tail _ hcreated⟩
    · rw [releases_released_ne heq] at hr
      obtain ⟨other, hc⟩ := h.known r hr
      exact ⟨other, .tail _ hc⟩
  case owned =>
    intro other r hh
    by_cases heq : other = holder
    · rw [heq, update_self] at hh
      cases hh
    · rw [update_of_ne heq] at hh
      rw [releases_released_ne (hother heq hh)]
      obtain ⟨hc, hr⟩ := h.owned other r hh
      exact ⟨.tail _ hc, hr⟩
  case outstanding =>
    intro r other hc hr
    by_cases heq : resource = r
    · subst heq
      rw [h.unique _ _ _ (mem hc) hcreated]
      rw [releases_released_self, hunreleased] at hr
      exact .inr (hfailed (eq_false_of_ne_true fun ht => hr (by rw [ht])))
    · rw [releases_released_ne heq] at hr
      rcases h.outstanding r other (mem hc) hr with hh | hs
      · by_cases hne : other = holder
        · subst hne
          rw [hsome] at hh
          exact absurd (Option.some.inj hh) heq
        · exact .inl ((update_of_ne hne _ _).trans hh)
      · exact .inr (hstuck other hs)

/-- When nobody holds anything and nobody is stuck, everything created has been
released successfully, once. -/
theorem Balanced.settled (h : Balanced next held stuck ledger)
    (hnone : ∀ holder, held holder = none) (hstuck : ∀ holder, ¬ stuck holder)
    (hc : .created resource holder ∈ ledger) : releases resource ledger = [true] := by
  by_contra hr
  rcases h.outstanding resource holder hc hr with hh | hs
  · rw [hnone] at hh
    cases hh
  · exact hstuck holder hs

end Mwan.Core

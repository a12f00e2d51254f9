import Mwan.Core.Ledger
import Mwan.L2Machine.PairMap

/-!
# Hardware rules of the native owner

The flows the SDK has returned are the resources of a ledger (`Core.Ledger`),
the legs of pairs and the VXLAN contexts are their holders. A leg that has a
flow or an unfinished deletion is one of a pair in use, with its inverse in the
map, so that no packet of a rule that may still be there lacks its inverse.

Results:
* `accounted_step`: every step keeps the ledger balanced;
* `Accounted.released`: an owner without rules has destroyed every flow it ever
  created;
* `flow_accounting`: both, and what an installed, a draining and a retained
  pair hold, for every run.
-/
namespace Mwan.Native

open Mwan.Core Function

/-! ## Flows and their holders -/

/-- What an event says about a flow. -/
def Event.entry : Event → Option (LedgerEntry Holder)
  | .created flow holder => some (.created flow holder)
  | .destroyed flow ok => some (.released flow ok)
  | _ => none

/-- The flows created and destroyed so far, the latest first. -/
def World.ledger (w : World) : List (LedgerEntry Holder) := w.events.filterMap Event.entry

/-- The flow a leg or a context has. A leg is one of the pair of that
generation. -/
def World.held (w : World) : Holder → Option Flow
  | .leg slot generation index =>
    if (w.owner.table.pairs slot).generation = generation then
      ((w.owner.table.pairs slot).legs index).flow
    else none
  | .vxlan slot => (w.owner.vxlan slot).flow

/-- A deletion has failed for good. -/
def World.stuck (w : World) : Holder → Prop
  | .leg slot generation index => (w.owner.table.pairs slot).generation = generation ∧
      ((w.owner.table.pairs slot).legs index).deleteFailed = true
  | .vxlan slot => (w.owner.vxlan slot).cleanupFailed = true

/-- The ledger is balanced, and rules are only where they may be. -/
structure Accounted (w : World) : Prop where
  receivers : w.owner.config.receivers.length ≤ maximumReceivers
  balanced : Balanced w.calls w.held w.stuck w.ledger
  legs : ∀ slot index, ((w.owner.table.pairs slot).legs index).clean = false →
    slot < w.owner.capacity ∧ (w.owner.table.pairs slot).state ≠ .absent ∧
      ((w.owner.table.pairs slot).legs index).inverse = true
  contexts : ∀ slot, (w.owner.vxlan slot).clean = false → slot < maximumReceivers
  installed : ∀ slot, (w.owner.table.pairs slot).state = .installed →
    ∀ index, (w.owner.table.pairs slot).spec.requests index = true →
      ((w.owner.table.pairs slot).legs index).flow.isSome = true ∧
      ((w.owner.table.pairs slot).legs index).inverse = true
  retained : ∀ handle pair, w.owner.table.retained.lookup handle = some pair → pair.clean = true

theorem Leg.clean_eq_false (leg : Leg) :
    leg.clean = false ↔ leg.flow.isSome = true ∨ leg.deleteFailed = true := by
  unfold Leg.clean
  cases leg.flow <;> cases leg.deleteFailed <;> simp

variable {w w' : World}

theorem stuck_congr (hpairs : ∀ slot,
      (w'.owner.table.pairs slot).generation = (w.owner.table.pairs slot).generation ∧
      ∀ index, ((w.owner.table.pairs slot).legs index).deleteFailed = true →
        ((w'.owner.table.pairs slot).legs index).deleteFailed = true)
    (hvxlan : ∀ slot, (w.owner.vxlan slot).cleanupFailed = true →
      (w'.owner.vxlan slot).cleanupFailed = true) (holder : Holder) (h : w.stuck holder) :
    w'.stuck holder := by
  cases holder with
  | leg slot generation index => exact ⟨(hpairs slot).1.trans h.1, (hpairs slot).2 index h.2⟩
  | vxlan slot => exact hvxlan slot h

/-- The balance depends on the flows, the failed deletions and the generations alone. -/
theorem Accounted.balanced_congr (h : Accounted w) (hcalls : w.calls ≤ w'.calls) (hpairs : ∀ slot,
      (w'.owner.table.pairs slot).generation = (w.owner.table.pairs slot).generation ∧
      ∀ index, ((w'.owner.table.pairs slot).legs index).flow =
          ((w.owner.table.pairs slot).legs index).flow ∧
        ((w'.owner.table.pairs slot).legs index).deleteFailed =
          ((w.owner.table.pairs slot).legs index).deleteFailed)
    (hvxlan : ∀ slot, (w'.owner.vxlan slot).flow = (w.owner.vxlan slot).flow ∧
      (w'.owner.vxlan slot).cleanupFailed = (w.owner.vxlan slot).cleanupFailed) :
    Balanced w'.calls w'.held w'.stuck w.ledger := by
  refine h.balanced.congr hcalls (fun holder => ?_) (stuck_congr (fun slot => ⟨(hpairs slot).1,
    fun index hd => ((hpairs slot).2 index).2.trans hd⟩) fun slot hd => (hvxlan slot).2.trans hd)
  cases holder with
  | leg slot generation index =>
    simp only [World.held, (hpairs slot).1, ((hpairs slot).2 index).1]
  | vxlan slot => exact (hvxlan slot).1

section LegChange

variable {w w' : World} {slot : Nat} {index : Fin 2} {leg : Leg}

section

variable
  (hpairs : w'.owner.table.pairs = Function.update w.owner.table.pairs slot ((w.owner.table.pairs slot).setLeg index leg))

include hpairs

/-- The pairs after one leg has been replaced. -/
theorem pairs_setLeg (s : Nat) :
    (w'.owner.table.pairs s).generation = (w.owner.table.pairs s).generation ∧
    (w'.owner.table.pairs s).state = (w.owner.table.pairs s).state ∧
    (w'.owner.table.pairs s).spec = (w.owner.table.pairs s).spec ∧
    ∀ i, (w'.owner.table.pairs s).legs i =
      if s = slot ∧ i = index then leg else (w.owner.table.pairs s).legs i := by
  rw [hpairs]
  by_cases hs : s = slot
  · subst hs
    simp [Pair.setLeg, update_apply]
  · simp [hs]

theorem held_setLeg (hvxlan : w'.owner.vxlan = w.owner.vxlan) :
    w'.held = update w.held (.leg slot (w.owner.table.pairs slot).generation index)
      leg.flow := by
  funext holder
  cases holder with
  | vxlan s => simp [World.held, hvxlan]
  | leg s generation i =>
    obtain ⟨hgeneration, -, -, hlegs⟩ := pairs_setLeg hpairs s
    simp only [World.held, hgeneration, hlegs, update_apply, Holder.leg.injEq]
    by_cases hs : s = slot
    · subst hs
      by_cases hi : i = index
      · by_cases hg : (w.owner.table.pairs s).generation = generation
        · simp [hi, hg]
        · simp [hg, Ne.symm hg]
      · simp [hi]
    · simp [hs]

theorem stuck_setLeg (hvxlan : w'.owner.vxlan = w.owner.vxlan)
    (hleg : ((w.owner.table.pairs slot).legs index).deleteFailed = true → leg.deleteFailed = true) :
    ∀ holder, w.stuck holder → w'.stuck holder := by
  refine stuck_congr (fun s => ⟨(pairs_setLeg hpairs s).1, fun i hd => ?_⟩) fun s hs => ?_
  · rw [(pairs_setLeg hpairs s).2.2.2]
    split
    case isTrue h => obtain ⟨rfl, rfl⟩ := h; exact hleg hd
    case isFalse => exact hd
  · rw [hvxlan]; exact hs

end

end LegChange

/-! ## Every step -/

variable {slot : Nat}

/-- What is asked of the pair of one slot. -/
structure Pair.Accountable (pair : Pair) (inTable : Prop) : Prop where
  legs : ∀ index, (pair.legs index).clean = false →
    inTable ∧ pair.state ≠ .absent ∧ (pair.legs index).inverse = true
  installed : pair.state = .installed → ∀ index, pair.spec.requests index = true →
    (pair.legs index).flow.isSome = true ∧ (pair.legs index).inverse = true

/-- The pairs change, each to one that is accounted for if it was. -/
theorem Accounted.change (h : Accounted w) (hconfig : w'.owner.config = w.owner.config)
    (hvxlan : w'.owner.vxlan = w.owner.vxlan)
    (hbalanced : Balanced w'.calls w'.held w'.stuck w'.ledger)
    (hpairs : ∀ s, (w.owner.table.pairs s).Accountable (s < w.owner.capacity) →
      (w'.owner.table.pairs s).Accountable (s < w.owner.capacity))
    (hretained : ∀ handle pair, w'.owner.table.retained.lookup handle = some pair →
      pair.clean = true) : Accounted w' := by
  have hcapacity : w'.owner.capacity = w.owner.capacity :=
    congrArg (·.pairCapacity.toNat) hconfig
  have hpair (s : Nat) := hpairs s ⟨h.legs s, h.installed s⟩
  refine ⟨?_, hbalanced, fun s => ?_, ?_, fun s => (hpair s).installed, hretained⟩
  · rw [hconfig]; exact h.receivers
  · rw [hcapacity]; exact (hpair s).legs
  · rw [hvxlan]; exact h.contexts

/-- The pair of one slot replaced by one with the same flows. -/
theorem Accounted.setPair (h : Accounted w) (new : Pair)
    (hpairs : w'.owner.table.pairs = update w.owner.table.pairs slot new)
    (hretained : w'.owner.table.retained = w.owner.table.retained)
    (hconfig : w'.owner.config = w.owner.config) (hvxlan : w'.owner.vxlan = w.owner.vxlan)
    (hcalls : w'.calls = w.calls) (hledger : w'.ledger = w.ledger)
    (hgeneration : new.generation = (w.owner.table.pairs slot).generation)
    (hflow : ∀ index, (new.legs index).flow = ((w.owner.table.pairs slot).legs index).flow)
    (hfailed : ∀ index, (new.legs index).deleteFailed =
      ((w.owner.table.pairs slot).legs index).deleteFailed)
    (hinverse : ∀ index, ((w.owner.table.pairs slot).legs index).inverse = true →
      (new.legs index).inverse = true)
    (hstate : (w.owner.table.pairs slot).state ≠ .absent → new.state ≠ .absent)
    (hinstalled : new.state = .installed → ∀ index, new.spec.requests index = true →
      (new.legs index).flow.isSome = true ∧ (new.legs index).inverse = true) : Accounted w' := by
  have pairs (s : Nat) : (s = slot ∧ w'.owner.table.pairs s = new) ∨
      w'.owner.table.pairs s = w.owner.table.pairs s := by
    rw [hpairs]
    by_cases hs : s = slot
    · exact .inl ⟨hs, by rw [hs, update_self]⟩
    · exact .inr (update_of_ne hs _ _)
  refine h.change hconfig hvxlan ?_ (fun s hold => ?_) (by rw [hretained]; exact h.retained)
  · rw [hledger]
    refine h.balanced_congr hcalls.ge (fun s => ?_) fun s => by rw [hvxlan]; exact ⟨rfl, rfl⟩
    rcases pairs s with ⟨rfl, hs⟩ | hs
    · rw [hs]; exact ⟨hgeneration, fun index => ⟨hflow index, hfailed index⟩⟩
    · rw [hs]; exact ⟨rfl, fun _ => ⟨rfl, rfl⟩⟩
  · rcases pairs s with ⟨rfl, hs⟩ | hs <;> rw [hs]
    · refine ⟨fun index hclean => ?_, hinstalled⟩
      unfold Leg.clean at hclean
      rw [hflow, hfailed] at hclean
      obtain ⟨hb, hn, hi⟩ := hold.legs index hclean
      exact ⟨hb, hstate hn, hinverse index hi⟩
    · exact hold

variable {index : Fin 2}

/-- One leg of a draining pair changes its flow. -/
theorem Accounted.setLeg (h : Accounted w) {leg : Leg} (hslot : slot < w.owner.capacity)
    (hstate : (w.owner.table.pairs slot).state = .draining) (hpairs : w'.owner.table.pairs =
      update w.owner.table.pairs slot ((w.owner.table.pairs slot).setLeg index leg))
    (hretained : w'.owner.table.retained = w.owner.table.retained)
    (hconfig : w'.owner.config = w.owner.config) (hvxlan : w'.owner.vxlan = w.owner.vxlan)
    (hbalanced : Balanced w'.calls w'.held w'.stuck w'.ledger) (hinverse : leg.inverse = true) :
    Accounted w' := by
  refine h.change hconfig hvxlan hbalanced (fun s hold => ?_) (by rw [hretained]; exact h.retained)
  by_cases hs : s = slot
  · subst hs
    obtain ⟨-, hst, -, hlegs⟩ := pairs_setLeg hpairs s
    rw [hstate] at hst
    refine ⟨fun i hclean => ⟨hslot, by rw [hst]; decide, ?_⟩, fun hi => by rw [hst] at hi; cases hi⟩
    rw [hlegs] at hclean ⊢
    by_cases hi : i = index
    · rw [if_pos ⟨rfl, hi⟩]; exact hinverse
    · rw [if_neg fun heq => hi heq.2] at hclean ⊢
      exact (hold.legs i hclean).2.2
  · rw [hpairs, update_of_ne hs]
    exact hold

/-- A new pair takes the slot of one without rules. -/
theorem Accounted.place (h : Accounted w) (spec : PairSpec) (guards : Option (Fin 2 → PacketGuard))
    {retained : AList fun _ : Handle => Pair} (hclean : (w.owner.table.pairs slot).clean = true)
    (hretained : ∀ handle pair, retained.lookup handle = some pair → pair.clean = true) :
    Accounted (w.setTable
      { w.owner.table.setPair slot (w.owner.newPair slot spec guards) with
        retained := retained }) := by
  have hlegs (index : Fin 2) := (Leg.clean_iff _).mp ((Pair.clean_iff _).mp hclean index)
  refine h.change rfl rfl ?_ (fun s hold => ?_) hretained
  · refine h.balanced.congr (Nat.le_refl _) (fun holder => ?_) fun holder hs => ?_
    · cases holder with
      | vxlan s => rfl
      | leg s generation index =>
        by_cases heq : s = slot
        · subst heq
          simp [World.held, World.setTable, PairTable.setPair, OwnerState.newPair, (hlegs index).1]
        · simp [World.held, World.setTable, PairTable.setPair, heq]
    · cases holder with
      | vxlan s => exact hs
      | leg s generation index =>
        by_cases heq : s = slot
        · subst heq
          exact absurd hs.2 (by rw [(hlegs index).2]; decide)
        · simpa [World.stuck, World.setTable, PairTable.setPair, heq] using hs
  · by_cases heq : s = slot
    · subst heq
      constructor <;> simp [World.setTable, PairTable.setPair, OwnerState.newPair, Leg.clean]
    · simpa [World.setTable, PairTable.setPair, heq] using hold

/-- Pairs without rules are forgotten. -/
theorem Accounted.forget (h : Accounted w)
    (hclean : ∀ slot < w.owner.capacity, (w.owner.table.pairs slot).clean = true) :
    Accounted { w with
      owner := { w.owner with
        active := false
        table := w.owner.table.forgetAll w.owner.capacity } } := by
  have pairs (s : Nat) := pairs_forgetAll w.owner.table w.owner.capacity s
  refine h.change rfl rfl ?_ (fun s hold => ?_) nofun
  · refine h.balanced_congr (Nat.le_refl _) (fun s => ?_) fun _ => ⟨rfl, rfl⟩
    dsimp only
    rw [pairs]
    split <;> exact ⟨rfl, fun _ => ⟨rfl, rfl⟩⟩
  · dsimp only
    rw [pairs]
    split
    case isTrue hb =>
      refine ⟨fun index hc => ?_, nofun⟩
      exact absurd ((Pair.clean_iff _).mp (hclean s hb) index) (Bool.eq_false_iff.mp hc)
    case isFalse => exact hold

/-- The ledger is a matter of the pairs' events. -/
theorem SamePairs.ledger (h : SamePairs w w') : w'.ledger = w.ledger := by
  have hfilter (events : List Event) :
      events.filterMap Event.entry = (events.filter Event.ofPairs).filterMap Event.entry := by
    rw [List.filterMap_filter]
    refine List.filterMap_congr fun event _ => ?_
    cases event <;> rfl
  unfold World.ledger
  rw [hfilter, h.events, ← hfilter]

theorem Accounted.samePairs (h : Accounted w) (hs : SamePairs w w') : Accounted w' := by
  refine h.change hs.config hs.vxlan ?_ (fun s hold => by rw [hs.table]; exact hold)
    (by rw [hs.table]; exact h.retained)
  rw [hs.ledger]
  refine h.balanced_congr hs.calls (fun _ => ?_) fun _ => ?_
  · rw [hs.table]; exact ⟨rfl, fun _ => ⟨rfl, rfl⟩⟩
  · rw [hs.vxlan]; exact ⟨rfl, rfl⟩

/-- What is held after a context has been replaced. -/
theorem held_setContext (w : World) (slot : Nat) (context : Context) :
    (w.setContext slot context).held = update w.held (.vxlan slot) context.flow := by
  funext holder
  cases holder with
  | leg s generation index =>
    have hne : Holder.leg s generation index ≠ .vxlan slot := nofun
    rw [update_of_ne hne]
    rfl
  | vxlan s =>
    by_cases hs : s = slot
    · subst hs; simp [World.held, World.setContext]
    · simp [World.held, World.setContext, hs]

theorem stuck_setContext (w : World) (slot : Nat) (context : Context)
    (h : (w.owner.vxlan slot).cleanupFailed = true → context.cleanupFailed = true) :
    ∀ holder, w.stuck holder → (w.setContext slot context).stuck holder := by
  refine stuck_congr (fun s => ⟨rfl, fun _ hd => hd⟩) fun s hs => ?_
  by_cases heq : s = slot
  · subst heq; simpa [World.setContext] using h hs
  · simpa [World.setContext, heq] using hs

theorem clean_setContext (h : Accounted w) (hslot : slot < maximumReceivers) (context : Context)
    (s : Nat) (hc : ((w.setContext slot context).owner.vxlan s).clean = false) :
    s < maximumReceivers := by
  by_cases heq : s = slot
  · rw [heq]; exact hslot
  · refine h.contexts s ?_
    simpa [World.setContext, heq] using hc

theorem accounted_vxlanStep (hstep : VxlanStep w w') (h : Accounted w) : Accounted w' := by
  cases hstep with
  | amend contexts hflow hcleanup =>
    refine { h with balanced := ?_, contexts := fun slot hc => h.contexts slot ?_ }
    · exact h.balanced_congr (Nat.le_refl _) (fun _ => ⟨rfl, fun _ => ⟨rfl, rfl⟩⟩)
        fun slot => ⟨hflow slot, hcleanup slot⟩
    · unfold Context.clean at hc ⊢
      rw [← hflow, ← hcleanup]
      exact hc
  | create slot hslot hquiescing hclean =>
    refine { h with
      balanced := ?_
      contexts := clean_setContext h (Nat.lt_of_lt_of_le hslot h.receivers) _ }
    have hnone : w.held (.vxlan slot) = none := ((Context.clean_iff _).mp hclean).1
    exact (h.balanced.create hnone (held_setContext w slot _)).congr (Nat.le_refl _) (fun _ => rfl)
      (stuck_setContext w slot _ fun hd => hd)
  | destroy slot flow ok hslot hflow =>
    refine { h with balanced := ?_, contexts := clean_setContext h hslot _ }
    have hsome : w.held (.vxlan slot) = some flow := hflow
    refine h.balanced.release hsome (Nat.le_succ _) (held_setContext w slot _)
      (stuck_setContext w slot _ fun hd => ?_) fun hok => ?_
    · rw [hd, Bool.true_or]
    · simp [World.vxlanDestroyed, World.stuck, World.setContext, hok]

theorem accounted_pairStep (hstep : PairStep w w') (h : Accounted w) : Accounted w' := by
  cases hstep with
  | drain | faultPair =>
    exact h.setPair _ rfl rfl rfl rfl rfl rfl rfl (fun _ => rfl) (fun _ => rfl) (fun _ hi => hi)
      (fun _ => nofun) nofun
  | install slot hslot hstate hlegs =>
    exact h.setPair _ rfl rfl rfl rfl rfl rfl rfl (fun _ => rfl) (fun _ => rfl) (fun _ hi => hi)
      (fun _ => nofun) fun _ => hlegs
  | renew slot =>
    exact h.setPair _ rfl rfl rfl rfl rfl rfl rfl (fun _ => rfl) (fun _ => rfl) (fun _ hi => hi)
      (fun hn => hn) (h.installed slot)
  | keyPresent => exact { h with }
  | index slot index hslot hstate =>
    have hleg (i : Fin 2) : ((w.owner.table.pairs slot).marked index).legs i =
        if i = index then { (w.owner.table.pairs slot).legs index with inverse := true }
        else (w.owner.table.pairs slot).legs i := update_apply ..
    refine h.setPair ((w.owner.table.pairs slot).marked index) rfl rfl rfl rfl rfl rfl rfl
      (fun i => ?_) (fun i => ?_) (fun i hi => (marked_inverse ..).mpr (.inr hi)) (fun hn => hn)
      fun hs => ?_
    · rw [hleg]; split
      case isTrue he => rw [he]
      case isFalse => rfl
    · rw [hleg]; split
      case isTrue he => rw [he]
      case isFalse => rfl
    · rw [show ((w.owner.table.pairs slot).marked index).state = .draining from hstate] at hs
      cases hs
  | destroy slot index flow ok hslot hstate hflow =>
    let leg : Leg := { (w.owner.table.pairs slot).legs index with
      flow := none
      deleteFailed := ((w.owner.table.pairs slot).legs index).deleteFailed || !ok }
    have hleg := @pairs_setLeg w (w.destroyed slot index flow ok) slot index leg rfl slot
    have hheld := @held_setLeg w (w.destroyed slot index flow ok) slot index leg rfl rfl
    have hsome : w.held (.leg slot (w.owner.table.pairs slot).generation index) = some flow :=
      (if_pos rfl).trans hflow
    refine h.setLeg hslot hstate rfl rfl rfl rfl ?_ (h.legs slot index
      ((Leg.clean_eq_false _).mpr (.inl (by rw [hflow]; rfl)))).2.2
    refine h.balanced.release hsome (Nat.le_succ _) hheld (stuck_setLeg rfl rfl fun hd => ?_)
      fun hok => ⟨hleg.1, ?_⟩
    · rw [hd, Bool.true_or]
    · rw [hleg.2.2.2, if_pos ⟨rfl, rfl⟩]
      simp only [leg, hok, Bool.not_false, Bool.or_true]
  | create slot index hslot hstate hinverse hclean =>
    let leg : Leg := { (w.owner.table.pairs slot).legs index with flow := some w.calls }
    have hheld := @held_setLeg w (w.created slot index) slot index leg rfl rfl
    have hnone : w.held (.leg slot (w.owner.table.pairs slot).generation index) = none :=
      (if_pos rfl).trans ((Leg.clean_iff _).mp hclean).1
    refine h.setLeg hslot hstate rfl rfl rfl rfl ?_ hinverse
    exact (h.balanced.create hnone hheld).congr (Nat.le_refl _) (fun _ => rfl)
      (stuck_setLeg rfl rfl fun hd => hd)
  | place slot spec guards table hadmitted hplace =>
    rcases placePair_eq_ok hplace with ⟨hn, rfl⟩ | ⟨hd, hclean, -, rfl⟩
    · refine h.place spec guards ?_ h.retained
      have habsent := hadmitted.state.resolve_right hn
      refine (Pair.clean_iff _).mpr fun index => Bool.eq_true_of_not_eq_false fun hc => ?_
      exact (h.legs slot index hc).2.1 habsent
    · refine h.place spec guards hclean fun handle pair hl => ?_
      rcases lookup_insert_cases hl with ⟨-, rfl⟩ | hl
      · exact hclean
      · exact h.retained handle pair hl
  | forget hclean => exact h.forget hclean

theorem accounted_step (sdk : Sdk) : Closed (Step sdk) Accounted := by
  intro w w' hstep h
  rcases hstep.pairs_or with hs | hp | hv
  · exact h.samePairs hs
  · exact accounted_pairStep hp h
  · exact accounted_vxlanStep hv h

theorem accounted_opened (h : Opened w) : Accounted w := by
  have hnone (holder : Holder) : w.held holder = none := by
    cases holder with
    | leg => simp [World.held, h.table]
    | vxlan => simp [World.held, h.vxlan]
  refine ⟨h.receivers, ?_, fun slot index hc => ?_, fun slot hc => ?_, fun slot hs => ?_,
    fun handle pair hl => ?_⟩
  · unfold World.ledger
    rw [h.events]
    exact Balanced.empty _ hnone
  · rw [h.table] at hc; cases hc
  · rw [h.vxlan] at hc; cases hc
  · rw [h.table] at hs; cases hs
  · rw [h.table] at hl; cases hl

/-! ## What the accounts give -/

/-- A flow that was created for a leg and may still be there is with that leg,
whose pair is in use and whose inverse is in the map. -/
theorem Accounted.leg_outstanding (h : Accounted w) (hi : w.owner.Integrity) {flow : Flow}
    {generation : UInt64} (hcreated : .created flow (.leg slot generation index) ∈ w.ledger)
    (hreleases : true ∉ releases flow w.ledger) :
    slot < w.owner.capacity ∧ (w.owner.table.pairs slot).generation = generation ∧
    (w.owner.table.pairs slot).state ≠ .absent ∧
    (((w.owner.table.pairs slot).legs index).flow = some flow ∨
      ((w.owner.table.pairs slot).legs index).deleteFailed = true) ∧
    w.owner.table.inverses.lookup ((w.owner.table.pairs slot).spec.directions index).inverseKey =
      some ⟨slot, generation, index⟩ := by
  have hne : releases flow w.ledger ≠ [true] := fun he => hreleases (by rw [he]; simp)
  have hleg : (w.owner.table.pairs slot).generation = generation ∧
      (((w.owner.table.pairs slot).legs index).flow = some flow ∨
        ((w.owner.table.pairs slot).legs index).deleteFailed = true) := by
    rcases h.balanced.outstanding flow _ hcreated hne with hheld | hstuck
    · obtain ⟨hg, hf⟩ := Option.ite_none_right_eq_some.mp hheld
      exact ⟨hg, .inl hf⟩
    · exact ⟨hstuck.1, .inr hstuck.2⟩
  obtain ⟨rfl, hkept⟩ := hleg
  have hclean : ((w.owner.table.pairs slot).legs index).clean = false :=
    (Leg.clean_eq_false _).mpr (hkept.imp (fun hf => by rw [hf]; rfl) id)
  obtain ⟨hb, hn, hm⟩ := h.legs slot index hclean
  exact ⟨hb, rfl, hn, hkept, (hi.entries _ _).mpr ⟨.current slot, _, ⟨hb, rfl, hn⟩, hm, rfl, rfl⟩⟩

/-- An owner without rules has destroyed every flow it ever created. -/
theorem Accounted.released (h : Accounted w) (hr : Released w) {flow : Flow} {holder : Holder}
    (hcreated : .created flow holder ∈ w.ledger) :
    releases flow w.ledger = [true] := by
  have hlegs (slot : Nat) (index : Fin 2) :
      ((w.owner.table.pairs slot).legs index).clean = true := by
    by_cases hb : slot < w.owner.capacity
    · exact (Pair.clean_iff _).mp (hr.pairs slot hb) index
    · exact Bool.eq_true_of_not_eq_false fun hc => hb (h.legs slot index hc).1
  have hcontexts (slot : Nat) : (w.owner.vxlan slot).clean = true := by
    by_cases hb : slot < maximumReceivers
    · exact hr.vxlan slot hb
    · exact Bool.eq_true_of_not_eq_false fun hc => hb (h.contexts slot hc)
  refine h.balanced.settled (fun holder => ?_) (fun holder hs => ?_) hcreated
  · cases holder with
    | leg slot generation index =>
      simp [World.held, ((Leg.clean_iff _).mp (hlegs slot index)).1]
    | vxlan slot => exact ((Context.clean_iff _).mp (hcontexts slot)).1
  · cases holder with
    | leg slot generation index =>
      exact absurd hs.2 (by rw [((Leg.clean_iff _).mp (hlegs slot index)).2]; decide)
    | vxlan slot =>
      have hfailed : (w.owner.vxlan slot).cleanupFailed = true := hs
      rw [((Context.clean_iff _).mp (hcontexts slot)).2] at hfailed
      cases hfailed

/-- A final shutdown that succeeds leaves every flow destroyed. -/
theorem close_releases {sdk : Sdk} {w₀ : World} (h₀ : Opened w₀) (ops : List Op)
    {s : Traced World}
    (hclose : execute sdk (.close .finalShutdown) (after sdk w₀ ops) = .ok () s) :
    Accounted s.now ∧ Released s.now := by
  obtain ⟨hhistory, hrested⟩ := @reached_run sdk w₀ h₀ ops
  have hspec := @execute_spec sdk (.close .finalShutdown) w₀ (after sdk w₀ ops) ⟨hhistory, hrested⟩
  rw [hclose] at hspec
  exact ⟨hspec.1.always (accounted_step sdk) (accounted_opened h₀) s.now List.mem_cons_self,
    hspec.2.2 rfl⟩

/-- For every run, whatever the hardware answers: no flow is destroyed twice;
a leg's flow that was created and not destroyed successfully is with a pair in
use whose inverse is in the map; a pair is installed only with all its rules and
inverses; draining and retained pairs have neither rules nor failed deletions
between operations; and after a successful final shutdown every flow has been
destroyed successfully, once. -/
theorem flow_accounting (sdk : Sdk) (w₀ : World) (h₀ : Opened w₀) (ops : List Op) :
    (∀ w ∈ (after sdk w₀ ops).now :: (after sdk w₀ ops).trace,
      (∀ flow, (releases flow w.ledger).length ≤ 1) ∧
      (∀ flow slot generation index, .created flow (.leg slot generation index) ∈ w.ledger →
        true ∉ releases flow w.ledger →
          slot < w.owner.capacity ∧ (w.owner.table.pairs slot).generation = generation ∧
          (w.owner.table.pairs slot).state ≠ .absent ∧
          (((w.owner.table.pairs slot).legs index).flow = some flow ∨
            ((w.owner.table.pairs slot).legs index).deleteFailed = true) ∧
          w.owner.table.inverses.lookup
            ((w.owner.table.pairs slot).spec.directions index).inverseKey =
              some ⟨slot, generation, index⟩) ∧
      (∀ slot, (w.owner.table.pairs slot).state = .installed →
        ∀ index, (w.owner.table.pairs slot).spec.requests index = true →
          ((w.owner.table.pairs slot).legs index).flow.isSome = true ∧
          ((w.owner.table.pairs slot).legs index).inverse = true)) ∧
    (∀ slot, ((after sdk w₀ ops).now.owner.table.pairs slot).state = .draining →
      ∀ index, (((after sdk w₀ ops).now.owner.table.pairs slot).legs index).flow = none ∧
        (((after sdk w₀ ops).now.owner.table.pairs slot).legs index).deleteFailed = false) ∧
    (∀ handle pair, (after sdk w₀ ops).now.owner.table.retained.lookup handle = some pair →
      ∀ index, (pair.legs index).flow = none ∧ (pair.legs index).deleteFailed = false) ∧
    (∀ s, execute sdk (.close .finalShutdown) (after sdk w₀ ops) = .ok () s →
      ∀ flow holder, .created flow holder ∈ s.now.ledger → releases flow s.now.ledger = [true]) := by
  obtain ⟨hhistory, hrested⟩ := @reached_run sdk w₀ h₀ ops
  have haccounted := hhistory.always (accounted_step sdk) (accounted_opened h₀)
  have hintact := hhistory.always (integrity_step sdk) (mapIntact_opened h₀)
  refine ⟨fun w hw => ⟨(haccounted w hw).balanced.once, fun flow slot generation index hc hr =>
    (haccounted w hw).leg_outstanding (hintact w hw).integrity hc hr, (haccounted w hw).installed⟩,
    fun slot hs index => ?_, fun handle pair hl index => ?_, fun s hs flow holder hc => ?_⟩
  · have hclean := hrested.quiet.clean slot (.inr ⟨hs, fun hb => hb⟩)
    exact (Leg.clean_iff _).mp ((Pair.clean_iff _).mp hclean index)
  · have hclean := (haccounted _ List.mem_cons_self).retained handle pair hl
    exact (Leg.clean_iff _).mp ((Pair.clean_iff _).mp hclean index)
  · obtain ⟨ha, hr⟩ := close_releases h₀ ops hs
    exact ha.released hr hc

/-- Two flows are created by the sample run, and a final shutdown destroys the
one that is left. -/
theorem flow_accounting_sample :
    (after sampleSdk sampleWorld (sampleOps ++ [.close .finalShutdown])).now.present = false ∧
    ((after sampleSdk sampleWorld (sampleOps ++ [.close .finalShutdown])).now.ledger.length = 4) ∧
    ∀ flow, (releases flow (after sampleSdk sampleWorld
      (sampleOps ++ [.close .finalShutdown])).now.ledger).length ≤ 1 :=
  ⟨by decide +kernel, by decide +kernel,
    ((flow_accounting sampleSdk sampleWorld opened_sampleWorld _).1 _ List.mem_cons_self).1⟩

end Mwan.Native

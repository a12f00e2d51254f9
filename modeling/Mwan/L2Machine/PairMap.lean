import Mathlib.Data.List.Perm.Subperm
import Mwan.L2Machine.Operations

/-!
# The inverse map of the native owner

A frame the hardware has rewritten is undone by what the inverse map says of
its origin and tuple. The map is changed in three places of the source, pairs
move between two stores, and slots are reused under new generations.

`Integrity` says that the map is the set of the marked legs: nothing is missing
from it, nothing is left behind in it, and no two legs share a key. It is
proved by cases on the steps of `L2Machine.Steps`. Most of them change nothing
the map depends on (`Alike`); a leg enters the map, a pair takes a slot and
everything is forgotten are the others.

Results:
* `integrity_step`: every step preserves `Integrity`;
* `Integrity.resolves`: an entry leads to its pair through `handle_pair`;
* `Integrity.inverses_length`: the map stays within four entries for each slot;
* `inverseMap_exact`: all of it in every world of every run.
-/
namespace Mwan.Native

open Mwan.Core List Function

/-! ## Places -/

/-- Where the owner keeps a pair. -/
inductive Place
  | current (slot : Nat)
  | retained (handle : Handle)
  deriving DecidableEq

/-- The pair in a slot of the table or retained under a handle. -/
def OwnerState.pairAt (owner : OwnerState) : Place → Option Pair
  | .current slot => if slot < owner.capacity then some (owner.table.pairs slot) else none
  | .retained handle => owner.table.retained.lookup handle

/-- The name of a leg of the pair at a place. -/
def Place.legId : Place → Pair → Fin 2 → LegId
  | .current slot, pair, index => ⟨slot, pair.generation, index⟩
  | .retained handle, _, index => ⟨handle.slot.toNat, handle.generation, index⟩

/-- The key of a leg of the pair. -/
def Pair.key (pair : Pair) (index : Fin 2) : InverseKey := (pair.spec.directions index).inverseKey

/-- The pair is at the place and in use. -/
def Holds (capacity : Nat) (table : PairTable) : Place → Pair → Prop
  | .current slot, pair => slot < capacity ∧ table.pairs slot = pair ∧ pair.state ≠ .absent
  | .retained handle, pair => table.retained.lookup handle = some pair

/-- What is known of a retained pair. -/
structure RetainedAs (capacity : Nat) (instance_ : UInt64) (table : PairTable) (handle : Handle)
    (pair : Pair) : Prop where
  owner : handle.instance_ = instance_
  reserved : handle.reserved = 0
  bound : handle.slot.toNat < capacity
  generation : pair.generation = handle.generation
  nonzero : handle.generation ≠ 0
  older : handle.generation < (table.pairs handle.slot.toNat).generation
  state : pair.state = .draining

/-- The slots and the retained pairs are in order. -/
structure Slots (capacity : Nat) (instance_ : UInt64) (table : PairTable) : Prop where
  absent : ∀ slot < capacity, (table.pairs slot).state = .absent →
    ∀ index, ((table.pairs slot).legs index).inverse = false
  generation : ∀ slot < capacity, (table.pairs slot).state ≠ .absent →
    (table.pairs slot).generation ≠ 0
  retained : ∀ handle pair, table.retained.lookup handle = some pair →
    RetainedAs capacity instance_ table handle pair
  size : table.retained.keys.length ≤ capacity

/-- The map is the set of the marked legs. -/
structure Integrity (capacity : Nat) (instance_ : UInt64) (table : PairTable) : Prop
    extends Slots capacity instance_ table where
  requested : ∀ place pair index, Holds capacity table place pair →
    (pair.legs index).inverse = true → pair.spec.requests index = true
  distinct : ∀ place pair index place' pair' index', Holds capacity table place pair →
    Holds capacity table place' pair' → pair.spec.requests index = true →
    pair'.spec.requests index' = true → pair.key index = pair'.key index' →
      place = place' ∧ index = index'
  entries : ∀ key leg, table.inverses.lookup key = some leg ↔
    ∃ place pair, Holds capacity table place pair ∧ (pair.legs leg.direction).inverse = true ∧
      pair.key leg.direction = key ∧ place.legId pair leg.direction = leg

variable {place : Place} {pair : Pair} {index : Fin 2}

section Table

variable {capacity : Nat} {instance_ : UInt64} {table table' : PairTable} {slot : Nat}

/-- A place holds one pair. -/
theorem Holds.unique {pair' : Pair} (h : Holds capacity table place pair)
    (h' : Holds capacity table place pair') : pair = pair' := by
  cases place with
  | current => exact h.2.1.symm.trans h'.2.1
  | retained => exact Option.some.inj (h.symm.trans h')

/-- Who holds what after the pair of one slot has been replaced. -/
theorem holds_update {new : Pair} (hpairs : table'.pairs = update table.pairs slot new)
    (hretained : table'.retained = table.retained) (place : Place) (pair : Pair) :
    Holds capacity table' place pair ↔
      (place = .current slot ∧ slot < capacity ∧ pair = new ∧ new.state ≠ .absent) ∨
      (place ≠ .current slot ∧ Holds capacity table place pair) := by
  cases place with
  | retained => simp [Holds, hretained]
  | current s =>
    by_cases hs : s = slot
    · subst hs
      simp only [Holds, hpairs, update_self, true_and, ne_eq, not_true_eq_false, false_and,
        or_false]
      exact ⟨fun ⟨hb, he, hn⟩ => ⟨hb, he.symm, he ▸ hn⟩, fun ⟨hb, he, hn⟩ => ⟨hb, he.symm, he ▸ hn⟩⟩
    · simp [Holds, hpairs, hs]

/-- A leg's name is a matter of the place and the generation. -/
theorem legId_congr (place : Place) {pair' : Pair} (h : pair'.generation = pair.generation)
    (index : Fin 2) : place.legId pair' index = place.legId pair index := by
  cases place with
  | current s => simp only [Place.legId, h]
  | retained => rfl

/-- The pair of one slot replaced, and perhaps more retained. -/
theorem Slots.update (h : Slots capacity instance_ table) {new : Pair}
    (hpairs : table'.pairs = update table.pairs slot new)
    (hretained : ∀ handle pair, table'.retained.lookup handle = some pair →
      table.retained.lookup handle = some pair ∨ RetainedAs capacity instance_ table' handle pair)
    (hsize : table'.retained.keys.length ≤ capacity)
    (hgeneration : (table.pairs slot).generation ≤ new.generation)
    (hunmarked : slot < capacity → new.state = .absent → ∀ index, (new.legs index).inverse = false)
    (hlive : slot < capacity → new.state ≠ .absent → new.generation ≠ 0) :
    Slots capacity instance_ table' := by
  have pairs (s : Nat) : (s = slot ∧ table'.pairs s = new) ∨ table'.pairs s = table.pairs s := by
    rw [hpairs]
    by_cases hs : s = slot
    · exact .inl ⟨hs, by rw [hs, update_self]⟩
    · exact .inr (update_of_ne hs _ _)
  refine ⟨fun s hs => ?_, fun s hs => ?_, fun handle pair hl => ?_, hsize⟩
  · rcases pairs s with ⟨rfl, he⟩ | he
    · rw [he]; exact hunmarked hs
    · rw [he]; exact h.absent s hs
  · rcases pairs s with ⟨rfl, he⟩ | he
    · rw [he]; exact hlive hs
    · rw [he]; exact h.generation s hs
  · rcases hretained handle pair hl with hl | hr
    · have hr := h.retained handle pair hl
      refine { hr with older := ?_ }
      rcases pairs handle.slot.toNat with ⟨hs, he⟩ | he
      · rw [he]
        exact UInt64.lt_of_lt_of_le hr.older (hs ▸ hgeneration)
      · rw [he]; exact hr.older
    · exact hr

/-! ## Steps that leave the map alone -/

/-- The pairs agree in what the map depends on. -/
structure Alike (pair pair' : Pair) : Prop where
  generation : pair'.generation = pair.generation
  absent : pair'.state = .absent ↔ pair.state = .absent
  key : ∀ index, pair'.key index = pair.key index
  requests : ∀ index, pair'.spec.requests index = pair.spec.requests index
  inverse : ∀ index, (pair'.legs index).inverse = (pair.legs index).inverse

theorem Alike.refl (pair : Pair) : Alike pair pair :=
  ⟨rfl, Iff.rfl, fun _ => rfl, fun _ => rfl, fun _ => rfl⟩

/-- Another state of a pair in use. -/
theorem Alike.setState {state : PairState} (h : pair.state ≠ .absent) (hs : state ≠ .absent) :
    Alike pair { pair with state := state } :=
  ⟨rfl, ⟨fun h' => absurd h' hs, fun h' => absurd h' h⟩, fun _ => rfl, fun _ => rfl, fun _ => rfl⟩

/-- A changed leg with the same mark. -/
theorem Alike.setLeg (pair : Pair) (index : Fin 2) (leg : Leg)
    (h : leg.inverse = (pair.legs index).inverse) : Alike pair (pair.setLeg index leg) := by
  refine ⟨rfl, Iff.rfl, fun _ => rfl, fun _ => rfl, fun i => ?_⟩
  by_cases hi : i = index
  · subst hi
    simpa [Pair.setLeg] using h
  · simp [Pair.setLeg, hi]

/-- The pairs in use move to other places under the names of their legs, in a
form the map does not tell apart, and unmarked pairs with keys of their own
come in. -/
theorem Integrity.carry (h : Integrity capacity instance_ table) {New : Place → Pair → Prop}
    (move : Place → Place) (hslots : Slots capacity instance_ table')
    (hinverses : table'.inverses = table.inverses)
    (back : ∀ place pair, Holds capacity table' place pair → New place pair ∨
      ∃ before old, Holds capacity table before old ∧ Alike old pair ∧ move before = place)
    (forth : ∀ place old, Holds capacity table place old →
      ∃ pair, Holds capacity table' (move place) pair ∧ Alike old pair ∧
        ∀ index, (move place).legId pair index = place.legId old index)
    (hunmarked : ∀ place pair index, New place pair → (pair.legs index).inverse = false)
    (hfresh : ∀ place pair before old i j, New place pair → Holds capacity table before old →
      pair.spec.requests i = true → old.spec.requests j = true → pair.key i ≠ old.key j)
    (hown : ∀ place pair i place' pair' j, New place pair → New place' pair' →
      pair.spec.requests i = true → pair'.spec.requests j = true → pair.key i = pair'.key j →
      place = place' ∧ i = j) :
    Integrity capacity instance_ table' := by
  refine ⟨hslots, fun place pair index hp hi => ?_, ?_, fun key leg => ?_⟩
  · rcases back place pair hp with hn | ⟨before, old, hp, ha, -⟩
    · rw [hunmarked _ _ _ hn] at hi; cases hi
    · rw [ha.requests]
      exact h.requested before old index hp (ha.inverse index ▸ hi)
  · intro place₁ pair₁ i place₂ pair₂ j hp₁ hp₂ hi hj hk
    rcases back place₁ pair₁ hp₁ with hn₁ | ⟨before₁, old₁, hb₁, ha₁, rfl⟩
    · rcases back place₂ pair₂ hp₂ with hn₂ | ⟨before₂, old₂, hb₂, ha₂, rfl⟩
      · exact hown _ _ _ _ _ _ hn₁ hn₂ hi hj hk
      · exact absurd (hk.trans (ha₂.key j)) (hfresh _ _ _ _ _ _ hn₁ hb₂ hi (ha₂.requests j ▸ hj))
    · rcases back place₂ pair₂ hp₂ with hn₂ | ⟨before₂, old₂, hb₂, ha₂, rfl⟩
      · exact absurd (hk.symm.trans (ha₁.key i))
          (hfresh _ _ _ _ _ _ hn₂ hb₁ hj (ha₁.requests i ▸ hi))
      · obtain ⟨rfl, hij⟩ := h.distinct _ _ _ _ _ _ hb₁ hb₂ (ha₁.requests i ▸ hi)
          (ha₂.requests j ▸ hj) ((ha₁.key i).symm.trans (hk.trans (ha₂.key j)))
        exact ⟨rfl, hij⟩
  · rw [hinverses, h.entries]
    refine ⟨fun ⟨place, old, hp, hi, hk, hl⟩ => ?_, fun ⟨place, pair, hp, hi, hk, hl⟩ => ?_⟩
    · obtain ⟨pair, hp, ha, hid⟩ := forth place old hp
      exact ⟨_, pair, hp, (ha.inverse _).trans hi, (ha.key _).trans hk, (hid _).trans hl⟩
    · rcases back place pair hp with hn | ⟨before, old, hb, ha, rfl⟩
      · rw [hunmarked _ _ _ hn] at hi; cases hi
      · obtain ⟨pair', hp', -, hid⟩ := forth _ _ hb
        exact ⟨before, old, hb, (ha.inverse _).symm.trans hi, (ha.key _).symm.trans hk,
          (hid _).symm.trans (hp'.unique hp ▸ hl)⟩

/-- The pair of one slot replaced by one the map does not tell apart. -/
theorem Integrity.alike (h : Integrity capacity instance_ table) {new : Pair}
    (hpairs : table'.pairs = update table.pairs slot new)
    (hretained : table'.retained = table.retained) (hinverses : table'.inverses = table.inverses)
    (halike : Alike (table.pairs slot) new) : Integrity capacity instance_ table' := by
  have holds := @holds_update capacity table table' slot new hpairs hretained
  refine @Integrity.carry _ _ _ _ h (fun _ _ => False) id (h.toSlots.update hpairs
    (fun _ _ hl => .inl (hretained ▸ hl)) (hretained ▸ h.size)
    (UInt64.le_of_eq halike.generation.symm) (fun hb ha index => ?_) fun hb hn => ?_) hinverses
    (fun place pair hp => .inr ?_) (fun place old hp => ?_) nofun nofun nofun
  · rw [halike.inverse]
    exact h.absent slot hb (halike.absent.mp ha) index
  · rw [halike.generation]
    exact h.generation slot hb fun ha => hn (halike.absent.mpr ha)
  · rcases (holds place pair).mp hp with ⟨rfl, hb, rfl, hn⟩ | ⟨-, hp⟩
    · exact ⟨.current slot, _, ⟨hb, rfl, fun ha => hn (halike.absent.mpr ha)⟩, halike, rfl⟩
    · exact ⟨place, pair, hp, Alike.refl pair, rfl⟩
  · by_cases hplace : place = .current slot
    · subst hplace
      obtain ⟨hb, rfl, hn⟩ := hp
      exact ⟨new, (holds _ _).mpr (.inl ⟨rfl, hb, rfl, fun ha => hn (halike.absent.mp ha)⟩), halike,
        legId_congr _ halike.generation⟩
    · exact ⟨old, (holds _ _).mpr (.inr ⟨hplace, hp⟩), Alike.refl old, fun _ => rfl⟩

/-! ## A leg enters the map -/

/-- An unmarked requested leg of a pair in use is not in the map. -/
theorem Integrity.key_notMem (h : Integrity capacity instance_ table) (hslot : slot < capacity)
    (hstate : (table.pairs slot).state ≠ .absent)
    (hrequested : (table.pairs slot).spec.requests index = true)
    (hinverse : ((table.pairs slot).legs index).inverse = false) :
    (table.pairs slot).key index ∉ table.inverses := by
  intro hmem
  obtain ⟨leg, hleg⟩ := Option.isSome_iff_exists.mp (AList.lookup_isSome.mpr hmem)
  obtain ⟨place, pair, hp, hi, hk, -⟩ := (h.entries _ _).mp hleg
  have hcurrent : Holds capacity table (.current slot) (table.pairs slot) := ⟨hslot, rfl, hstate⟩
  obtain ⟨rfl, hd⟩ := h.distinct _ _ _ _ _ _ hp hcurrent (h.requested _ _ _ hp hi) hrequested hk
  rw [hp.unique hcurrent, hd, hinverse] at hi
  cases hi

/-- The pair with one more leg marked. -/
def Pair.marked (pair : Pair) (index : Fin 2) : Pair :=
  pair.setLeg index { pair.legs index with inverse := true }

theorem marked_inverse (pair : Pair) (index i : Fin 2) :
    ((pair.marked index).legs i).inverse = true ↔ i = index ∨ (pair.legs i).inverse = true := by
  unfold Pair.marked Pair.setLeg
  by_cases hi : i = index
  · subst hi; simp
  · simp [hi]

theorem Integrity.mark (h : Integrity capacity instance_ table) (hslot : slot < capacity)
    (hstate : (table.pairs slot).state ≠ .absent)
    (hrequested : (table.pairs slot).spec.requests index = true)
    (hkey : (table.pairs slot).key index ∉ table.inverses)
    (hpairs : table'.pairs = update table.pairs slot ((table.pairs slot).marked index))
    (hretained : table'.retained = table.retained)
    (hinverses : table'.inverses = table.inverses.insert ((table.pairs slot).key index)
      ⟨slot, (table.pairs slot).generation, index⟩) :
    Integrity capacity instance_ table' := by
  have holds := @holds_update capacity table table' slot _ hpairs hretained
  have hcurrent : Holds capacity table (.current slot) (table.pairs slot) := ⟨hslot, rfl, hstate⟩
  -- the pair held before, which has the same specification
  have back (place : Place) (pair' : Pair) (hp : Holds capacity table' place pair') :
      ∃ pair, Holds capacity table place pair ∧ pair'.spec = pair.spec ∧
        pair'.generation = pair.generation ∧ ∀ i, (pair'.legs i).inverse = true →
          (place = .current slot ∧ i = index) ∨ (pair.legs i).inverse = true := by
    rcases (holds place pair').mp hp with ⟨rfl, -, rfl, -⟩ | ⟨-, hp⟩
    · exact ⟨_, hcurrent, rfl, rfl, fun i hi => ((marked_inverse _ _ _).mp hi).imp (⟨rfl, ·⟩) id⟩
    · exact ⟨pair', hp, rfl, rfl, fun i hi => .inr hi⟩
  constructor
  case toSlots =>
    exact h.toSlots.update hpairs (fun _ _ hl => .inl (hretained ▸ hl)) (hretained ▸ h.size)
      (UInt64.le_refl _) (fun _ ha => absurd ha hstate) fun hb _ => h.generation slot hb hstate
  case requested =>
    intro place pair' i hp hi
    obtain ⟨pair, hold, hspec, -, hmark⟩ := back place pair' hp
    rw [hspec]
    rcases hmark i hi with ⟨rfl, rfl⟩ | hi
    · rw [hold.unique hcurrent]; exact hrequested
    · exact h.requested place pair i hold hi
  case distinct =>
    intro place₁ pair₁ index₁ place₂ pair₂ index₂ hp₁ hp₂ hr₁ hr₂ hk
    obtain ⟨old₁, hp₁, hs₁, -⟩ := back place₁ pair₁ hp₁
    obtain ⟨old₂, hp₂, hs₂, -⟩ := back place₂ pair₂ hp₂
    rw [hs₁] at hr₁
    rw [hs₂] at hr₂
    unfold Pair.key at hk
    rw [hs₁, hs₂] at hk
    exact h.distinct _ _ _ _ _ _ hp₁ hp₂ hr₁ hr₂ hk
  case entries =>
    intro key leg
    have hnew : Holds capacity table' (.current slot) ((table.pairs slot).marked index) :=
      (holds ..).mpr (.inl ⟨rfl, hslot, rfl, hstate⟩)
    rw [hinverses]
    refine ⟨fun hl => ?_, fun ⟨place, pair', hp, hi, hk, hl⟩ => ?_⟩
    · rcases lookup_insert_cases hl with ⟨rfl, rfl⟩ | hl
      · exact ⟨.current slot, _, hnew, (marked_inverse _ _ _).mpr (.inl rfl), rfl, rfl⟩
      · obtain ⟨place, pair, hp, hi, hk, hl⟩ := (h.entries _ _).mp hl
        by_cases hplace : place = .current slot
        · subst hplace
          rw [hp.unique hcurrent] at hi hk hl
          exact ⟨_, _, hnew, (marked_inverse _ _ _).mpr (.inr hi), hk, hl⟩
        · exact ⟨place, pair, (holds ..).mpr (.inr ⟨hplace, hp⟩), hi, hk, hl⟩
    · obtain ⟨pair, hp, hspec, hgeneration, hmark⟩ := back place pair' hp
      have hkey' : pair.key leg.direction = key := by
        unfold Pair.key at hk ⊢
        rw [← hspec]
        exact hk
      have hleg' : place.legId pair leg.direction = leg := by
        rw [← legId_congr place hgeneration]
        exact hl
      rcases hmark _ hi with ⟨rfl, hd⟩ | hi
      · rw [hp.unique hcurrent, hd] at hkey'
        rw [hp.unique hcurrent, hd] at hleg'
        rw [← hkey', AList.lookup_insert, ← hleg']
        rfl
      · have hold := (h.entries key leg).mpr ⟨place, pair, hp, hi, hkey', hleg'⟩
        rw [AList.lookup_insert_ne, hold]
        intro heq
        rw [heq] at hold
        exact hkey (AList.lookup_isSome.mp (by rw [hold]; rfl))

/-! ## A pair takes a slot -/

/-- Directions that do not collide have different keys. -/
theorem inverseKey_ne_of_collision {config : Config} {first second : Direction}
    (h : collision config first second = false) : first.inverseKey ≠ second.inverseKey := by
  intro heq
  have horigin : first.originId = second.originId := congrArg InverseKey.origin heq
  have htranslated : first.translated = second.translated := congrArg InverseKey.tuple heq
  simp [collision, horigin, htranslated] at h

end Table

/-! ## Placing and forgetting -/

section Owner

variable {owner : OwnerState} {slot : Nat} {spec : PairSpec} {guards : Option (Fin 2 → PacketGuard)}

/-- `Integrity` of the owner's table. -/
abbrev OwnerState.Integrity (owner : OwnerState) : Prop :=
  Native.Integrity owner.capacity owner.instance_ owner.table

theorem newPair_generation (hadmitted : Admitted owner slot spec) :
    (owner.table.pairs slot).generation < (owner.newPair slot spec guards).generation := by
  have h := hadmitted.generation
  change (owner.table.pairs slot).generation < (owner.table.pairs slot).generation + 1
  rw [UInt64.lt_iff_toNat_lt, UInt64.toNat_add]
  rw [ne_eq, ← UInt64.toNat_inj] at h
  have hlt := (owner.table.pairs slot).generation.toNat_lt
  simp only [UInt64.toNat_one, UInt64.reduceToNat] at h ⊢
  omega

/-- The keys of an admitted pair are its own. -/
theorem newPair_fresh (hadmitted : Admitted owner slot spec) {i j : Fin 2}
    (hp : Holds owner.capacity owner.table place pair) (hi : spec.requests i = true)
    (hj : pair.spec.requests j = true) :
    (owner.newPair slot spec guards).key i ≠ pair.key j := by
  refine @inverseKey_ne_of_collision owner.config _ _ ?_
  cases place with
  | current s =>
    obtain ⟨hb, rfl, hn⟩ := hp
    exact hadmitted.pairs s hb hn i j hi hj
  | retained handle => exact hadmitted.retained handle pair hp i j hi hj

/-- A new pair comes in, whatever is retained. -/
theorem Integrity.newPair (h : owner.Integrity) (hadmitted : Admitted owner slot spec)
    {table' : PairTable} (move : Place → Place)
    (hpairs : table'.pairs = update owner.table.pairs slot (owner.newPair slot spec guards))
    (hinverses : table'.inverses = owner.table.inverses)
    (hretained : ∀ handle pair, table'.retained.lookup handle = some pair →
      owner.table.retained.lookup handle = some pair ∨
      RetainedAs owner.capacity owner.instance_ table' handle pair)
    (hsize : table'.retained.keys.length ≤ owner.capacity)
    (back : ∀ place pair, Holds owner.capacity table' place pair →
      (place = .current slot ∧ pair = owner.newPair slot spec guards) ∨
      ∃ before, Holds owner.capacity owner.table before pair ∧ move before = place)
    (forth : ∀ place pair, Holds owner.capacity owner.table place pair →
      Holds owner.capacity table' (move place) pair ∧
        ∀ index, (move place).legId pair index = place.legId pair index) :
    Native.Integrity owner.capacity owner.instance_ table' := by
  have hlt : _ < (owner.newPair slot spec guards).generation := newPair_generation hadmitted
  have hnonzero : (owner.newPair slot spec guards).generation ≠ 0 := by
    intro h0
    rw [h0] at hlt
    exact absurd hlt UInt64.not_lt_zero
  refine @Integrity.carry _ _ _ _ h
    (fun place pair => place = .current slot ∧ pair = owner.newPair slot spec guards) move (h.toSlots.update hpairs hretained hsize (UInt64.le_of_lt hlt) (fun _ => nofun)
      fun _ _ => hnonzero) hinverses (fun place pair hp => ?_) (fun place pair hp => ?_)
    (fun place pair index hn => ?_) ?_ ?_
  · exact (back place pair hp).imp id fun ⟨before, hb, hm⟩ => ⟨before, pair, hb, Alike.refl pair, hm⟩
  · exact ⟨pair, (forth place pair hp).1, Alike.refl pair, (forth place pair hp).2⟩
  · rw [hn.2]; rfl
  · rintro place _ before old i j ⟨-, rfl⟩ hb hi hj
    exact newPair_fresh hadmitted hb hi hj
  · rintro _ _ i _ _ j ⟨rfl, rfl⟩ ⟨rfl, rfl⟩ hi hj hk
    refine ⟨rfl, ?_⟩
    match i, j with
    | 0, 0 => rfl
    | 1, 1 => rfl
    | 0, 1 => exact absurd hk (inverseKey_ne_of_collision (hadmitted.directions hi hj))
    | 1, 0 => exact absurd hk.symm (inverseKey_ne_of_collision (hadmitted.directions hj hi))

section

variable (h : owner.Integrity) (hadmitted : Admitted owner slot spec)

include h hadmitted

/-- The new pair takes a free slot. -/
theorem Integrity.placeFree (habsent : (owner.table.pairs slot).state = .absent) :
    Integrity owner.capacity owner.instance_
      (owner.table.setPair slot (owner.newPair slot spec guards)) := by
  have holds := @holds_update owner.capacity owner.table
    (owner.table.setPair slot (owner.newPair slot spec guards)) slot
    (owner.newPair slot spec guards) rfl rfl
  refine h.newPair hadmitted id rfl rfl (fun _ _ hl => .inl hl) h.size (fun place pair hp => ?_)
    fun place pair hp => ⟨?_, fun _ => rfl⟩
  · exact ((holds place pair).mp hp).imp (fun hp => ⟨hp.1, hp.2.2.1⟩) fun hp => ⟨place, hp.2, rfl⟩
  · refine (holds place pair).mpr (.inr ⟨?_, hp⟩)
    rintro rfl
    exact hp.2.2 (hp.2.1 ▸ habsent)

/-- The handle under which the pair of a slot is retained. -/
theorem retainedAs_displaced (hdraining : (owner.table.pairs slot).state = .draining) :
    RetainedAs owner.capacity owner.instance_
      (owner.table.setPair slot (owner.newPair slot spec guards)) (owner.pairResult slot).handle
      (owner.table.pairs slot) := by
  have hslot : (UInt32.ofNat slot).toNat = slot :=
    UInt32.toNat_ofNat_of_lt' (Nat.lt_trans hadmitted.bound owner.config.pairCapacity.toNat_lt)
  refine ⟨rfl, rfl, ?_, rfl, ?_, ?_, hdraining⟩
  · change (UInt32.ofNat slot).toNat < _
    rw [hslot]
    exact hadmitted.bound
  · exact h.generation slot hadmitted.bound (by rw [hdraining]; decide)
  · change _ < (update owner.table.pairs slot _ (UInt32.ofNat slot).toNat).generation
    rw [hslot, update_self]
    exact newPair_generation hadmitted

/-- The new pair takes the slot of one that drains, which is retained. -/
theorem Integrity.placeDraining (hdraining : (owner.table.pairs slot).state = .draining)
    (hroom : owner.table.retained.keys.length < owner.capacity) :
    Integrity owner.capacity owner.instance_
      { owner.table.setPair slot (owner.newPair slot spec guards) with
        retained := owner.table.retained.insert (owner.pairResult slot).handle
          (owner.table.pairs slot) } := by
  have hdisplaced := @retainedAs_displaced owner slot spec guards h hadmitted hdraining
  have hslot : (owner.pairResult slot).handle.slot.toNat = slot :=
    UInt32.toNat_ofNat_of_lt' (Nat.lt_trans hadmitted.bound owner.config.pairCapacity.toNat_lt)
  -- no pair of that handle has been retained before
  have hnew (handle : Handle) (pair : Pair)
      (hl : owner.table.retained.lookup handle = some pair) :
      handle ≠ (owner.pairResult slot).handle := by
    rintro rfl
    have hold := (h.retained _ _ hl).older
    rw [hslot] at hold
    exact UInt64.lt_irrefl _ hold
  have hcurrent : Holds owner.capacity owner.table (.current slot) (owner.table.pairs slot) :=
    ⟨hadmitted.bound, rfl, by rw [hdraining]; decide⟩
  refine h.newPair hadmitted (fun place => if place = .current slot then
      .retained (owner.pairResult slot).handle else place) rfl rfl (fun handle pair hl => ?_) ?_
    (fun place pair hp => ?_) fun place pair hp => ?_
  · rcases lookup_insert_cases hl with ⟨rfl, rfl⟩ | hl
    · exact .inr { hdisplaced with }
    · exact .inl hl
  · rw [AList.keys_insert, length_cons]
    exact Nat.lt_of_le_of_lt (length_erase_le ..) hroom
  · cases place with
    | current s =>
      obtain ⟨hb, hpair, hn⟩ := hp
      by_cases hs : s = slot
      · subst hs
        exact .inl ⟨rfl, hpair.symm.trans (update_self ..)⟩
      · have hs' : Place.current s ≠ .current slot := fun he => hs (Place.current.inj he)
        refine .inr ⟨.current s, ⟨hb, ?_, hn⟩, if_neg hs'⟩
        rw [← hpair]
        exact (update_of_ne hs _ _).symm
    | retained handle =>
      refine .inr ?_
      rcases lookup_insert_cases hp with ⟨rfl, rfl⟩ | hp
      · exact ⟨.current slot, hcurrent, if_pos rfl⟩
      · exact ⟨.retained handle, hp, if_neg nofun⟩
  · by_cases hplace : place = .current slot
    · subst hplace
      rw [if_pos rfl, ← hp.unique hcurrent]
      refine ⟨?_, fun index => ?_⟩
      · rw [hp.unique hcurrent]
        exact AList.lookup_insert _
      · rw [hp.unique hcurrent]
        simp only [Place.legId, hslot]
        rfl
    · rw [if_neg hplace]
      refine ⟨?_, fun _ => rfl⟩
      cases place with
      | current s =>
        obtain ⟨hb, hpair, hn⟩ := hp
        refine ⟨hb, ?_, hn⟩
        rw [← hpair]
        exact update_of_ne (fun hs => hplace (congrArg _ hs)) _ _
      | retained handle => exact (AList.lookup_insert_ne (hnew handle pair hp)).trans hp

end

/-- An empty table: nothing is in use, retained or in the map. -/
theorem Integrity.empty {capacity : Nat} {instance_ : UInt64} {table : PairTable}
    (hpairs : ∀ slot < capacity, (table.pairs slot).state = .absent ∧
      ∀ index, ((table.pairs slot).legs index).inverse = false)
    (hretained : table.retained = ∅) (hinverses : table.inverses = ∅) :
    Native.Integrity capacity instance_ table := by
  have none_held (place : Place) (pair : Pair) : ¬ Holds capacity table place pair := by
    intro hp
    cases place with
    | current s =>
      obtain ⟨hb, rfl, hn⟩ := hp
      exact hn (hpairs s hb).1
    | retained =>
      unfold Holds at hp
      rw [hretained] at hp
      cases hp
  refine ⟨⟨fun s hs _ => (hpairs s hs).2, fun s hs hn => absurd (hpairs s hs).1 hn,
    fun _ _ hl => ?_, ?_⟩, fun place pair _ hp => absurd hp (none_held place pair),
    fun place pair _ _ _ _ hp => absurd hp (none_held place pair), fun key leg => ?_⟩
  · rw [hretained] at hl; cases hl
  · rw [hretained]; exact Nat.zero_le _
  · rw [hinverses]
    exact ⟨nofun, fun ⟨place, pair, hp, _⟩ => absurd hp (none_held place pair)⟩

end Owner

/-! ## Every step -/

/-- `Integrity`, and `install_pair` has never found its key in the map. -/
structure World.MapIntact (w : World) : Prop where
  integrity : w.owner.Integrity
  keys : Event.keyPresent ∉ w.events

/-- A change of one pair that the map does not notice. -/
theorem Integrity.setPair {owner : OwnerState} (h : owner.Integrity) {slot : Nat} {new : Pair}
    (halike : Alike (owner.table.pairs slot) new) :
    Native.Integrity owner.capacity owner.instance_ (owner.table.setPair slot new) :=
  h.alike rfl rfl rfl halike

theorem mapIntact_pairStep {w w' : World} (h : PairStep w w') (hw : w.MapIntact) :
    w'.MapIntact := by
  have live {slot : Nat} (hstate : (w.owner.table.pairs slot).state = .draining) :
      (w.owner.table.pairs slot).state ≠ .absent := by rw [hstate]; decide
  cases h with
  | drain slot hslot hstate =>
    exact ⟨hw.integrity.setPair (.setState hstate nofun), hw.keys⟩
  | destroy | create =>
    exact ⟨hw.integrity.setPair (.setLeg _ _ _ rfl),
      not_mem_cons_of_ne_of_not_mem nofun hw.keys⟩
  | place slot spec guards table hadmitted hplace =>
    refine ⟨?_, hw.keys⟩
    rcases placePair_eq_ok hplace with ⟨hn, rfl⟩ | ⟨hd, -, hroom, rfl⟩
    · exact hw.integrity.placeFree hadmitted (hadmitted.state.resolve_right hn)
    · exact hw.integrity.placeDraining hadmitted hd hroom
  | keyPresent slot index hslot hstate hrequested hinverse hkey =>
    exact absurd hkey (hw.integrity.key_notMem hslot (live hstate) hrequested hinverse)
  | index slot index hslot hstate hrequested hinverse hkey =>
    exact ⟨hw.integrity.mark hslot (live hstate) hrequested hkey rfl rfl rfl, hw.keys⟩
  | faultPair slot hslot hstate | install slot hslot hstate =>
    exact ⟨hw.integrity.setPair (.setState (live hstate) nofun), hw.keys⟩
  | renew =>
    exact ⟨hw.integrity.setPair ⟨rfl, Iff.rfl, fun _ => rfl, fun _ => rfl, fun _ => rfl⟩, hw.keys⟩
  | forget =>
    refine ⟨Integrity.empty (fun slot hs => ?_) rfl rfl, hw.keys⟩
    change (PairTable.pairs (w.owner.table.forgetAll w.owner.capacity) slot).state = _ ∧ _
    rw [pairs_forgetAll, if_pos (show slot < w.owner.capacity from hs)]
    exact ⟨rfl, fun _ => rfl⟩

/-- An event that is kept by a filter is in the list exactly when it is in the
filtered one. -/
theorem SamePairs.mem_iff {w w' : World} (h : SamePairs w w') {event : Event}
    (he : event.ofPairs = true) : event ∈ w'.events ↔ event ∈ w.events := by
  have hmem (events : List Event) : event ∈ events.filter Event.ofPairs ↔ event ∈ events := by
    rw [mem_filter]
    exact and_iff_left he
  rw [← hmem w'.events, h.events, hmem]

theorem integrity_step (sdk : Sdk) : Closed (Step sdk) World.MapIntact := by
  intro w w' h hw
  rcases h.pairs_or with hs | hp | hv
  · refine ⟨?_, fun hk => hw.keys ((hs.mem_iff rfl).mp hk)⟩
    have hcapacity : w'.owner.capacity = w.owner.capacity :=
      congrArg (·.pairCapacity.toNat) hs.config
    unfold OwnerState.Integrity
    rw [hcapacity, hs.instance_, hs.table]
    exact hw.integrity
  · exact mapIntact_pairStep hp hw
  · cases hv with
    | amend => exact ⟨hw.integrity, hw.keys⟩
    | create | destroy => exact ⟨hw.integrity, not_mem_cons_of_ne_of_not_mem nofun hw.keys⟩

theorem mapIntact_opened {w : World} (h : Opened w) : w.MapIntact := by
  refine ⟨Integrity.empty (fun s _ => ?_) ?_ ?_, ?_⟩
  · rw [h.table]; exact ⟨rfl, fun _ => rfl⟩
  · rw [h.table]
  · rw [h.table]
  · rw [h.events]; exact not_mem_nil

/-! ## What integrity gives -/

section Consequences

variable {owner : OwnerState}

/-- A marked leg is one of a pair in use. -/
theorem Integrity.holds (h : owner.Integrity) (hat : owner.pairAt place = some pair)
    (hmarked : (pair.legs index).inverse = true) :
    Holds owner.capacity owner.table place pair := by
  cases place with
  | current slot =>
    obtain ⟨hb, hpair⟩ := Option.ite_none_right_eq_some.mp hat
    cases hpair
    refine ⟨hb, rfl, fun ha => ?_⟩
    rw [h.absent slot hb ha] at hmarked
    cases hmarked
  | retained => exact hat

theorem Holds.pairAt (h : Holds owner.capacity owner.table place pair) :
    owner.pairAt place = some pair := by
  cases place with
  | current =>
    obtain ⟨hb, rfl, -⟩ := h
    exact if_pos hb
  | retained => exact h

/-- The name of a leg leads to its pair. -/
theorem Integrity.handlePair_legId (h : owner.Integrity)
    (hp : Holds owner.capacity owner.table place pair) (index : Fin 2) :
    owner.handlePair (owner.legHandle (place.legId pair index)) = .ok pair := by
  unfold OwnerState.handlePair
  cases place with
  | current slot =>
    obtain ⟨hb, rfl, hn⟩ := hp
    have hslot : (UInt32.ofNat slot).toNat = slot :=
      UInt32.toNat_ofNat_of_lt' (Nat.lt_trans hb owner.config.pairCapacity.toNat_lt)
    have hgeneration := h.generation slot hb hn
    simp [OwnerState.legHandle, Place.legId, hslot, hgeneration, Nat.not_le.mpr hb]
  | retained handle =>
    have hr := h.retained handle pair hp
    have hhandle : owner.legHandle ((Place.retained handle).legId pair index) = handle := by
      obtain ⟨_, _, slot, reserved⟩ := handle
      simp [OwnerState.legHandle, Place.legId, hr.owner.symm, hr.reserved.symm]
    have hne : (owner.table.pairs handle.slot.toNat).generation ≠ handle.generation :=
      fun he => UInt64.lt_irrefl _ (he ▸ hr.older)
    rw [hhandle, if_neg, if_neg hne, show owner.table.retained.lookup handle = some pair from hp]
    simp [hr.reserved, hr.owner, hr.nonzero, Nat.not_le.mpr hr.bound]

/-- An entry leads to its pair through `handle_pair`. -/
theorem Integrity.resolves (h : owner.Integrity) {key : InverseKey} {leg : LegId}
    (hl : owner.table.inverses.lookup key = some leg) :
    ∃ place pair, Holds owner.capacity owner.table place pair ∧
      (pair.legs leg.direction).inverse = true ∧ pair.key leg.direction = key ∧
      place.legId pair leg.direction = leg ∧
      owner.handlePair (owner.legHandle leg) = .ok pair := by
  obtain ⟨place, pair, hp, hi, hk, hid⟩ := (h.entries key leg).mp hl
  have hpair := h.handlePair_legId hp leg.direction
  rw [hid] at hpair
  exact ⟨place, pair, hp, hi, hk, hid, hpair⟩

/-- The keys of the map are keys of the legs of the pairs in both stores. -/
theorem Integrity.keys_subset (h : owner.Integrity) :
    owner.table.inverses.keys ⊆
      ((range owner.capacity).map owner.table.pairs ++
        owner.table.retained.entries.map (·.2)).flatMap fun pair => [pair.key 0, pair.key 1] := by
  intro key hkey
  obtain ⟨leg, hleg⟩ := Option.isSome_iff_exists.mp (AList.lookup_isSome.mpr hkey)
  obtain ⟨place, pair, hp, -, rfl, -⟩ := (h.entries key leg).mp hleg
  refine mem_flatMap.mpr ⟨pair, mem_append.mpr ?_, ?_⟩
  · cases place with
    | current slot => exact .inl (mem_map.mpr ⟨slot, mem_range.mpr hp.1, hp.2.1⟩)
    | retained handle =>
      exact .inr (mem_map.mpr ⟨⟨handle, pair⟩, AList.mem_lookup_iff.mp hp, rfl⟩)
  · match leg.direction with
    | 0 => exact mem_cons_self
    | 1 => exact .tail _ mem_cons_self

theorem Integrity.inverses_length (h : owner.Integrity) :
    owner.table.inverses.keys.length ≤ 4 * owner.capacity := by
  have hsubperm := subperm_of_subset owner.table.inverses.keys_nodup h.keys_subset
  have hlength := hsubperm.length_le
  have hretained : owner.table.retained.entries.length ≤ owner.capacity := by
    have := h.size
    simpa [AList.keys, keys] using this
  simp only [length_flatMap, length_cons, length_nil, map_const',
    sum_replicate, length_append, length_map, length_range, nsmul_eq_mul, Nat.cast_id]
    at hlength
  omega

/-- A frame with ports is matched by the leg that translates to its tuple, if
there is one. -/
theorem Integrity.packetLeg (h : owner.Integrity) (origin : Nat) {view : ParsedPacket}
    (hports : view.ports = true) (found : PacketLeg) :
    owner.packetLeg origin view = some found ↔
      ∃ place pair index, Holds owner.capacity owner.table place pair ∧
        (pair.legs index).inverse = true ∧ pair.key index = ⟨UInt32.ofNat origin, view.tuple⟩ ∧
        found = pair.packetLeg index (some (owner.legHandle (place.legId pair index))) := by
  unfold OwnerState.packetLeg
  rw [if_pos hports]
  refine ⟨fun hfound => ?_, fun ⟨place, pair, index, hp, hi, hk, hfound⟩ => ?_⟩
  · cases hl : owner.table.inverses.lookup ⟨UInt32.ofNat origin, view.tuple⟩ with
    | none => rw [hl] at hfound; cases hfound
    | some leg =>
      obtain ⟨place, pair, hp, hi, hk, hid, hpair⟩ := h.resolves hl
      rw [hl] at hfound
      dsimp only at hfound
      rw [hpair] at hfound
      cases hfound
      exact ⟨place, pair, leg.direction, hp, hi, hk, by rw [hid]⟩
  · have hdirection : (place.legId pair index).direction = index := by cases place <;> rfl
    have hl : owner.table.inverses.lookup ⟨UInt32.ofNat origin, view.tuple⟩ =
        some (place.legId pair index) :=
      (h.entries _ _).mpr ⟨place, pair, hp, by rw [hdirection]; exact hi,
        by rw [hdirection]; exact hk, by rw [hdirection]⟩
    rw [hl]
    dsimp only
    rw [h.handlePair_legId hp, hfound, hdirection]

end Consequences

/-- In every world of every run, whatever the hardware answers, the inverse map
is the set of the marked legs of both stores: no two of them share a key,
entries resolve through `handle_pair`, absent pairs have none, both maps stay
within their bounds, `install_pair` never finds its key in the map, and a frame
with ports is matched by nothing or by the one leg that translates to it. -/
theorem inverseMap_exact (sdk : Sdk) (w₀ w : World) (h₀ : Opened w₀) (h : Reached sdk w₀ w) :
    (∀ key leg, w.owner.table.inverses.lookup key = some leg ↔
      ∃ place pair, w.owner.pairAt place = some pair ∧ (pair.legs leg.direction).inverse = true ∧
        (pair.spec.directions leg.direction).inverseKey = key ∧
        place.legId pair leg.direction = leg) ∧
    (∀ place pair index place' pair' index', w.owner.pairAt place = some pair →
      w.owner.pairAt place' = some pair' → (pair.legs index).inverse = true →
      (pair'.legs index').inverse = true →
      (pair.spec.directions index).inverseKey = (pair'.spec.directions index').inverseKey →
        place = place' ∧ index = index') ∧
    (∀ key leg, w.owner.table.inverses.lookup key = some leg →
      ∃ pair, w.owner.handlePair (w.owner.legHandle leg) = .ok pair ∧
        (pair.spec.directions leg.direction).inverseKey = key) ∧
    (∀ slot < w.owner.capacity, (w.owner.table.pairs slot).state = .absent →
      ∀ index, ((w.owner.table.pairs slot).legs index).inverse = false) ∧
    w.owner.table.retained.keys.length ≤ w.owner.capacity ∧
    w.owner.table.inverses.keys.length ≤ 4 * w.owner.capacity ∧
    Event.keyPresent ∉ w.events ∧
    (∀ origin view found, view.ports = true →
      (w.owner.packetLeg origin view = some found ↔
        ∃ place pair index, w.owner.pairAt place = some pair ∧
          (pair.legs index).inverse = true ∧
          (pair.spec.directions index).inverseKey = ⟨UInt32.ofNat origin, view.tuple⟩ ∧
          found = pair.packetLeg index
            (some (w.owner.legHandle (place.legId pair index))))) := by
  obtain ⟨hi, hkeys⟩ := h.always h₀ (integrity_step sdk) (mapIntact_opened h₀)
  refine ⟨fun key leg => ?_, ?_, fun key leg hl => ?_, hi.absent, hi.size, hi.inverses_length, hkeys,
    fun origin view found hports => ?_⟩
  · rw [hi.entries]
    exact ⟨fun ⟨place, pair, hp, hm⟩ => ⟨place, pair, hp.pairAt, hm⟩,
      fun ⟨place, pair, hat, hm⟩ => ⟨place, pair, hi.holds hat hm.1, hm⟩⟩
  · intro place pair index place' pair' index' hat hat' hm hm' hk
    have hp := hi.holds hat hm
    have hp' := hi.holds hat' hm'
    exact hi.distinct _ _ _ _ _ _ hp hp' (hi.requested _ _ _ hp hm) (hi.requested _ _ _ hp' hm') hk
  · obtain ⟨_, pair, -, -, hk, -, hpair⟩ := hi.resolves hl
    exact ⟨pair, hpair, hk⟩
  · rw [hi.packetLeg origin hports]
    exact ⟨fun ⟨place, pair, index, hp, hm⟩ => ⟨place, pair, index, hp.pairAt, hm⟩,
      fun ⟨place, pair, index, hat, hm⟩ => ⟨place, pair, index, hi.holds hat hm.1, hm⟩⟩

/-! ## A sample owner -/

/-- An IPv4 address in an address field. -/
def sampleAddress (a b c d : UInt8) : Addr := #v[a, b, c, d, 0, 0, 0, 0, 0, 0, 0, 0, 0, 0, 0, 0]

def sampleMac (last : UInt8) : Mac := #v[2, 0, 0, 0, 0, last]

def sampleTuple (source destination : Addr) (sourcePort destinationPort : UInt16) : Tuple where
  family := familyIpv4
  protocol := protocolTcp
  source := source
  destination := destination
  sourcePort := sourcePort
  destinationPort := destinationPort

/-- A host behind the gateway on its way out. -/
def sampleDirection : Direction where
  original := sampleTuple (sampleAddress 10 0 0 1) (sampleAddress 192 0 2 1) 1000 80
  translated := sampleTuple (sampleAddress 198 51 100 1) (sampleAddress 192 0 2 1) 1000 80
  originalSourceMac := sampleMac 1
  originalDestinationMac := sampleMac 2
  outputSourceMac := sampleMac 3
  outputDestinationMac := sampleMac 4
  outputMtu := 1500

def sampleSpec : PairSpec where
  cookie := 7
  requestedDirectionMask := 1
  directions := fun _ => sampleDirection

/-- An open owner with one port of each kind and room for one pair. -/
def sampleWorld : World where
  owner :=
    { config :=
        { controllers := [{}]
          receivers := [{ mac := sampleMac 2 }]
          data := [{ mac := sampleMac 3 }]
          origins := [{}]
          drainTimeoutMs := 100 }
      instance_ := 1
      controllers := fun _ => { id := some 0 }
      data := fun _ => { id := some 1, representor := some 2, origin := some 0 }
      ports := [⟨0, .started⟩, ⟨1, .started⟩]
      ownsPool := true
      ealReady := true
      active := true }

/-- An SDK on which everything succeeds and nothing arrives. -/
def sampleSdk : Sdk where
  flowValidate := fun _ => 0
  flowCreate := fun _ => none
  flowDestroy := fun _ => 0
  flowDetail := fun _ => ⟨0, none⟩
  rxBurst := fun _ _ _ => []
  txBurst := fun _ _ count => count
  link := fun _ _ => some true
  clock := fun number => UInt64.ofNat number * 1000000
  drainRounds := 4
  missActions := fun _ => 0
  devStart := fun _ => 0
  devStop := fun _ => 0
  devClose := fun _ => 0
  validPort := fun _ => true
  ealCleanup := fun _ => 0
  endpoint := fun _ => .ok "eth0"
  interfaceMtu := fun _ => .ok 1500
  planRefused := fun _ => none

theorem opened_sampleWorld : Opened sampleWorld :=
  ⟨by decide, rfl, rfl, rfl, rfl, rfl, rfl⟩

/-- A pair is installed, deleted, and its slot taken by another. -/
def sampleOps : List Op :=
  [.pairInstall sampleSpec, .pairRemove { instance_ := 1, generation := 1 },
    .pairInstall { sampleSpec with
      directions := fun _ => { sampleDirection with
        original := { sampleDirection.original with sourcePort := 1001 }
        translated := { sampleDirection.translated with sourcePort := 1001 } } }]

/-- Two entries, one of them of the retained pair. -/
theorem inverseMap_exact_sample :
    (after sampleSdk sampleWorld sampleOps).now.owner.table.inverses.keys.length = 2 ∧
    (after sampleSdk sampleWorld sampleOps).now.owner.table.retained.keys.length = 1 ∧
    Event.keyPresent ∉ (after sampleSdk sampleWorld sampleOps).now.events :=
  ⟨by decide +kernel, by decide +kernel,
    (inverseMap_exact sampleSdk sampleWorld _ opened_sampleWorld
      ⟨sampleOps, (.head _)⟩).2.2.2.2.2.2.1⟩

end Mwan.Native

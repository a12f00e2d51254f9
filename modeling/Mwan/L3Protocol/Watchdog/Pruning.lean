import Mwan.Core.Ranks
import Mwan.L3Protocol.Watchdog.Snapshots

/-!
# What pruning leaves (`watchdog/snapshot_recovery.go`)

`pruneSnapshots` keeps the number of snapshots within two limits. Known-good
snapshots are sorted by name and the least go first; of the pre-deploy ones the
last listed is kept, because a rollback restores it. Without a pre-deploy
snapshot the rollback target is the last listed known-good one, which is not
the greatest by name if names do not follow the order of creation.

Results:
* `pruning_keeps_target_iff`: with any failures of the deletions, the rollback
  target is kept and the limits are met exactly if there is a pre-deploy
  snapshot or fewer known-good names are greater than the target than either
  limit allows;
* `older_name_pruned`: the target is deleted.
-/
namespace Mwan.Watchdog.Snapshots

open Mwan.Core List

/-- The patterns find in a line nothing but the snapshot's own name. -/
def Entry.Plain (e : Entry) : Prop :=
  ∀ p ∈ [preDeploySnapRE, knownGoodSnapRE], p.findAll e.line = [] ∨ p.findAll e.line = [e.name]

/-- The lines are plain and the names distinct. -/
structure Distinct (listing : List Entry) : Prop where
  plain : ∀ e ∈ listing, e.Plain
  nodup : (names listing).Nodup

/-! ## Listings of plain lines -/

variable {p : Pattern Char}

theorem findAll_render (hp : p ∈ [preDeploySnapRE, knownGoodSnapRE]) (listing : List Entry) :
    p.findAll (render listing) = listing.flatMap fun e => p.findAll e.line := by
  have hboth : ∀ q ∈ [preDeploySnapRE, knownGoodSnapRE], q.space '\n' = true := by
    simp [preDeploySnapRE, knownGoodSnapRE, space]
  induction listing with
  | nil => rfl
  | cons e listing ih =>
    have hrender : render (e :: listing) = e.line ++ '\n' :: render listing := by simp [render]
    rw [hrender, Pattern.findAll_append (hboth p hp), ih, flatMap_cons]

section Plain

variable {p : Pattern Char} {listing : List Entry}

/-- A deletion of names takes them from what is found. -/
theorem findAll_filter (hp : p ∈ [preDeploySnapRE, knownGoodSnapRE])
    (hplain : ∀ e ∈ listing, e.Plain) (keep : Text → Bool) :
    p.findAll (render (listing.filter fun e => keep e.name)) =
      (p.findAll (render listing)).filter keep := by
  rw [findAll_render hp, findAll_render hp]
  induction listing with
  | nil => rfl
  | cons e listing ih =>
    have hrest := ih fun e' he' => hplain e' (.tail _ he')
    have hown := hplain e mem_cons_self p hp
    rw [flatMap_cons, filter_append, ← hrest]
    cases hkeep : keep e.name with
    | true | false => rcases hown with hown | hown <;> simp [hkeep, hown]

theorem findAll_sublist (hp : p ∈ [preDeploySnapRE, knownGoodSnapRE])
    (hplain : ∀ e ∈ listing, e.Plain) :
    (p.findAll (render listing)).Sublist (names listing) := by
  rw [findAll_render hp]
  induction listing with
  | nil => exact Sublist.refl _
  | cons e listing ih =>
    have hrest := ih fun e' he' => hplain e' (.tail _ he')
    rw [flatMap_cons]
    rcases hplain e mem_cons_self p hp with hnone | hone
    · rw [hnone]
      exact hrest.cons e.name
    · rw [hone]
      exact hrest.cons_cons e.name

end Plain

/-! ## A hypervisor that deletes what it is told -/

/-- The snapshots with the name are gone; a failure may also leave them. -/
def Removes (name : Text) (ok : Bool) (before after : List Entry) : Prop :=
  after = before.filter (fun e => decide (e.name ≠ name)) ∨ ok = false ∧ after = before

/-- The hypervisor lists its snapshots, and only a deletion removes some. -/
structure Lawful (h : Host σ) (listed : σ → List Entry) : Prop where
  list : ∀ s, (h.vmSnapshots s).1 = some (render (listed s)) ∧
    listed (h.vmSnapshots s).2 = listed s
  del : ∀ name s, Removes name (h.vmDelSnapshot name s).1.isNone (listed s)
    (listed (h.vmDelSnapshot name s).2)
  force : ∀ name s, Removes name (h.vmDelSnapshotForce name s).1 (listed s)
    (listed (h.vmDelSnapshotForce name s).2)
  task : ∀ s, listed (h.vmHasRunningTask s).2 = listed s

def knownGoodCount (listing : List Entry) : Nat := (knownGoodSnapRE.findAll (render listing)).length

def managedCount (listing : List Entry) : Nat :=
  knownGoodCount listing + (preDeploys (render listing)).length

/-- Whatever deletions fail: the target stays and is still chosen, and a pass
without a failure ends within the limits. -/
def KeepsTarget (cfg : Limits) (listing : List Entry) : Prop :=
  ∀ (σ : Type) (h : Host σ) (listed : σ → List Entry), Lawful h listed →
    ∀ w : Work σ, listed w.host = listing →
      (extractLatestSnapshot (render listing) ≠ [] →
        extractLatestSnapshot (render listing) ∈
            names (listed (pruneSnapshots h cfg w).2.host) ∧
          extractLatestSnapshot (render (listed (pruneSnapshots h cfg w).2.host)) =
            extractLatestSnapshot (render listing)) ∧
      ((pruneSnapshots h cfg w).1 = true →
        (knownGoodCount (listed (pruneSnapshots h cfg w).2.host) : Int) ≤
            cfg.maxKnownGoodSnapshots ∧
          (0 < cfg.maxTotalSnapshots →
            (managedCount (listed (pruneSnapshots h cfg w).2.host) : Int) ≤ cfg.maxTotalSnapshots))

/-- The known-good names above the target. -/
def above (listing : List Entry) (target : Text) : Nat :=
  ((knownGoodSnapRE.findAll (render listing)).filter fun name => decide (target < name)).length

/-- Without a pre-deploy snapshot, fewer known-good names are greater than the
last listed one than the limits allow. -/
def TargetAmongGreatest (cfg : Limits) (listing : List Entry) : Prop :=
  preDeploys (render listing) = [] →
    ∀ target ∈ (knownGoodSnapRE.findAll (render listing)).getLast?,
      (above listing target : Int) < cfg.maxKnownGoodSnapshots ∧
        (0 < cfg.maxTotalSnapshots → (above listing target : Int) < cfg.maxTotalSnapshots)

/-! ## What a pass takes away -/

/-- The listing is what it was, without some of the names allowed. -/
def Left (allowed : Text → Prop) (before after : List Entry) : Prop :=
  ∃ keep : Text → Bool, after = before.filter (fun e => keep e.name) ∧
    ∀ name, keep name = false → allowed name

namespace Left

variable {allowed allowed' : Text → Prop} {l l' l'' : List Entry}

theorem refl (l : List Entry) : Left allowed l l :=
  ⟨fun _ => true, by simp, fun _ hfalse => by cases hfalse⟩

theorem trans (h : Left allowed l l') (h' : Left allowed l' l'') : Left allowed l l'' := by
  obtain ⟨keep, rfl, hkeep⟩ := h
  obtain ⟨keep', rfl, hkeep'⟩ := h'
  refine ⟨fun name => keep name && keep' name, ?_, fun name hfalse => ?_⟩
  · rw [filter_filter]
    simp [Bool.and_comm]
  · rcases Bool.and_eq_false_iff.mp hfalse with hfirst | hsecond
    · exact hkeep name hfirst
    · exact hkeep' name hsecond

theorem mono (h : Left allowed l l') (himp : ∀ name, allowed name → allowed' name) :
    Left allowed' l l' := by
  obtain ⟨keep, hl, hkeep⟩ := h
  exact ⟨keep, hl, fun name hfalse => himp name (hkeep name hfalse)⟩

theorem subset (h : Left allowed l l') : l' ⊆ l := by
  obtain ⟨keep, rfl, -⟩ := h
  exact filter_subset_self _

end Left

variable {h : Host σ} {listed : σ → List Entry}

variable {name : Text} {before after : List Entry}

theorem Removes.left {ok : Bool} (hremoves : Removes name ok before after) :
    Left (· = name) before after := by
  rcases hremoves with hgone | ⟨-, hsame⟩
  · exact ⟨fun n => decide (n ≠ name), hgone, fun n hn => by simpa using hn⟩
  · rw [hsame]
    exact .refl _

theorem Removes.gone (hremoves : Removes name true before after) : name ∉ names after := by
  rcases hremoves with hgone | ⟨hfalse, -⟩
  · rw [hgone, names, mem_map]
    rintro ⟨e, he, hname⟩
    have := (mem_filter.mp he).2
    simp [hname] at this
  · cases hfalse

variable {allowed : Text → Prop}

/-- A pass that took names away leaves them away. -/
theorem not_mem_of_left (hleft : Left allowed before after) (hgone : name ∉ names before) :
    name ∉ names after := by
  intro hmem
  obtain ⟨e, he, hname⟩ := mem_map.mp hmem
  exact hgone (mem_map.mpr ⟨e, hleft.subset he, hname⟩)

theorem canForceDelete_listed (hlaw : Lawful h listed) (name cause : Text) (w : Work σ) :
    listed (canForceDelete h name cause w).2.host = listed w.host := by
  unfold canForceDelete
  split
  · rfl
  split
  · rfl
  split
  · rfl
  · exact hlaw.task w.host

theorem deleteSnapshot_left (hlaw : Lawful h listed) (name : Text) (w : Work σ) :
    Left (· = name) (listed w.host) (listed (deleteSnapshot h name w).2.host) ∧
      ((deleteSnapshot h name w).1 = true →
        name ∉ names (listed (deleteSnapshot h name w).2.host)) := by
  have hdel := hlaw.del name w.host
  simp only [deleteSnapshot]
  split
  · rename_i hok
    rw [hok] at hdel
    exact ⟨hdel.left, fun _ => hdel.gone⟩
  · rename_i cause _
    have hcan := canForceDelete_listed hlaw name cause
      (w.attempt (h.vmDelSnapshot name w.host).2 name false)
    split
    · refine ⟨?_, fun hok => by cases hok⟩
      rw [hcan]
      exact hdel.left
    · have hforce := hlaw.force name (canForceDelete h name cause
        (w.attempt (h.vmDelSnapshot name w.host).2 name false)).2.host
      rw [hcan] at hforce
      refine ⟨hdel.left.trans hforce.left, fun hok => ?_⟩
      rw [hok] at hforce
      exact hforce.gone

theorem deleteEach_left (hlaw : Lawful h listed) (all : List Text) (w : Work σ) :
    Left (· ∈ all) (listed w.host) (listed (deleteEach h all w).2.host) ∧
      ((deleteEach h all w).1 = true →
        ∀ name ∈ all, name ∉ names (listed (deleteEach h all w).2.host)) := by
  induction all generalizing w with
  | nil => exact ⟨.refl _, fun _ _ hname => by cases hname⟩
  | cons first rest ih =>
    obtain ⟨hleft, hgone⟩ := deleteSnapshot_left hlaw first w
    obtain ⟨hleftRest, hgoneRest⟩ := ih (deleteSnapshot h first w).2
    have hfirst : Left (· ∈ first :: rest) _ _ := hleft.mono fun n hn => by simp [hn]
    have hrest : Left (· ∈ first :: rest) _ _ :=
      hleftRest.mono fun n hn => .tail _ hn
    refine ⟨hfirst.trans hrest, fun hok name hname => ?_⟩
    obtain ⟨hokFirst, hokRest⟩ := Bool.and_eq_true_iff.mp hok
    rcases mem_cons.mp hname with rfl | hname
    · exact not_mem_of_left hleftRest (hgone hokFirst)
    · exact hgoneRest hokRest name hname

theorem list_lawful (hlaw : Lawful h listed) (w : Work σ) :
    ∃ w', w.list h = some w' ∧ w'.listing = render (listed w.host) ∧
      listed w'.host = listed w.host := by
  obtain ⟨houtput, hsame⟩ := hlaw.list w.host
  refine ⟨{ w with host := (h.vmSnapshots w.host).2, listing := render (listed w.host) }, ?_, rfl,
    hsame⟩
  show (h.vmSnapshots w.host).1.map _ = _
  rw [houtput]
  rfl

/-! ## Both halves of a pass -/

/-- The names the rotation of known-good snapshots comes to. -/
def Rotated (cfg : Limits) (listing : List Entry) (name : Text) : Prop :=
  name ∈ (knownGoods (render listing)).take
    ((knownGoods (render listing)).length - cfg.maxKnownGoodSnapshots.toNat)

/-- The names the limit for all snapshots can come to. -/
def Pruned (cfg : Limits) (listing : List Entry) (name : Text) : Prop :=
  name ∈ (preDeploys (render listing)).dropLast ∨
    0 < cfg.maxTotalSnapshots ∧ name ∈ (knownGoods (render listing)).take
      ((knownGoods (render listing)).length + (preDeploys (render listing)).length -
        cfg.maxTotalSnapshots.toNat)

theorem length_knownGoods (listing : List Entry) :
    (knownGoods (render listing)).length = knownGoodCount listing :=
  length_insertionSort _ _

/-- What is found in a listing that lost names, all of which were found. -/
theorem length_findAll_add_le (hp : p ∈ [preDeploySnapRE, knownGoodSnapRE]) (hd : Distinct before)
    (hleft : Left allowed before after) {taken : List Text} (htaken : taken.Nodup)
    (hsub : taken ⊆ p.findAll (render before)) (hgone : ∀ name ∈ taken, name ∉ names after) :
    (p.findAll (render after)).length + taken.length ≤ (p.findAll (render before)).length := by
  obtain ⟨keep, rfl, -⟩ := hleft
  have hfound := findAll_sublist hp hd.plain
  rw [findAll_filter hp hd.plain keep]
  refine length_filter_add_le (hfound.nodup hd.nodup) htaken hsub fun name hname => ?_
  obtain ⟨e, he, rfl⟩ := mem_map.mp (hfound.subset (hsub hname))
  rw [← Bool.not_eq_true]
  intro hkeep
  exact hgone _ hname (mem_map.mpr ⟨e, mem_filter.mpr ⟨he, hkeep⟩, rfl⟩)

theorem Left.distinct {before after : List Entry} (hleft : Left allowed before after)
    (hd : Distinct before) : Distinct after := by
  refine ⟨fun e he => hd.plain e (hleft.subset he), ?_⟩
  obtain ⟨keep, rfl, -⟩ := hleft
  exact (Sublist.map _ filter_sublist).nodup hd.nodup

variable {listing : List Entry}

theorem Distinct.preDeploys (hd : Distinct listing) : (preDeploys (render listing)).Nodup :=
  (findAll_sublist (by simp) hd.plain).nodup hd.nodup

theorem Distinct.knownGoods (hd : Distinct listing) : (knownGoods (render listing)).Nodup :=
  (perm_insertionSort _ _).nodup_iff.mpr ((findAll_sublist (by simp) hd.plain).nodup hd.nodup)

section Halves

variable {cfg : Limits} {w : Work σ}

/-- The second half: what it can take away, and what is left without a failure. -/
theorem pruneTotal_left (cfg : Limits) (hlaw : Lawful h listed) (hread : w.listing = render (listed w.host))
    (hd : Distinct (listed w.host)) :
    Left (Pruned cfg (listed w.host)) (listed w.host)
        (listed (pruneTotal h cfg w).2.host) ∧
      ((pruneTotal h cfg w).1 = true → 0 < cfg.maxTotalSnapshots →
        (managedCount (listed (pruneTotal h cfg w).2.host) : Int) ≤ cfg.maxTotalSnapshots) := by
  obtain ⟨k, m, heq, hknown, htotal⟩ := pruneTotal_eq h cfg w
  obtain ⟨hleft, hgone⟩ := deleteEach_left hlaw
    ((preDeploys w.listing).dropLast.take k ++ (knownGoods w.listing).take m) w
  rw [← heq] at hleft hgone
  rw [hread] at hleft hgone hknown htotal
  refine ⟨hleft.mono fun name hname => ?_, fun hok hlimit => ?_⟩
  · rcases mem_append.mp hname with hname | hname
    · exact .inl (mem_of_mem_take hname)
    · have hmem := length_pos_of_mem hname
      rw [length_take] at hmem
      obtain ⟨hpositive, hm⟩ := hknown (by omega)
      exact .inr ⟨hpositive, (take_prefix_take_left hm).subset hname⟩
  · have hpre : (preDeploys _).length + _ ≤ (preDeploys _).length :=
      length_findAll_add_le (by simp) hd hleft
        ((take_sublist k _).nodup ((dropLast_sublist _).nodup hd.preDeploys))
        (fun name hname => dropLast_subset _ (mem_of_mem_take hname))
        (fun name hname => hgone hok name (mem_append_left _ hname))
    have hgood : knownGoodCount _ + _ ≤ knownGoodCount _ :=
      length_findAll_add_le (by simp) hd hleft
        ((take_sublist m _).nodup hd.knownGoods)
        (fun name hname => (mem_insertionSort _).mp (mem_of_mem_take hname))
        (fun name hname => hgone hok name (mem_append_right _ hname))
    have hrest := htotal hok hlimit
    rw [length_take, length_dropLast] at hpre
    rw [length_take, length_knownGoods] at hgood
    rw [length_knownGoods] at hrest
    unfold managedCount
    omega

/-- The first half of a pass. -/
def rotate (h : Host σ) (cfg : Limits) (w : Work σ) : Bool × Work σ :=
  deleteEach h ((knownGoods w.listing).take
    ((knownGoods w.listing).length - cfg.maxKnownGoodSnapshots.toNat)) w

theorem rotate_left (hlaw : Lawful h listed) (hread : w.listing = render (listed w.host))
    (hd : Distinct (listed w.host))
    (hover : cfg.maxKnownGoodSnapshots ≤ knownGoodCount (listed w.host))
    (hpositive : 0 < cfg.maxKnownGoodSnapshots) :
    Left (Rotated cfg (listed w.host)) (listed w.host) (listed (rotate h cfg w).2.host) ∧
      ((rotate h cfg w).1 = true →
        (knownGoodCount (listed (rotate h cfg w).2.host) : Int) ≤ cfg.maxKnownGoodSnapshots) := by
  rw [rotate, hread]
  obtain ⟨hleft, hgone⟩ := deleteEach_left hlaw ((knownGoods (render (listed w.host))).take
    ((knownGoods (render (listed w.host))).length - cfg.maxKnownGoodSnapshots.toNat)) w
  generalize deleteEach h _ _ = pass at hleft hgone ⊢
  refine ⟨hleft, fun hok => ?_⟩
  have hcount : knownGoodCount _ + _ ≤ knownGoodCount _ :=
    length_findAll_add_le (by simp) hd hleft ((take_sublist _ _).nodup hd.knownGoods)
      (fun name hname => (mem_insertionSort _).mp (mem_of_mem_take hname)) (hgone hok)
  rw [length_take, length_knownGoods] at hcount
  omega

end Halves

/-! ## The target -/

section Target

variable {cfg : Limits} {listing : List Entry} {target : Text}

/-- The target is the last pre-deploy match, or else the last known-good one. -/
theorem extract_cases {output : Text} (hsel : extractLatestSnapshot output = target)
    (hne : target ≠ []) :
    (preDeploys output).getLast? = some target ∨
      preDeploys output = [] ∧ (knownGoodSnapRE.findAll output).getLast? = some target := by
  cases hpre : (preDeploys output).getLast? with
  | some =>
    left
    have hnonempty : preDeploys output ≠ [] := by
      intro hnil
      rw [hnil] at hpre
      cases hpre
    rw [← hsel, extract_preDeploys hnonempty, ← hpre, getLast?_eq_some_getLast hnonempty]
  | none =>
    have hnone : preDeploys output = [] := getLast?_eq_none_iff.mp hpre
    cases hknown : (knownGoodSnapRE.findAll output).getLast? with
    | none =>
      have hpre' : (preDeploySnapRE.findAll output).getLast? = none := hpre
      rw [extractLatestSnapshot, hpre', hknown] at hsel
      exact absurd hsel.symm hne
    | some => exact .inr ⟨hnone, by rw [← hsel, extract_knownGoods hnone hknown]⟩

section Chosen

variable (hd : Distinct listing) (hsel : extractLatestSnapshot (render listing) = target)
  (hne : target ≠ [])

include hd hsel hne

theorem extract_mem : target ∈ names listing := by
  rcases extract_cases hsel hne with hlast | ⟨-, hlast⟩ <;>
    exact (findAll_sublist (by simp) hd.plain).subset (mem_of_getLast? hlast)

variable {keep : Text → Bool}

/-- While the target is kept it stays the target. -/
theorem extract_filter (hkeep : keep target = true) :
    extractLatestSnapshot (render (listing.filter fun e => keep e.name)) = target := by
  have hpreEq : preDeploys (render (listing.filter fun e => keep e.name)) =
      (preDeploys (render listing)).filter keep := findAll_filter (by simp) hd.plain keep
  rcases extract_cases hsel hne with hpre | ⟨hnone, hknown⟩
  · have hlast := getLast?_filter_of_pos hpre hkeep
    rw [← hpreEq] at hlast
    rw [extractLatestSnapshot, show (preDeploySnapRE.findAll _).getLast? = _ from hlast]
  · have hlast := getLast?_filter_of_pos hknown hkeep
    rw [← findAll_filter (by simp) hd.plain keep] at hlast
    refine extract_knownGoods ?_ hlast
    rw [hpreEq, hnone, filter_nil]

end Chosen

/-- The known-good names in order. -/
theorem knownGoods_sorted (hd : Distinct listing) :
    (knownGoods (render listing)).Pairwise (· < ·) := by
  have hsorted := pairwise_insertionSort (· ≤ ·) (knownGoodSnapRE.findAll (render listing))
  exact (hsorted.and hd.knownGoods).imp fun ⟨hle, hne⟩ => lt_of_le_of_ne hle hne

/-- A known-good name is among the least `m` by the number of names above it. -/
theorem mem_take_knownGoods (hd : Distinct listing)
    (hname : name ∈ knownGoodSnapRE.findAll (render listing)) (m : Nat) :
    name ∈ (knownGoods (render listing)).take m ↔
      knownGoodCount listing ≤ m + above listing name := by
  have habove : ((knownGoods (render listing)).filter fun y => decide (name < y)).length =
      above listing name := ((perm_insertionSort _ _).filter _).length_eq
  rw [mem_take_iff_rank (knownGoods_sorted hd)
    ((mem_insertionSort _).mpr hname), length_knownGoods, habove]

theorem above_lt_count (hname : name ∈ knownGoodSnapRE.findAll (render listing)) :
    above listing name < knownGoodCount listing :=
  length_filter_lt_length_iff_exists.mpr ⟨name, hname, by simp⟩

section Chosen

variable (hd : Distinct listing) (hsel : extractLatestSnapshot (render listing) = target)
  (hne : target ≠ []) (hgreatest : TargetAmongGreatest cfg listing)

include hd hsel hne hgreatest

/-- Neither half comes to the target. -/
theorem target_spared (hlimit : 0 < cfg.maxKnownGoodSnapshots) :
    ¬ Rotated cfg listing target ∧ ¬ Pruned cfg listing target := by
  rcases extract_cases hsel hne with hpre | ⟨hnone, hknown⟩
  · -- a pre-deploy name is no known-good one, and the last is not among the others
    have hmem := mem_of_getLast? hpre
    have hword : preDeploySnapRE.word <+: target := Pattern.word_prefix_of_mem hmem
    have hother {m : Nat} : target ∉ (knownGoods (render listing)).take m := fun hmem' =>
      words_apart hword (word_of_knownGoods (mem_of_mem_take hmem'))
    refine ⟨hother, fun hpruned => ?_⟩
    rcases hpruned with hold | ⟨-, hmem'⟩
    · have hunique := hd.preDeploys
      have hnonempty := ne_nil_of_mem hmem
      have hsplit := dropLast_concat_getLast hnonempty
      rw [← hsplit, nodup_append] at hunique
      rw [getLast?_eq_some_getLast hnonempty] at hpre
      exact hunique.2.2 _ hold _ (mem_singleton.mpr rfl) (Option.some.inj hpre).symm
    · exact hother hmem'
  · have hmem := mem_of_getLast? hknown
    obtain ⟨hkept, htotal⟩ := hgreatest hnone _ hknown
    have hcount := above_lt_count hmem
    constructor
    · rw [Rotated, mem_take_knownGoods hd hmem, length_knownGoods]
      omega
    · intro hpruned
      rcases hpruned with hold | ⟨hpositive, hmem'⟩
      · rw [hnone] at hold
        cases hold
      · have := htotal hpositive
        rw [mem_take_knownGoods hd hmem, length_knownGoods, hnone] at hmem'
        simp only [length_nil] at hmem'
        omega

/-- A pass that keeps the target keeps the condition. -/
theorem TargetAmongGreatest.filter {keep : Text → Bool} (hkeep : keep target = true) :
    TargetAmongGreatest cfg (listing.filter fun e => keep e.name) := by
  intro hnone' name hname
  obtain rfl : target = name :=
    (extract_filter hd hsel hne hkeep).symm.trans (extract_knownGoods hnone' hname)
  rcases extract_cases hsel hne with hpre | ⟨hnone, hknown⟩
  · -- the kept pre-deploy target is still found
    have hlast := getLast?_filter_of_pos hpre hkeep
    have hpreEq : preDeploys (render (listing.filter fun e => keep e.name)) =
      (preDeploys (render listing)).filter keep := findAll_filter (by simp) hd.plain keep
    rw [← hpreEq, hnone'] at hlast
    cases hlast
  · have hle : above (listing.filter fun e => keep e.name) target ≤ above listing target := by
      unfold above
      rw [findAll_filter (by simp) hd.plain keep]
      exact (filter_sublist.filter _).length_le
    obtain ⟨hkept, htotal⟩ := hgreatest hnone target hknown
    exact ⟨by omega, fun hpositive => by have := htotal hpositive; omega⟩

/-- What is left without the target among what was allowed. -/
theorem Left.keeps (hleft : Left allowed listing after) (hspared : ¬ allowed target) :
    extractLatestSnapshot (render after) = target ∧ TargetAmongGreatest cfg after := by
  obtain ⟨keep, rfl, hallowed⟩ := hleft
  have hkeep : keep target = true := by
    rw [← Bool.not_eq_false]
    exact fun hfalse => hspared (hallowed _ hfalse)
  exact ⟨extract_filter hd hsel hne hkeep, hgreatest.filter hd hsel hne hkeep⟩

/-- A pass that spares the target keeps it and what is said of it. -/
theorem Left.stays (hleft : Left allowed listing after) (hspared : ¬ allowed target) :
    target ∈ names after ∧ extractLatestSnapshot (render after) = target := by
  have hkept := (hleft.keeps hd hsel hne hgreatest hspared).1
  exact ⟨extract_mem (hleft.distinct hd) hkept hne, hkept⟩

end Chosen

theorem Left.count_le (hleft : Left allowed listing after) (hd : Distinct listing) :
    knownGoodCount after ≤ knownGoodCount listing := by
  have := length_findAll_add_le (by simp) hd hleft nodup_nil
    (nil_subset (knownGoodSnapRE.findAll (render listing))) fun _ hname => by cases hname
  simpa [knownGoodCount] using this

/-- The two halves together, each with its own listing. -/
theorem pruneSnapshots_cases (cfg : Limits) {h : Host σ} {listed : σ → List Entry}
    (hlaw : Lawful h listed) (w : Work σ) :
    ∃ w₁, w₁.listing = render (listed w₁.host) ∧ listed w₁.host = listed w.host ∧
      ((¬ ((knownGoodCount (listed w.host) : Int) > cfg.maxKnownGoodSnapshots ∧
          0 < cfg.maxKnownGoodSnapshots) ∧ pruneSnapshots h cfg w = pruneTotal h cfg w₁) ∨
        (((knownGoodCount (listed w.host) : Int) > cfg.maxKnownGoodSnapshots ∧
          0 < cfg.maxKnownGoodSnapshots) ∧
          ∃ w₂, listed w₂.host = listed (rotate h cfg w₁).2.host ∧
            w₂.listing = render (listed w₂.host) ∧
            (pruneSnapshots h cfg w).2 = (pruneTotal h cfg w₂).2 ∧
            (pruneSnapshots h cfg w).1 = ((rotate h cfg w₁).1 && (pruneTotal h cfg w₂).1))) := by
  obtain ⟨w₁, hlist, hread, hsame⟩ := list_lawful hlaw w
  refine ⟨w₁, by rw [hread, hsame], hsame, ?_⟩
  have hlength : (knownGoods w₁.listing).length = knownGoodCount (listed w.host) := by
    rw [hread, length_knownGoods]
  simp only [pruneSnapshots, hlist, ← hlength]
  by_cases hover : cfg.maxKnownGoodSnapshots > 0 ∧
      ((knownGoods w₁.listing).length : Int) > cfg.maxKnownGoodSnapshots
  · right
    obtain ⟨w₂, hrelist, hreread, hresame⟩ := list_lawful hlaw (rotate h cfg w₁).2
    refine ⟨⟨hover.2, hover.1⟩, w₂, hresame, by rw [hreread, hresame], ?_⟩
    rw [if_pos hover, ← rotate, hrelist]
    exact ⟨rfl, rfl⟩
  · left
    rw [if_neg hover]
    exact ⟨fun hboth => hover ⟨hboth.2, hboth.1⟩, rfl⟩

theorem keepsTarget_of_greatest (hlimit : 0 < cfg.maxKnownGoodSnapshots) (hd : Distinct listing)
    (hgreatest : TargetAmongGreatest cfg listing) : KeepsTarget cfg listing := by
  intro σ h listed hlaw w hw
  subst hw
  obtain ⟨w₁, hread, hsame, hcases⟩ := pruneSnapshots_cases cfg hlaw w
  rw [← hsame] at hd hgreatest hcases ⊢
  rcases hcases with ⟨hfits, hprune⟩ | ⟨hover, w₂, hlisted₂, hread₂, hprune, hok⟩
  · -- the rotation has nothing to do
    rw [hprune]
    obtain ⟨hleft, htotal⟩ := pruneTotal_left cfg hlaw hread hd
    refine ⟨fun hne => ?_, fun hok => ⟨?_, htotal hok⟩⟩
    · exact hleft.stays hd rfl hne hgreatest (target_spared hd rfl hne hgreatest hlimit).2
    · have := hleft.count_le hd
      omega
  · rw [hprune, hok]
    obtain ⟨hrotated, hcount⟩ := rotate_left hlaw hread hd (le_of_lt hover.1) hover.2
    rw [← hlisted₂] at hrotated hcount
    have hd₂ := hrotated.distinct hd
    obtain ⟨hleft, htotal⟩ := pruneTotal_left cfg hlaw hread₂ hd₂
    refine ⟨fun hne => ?_, fun hboth => ?_⟩
    · obtain ⟨hsel, hgreatest₂⟩ := hrotated.keeps hd rfl hne hgreatest
        (target_spared hd rfl hne hgreatest hlimit).1
      exact hleft.stays hd₂ hsel hne hgreatest₂ (target_spared hd₂ hsel hne hgreatest₂ hlimit).2
    · obtain ⟨hokFirst, hokSecond⟩ := Bool.and_eq_true_iff.mp hboth
      refine ⟨?_, htotal hokSecond⟩
      have hless := hleft.count_le hd₂
      have hfirst := hcount hokFirst
      omega

/-! ## A deletion of the target alone -/

/-- A hypervisor that deletes one snapshot and refuses to delete any other. -/
def stubborn (target : Text) : Host (List Entry) where
  vmSnapshots := fun l => (some (render l), l)
  vmDelSnapshot := fun name l =>
    if name = target then (none, l.filter fun e => decide (e.name ≠ name)) else (some [], l)
  vmDelSnapshotForce := fun _ l => (false, l)
  vmHasRunningTask := fun l => (some false, l)

theorem stubborn_lawful (target : Text) : Lawful (stubborn target) id where
  list := fun _ => ⟨rfl, rfl⟩
  del := by
    intro name l
    by_cases hname : name = target
    · left
      simp [stubborn, hname]
    · right
      simp [stubborn, hname]
  force := fun _ _ => .inr ⟨rfl, rfl⟩
  task := fun _ => rfl

theorem stubborn_refuses (hname : name ≠ target) (w : Work (List Entry)) :
    (deleteSnapshot (stubborn target) name w).2.host = w.host := by
  have hcause : ([] : Text).tails.any (storageSnapshotMissingMarker.isPrefixOf ·) = false := by
    decide
  simp only [deleteSnapshot, stubborn, if_neg hname, canForceDelete, hcause]
  cases knownGoodSnapRE.isMatch name <;> rfl

variable {all : List Text}

theorem deleteEach_stubborn_other (htarget : target ∉ all) (w : Work (List Entry)) 
    : (deleteEach (stubborn target) all w).2.host = w.host := by
  induction all generalizing w with
  | nil => rfl
  | cons name rest ih =>
    rw [mem_cons, not_or] at htarget
    exact (ih htarget.2 _).trans (stubborn_refuses (Ne.symm htarget.1) w)

theorem deleteEach_stubborn (htarget : target ∈ all) (w : Work (List Entry)) :
    target ∉ names (deleteEach (stubborn target) all w).2.host := by
  induction all generalizing w with
  | nil => cases htarget
  | cons name rest ih =>
    by_cases hname : name = target
    · subst hname
      have hok : (deleteSnapshot (stubborn name) name w).1 = true := by
        simp [deleteSnapshot, stubborn]
      exact not_mem_of_left (deleteEach_left (stubborn_lawful name) rest _).1
        ((deleteSnapshot_left (stubborn_lawful name) name w).2 hok)
    · exact ih ((mem_cons.mp htarget).resolve_left (Ne.symm hname)) _

/-- The limit for all snapshots comes to a target with enough names above it. -/
theorem pruneTotal_stubborn {w : Work (List Entry)} (hread : w.listing = render w.host)
    (hd : Distinct w.host)
    (hnone : preDeploys (render w.host) = [])
    (htarget : target ∈ knownGoodSnapRE.findAll (render w.host))
    (hpositive : 0 < cfg.maxTotalSnapshots) (habove : cfg.maxTotalSnapshots ≤ above w.host target) :
    target ∉ names (pruneTotal (stubborn target) cfg w).2.host := by
  have hcount := above_lt_count htarget
  unfold pruneTotal
  simp only
  rw [hread, length_knownGoods, hnone, if_neg (by simp only [length_nil]; omega)]
  refine deleteEach_stubborn ?_ _
  rw [mem_take_knownGoods hd htarget]
  simp only [prunePreDeploySnapshots, prunePreDeploys, dropLast_nil, length_nil]
  omega

theorem greatest_of_keepsTarget (hd : Distinct listing) (hkeeps : KeepsTarget cfg listing)
    (hlimit : 0 < cfg.maxKnownGoodSnapshots) : TargetAmongGreatest cfg listing := by
  intro hnone target htarget
  have hext := extract_knownGoods hnone htarget
  have hmem := mem_of_getLast? htarget
  have hne : extractLatestSnapshot (render listing) ≠ [] := by
    rw [hext]
    exact ne_nil_of_word (Pattern.word_prefix_of_mem hmem)
  have hlaw := stubborn_lawful target
  have hstays := ((hkeeps _ (stubborn target) id hlaw (.start listing) rfl).1 hne).1
  rw [hext] at hstays
  have hcount := above_lt_count hmem
  obtain ⟨w₁, hread, hsame, hcases⟩ := pruneSnapshots_cases cfg hlaw (.start listing)
  obtain rfl : w₁.host = listing := hsame
  rcases hcases with ⟨hfits, hprune⟩ | ⟨hover, w₂, hlisted₂, hread₂, hprune, -⟩
  · -- no rotation: the known-good snapshots are within their limit
    have hfits' : (knownGoodCount w₁.host : Int) ≤ cfg.maxKnownGoodSnapshots := by
      by_contra hmore
      exact hfits ⟨Int.not_le.mp hmore, hlimit⟩
    refine ⟨by omega, fun hpositive => ?_⟩
    by_contra habove
    rw [hprune] at hstays
    exact pruneTotal_stubborn hread hd hnone hmem hpositive (Int.not_lt.mp habove) hstays
  · -- the rotation takes the target if it comes to it, and nothing else
    rw [hprune] at hstays
    have hrotates : Rotated cfg w₁.host target ↔
        cfg.maxKnownGoodSnapshots ≤ above w₁.host target := by
      have hmany : cfg.maxKnownGoodSnapshots < knownGoodCount w₁.host := hover.1
      rw [Rotated, mem_take_knownGoods hd hmem, length_knownGoods]
      omega
    have hrotated := (rotate_left hlaw hread hd (le_of_lt hover.1) hlimit).1
    rw [← hlisted₂] at hrotated
    rw [rotate, hread] at hlisted₂
    by_cases hrotates' : cfg.maxKnownGoodSnapshots ≤ above w₁.host target
    · exfalso
      have hgone : target ∉ names (id w₂.host) :=
        hlisted₂ ▸ deleteEach_stubborn (hrotates.mpr hrotates') w₁
      exact not_mem_of_left (pruneTotal_left cfg hlaw hread₂ (hrotated.distinct hd)).1 hgone hstays
    · refine ⟨by omega, fun hpositive => ?_⟩
      by_contra habove
      have hhost₂ : w₂.host = w₁.host :=
        Eq.trans hlisted₂ (deleteEach_stubborn_other (fun htake => hrotates' (hrotates.mp htake)) w₁)
      rw [← hhost₂] at hd hnone hmem habove
      exact pruneTotal_stubborn hread₂ hd hnone hmem hpositive (Int.not_lt.mp habove) hstays

/-- For every listing of distinct snapshots in which the patterns find nothing
but their names, and all limits: pruning keeps the rollback target and meets the
limits, whatever deletions fail, exactly if the target is among the greatest. -/
theorem pruning_keeps_target_iff (cfg : Limits) (hknown : 1 ≤ cfg.maxKnownGoodSnapshots)
    (listing : List Entry) (hplain : ∀ e ∈ listing, e.Plain) (hnodup : (names listing).Nodup) :
    KeepsTarget cfg listing ↔ TargetAmongGreatest cfg listing :=
  ⟨fun hkeeps => greatest_of_keepsTarget ⟨hplain, hnodup⟩ hkeeps (by omega),
    keepsTarget_of_greatest (by omega) ⟨hplain, hnodup⟩⟩

end Target

theorem legal_one : legalName "known-good-1".toList = true := by decide +kernel

theorem empty_line : '\n' ∉ "".toList := by decide +kernel

def newerByName : Entry := lineOf "known-good-2" "" (by decide +kernel) empty_line

def olderByName : Entry := lineOf "known-good-1" "" legal_one empty_line

theorem two_plain : ∀ e ∈ [newerByName, olderByName], e.Plain := by
  unfold Entry.Plain
  decide

theorem pruning_in_order :
    KeepsTarget ⟨1, 0⟩ [olderByName, newerByName] ↔
      TargetAmongGreatest ⟨1, 0⟩ [olderByName, newerByName] :=
  pruning_keeps_target_iff ⟨1, 0⟩ (by decide +kernel) _
    (fun e he => two_plain e (by simp_all [or_comm])) (by decide +kernel)

/-- The clock was set back between two snapshots: the newer one has the smaller
name. It is the rollback target, and the rotation deletes it. -/
theorem older_name_pruned : ¬ KeepsTarget ⟨1, 0⟩ [newerByName, olderByName] := by
  intro hkeeps
  have hgreatest := greatest_of_keepsTarget ⟨two_plain, by decide +kernel⟩ hkeeps (by decide +kernel)
  have htarget := hgreatest (by decide +kernel) "known-good-1".toList (by decide +kernel)
  revert htarget
  decide

end Mwan.Watchdog.Snapshots

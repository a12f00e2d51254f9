import Mwan.L3Protocol.Npt.Publication

/-!
# The published pairs are the applied ones outside a fence

`Applied` says that each published pair is the one in the BPF policies of its
WAN's interface and of the internal interface, with both filters attached,
where pairs are compared as the code compares them (`equalPair`).

Every call ends with the published pairs applied, whatever fails. On the way
this holds at every moment without a fence unless the call is a `Reconcile`
that wants exactly what is published but whose lookups leave out a published
WAN (`DropsPublished`): the fence compares the wanted pairs, and the
translator is given fewer.

Results:
* `reconcile_applied`, `prepareLocalIpv6_applied`: the calls.
* `reconcile_detached`: a pass that drops a published pair removes its filters
  while no fence is held.
* `publishedApplied_iff`: every call from every reachable state.
-/
namespace Mwan.Npt

open Mwan.Core Mwan.Npt.Bpf List

/-! ## Comparing pairs -/

theorem equalPair_refl (pair : PrefixPair) : equalPair pair pair = true := by
  simp [equalPair, equalExceptions]

variable {key : String} {pair : PrefixPair}

/-- A published key that has not changed is wanted with the same pair. -/
theorem unchanged_wanted {previous next : Pairs} (h : key ∉ changedNptPolicies previous next)
    (hpair : previous.lookup key = some pair) :
    ∃ current, next.lookup key = some current ∧ equalPair pair current = true := by
  have hmem : (⟨key, pair⟩ : Sigma fun _ => PrefixPair) ∈ previous.entries :=
    AList.mem_lookup_iff.mp hpair
  have hno := fun hk => h (mem_append_left _ (mem_filterMap.mpr ⟨_, hmem, hk⟩))
  cases hnext : next.lookup key with
  | none => exact absurd (by simp [hnext]) hno
  | some current =>
    refine ⟨current, rfl, ?_⟩
    by_contra hne
    exact hno (by simp [hnext, hne])

/-! ## Applied pairs -/

/-- The index of a WAN's interface. -/
def System.wanIndex (sys : System) (key : String) : Option Nat :=
  (sys.wans.find? (·.key = key)).bind fun wan => sys.index wan.iface

theorem System.wanIndex_eq (sys : System) {wan : NptWan} (hw : wan ∈ sys.wans) :
    sys.wanIndex wan.key = sys.index wan.iface := by
  obtain ⟨found, hfound⟩ := Option.isSome_iff_exists.mp (find?_isSome.mpr
    ⟨wan, hw, decide_eq_true rfl⟩ : (sys.wans.find? (·.key = wan.key)).isSome = true)
  have hkey : found.key = wan.key := by simpa using find?_some hfound
  rw [wanIndex, hfound, Option.bind_some,
    inj_on_of_nodup_map sys.keys (mem_of_find?_eq_some hfound) hw hkey]

/-- The interface has the policy and filters of some policy with `R`. -/
def ServedBy (sys : System) (k : Kernel) (i : Nat) (R : InterfacePolicy → Prop) : Prop :=
  ∃ p, p.ifIndex = i ∧ R p ∧ ∀ d, Attached sys.header k p d

/-- A WAN's own policy for the pair. -/
def OwnPolicy (pair : PrefixPair) (p : InterfacePolicy) : Prop :=
  p.internal = false ∧ ∃ pair', p.pairs = [pair'] ∧ equalPair pair pair' = true

/-- A policy of the internal interface with the pair. -/
def InternalPolicy (pair : PrefixPair) (p : InterfacePolicy) : Prop :=
  p.internal = true ∧ ∃ pair' ∈ p.pairs, equalPair pair pair' = true

/-- The pair is in the policies of the WAN's interface and of the internal
one, with both filters attached. -/
def AppliedPair (sys : System) (k : Kernel) (key : String) (pair : PrefixPair) : Prop :=
  ∃ i j, sys.wanIndex key = some i ∧ sys.index sys.internalIface = some j ∧
    ServedBy sys k i (OwnPolicy pair) ∧ ServedBy sys k j (InternalPolicy pair)

def Applied (sys : System) (k : Kernel) (pairs : Pairs) : Prop :=
  ∀ key pair, pairs.lookup key = some pair → AppliedPair sys k key pair

/-- Outside a fence the published pairs are applied. -/
def World.OutsideFence (sys : System) (w : World) : Prop :=
  w.fenced = false → Applied sys w.kernel w.published

/-! ## What a run of the translator keeps -/

variable {sys : System} {policies : List InterfacePolicy} {desired : List Prepared}
  {policy : InterfacePolicy}

/-- An interface keeps a policy with `R` while the translator writes one. -/
theorem servedBy_closed (hacc : Accepted sys.header policies desired) (hp : policy ∈ policies)
    (hpairs : policy.pairs ≠ []) {R : InterfacePolicy → Prop} (hR : R policy) :
    Closed (Touch desired) (ServedBy sys · policy.ifIndex R) := by
  obtain ⟨p, hmem, hidx⟩ := hacc.all policy hp hpairs
  have hin : policy.ifIndex ∈ desired.map Prepared.index := hidx ▸ mem_map_of_mem hmem
  intro k k' ht ⟨old, hold, hRold, hatt⟩
  have hkeep (h : ∀ d, k'.filters old.ifIndex d = .current)
      (hl : k'.policies.lookup old.ifIndex = k.policies.lookup old.ifIndex) :
      ServedBy sys k' policy.ifIndex R := by
    refine ⟨old, hold, hRold, fun d => ⟨?_, h d⟩⟩
    rw [hl]
    exact (hatt d).1
  cases ht with
  | @policy q hq =>
    by_cases hqi : q.index = policy.ifIndex
    · refine ⟨policy, rfl, hR, fun d => ⟨⟨q.value, hacc.value_eq hq hp hqi, ?_⟩, ?_⟩⟩
      · rw [setPolicy_lookup, if_pos hqi.symm]
      · exact hold ▸ (hatt d).2
    · refine hkeep (fun d => (hatt d).2) ?_
      rw [setPolicy_lookup, if_neg]
      exact fun he => hqi (he.symm.trans hold)
  | attach _ d' =>
    refine hkeep (fun d => ?_) rfl
    simp [Kernel.setFilter, (hatt d).2]
  | @detach i hi d' =>
    refine hkeep (fun d => ?_) rfl
    simp only [Kernel.setFilter]
    rw [if_neg]
    · exact (hatt d).2
    · intro he
      exact hi (he.1 ▸ hold ▸ hin)
  | @delete i hi =>
    refine hkeep (fun d => (hatt d).2) ?_
    rw [deletePolicy_lookup, if_neg]
    intro he
    exact hi (he ▸ hold ▸ hin)

/-- The policies given to the translator have the pair at both interfaces. -/
structure Covers (sys : System) (policies : List InterfacePolicy) (key : String)
    (pair : PrefixPair) (i j : Nat) : Prop where
  wan : sys.wanIndex key = some i
  internal : sys.index sys.internalIface = some j
  own : ∃ p ∈ policies, p.ifIndex = i ∧ OwnPolicy pair p
  shared : ∃ p ∈ policies, p.ifIndex = j ∧ InternalPolicy pair p

variable {p : InterfacePolicy}

theorem OwnPolicy.pairs_ne (h : OwnPolicy pair p) : p.pairs ≠ [] := by
  obtain ⟨-, pair', hp, -⟩ := h
  simp [hp]

theorem InternalPolicy.pairs_ne (h : InternalPolicy pair p) : p.pairs ≠ [] := by
  obtain ⟨-, pair', hp, -⟩ := h
  exact ne_nil_of_mem hp

variable {result : List AttachmentState × Option TranslatorError}

section

variable {sys : System} {policies : List InterfacePolicy} {key : String} {pair : PrefixPair}
  {i j : Nat} (h : Covers sys policies key pair i j)

include h

theorem Covers.closed {f : Faults} :
    Closed (Reconciles f sys.header policies) (AppliedPair sys · key pair) := by
  intro k k' ⟨desired, hprep, ht⟩ ⟨i', j', hi', hj', hown, hshared⟩
  obtain rfl : i = i' := Option.some.inj (h.wan.symm.trans hi')
  obtain rfl : j = j' := Option.some.inj (h.internal.symm.trans hj')
  have hacc := (preparePolicies_eq_ok hprep).1
  obtain ⟨p, hp, rfl, hR⟩ := h.own
  obtain ⟨q, hq, rfl, hS⟩ := h.shared
  exact ⟨_, _, hi', hj', servedBy_closed hacc hp hR.pairs_ne hR k k' ht hown,
    servedBy_closed hacc hq hS.pairs_ne hS k k' ht hshared⟩

/-- A covered pair whose interfaces are reported ready is applied. -/
theorem Covers.applied {k : Kernel} (hrep : Reported sys.header policies result k)
    (hi : ∀ d, ⟨i, d, true⟩ ∈ result.1) (hj : ∀ d, ⟨j, d, true⟩ ∈ result.1) :
    AppliedPair sys k key pair := by
  obtain ⟨p, hp, rfl, hR⟩ := h.own
  obtain ⟨q, hq, rfl, hS⟩ := h.shared
  exact ⟨_, _, h.wan, h.internal,
    ⟨p, rfl, hR, fun d => hrep.attached _ (hi d) rfl p hp rfl⟩,
    ⟨q, rfl, hS, fun d => hrep.attached _ (hj d) rfl q hq rfl⟩⟩

end

/-! ## What `interfacePolicies` covers -/

variable {pair' : PrefixPair}

section Built

variable {sys : System} {lookups : Lookups} {pairs : Pairs}

/-- What the translator is given. -/
abbrev System.built (sys : System) (lookups : Lookups) (pairs : Pairs) :=
  interfacePolicies (sys.host lookups) sys.config pairs

/-- A lookup that succeeds finds the link's index. -/
theorem System.index_of_host {name : String} {index : Nat}
    (h : (sys.host lookups).linkByName name = some index) : sys.index name = some index := by
  simp only [System.host] at h
  split at h
  · cases h
  · exact h

/-- A WAN that is kept is covered, with the pair that is wanted for it. -/
theorem built_covers {i : Nat}
    (h : (key, i) ∈ (sys.built lookups pairs).indices) :
    ∃ pair', pairs.lookup key = some pair' ∧ ∀ pair, equalPair pair pair' = true →
      Covers sys (sys.built lookups pairs).policies key pair i (sys.built lookups pairs).internalIndex := by
  cases hlink : (sys.host lookups).linkByName sys.config.internalIface with
  | none =>
    have : (sys.built lookups pairs).indices = [] := by
      unfold System.built interfacePolicies
      rw [hlink]
      split <;> rfl
    rw [this] at h
    cases h
  | some internalIndex =>
    obtain ⟨kept, hpol, hind, hint, hfound, -⟩ :=
      @interfacePolicies_kept (sys.host lookups) sys.config pairs _ hlink
    rw [hind] at h
    obtain ⟨k, hk, he⟩ := mem_map.mp h
    obtain ⟨rfl, rfl⟩ := Prod.mk.inj he
    obtain ⟨hw, hkf⟩ := hfound k hk
    obtain ⟨wan, hwan, hkw⟩ := mem_map.mp hw
    have hne : kept ≠ [] := ne_nil_of_mem hk
    refine ⟨k.pair, hkf.pair, fun pair hpair => ⟨?_, ?_, ?_, ?_⟩⟩
    · rw [← hkw, sys.wanIndex_eq hwan]
      exact hkw ▸ System.index_of_host hkf.index
    · rw [hint hne]
      exact System.index_of_host hlink
    · exact ⟨k.policy, by rw [hpol, mem_keptPolicies]; exact .inl ⟨k, hk, rfl⟩, rfl, rfl, k.pair,
        rfl, hpair⟩
    · exact ⟨⟨internalIndex, true, kept.map Kept.pair⟩,
        by rw [hpol, mem_keptPolicies]; exact .inr ⟨hne, rfl⟩, (hint hne).symm, rfl, k.pair,
        mem_map_of_mem hk, hpair⟩

/-- Without a failure every wanted pair of a WAN is covered. -/
theorem complete_covers (h : (sys.built lookups pairs).failures = [])
    {wan : NptWan} (hw : wan ∈ sys.wans) (hpair' : pairs.lookup wan.key = some pair') :
    ∃ i, (wan.key, i) ∈ (sys.built lookups pairs).indices := by
  cases hlink : (sys.host lookups).linkByName sys.config.internalIface with
  | none =>
    obtain ⟨_, kept, hpol, hint, -, hall⟩ := interfacePolicies_complete h
    obtain ⟨k, hk, -⟩ := hall wan.toWan (mem_map_of_mem hw) pair' hpair'
    have := hint (ne_nil_of_mem hk)
    rw [hlink] at this
    cases this
  | some =>
    obtain ⟨kept, -, hind, -, -, hall⟩ :=
      @interfacePolicies_kept (sys.host lookups) sys.config pairs _ hlink
    obtain ⟨k, hk, hkw, -⟩ := hall h wan.toWan (mem_map_of_mem hw) pair' hpair'
    refine ⟨k.index, ?_⟩
    rw [hind]
    exact mem_map.mpr ⟨k, hk, by rw [hkw]⟩

end Built

/-! ## The calls -/

/-- The state between calls: no fence, and the published pairs are applied. -/
structure Settled (sys : System) (w : World) : Prop where
  fenced : w.fenced = false
  applied : Applied sys w.kernel w.published

/-- If `strict`, every new world has the published pairs applied outside a
fence. -/
def Keeping (sys : System) (strict : Prop) (_ w : World) : Prop := strict → w.OutsideFence sys

variable {w w₀ : World}

theorem Settled.outsideFence (h : Settled sys w) : w.OutsideFence sys :=
  fun _ => h.applied

/-- A fence is held, or what is wanted is what is published. -/
structure Begun (w₀ : World) (pairs : Pairs) (r : List String × Bool) (w : World) : Prop where
  kernel : w.kernel = w₀.kernel
  published : w.published = w₀.published
  fenced : w.fenced = r.2
  changed : r.1 = changedNptPolicies w₀.published pairs
  unheld : r.2 = false → r.1 = []

variable {strict : Prop}

theorem beginPolicyChange_spec (guardFails : Bool) (pairs : Pairs)
    (hw₀ : Settled sys w₀) :
    Spec (Keeping sys strict) (fun w => w = w₀) (beginPolicyChange guardFails pairs)
      (Begun w₀ pairs) (fun _ w => w = w₀) := by
  refine .bindRead fun w hw => ?_
  subst hw
  refine .ite (fun h => .pure fun w' hw' => ?_) fun h => ?_
  · subst hw'
    exact ⟨rfl, rfl, hw₀.fenced, h.symm, fun _ => rfl⟩
  · refine .bindRefuse (fun _ hw' _ => hw') fun _ => ?_
    refine .bind (R := fun _ => Begun w pairs (changedNptPolicies w.published pairs, true))
      (.update (fun _ _ _ hf => by cases hf) fun w' hw' => ?_) fun _ => .pure fun _ h => h
    subst hw'
    exact ⟨rfl, rfl, rfl, rfl, nofun⟩

/-- The translator on the module's kernel: it keeps what its changes keep, and
reports the truth. -/
theorem translate_spec (f : Faults) (policies : List InterfacePolicy) {w₁ : World}
    {K : Kernel → Prop} (hK : Closed (Reconciles f sys.header policies) K) (hK₁ : K w₁.kernel)
    (hout : ∀ k, K k → strict → World.OutsideFence sys { w₁ with kernel := k }) :
    Spec (Keeping sys strict) (fun w => w = w₁) (translate f sys policies)
      (fun result w => ∃ k, w = { w₁ with kernel := k } ∧ K k ∧
        Reported sys.header policies result k) (fun _ _ => False) := by
  refine .zoom (fun _ => rfl) (reconcile_spec f sys.header sys.links policies hK) fun w hw => ?_
  subst hw
  exact ⟨hK₁, K, hK, hK₁, fun k k' hk hs h => hout k' (hK k k' hs hk) h,
    fun result k hQ _ => ⟨k, rfl, hQ.1, hQ.2.1⟩, fun _ _ h _ => h⟩

/-- The fence is released, or none was held. -/
theorem finishPolicyChange_spec (changed : List String) (held published : Bool) {P : World → Prop}
    (hP : ∀ w, P w → w.fenced = held)
    (hpub : published = true ∨ held = false → ∀ w, P w → Applied sys w.kernel w.published)
    (hfail : ∀ w, P w → published = false →
      Applied sys w.kernel (failAppliedPolicy changed w).published) :
    Spec (Keeping sys strict) P (finishPolicyChange changed held published) (fun _ => Settled sys)
      (fun _ _ => False) := by
  refine .bind (R := fun _ w => w.fenced = held ∧ Applied sys w.kernel w.published)
    (.updateIf (fun w hw hc _ _ => hfail w hw hc.2)
      (fun w hw hc => ⟨hP w hw, hfail w hw hc.2⟩) fun w hw hc => ⟨hP w hw, hpub ?_ w hw⟩)
    fun _ => .updateIf (fun w hw _ _ _ => hw.2) (fun w hw _ => ⟨rfl, hw.2⟩)
      fun w hw hc => ⟨by simpa [hc] using hw.1, hw.2⟩
  cases published
  · exact .inr (by simpa using hc)
  · exact .inl rfl

/-! ### A pass -/

variable {changed : List String} {held : Bool}

section Pass

variable {sys : System} {input : PassInput}

/-- What a pass wants is what is published, the translator accepts the
policies, and its lookups leave out a published pair. -/
structure DropsPublished (sys : System) (input : PassInput) (w : World) : Prop where
  applied : unappliedWan sys input w = false
  unchanged : changedNptPolicies w.published (wanted sys input w).pairs = []
  accepted : ∃ desired, preparePolicies {} sys.header []
    (interfacePolicies (sys.host input.lookups) sys.config (wanted sys input w).pairs).policies =
      .ok desired
  dropped : ∃ key, (w.published.lookup key).isSome = true ∧
    key ∉ (interfacePolicies (sys.host input.lookups) sys.config
      (wanted sys input w).pairs).indices.map Prod.fst

/-- What the translator is given in a pass. -/
abbrev offered (sys : System) (input : PassInput) (w : World) :=
  sys.built input.lookups (wanted sys input w).pairs

/-- Fewer faults, fewer refusals. -/
theorem preparePolicies_noFaults {f : Faults} {header : Nat → PacketHeader} {seen : List Nat}
    (h : preparePolicies f header seen policies = .ok desired) :
    preparePolicies {} header seen policies = .ok desired := by
  induction policies generalizing seen desired with
  | nil => exact h
  | cons policy policies ih =>
    simp only [preparePolicies, Exec.except_ite_eq_ok, Exec.except_throw_eq_ok, and_false,
      false_or] at h ⊢
    obtain ⟨hnew, hrange, -, h⟩ := h
    refine ⟨hnew, hrange, by simp, ?_⟩
    cases hv : policyValue policy (header policy.ifIndex) with
    | error e => rw [hv] at h; exact h
    | ok =>
      simp only [hv, Exec.except_bind_eq_ok, Exec.except_pure_eq_ok] at h ⊢
      obtain ⟨rest, hrest, hd⟩ := h
      exact ⟨rest, ih hrest, hd⟩

/-- A pass that is not fenced and drops nothing keeps the published pairs
applied while the translator runs. -/
theorem applied_closed {f : Faults}
    (hun : changedNptPolicies w.published (wanted sys input w).pairs = [])
    (happ : unappliedWan sys input w = false) (h : ¬ DropsPublished sys input w) :
    Closed (Reconciles f sys.header (offered sys input w).policies) (Applied sys · w.published) := by
  intro k k' hr hk key pair hpair
  obtain ⟨desired, hprep, -⟩ := id hr
  have hin : key ∈ (offered sys input w).indices.map Prod.fst := by
    by_contra hno
    exact h ⟨happ, hun, ⟨desired, preparePolicies_noFaults hprep⟩, key, by simp [hpair], hno⟩
  obtain ⟨⟨key', i⟩, hmem, rfl⟩ := mem_map.mp hin
  obtain ⟨pair', hwant, hcov⟩ := built_covers hmem
  obtain ⟨current, hcur, heq⟩ := unchanged_wanted (by rw [hun]; simp) hpair
  obtain rfl : pair' = current := Option.some.inj (hwant.symm.trans hcur)
  exact (hcov pair heq).closed k k' hr (hk _ pair hpair)

/-- Pairs are wanted for NPTv6 only. -/
theorem wantWan_pairs (w : World) (d : Wanted) (wan : NptWan) (key : String) :
    (wantWan input w d wan).pairs.lookup key = d.pairs.lookup key ∨
      (wan.key = key ∧ wan.mode = some .nptv6) := by
  have hretain (rules : AList fun _ : String => List NatRule) :
      (retainCurrentTranslation w wan { d with rules := rules }).pairs.lookup key =
        d.pairs.lookup key ∨ wan.key = key := by
    unfold retainCurrentTranslation
    split
    · exact .inl rfl
    · by_cases hk : key = wan.key
      · exact .inr hk.symm
      · exact .inl (AList.lookup_insert_ne hk)
  unfold wantWan
  split
  · exact .inl rfl
  · next hmasq =>
    dsimp only
    split
    · next hno =>
      simp only [addressesNotApplied, Bool.and_eq_true, decide_eq_true_eq] at hno
      exact (hretain _).imp id fun h => ⟨h, hno.1.2⟩
    · cases hb : buildWanDesired wan (input.build wan.key) with
      | failed | absent => exact .inl rfl
      | built =>
        have hmode : wan.mode = some .nptv6 := by
          unfold buildWanDesired at hb
          split at hb
          · cases hb
          · next hn =>
            cases hm : wan.mode with
            | none => exact absurd (.inl hm) hn
            | some mode =>
              cases mode with
              | native => exact absurd (.inr hm) hn
              | masquerade => exact absurd hm hmasq
              | nptv6 => rfl
        cases input.ensure wan.key with
        | pending => exact (hretain _).imp id fun h => ⟨h, hmode⟩
        | failed => exact .inl rfl
        | ok =>
          by_cases hk : key = wan.key
          · exact .inr ⟨hk.symm, hmode⟩
          · exact .inl (AList.lookup_insert_ne hk)

theorem wanted_mode (w : World) {wan : NptWan} (hw : wan ∈ sys.wans)
    (h : ((wanted sys input w).pairs.lookup wan.key).isSome = true) : wan.mode = some .nptv6 := by
  have hfold (wans : List NptWan) (d : Wanted) (key : String)
      (h : ((wans.foldl (wantWan input w) d).pairs.lookup key).isSome = true) :
      (d.pairs.lookup key).isSome = true ∨
        ∃ wan ∈ wans, wan.key = key ∧ wan.mode = some .nptv6 := by
    induction wans generalizing d with
    | nil => exact .inl h
    | cons first wans ih =>
      rcases ih _ h with h | ⟨wan, hw, hwan⟩
      · rcases wantWan_pairs w d first key with he | hfirst
        · exact .inl (he ▸ h)
        · exact .inr ⟨first, (.head _), hfirst⟩
      · exact .inr ⟨wan, .tail _ hw, hwan⟩
  rcases hfold sys.wans _ wan.key h with h | ⟨wan', hw', hkey, hmode⟩
  · cases h
  · rwa [inj_on_of_nodup_map sys.keys hw' hw hkey] at hmode

/-- What `publishLiveState` verifies is ready and wanted. -/
theorem lookup_verified {bpf : String → Bool} {d : Wanted} {wans : List NptWan} {start : Pairs}
    (h : (wans.foldl (verifyWan input bpf d) start).lookup key = some pair) :
    start.lookup key = some pair ∨
      ∃ wan ∈ wans, wan.key = key ∧ d.pairs.lookup key = some pair ∧
        memberReady input bpf wan = true := by
  induction wans generalizing start with
  | nil => exact .inl h
  | cons wan wans ih =>
    rcases ih h with h | ⟨wan', hw', hrest⟩
    · simp only [verifyWan] at h
      split at h
      · exact .inl h
      · next pair' hpair' =>
        split at h
        · next hready =>
          rcases lookup_insert_cases h with ⟨rfl, rfl⟩ | h
          · rw [Bool.and_eq_true] at hready
            exact .inr ⟨wan, (.head _), rfl, hpair', hready.1⟩
          · exact .inl h
        · exact .inl h
    · exact .inr ⟨wan', .tail _ hw', hrest⟩

/-- A verified pair is applied. -/
theorem applied_verified (w : World) {k : Kernel}
    (hrep : Reported sys.header (offered sys input w).policies result k) :
    Applied sys k (sys.wans.foldl (verifyWan input (bpfReady (offered sys input w) result.1)
      (wanted sys input w)) ∅) := by
  intro key pair hpair
  rcases lookup_verified hpair with h | ⟨wan, hw, rfl, hwant, hready⟩
  · rw [AList.lookup_empty] at h
    cases h
  · have hsome : ((wanted sys input w).pairs.lookup wan.key).isSome = true := by rw [hwant]; rfl
    have hm := wanted_mode w hw hsome
    simp only [memberReady, hm, if_true, Bool.and_eq_true, bpfReady, any_eq_true,
      decide_eq_true_eq] at hready
    obtain ⟨-, hint, ⟨key, i⟩, hmem, rfl, hown⟩ := hready
    obtain ⟨pair', hwant', hcov⟩ := built_covers hmem
    obtain rfl : pair' = pair := Option.some.inj (hwant'.symm.trans hwant)
    have hstates (i : Nat) (h : attachmentsReady result.1 i = true) (dir : Direction) :
        ⟨i, dir, true⟩ ∈ result.1 := by
      simp only [attachmentsReady, Bool.and_eq_true, contains_eq_mem, decide_eq_true_eq] at h
      cases dir
      · exact h.1.2
      · exact h.2
    exact (hcov pair' (equalPair_refl pair')).applied hrep (hstates _ hown) (hstates _ hint)

/-- The translator in a pass: the kernel changes, and the readiness is the
truth about it. -/
theorem reconcileTranslator_spec (f : Faults) (hw₀ : Settled sys w₀)
    (happ : unappliedWan sys input w₀ = false) (hstrict : strict → ¬ DropsPublished sys input w₀) :
    Spec (Keeping sys strict) (Begun w₀ (wanted sys input w₀).pairs (changed, held))
      (reconcileTranslator f sys input.lookups (wanted sys input w₀).pairs)
      (fun bpf w => w.fenced = held ∧ ∃ result : List AttachmentState × Option TranslatorError,
        Reported sys.header (offered sys input w₀).policies result w.kernel ∧
        bpf = bpfReady (offered sys input w₀) result.1) (fun _ _ => False) := by
  refine .given fun w₁ hw₁ => ?_
  have hK : Closed (Reconciles f sys.header (offered sys input w₀).policies)
      (fun k => held = false → strict → Applied sys k w₀.published) := by
    intro k k' hr hk hheld hs
    exact applied_closed (hw₁.changed.symm.trans (hw₁.unheld hheld)) happ (hstrict hs) k k' hr
      (hk hheld hs)
  have hout (k : Kernel) (hk : held = false → strict → Applied sys k w₀.published) (hs : strict)
      (w : World) (hkernel : w.kernel = k) (hpub : w.published = w₁.published)
      (hfenced : w.fenced = w₁.fenced) : w.OutsideFence sys := by
    intro hf
    rw [hkernel, hpub, hw₁.published]
    exact hk (hw₁.fenced.symm.trans (hfenced.symm.trans hf)) hs
  refine .bind (translate_spec f _ hK (fun _ _ => hw₁.kernel ▸ hw₀.applied)
    fun k hk hs => hout k hk hs _ rfl rfl rfl) fun result => ?_
  refine .bind (R := fun _ w => w.fenced = held ∧
    Reported sys.header (offered sys input w₀).policies result w.kernel)
    (.updateIf ?_ ?_ ?_) fun _ => .pure fun w hw => ⟨hw.1, result, hw.2, rfl⟩
  · intro w ⟨k, hw, hk, _⟩ _ hs
    subst hw
    exact hout k hk hs _ rfl rfl rfl
  all_goals
    intro w ⟨k, hw, _, hrep⟩ _
    subst hw
    exact ⟨hw₁.fenced, hrep⟩

/-- A pass ends with the published pairs applied. -/
theorem reconcile_applied (f : Faults) (hw₀ : Settled sys w₀)
    (hstrict : strict → ¬ DropsPublished sys input w₀) :
    Spec (Keeping sys strict) (fun w => w = w₀) (reconcile f sys input) (fun _ => Settled sys)
      (fun _ => Settled sys) := by
  refine .bindRead fun w hw => ?_
  subst hw
  refine .bindRefuse (fun w' hw' _ => hw' ▸ hw₀) fun happ => ?_
  refine .bind ((beginPolicyChange_spec input.guardFails (wanted sys input w).pairs hw₀).onError fun _ w' hw' => hw' ▸ hw₀) fun ⟨changed, held⟩ => ?_
  refine .bind (R := fun _ => Begun w (wanted sys input w).pairs (changed, held))
    (.updateIf (fun w' hw' _ _ _ => ?_) (fun w' hw' _ => ?_) fun _ hw' _ => hw') fun _ => ?_
  · exact hw'.kernel ▸ hw'.published ▸ hw₀.applied
  · exact ⟨hw'.kernel, hw'.published, hw'.fenced, hw'.changed, hw'.unheld⟩
  refine .bind ((reconcileTranslator_spec f hw₀ (by simpa using happ) hstrict).onError fun _ _ h => h.elim) fun bpf => ?_
  refine .bind (R := fun _ w' => w'.fenced = held ∧ Applied sys w'.kernel w'.published)
    (.update ?_ ?_) fun _ => ?_
  · intro w' ⟨_, result, hrep, hbpf⟩ _ _
    subst hbpf
    exact applied_verified w hrep
  · intro w' ⟨hfenced, result, hrep, hbpf⟩
    subst hbpf
    exact ⟨hfenced, applied_verified w hrep⟩
  · exact (finishPolicyChange_spec changed held true (fun _ h => h.1) (fun _ _ h => h.2)
      (fun _ _ h => by cases h)).onError fun _ _ h => h.elim

end Pass

/-! ### The preparation of local addresses -/

variable {pairs : Pairs}

section Preparation

variable {sys : System} {input : PrepareInput}

theorem lookup_failAppliedPolicy (changed : List String) (w : World) (key : String) :
    (failAppliedPolicy changed w).published.lookup key =
      if key ∈ changed then none else w.published.lookup key := by
  have hfold (pairs : Pairs) : (changed.foldl (fun pairs key => pairs.erase key) pairs).lookup key =
      if key ∈ changed then none else pairs.lookup key := by
    induction changed generalizing pairs with
    | nil => simp
    | cons first changed ih =>
      rw [foldl_cons, ih, lookup_erase_eq]
      by_cases hk : key = first <;> simp [hk]
  exact hfold w.published

/-- A pair published after the preparation was published before, and has not
changed or is the prepared one. -/
theorem lookup_publishPrepared (iface : String) (pairs : Pairs) (changed : List String)
    (state : Pairs × (String → Bool))
    (h : (changed.foldl (publishPrepared sys iface pairs) state).1.lookup key = some pair) :
    (state.1.lookup key).isSome = true ∧
      ((key ∉ changed ∧ state.1.lookup key = some pair) ∨ pairs.lookup key = some pair) := by
  induction changed generalizing state with
  | nil => exact ⟨by simpa using Option.isSome_of_mem h, .inl ⟨by simp, h⟩⟩
  | cons first changed ih =>
    obtain ⟨hsome, hcase⟩ := ih _ h
    -- one key at a time: other keys are as before, this one is erased or prepared
    by_cases hk : key = first
    · subst hk
      have hnext : ∀ p, (publishPrepared sys iface pairs state key).1.lookup key = some p →
          pairs.lookup key = some p ∧ (state.1.lookup key).isSome = true := by
        intro p hp
        unfold publishPrepared at hp
        dsimp only at hp
        split at hp
        · next previous next hprev hnext =>
          split at hp
          · rw [AList.lookup_insert] at hp
            exact ⟨hp ▸ hnext, by simp [hprev]⟩
          · simp [AList.lookup_erase] at hp
        · simp [AList.lookup_erase] at hp
      obtain ⟨p, hp⟩ := Option.isSome_iff_exists.mp hsome
      refine ⟨(hnext p hp).2, .inr ?_⟩
      rcases hcase with ⟨-, hl⟩ | hl
      · exact (hnext pair hl).1
      · exact hl
    · have hsame : (publishPrepared sys iface pairs state first).1.lookup key =
          state.1.lookup key := by
        unfold publishPrepared
        dsimp only
        split
        · split
          · exact AList.lookup_insert_ne hk
          · exact AList.lookup_erase_ne hk
        · exact AList.lookup_erase_ne hk
      rw [hsame] at hsome hcase
      refine ⟨hsome, hcase.imp (fun h => ⟨?_, h.2⟩) id⟩
      rw [mem_cons, not_or]
      exact ⟨hk, h.1⟩

/-- The published pairs that the preparation does not change are applied. -/
def UnchangedApplied (sys : System) (w₀ : World) (changed : List String) (k : Kernel) : Prop :=
  ∀ key pair, key ∉ changed → w₀.published.lookup key = some pair → AppliedPair sys k key pair

theorem Settled.wan (hw₀ : Settled sys w₀)
    (h : (w₀.published.lookup key).isSome = true) : ∃ wan ∈ sys.wans, wan.key = key := by
  obtain ⟨pair, hpair⟩ := Option.isSome_iff_exists.mp h
  obtain ⟨i, -, hi, -⟩ := hw₀.applied key pair hpair
  obtain ⟨wan, hfind, -⟩ := Option.bind_eq_some_iff.mp hi
  exact ⟨wan, mem_of_find?_eq_some hfind, by simpa using find?_some hfind⟩

/-- A wanted pair of a published WAN is covered if no lookup fails. -/
theorem Settled.covers (hw₀ : Settled sys w₀)
    (hcomplete : (sys.built input.lookups pairs).failures = [])
    (h : (w₀.published.lookup key).isSome = true) (hwant : pairs.lookup key = some pair')
    (heq : equalPair pair pair' = true) :
    ∃ i j, Covers sys (sys.built input.lookups pairs).policies key pair i j := by
  obtain ⟨wan, hw, rfl⟩ := hw₀.wan h
  obtain ⟨i, hi⟩ := complete_covers hcomplete hw hwant
  obtain ⟨pair'', hwant', hcov⟩ := built_covers hi
  obtain rfl : pair'' = pair' := Option.some.inj (hwant'.symm.trans hwant)
  exact ⟨i, _, hcov pair heq⟩

/-- Behind the translator: the published pairs are still those of `w₀`; those
that have not changed are applied, and the wanted ones are. -/
structure Rewritten (sys : System) (w₀ : World) (pairs : Pairs) (changed : List String)
    (held : Bool) (w : World) : Prop where
  fenced : w.fenced = held
  published : w.published = w₀.published
  unchanged : UnchangedApplied sys w₀ changed w.kernel
  wanted : ∀ key pair, (w₀.published.lookup key).isSome = true → pairs.lookup key = some pair →
    AppliedPair sys w.kernel key pair

theorem UnchangedApplied.outsideFence (h : UnchangedApplied sys w₀ changed w.kernel)
    (hpub : w.published = w₀.published) (hfenced : w.fenced = held)
    (hheld : held = false → changed = []) : w.OutsideFence sys := by
  intro hf key pair hpair
  rw [hpub] at hpair
  exact h key pair (by simp [hheld (hfenced.symm.trans hf)]) hpair

/-- Changes of the module's own state do not matter. -/
theorem Rewritten.update {g : World → World} {E : NptError → World → Prop}
    (hheld : held = false → changed = []) (hg : ∀ w, (g w).kernel = w.kernel ∧
      (g w).published = w.published ∧ (g w).fenced = w.fenced) :
    Spec (Keeping sys strict) (Rewritten sys w₀ pairs changed held) (Prog.update g)
      (fun _ => Rewritten sys w₀ pairs changed held) E := by
  have hkeep (w : World) (h : Rewritten sys w₀ pairs changed held w) :
      Rewritten sys w₀ pairs changed held (g w) := by
    obtain ⟨hkernel, hpub, hfenced⟩ := hg w
    exact ⟨hfenced.trans h.fenced, hpub.trans h.published, hkernel ▸ h.unchanged,
      hkernel ▸ h.wanted⟩
  exact .update (fun w hw _ => (hkeep w hw).unchanged.outsideFence (hkeep w hw).published
    (hkeep w hw).fenced hheld) hkeep

theorem retainRules_frame (sys : System) (input : PrepareInput) (w : World) :
    (retainRules sys input w).kernel = w.kernel ∧
      (retainRules sys input w).published = w.published ∧
      (retainRules sys input w).fenced = w.fenced := by
  unfold retainRules
  split
  · exact ⟨rfl, rfl, rfl⟩
  · split <;> exact ⟨rfl, rfl, rfl⟩

section

variable {strict : Prop} {pairs : Pairs} {changed : List String} {held : Bool}
  (f : Faults) (hw₀ : Settled sys w₀)
  (hcomplete : (sys.built input.lookups pairs).failures = [])

include f hw₀ hcomplete

/-- The translator in a preparation. -/
theorem prepareTranslate_spec : Spec (Keeping sys strict) (Begun w₀ pairs (changed, held))
      (translate f sys (sys.built input.lookups pairs).policies)
      (fun result w => (w.fenced = held ∧ w.published = w₀.published ∧
        UnchangedApplied sys w₀ changed w.kernel) ∧
        (result.2 = none → Rewritten sys w₀ pairs changed held w)) (fun _ _ => False) := by
  refine .given fun w₁ hw₁ => ?_
  have hchanged : changed = changedNptPolicies w₀.published pairs := hw₁.changed
  have hK : Closed (Reconciles f sys.header (sys.built input.lookups pairs).policies)
      (UnchangedApplied sys w₀ changed) := by
    intro k k' hr hk key pair hno hpair
    obtain ⟨current, hcur, heq⟩ := unchanged_wanted (hchanged ▸ hno) hpair
    obtain ⟨i, j, hcov⟩ := hw₀.covers hcomplete (by simp [hpair]) hcur heq
    exact hcov.closed k k' hr (hk key pair hno hpair)
  refine (translate_spec f _ hK (fun key pair _ hpair => hw₁.kernel ▸
    hw₀.applied key pair hpair) fun k hk _ => hk.outsideFence hw₁.published hw₁.fenced
      hw₁.unheld).post ?_ fun _ _ h => h
  intro result w ⟨k, hw, hk, hrep⟩
  subst hw
  refine ⟨⟨hw₁.fenced, hw₁.published, hk⟩, fun hnone => ⟨hw₁.fenced, hw₁.published, hk, ?_⟩⟩
  intro key pair hsome hwant
  obtain ⟨i, j, hcov⟩ := hw₀.covers hcomplete hsome hwant (equalPair_refl pair)
  refine hcov.applied hrep (fun d => ?_) fun d => ?_
  · obtain ⟨p, hp, rfl, hR⟩ := hcov.own
    exact hrep.complete hnone p hp hR.pairs_ne d
  · obtain ⟨p, hp, rfl, hR⟩ := hcov.shared
    exact hrep.complete hnone p hp hR.pairs_ne d

theorem prepareFenced_spec (hheld : held = false → changed = []) :
    Spec (Keeping sys strict) (Begun w₀ pairs (changed, held))
      (prepareFenced f sys input pairs
        (sys.built input.lookups pairs).policies changed)
      (fun _ w => w.fenced = held ∧ Applied sys w.kernel w.published)
      (fun _ w => w.fenced = held ∧ w.published = w₀.published ∧
        UnchangedApplied sys w₀ changed w.kernel) := by
  refine .bind ((prepareTranslate_spec f hw₀ hcomplete).onError fun _ _ h => h.elim) fun result => ?_
  refine .bind (R := fun _ => Rewritten sys w₀ pairs changed held)
    (.raise (fun _ _ _ h => h.1) fun w hnone h => h.2 (by simpa using hnone)) fun _ => ?_
  refine .bind (Rewritten.update hheld fun _ => ⟨rfl, rfl, rfl⟩) fun _ => ?_
  refine .bind (.ite (fun _ => Rewritten.update hheld fun _ => ⟨rfl, rfl, rfl⟩)
    fun _ => .skip) fun _ => ?_
  refine .bindRefuse (fun w hw _ => ⟨hw.fenced, hw.published, hw.unchanged⟩) fun _ => ?_
  refine .bind (Rewritten.update hheld (retainRules_frame sys input)) fun _ => ?_
  -- what is published now is unchanged, or wanted and published before
  have happlied (w : World) (hw : Rewritten sys w₀ pairs changed held w) :
      Applied sys w.kernel (changed.foldl (publishPrepared sys input.iface pairs)
        (w.published, w.ready)).1 := by
    intro key pair hpair
    obtain ⟨hsome, hcase⟩ := lookup_publishPrepared _ _ _ _ hpair
    rw [hw.published] at hsome hcase
    rcases hcase with ⟨hno, hl⟩ | hl
    · exact hw.unchanged key pair hno hl
    · exact hw.wanted key pair hsome hl
  exact .update (fun w hw _ _ => happlied w hw) fun w hw => ⟨hw.fenced, happlied w hw⟩

end

/-- A preparation ends with the published pairs applied, and they are at every
moment without a fence. -/
theorem prepareLocalIpv6_applied (f : Faults) (hw₀ : Settled sys w₀) :
    Spec (Keeping sys strict) (fun w => w = w₀) (prepareLocalIpv6 f sys input)
      (fun _ => Settled sys) (fun _ => Settled sys) := by
  refine .ite (fun _ => .pure fun w hw => hw ▸ hw₀) fun _ => .bindRead fun w hw => ?_
  subst hw
  refine .bindChecked (fun _ w' hw' => hw' ▸ hw₀) fun pairs _ => ?_
  refine .bindRefuse (fun w' hw' _ => hw' ▸ hw₀) fun hcomplete => ?_
  have hcomplete := not_not.mp hcomplete
  refine .bind ((beginPolicyChange_spec input.guardFails pairs hw₀).onError fun _ w' hw' => hw' ▸ hw₀) fun ⟨changed, held⟩ => ?_
  refine .given fun w₁ hw₁ => ?_
  refine .bind (R := fun err w' => w'.fenced = held ∧
    (err = none → Applied sys w'.kernel w'.published) ∧ (err ≠ none →
      w'.published = w.published ∧ UnchangedApplied sys w changed w'.kernel))
    (.err ((prepareFenced_spec f hw₀ hcomplete hw₁.unheld).pre fun _ h => h ▸ hw₁)
      (fun w' h => ⟨h.1, fun _ => h.2, fun h => absurd rfl h⟩)
      fun e w' h => ⟨h.1, nofun, fun _ => h.2⟩) fun err => ?_
  refine .bind (R := fun _ => Settled sys) ((finishPolicyChange_spec changed held err.isNone
    (fun _ h => h.1) (fun hpub w' h => ?_) fun w' h hpub => ?_).onError fun _ _ h => h.elim) fun _ => .raise (fun _ _ _ h => h) fun _ _ h => h
  · cases err with
    | none => exact h.2.1 rfl
    | some e =>
      -- without a fence nothing has changed
      obtain ⟨hp, hun⟩ := h.2.2 (by simp)
      have hnil : changed = [] := hw₁.unheld (hpub.resolve_left (by simp))
      intro key pair hpair
      exact hun key pair (by simp [hnil]) (hp ▸ hpair)
  · obtain ⟨hp, hun⟩ := h.2.2 (by rintro rfl; cases hpub)
    intro key pair hpair
    rw [lookup_failAppliedPolicy] at hpair
    split at hpair
    · cases hpair
    · next hno => exact hun key pair hno (hp ▸ hpair)

end Preparation

/-! ## A pass that drops a published pair -/

section Drop

variable {sys : System} {input : PassInput}

/-- The interface of a WAN that was left out is not among those written. -/
theorem dropped_index {wan : NptWan} (hw : wan ∈ sys.wans) {i : Nat}
    (hi : sys.index wan.iface = some i)
    (hno : wan.key ∉ (sys.built input.lookups pairs).indices.map Prod.fst)
    (hp : policy ∈ (sys.built input.lookups pairs).policies) : policy.ifIndex ≠ i := by
  obtain ⟨hinternal, hunique⟩ := sys.distinct wan hw i hi
  cases hlink : (sys.host input.lookups).linkByName sys.config.internalIface with
  | none =>
    rw [interfacePolicies_noInternal hlink] at hp
    cases hp
  | some =>
    obtain ⟨kept, hpol, hind, -, hfound, -⟩ :=
      @interfacePolicies_kept (sys.host input.lookups) sys.config pairs _ hlink
    rw [hpol, mem_keptPolicies] at hp
    rcases hp with ⟨k, hk, rfl⟩ | ⟨-, rfl⟩
    · rintro rfl
      obtain ⟨hkw, hkf⟩ := hfound k hk
      obtain ⟨wan', hw', hk'⟩ := mem_map.mp hkw
      obtain rfl := hunique wan' hw' (hk' ▸ System.index_of_host hkf.index)
      refine hno ?_
      rw [hind, map_map]
      exact mem_map.mpr ⟨k, hk, by simp [← hk']⟩
    · rintro rfl
      exact hinternal (System.index_of_host hlink)

/-- The translator then removes the filters of that WAN. -/
theorem translate_detached (hw : Settled sys w) (h : DropsPublished sys input w) {w₁ : World}
    (hkernel : w₁.kernel = w.kernel) (hpub : w₁.published = w.published)
    (hfenced : w₁.fenced = false) :
    Spec AnyStep (fun w' => w' = w₁)
      (translate {} sys (offered sys input w).policies)
      (fun _ w' => ¬ w'.OutsideFence sys) (fun _ w' => ¬ w'.OutsideFence sys) := by
  obtain ⟨desired, hprep⟩ := h.accepted
  obtain ⟨key, hsome, hno⟩ := h.dropped
  obtain ⟨wan, hwan, rfl⟩ := hw.wan hsome
  obtain ⟨pair, hpair⟩ := Option.isSome_iff_exists.mp hsome
  obtain ⟨i, -, hi, -⟩ := hw.applied wan.key pair hpair
  rw [sys.wanIndex_eq hwan] at hi
  have hnot : i ∉ desired.map Prepared.index := by
    intro hmem
    obtain ⟨p, hp, rfl⟩ := mem_map.mp hmem
    obtain ⟨policy, hpolicy, hidx, -⟩ := (preparePolicies_eq_ok hprep).1.prepared p hp
    exact dropped_index hwan hi hno hpolicy hidx
  refine .zoom (fun _ => rfl) (reconcile_spec {} sys.header sys.links _ (P := fun _ => True)
    fun _ _ _ _ => trivial) fun w' hw' => ?_
  subst hw'
  refine ⟨trivial, fun _ => True, fun _ _ _ _ => trivial, trivial, fun _ _ _ _ => trivial,
    fun _ k hk _ hout => ?_, fun _ _ h => h.elim⟩
  -- the pair is still published, its filters are gone
  obtain ⟨i', _, hi', -, ⟨p, hpi, -, hatt⟩, -⟩ := hout hfenced wan.key pair (hpub ▸ hpair)
  rw [sys.wanIndex_eq hwan, hi] at hi'
  cases hi'
  have hcur := (hatt .ingress).2
  rw [hpi, hk.2.2 rfl desired hprep i .ingress ⟨sys.listed wan hwan i hi, hnot⟩] at hcur
  cases hcur

theorem reconcile_detached (hw : Settled sys w) (h : DropsPublished sys input w) :
    ∃ m ∈ (reconcile {} sys input).worlds w, ¬ m.OutsideFence sys := by
  refine Passes.worlds (P := fun w' => w' = w) (Passes.bindRead fun w' hw' => ?_) rfl
  subst hw'
  refine .bindRefuse (by simp [h.applied]) ?_
  refine .behind (R := fun r w'' => r = ([], false) ∧ w'' = w') (.bindRead fun w'' hw'' => ?_) fun r => ?_
  · subst hw''
    exact .ite (fun _ => .pure fun _ hw => ⟨rfl, hw⟩) fun hne => absurd h.unchanged hne
  refine .behind (R := fun _ w'' => w''.kernel = w'.kernel ∧
    w''.published = w'.published ∧ w''.fenced = false)
    (.updateIf (fun _ _ _ => trivial) (fun w'' hw'' _ => ?_) fun w'' hw'' _ => ?_) fun _ => ?_
  iterate 2
    rw [hw''.2]
    exact ⟨rfl, rfl, hw.fenced⟩
  refine .given fun w₁ hw₁ => .bind (.bind (.of_spec
    (translate_detached hw h hw₁.1 hw₁.2.1 hw₁.2.2)) fun result => ?_) fun bpf => ?_
  · exact .bind (.updateIf _ _) fun _ => .pure _
  · exact .bind (.update _) fun _ => .bind (.updateIf _ _) fun _ => .updateIf _ _

end Drop

/-! ## All calls -/

/-- The calls of the module. -/
inductive Call
  | reconcile (input : PassInput)
  | prepareLocalIpv6 (input : PrepareInput)

def Call.run (sys : System) (f : Faults) : Call → Prog NptError World Unit
  | .reconcile input => Npt.reconcile f sys input
  | .prepareLocalIpv6 input => Npt.prepareLocalIpv6 f sys input

/-- The call is a pass that drops a published pair without a fence. -/
def Call.DropsPublished (sys : System) (w : World) : Call → Prop
  | .reconcile input => Npt.DropsPublished sys input w
  | .prepareLocalIpv6 _ => False

/-- The states between calls: any kernel with nothing published at first, then
any calls with any faults. -/
inductive Reachable (sys : System) : World → Prop
  | start {w : World} (published : w.published = ∅) (fenced : w.fenced = false) : Reachable sys w
  | call {w : World} (h : Reachable sys w) (c : Call) (f : Faults) :
      Reachable sys ((c.run sys f).last w)

/-- A call that does not drop a published pair, or any call if not `strict`. -/
theorem Call.applied (f : Faults) (c : Call) (hw₀ : Settled sys w₀)
    (hstrict : strict → ¬ c.DropsPublished sys w₀) :
    Spec (Keeping sys strict) (fun w => w = w₀) (c.run sys f) (fun _ => Settled sys)
      (fun _ => Settled sys) := by
  cases c with
  | reconcile => exact reconcile_applied f hw₀ hstrict
  | prepareLocalIpv6 => exact prepareLocalIpv6_applied f hw₀

/-- Between calls the published pairs are applied and no fence is held. -/
theorem Reachable.settled (h : Reachable sys w) : Settled sys w := by
  induction h with
  | @start w hpub hfenced =>
    refine ⟨hfenced, fun key pair hpair => ?_⟩
    rw [hpub, AList.lookup_empty] at hpair
    cases hpair
  | call _ c f ih =>
    exact (@Call.applied sys _ False f c ih False.elim).last rfl (fun _ _ h => h)
      fun _ _ h => h

/-- A call from a reachable state has the published pairs applied at every
moment without a fence, whatever fails in the translator, exactly if it is not
a pass that drops a published pair. -/
theorem publishedApplied_iff {sys : System} {w : World} (hr : Reachable sys w) (c : Call) :
    (∀ f, ∀ m ∈ (c.run sys f).worlds w, m.OutsideFence sys) ↔ ¬ c.DropsPublished sys w := by
  constructor
  · intro hall hdrop
    cases c with
    | reconcile =>
      obtain ⟨m, hm, hbad⟩ := reconcile_detached hr.settled hdrop
      exact hbad (hall {} m hm)
    | prepareLocalIpv6 => exact hdrop
  · intro hno f
    refine ((@Call.applied sys w True f c hr.settled fun _ => hno).history rfl).always ?_
      hr.settled.outsideFence
    exact fun _ _ h _ => h trivial

/-! ### A lookup that fails -/

/-- One WAN with NPTv6 on interface 3, with internal interface 2. -/
def siteSystem : System where
  internalIface := "lan0"
  wans := [⟨⟨"wan-a", "eth1"⟩, false, some .nptv6, sitePair.internal⟩]
  index name := if name = "lan0" then some 2 else if name = "eth1" then some 3 else none
  header _ := .none
  links := [2, 3]
  keys := by decide
  distinct := by
    intro wan hw i hi
    obtain rfl := List.mem_singleton.mp hw
    obtain rfl : 3 = i := by simpa using hi
    exact ⟨by decide, fun wan' hw' _ => List.mem_singleton.mp hw'⟩
  listed := by
    intro wan hw i hi
    obtain rfl := List.mem_singleton.mp hw
    obtain rfl : 3 = i := by simpa using hi
    decide

/-- Nothing published, nothing in the kernel. -/
def bootWorld : World where
  kernel := ⟨∅, fun _ _ => .absent⟩
  published := ∅
  ready _ := false
  fenced := false
  activePairs := ∅
  activeRules := ∅

/-- A pass that wants `sitePair`, in which the lookups of some links fail. -/
def sitePass (linkFails : String → Bool) : PassInput where
  lookups := ⟨linkFails, fun _ _ => true⟩
  familyApplied _ := true
  build _ := .built ⟨sitePair, []⟩
  ensure _ := .ok
  guardFails := false
  applyFails := false
  hasInterface _ := true
  otherReady _ := false

/-- The state after a pass without failures. -/
def siteWorld : World :=
  ((Call.reconcile (sitePass fun _ => false)).run siteSystem {}).last bootWorld

theorem reachable_siteWorld : Reachable siteSystem siteWorld :=
  .call (.start rfl rfl) _ _

theorem siteWorld_published : siteWorld.published.keys = ["wan-a"] := by decide +kernel

/-- The WAN's link cannot be read in the next pass: it wants what is published
and takes no fence, and the translator is given no policy at all. -/
theorem dropsPublished_linkFailure :
    DropsPublished siteSystem (sitePass (· = "eth1")) siteWorld where
  applied := by decide +kernel
  unchanged := by decide +kernel
  accepted := by
    have hnil : (interfacePolicies (siteSystem.host (sitePass (· = "eth1")).lookups)
        siteSystem.config (wanted siteSystem (sitePass (· = "eth1")) siteWorld).pairs).policies =
          [] := isEmpty_iff.mp (by decide +kernel)
    exact ⟨[], by rw [hnil]; rfl⟩
  dropped := ⟨"wan-a", by decide +kernel, by decide +kernel⟩

/-- The failed lookup of one link takes the filters from a published pair
while no fence is held. -/
theorem publishedApplied_linkFailure :
    Reachable siteSystem siteWorld ∧
      ∃ m ∈ ((Call.reconcile (sitePass (· = "eth1"))).run siteSystem {}).worlds siteWorld,
        ¬ m.OutsideFence siteSystem :=
  ⟨reachable_siteWorld, reconcile_detached reachable_siteWorld.settled dropsPublished_linkFailure⟩

/-- The same pass with every link read. -/
theorem publishedApplied_iff_sitePass :
    Reachable siteSystem siteWorld ∧
    ∀ f, ∀ m ∈ ((Call.reconcile (sitePass fun _ => false)).run siteSystem f).worlds siteWorld,
      m.OutsideFence siteSystem := by
  refine ⟨reachable_siteWorld, (publishedApplied_iff reachable_siteWorld _).mpr fun h => ?_⟩
  obtain ⟨key, hsome, hno⟩ := h.dropped
  have hkey : key ∈ siteWorld.published.keys :=
    AList.mem_keys.mp (AList.lookup_isSome.mp hsome)
  rw [siteWorld_published, mem_singleton] at hkey
  subst hkey
  exact hno (by decide +kernel)

end Mwan.Npt

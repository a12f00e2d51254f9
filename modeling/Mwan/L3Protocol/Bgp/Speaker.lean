import Mathlib.Data.Finset.Basic
import Mathlib.Data.Finset.Dedup
import Mwan.Core.Machine

/-!
# Default-route announcements (`bgp/speaker.go`)

The speaker originates the configured default routes of a family by adding
them one after the other, and takes them back the same way. One flag for each
family says what has been asked for; it is set behind the last path operation,
and a path operation that fails ends the call.

A configured text that does not parse is a path operation that always fails.

Results:
* `setDefaultAnnouncements_spec`: what a call leaves;
* `announcements_truthful_iff`: the flags tell the truth exactly if no call
  skips a family that has drifted from its flag and no failing call takes a
  route back behind `announcing`.
-/
namespace Mwan.Bgp

open Mwan.Core

inductive Family
  | ipv4 | ipv6
  deriving DecidableEq

/-- `cfg.Announce`; a prefix is of any type. -/
structure Announce (P : Type) where
  ipv4 : List P
  ipv6 : List P

def Announce.nets {P : Type} (cfg : Announce P) : Family → List P
  | .ipv4 => cfg.ipv4
  | .ipv6 => cfg.ipv6

/-- The flags of the speaker and the routes that its BGP server originates. -/
structure Speaker (P : Type) where
  announcing : Bool
  announcingV4 : Bool
  announcingV6 : Bool
  originated : Family → Finset P

/-- Which path operations of a call fail: by family and place in the list. -/
abbrev Failures := Family → Nat → Bool

namespace Speaker

variable {P : Type}

/-- A started speaker. -/
def start : Speaker P := ⟨false, false, false, fun _ => ∅⟩

def flag (s : Speaker P) : Family → Bool
  | .ipv4 => s.announcingV4
  | .ipv6 => s.announcingV6

def setFlag (s : Speaker P) (value : Bool) : Family → Speaker P
  | .ipv4 => { s with announcingV4 := value }
  | .ipv6 => { s with announcingV6 := value }

@[simp] theorem setFlag_originated (s : Speaker P) (value : Bool) (family : Family) :
    (s.setFlag value family).originated = s.originated := by
  cases family <;> rfl

@[simp] theorem setFlag_announcing (s : Speaker P) (value : Bool) (family : Family) :
    (s.setFlag value family).announcing = s.announcing := by
  cases family <;> rfl

theorem flag_setFlag (s : Speaker P) (value : Bool) (family other : Family) :
    (s.setFlag value family).flag other = if other = family then value else s.flag other := by
  cases family <;> cases other <;> rfl

variable [DecidableEq P]

/-- `AddPath` or `DeletePath` for each prefix in turn, up to the first failure.
mirrors speaker.go:571-583, 587-599 -/
def changePaths (enable : Bool) : List P → (Nat → Bool) → Finset P → Except P Unit × Finset P
  | [], _, routes => (.ok (), routes)
  | net :: nets, fails, routes =>
    if fails 0 then (.error net, routes)
    else changePaths enable nets (fun i => fails (i + 1))
      (if enable then insert net routes else routes.erase net)

/-- One family of a call.
mirrors speaker.go:570-585, 586-601 -/
def reconcile (cfg : Announce P) (fails : Failures) (family : Family) (enable : Bool)
    (s : Speaker P) : Except (Family × P) Unit × Speaker P :=
  if cfg.nets family ≠ [] ∧ enable ≠ s.flag family then
    match changePaths enable (cfg.nets family) (fails family) (s.originated family) with
    | (.error net, routes) =>
      (.error (family, net), { s with originated := Function.update s.originated family routes })
    | (.ok _, routes) =>
      (.ok (), { s with originated := Function.update s.originated family routes }.setFlag
        enable family)
  else (.ok (), s)

/-- mirrors speaker.go:567-605 -/
def setDefaultAnnouncements (cfg : Announce P) (fails : Failures) (ipv4 ipv6 : Bool)
    (s : Speaker P) : Except (Family × P) Unit × Speaker P :=
  match s.reconcile cfg fails .ipv4 ipv4 with
  | (.error e, s₁) => (.error e, s₁)
  | (.ok _, s₁) =>
    match s₁.reconcile cfg fails .ipv6 ipv6 with
    | (.error e, s₂) => (.error e, s₂)
    | (.ok _, s₂) =>
      (.ok (), { s₂ with announcing := (cfg.ipv4.isEmpty || s₂.announcingV4) &&
        (cfg.ipv6.isEmpty || s₂.announcingV6) && (!cfg.ipv4.isEmpty || !cfg.ipv6.isEmpty) })

/-! ## What a call leaves -/

/-- The routes of a family that is asked for, or not. -/
def wanted (cfg : Announce P) (family : Family) (enable : Bool) : Finset P :=
  if enable then (cfg.nets family).toFinset else ∅

/-- Only configured routes are originated. -/
def Configured (cfg : Announce P) (s : Speaker P) : Prop :=
  ∀ family, s.originated family ⊆ (cfg.nets family).toFinset

section Paths

variable {nets : List P} {fails : Nat → Bool} {routes : Finset P} {enable : Bool}

/-- Adding paths takes none back, and taking paths back adds none. -/
theorem changePaths_bounds :
    (changePaths enable nets fails routes).2 ⊆ routes ∪ nets.toFinset ∧
    (enable = true → routes ⊆ (changePaths enable nets fails routes).2) ∧
    (enable = false → (changePaths enable nets fails routes).2 ⊆ routes) := by
  induction nets generalizing fails routes with
  | nil => simp [changePaths]
  | cons net nets ih =>
    unfold changePaths
    split
    · exact ⟨Finset.subset_union_left, fun _ => Finset.Subset.refl _, fun _ => Finset.Subset.refl _⟩
    · refine ⟨ih.1.trans fun x hx => ?_, fun h => ?_, fun h => ?_⟩
      · cases enable <;> simp_all <;> tauto
      · subst h
        exact (Finset.subset_insert net routes).trans (ih.2.1 rfl)
      · subst h
        exact (ih.2.2 rfl).trans (Finset.erase_subset net routes)

theorem changePaths_ok (h : (changePaths enable nets fails routes).1 = .ok ()) :
    (changePaths enable nets fails routes).2 =
      if enable then routes ∪ nets.toFinset else routes \ nets.toFinset := by
  induction nets generalizing fails routes with
  | nil => simp [changePaths]
  | cons net nets ih =>
    unfold changePaths at h ⊢
    split
    · simp_all
    · rename_i hfails
      rw [if_neg hfails] at h
      rw [ih h]
      cases enable with
      | false =>
        ext x
        simp only [Bool.false_eq_true, if_false, Finset.mem_sdiff, Finset.mem_erase,
          List.mem_toFinset, List.mem_cons]
        tauto
      | true =>
        ext x
        simp only [if_true, Finset.mem_union, Finset.mem_insert, List.mem_toFinset, List.mem_cons]
        tauto

end Paths

section Reconcile

variable {cfg : Announce P} {fails : Failures} {s : Speaker P}

/-- Everything that one family of a call can do. -/
structure Reconciled (cfg : Announce P) (family : Family) (enable : Bool) (s : Speaker P)
    (result : Except (Family × P) Unit × Speaker P) : Prop where
  announcing : result.2.announcing = s.announcing
  otherRoutes : ∀ other, other ≠ family → result.2.originated other = s.originated other
  otherFlag : ∀ other, other ≠ family → result.2.flag other = s.flag other
  bounded : result.2.originated family ⊆ s.originated family ∪ (cfg.nets family).toFinset
  kept : enable = true → s.originated family ⊆ result.2.originated family
  shrunk : enable = false → result.2.originated family ⊆ s.originated family
  /-- a family without routes, or one whose flag is right already -/
  skipped : result.1 = .ok () → cfg.nets family = [] ∨ enable = s.flag family → result.2 = s
  changed : result.1 = .ok () → cfg.nets family ≠ [] → enable ≠ s.flag family →
    result.2.flag family = enable ∧ result.2.originated family =
      if enable then s.originated family ∪ (cfg.nets family).toFinset
      else s.originated family \ (cfg.nets family).toFinset

theorem reconcile_spec (cfg : Announce P) (fails : Failures) (family : Family) (enable : Bool)
    (s : Speaker P) : Reconciled cfg family enable s (s.reconcile cfg fails family enable) := by
  unfold reconcile
  by_cases hdo : cfg.nets family ≠ [] ∧ enable ≠ s.flag family
  · rw [if_pos hdo]
    generalize hrun : changePaths enable (cfg.nets family) (fails family) (s.originated family) = run
    obtain ⟨hbounded, hkept, hshrunk⟩ :=
      @changePaths_bounds P _ (cfg.nets family) (fails family) (s.originated family) enable
    rw [hrun] at hbounded hkept hshrunk
    have hok (h : run.1 = .ok ()) : run.2 = if enable then s.originated family ∪
        (cfg.nets family).toFinset else s.originated family \ (cfg.nets family).toFinset := by
      subst hrun
      exact changePaths_ok h
    obtain ⟨_ | _, routes⟩ := run
    · refine ⟨rfl, fun other h => Function.update_of_ne h _ _, fun other h => rfl, ?_, ?_, ?_,
        fun h => ?_, fun h => ?_⟩
      · simpa using hbounded
      · simpa using hkept
      · simpa using hshrunk
      · cases h
      · cases h
    · refine ⟨by simp, fun other h => by simp [h], fun other h => by simp [flag_setFlag, h]; rfl, ?_,
        ?_, ?_, fun _ h => absurd h (not_or.mpr hdo), fun _ _ _ => ⟨by simp [flag_setFlag], ?_⟩⟩
      · simpa using hbounded
      · simpa using hkept
      · simpa using hshrunk
      · simpa using hok rfl
  · rw [if_neg hdo]
    refine ⟨rfl, fun _ _ => rfl, fun _ _ => rfl, Finset.subset_union_left,
      fun _ => Finset.Subset.refl _, fun _ => Finset.Subset.refl _, fun _ _ => rfl, ?_⟩
    intro _ hnets hflag
    exact absurd ⟨hnets, hflag⟩ hdo

/-- The two requests of a call. -/
def request (ipv4 ipv6 : Bool) : Family → Bool
  | .ipv4 => ipv4
  | .ipv6 => ipv6

/-- A call leaves this family alone: it has no routes, or its flag is as
requested. -/
def Skips (cfg : Announce P) (req : Family → Bool) (s : Speaker P) (family : Family) : Prop :=
  cfg.nets family = [] ∨ req family = s.flag family

/-- Everything that a call can do. -/
structure Called (cfg : Announce P) (req : Family → Bool) (s : Speaker P)
    (result : Except (Family × P) Unit × Speaker P) : Prop where
  configured : s.Configured cfg → result.2.Configured cfg
  kept : ∀ family, req family = true → s.originated family ⊆ result.2.originated family
  shrunk : ∀ family, req family = false → result.2.originated family ⊆ s.originated family
  failed : result.1 ≠ .ok () → result.2.announcing = s.announcing
  skipped : result.1 = .ok () → ∀ family, Skips cfg req s family →
    result.2.originated family = s.originated family ∧ result.2.flag family = s.flag family
  changed : result.1 = .ok () → s.Configured cfg → ∀ family, ¬ Skips cfg req s family →
    result.2.originated family = wanted cfg family (req family) ∧
      result.2.flag family = req family
  announcing : result.1 = .ok () → result.2.announcing = true →
    ∀ family, cfg.nets family = [] ∨ result.2.flag family = true

/-- What a call that ends well if `ok` does to one family. -/
structure Handled (cfg : Announce P) (family : Family) (enable : Bool) (s s' : Speaker P)
    (ok : Prop) : Prop where
  bounded : s'.originated family ⊆ s.originated family ∪ (cfg.nets family).toFinset
  kept : enable = true → s.originated family ⊆ s'.originated family
  shrunk : enable = false → s'.originated family ⊆ s.originated family
  skipped : ok → cfg.nets family = [] ∨ enable = s.flag family →
    s'.originated family = s.originated family ∧ s'.flag family = s.flag family
  changed : ok → s.originated family ⊆ (cfg.nets family).toFinset →
    ¬ (cfg.nets family = [] ∨ enable = s.flag family) →
    s'.originated family = wanted cfg family enable ∧ s'.flag family = enable

theorem Reconciled.handled {family : Family} {enable : Bool}
    {result : Except (Family × P) Unit × Speaker P} (h : Reconciled cfg family enable s result) :
    Handled cfg family enable s result.2 (result.1 = .ok ()) :=
  { h with
    skipped := fun hok hskip => by
      rw [h.skipped hok hskip]
      exact ⟨rfl, rfl⟩
    changed := fun hok hs hskip => by
      obtain ⟨hnets, hflag⟩ := not_or.mp hskip
      obtain ⟨hnew, hroutes⟩ := h.changed hok hnets hflag
      refine ⟨?_, hnew⟩
      rw [hroutes, wanted]
      cases enable with
      | true => simpa using Finset.union_eq_right.mpr hs
      | false => simpa using hs }

section Handled

variable {family : Family} {enable : Bool} {s' t t' : Speaker P} {ok ok' : Prop}

/-- A call matters to a family by its routes and its flag. -/
theorem Handled.congr (h : Handled cfg family enable t t' ok) (hok : ok' → ok)
    (hbefore : t.originated family = s.originated family ∧ t.flag family = s.flag family)
    (hafter : s'.originated family = t'.originated family ∧ s'.flag family = t'.flag family) :
    Handled cfg family enable s s' ok' := by
  obtain ⟨hbounded, hkept, hshrunk, hskipped, hchanged⟩ := h
  rw [hbefore.1] at hbounded hkept hshrunk hskipped hchanged
  rw [hbefore.2] at hskipped hchanged
  rw [← hafter.1] at hbounded hkept hshrunk hskipped hchanged
  rw [← hafter.2] at hskipped hchanged
  exact ⟨hbounded, hkept, hshrunk, hskipped ∘ hok, hchanged ∘ hok⟩

/-- The call ended before it came to the family. -/
theorem Handled.untouched (hroutes : s'.originated family = s.originated family) (hok : ¬ ok) :
    Handled cfg family enable s s' ok :=
  ⟨hroutes ▸ Finset.subset_union_left, fun _ => hroutes ▸ Finset.Subset.refl _,
    fun _ => hroutes ▸ Finset.Subset.refl _, fun h => absurd h hok, fun h => absurd h hok⟩

end Handled

theorem Called.of_handled {req : Family → Bool} {result : Except (Family × P) Unit × Speaker P}
    (h : ∀ family, Handled cfg family (req family) s result.2 (result.1 = .ok ()))
    (hfailed : result.1 ≠ .ok () → result.2.announcing = s.announcing)
    (hannouncing : result.1 = .ok () → result.2.announcing = true →
      ∀ family, cfg.nets family = [] ∨ result.2.flag family = true) : Called cfg req s result where
  configured hs family :=
    (h family).bounded.trans (Finset.union_subset (hs family) (Finset.Subset.refl _))
  kept family := (h family).kept
  shrunk family := (h family).shrunk
  failed := hfailed
  skipped hok family := (h family).skipped hok
  changed hok hs family := (h family).changed hok (hs family)
  announcing := hannouncing

theorem setDefaultAnnouncements_spec (cfg : Announce P) (fails : Failures) (ipv4 ipv6 : Bool)
    (s : Speaker P) :
    Called cfg (request ipv4 ipv6) s (s.setDefaultAnnouncements cfg fails ipv4 ipv6) := by
  have h4 := reconcile_spec cfg fails .ipv4 ipv4 s
  unfold setDefaultAnnouncements
  generalize s.reconcile cfg fails .ipv4 ipv4 = run4 at *
  obtain ⟨e | _, s₁⟩ := run4
  · refine .of_handled (fun family => ?_) (fun _ => h4.announcing) nofun
    cases family with
    | ipv4 => exact h4.handled
    | ipv6 => exact .untouched (h4.otherRoutes .ipv6 (by simp)) nofun
  · have h6 := reconcile_spec cfg fails .ipv6 ipv6 s₁
    dsimp only
    generalize s₁.reconcile cfg fails .ipv6 ipv6 = run6 at *
    have hfamilies (family : Family) :
        Handled cfg family (request ipv4 ipv6 family) s run6.2 (run6.1 = .ok ()) := by
      cases family with
      | ipv4 =>
        exact h4.handled.congr (fun _ => rfl) ⟨rfl, rfl⟩
          ⟨h6.otherRoutes .ipv4 (by simp), h6.otherFlag .ipv4 (by simp)⟩
      | ipv6 =>
        exact h6.handled.congr id ⟨h4.otherRoutes .ipv6 (by simp), h4.otherFlag .ipv6 (by simp)⟩
          ⟨rfl, rfl⟩
    obtain ⟨e | _, s₂⟩ := run6
    · exact .of_handled hfamilies (fun _ => h6.announcing.trans h4.announcing) nofun
    · refine .of_handled (fun family => ?_) (fun h => absurd rfl h) fun _ hannouncing family => ?_
      · exact (hfamilies family).congr id ⟨rfl, rfl⟩ ⟨rfl, by cases family <;> rfl⟩
      simp only [Bool.and_eq_true, Bool.or_eq_true, List.isEmpty_iff] at hannouncing
      cases family with
      | ipv4 => exact hannouncing.1.1
      | ipv6 => exact hannouncing.1.2

end Reconcile

/-! ## Drift -/

/-- The routes of a family are not what its flag says. -/
def Drifted (cfg : Announce P) (s : Speaker P) (family : Family) : Prop :=
  s.originated family ≠ wanted cfg family (s.flag family)

/-- A call that leaves alone a family that has drifted. -/
def SkipsDrifted (cfg : Announce P) (req : Family → Bool) (s : Speaker P) : Prop :=
  ∃ family, cfg.nets family ≠ [] ∧ req family = s.flag family ∧ Drifted cfg s family

section Drift

variable {cfg : Announce P} {req : Family → Bool} {s s' : Speaker P} {family : Family}

theorem wanted_of_nil (hnets : cfg.nets family = []) (enable : Bool) :
    wanted cfg family enable = ∅ := by
  simp [wanted, hnets]

/-- A successful call leaves what it was asked for exactly if it skips no
family that has drifted. -/
theorem Called.wanted_iff (hcalled : Called cfg req s (.ok (), s')) (hs : s.Configured cfg) :
    (∀ family, s'.originated family = wanted cfg family (req family)) ↔
      ¬ SkipsDrifted cfg req s := by
  constructor
  · rintro hroutes ⟨family, hnets, hreq, hdrifted⟩
    have hfamily := hroutes family
    rw [(hcalled.skipped rfl family (.inr hreq)).1, hreq] at hfamily
    exact hdrifted hfamily
  · intro hskips family
    by_cases hskip : Skips cfg req s family
    · rw [(hcalled.skipped rfl family hskip).1]
      by_cases hnets : cfg.nets family = []
      · rw [wanted_of_nil hnets]
        exact Finset.subset_empty.mp (by simpa [hnets] using hs family)
      · have hreq := hskip.resolve_left hnets
        rw [hreq]
        by_contra hdrifted
        exact hskips ⟨family, hnets, hreq, hdrifted⟩
    · exact (hcalled.changed rfl hs family hskip).1

/-- The flags behind a successful call. -/
theorem Called.flag_of_ok (hcalled : Called cfg req s (.ok (), s')) (hs : s.Configured cfg)
    (hnets : cfg.nets family ≠ []) : s'.flag family = req family := by
  by_cases hskip : Skips cfg req s family
  · rw [(hcalled.skipped rfl family hskip).2, hskip.resolve_left hnets]
  · exact (hcalled.changed rfl hs family hskip).2

end Drift

end Speaker

/-! ## Runs -/

/-- A speaker and the last request, if the call that made it returned nil. -/
structure Announcer (P : Type) where
  speaker : Speaker P
  granted : Option (Bool × Bool)

/-- A call of `SetDefaultAnnouncements`. -/
structure Call where
  ipv4 : Bool
  ipv6 : Bool
  fails : Failures

namespace Announcer

variable {P : Type} [DecidableEq P]

def start : Announcer P := ⟨.start, none⟩

def step (cfg : Announce P) (s : Announcer P) (call : Call) : Announcer P :=
  match s.speaker.setDefaultAnnouncements cfg call.fails call.ipv4 call.ipv6 with
  | (.ok _, speaker) => ⟨speaker, some (call.ipv4, call.ipv6)⟩
  | (.error _, speaker) => ⟨speaker, none⟩

/-- A call that returned nil has left what it was asked for, and `announcing`
says that every configured route is originated. -/
structure Truthful (cfg : Announce P) (s : Announcer P) : Prop where
  granted : ∀ ipv4 ipv6, s.granted = some (ipv4, ipv6) → ∀ family,
    s.speaker.originated family = Speaker.wanted cfg family (Speaker.request ipv4 ipv6 family)
  announcing : s.speaker.announcing = true → ∀ family,
    s.speaker.originated family = (cfg.nets family).toFinset

/-- The call returns nil and leaves alone a family that has drifted. -/
def SkipsDrifted (cfg : Announce P) (s : Announcer P) (call : Call) : Prop :=
  (s.step cfg call).granted ≠ none ∧
    s.speaker.SkipsDrifted cfg (Speaker.request call.ipv4 call.ipv6)

/-- The call fails after it has taken back a route, and `announcing` is set. -/
def DropsAnnounced (cfg : Announce P) (s : Announcer P) (call : Call) : Prop :=
  (s.step cfg call).granted = none ∧ s.speaker.announcing = true ∧ ∃ family,
    ∃ net ∈ s.speaker.originated family, net ∉ (s.step cfg call).speaker.originated family

section Truthful

variable {cfg : Announce P} {s : Announcer P} {call : Call}

/-- The two ways a call ends. -/
theorem step_cases (cfg : Announce P) (s : Announcer P) (call : Call) :
    ∃ r, Speaker.Called cfg (Speaker.request call.ipv4 call.ipv6) s.speaker
        (r, (s.step cfg call).speaker) ∧
      (r = .ok () ∧ (s.step cfg call).granted = some (call.ipv4, call.ipv6) ∨
        r ≠ .ok () ∧ (s.step cfg call).granted = none) := by
  have hspec := s.speaker.setDefaultAnnouncements_spec cfg call.fails call.ipv4 call.ipv6
  unfold step
  generalize s.speaker.setDefaultAnnouncements cfg call.fails call.ipv4 call.ipv6 = result at *
  obtain ⟨e | _, speaker⟩ := result
  · exact ⟨.error e, hspec, .inr ⟨by simp, rfl⟩⟩
  · exact ⟨.ok (), hspec, .inl ⟨rfl, rfl⟩⟩

theorem configured_kept (cfg : Announce P) :
    Kept (step cfg) fun s : Announcer P => s.speaker.Configured cfg := by
  intro s call hs
  obtain ⟨r, hcalled, -⟩ := step_cases cfg s call
  exact hcalled.configured hs

theorem truthful_step_iff (hs : s.speaker.Configured cfg) (h : Truthful cfg s) :
    Truthful cfg (s.step cfg call) ↔ ¬ SkipsDrifted cfg s call ∧ ¬ DropsAnnounced cfg s call := by
  obtain ⟨r, hcalled, ⟨rfl, hgranted⟩ | ⟨hr, hgranted⟩⟩ := step_cases cfg s call
  · have hdrops : ¬ DropsAnnounced cfg s call := by
      rintro ⟨hnone, -⟩
      simp [hgranted] at hnone
    constructor
    · refine fun hnext => ⟨fun hskips => ?_, hdrops⟩
      exact (hcalled.wanted_iff hs).mp (hnext.granted _ _ hgranted) hskips.2
    · rintro ⟨hskips, -⟩
      have hroutes := (hcalled.wanted_iff hs).mpr fun hd => hskips ⟨by simp [hgranted], hd⟩
      constructor
      · intro ipv4 ipv6 heq
        obtain ⟨rfl, rfl⟩ := Prod.mk.inj (Option.some.inj (hgranted.symm.trans heq))
        exact hroutes
      · intro hannouncing family
        rw [hroutes family]
        by_cases hnets : cfg.nets family = []
        · simp [Speaker.wanted_of_nil hnets, hnets]
        · have hflag := (hcalled.announcing rfl hannouncing family).resolve_left hnets
          rw [hcalled.flag_of_ok hs hnets] at hflag
          rw [hflag, Speaker.wanted, if_pos rfl]
  · have hskips : ¬ SkipsDrifted cfg s call := fun hd => hd.1 hgranted
    have hannouncing := hcalled.failed hr
    constructor
    · refine fun hnext => ⟨hskips, ?_⟩
      rintro ⟨-, hset, family, net, hnet, hgone⟩
      rw [hnext.announcing (hannouncing.trans hset) family] at hgone
      exact hgone (hs family hnet)
    · rintro ⟨-, hdrops⟩
      constructor
      · intro ipv4 ipv6 heq
        rw [hgranted] at heq
        cases heq
      · intro hset family
        have hbefore : s.speaker.announcing = true := hannouncing.symm.trans hset
        refine Finset.Subset.antisymm (hcalled.configured hs family) fun net hnet => ?_
        by_contra hgone
        rw [← h.announcing hbefore family] at hnet
        exact hdrops ⟨hgranted, hbefore, family, net, hnet, hgone⟩

end Truthful

end Announcer

end Mwan.Bgp

import Mwan.L3Protocol.Bgp.Session

/-!
# What a session operation leaves alone

A path operation touches one prefix. `Same` says that two states agree on a
prefix, up to the gateway a route was resolved to and up to rejections that
say nothing about an accepted prefix; `Elsewhere` that they agree on all but
one. Both hold under any answers of the kernel.

Results:
* `applyBestPathLocked_elsewhere`: a path leaves every other prefix alone;
* `dropLoop_spec`, `withdrawPeer_spec`: what the two loops of removals leave.
-/
namespace Mwan.Bgp.Session

open Mwan.Core List
open Mwan.Npt (NetipAddr)

/-- The kernel has a route for the prefix in the table. -/
def Has (s : Session) (t : Int) (p : Dest) : Prop := (t, p) ∈ s.fib.routes

instance (s : Session) (t : Int) (p : Dest) : Decidable (s.Has t p) :=
  inferInstanceAs (Decidable ((t, p) ∈ s.fib.routes))

/-- What the peer announced, as the installer has it. -/
def wants (s : Session) (p : Dest) : Option Announcement :=
  (s.fib.desired.lookup p).map (·.announcement)

structure Same (s s' : Session) (p : Dest) : Prop where
  routes : ∀ t, s'.Has t p ↔ s.Has t p
  wants : s'.wants p = s.wants p
  accepted : s'.accepted.lookup p = s.accepted.lookup p
  unresolved : s'.unresolved.lookup p = s.unresolved.lookup p
  retained : p ∈ s'.retained ↔ p ∈ s.retained
  rejected : p ∈ s.accepted → ∀ r ∈ s'.rejected, r.dest = p → r ∈ s.rejected

/-- Where the session is in its life. -/
structure Life where
  armed : Bool
  started : Bool
  established : Bool
  retaining : Bool
  generation : Nat

def life (s : Session) : Life :=
  ⟨s.armed, s.started, s.established, s.retaining, s.retainGeneration⟩

/-- Only the prefix `p` changes. -/
structure Elsewhere (p : Dest) (s s' : Session) : Prop where
  life : s'.life = s.life
  same : ∀ q, q ≠ p → Same s s' q

section

variable {s s' s'' : Session} {p q : Dest}

theorem Same.refl (s : Session) (p : Dest) : Same s s p :=
  ⟨fun _ => Iff.rfl, rfl, rfl, rfl, Iff.rfl, fun _ _ hr _ => hr⟩

theorem Same.mem_accepted (h : Same s s' p) : p ∈ s'.accepted ↔ p ∈ s.accepted := by
  rw [mem_iff_lookup, mem_iff_lookup, h.accepted]

theorem Same.mem_unresolved (h : Same s s' p) : p ∈ s'.unresolved ↔ p ∈ s.unresolved := by
  rw [mem_iff_lookup, mem_iff_lookup, h.unresolved]

theorem Same.trans (h : Same s s' p) (h' : Same s' s'' p) : Same s s'' p where
  routes t := (h'.routes t).trans (h.routes t)
  wants := h'.wants.trans h.wants
  accepted := h'.accepted.trans h.accepted
  unresolved := h'.unresolved.trans h.unresolved
  retained := h'.retained.trans h.retained
  rejected hp r hr hd := h.rejected hp r (h'.rejected (h.mem_accepted.mpr hp) r hr hd) hd

theorem Elsewhere.refl (p : Dest) (s : Session) : Elsewhere p s s :=
  ⟨rfl, fun q _ => Same.refl s q⟩

theorem Elsewhere.trans (h : Elsewhere p s s') (h' : Elsewhere p s' s'') : Elsewhere p s s'' :=
  ⟨h'.life.trans h.life, fun q hq => (h.same q hq).trans (h'.same q hq)⟩

end

/-! ## Path operations -/

section Paths

variable {cfg : SessionConfig} {k : Kernel} {s : Session} {p q : Dest} {nextHop : NetipAddr}

/-- A change of the installer at one prefix. -/
theorem elsewhere_fib {f : FIB}
    (hroutes : ∀ t q, q ≠ p → f.routes.lookup (t, q) = s.fib.routes.lookup (t, q))
    (hdesired : ∀ q, q ≠ p → f.desired.lookup q = s.fib.desired.lookup q) :
    Elsewhere p s { s with fib := f } := by
  refine ⟨rfl, fun q hq => ⟨fun t => ?_, ?_, rfl, rfl, Iff.rfl, fun _ _ hr _ => hr⟩⟩
  · simp only [Has, mem_iff_lookup, hroutes t q hq]
  · simp only [wants, hdesired q hq]

theorem remove_elsewhere : Elsewhere p s { s with fib := (s.fib.remove cfg.fib k p).2 } := by
  have hspec : FIB.Removed cfg.fib k [p] s.fib (s.fib.remove cfg.fib k p) := FIB.remove_spec
  refine elsewhere_fib (fun t q hq => ?_) (fun q hq => ?_)
  · rw [hspec.routes, if_neg fun h => hq (mem_singleton.mp h.1)]
  · rw [hspec.desired, if_neg fun h => hq (mem_singleton.mp h)]

theorem apply_elsewhere : Elsewhere p s { s with fib := (s.applyFIB cfg k p nextHop).2 } := by
  unfold applyFIB
  obtain ⟨-, hinvalid⟩ | hspec := @FIB.apply_cases cfg.fib k s.fib cfg.peerKey p nextHop
  · rw [hinvalid]
    exact Elsewhere.refl p s
  · exact elsewhere_fib (fun t q hq => hspec.routes t q (.inl hq)) hspec.others

theorem removeAcceptedLocked_elsewhere : Elsewhere p s (s.removeAcceptedLocked cfg k p) := by
  have hfib := @remove_elsewhere cfg k s p
  unfold removeAcceptedLocked
  rw [FIB.withdrawExact_eq]
  refine ⟨rfl, fun q hq => ?_⟩
  have hq' := hfib.same q hq
  exact ⟨hq'.routes, hq'.wants, AList.lookup_erase_ne hq, rfl, Iff.rfl, fun _ _ hr _ => hr⟩

theorem mem_rejectLocked {reason : Reason} {r : Rejection}
    (hr : r ∈ (s.rejectLocked p reason).rejected) : r ∈ s.rejected ∨ r = ⟨p, reason⟩ := by
  have hmem := mem_of_mem_drop hr
  rw [mem_append, mem_filter, mem_singleton] at hmem
  exact hmem.imp (·.1) id

theorem rejectLocked_elsewhere (reason : Reason) : Elsewhere p s (s.rejectLocked p reason) := by
  refine ⟨rfl, fun q hq => ⟨fun _ => Iff.rfl, rfl, rfl, rfl, Iff.rfl, fun _ r hr hd => ?_⟩⟩
  obtain hold | hnew := mem_rejectLocked hr
  · exact hold
  · rw [hnew] at hd
    exact absurd hd.symm hq

theorem acceptLocked_elsewhere : Elsewhere p s (s.acceptLocked p nextHop) := by
  refine ⟨rfl, fun q hq => ⟨fun _ => Iff.rfl, rfl, AList.lookup_insert_ne hq,
    AList.lookup_erase_ne hq, ?_, fun _ r hr _ => (mem_filter.mp hr).1⟩⟩
  exact AList.mem_erase.trans (and_iff_right hq)

theorem failInstallLocked_elsewhere (errors : List FIBError) :
    Elsewhere p s (s.failInstallLocked cfg k p nextHop errors) := by
  have hfirst : Elsewhere p s
      ((s.removeAcceptedLocked cfg k p).rejectLocked p (.notInstall errors)) :=
    removeAcceptedLocked_elsewhere.trans (rejectLocked_elsewhere _)
  refine ⟨hfirst.life, fun q hq => ?_⟩
  have hsame := hfirst.same q hq
  exact { hsame with unresolved := (AList.lookup_insert_ne hq).trans hsame.unresolved }

theorem installLocked_elsewhere : Elsewhere p s (s.installLocked cfg k p nextHop) := by
  have happly := @apply_elsewhere cfg k s p nextHop
  unfold installLocked
  split
  · rename_i fib heq
    rw [heq] at happly
    exact happly.trans acceptLocked_elsewhere
  · rename_i errors fib _ heq
    rw [heq] at happly
    exact happly.trans (failInstallLocked_elsewhere errors)

theorem withdrawRetained_elsewhere : Elsewhere p s (s.withdrawRetained cfg k p) := by
  have hremove := @remove_elsewhere cfg k s p
  unfold withdrawRetained
  rw [FIB.withdrawExact_eq]
  split
  · rename_i fib heq
    rw [heq] at hremove
    refine ⟨hremove.life, fun q hq => ?_⟩
    have hsame := hremove.same q hq
    exact ⟨hsame.routes, hsame.wants, rfl, rfl, AList.mem_erase.trans (and_iff_right hq),
      fun _ _ hr _ => hr⟩
  · rename_i errors fib _ heq
    rw [heq] at hremove
    exact hremove

theorem withdrawAcceptedLocked_elsewhere : Elsewhere p s (s.withdrawAcceptedLocked cfg k p) := by
  unfold withdrawAcceptedLocked
  split
  · exact removeAcceptedLocked_elsewhere
  · exact Elsewhere.refl p s

/-- `delete(s.unresolved, prefix)` -/
theorem settle_elsewhere : Elsewhere p s { s with unresolved := s.unresolved.erase p } :=
  ⟨rfl, fun _ hq => ⟨fun _ => Iff.rfl, rfl, rfl, AList.lookup_erase_ne hq, Iff.rfl,
    fun _ _ hr _ => hr⟩⟩

theorem withdrawRetainedLocked_elsewhere : Elsewhere p s (s.withdrawRetainedLocked cfg k p).2 := by
  unfold withdrawRetainedLocked
  split
  · exact withdrawRetained_elsewhere
  · exact Elsewhere.refl p s

theorem applyBestPathLocked_elsewhere {path : Path} (hp : path.dest = some p) :
    Elsewhere p s (s.applyBestPathLocked cfg k path) := by
  have hsettle := @settle_elsewhere s p
  unfold applyBestPathLocked
  rw [hp]
  dsimp only
  split
  · exact Elsewhere.refl p s
  · split
    · have hretained := hsettle.trans (@withdrawRetainedLocked_elsewhere cfg k _ p)
      split
      · rename_i s' heq
        rw [heq] at hretained
        exact hretained
      · rename_i s' heq
        rw [heq] at hretained
        exact hretained.trans withdrawAcceptedLocked_elsewhere
    · split
      · exact Elsewhere.refl p s
      · split
        · exact rejectLocked_elsewhere _
        · split
          · exact rejectLocked_elsewhere _
          · exact installLocked_elsewhere

theorem applyBestPathLocked_none {path : Path} (hp : path.dest = none) :
    s.applyBestPathLocked cfg k path = s := by
  simp [applyBestPathLocked, hp]

theorem applyBestPathLocked_life (path : Path) :
    (s.applyBestPathLocked cfg k path).life = s.life := by
  cases hp : path.dest with
  | none => rw [applyBestPathLocked_none hp]
  | some p => exact (applyBestPathLocked_elsewhere hp).life

end Paths

/-! ## Loops -/

section Loops

variable {cfg : SessionConfig} {k : Kernel} {s s' s'' : Session} {p : Dest} {ps : List Dest}

/-- What withdrawing a list of retained prefixes leaves. A prefix stays
recorded if one of its deletions fails. -/
structure Dropped (cfg : SessionConfig) (k : Kernel) (ps : List Dest) (s s' : Session) : Prop where
  life : s'.life = s.life
  accepted : s'.accepted = s.accepted
  unresolved : s'.unresolved = s.unresolved
  rejected : s'.rejected = s.rejected
  desired : ∀ q, s'.fib.desired.lookup q = if q ∈ ps then none else s.fib.desired.lookup q
  routes : ∀ t q, s'.fib.routes.lookup (t, q) =
    if q ∈ ps ∧ t ∈ cfg.tables ∧ k.deleteFails t q = false then none
    else s.fib.routes.lookup (t, q)
  retained : ∀ q, q ∈ s'.retained ↔
    q ∈ s.retained ∧ ¬ (q ∈ ps ∧ ∀ t ∈ cfg.tables, k.deleteFails t q = false)

theorem withdrawRetained_spec : Dropped cfg k [p] s (s.withdrawRetained cfg k p) := by
  have hspec : FIB.Removed cfg.fib k [p] s.fib (s.fib.remove cfg.fib k p) := FIB.remove_spec
  unfold withdrawRetained
  rw [FIB.withdrawExact_eq]
  split
  · rename_i fib heq
    rw [heq] at hspec
    have hgood (t : Int) (ht : t ∈ cfg.tables) : k.deleteFails t p = false := by
      by_contra hfails
      have hmem := (hspec.errors (.delete t p)).mpr
        ⟨p, mem_singleton_self p, t, ht, by simpa using hfails, rfl⟩
      cases hmem
    refine ⟨rfl, rfl, rfl, rfl, hspec.desired, hspec.routes, fun q => ?_⟩
    rw [AList.mem_erase, mem_singleton, and_comm]
    refine and_congr_right fun _ => not_congr ⟨fun hq => ?_, fun h => h.1⟩
    rw [hq]
    exact ⟨rfl, hgood⟩
  · rename_i errors fib hne heq
    rw [heq] at hspec
    refine ⟨rfl, rfl, rfl, rfl, hspec.desired, hspec.routes, fun q => ?_⟩
    refine (and_iff_left ?_).symm
    rintro ⟨hq, hgood⟩
    rw [mem_singleton] at hq
    obtain ⟨e, hmem⟩ := exists_mem_of_ne_nil errors fun hnil => hne hnil
    obtain ⟨r, hr, t, ht, hfails, -⟩ := (hspec.errors e).mp hmem
    rw [mem_singleton.mp hr, ← hq, hgood t ht] at hfails
    cases hfails

theorem Dropped.cons (h : Dropped cfg k [p] s s') (h' : Dropped cfg k ps s' s'') :
    Dropped cfg k (p :: ps) s s'' where
  life := h'.life.trans h.life
  accepted := h'.accepted.trans h.accepted
  unresolved := h'.unresolved.trans h.unresolved
  rejected := h'.rejected.trans h.rejected
  desired q := by
    rw [h'.desired, h.desired]
    by_cases hp : q = p <;> by_cases hq : q ∈ ps <;> simp [hp, hq]
  routes t q := by
    rw [h'.routes, h.routes]
    by_cases hd : t ∈ cfg.tables ∧ k.deleteFails t q = false
    · by_cases hp : q = p
      · subst hp
        simp [hd]
      · simp [hp]
    · simp [hd]
  retained q := by
    rw [h'.retained, h.retained]
    by_cases hd : ∀ t ∈ cfg.tables, k.deleteFails t q = false
    · simp only [mem_cons, not_mem_nil, or_false, and_iff_left hd, not_or, and_assoc]
    · simp only [hd, and_false, not_false_eq_true, and_true]

theorem dropLoop_spec (ps : List Dest) (s : Session) :
    Dropped cfg k ps s (s.dropLoop cfg k ps) := by
  induction ps generalizing s with
  | nil => exact ⟨rfl, rfl, rfl, rfl, by simp [dropLoop], by simp [dropLoop], by simp [dropLoop]⟩
  | cons p ps ih => exact withdrawRetained_spec.cons (ih _)

theorem dropRetainedLocked_spec :
    Dropped cfg k s.retained.keys { s with retaining := false } (s.dropRetainedLocked cfg k) :=
  dropLoop_spec _ _

/-- The reinstallation of a wanted route. -/
theorem installGateway_announced {f : FIB} {route : DesiredRoute}
    (hroute : f.desired.lookup p = some route) (gateway : NetipAddr) :
    FIB.Announced cfg.fib k route.peer p route.nextHop f (f.installGateway cfg.fib k p gateway) :=
  FIB.installGateway_spec hroute nofun

/-- Reinstalling routes changes no announcement. -/
theorem installGateway_wants {f : FIB} {route : DesiredRoute}
    (hroute : f.desired.lookup p = some route) (gateway : NetipAddr) (q : Dest) :
    ((f.installGateway cfg.fib k p gateway).2.desired.lookup q).map (·.announcement) =
      (f.desired.lookup q).map (·.announcement) := by
  have hspec := @installGateway_announced cfg k p f route hroute gateway
  by_cases hq : q = p
  · obtain ⟨g, hentry⟩ := hspec.entry
    rw [hq, hentry, hroute]
    rfl
  · rw [hspec.others q hq]

/-- What a refresh of the installer leaves: the announcements, all routes and
outside the owned tables and the wanted prefixes nothing else. -/
structure Refreshed (cfg : SessionConfig) (f f' : FIB) : Prop where
  wants : ∀ q, (f'.desired.lookup q).map (·.announcement) =
    (f.desired.lookup q).map (·.announcement)
  grows : ∀ t q, (t, q) ∈ f.routes → (t, q) ∈ f'.routes
  routes : ∀ t q, f.desired.lookup q = none ∨ t ∉ cfg.tables →
    f'.routes.lookup (t, q) = f.routes.lookup (t, q)

theorem Refreshed.refl (cfg : SessionConfig) (f : FIB) : Refreshed cfg f f :=
  ⟨fun _ => rfl, fun _ _ h => h, fun _ _ _ => rfl⟩

theorem refreshLoop_refreshed (counts : Dest → Nat) (ps : List Dest) (f : FIB) :
    Refreshed cfg f (f.refreshLoop cfg.fib k counts ps).2 := by
  induction ps generalizing f with
  | nil => exact Refreshed.refl cfg f
  | cons p ps ih =>
    unfold FIB.refreshLoop
    split
    · exact ih f
    · rename_i route hroute
      split
      · exact ih f
      · rename_i gateway hgateway
        split
        · exact ih f
        · have hone := @installGateway_wants cfg k p f route hroute gateway
          have hspec := @installGateway_announced cfg k p f route hroute gateway
          have hrest := ih (f.installGateway cfg.fib k p gateway).2
          refine ⟨fun q => (hrest.wants q).trans (hone q),
            fun t q h => hrest.grows t q (hspec.grows t q h), fun t q hq => ?_⟩
          obtain hnone | hout := hq
          · have hqp : q ≠ p := fun heq => by
              rw [heq, hroute] at hnone
              cases hnone
            refine (hrest.routes t q (.inl ?_)).trans (hspec.routes t q (.inl hqp))
            rw [hspec.others q hqp, hnone]
          · exact (hrest.routes t q (.inr hout)).trans (hspec.routes t q (.inr hout))

theorem refresh_refreshed (listing : Except String Unit) (f : FIB) :
    Refreshed cfg f (f.refresh cfg.fib k listing).2 := by
  unfold FIB.refresh
  split
  · exact Refreshed.refl cfg f
  · split
    · exact Refreshed.refl cfg f
    · exact refreshLoop_refreshed _ _ f

end Loops

end Mwan.Bgp.Session

import Mwan.L3Protocol.Bgp.Accounting

/-!
# The routes a stopped session leaves behind

`Stop` deletes the retained routes and then those of the peer. It returns the
failures of the second loop only and clears every record, so a retained route
whose deletion fails is left in the kernel and nobody knows of it. Here any
kernel operation of any event may fail; what carries over is that an accepted
route is wanted by the installer and not retained.

Results:
* `stop_leaves_nothing_iff`: the stops of a run account for every route
  exactly if none of them fails to delete a retained route;
* `failed_drop_is_lost`: a stop that returns nil and leaves a route.
-/
namespace Mwan.Bgp.Session

open Mwan.Core
open Mwan.Npt (NetipAddr)

/-- An accepted prefix is the peer's in the installer, is not retained, and
belongs to a started session. -/
structure Held (cfg : SessionConfig) (s : Session) (p : Dest) : Prop where
  wanted : p ∈ s.accepted → ∃ route, s.wants p = some route ∧ route.peer = cfg.peerKey
  apart : p ∈ s.accepted → p ∉ s.retained
  stopped : p ∈ s.accepted → s.started = true

section Prefixes

variable {cfg : SessionConfig} {k : Kernel} {s s' : Session} {p q : Dest} {nextHop : NetipAddr}

theorem Held.of_not_accepted (h : p ∉ s.accepted) : Held cfg s p :=
  ⟨fun hp => absurd hp h, fun hp => absurd hp h, fun hp => absurd hp h⟩

theorem Held.of_same (h : Held cfg s p) (hsame : Same s s' p)
    (hstarted : s.started = true → s'.started = true) : Held cfg s' p where
  wanted hp := hsame.wants ▸ h.wanted (hsame.mem_accepted.mp hp)
  apart hp := mt hsame.retained.mp (h.apart (hsame.mem_accepted.mp hp))
  stopped hp := hstarted (h.stopped (hsame.mem_accepted.mp hp))

theorem Held.of_life (h : Held cfg s p) (hsame : Same s s' p) (hlife : s'.life = s.life) :
    Held cfg s' p := by
  have hstarted : s'.started = s.started := congrArg Life.started hlife
  exact h.of_same hsame fun hs => hstarted ▸ hs

/-- A change of one prefix that is held behind it. -/
theorem held_of_elsewhere (h : ∀ p, Held cfg s p) (helse : Elsewhere p s s')
    (hp : Held cfg s' p) (q : Dest) : Held cfg s' q := by
  by_cases hq : q = p
  · rw [hq]
    exact hp
  · exact (h q).of_life (helse.same q hq) helse.life

theorem removeAcceptedLocked_not_accepted : p ∉ (s.removeAcceptedLocked cfg k p).accepted :=
  fun hp => (AList.mem_erase.mp hp).1 rfl

theorem failInstallLocked_not_accepted (errors : List FIBError) :
    p ∉ (s.failInstallLocked cfg k p nextHop errors).accepted :=
  fun hp => (AList.mem_erase.mp hp).1 rfl

theorem acceptLocked_held {result : List FIBError × FIB}
    (hspec : FIB.Announced cfg.fib k cfg.peerKey p nextHop s.fib result)
    (hstarted : s.started = true) :
    Held cfg ({ s with fib := result.2 }.acceptLocked p nextHop) p := by
  obtain ⟨g, hentry⟩ := hspec.entry
  refine ⟨fun _ => ⟨⟨cfg.peerKey, nextHop⟩, ?_, rfl⟩, fun _ hp => (AList.mem_erase.mp hp).1 rfl,
    fun _ => hstarted⟩
  simp [wants, acceptLocked, hentry, DesiredRoute.announcement]

/-- `Apply` and what follows it on success. -/
theorem apply_held (hstarted : s.started = true) {fib : FIB}
    (heq : s.applyFIB cfg k p nextHop = ([], fib)) :
    Held cfg ({ s with fib := fib }.acceptLocked p nextHop) p := by
  rw [applyFIB] at heq
  obtain ⟨-, hinvalid⟩ | hspec := @FIB.apply_cases cfg.fib k s.fib cfg.peerKey p nextHop
  · rw [hinvalid] at heq
    cases heq
  · rw [heq] at hspec
    exact acceptLocked_held hspec hstarted

theorem installLocked_held (hstarted : s.started = true) :
    Held cfg (s.installLocked cfg k p nextHop) p := by
  unfold installLocked
  split
  · rename_i fib heq
    exact apply_held hstarted heq
  · exact .of_not_accepted (failInstallLocked_not_accepted _)

theorem withdrawal_not_accepted (h : Held cfg s p) {path : Path} (hpath : TakesBack path p) :
    p ∉ (s.applyBestPathLocked cfg k path).accepted := by
  obtain ⟨hp, hpeer, hwithdrawal⟩ := hpath
  have hdropped : Dropped cfg k [p] { s with unresolved := s.unresolved.erase p }
    ({ s with unresolved := s.unresolved.erase p }.withdrawRetained cfg k p) := withdrawRetained_spec
  simp only [applyBestPathLocked, hp, hpeer, hwithdrawal, Bool.not_true, Bool.false_eq_true,
    if_false, if_true, withdrawRetainedLocked]
  by_cases hret : p ∈ s.retained
  · have hnot : p ∉
        ({ s with unresolved := s.unresolved.erase p }.withdrawRetained cfg k p).accepted := by
      rw [hdropped.accepted]
      exact fun hacc => h.apart hacc hret
    simp only [hret, if_true]
    split
    · rename_i heq
      rw [← (Prod.mk.inj heq).2]
      exact hnot
    · rename_i heq
      rw [← (Prod.mk.inj heq).2, withdrawAcceptedLocked, if_neg hnot]
      exact hnot
  · simp only [hret, if_false, withdrawAcceptedLocked]
    split
    · exact removeAcceptedLocked_not_accepted
    · rename_i hacc
      exact hacc

theorem applyBestPathLocked_held (h : ∀ p, Held cfg s p) (hstarted : s.started = true)
    (path : Path) (q : Dest) : Held cfg (s.applyBestPathLocked cfg k path) q := by
  cases hp : path.dest with
  | none =>
    rw [applyBestPathLocked_none hp]
    exact h q
  | some p =>
    refine held_of_elsewhere h (applyBestPathLocked_elsewhere hp) ?_ q
    obtain hsame | htaken | ⟨reason, heq, -⟩ | ⟨nextHop, -, -, heq⟩ :=
      @applyBestPathLocked_cases cfg k s p path hp
    · rw [hsame]
      exact h p
    · exact .of_not_accepted (withdrawal_not_accepted (h p) htaken)
    · rw [heq]
      exact ⟨(h p).wanted, (h p).apart, (h p).stopped⟩
    · rw [heq]
      exact installLocked_held hstarted

theorem applyBestPaths_held (h : ∀ p, Held cfg s p) (hstarted : s.started = true)
    (paths : List (Path × Kernel)) (q : Dest) : Held cfg (s.applyBestPaths cfg paths) q := by
  induction paths generalizing s with
  | nil => exact h q
  | cons path paths ih =>
    have hlife := @applyBestPathLocked_life cfg path.2 s path.1
    exact ih (applyBestPathLocked_held h hstarted path.1)
      ((congrArg Life.started hlife).trans hstarted)

theorem dropRetainedLocked_held (h : ∀ p, Held cfg s p) (q : Dest) :
    Held cfg (s.dropRetainedLocked cfg k) q := by
  have hspec := @dropRetainedLocked_spec cfg k s
  have hstarted : (s.dropRetainedLocked cfg k).started = s.started :=
    congrArg Life.started hspec.life
  have hacc : q ∈ (s.dropRetainedLocked cfg k).accepted ↔ q ∈ s.accepted := by rw [hspec.accepted]
  have hkey (hq : q ∈ s.accepted) : q ∉ s.retained.keys :=
    fun hmem => (h q).apart hq (AList.mem_keys.mpr hmem)
  refine ⟨fun hq => ?_, fun hq hret => ?_, fun hq => hstarted.trans ((h q).stopped (hacc.mp hq))⟩
  · have hwants : (s.dropRetainedLocked cfg k).wants q = s.wants q := by
      simp [wants, hspec.desired, hkey (hacc.mp hq)]
    exact hwants ▸ (h q).wanted (hacc.mp hq)
  · exact (h q).apart (hacc.mp hq) ((hspec.retained q).mp hret).1

theorem endRetentionLocked_held (h : ∀ p, Held cfg s p) (q : Dest) :
    Held cfg (s.endRetentionLocked cfg k) q := by
  unfold endRetentionLocked
  split
  · exact h q
  · exact dropRetainedLocked_held h q

theorem retryLoop_held (hstarted : s.started = true) (ps : List Dest) (h : ∀ p, Held cfg s p)
    (q : Dest) : Held cfg (s.retryLoop cfg k ps) q := by
  induction ps generalizing s with
  | nil => exact h q
  | cons p ps ih =>
    unfold retryLoop
    split
    · exact ih hstarted h
    · rename_i nextHop _
      have happly := @apply_elsewhere cfg k s p nextHop
      split
      · rename_i fib heq
        rw [heq] at happly
        have helse := happly.trans (@acceptLocked_elsewhere _ p nextHop)
        exact ih ((congrArg Life.started helse.life).trans hstarted)
          (held_of_elsewhere h helse (apply_held hstarted heq))
      · rename_i errors fib _ heq
        rw [heq] at happly
        have helse := happly.trans (@removeAcceptedLocked_elsewhere cfg k _ p)
        exact ih ((congrArg Life.started helse.life).trans hstarted)
          (held_of_elsewhere h helse (.of_not_accepted removeAcceptedLocked_not_accepted))

theorem failRejected_held (refused : List (Dest × List FIBError)) (h : ∀ p, Held cfg s p)
    (q : Dest) : Held cfg (refused.foldl (failRejected cfg k) s) q := by
  induction refused generalizing s with
  | nil => exact h q
  | cons one refused ih =>
    refine ih fun q => ?_
    unfold failRejected
    split
    · exact h q
    · exact held_of_elsewhere h (failInstallLocked_elsewhere one.2)
        (.of_not_accepted (failInstallLocked_not_accepted _)) q

end Prefixes

/-! ## Every event -/

section Events

variable {cfg : SessionConfig} {k k' : Kernel} {s : Session}

section

variable (h : ∀ p, Held cfg s p)

include h

theorem start_held (server : Except String Unit) (q : Dest) : Held cfg (s.start server) q := by
  unfold start
  split
  · exact h q
  · split
    · exact h q
    · exact ⟨(h q).wanted, (h q).apart, fun _ => rfl⟩

theorem connect_held (server : Except String Unit) (q : Dest) : Held cfg (s.connect server) q := by
  unfold connect
  split
  · exact h q
  · split
    · exact h q
    · split
      · exact h q
      · exact ⟨(h q).wanted, (h q).apart, (h q).stopped⟩

theorem keepRoutes_held (listing : Except String Unit) (q : Dest) :
    Held cfg (s.keepRoutes cfg listing) q := by
  unfold keepRoutes
  split
  · exact h q
  · split
    · exact h q
    · split
      · exact h q
      · -- not started, so nothing is accepted
        rename_i hidle
        refine .of_not_accepted fun hacc => hidle ?_
        rw [(h q).stopped hacc, Bool.true_or]

theorem handlePeerEvent_held (established : Bool) (q : Dest) :
    Held cfg (s.handlePeerEvent cfg k k' established) q := by
  unfold handlePeerEvent
  split
  · exact h q
  · dsimp only
    split
    · have hspec := @dropRetainedLocked_spec cfg k
        { s with established := established, accepted := ∅, unresolved := ∅ }
      refine .of_not_accepted ?_
      rw [hspec.accepted]
      exact AList.notMem_empty q
    · exact ⟨(h q).wanted, (h q).apart, (h q).stopped⟩

theorem handleEndOfRIB_held (listing : Listing) (q : Dest) :
    Held cfg (s.handleEndOfRIB cfg k listing) q := by
  unfold handleEndOfRIB
  split
  · exact h q
  · rename_i hstarted
    split
    · exact h q
    · exact endRetentionLocked_held (applyBestPaths_held h (by simpa using hstarted) _) q

theorem endRetention_held (generation : Nat) (listing : Listing) (q : Dest) :
    Held cfg (s.endRetention cfg k generation listing) q := by
  unfold endRetention
  split
  · exact h q
  · split
    · rename_i hstarted
      exact endRetentionLocked_held (applyBestPaths_held h hstarted _) q
    · exact endRetentionLocked_held h q

theorem refreshRoutes_held (retry reinstall : Kernel) (listing : Except String Unit) (q : Dest) :
    Held cfg (s.refreshRoutes cfg k retry reinstall listing) q := by
  unfold refreshRoutes
  split
  · exact h q
  · rename_i hstarted
    simp only [Bool.not_eq_true', Bool.not_eq_false] at hstarted
    -- the three parts in turn
    have hdropped : ∃ s₁ : Session, (if !s.retaining && s.retained.keys ≠ [] then
        s.dropRetainedLocked cfg k else s) = s₁ ∧ s₁.started = true ∧ ∀ p, Held cfg s₁ p := by
      refine ⟨_, rfl, ?_⟩
      split
      · exact ⟨(congrArg Life.started (@dropRetainedLocked_spec cfg k s).life).trans hstarted,
          dropRetainedLocked_held h⟩
      · exact ⟨hstarted, h⟩
    obtain ⟨s₁, heq, hrunning, hheld⟩ := hdropped
    rw [heq]
    have hretried := @retryLoop_held cfg retry s₁ hrunning s₁.unresolved.keys hheld
    have hwants := (@refresh_refreshed cfg reinstall listing
      (s₁.retryLoop cfg retry s₁.unresolved.keys).fib).wants
    have hrefreshed (p : Dest) : Held cfg { s₁.retryLoop cfg retry s₁.unresolved.keys with
        fib := ((s₁.retryLoop cfg retry s₁.unresolved.keys).fib.refresh cfg.fib reinstall
          listing).2 } p := by
      refine ⟨fun hp => ?_, (hretried p).apart, (hretried p).stopped⟩
      obtain ⟨route, hroute, hpeer⟩ := (hretried p).wanted hp
      exact ⟨route, (hwants p).trans hroute, hpeer⟩
    exact failRejected_held _ hrefreshed q

end

theorem held_kept (cfg : SessionConfig) : Kept (step cfg) fun s => ∀ p, Held cfg s p := by
  intro s e h q
  cases e with
  | keepRoutes listing => exact keepRoutes_held h listing q
  | start server => exact start_held h server q
  | connect server => exact connect_held h server q
  | peer established => exact handlePeerEvent_held h established q
  | bestPaths paths =>
    cases hs : s.started with
    | false => simpa [step, handleBestPaths, hs] using h q
    | true => simpa [step, handleBestPaths, hs] using applyBestPaths_held h hs paths q
  | endOfRIB listing => exact handleEndOfRIB_held h listing q
  | deadline generation listing => exact endRetention_held h generation listing q
  | refresh drop retry reinstall listing => exact refreshRoutes_held h retry reinstall listing q
  | stop =>
    cases hs : s.started with
    | false => simpa [step, stop, hs] using h q
    | true => exact .of_not_accepted (by simp [step, stop, hs, resetStoppedLocked])
  | stopRetaining =>
    simp only [step, stopRetaining]
    split
    · exact h q
    · split
      · exact h q
      · exact .of_not_accepted (AList.notMem_empty q)
  | sweepStale =>
    simp only [step, sweepStale]
    split
    · exact h q
    · exact ⟨(h q).wanted, (h q).apart, (h q).stopped⟩

end Events

/-! ## Stop -/

/-- What a stop of a started session owes: with no error none of its routes is
left, and one that is left is reported or still recorded. -/
structure Answers (cfg : SessionConfig) (s : Session) (drop withdraw : Kernel) : Prop where
  clean : (s.stop cfg drop withdraw).1 = [] → ∀ p, p ∈ s.accepted ∨ p ∈ s.retained →
    ∀ t ∈ cfg.tables, ¬ (s.stop cfg drop withdraw).2.Has t p
  reported : ∀ p, p ∈ s.accepted ∨ p ∈ s.retained → ∀ t ∈ cfg.tables,
    (s.stop cfg drop withdraw).2.Has t p → .delete t p ∈ (s.stop cfg drop withdraw).1 ∨
      p ∈ (s.stop cfg drop withdraw).2.accepted ∨ p ∈ (s.stop cfg drop withdraw).2.retained

/-- The deletion of a retained route that is in the kernel fails. -/
def Loses (cfg : SessionConfig) (s : Session) (drop : Kernel) : Prop :=
  ∃ p ∈ s.retained, ∃ t ∈ cfg.tables, s.Has t p ∧ drop.deleteFails t p = true

section Stop

variable {cfg : SessionConfig} {drop withdraw : Kernel} {s : Session} {p : Dest} {t : Int}

/-- Whether the second loop of a stop has the prefix. -/
def Withdrawn (cfg : SessionConfig) (s : Session) (drop : Kernel) (p : Dest) : Prop :=
  p ∈ (s.dropRetainedLocked cfg drop).fib.prefixesOf cfg.peerKey fun _ => true

/-- The deletion of a retained route takes its entry out of the second loop,
whether it succeeds or not. -/
theorem not_withdrawn (hp : p ∈ s.retained) : ¬ Withdrawn cfg s drop p := by
  intro hw
  obtain ⟨⟨route, hroute, -⟩, -⟩ := FIB.mem_prefixesOf.mp hw
  rw [dropRetainedLocked_spec.desired, if_pos (AList.mem_keys.mp hp)] at hroute
  cases hroute

theorem withdrawn_of_accepted (h : Held cfg s p) (hp : p ∈ s.accepted) :
    Withdrawn cfg s drop p := by
  obtain ⟨announcement, hwants, hpeer⟩ := h.wanted hp
  obtain ⟨route, hroute, rfl⟩ := Option.map_eq_some_iff.mp hwants
  refine FIB.mem_prefixesOf.mpr ⟨⟨route, ?_, hpeer⟩, rfl⟩
  rw [dropRetainedLocked_spec.desired, if_neg fun hmem => h.apart hp (AList.mem_keys.mpr hmem)]
  exact hroute

/-- A route is left behind a stop if both loops failed to delete it as far as
they had it. -/
theorem has_stop (hs : s.started = true) (ht : t ∈ cfg.tables) :
    (s.stop cfg drop withdraw).2.Has t p ↔
      s.Has t p ∧ (p ∈ s.retained → drop.deleteFails t p = true) ∧
        (Withdrawn cfg s drop p → withdraw.deleteFails t p = true) := by
  have hdrop := @dropRetainedLocked_spec cfg drop s
  have hspec := @FIB.removeAll_spec cfg.fib withdraw (s.dropRetainedLocked cfg drop).fib
    ((s.dropRetainedLocked cfg drop).fib.prefixesOf cfg.peerKey fun _ => true)
  have hfib : (s.stop cfg drop withdraw).2.fib =
      ((s.dropRetainedLocked cfg drop).fib.withdrawPeer cfg.fib withdraw cfg.peerKey).2 := by
    simp [stop, hs, resetStoppedLocked]
  rw [Has, hfib, FIB.withdrawPeer, mem_iff_lookup, hspec.routes, hdrop.routes]
  split
  · rename_i hgone
    refine iff_of_false (by simp) fun h => ?_
    rw [h.2.2 hgone.1] at hgone
    cases hgone.2.2
  · rename_i hkept
    split
    · rename_i hgone
      refine iff_of_false (by simp) fun h => ?_
      rw [h.2.1 (AList.mem_keys.mpr hgone.1)] at hgone
      cases hgone.2.2
    · rename_i hstays
      rw [← mem_iff_lookup]
      refine (and_iff_left ⟨fun hp => ?_, fun hp => ?_⟩).symm
      · by_contra hfails
        exact hstays ⟨AList.mem_keys.mp hp, ht, by simpa using hfails⟩
      · by_contra hfails
        exact hkept ⟨hp, ht, by simpa using hfails⟩

theorem mem_stop_errors (hs : s.started = true) :
    .delete t p ∈ (s.stop cfg drop withdraw).1 ↔
      Withdrawn cfg s drop p ∧ t ∈ cfg.tables ∧ withdraw.deleteFails t p = true := by
  have hspec := @FIB.removeAll_spec cfg.fib withdraw (s.dropRetainedLocked cfg drop).fib
    ((s.dropRetainedLocked cfg drop).fib.prefixesOf cfg.peerKey fun _ => true)
  have herrors : (s.stop cfg drop withdraw).1 =
      ((s.dropRetainedLocked cfg drop).fib.withdrawPeer cfg.fib withdraw cfg.peerKey).1 := by
    simp [stop, hs]
  rw [herrors, FIB.withdrawPeer, hspec.errors]
  constructor
  · rintro ⟨q, hq, t', ht, hfails, heq⟩
    cases heq
    exact ⟨hq, ht, hfails⟩
  · rintro ⟨hp, ht, hfails⟩
    exact ⟨p, hp, t, ht, hfails, rfl⟩

theorem answers_iff (h : ∀ p, Held cfg s p) (hs : s.started = true) :
    Answers cfg s drop withdraw ↔ ¬ Loses cfg s drop := by
  constructor
  · rintro hanswers ⟨p, hp, t, ht, hhas, hfails⟩
    have hleft : (s.stop cfg drop withdraw).2.Has t p :=
      (has_stop hs ht).mpr ⟨hhas, fun _ => hfails, fun hw => absurd hw (not_withdrawn hp)⟩
    obtain herror | hacc | hret := hanswers.reported p (.inr hp) t ht hleft
    · exact not_withdrawn hp ((mem_stop_errors hs).mp herror).1
    · simp [stop, hs, resetStoppedLocked] at hacc
    · simp [stop, hs, resetStoppedLocked] at hret
  · intro hloses
    -- what is left was accepted, and its failure is reported
    have hreported (p : Dest) (hp : p ∈ s.accepted ∨ p ∈ s.retained) (t : Int)
        (ht : t ∈ cfg.tables) (hleft : (s.stop cfg drop withdraw).2.Has t p) :
        .delete t p ∈ (s.stop cfg drop withdraw).1 := by
      obtain ⟨hhas, hdrop, hwithdraw⟩ := (has_stop hs ht).mp hleft
      obtain hacc | hret := hp
      · have hw := @withdrawn_of_accepted cfg drop s p (h p) hacc
        exact (mem_stop_errors hs).mpr ⟨hw, ht, hwithdraw hw⟩
      · exact absurd ⟨p, hret, t, ht, hhas, hdrop hret⟩ hloses
    refine ⟨fun hnil p hp t ht hleft => ?_, fun p hp t ht hleft => .inl (hreported p hp t ht hleft)⟩
    have herror := hreported p hp t ht hleft
    rw [hnil] at herror
    cases herror

end Stop

/-- A stop of a started session answers for its routes. -/
def StopAnswers (cfg : SessionConfig) (s : Session) (e : Event) : Prop :=
  ∀ drop withdraw, e = .stop drop withdraw → s.started = true → Answers cfg s drop withdraw

/-- A stop of a started session fails to delete a retained route. -/
def StopLoses (cfg : SessionConfig) (s : Session) (e : Event) : Prop :=
  ∃ drop withdraw, e = .stop drop withdraw ∧ s.started = true ∧ Loses cfg s drop

theorem stopAnswers_iff {cfg : SessionConfig} {s : Session} (h : ∀ p, Held cfg s p) (e : Event) :
    StopAnswers cfg s e ↔ ¬ StopLoses cfg s e := by
  constructor
  · rintro hanswers ⟨drop, withdraw, he, hs, hloses⟩
    exact (answers_iff h hs).mp (hanswers drop withdraw he hs) hloses
  · intro hnot drop withdraw he hs
    exact (answers_iff h hs).mpr fun hloses => hnot ⟨drop, withdraw, he, hs, hloses⟩

/-- Whatever fails in a run and whatever routes the kernel had before, the
stops of a session answer for all its routes exactly if none of them fails to
delete a retained route. -/
theorem stop_leaves_nothing_iff (cfg : SessionConfig) (routes : Routes) (events : List Event) :
    Each (step cfg) (StopAnswers cfg) (new routes) events ↔
      Each (step cfg) (fun s e => ¬ StopLoses cfg s e) (new routes) events :=
  Each.congr (held_kept cfg) (fun p => .of_not_accepted (AList.notMem_empty p)) (fun _ e h => stopAnswers_iff h e) events

/-- The previous process left a default route. The session keeps it, is
started and stopped, and the kernel does not delete the route: the stop
returns nil and the route is left. -/
theorem failed_drop_is_lost :
    ∃ (routes : Routes) (drop withdraw : Kernel),
      (runAll (step oneTable) (new routes) [.keepRoutes (.ok ()), .start (.ok ())]).started = true ∧
      ((runAll (step oneTable) (new routes) [.keepRoutes (.ok ()), .start (.ok ())]).stop oneTable
        drop withdraw).1 = [] ∧
      ¬ Each (step oneTable) (StopAnswers oneTable) (new routes)
        [.keepRoutes (.ok ()), .start (.ok ()), .stop drop withdraw] := by
  refine ⟨(∅ : Routes).insert (100, anyDest) (.v6 (Vector.replicate 16 1) ""),
    { Kernel.obliging with deleteFails := fun _ _ => true }, .obliging, by decide +kernel,
    by decide +kernel, fun h => ?_⟩
  have hanswers := h.2.2.1 _ _ rfl (by decide +kernel)
  exact hanswers.clean (by decide +kernel) anyDest (.inr (by decide +kernel)) 100
    (List.mem_singleton_self _) (by decide +kernel)

end Mwan.Bgp.Session

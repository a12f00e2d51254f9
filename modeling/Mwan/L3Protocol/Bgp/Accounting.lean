import Mwan.L3Protocol.Bgp.SessionFrame

/-!
# Route accounting of a session

With kernel routes that can be written and deleted, and no other writer, the
kernel has exactly the accepted and the retained routes of a session. Lookups
of next hops may still fail, and paths may come without a next hop; the two
cases in which that breaks the accounting are named by `Spoils`.

Everything is stated prefix by prefix: an operation on a path changes one
prefix (`Elsewhere`), and a loop of removals leaves the removed ones absent.

Results:
* `session_accounts`: in every run without a spoiling path the accounting
  holds between the operations, and retained routes leave the kernel only for
  the reasons there are;
* `rejected_while_accepted`: a path without a next hop for an accepted prefix.
-/
namespace Mwan.Bgp

open Mwan.Core
open Mwan.Npt (NetipAddr)

/-- Route writes and deletions succeed; a lookup may fail. -/
def Kernel.Writes (k : Kernel) : Prop :=
  (∀ t p, k.deleteFails t p = false) ∧ ∀ t p, k.installFails t p = none

namespace Session

/-- The accounting of one prefix. -/
structure AccountedAt (cfg : SessionConfig) (s : Session) (p : Dest) : Prop where
  recorded : ∀ t ∈ cfg.tables, s.Has t p → p ∈ s.accepted ∨ p ∈ s.retained
  acceptedHas : p ∈ s.accepted → ∀ t ∈ cfg.tables, s.Has t p
  retainedHas : p ∈ s.retained → ∃ t ∈ cfg.tables, s.Has t p
  apart : ¬ (p ∈ s.accepted ∧ p ∈ s.retained)
  resolved : ¬ (p ∈ s.accepted ∧ p ∈ s.unresolved)
  desired : (s.fib.desired.lookup p).map (·.nextHop) = s.accepted.lookup p
  notRejected : p ∈ s.accepted → ∀ r ∈ s.rejected, r.dest ≠ p

/-- The kernel has exactly the accepted and the retained routes, each prefix
is recorded once, and the installer wants the accepted ones. -/
def Accounted (cfg : SessionConfig) (s : Session) : Prop := ∀ p, AccountedAt cfg s p

/-- What carries the accounting from one operation to the next. -/
structure At (cfg : SessionConfig) (s : Session) (p : Dest) : Prop
    extends AccountedAt cfg s p where
  peer : ∀ route, s.wants p = some route → route.peer = cfg.peerKey
  stopped : s.started = false → p ∉ s.accepted ∧ p ∉ s.unresolved
  ended : s.retaining = false → p ∉ s.retained
  waiting : ¬ (p ∈ s.unresolved ∧ p ∈ s.retained)
  imported : p ∈ s.accepted ∨ p ∈ s.unresolved → importRejection cfg p = none

section Prefixes

variable {cfg : SessionConfig} {k : Kernel} {s s' : Session} {p : Dest} {nextHop : NetipAddr}

theorem nextHop_eq_of_wants (h : s'.wants p = s.wants p) :
    (s'.fib.desired.lookup p).map (·.nextHop) = (s.fib.desired.lookup p).map (·.nextHop) := by
  have hmap (s : Session) : (s.fib.desired.lookup p).map (·.nextHop) =
      (s.wants p).map (·.nextHop) := by
    rw [wants, Option.map_map]
    rfl
  rw [hmap, hmap, h]

/-- A prefix that an operation leaves alone stays accounted for. -/
theorem At.of_same (h : At cfg s p) (hsame : Same s s' p)
    (hstarted : s'.started = false → s.started = false)
    (hretaining : s'.retaining = false → p ∉ s.retained) : At cfg s' p := by
  have hacc := hsame.mem_accepted
  have hun := hsame.mem_unresolved
  exact
    { recorded := fun t ht hhas => (h.recorded t ht ((hsame.routes t).mp hhas)).imp hacc.mpr
        hsame.retained.mpr
      acceptedHas := fun hp t ht => (hsame.routes t).mpr (h.acceptedHas (hacc.mp hp) t ht)
      retainedHas := fun hp => (h.retainedHas (hsame.retained.mp hp)).imp fun t ht =>
        ⟨ht.1, (hsame.routes t).mpr ht.2⟩
      apart := fun hp => h.apart ⟨hacc.mp hp.1, hsame.retained.mp hp.2⟩
      resolved := fun hp => h.resolved ⟨hacc.mp hp.1, hun.mp hp.2⟩
      desired := by rw [nextHop_eq_of_wants hsame.wants, h.desired, hsame.accepted]
      notRejected := fun hp r hr hd =>
        h.notRejected (hacc.mp hp) r (hsame.rejected (hacc.mp hp) r hr hd) hd
      peer := fun route hroute => h.peer route (hsame.wants ▸ hroute)
      stopped := fun hs => (h.stopped (hstarted hs)).imp (mt hacc.mp) (mt hun.mp)
      ended := fun hr hp => hretaining hr (hsame.retained.mp hp)
      waiting := fun hp => h.waiting ⟨hun.mp hp.1, hsame.retained.mp hp.2⟩
      imported := fun hp => h.imported (hp.imp hacc.mp hun.mp) }

theorem At.of_same_life (h : At cfg s p) (hsame : Same s s' p) (hlife : s'.life = s.life) :
    At cfg s' p := by
  have hstarted : s'.started = s.started := congrArg Life.started hlife
  have hretaining : s'.retaining = s.retaining := congrArg Life.retaining hlife
  exact h.of_same hsame (fun hs => hstarted ▸ hs) fun hr => h.ended (hretaining ▸ hr)

/-- A prefix without a route and without an entry; it may wait for a gateway. -/
structure Absent (cfg : SessionConfig) (s : Session) (p : Dest) : Prop where
  accepted : p ∉ s.accepted
  retained : p ∉ s.retained
  wants : s.wants p = none
  routes : ∀ t ∈ cfg.tables, ¬ s.Has t p
  unresolved : p ∈ s.unresolved → s.started = true ∧ importRejection cfg p = none

theorem Absent.at (h : Absent cfg s p) : At cfg s p where
  recorded t ht hhas := absurd hhas (h.routes t ht)
  acceptedHas hp := absurd hp h.accepted
  retainedHas hp := absurd hp h.retained
  apart hp := h.accepted hp.1
  resolved hp := h.accepted hp.1
  desired := by
    have hnone : s.fib.desired.lookup p = none := Option.map_eq_none_iff.mp h.wants
    rw [hnone, AList.lookup_eq_none.mpr h.accepted]
    rfl
  notRejected hp := absurd hp h.accepted
  peer route hroute := by
    rw [h.wants] at hroute
    cases hroute
  stopped hs := ⟨h.accepted, fun hp => by simp [(h.unresolved hp).1] at hs⟩
  ended _ := h.retained
  waiting hp := h.retained hp.2
  imported hp := hp.elim (fun hp => absurd hp h.accepted) fun hp => (h.unresolved hp).2

/-- Nothing is known of the prefix: then it is absent. -/
theorem At.absent (h : At cfg s p) (hacc : p ∉ s.accepted) (hret : p ∉ s.retained) :
    Absent cfg s p where
  accepted := hacc
  retained := hret
  wants := by
    have hdesired := h.desired
    rw [AList.lookup_eq_none.mpr hacc] at hdesired
    rw [Session.wants, Option.map_eq_none_iff.mp hdesired]
    rfl
  routes t ht hhas := (h.recorded t ht hhas).elim hacc hret
  unresolved hp := ⟨by_contra fun hs => (h.stopped (by simpa using hs)).2 hp, h.imported (.inr hp)⟩

/-! ## One path -/

theorem removeAcceptedLocked_absent (hw : k.Writes) (hret : p ∉ s.retained)
    (hun : p ∈ s.unresolved → s.started = true ∧ importRejection cfg p = none) :
    Absent cfg (s.removeAcceptedLocked cfg k p) p := by
  have hspec : FIB.Removed cfg.fib k [p] s.fib (s.fib.remove cfg.fib k p) := FIB.remove_spec
  unfold removeAcceptedLocked
  rw [FIB.withdrawExact_eq]
  refine ⟨fun hp => (AList.mem_erase.mp hp).1 rfl, hret, ?_, fun t ht hhas => ?_, hun⟩
  · simp [wants, hspec.desired]
  · rw [Has, mem_iff_lookup] at hhas
    simp only [hspec.routes, List.mem_singleton, true_and] at hhas
    rw [if_pos ⟨ht, hw.1 t p⟩] at hhas
    obtain ⟨_, hv⟩ := hhas
    cases hv

theorem failInstallLocked_absent (hw : k.Writes) (hret : p ∉ s.retained)
    (hstarted : s.started = true) (himport : importRejection cfg p = none)
    (errors : List FIBError) :
    Absent cfg (s.failInstallLocked cfg k p nextHop errors) p := by
  have hremoved := removeAcceptedLocked_absent hw hret fun _ => ⟨hstarted, himport⟩
  exact { hremoved with unresolved := fun _ => ⟨hstarted, himport⟩ }

theorem acceptLocked_at {result : List FIBError × FIB}
    (hspec : FIB.Announced cfg.fib k cfg.peerKey p nextHop s.fib result) (hok : result.1 = [])
    (hstarted : s.started = true) (himport : importRejection cfg p = none) :
    At cfg ({ s with fib := result.2 }.acceptLocked p nextHop) p := by
  obtain ⟨g, hentry⟩ := hspec.entry
  obtain ⟨gateway, -, hwritten⟩ := hspec.written hok
  have hret : p ∉ s.retained.erase p := fun hp => (AList.mem_erase.mp hp).1 rfl
  have hun : p ∉ s.unresolved.erase p := fun hp => (AList.mem_erase.mp hp).1 rfl
  exact
    { recorded := fun _ _ _ => .inl (AList.mem_insert _ |>.mpr (.inl rfl))
      acceptedHas := fun _ t ht => mem_iff_lookup.mpr ⟨gateway, hwritten t ht⟩
      retainedHas := fun hp => absurd hp hret
      apart := fun hp => hret hp.2
      resolved := fun hp => hun hp.2
      desired := by simp [acceptLocked, hentry, AList.lookup_insert]
      notRejected := fun _ r hr => by simpa using (List.mem_filter.mp hr).2
      peer := fun route hroute => by
        rw [wants, acceptLocked, hentry] at hroute
        cases hroute
        rfl
      stopped := fun hs => absurd hs (by simp [acceptLocked, hstarted])
      ended := fun _ => hret
      waiting := fun hp => hun hp.1
      imported := fun _ => himport }

/-- The installation of a path. If it cannot be resolved, the prefix must not
be retained. -/
theorem installLocked_at (hw : k.Writes) (hstarted : s.started = true)
    (himport : importRejection cfg p = none) (hvalid : nextHop ≠ .invalid)
    (hlookup : p ∈ s.retained → (k.routeMatch nextHop).isOk) :
    At cfg (s.installLocked cfg k p nextHop) p := by
  obtain ⟨hinvalid, -⟩ | hspec := @FIB.apply_cases cfg.fib k s.fib cfg.peerKey p nextHop
  · exact absurd hinvalid hvalid
  · unfold installLocked
    split
    · rename_i fib heq
      rw [applyFIB] at heq
      rw [heq] at hspec
      exact acceptLocked_at hspec rfl hstarted himport
    · rename_i errors fib hne heq
      rw [applyFIB] at heq
      rw [heq] at hspec
      have hret : p ∉ s.retained := fun hp => hne (hspec.succeeds (fun _ => hlookup hp)
        fun t _ => hw.2 t p)
      exact Absent.at (@failInstallLocked_absent cfg k { s with fib := fib } p nextHop hw hret hstarted
        himport errors)

/-- A withdrawal leaves nothing of its prefix. -/
theorem withdrawal_absent (hw : k.Writes) (h : At cfg s p) {path : Path} (hp : path.dest = some p)
    (hpeer : path.fromPeer = true) (hwithdrawal : path.withdrawal = true) :
    Absent cfg (s.applyBestPathLocked cfg k path) p := by
  have hun : p ∉ s.unresolved.erase p := fun hp => (AList.mem_erase.mp hp).1 rfl
  have hdropped : Dropped cfg k [p] { s with unresolved := s.unresolved.erase p }
    ({ s with unresolved := s.unresolved.erase p }.withdrawRetained cfg k p) := withdrawRetained_spec
  simp only [applyBestPathLocked, hp, hpeer, hwithdrawal, Bool.not_true, Bool.false_eq_true,
    if_false, if_true, withdrawRetainedLocked]
  by_cases hret : p ∈ s.retained
  · have hgone : p ∉
        ({ s with unresolved := s.unresolved.erase p }.withdrawRetained cfg k p).retained :=
      fun hmem => ((hdropped.retained p).mp hmem).2 ⟨List.mem_singleton_self p, fun t _ => hw.1 t p⟩
    simp only [hret, if_true, hgone, not_false_eq_true, decide_true]
    refine ⟨?_, hgone, ?_, fun t ht hhas => ?_, ?_⟩
    · rw [hdropped.accepted]
      exact fun hacc => h.apart ⟨hacc, hret⟩
    · simp [wants, hdropped.desired]
    · rw [Has, mem_iff_lookup, hdropped.routes, if_pos ⟨List.mem_singleton_self p, ht, hw.1 t p⟩]
        at hhas
      obtain ⟨_, hv⟩ := hhas
      cases hv
    · rw [hdropped.unresolved]
      exact fun hmem => absurd hmem hun
  · simp only [hret, if_false, withdrawAcceptedLocked]
    split
    · exact removeAcceptedLocked_absent hw hret fun hmem => absurd hmem hun
    · rename_i hacc
      exact { h.absent hacc hret with unresolved := fun hmem => absurd hmem hun }

end Prefixes

/-! ## The paths of an operation -/

/-- A peer's path that the import rules let through. -/
structure Announces (cfg : SessionConfig) (path : Path) (p : Dest) : Prop where
  dest : path.dest = some p
  fromPeer : path.fromPeer = true
  withdrawal : path.withdrawal = false
  stale : path.stale = false
  imported : importRejection cfg p = none

/-- The path comes without a next hop for a prefix accepted by then, or its
next hop cannot be looked up and the prefix was retained as the operation
began. -/
def Spoils (cfg : SessionConfig) (s₀ s : Session) (path : Path × Kernel) : Prop :=
  ∃ p, Announces cfg path.1 p ∧
    ((path.1.nextHop = none ∧ p ∈ s.accepted) ∨
      ∃ nextHop, path.1.nextHop = some nextHop ∧ (path.2.routeMatch nextHop).isOk = false ∧
        p ∈ s₀.retained)

/-- The path takes a prefix back. -/
def TakesBack (path : Path) (p : Dest) : Prop :=
  path.dest = some p ∧ path.fromPeer = true ∧ path.withdrawal = true

/-- What holds between the paths of an operation that began in `s₀`. -/
structure Within (cfg : SessionConfig) (s₀ s : Session) : Prop where
  life : s.life = s₀.life
  accounted : ∀ p, At cfg s p
  retained : ∀ p, p ∈ s.retained → p ∈ s₀.retained

section Paths

variable {cfg : SessionConfig} {k : Kernel} {s₀ s : Session} {p : Dest} {path : Path}
  {nextHop : NetipAddr}

/-- The four things a path can do to its prefix. -/
theorem applyBestPathLocked_cases (hp : path.dest = some p) :
    (s.applyBestPathLocked cfg k path = s) ∨
    (TakesBack path p) ∨
    (∃ reason, s.applyBestPathLocked cfg k path = s.rejectLocked p reason ∧
      (importRejection cfg p ≠ none ∨ Announces cfg path p ∧ path.nextHop = none)) ∨
    ∃ nextHop, Announces cfg path p ∧ path.nextHop = some nextHop ∧
      s.applyBestPathLocked cfg k path = s.installLocked cfg k p nextHop := by
  cases hpeer : path.fromPeer with
  | false => exact .inl (by simp [applyBestPathLocked, hp, hpeer])
  | true =>
    cases hwithdrawal : path.withdrawal with
    | true => exact .inr (.inl ⟨hp, hpeer, hwithdrawal⟩)
    | false =>
      cases hstale : path.stale with
      | true => exact .inl (by simp [applyBestPathLocked, hp, hpeer, hwithdrawal, hstale])
      | false =>
        cases himport : importRejection cfg p with
        | some reason =>
          exact .inr (.inr (.inl ⟨reason, by
            simp [applyBestPathLocked, hp, hpeer, hwithdrawal, hstale, himport], .inl (by simp)⟩))
        | none =>
          have hannounces : Announces cfg path p := ⟨hp, hpeer, hwithdrawal, hstale, himport⟩
          cases hhop : path.nextHop with
          | none =>
            exact .inr (.inr (.inl ⟨.noNextHop, by
              simp [applyBestPathLocked, hp, hpeer, hwithdrawal, hstale, himport, hhop],
              .inr ⟨hannounces, rfl⟩⟩))
          | some nextHop =>
            exact .inr (.inr (.inr ⟨nextHop, hannounces, rfl, by
              simp [applyBestPathLocked, hp, hpeer, hwithdrawal, hstale, himport, hhop]⟩))

/-- A path that can be installed is accepted. -/
theorem installLocked_accepted (hw : k.Writes) (hvalid : nextHop ≠ .invalid)
    (hlookup : (k.routeMatch nextHop).isOk) :
    p ∈ (s.installLocked cfg k p nextHop).accepted := by
  obtain ⟨hinvalid, -⟩ | hspec := @FIB.apply_cases cfg.fib k s.fib cfg.peerKey p nextHop
  · exact absurd hinvalid hvalid
  · have hok := hspec.succeeds (fun _ => hlookup) fun t _ => hw.2 t p
    unfold installLocked
    split
    · exact (AList.mem_insert _).mpr (.inl rfl)
    · rename_i errors fib hne heq
      rw [applyFIB] at heq
      rw [heq] at hok
      exact absurd hok hne

variable {paths : List (Path × Kernel)} {q : Dest}

/-- The prefix of a path is accounted for behind it, and not retained anew. -/
theorem Within.at_dest (h : Within cfg s₀ s) (hw : k.Writes) (hstarted : s₀.started = true)
    (hclean : ¬ Spoils cfg s₀ s (path, k)) (hp : path.dest = some p) :
    At cfg (s.applyBestPathLocked cfg k path) p ∧
      (p ∈ (s.applyBestPathLocked cfg k path).retained → p ∈ s.retained) := by
  have hat := h.accounted p
  have hrunning : s.started = true := (congrArg Life.started h.life).trans hstarted
  obtain hsame | htaken | ⟨reason, heq, hreason⟩ | ⟨nextHop, hannounces, hhop, heq⟩ :=
    @applyBestPathLocked_cases cfg k s p path hp
  · rw [hsame]
    exact ⟨hat, id⟩
  · have habsent := withdrawal_absent hw hat htaken.1 htaken.2.1 htaken.2.2
    exact ⟨habsent.at, fun hret => absurd hret habsent.retained⟩
  · have hacc : p ∉ s.accepted := by
      intro hacc
      obtain hrefused | ⟨hannounces, hnone⟩ := hreason
      · exact hrefused (hat.imported (.inl hacc))
      · exact hclean ⟨p, hannounces, .inl ⟨hnone, hacc⟩⟩
    -- a rejection says nothing about a prefix that is not accepted
    have hsame : Same s (s.rejectLocked p reason) p :=
      ⟨fun _ => Iff.rfl, rfl, rfl, rfl, Iff.rfl, fun h => absurd h hacc⟩
    rw [heq]
    exact ⟨hat.of_same_life hsame rfl, id⟩
  · have hvalid : nextHop ≠ .invalid := path.valid nextHop hhop
    have hlookup (hret : p ∈ s.retained) : (k.routeMatch nextHop).isOk := by
      by_contra hfails
      exact hclean ⟨p, hannounces, .inr ⟨nextHop, hhop, by simpa using hfails, h.retained p hret⟩⟩
    rw [heq]
    refine ⟨installLocked_at hw hrunning hannounces.imported hvalid hlookup, fun hret => ?_⟩
    unfold installLocked at hret
    split at hret
    · exact (AList.mem_erase.mp hret).2
    · exact hret

/-- A change of one prefix that is accounted for behind it. -/
theorem Within.of_elsewhere {s' : Session} (h : Within cfg s₀ s) (helse : Elsewhere p s s')
    (hat : At cfg s' p) (hret : p ∈ s'.retained → p ∈ s.retained) : Within cfg s₀ s' := by
  refine ⟨helse.life.trans h.life, fun q => ?_, fun q hq => h.retained q ?_⟩
  · by_cases hqp : q = p
    · rw [hqp]
      exact hat
    · exact (h.accounted q).of_same_life (helse.same q hqp) helse.life
  · by_cases hqp : q = p
    · rw [hqp] at hq ⊢
      exact hret hq
    · exact (helse.same q hqp).retained.mp hq

theorem Within.applyPath (h : Within cfg s₀ s) (hw : k.Writes) (hstarted : s₀.started = true)
    (hclean : ¬ Spoils cfg s₀ s (path, k)) :
    Within cfg s₀ (s.applyBestPathLocked cfg k path) := by
  cases hp : path.dest with
  | none =>
    rw [applyBestPathLocked_none hp]
    exact h
  | some p =>
    obtain ⟨hat, hretained⟩ := h.at_dest hw hstarted hclean hp
    exact h.of_elsewhere (applyBestPathLocked_elsewhere hp) hat hretained

/-- A prefix that was retained as the operation began stays recorded, unless
the path takes it back. -/
theorem Within.stays (hw : k.Writes) (hclean : ¬ Spoils cfg s₀ s (path, k))
    (hq₀ : q ∈ s₀.retained) (hq : q ∈ s.accepted ∨ q ∈ s.retained) (hnot : ¬ TakesBack path q) :
    q ∈ (s.applyBestPathLocked cfg k path).accepted ∨
      q ∈ (s.applyBestPathLocked cfg k path).retained := by
  cases hp : path.dest with
  | none =>
    rw [applyBestPathLocked_none hp]
    exact hq
  | some p =>
    by_cases hqp : q = p
    · subst hqp
      obtain hsame | htaken | ⟨reason, heq, -⟩ | ⟨nextHop, hannounces, hhop, heq⟩ :=
        @applyBestPathLocked_cases cfg k s q path hp
      · rw [hsame]
        exact hq
      · exact absurd htaken hnot
      · rw [heq]
        exact hq
      · have hlookup : (k.routeMatch nextHop).isOk := by
          by_contra hfails
          exact hclean ⟨q, hannounces, .inr ⟨nextHop, hhop, by simpa using hfails, hq₀⟩⟩
        rw [heq]
        exact .inl (installLocked_accepted hw (path.valid nextHop hhop) hlookup)
    · have hsame := (@applyBestPathLocked_elsewhere cfg k s p path hp).same q hqp
      exact hq.imp hsame.mem_accepted.mpr hsame.retained.mpr

/-- No path of the list spoils the accounting at its turn. -/
def CleanPaths (cfg : SessionConfig) (s₀ : Session) : Session → List (Path × Kernel) → Prop
  | _, [] => True
  | s, path :: paths =>
    ¬ Spoils cfg s₀ s path ∧ CleanPaths cfg s₀ (s.applyBestPathLocked cfg path.2 path.1) paths

theorem Within.applyPaths (h : Within cfg s₀ s) (hw : ∀ path ∈ paths, path.2.Writes)
    (hstarted : s₀.started = true) (hclean : CleanPaths cfg s₀ s paths) :
    Within cfg s₀ (s.applyBestPaths cfg paths) := by
  induction paths generalizing s with
  | nil => exact h
  | cons path paths ih =>
    obtain ⟨hwpath, hwrest⟩ := List.forall_mem_cons.mp hw
    exact ih (h.applyPath hwpath hstarted hclean.1) hwrest hclean.2

theorem Within.stays_all (hw : ∀ path ∈ paths, path.2.Writes)
    (hclean : CleanPaths cfg s₀ s paths) (hq₀ : q ∈ s₀.retained)
    (hq : q ∈ s.accepted ∨ q ∈ s.retained) (hnot : ∀ path ∈ paths, ¬ TakesBack path.1 q) :
    q ∈ (s.applyBestPaths cfg paths).accepted ∨ q ∈ (s.applyBestPaths cfg paths).retained := by
  induction paths generalizing s with
  | nil => exact hq
  | cons path paths ih =>
    obtain ⟨hwpath, hwrest⟩ := List.forall_mem_cons.mp hw
    obtain ⟨hnotpath, hnotrest⟩ := List.forall_mem_cons.mp hnot
    exact ih hwrest hclean.2 (Within.stays hwpath hclean.1 hq₀ hq hnotpath) hnotrest

end Paths

/-! ## The other operations -/

section Operations

variable {cfg : SessionConfig} {k k' : Kernel} {s s₁ s₂ : Session} {p q : Dest}

theorem not_has_of_lookup {s : Session} {t : Int} (h : s.fib.routes.lookup (t, q) = none) :
    ¬ s.Has t q :=
  AList.lookup_eq_none.mp h

/-- The end of the retention: no prefix is retained, the others are as they
were. -/
theorem dropRetainedLocked_at (hw : k.Writes) (h : ∀ p, At cfg s p) (q : Dest) :
    At cfg (s.dropRetainedLocked cfg k) q ∧ q ∉ (s.dropRetainedLocked cfg k).retained := by
  have hspec := @dropRetainedLocked_spec cfg k s
  have hnone : q ∉ (s.dropRetainedLocked cfg k).retained := fun hq => by
    obtain ⟨hret, hnot⟩ := (hspec.retained q).mp hq
    exact hnot ⟨AList.mem_keys.mp hret, fun t _ => hw.1 t q⟩
  refine ⟨?_, hnone⟩
  by_cases hq : q ∈ s.retained
  · refine Absent.at ⟨?_, hnone, ?_, fun t ht => not_has_of_lookup ?_, fun hun => ?_⟩
    · rw [hspec.accepted]
      exact fun hacc => (h q).apart ⟨hacc, hq⟩
    · simp [wants, hspec.desired, AList.mem_keys.mp hq]
    · rw [hspec.routes, if_pos ⟨AList.mem_keys.mp hq, ht, hw.1 t q⟩]
    · rw [hspec.unresolved] at hun
      exact absurd ⟨hun, hq⟩ (h q).waiting
  · have hkey : q ∉ s.retained.keys := fun hmem => hq (AList.mem_keys.mpr hmem)
    have hsame : Same s (s.dropRetainedLocked cfg k) q :=
      { routes := fun t => by
          simp only [Has, mem_iff_lookup, hspec.routes, hkey, false_and, if_false]
        wants := by simp [wants, hspec.desired, hkey]
        accepted := by rw [hspec.accepted]
        unresolved := by rw [hspec.unresolved]
        retained := iff_of_false hnone hq
        rejected := fun _ r hr _ => hspec.rejected ▸ hr }
    have hstarted : (s.dropRetainedLocked cfg k).started = s.started :=
      congrArg Life.started hspec.life
    exact (h q).of_same hsame (fun hs => hstarted ▸ hs) fun _ => hq

/-- The retained routes and then all routes of the peer are removed: nothing
is left in the owned tables. -/
theorem withdrawPeer_empty (hw : k.Writes) (hw' : k'.Writes) (h : ∀ p, At cfg s p)
    (hfib : s₁.fib = s.fib) (hdrop : Dropped cfg k s.retained.keys s₁ s₂) (q : Dest) :
    (s₂.fib.withdrawPeer cfg.fib k' cfg.peerKey).2.desired.lookup q = none ∧
      ∀ t ∈ cfg.tables,
        (s₂.fib.withdrawPeer cfg.fib k' cfg.peerKey).2.routes.lookup (t, q) = none := by
  have hspec := @FIB.removeAll_spec cfg.fib k' s₂.fib (s₂.fib.prefixesOf cfg.peerKey fun _ => true)
  -- every entry that the drop leaves is the peer's
  have hpeer (route : DesiredRoute) (hroute : s₂.fib.desired.lookup q = some route) :
      q ∈ s₂.fib.prefixesOf cfg.peerKey fun _ => true := by
    refine FIB.mem_prefixesOf.mpr ⟨⟨route, hroute, ?_⟩, rfl⟩
    rw [hdrop.desired, hfib] at hroute
    split at hroute
    · cases hroute
    · exact (h q).peer route.announcement (by simp [wants, hroute])
  refine ⟨?_, fun t ht => ?_⟩
  · unfold FIB.withdrawPeer
    rw [hspec.desired]
    split
    · rfl
    · rename_i hnot
      exact Option.eq_none_iff_forall_ne_some.mpr fun route hroute => hnot (hpeer route hroute)
  · unfold FIB.withdrawPeer
    rw [hspec.routes, hdrop.routes, hfib]
    split
    · rfl
    · rename_i hnot
      split
      · rfl
      · rename_i hkept
        refine AList.lookup_eq_none.mpr fun hhas => ?_
        have hret : q ∉ s.retained := fun hret =>
          hkept ⟨AList.mem_keys.mp hret, ht, hw.1 t q⟩
        have hacc := ((h q).recorded t ht hhas).resolve_right hret
        -- accepted, so the installer wants it, and the drop has left that
        obtain ⟨nextHop, hnext⟩ := mem_iff_lookup.mp hacc
        have hdesired := (h q).desired
        rw [hnext, Option.map_eq_some_iff] at hdesired
        obtain ⟨route, hroute, -⟩ := hdesired
        refine hnot ⟨hpeer route ?_, ht, hw'.1 t q⟩
        rw [hdrop.desired, hfib, if_neg fun hmem => hret (AList.mem_keys.mpr hmem), hroute]

theorem mem_installed : p ∈ s.installed cfg ↔ ∃ t ∈ cfg.tables, s.Has t p := by
  simp only [installed, List.mem_map, List.mem_filter, decide_eq_true_eq, Prod.exists,
    exists_eq_right, Has, AList.mem_keys]
  exact exists_congr fun t => and_comm

/-- `KeepRoutes` in a session that knows nothing. -/
theorem keepRoutes_at (hunknown : ∀ p, p ∉ s.accepted ∧ p ∉ s.unresolved ∧ p ∉ s.retained ∧
    s.wants p = none) (hgraceful : cfg.gracefulRestartSeconds ≠ 0) (hstarted : s.started = false)
    (hretaining : s.retaining = false) (q : Dest) :
    At cfg (s.keepRoutes cfg (.ok ())) q := by
  obtain ⟨hacc, hun, hret, hwants⟩ := hunknown q
  have hkept : s.keepRoutes cfg (.ok ()) = { s with
      retaining := true
      retained := (s.installed cfg).foldl (fun set p => set.insert p ()) s.retained
      retainGeneration := s.retainGeneration + 1 } := by
    simp [keepRoutes, hgraceful, hstarted, hretaining]
  have hmem : q ∈ (s.keepRoutes cfg (.ok ())).retained ↔ ∃ t ∈ cfg.tables, s.Has t q := by
    rw [hkept]
    exact (mem_foldl_insert _ _ _ _).trans ((or_iff_left hret).trans mem_installed)
  have hdesired : s.fib.desired.lookup q = none := Option.map_eq_none_iff.mp hwants
  rw [hkept] at hmem ⊢
  exact
    { recorded := fun t ht hhas => .inr (hmem.mpr ⟨t, ht, hhas⟩)
      acceptedHas := fun hp => absurd hp hacc
      retainedHas := hmem.mp
      apart := fun hp => hacc hp.1
      resolved := fun hp => hacc hp.1
      desired := by simp [hdesired, AList.lookup_eq_none.mpr hacc]
      notRejected := fun hp => absurd hp hacc
      peer := fun route hroute => by
        simp [wants, hdesired] at hroute
      stopped := fun _ => ⟨hacc, hun⟩
      ended := nofun
      waiting := fun hp => hun hp.1
      imported := fun hp => hp.elim (fun hp => absurd hp hacc) fun hp => absurd hp hun }

/-- The retries touch no retained prefix. -/
theorem retryLoop_within (hw : k.Writes) (hstarted : s₁.started = true) (ps : List Dest)
    (h : Within cfg s₁ s) :
    Within cfg s₁ (s.retryLoop cfg k ps) ∧ ∀ q ∈ s.retained, q ∈ (s.retryLoop cfg k ps).retained := by
  induction ps generalizing s with
  | nil => exact ⟨h, fun _ hq => hq⟩
  | cons p ps ih =>
    unfold retryLoop
    split
    · exact ih h
    · rename_i nextHop hun
      have hat := h.accounted p
      have hmem : p ∈ s.unresolved := mem_iff_lookup.mpr ⟨nextHop, hun⟩
      have hret : p ∉ s.retained := fun hret => hat.waiting ⟨hmem, hret⟩
      have himport := hat.imported (.inr hmem)
      have hrunning : s.started = true := (congrArg Life.started h.life).trans hstarted
      have happly := @apply_elsewhere cfg k s p nextHop
      -- both outcomes change this prefix only
      have hnext {s' : Session} (helse : Elsewhere p s s') (hp : At cfg s' p)
          (hnot : p ∉ s'.retained) :
          Within cfg s₁ (s'.retryLoop cfg k ps) ∧
            ∀ q ∈ s.retained, q ∈ (s'.retryLoop cfg k ps).retained := by
        obtain ⟨hwithin, hkept⟩ := ih (h.of_elsewhere helse hp fun hmem => absurd hmem hnot)
        refine ⟨hwithin, fun q hq => hkept q ?_⟩
        exact (helse.same q fun heq => hret (heq ▸ hq)).retained.mpr hq
      split
      · rename_i fib heq
        rw [heq] at happly
        obtain ⟨-, hinvalid⟩ | hspec := @FIB.apply_cases cfg.fib k s.fib cfg.peerKey p nextHop
        · rw [applyFIB, hinvalid] at heq
          cases heq
        · rw [applyFIB] at heq
          rw [heq] at hspec
          have haccepted := acceptLocked_at hspec rfl hrunning himport
          exact hnext (happly.trans acceptLocked_elsewhere) haccepted
            fun hmem => (AList.mem_erase.mp hmem).1 rfl
      · rename_i errors fib _ heq
        rw [heq] at happly
        have habsent := @removeAcceptedLocked_absent cfg k { s with fib := fib } p hw hret
          fun _ => ⟨hrunning, himport⟩
        exact hnext (happly.trans removeAcceptedLocked_elsewhere) habsent.at habsent.retained

theorem refreshLoop_rejected (hw : k.Writes) (counts : Dest → Nat) (ps : List Dest) (f : FIB) :
    (f.refreshLoop cfg.fib k counts ps).1 = [] := by
  induction ps generalizing f with
  | nil => rfl
  | cons p ps ih =>
    unfold FIB.refreshLoop
    split
    · exact ih f
    · split
      · exact ih f
      · rename_i gateway _
        split
        · exact ih f
        · have hnone := @FIB.installGateway_errors cfg.fib k f p gateway fun t _ => hw.2 t p
          simp [hnone, FIB.kernelRejected, ih]

/-- A refresh of routes that are all installed changes none. -/
theorem refresh_same (h : ∀ p, At cfg s p) (listing : Except String Unit) (q : Dest) :
    Same s { s with fib := (s.fib.refresh cfg.fib k listing).2 } q := by
  have hspec := @refresh_refreshed cfg k listing s.fib
  refine ⟨fun t => ⟨fun hhas => ?_, hspec.grows t q⟩, hspec.wants q, rfl, rfl, Iff.rfl,
    fun _ _ hr _ => hr⟩
  by_cases hsame : s.fib.desired.lookup q = none ∨ t ∉ cfg.tables
  · rw [Has, mem_iff_lookup] at hhas ⊢
    rwa [hspec.routes t q hsame] at hhas
  · rw [not_or, not_not] at hsame
    obtain ⟨route, hroute⟩ := Option.ne_none_iff_exists'.mp hsame.1
    have hdesired := (h q).desired
    rw [hroute] at hdesired
    exact (h q).acceptedHas (mem_iff_lookup.mpr ⟨_, hdesired.symm⟩) t hsame.2

theorem refreshRoutes_within {retry refresh : Kernel} (hretry : retry.Writes)
    (hrefresh : refresh.Writes) (h : ∀ p, At cfg s p) (hstarted : s.started = true)
    (listing : Except String Unit) :
    Within cfg s (s.refreshRoutes cfg k retry refresh listing) ∧
      ∀ q ∈ s.retained, q ∈ (s.refreshRoutes cfg k retry refresh listing).retained := by
  have hstart : Within cfg s s := ⟨rfl, h, fun _ hq => hq⟩
  obtain ⟨hwithin, hkept⟩ := retryLoop_within hretry hstarted s.unresolved.keys hstart
  -- nothing is retained once the retention has ended
  have hdrop : (if !s.retaining && s.retained.keys ≠ [] then s.dropRetainedLocked cfg k else s) = s := by
    refine if_neg fun hc => ?_
    simp only [Bool.and_eq_true, Bool.not_eq_true', decide_eq_true_eq] at hc
    obtain ⟨q, hq⟩ := List.exists_mem_of_ne_nil _ hc.2
    exact (h q).ended hc.1 (AList.mem_keys.mpr hq)
  have hsame := @refresh_same cfg refresh _ hwithin.accounted listing
  have hrejected :
      ((s.retryLoop cfg retry s.unresolved.keys).fib.refresh cfg.fib refresh listing).1 = [] := by
    unfold FIB.refresh
    split
    · rfl
    · split
      · rfl
      · exact refreshLoop_rejected hrefresh _ _ _
  unfold refreshRoutes
  simp only [hstarted, Bool.not_true, Bool.false_eq_true, if_false, hdrop, hrejected, List.foldl_nil]
  exact ⟨⟨hwithin.life, fun q => (hwithin.accounted q).of_same_life (hsame q) rfl,
    fun q hq => hwithin.retained q hq⟩, hkept⟩

end Operations

/-! ## Runs -/

/-- Every kernel route operation of the event succeeds, and it is one of a
session that is not handed over. -/
def Event.Orderly : Event → Prop
  | .keepRoutes _ | .start _ | .connect _ => True
  | .peer _ drop withdraw | .stop drop withdraw => drop.Writes ∧ withdraw.Writes
  | .bestPaths paths => ∀ path ∈ paths, path.2.Writes
  | .endOfRIB listing drop | .deadline _ listing drop =>
    (∀ paths, listing = .ok paths → ∀ path ∈ paths, path.2.Writes) ∧ drop.Writes
  | .refresh drop retry reinstall _ => drop.Writes ∧ retry.Writes ∧ reinstall.Writes
  | .stopRetaining | .sweepStale _ _ => False

/-- No path that the event applies spoils the accounting. -/
def Clean (cfg : SessionConfig) (s : Session) : Event → Prop
  | .bestPaths paths => s.started = true → CleanPaths cfg s s paths
  | .endOfRIB (.ok paths) _ => s.started = true → CleanPaths cfg s s (listed paths)
  | .deadline generation (.ok paths) _ =>
    s.started = true → s.retaining = true → s.retainGeneration = generation →
      CleanPaths cfg s s (listed paths)
  | _ => True

/-- The reasons for which a retained route may leave the kernel. -/
def Takes (s : Session) (p : Dest) : Event → Prop
  | .bestPaths paths => ∃ path ∈ paths, TakesBack path.1 p
  | .endOfRIB listing _ => listing.isOk = true
  | .deadline generation _ _ => s.retaining = true ∧ s.retainGeneration = generation
  | .peer established _ _ => s.established = true ∧ established = false
  | .stop _ _ => True
  | _ => False

structure Lawful (cfg : SessionConfig) (s : Session) (e : Event) : Prop where
  shrinks : (∀ listing, e ≠ .keepRoutes listing) →
    ∀ p, p ∈ (s.step cfg e).retained → p ∈ s.retained
  leaves : ∀ p ∈ s.retained, (∀ t ∈ cfg.tables, ¬ (s.step cfg e).Has t p) → Takes s p e
  complete : ∀ paths drop, e = .endOfRIB (.ok paths) drop → s.started = true →
    ∀ t ∈ cfg.tables, ∀ p, (s.step cfg e).Has t p ↔ p ∈ (s.step cfg e).accepted

section Runs

variable {cfg : SessionConfig} {s : Session} {e : Event}

/-- What an operation does to a session that is accounted for. -/
structure Accounts (cfg : SessionConfig) (s : Session) (e : Event) : Prop where
  accounted : ∀ p, At cfg (s.step cfg e) p
  lawful : Lawful cfg s e

theorem writes_listed {paths : List (Path × Kernel)} (hw : ∀ path ∈ paths, path.2.Writes) :
    ∀ path ∈ listed paths, path.2.Writes :=
  fun path hpath => hw path (List.mem_filter.mp hpath).1

section

variable (h : ∀ p, At cfg s p)

include h

/-- An operation behind which a retained prefix is recorded or taken; the
marker ends the retention of a started session. -/
theorem Accounts.of_recorded (h' : ∀ p, At cfg (s.step cfg e) p)
    (hshrinks : (∀ listing, e ≠ .keepRoutes listing) → ∀ p, p ∈ (s.step cfg e).retained → p ∈ s.retained)
    (hrecorded : ∀ p ∈ s.retained, (p ∈ (s.step cfg e).accepted ∨ p ∈ (s.step cfg e).retained) ∨ Takes s p e)
    (hends : ∀ paths drop, e = .endOfRIB (.ok paths) drop → s.started = true → ∀ p, p ∉ (s.step cfg e).retained) :
    Accounts cfg s e := by
  refine ⟨h', hshrinks, fun p hp hgone => ?_, fun paths drop he hstarted t ht p => ?_⟩
  · obtain ⟨t, ht, -⟩ := (h p).retainedHas hp
    obtain (hacc | hret) | htakes := hrecorded p hp
    · exact absurd ((h' p).acceptedHas hacc t ht) (hgone t ht)
    · obtain ⟨t', ht', hhas⟩ := (h' p).retainedHas hret
      exact absurd hhas (hgone t' ht')
    · exact htakes
  · have hnone := hends paths drop he hstarted p
    exact ⟨fun hhas => ((h' p).recorded t ht hhas).resolve_right hnone,
      fun hacc => (h' p).acceptedHas hacc t ht⟩

/-- An operation that changes no prefix. -/
theorem Accounts.of_same {s' : Session} (hstep : s.step cfg e = s') (hsame : ∀ p, Same s s' p)
    (hstarted : s'.started = false → s.started = false) (hretaining : s'.retaining = s.retaining)
    (hends : ∀ paths drop, e = .endOfRIB (.ok paths) drop → s.started = false) :
    Accounts cfg s e := by
  subst hstep
  exact .of_recorded h
    (fun p => (h p).of_same (hsame p) hstarted fun hr => (h p).ended (hretaining ▸ hr))
    (fun _ p hp => (hsame p).retained.mp hp) (fun p hp => .inl (.inr ((hsame p).retained.mpr hp)))
    fun paths drop he hs => absurd hs (by simp [hends paths drop he])

/-- Paths of a listing, and behind them the end of the retention. -/
theorem Accounts.of_end {s₁ : Session} {k : Kernel} (hw : k.Writes) (hwithin : Within cfg s s₁)
    (hstep : s.step cfg e = s₁.endRetentionLocked cfg k) (htakes : ∀ p, Takes s p e) :
    Accounts cfg s e := by
  have hend (q : Dest) : At cfg (s₁.endRetentionLocked cfg k) q ∧
      q ∉ (s₁.endRetentionLocked cfg k).retained := by
    unfold endRetentionLocked
    cases hr : s₁.retaining with
    | false => exact ⟨hwithin.accounted q, (hwithin.accounted q).ended hr⟩
    | true => exact dropRetainedLocked_at hw hwithin.accounted q
  rw [← hstep] at hend
  exact .of_recorded h (fun p => (hend p).1) (fun _ p hp => absurd hp (hend p).2)
    (fun p _ => .inr (htakes p)) fun _ _ _ _ p => (hend p).2

theorem Accounts.of_eq (heq : s.step cfg e = s)
    (hends : ∀ paths drop, e = .endOfRIB (.ok paths) drop → s.started = false) :
    Accounts cfg s e :=
  .of_same h heq (Same.refl s) id rfl hends

theorem accounts_keepRoutes (listing : Except String Unit) :
    Accounts cfg s (.keepRoutes listing) := by
  cases listing with
  | error e => exact .of_eq h rfl nofun
  | ok _ =>
    by_cases hgraceful : cfg.gracefulRestartSeconds = 0
    · exact .of_eq h (by simp [step, keepRoutes, hgraceful]) nofun
    · by_cases hbusy : (s.started || s.retaining) = true
      · exact .of_eq h (by simp only [step, keepRoutes, hgraceful, if_false, hbusy, if_true]) nofun
      · simp only [Bool.or_eq_true, not_or, Bool.not_eq_true] at hbusy
        have hunknown (p : Dest) : p ∉ s.accepted ∧ p ∉ s.unresolved ∧ p ∉ s.retained ∧
            s.wants p = none := by
          obtain ⟨hacc, hun⟩ := (h p).stopped hbusy.1
          have hret := (h p).ended hbusy.2
          exact ⟨hacc, hun, hret, ((h p).absent hacc hret).wants⟩
        refine .of_recorded h (keepRoutes_at hunknown hgraceful hbusy.1 hbusy.2)
          (fun hnot => absurd rfl (hnot _)) (fun p hp => absurd hp ?_) nofun
        exact (hunknown p).2.2.1

theorem accounts_start (server : Except String Unit) : Accounts cfg s (.start server) := by
  cases hs : s.started with
  | true => exact .of_eq h (by simp [step, start, hs]) nofun
  | false =>
    cases server with
    | error e => exact .of_eq h (by simp [step, start, hs]) nofun
    | ok _ =>
      have hstep : s.step cfg (.start (.ok ())) =
          { s with armed := true, started := true, connected := !s.retaining } := by
        simp [step, start, hs]
      exact .of_same h hstep (fun _ => ⟨fun _ => Iff.rfl, rfl, rfl, rfl, Iff.rfl, fun _ _ hr _ => hr⟩)
        (fun _ => hs) rfl nofun

theorem accounts_connect (server : Except String Unit) : Accounts cfg s (.connect server) := by
  by_cases hidle : s.started = true ∧ s.connected = false ∧ server = .ok ()
  · have hstep : s.step cfg (.connect server) = { s with connected := true } := by
      simp [step, connect, hidle]
    exact .of_same h hstep (fun _ => ⟨fun _ => Iff.rfl, rfl, rfl, rfl, Iff.rfl, fun _ _ hr _ => hr⟩)
      id rfl nofun
  · refine .of_eq h ?_ nofun
    simp only [step, connect]
    split
    · rfl
    · split
      · rfl
      · split
        · rfl
        · simp_all

theorem accounts_bestPaths {paths : List (Path × Kernel)} (hw : ∀ path ∈ paths, path.2.Writes)
    (hclean : Clean cfg s (.bestPaths paths)) :
    Accounts cfg s (.bestPaths paths) := by
  cases hs : s.started with
  | false => exact .of_eq h (by simp [step, handleBestPaths, hs]) nofun
  | true =>
    have hstep : s.step cfg (.bestPaths paths) = s.applyBestPaths cfg paths := by
      simp [step, handleBestPaths, hs]
    have hwithin : Within cfg s (s.applyBestPaths cfg paths) :=
      Within.applyPaths ⟨rfl, h, fun _ hq => hq⟩ hw hs (hclean hs)
    refine .of_recorded h (fun p => ?_) (fun _ p hp => ?_) (fun p hp => ?_) nofun
    · rw [hstep]
      exact hwithin.accounted p
    · rw [hstep] at hp
      exact hwithin.retained p hp
    · by_cases htaken : ∃ path ∈ paths, TakesBack path.1 p
      · exact .inr htaken
      · rw [hstep]
        refine .inl (Within.stays_all hw (hclean hs) hp (.inr hp) fun path hpath htakes => ?_)
        exact htaken ⟨path, hpath, htakes⟩

theorem accounts_endOfRIB {listing : Listing} {drop : Kernel}
    (horderly : (Event.endOfRIB listing drop).Orderly)
    (hclean : Clean cfg s (.endOfRIB listing drop)) : Accounts cfg s (.endOfRIB listing drop) := by
  cases hs : s.started with
  | false =>
    exact .of_eq h (by simp [step, handleEndOfRIB, hs]) fun _ _ _ => hs
  | true =>
    cases listing with
    | error e => exact .of_eq h (by simp [step, handleEndOfRIB, hs]) nofun
    | ok paths =>
      have hstep : s.step cfg (.endOfRIB (.ok paths) drop) =
          (s.applyBestPaths cfg (listed paths)).endRetentionLocked cfg drop := by
        simp [step, handleEndOfRIB, hs]
      have hwithin : Within cfg s (s.applyBestPaths cfg (listed paths)) :=
        Within.applyPaths ⟨rfl, h, fun _ hq => hq⟩ (writes_listed (horderly.1 paths rfl)) hs
          (hclean hs)
      exact .of_end h horderly.2 hwithin hstep fun _ => rfl

theorem accounts_deadline {generation : Nat} {listing : Listing} {drop : Kernel}
    (horderly : (Event.deadline generation listing drop).Orderly)
    (hclean : Clean cfg s (.deadline generation listing drop)) :
    Accounts cfg s (.deadline generation listing drop) := by
  by_cases hcurrent : s.retaining = true ∧ s.retainGeneration = generation
  · have hstart : Within cfg s s := ⟨rfl, h, fun _ hq => hq⟩
    -- with or without the paths of a listing, the drop follows
    have hstep : ∃ s₁, Within cfg s s₁ ∧
        s.step cfg (.deadline generation listing drop) = s₁.endRetentionLocked cfg drop := by
      simp only [step, endRetention, hcurrent.1, hcurrent.2, Bool.not_true, Bool.false_or, ne_eq,
        not_true_eq_false, decide_false, Bool.false_eq_true, if_false]
      split
      · rename_i paths hs
        refine ⟨_, Within.applyPaths hstart (writes_listed (horderly.1 paths rfl)) hs ?_, rfl⟩
        exact hclean hs hcurrent.1 hcurrent.2
      · exact ⟨s, hstart, rfl⟩
    obtain ⟨s₁, hwithin, hstep⟩ := hstep
    exact .of_end h horderly.2 hwithin hstep fun _ => hcurrent
  · refine .of_eq h ?_ nofun
    have hstale : (!s.retaining || decide (s.retainGeneration ≠ generation)) = true := by
      simpa [imp_iff_not_or] using hcurrent
    simp only [step, endRetention, hstale, if_true]

theorem accounts_refresh {drop retry reinstall : Kernel}
    (horderly : ∀ listing, (Event.refresh drop retry reinstall listing).Orderly)
    (listing : Except String Unit) : Accounts cfg s (.refresh drop retry reinstall listing) := by
  cases hs : s.started with
  | false => exact .of_eq h (by simp [step, refreshRoutes, hs]) nofun
  | true =>
    obtain ⟨-, hretry, hreinstall⟩ := horderly listing
    obtain ⟨hwithin, hkept⟩ := @refreshRoutes_within cfg drop s retry reinstall hretry hreinstall h
      hs listing
    exact .of_recorded h hwithin.accounted (fun _ => hwithin.retained)
      (fun p hp => .inl (.inr (hkept p hp))) nofun

/-- A session that has forgotten everything, behind the removal of all its
routes. -/
theorem accounts_removal {s₁ s₂ : Session} {k k' : Kernel} (hw : k.Writes) (hw' : k'.Writes)
    (hdrop : Dropped cfg k s.retained.keys s₁ s₂) (hfib : s₁.fib = s.fib)
    (hstep : (s.step cfg e).fib = (s₂.fib.withdrawPeer cfg.fib k' cfg.peerKey).2)
    (hforgets : ∀ p, p ∉ (s.step cfg e).accepted ∧ p ∉ (s.step cfg e).unresolved ∧ p ∉ (s.step cfg e).retained)
    (htakes : ∀ p, Takes s p e) : Accounts cfg s e := by
  have hempty := withdrawPeer_empty hw hw' h hfib hdrop
  rw [← hstep] at hempty
  refine .of_recorded h (fun p => Absent.at ?_) (fun _ p hp => absurd hp (hforgets p).2.2)
    (fun p _ => .inr (htakes p)) fun _ _ _ _ p => (hforgets p).2.2
  obtain ⟨hacc, hun, hret⟩ := hforgets p
  refine ⟨hacc, hret, ?_, fun t ht => not_has_of_lookup ((hempty p).2 t ht), fun hp => absurd hp hun⟩
  rw [wants, (hempty p).1]
  rfl

theorem accounts_stop {drop withdraw : Kernel} (hw : drop.Writes) (hw' : withdraw.Writes) :
    Accounts cfg s (.stop drop withdraw) := by
  cases hs : s.started with
  | false => exact .of_eq h (by simp [step, stop, hs]) nofun
  | true =>
    refine accounts_removal h hw hw' dropRetainedLocked_spec rfl ?_ (fun p => ?_) (fun _ => trivial)
    · simp only [step, stop, hs, Bool.not_true, Bool.false_eq_true, if_false, resetStoppedLocked]
    · simp [step, stop, hs, resetStoppedLocked]

theorem accounts_peer {drop withdraw : Kernel} (hw : drop.Writes) (hw' : withdraw.Writes)
    (established : Bool) :
    Accounts cfg s (.peer established drop withdraw) := by
  cases hs : s.started with
  | false => exact .of_eq h (by simp [step, handlePeerEvent, hs]) nofun
  | true =>
    by_cases hlost : s.established = true ∧ established = false
    · obtain ⟨hwas, rfl⟩ := hlost
      let lost := { s with established := false, accepted := ∅, unresolved := ∅ }
      have hspec := @dropRetainedLocked_spec cfg drop lost
      have hstep : s.step cfg (.peer false drop withdraw) = { lost.dropRetainedLocked cfg drop with
          fib := ((lost.dropRetainedLocked cfg drop).fib.withdrawPeer cfg.fib withdraw
            cfg.peerKey).2 } := by
        simp [lost, step, handlePeerEvent, hs, hwas]
      refine accounts_removal h hw hw' hspec rfl (by rw [hstep]) (fun p => ?_) fun _ => ⟨hwas, rfl⟩
      rw [hstep]
      refine ⟨?_, ?_, fun hp => ?_⟩
      · rw [hspec.accepted]
        exact AList.notMem_empty p
      · rw [hspec.unresolved]
        exact AList.notMem_empty p
      · obtain ⟨hret, hnot⟩ := (hspec.retained p).mp hp
        exact hnot ⟨AList.mem_keys.mp hret, fun t _ => hw.1 t p⟩
    · have hstep : s.step cfg (.peer established drop withdraw) =
          { s with established := established } := by
        have hkept : ¬ (!established && s.established) = true := by
          simpa [and_comm] using hlost
        simp only [step, handlePeerEvent, hs, Bool.not_true, Bool.false_eq_true, if_false, hkept]
      exact .of_same h hstep (fun _ => ⟨fun _ => Iff.rfl, rfl, rfl, rfl, Iff.rfl, fun _ _ hr _ => hr⟩)
        id rfl nofun

/-- One operation. -/
theorem accounts (horderly : e.Orderly) (hclean : Clean cfg s e) : Accounts cfg s e := by
  cases e with
  | keepRoutes listing => exact accounts_keepRoutes h listing
  | start server => exact accounts_start h server
  | connect server => exact accounts_connect h server
  | peer established => exact accounts_peer h horderly.1 horderly.2 established
  | bestPaths => exact accounts_bestPaths h horderly hclean
  | endOfRIB => exact accounts_endOfRIB h horderly hclean
  | deadline => exact accounts_deadline h horderly hclean
  | refresh drop retry reinstall listing => exact accounts_refresh h (fun _ => horderly) listing
  | stop => exact accounts_stop h horderly.1 horderly.2
  | stopRetaining | sweepStale => exact horderly.elim

end

end Runs

/-- A session that begins with no route of its own in the kernel, or with
`KeepRoutes`. -/
inductive Opens (cfg : SessionConfig) : Session → Prop
  | clean (routes : Routes) (h : ∀ t ∈ cfg.tables, ∀ p, (t, p) ∉ routes) : Opens cfg (new routes)
  | kept (routes : Routes) (h : cfg.gracefulRestartSeconds ≠ 0) :
      Opens cfg ((new routes).keepRoutes cfg (.ok ()))

theorem Opens.at {cfg : SessionConfig} {s : Session} (h : Opens cfg s) (p : Dest) : At cfg s p := by
  cases h with
  | clean routes h =>
    exact Absent.at ⟨AList.notMem_empty p, AList.notMem_empty p, rfl, fun t ht => h t ht p,
      fun hp => absurd hp (AList.notMem_empty p)⟩
  | kept routes h =>
    exact keepRoutes_at (fun p => ⟨AList.notMem_empty p, AList.notMem_empty p,
      AList.notMem_empty p, rfl⟩) h rfl rfl p

/-- An operation whose kernel route operations succeed. -/
abbrev Operation := { e : Event // e.Orderly }

def operate (cfg : SessionConfig) (s : Session) (e : Operation) : Session := s.step cfg e.1

/-- In every run of a session without a spoiling path, the kernel has exactly
the accepted and the retained routes between the operations, and a retained
route leaves it only for the reasons there are. -/
theorem session_accounts (cfg : SessionConfig) (s : Session) (hs : Opens cfg s)
    (events : List Operation)
    (hclean : Each (operate cfg) (fun s e => Clean cfg s e.1) s events) :
    Always (operate cfg) (Accounted cfg) s events ∧
      Each (operate cfg) (fun s e => Lawful cfg s e.1) s events := by
  refine Each.invariant (I := fun s => ∀ p, At cfg s p) (fun s e h hc => ?_)
    (fun s h p => (h p).toAccountedAt) hs.at hclean
  exact ⟨(accounts h e.2 hc).accounted, (accounts h e.2 hc).lawful⟩

/-! ## A path without a next hop -/

/-- `::/0` -/
def anyDest : Dest := ⟨.ofAddr (Vector.replicate 16 0) 0, by decide⟩

/-- A session with one table that imports every prefix. -/
def oneTable : SessionConfig := ⟨"2001:db8::1", 120, [⟨anyDest, 0, 128⟩], [], [100], 50⟩

/-- The peer's best path for `::/0`. -/
def defaultPath (nextHop : Option NetipAddr) (h : ∀ a ∈ nextHop, a ≠ .invalid) : Path :=
  ⟨some anyDest, true, true, false, false, nextHop, h⟩

/-- One path in a batch of its own. -/
def batchOf (path : Path) : Operation :=
  ⟨.bestPaths [(path, .obliging)], fun x hx => by
    rw [List.mem_singleton.mp hx]
    exact ⟨fun _ _ => rfl, fun _ _ => rfl⟩⟩

def withHop : Path := defaultPath (some (.v6 (Vector.replicate 16 1) "")) (by simp)

def withoutHop : Path := defaultPath none (by simp)

def serverUp : Operation := ⟨.start (.ok ()), trivial⟩

theorem session_accounts_default :
    Opens oneTable (new ∅) ∧ Always (operate oneTable) (Accounted oneTable) (new ∅)
      [serverUp, batchOf withHop] := by
  have hopens : Opens oneTable (new ∅) := .clean ∅ fun _ _ _ => AList.notMem_empty _
  refine ⟨hopens, (session_accounts oneTable (new ∅) hopens [serverUp, batchOf withHop]
    ⟨trivial, fun _ => ⟨?_, trivial⟩, trivial⟩).1⟩
  rintro ⟨p, -, ⟨hnone, -⟩ | ⟨nextHop, -, hfails, -⟩⟩
  · cases hnone
  · cases hfails

/-- The peer's path for an accepted prefix is replaced by one without a next
hop: the prefix is rejected and stays accepted. -/
theorem rejected_while_accepted :
    Opens oneTable (new ∅) ∧ ¬ Always (operate oneTable) (Accounted oneTable) (new ∅)
      [serverUp, batchOf withHop, batchOf withoutHop] := by
  refine ⟨.clean ∅ fun _ _ _ => AList.notMem_empty _, fun h => ?_⟩
  have hlast := always_iff.mp h _ List.prefix_rfl anyDest
  exact hlast.notRejected (by decide +kernel) ⟨anyDest, .noNextHop⟩ (by decide +kernel) rfl

end Session

end Mwan.Bgp

import Mwan.L3Protocol.Bgp.Fib

/-!
# External BGP sessions (`bgp/session*.go`)

A session installs the best paths of one peer. Its maps record what the peer
announced: `accepted` is installed, `unresolved` waits for a gateway,
`retained` was left in the kernel by the previous process and stays until the
peer has sent its paths again. Every operation runs under the session's lock,
so an operation is one step; it carries the answers of the kernel, of the BGP
server and of its best-path listing.

`bgp/session_paths.go:25-153`, `session_retained.go:18-153`,
`session_refresh.go:10-79`, `session_restart.go:19-132`, `session.go:115-333`.

The deadline timer is an event with the generation it was armed for. Exports,
listeners and logs change no route and are left out.
-/
namespace Mwan.Bgp

open Mwan.Core
open Mwan.Npt (NetipAddr)

structure ImportRule where
  dest : Dest
  minLength : Nat
  maxLength : Nat
  deriving DecidableEq

/-- The fields of `SessionConfig` that the routes depend on. -/
structure SessionConfig where
  peerKey : String
  gracefulRestartSeconds : Nat
  importRules : List ImportRule
  exports : List Dest
  tables : List Int
  routeMetric : Nat

def SessionConfig.fib (cfg : SessionConfig) : FIBConfig := ⟨cfg.tables, cfg.routeMetric, true⟩

/-- mirrors session_policy.go:12-18, 37-40 -/
inductive Reason
  | exported
  | noRule
  | bounds (rule : ImportRule)
  | noNextHop
  | notInstall (errors : List FIBError)
  deriving DecidableEq

structure Rejection where
  dest : Dest
  reason : Reason
  deriving DecidableEq

def maxSessionRejections : Nat := 32

/-- mirrors session_policy.go:29-42 -/
def importLoop (p : Dest) : List ImportRule → Reason → Option Reason
  | [], reason => some reason
  | rule :: rules, reason =>
    if !inside rule.dest p then importLoop p rules reason
    else if rule.minLength ≤ p.1.length ∧ p.1.length ≤ rule.maxLength then none
    else importLoop p rules (.bounds rule)

/-- mirrors session_policy.go:20-43 -/
def importRejection (cfg : SessionConfig) (p : Dest) : Option Reason :=
  if p ∈ cfg.exports then some .exported else importLoop p cfg.importRules .noRule

/-- A path of the server: the prefix of an IPv6 unicast path (`none` for any
other path or text), whether a peer sent it, and its first valid next hop. -/
structure Path where
  dest : Option Dest
  fromPeer : Bool
  best : Bool
  withdrawal : Bool
  stale : Bool
  nextHop : Option NetipAddr
  valid : ∀ a ∈ nextHop, a ≠ .invalid

abbrev PrefixSet := AList fun _ : Dest => Unit

structure Session where
  fib : FIB
  armed : Bool
  started : Bool
  connected : Bool
  established : Bool
  accepted : AList fun _ : Dest => NetipAddr
  unresolved : AList fun _ : Dest => NetipAddr
  rejected : List Rejection
  retaining : Bool
  retained : PrefixSet
  retainGeneration : Nat

namespace Session

/-- `NewSession` beside the routes the kernel has -/
def new (routes : Routes) : Session where
  fib := ⟨∅, routes⟩
  armed := false
  started := false
  connected := false
  established := false
  accepted := ∅
  unresolved := ∅
  rejected := []
  retaining := false
  retained := ∅
  retainGeneration := 0

variable (cfg : SessionConfig) (k : Kernel)

/-! ## Best paths -/

/-- mirrors session_paths.go:137-142 -/
def removeAcceptedLocked (p : Dest) (s : Session) : Session :=
  { s with accepted := s.accepted.erase p
           fib := (s.fib.withdrawExact cfg.fib k cfg.peerKey p.1).2 }

/-- mirrors session_paths.go:144-153 -/
def rejectLocked (p : Dest) (reason : Reason) (s : Session) : Session :=
  let rejected := s.rejected.filter (·.dest ≠ p) ++ [⟨p, reason⟩]
  { s with rejected := rejected.drop (rejected.length - maxSessionRejections) }

/-- mirrors session_refresh.go:21-28 -/
def acceptLocked (p : Dest) (nextHop : NetipAddr) (s : Session) : Session :=
  { s with unresolved := s.unresolved.erase p
           retained := s.retained.erase p
           accepted := s.accepted.insert p nextHop
           rejected := s.rejected.filter (·.dest ≠ p) }

/-- mirrors session_refresh.go:30-37 -/
def failInstallLocked (p : Dest) (nextHop : NetipAddr) (errors : List FIBError) (s : Session) :
    Session :=
  let s := (s.removeAcceptedLocked cfg k p).rejectLocked p (.notInstall errors)
  { s with unresolved := s.unresolved.insert p nextHop }

/-- `s.fib.Apply` of the peer's path. -/
def applyFIB (p : Dest) (nextHop : NetipAddr) (s : Session) : List FIBError × FIB :=
  s.fib.apply cfg.fib k ⟨cfg.peerKey, p.1, nextHop, false⟩

/-- mirrors session_refresh.go:10-19 -/
def installLocked (p : Dest) (nextHop : NetipAddr) (s : Session) : Session :=
  match s.applyFIB cfg k p nextHop with
  | ([], fib) => { s with fib := fib }.acceptLocked p nextHop
  | (errors, fib) => { s with fib := fib }.failInstallLocked cfg k p nextHop errors

/-- The removal of a retained route: it stays recorded unless every deletion
succeeds.
mirrors session_retained.go:94-98, 116-120 -/
def withdrawRetained (p : Dest) (s : Session) : Session :=
  match s.fib.withdrawExact cfg.fib k cfg.peerKey p.1 with
  | ([], fib) => { s with fib := fib, retained := s.retained.erase p }
  | (_, fib) => { s with fib := fib }

/-- mirrors session_retained.go:112-122 -/
def withdrawRetainedLocked (p : Dest) (s : Session) : Bool × Session :=
  if p ∈ s.retained then
    let s' := s.withdrawRetained cfg k p
    (p ∉ s'.retained, s')
  else (false, s)

/-- mirrors session_paths.go:129-135 -/
def withdrawAcceptedLocked (p : Dest) (s : Session) : Session :=
  if p ∈ s.accepted then s.removeAcceptedLocked cfg k p else s

/-- mirrors session_paths.go:91-127 -/
def applyBestPathLocked (path : Path) (s : Session) : Session :=
  match path.dest with
  | none => s
  | some p =>
    if !path.fromPeer then s
    else if path.withdrawal then
      match { s with unresolved := s.unresolved.erase p }.withdrawRetainedLocked cfg k p with
      | (true, s) => s
      | (false, s) => s.withdrawAcceptedLocked cfg k p
    else if path.stale then s
    else match importRejection cfg p with
      | some reason => s.rejectLocked p reason
      | none =>
        match path.nextHop with
        | none => s.rejectLocked p .noNextHop
        | some nextHop => s.installLocked cfg k p nextHop

/-- The paths of a batch or a listing, each with the kernel's answers. -/
def applyBestPaths (paths : List (Path × Kernel)) (s : Session) : Session :=
  paths.foldl (fun s path => s.applyBestPathLocked cfg path.2 path.1) s

/-- mirrors session_paths.go:69-87 -/
def handleBestPaths (paths : List (Path × Kernel)) (s : Session) : Session :=
  if !s.started then s else s.applyBestPaths cfg paths

/-! ## Retained routes -/

/-- mirrors session_retained.go:93-99 -/
def dropLoop : List Dest → Session → Session
  | [], s => s
  | p :: ps, s => dropLoop ps (s.withdrawRetained cfg k p)

/-- mirrors session_retained.go:90-100 -/
def dropRetainedLocked (s : Session) : Session :=
  { s with retaining := false }.dropLoop cfg k s.retained.keys

/-- mirrors session_retained.go:75-84 -/
def endRetentionLocked (s : Session) : Session :=
  if !s.retaining then s else s.dropRetainedLocked cfg k

/-- What the server lists as best, as far as it is used.
mirrors session_retained.go:134-141 -/
def listed (paths : List (Path × Kernel)) : List (Path × Kernel) :=
  paths.filter fun path => path.1.best && !path.1.stale && !path.1.withdrawal

/-- The best-path listing of the server, which can fail. -/
abbrev Listing := Except String (List (Path × Kernel))

/-- mirrors session_retained.go:18-45 -/
def handleEndOfRIB (listing : Listing) (s : Session) : Session :=
  if !s.started then s
  else match listing with
    | .error _ => s
    | .ok paths => (s.applyBestPaths cfg (listed paths)).endRetentionLocked cfg k

/-- mirrors session_retained.go:51-71 -/
def endRetention (generation : Nat) (listing : Listing) (s : Session) : Session :=
  if !s.retaining || s.retainGeneration ≠ generation then s
  else match s.started, listing with
    | true, .ok paths => (s.applyBestPaths cfg (listed paths)).endRetentionLocked cfg k
    | _, _ => s.endRetentionLocked cfg k

/-- `Installed`: the prefixes with a route in an owned table.
mirrors fib.go:293-311 -/
def installed (s : Session) : List Dest :=
  (s.fib.routes.keys.filter (·.1 ∈ cfg.tables)).map (·.2)

/-- mirrors session_restart.go:19-52 -/
def keepRoutes (listing : Except String Unit) (s : Session) : Session :=
  match listing with
  | .error _ => s
  | .ok _ =>
    if cfg.gracefulRestartSeconds = 0 then s
    else if s.started || s.retaining then s
    else { s with retaining := true
                  retained := (s.installed cfg).foldl (fun set p => set.insert p ()) s.retained
                  retainGeneration := s.retainGeneration + 1 }

/-! ## The life of a session -/

/-- mirrors session.go:115-164; the server may fail to start -/
def start (server : Except String Unit) (s : Session) : Session :=
  if s.started then s
  else match server with
    | .error _ => s
    | .ok _ => { s with armed := true, started := true, connected := !s.retaining }

/-- mirrors session_restart.go:80-96 -/
def connect (server : Except String Unit) (s : Session) : Session :=
  if !s.started then s
  else if s.connected then s
  else match server with
    | .error _ => s
    | .ok _ => { s with connected := true }

/-- mirrors session_paths.go:25-67; the second answers are those of
`WithdrawPeer` -/
def handlePeerEvent (k' : Kernel) (established : Bool) (s : Session) : Session :=
  if !s.started then s
  else
    let s' := { s with established := established }
    if !established && s.established then
      let s' := { s' with accepted := ∅, unresolved := ∅ }.dropRetainedLocked cfg k
      { s' with fib := (s'.fib.withdrawPeer cfg.fib k' cfg.peerKey).2 }
    else s'

/-- mirrors session_refresh.go:52-60 -/
def retryLoop : List Dest → Session → Session
  | [], s => s
  | p :: ps, s =>
    match s.unresolved.lookup p with
    | none => retryLoop ps s
    | some nextHop =>
      match s.applyFIB cfg k p nextHop with
      | ([], fib) => retryLoop ps ({ s with fib := fib }.acceptLocked p nextHop)
      | (_, fib) => retryLoop ps ({ s with fib := fib }.removeAcceptedLocked cfg k p)

/-- mirrors session_refresh.go:65-72 -/
def failRejected (s : Session) (refused : Dest × List FIBError) : Session :=
  match s.accepted.lookup refused.1 with
  | none => s
  | some nextHop => s.failInstallLocked cfg k refused.1 nextHop refused.2

/-- mirrors session_refresh.go:40-79, with the answers for each of its
three parts -/
def refreshRoutes (retry refresh : Kernel) (listing : Except String Unit) (s : Session) : Session :=
  if !s.started then s
  else
    let s := if !s.retaining && s.retained.keys ≠ [] then s.dropRetainedLocked cfg k else s
    let s := s.retryLoop cfg retry s.unresolved.keys
    let (rejected, fib) := s.fib.refresh cfg.fib refresh listing
    rejected.foldl (failRejected cfg refresh) { s with fib := fib }

/-- mirrors session.go:319-333 -/
def resetStoppedLocked (s : Session) : Session :=
  { s with started := false, connected := false, retaining := false, established := false
           accepted := ∅, unresolved := ∅, retained := ∅ }

/-- mirrors session.go:285-315; the second answers are those of
`WithdrawPeer`, whose errors it returns -/
def stop (k' : Kernel) (s : Session) : List FIBError × Session :=
  if !s.started then ([], s)
  else
    let s := s.dropRetainedLocked cfg k
    let (errors, fib) := s.fib.withdrawPeer cfg.fib k' cfg.peerKey
    (errors, { s with fib := fib }.resetStoppedLocked)

/-- mirrors session_restart.go:103-132 -/
def stopRetaining (s : Session) : Session :=
  if cfg.gracefulRestartSeconds = 0 then s else if !s.started then s else s.resetStoppedLocked

/-- The routes of the listed tables that no accepted path asks for are deleted.
mirrors fib.go:165-215 -/
def sweepStale (listing : Int → Bool) (s : Session) : Session :=
  if !s.armed then s
  else
    let stale := s.fib.routes.keys.filter fun route =>
      route.1 ∈ cfg.tables ∧ listing route.1 ∧ route.2 ∉ s.fib.desired ∧
        ¬ k.deleteFails route.1 route.2
    { s with fib := { s.fib with routes := stale.foldl (fun m route => m.erase route) s.fib.routes } }

/-- One operation with its answers. -/
inductive Event
  | keepRoutes (listing : Except String Unit)
  | start (server : Except String Unit)
  | connect (server : Except String Unit)
  | peer (established : Bool) (drop withdraw : Kernel)
  | bestPaths (paths : List (Path × Kernel))
  | endOfRIB (listing : Listing) (drop : Kernel)
  | deadline (generation : Nat) (listing : Listing) (drop : Kernel)
  | refresh (drop retry refresh : Kernel) (listing : Except String Unit)
  | stop (drop withdraw : Kernel)
  | stopRetaining
  | sweepStale (listing : Int → Bool) (delete : Kernel)

def step (s : Session) : Event → Session
  | .keepRoutes listing => s.keepRoutes cfg listing
  | .start server => s.start server
  | .connect server => s.connect server
  | .peer established drop withdraw => s.handlePeerEvent cfg drop withdraw established
  | .bestPaths paths => s.handleBestPaths cfg paths
  | .endOfRIB listing drop => s.handleEndOfRIB cfg drop listing
  | .deadline generation listing drop => s.endRetention cfg drop generation listing
  | .refresh drop retry refresh listing => s.refreshRoutes cfg drop retry refresh listing
  | .stop drop withdraw => (s.stop cfg drop withdraw).2
  | .stopRetaining => s.stopRetaining cfg
  | .sweepStale listing delete => s.sweepStale cfg delete listing

end Session

end Mwan.Bgp

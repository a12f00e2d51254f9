import Mwan.L3Protocol.Dhcp.Lease
import Mwan.L3Protocol.Dhcp.Restart

/-!
# Saved leases (`gateway/internal/netif/lease_recovery.go`, `leasestore.go`)

A lease is saved with the readings of three clocks: the wall clock, the boot
the machine is in, and the time since that boot began. Loading it moves every
deadline by the time that has passed, by the boot clock within the same boot
and by the wall clock after a reboot.

The clocks are read at real times, counted in nanoseconds, on a `Host` whose
wall clock may be stepped at any moment. Saving reads the boot clock before
the wall clock, loading reads the wall clock first. A file keeps the wall
reading of a time only.

Results:
* `loadDHCPv4_times`, `loadDHCPv6_times`: a loaded lease is the saved one with
  its times moved by `rebaseLeaseDeadline`.
* `Cycle.keeps`: what one save and load leaves of a deadline.
* `recovery_never_extends`: over any number of saves and loads no deadline
  comes later in real time.
-/
namespace Mwan.Dhcp

open Mwan.Core Mwan.Core.Exec List

/-! ## Clock readings -/

/-- mirrors leasestore.go:35-39 -/
structure LeaseClockSnapshot where
  wallTime : Time
  bootID : String
  uptime : Int

inductive RecoveryError
  | readBootID
  | bootClock
  | invalidBootClockSnapshot
  | invalidLeaseClockSnapshot
  | uptimeMovedBackward
  | wallClockMovedBackward
  | interfaceMissing
  | connectionIDRequired
  | notAssigned
  | invalidAssignment
  | identityIncomplete
  | recordClockInvalid
  | identityMismatch
  | configurationMismatch
  | invalidOrExpired
  deriving DecidableEq

/-- The snapshot of the three readings; a boot ID that cannot be read is `none`,
and so is a boot clock that cannot be read. The order of the reads is in
`Host.snapshot`.
mirrors lease_recovery.go:103-124 -/
def leaseClockNow (bootID : Option String) (uptime : Option Int) (wallTime : Time) :
    Except RecoveryError LeaseClockSnapshot :=
  match bootID with
  | none => throw .readBootID
  | some id =>
    match uptime with
    | none => throw .bootClock
    | some uptime => do
      refuse (id = "") .invalidBootClockSnapshot
      pure { wallTime, bootID := id, uptime }

/-- mirrors lease_recovery.go:126-140 -/
def leaseElapsed (saved current : LeaseClockSnapshot) : Except RecoveryError Int := do
  refuse (saved.wallTime.isZero ∨ saved.bootID = "" ∨ saved.uptime < 0 ∨ current.uptime < 0)
    .invalidLeaseClockSnapshot
  if saved.bootID = current.bootID then
    refuse (current.uptime < saved.uptime) .uptimeMovedBackward
    pure (current.uptime - saved.uptime)
  else
    refuse (current.wallTime.before saved.wallTime) .wallClockMovedBackward
    pure (current.wallTime.sub saved.wallTime)

/-- mirrors lease_recovery.go:142-147 -/
def rebaseLeaseDeadline (saved current : LeaseClockSnapshot) (elapsed : Int) (deadline : Time) :
    Time :=
  if deadline.isZero then .zero
  else current.wallTime.add (wrap64 (deadline.sub saved.wallTime - elapsed))

/-! ## Records -/

inductive LeaseProtocol
  | dhcpv4
  | dhcpv6
  deriving DecidableEq

/-- mirrors leasestore.go:42-50 -/
structure LeaseRecord (payload : Type) where
  connectionID : String
  protocol : LeaseProtocol
  interfaceName : String
  linkHardwareAddr : List UInt8
  protocolIdentity : List UInt8
  clock : LeaseClockSnapshot
  payload : payload

/-- mirrors leasestore.go:282-293 -/
def validateLeaseRecord {payload : Type} (record : LeaseRecord payload) :
    Except RecoveryError Unit := do
  refuse (record.connectionID = "" ∨ record.interfaceName = "" ∨ record.linkHardwareAddr = [] ∨
    record.protocolIdentity = []) .identityIncomplete
  refuse (record.clock.wallTime.isZero ∨ record.clock.bootID = "" ∨ record.clock.uptime < 0)
    .recordClockInvalid

/-- The lease with its times moved. -/
def LeaseInfo.mapTimes (f : Time → Time) (lease : LeaseInfo) : LeaseInfo :=
  { lease with
    acquiredAt := f lease.acquiredAt
    renewAt := f lease.renewAt
    rebindAt := f lease.rebindAt
    expiresAt := f lease.expiresAt }

/-- The record read back from its file, `strip` on the payload. -/
def LeaseRecord.stored {payload : Type} (strip : payload → payload) (record : LeaseRecord payload) :
    LeaseRecord payload :=
  { record with
    clock := { record.clock with wallTime := record.clock.wallTime.strip }
    payload := strip record.payload }

/-- mirrors lease_recovery.go:149-154 -/
def dhcpv4RecoveryIdentity (clientID hardware : List UInt8) : List UInt8 :=
  if clientID ≠ [] then 1 :: clientID else 2 :: hardware

/-! ## Saving and loading -/

/-- What a saved DHCPv4 assignment must be like. -/
def assignable4 (lease : LeaseInfo) : Bool :=
  lease.ip.isSome && lease.prefixLen ≤ 32 && 0 < lease.leaseTime && !lease.acquiredAt.isZero &&
    !lease.expiresAt.before lease.acquiredAt

/-- The record written for a DHCPv4 lease; its payload is the lease without
its state, link, epoch and error, which loading sets anew.
mirrors lease_recovery.go:197-233 -/
def saveDHCPv4 (connectionID : String) (link : Option Interface)
    (clock : Except RecoveryError LeaseClockSnapshot) (clientID : List UInt8) (lease : LeaseInfo) :
    Except RecoveryError (LeaseRecord LeaseInfo) := do
  refuse (connectionID = "") .connectionIDRequired
  match link with
  | none => throw .interfaceMissing
  | some link =>
    let clock ← clock
    refuse (lease.state ≠ .bound ∧ lease.state ≠ .renewing ∧ lease.state ≠ .rebinding) .notAssigned
    refuse (assignable4 lease = false ∨ lease.expiresAt.after clock.wallTime = false ∨
      lease.err ≠ none ∨ lease.linkHardwareAddr ≠ link.hardwareAddr) .invalidAssignment
    let record :=
      { connectionID
        protocol := .dhcpv4
        interfaceName := link.name
        linkHardwareAddr := link.hardwareAddr
        protocolIdentity := dhcpv4RecoveryIdentity clientID link.hardwareAddr
        clock
        payload := lease }
    validateLeaseRecord record
    pure record

/-- mirrors lease_recovery.go:236-283, from the record
the store read -/
def loadDHCPv4 (record : LeaseRecord LeaseInfo) (link : Interface) (clientID : List UInt8)
    (clock : Except RecoveryError LeaseClockSnapshot) : Except RecoveryError LeaseInfo := do
  validateLeaseRecord record
  refuse (record.interfaceName ≠ link.name ∨ record.linkHardwareAddr ≠ link.hardwareAddr ∨
    record.protocolIdentity ≠ dhcpv4RecoveryIdentity clientID link.hardwareAddr) .identityMismatch
  let current ← clock
  let elapsed ← leaseElapsed record.clock current
  let lease :=
    { record.payload.mapTimes (rebaseLeaseDeadline record.clock current elapsed) with
      state := .bound
      linkIndex := link.index
      linkHardwareAddr := link.hardwareAddr
      invalidationEpoch := 0
      err := none }
  refuse (assignable4 lease = false ∨ lease.acquiredAt.after current.wallTime ∨
    lease.expiresAt.after current.wallTime = false) .invalidOrExpired
  pure lease

/-- The configuration a DHCPv6 lease was negotiated with. -/
def DHCPv6PDLease.config (lease : DHCPv6PDLease) : DHCPv6PDConfig where
  iface := lease.linkName
  duid := lease.duid
  iaid := lease.iaid
  ianaiaid := lease.ianaiaid
  requestAddress := lease.requestAddress
  requestPrefix := lease.requestPrefix
  hint := lease.hint
  waitForRA := lease.waitForRA
  useDNS := lease.useDNS

/-- mirrors lease_recovery.go:286-319; `now` is what the
clock of the check reads -/
def saveDHCPv6 (decodes : List UInt8 → Bool) (connectionID : String) (link : Option Interface)
    (clock : Except RecoveryError LeaseClockSnapshot) (now : Time) (lease : DHCPv6PDLease) :
    Except RecoveryError (LeaseRecord DHCPv6PDLease) := do
  refuse (connectionID = "") .connectionIDRequired
  match link with
  | none => throw .interfaceMissing
  | some link =>
    let clock ← clock
    refuse (lease.duid = [] ∨ compatibleDHCPv6Lease decodes lease.config link now lease = false ∨
      (latestDHCPv6Validity lease).after clock.wallTime = false) .invalidAssignment
    let record :=
      { connectionID
        protocol := .dhcpv6
        interfaceName := link.name
        linkHardwareAddr := link.hardwareAddr
        protocolIdentity := lease.duid
        clock
        payload := { lease with linkIndex := 0 } }
    validateLeaseRecord record
    pure record

/-- The stored lease was negotiated with this configuration. -/
def sameConfiguration (config : DHCPv6PDConfig) (lease : DHCPv6PDLease) : Bool :=
  lease.iaid = config.iaid && lease.ianaiaid = config.ianaiaid &&
    lease.requestAddress = config.requestAddress && lease.requestPrefix = config.requestPrefix &&
    lease.hint = config.hint && lease.waitForRA = config.waitForRA && lease.useDNS = config.useDNS

/-- mirrors lease_recovery.go:322-376, from the record
the store read; `now` is what the clock of the check reads -/
def loadDHCPv6 (decodes : List UInt8 → Bool) (record : LeaseRecord DHCPv6PDLease) (link : Interface)
    (config : DHCPv6PDConfig) (clock : Except RecoveryError LeaseClockSnapshot) (now : Time) :
    Except RecoveryError DHCPv6PDLease := do
  validateLeaseRecord record
  refuse (record.interfaceName ≠ link.name ∨ record.linkHardwareAddr ≠ link.hardwareAddr ∨
    record.protocolIdentity ≠ config.duid ∨ config.iface ≠ link.name) .identityMismatch
  refuse (record.payload.linkIndex ≠ 0 ∨ record.payload.duid ≠ record.protocolIdentity ∨
    sameConfiguration config record.payload = false) .configurationMismatch
  let current ← clock
  let elapsed ← leaseElapsed record.clock current
  let lease :=
    { record.payload.mapTimes (rebaseLeaseDeadline record.clock current elapsed) with
      linkIndex := link.index }
  refuse ((latestDHCPv6Validity lease).after current.wallTime = false ∨
    compatibleDHCPv6Lease decodes config link now lease = false) .invalidOrExpired
  pure lease

/-! ## The machine -/

structure Boot where
  id : String
  began : Int
  deriving DecidableEq

/-- What the clocks show at each real time. The wall clock may be stepped at any
moment, but not back to the zero time; two boots have two identifiers. -/
structure Host where
  wall : Int → Int
  boot : Int → Boot
  wallLate : ∀ t, 2 ^ 63 < wall t
  bootsDiffer : ∀ t u, (boot t).id = (boot u).id → boot t = boot u

namespace Host

variable (host : Host)

/-- The boot clock. -/
def uptime (t : Int) : Int := t - (host.boot t).began

/-- `time.Now()` -/
def now (t : Int) : Time := ⟨host.wall t, some (host.uptime t)⟩

/-- The readings of a save, the boot clock at the first and the wall clock at
the second time. -/
def saving (first second : Int) : Except RecoveryError LeaseClockSnapshot :=
  leaseClockNow (some (host.boot first).id) (some (host.uptime first)) (host.now second)

/-- The readings of a load, the wall clock at the first and the boot clock at
the second time. -/
def loading (first second : Int) : Except RecoveryError LeaseClockSnapshot :=
  leaseClockNow (some (host.boot second).id) (some (host.uptime second)) (host.now first)

theorem now_reading (t : Int) : (host.now t).Reading := ⟨host.wallLate t, rfl⟩

end Host

/-- When the clocks are read for one save and one load. -/
structure Moments (host : Host) where
  saveUptime : Int
  saveWall : Int
  loadWall : Int
  loadUptime : Int
  saveOrder : saveUptime ≤ saveWall
  between : saveWall ≤ loadWall
  loadOrder : loadWall ≤ loadUptime
  saveBoot : host.boot saveUptime = host.boot saveWall
  loadBoot : host.boot loadUptime = host.boot loadWall

/-- A lease of either protocol. -/
inductive Lease
  | v4 (lease : LeaseInfo)
  | v6 (lease : DHCPv6PDLease)

def LeaseInfo.times (lease : LeaseInfo) : List Time :=
  [lease.acquiredAt, lease.renewAt, lease.rebindAt, lease.expiresAt]

def Association.times {α : Type} (a : Association α) : List Time :=
  a.renewAt :: a.rebindAt :: a.items.flatMap fun item => [item.preferredUntil, item.validUntil]

def DHCPv6PDLease.times (lease : DHCPv6PDLease) : List Time :=
  lease.acquiredAt :: (lease.prefixes.times ++ lease.addresses.times)

/-- Every time of the lease. -/
def Lease.times : Lease → List Time
  | v4 lease => lease.times
  | v6 lease => lease.times

/-- A lease in the memory of a process, with the boot the process runs in. -/
structure Held where
  lease : Lease
  boot : Boot

/-- When a time of the process comes, in real time: its monotonic reading counts
from the beginning of the boot. -/
def Boot.realTime (boot : Boot) (t : Time) : Int := boot.began + t.mono.getD 0

/-- One save of a held lease and one load of it: both succeed. -/
inductive Cycle (host : Host) (m : Moments host) : Held → Held → Prop
  | v4 {connectionID : String} {link link' : Interface} {clientID clientID' : List UInt8}
      {lease lease' : LeaseInfo} {record : LeaseRecord LeaseInfo}
      (hsave : saveDHCPv4 connectionID (some link) (host.saving m.saveUptime m.saveWall) clientID
        lease = .ok record)
      (hload : loadDHCPv4 (record.stored (·.mapTimes Time.strip)) link' clientID'
        (host.loading m.loadWall m.loadUptime) = .ok lease') :
      Cycle host m ⟨.v4 lease, host.boot m.saveUptime⟩ ⟨.v4 lease', host.boot m.loadUptime⟩
  | v6 {decodes : List UInt8 → Bool} {connectionID : String} {link link' : Interface}
      {config : DHCPv6PDConfig} {now now' : Time} {lease lease' : DHCPv6PDLease}
      {record : LeaseRecord DHCPv6PDLease}
      (hsave : saveDHCPv6 decodes connectionID (some link) (host.saving m.saveUptime m.saveWall) now
        lease = .ok record)
      (hload : loadDHCPv6 decodes (record.stored (·.mapTimes Time.strip)) link' config
        (host.loading m.loadWall m.loadUptime) now' = .ok lease') :
      Cycle host m ⟨.v6 lease, host.boot m.saveUptime⟩ ⟨.v6 lease', host.boot m.loadUptime⟩

/-! ## A loaded lease is the saved one with its times moved -/

theorem leaseClockNow_eq_ok {id : String} {uptime : Int} {wallTime : Time}
    {snapshot : LeaseClockSnapshot}
    (h : leaseClockNow (some id) (some uptime) wallTime = .ok snapshot) :
    id ≠ "" ∧ snapshot = { wallTime, bootID := id, uptime } := by
  simp only [leaseClockNow, except_bind_eq_ok, refuse_eq_ok, exists_const, except_pure_eq_ok] at h
  exact h

@[simp] theorem LeaseInfo.times_mapTimes (lease : LeaseInfo) (f : Time → Time) :
    (lease.mapTimes f).times = lease.times.map f := rfl

@[simp] theorem Association.times_mapTimes {α : Type} (a : Association α) (f : Time → Time) :
    (a.mapTimes f).times = a.times.map f := by
  simp only [times, mapTimes, map_cons, flatMap_map, map_flatMap, map_nil]

@[simp] theorem DHCPv6PDLease.times_mapTimes (lease : DHCPv6PDLease) (f : Time → Time) :
    (lease.mapTimes f).times = lease.times.map f := by
  simp only [times, DHCPv6PDLease.mapTimes, Association.times_mapTimes, map_cons,
    map_append]

/-- The snapshots of a cycle and the time between them. -/
structure Elapsed (host : Host) (m : Moments host) (saved current : LeaseClockSnapshot)
    (elapsed : Int) : Prop where
  savedAt : saved = ⟨host.now m.saveWall, (host.boot m.saveUptime).id, host.uptime m.saveUptime⟩
  currentAt : current = ⟨host.now m.loadWall, (host.boot m.loadUptime).id, host.uptime m.loadUptime⟩
  between : leaseElapsed { saved with wallTime := saved.wallTime.strip } current = .ok elapsed

/-- How far a load moves a time. -/
def moved (saved current : LeaseClockSnapshot) (elapsed : Int) (t : Time) : Time :=
  rebaseLeaseDeadline { saved with wallTime := saved.wallTime.strip } current elapsed t.strip

variable {link : Interface} {clock : Except RecoveryError LeaseClockSnapshot}

theorem saveDHCPv4_eq_ok {connectionID : String} {clientID : List UInt8} {lease : LeaseInfo}
    {record : LeaseRecord LeaseInfo}
    (h : saveDHCPv4 connectionID (some link) clock clientID lease = .ok record) :
    clock = .ok record.clock ∧ record.payload = lease := by
  simp only [saveDHCPv4, except_bind_eq_ok, refuse_eq_ok, exists_const, except_pure_eq_ok] at h
  obtain ⟨_, snapshot, hclock, _, _, _, _, rfl⟩ := h
  exact ⟨hclock, rfl⟩

theorem loadDHCPv4_times {record : LeaseRecord LeaseInfo} {clientID : List UInt8}
    {lease : LeaseInfo} (h : loadDHCPv4 record link clientID clock = .ok lease) :
    ∃ current elapsed, clock = .ok current ∧ leaseElapsed record.clock current = .ok elapsed ∧
      lease.times = record.payload.times.map (rebaseLeaseDeadline record.clock current elapsed) := by
  simp only [loadDHCPv4, except_bind_eq_ok, refuse_eq_ok, exists_const, except_pure_eq_ok] at h
  obtain ⟨_, _, _, current, hclock, elapsed, helapsed, _, rfl⟩ := h
  exact ⟨current, elapsed, hclock, helapsed, rfl⟩

theorem saveDHCPv6_eq_ok {decodes : List UInt8 → Bool} {connectionID : String} {now : Time}
    {lease : DHCPv6PDLease} {record : LeaseRecord DHCPv6PDLease}
    (h : saveDHCPv6 decodes connectionID (some link) clock now lease = .ok record) :
    clock = .ok record.clock ∧ record.payload = { lease with linkIndex := 0 } := by
  simp only [saveDHCPv6, except_bind_eq_ok, refuse_eq_ok, exists_const, except_pure_eq_ok] at h
  obtain ⟨_, snapshot, hclock, _, _, _, rfl⟩ := h
  exact ⟨hclock, rfl⟩

theorem loadDHCPv6_times {decodes : List UInt8 → Bool} {record : LeaseRecord DHCPv6PDLease}
    {config : DHCPv6PDConfig} {now : Time} {lease : DHCPv6PDLease}
    (h : loadDHCPv6 decodes record link config clock now = .ok lease) :
    ∃ current elapsed, clock = .ok current ∧ leaseElapsed record.clock current = .ok elapsed ∧
      lease = { record.payload.mapTimes (rebaseLeaseDeadline record.clock current elapsed) with
        linkIndex := link.index } ∧
      compatibleDHCPv6Lease decodes config link now lease = true := by
  simp only [loadDHCPv6, except_bind_eq_ok, refuse_eq_ok, exists_const, except_pure_eq_ok] at h
  obtain ⟨_, _, _, _, current, hclock, elapsed, helapsed, hcompatible, rfl⟩ := h
  exact ⟨current, elapsed, hclock, helapsed, rfl, by simpa using (not_or.mp hcompatible).2⟩

variable {held held' : Held}

/-- The readings of a cycle and how they move every time of the lease. -/
theorem Cycle.times {host : Host} {m : Moments host} (h : Cycle host m held held') :
    ∃ saved current elapsed, Elapsed host m saved current elapsed ∧
      held.boot = host.boot m.saveUptime ∧ held'.boot = host.boot m.loadUptime ∧
      held'.lease.times = held.lease.times.map (moved saved current elapsed) := by
  cases h with
  | @v4 _ _ _ _ _ lease lease' record hsave hload =>
    obtain ⟨hsaved, hpayload⟩ := saveDHCPv4_eq_ok hsave
    obtain ⟨current, elapsed, hcurrent, helapsed, htimes⟩ := loadDHCPv4_times hload
    refine ⟨record.clock, current, elapsed,
      ⟨(leaseClockNow_eq_ok hsaved).2, (leaseClockNow_eq_ok hcurrent).2, helapsed⟩, rfl, rfl, ?_⟩
    simp only [Lease.times, htimes, LeaseRecord.stored, LeaseInfo.times_mapTimes, map_map,
      hpayload]
    rfl
  | @v6 _ _ _ _ _ _ _ lease lease' record hsave hload =>
    obtain ⟨hsaved, hpayload⟩ := saveDHCPv6_eq_ok hsave
    obtain ⟨current, elapsed, hcurrent, helapsed, rfl, _⟩ := loadDHCPv6_times hload
    refine ⟨record.clock, current, elapsed,
      ⟨(leaseClockNow_eq_ok hsaved).2, (leaseClockNow_eq_ok hcurrent).2, helapsed⟩, rfl, rfl, ?_⟩
    have hlink : ∀ (l : DHCPv6PDLease) (index : Int), { l with linkIndex := index }.times = l.times :=
      fun _ _ => rfl
    simp only [Lease.times, hlink, LeaseRecord.stored, DHCPv6PDLease.times_mapTimes, map_map,
      hpayload]
    rfl

/-! ## What is left of a deadline -/

section Cycle

variable {host : Host} (m : Moments host)

/-- What the wall clock says is left of a time when the lease is saved. -/
def left (t : Time) : Int := t.wall - host.wall m.saveWall

/-- The time between the save and the load: by the boot clock within a boot,
else by the wall clock. -/
def gap : Int :=
  if host.boot m.saveUptime = host.boot m.loadUptime then
    host.uptime m.loadUptime - host.uptime m.saveUptime
  else host.wall m.loadWall - host.wall m.saveWall

/-- No difference leaves the range of a 64-bit duration. -/
def Fits (t : Time) : Prop :=
  -2 ^ 63 ≤ left m t ∧ left m t < 2 ^ 63 ∧ -2 ^ 63 ≤ left m t - gap m ∧ gap m < 2 ^ 63

variable {m}

variable {saved : LeaseClockSnapshot}

variable {current : LeaseClockSnapshot} {elapsed : Int}

/-- The elapsed time of a load that succeeds is the gap; after a reboot the wall
clock is not behind the save. -/
theorem Elapsed.eq_gap (h : Elapsed host m saved current elapsed) :
    (gap m < 2 ^ 63 → elapsed = gap m) ∧ 0 ≤ gap m := by
  have hbetween := h.between
  rw [h.savedAt, h.currentAt] at hbetween
  simp only [leaseElapsed, except_bind_eq_ok, refuse_eq_ok, exists_const, except_ite_eq_ok,
    except_pure_eq_ok] at hbetween
  obtain ⟨_, ⟨hid, hforward, rfl⟩ | ⟨hid, hforward, rfl⟩⟩ := hbetween
  · have hboot := host.bootsDiffer _ _ hid
    rw [gap, if_pos hboot]
    exact ⟨fun _ => rfl, by omega⟩
  · have hboot : host.boot m.saveUptime ≠ host.boot m.loadUptime := fun heq => hid (by rw [heq])
    rw [gap, if_neg hboot]
    have hdiff : (host.now m.loadWall).diff (host.now m.saveWall).strip =
        host.wall m.loadWall - host.wall m.saveWall := rfl
    have hforward : 0 ≤ host.wall m.loadWall - host.wall m.saveWall := by
      simpa [Time.before, hdiff] using hforward
    refine ⟨fun hfits => ?_, hforward⟩
    rw [Time.sub, hdiff]
    exact saturate64_eq (by omega) hfits

variable {t : Time}

theorem moved_zero (ht : t.isZero = true) : moved saved current elapsed t = .zero := by
  have hstrip : t.strip.isZero = true := ht
  rw [moved, rebaseLeaseDeadline, if_pos hstrip]

/-- A time that is set is live after the load. -/
theorem moved_live (h : Elapsed host m saved current elapsed) (ht : t.isZero = false) :
    (moved saved current elapsed t).Live := by
  have hstrip : t.strip.isZero ≠ true := Bool.eq_false_iff.mp ht
  rw [moved, rebaseLeaseDeadline, if_neg hstrip, h.currentAt]
  exact (host.now_reading m.loadWall).add (wrap64_range _).1

/-- After the load, what was left of a time is left of it minus the gap. -/
theorem moved_eq (h : Elapsed host m saved current elapsed) (ht : t.isZero = false)
    (hfits : Fits m t) :
    moved saved current elapsed t = (host.now m.loadWall).add (left m t - gap m) := by
  obtain ⟨hmin, hmax, hresult, hgap⟩ := hfits
  obtain ⟨helapsed, hforward⟩ := h.eq_gap
  have hstrip : t.strip.isZero ≠ true := Bool.eq_false_iff.mp ht
  have hleft : t.strip.sub saved.wallTime.strip = left m t := by
    rw [Time.sub, h.savedAt]
    exact saturate64_eq hmin hmax
  rw [moved, rebaseLeaseDeadline, if_neg hstrip, hleft, helapsed hgap,
    wrap64_eq hresult (by omega), h.currentAt]

variable (m)

/-- What one save and one load do to the times of a lease: times that are not
set stay so; of every other one there is left what was left minus the uptime
that has passed, whatever the wall clock did, or after a reboot minus what has
passed on the wall clock, which is then not behind the save; and the times keep
their order. -/
structure CycleKeeps (held held' : Held) (f : Time → Time) : Prop where
  times : held'.lease.times = held.lease.times.map f
  zero : ∀ t ∈ held.lease.times, t.isZero = true → f t = .zero
  sameBoot : held.boot = held'.boot → ∀ t ∈ held.lease.times, t.isZero = false → Fits m t →
    (f t).wall - host.wall m.loadWall =
      left m t - (host.uptime m.loadUptime - host.uptime m.saveUptime)
  otherBoot : held.boot ≠ held'.boot →
    host.wall m.saveWall ≤ host.wall m.loadWall ∧
      ∀ t ∈ held.lease.times, t.isZero = false → Fits m t →
        (f t).wall - host.wall m.loadWall = left m t - (host.wall m.loadWall - host.wall m.saveWall)
  order : ∀ t ∈ held.lease.times, ∀ u ∈ held.lease.times, t.isZero = false → u.isZero = false →
    Fits m t → Fits m u → ((f t).before (f u) = true ↔ t.wall < u.wall)

variable {m}

theorem Cycle.keeps (h : Cycle host m held held') : ∃ f, CycleKeeps m held held' f := by
  obtain ⟨saved, current, elapsed, hbetween, hboot, hboot', htimes⟩ := h.times
  refine ⟨moved saved current elapsed, htimes, fun t _ => moved_zero, ?_, ?_, ?_⟩
  · intro hsame t _ ht hfits
    rw [hboot, hboot'] at hsame
    rw [moved_eq hbetween ht hfits, Time.add_wall, gap, if_pos hsame]
    change host.wall m.loadWall + _ - host.wall m.loadWall = _
    omega
  · intro hother
    rw [hboot, hboot'] at hother
    have hgap : gap m = host.wall m.loadWall - host.wall m.saveWall := if_neg hother
    have hforward := hbetween.eq_gap.2
    refine ⟨by omega, fun t _ ht hfits => ?_⟩
    rw [moved_eq hbetween ht hfits, Time.add_wall, hgap]
    change host.wall m.loadWall + _ - host.wall m.loadWall = _
    omega
  · intro t _ u _ ht hu hfits hfits'
    rw [moved_eq hbetween ht hfits, moved_eq hbetween hu hfits', Time.before_add_add, left, left]
    omega

/-! ## Any number of saves and loads -/

/-- The wall clock shows as much time left of the deadline as there is: it was
not stepped between the moment the deadline was computed and the save. -/
def Unstepped (m : Moments host) (boot : Boot) (t : Time) : Prop :=
  t.mono.isSome = true ∧ left m t = boot.realTime t - m.saveWall

/-- The deadlines are saved as they are, and where the machine is rebooted
before the load its wall clock has not lost time meanwhile. -/
structure Steady (m : Moments host) (held : Held) : Prop where
  deadlines : ∀ t ∈ held.lease.times, t.isZero = false → Unstepped m held.boot t ∧ Fits m t
  reboot : host.boot m.saveUptime ≠ host.boot m.loadUptime →
    m.loadWall - m.saveWall ≤ host.wall m.loadWall - host.wall m.saveWall

/-- A lease saved and loaded any number of times. -/
inductive Recoveries (host : Host) : Held → Held → Prop
  | refl (held : Held) : Recoveries host held held
  | cycle {first held held' : Held} {m : Moments host} (run : Recoveries host first held)
      (step : Cycle host m held held') (steady : Steady m held) : Recoveries host first held'

/-- No deadline comes later in real time than it was to come, those not set
stay so, and the order is kept. -/
structure NotExtended (first last : Held) (f : Time → Time) : Prop where
  times : last.lease.times = first.lease.times.map f
  zero : ∀ t ∈ first.lease.times, t.isZero = true → (f t).isZero = true
  nonzero : ∀ t ∈ first.lease.times, t.isZero = false → (f t).isZero = false
  notLater : ∀ t ∈ first.lease.times, t.isZero = false →
    last.boot.realTime (f t) ≤ first.boot.realTime t
  order : ∀ t ∈ first.lease.times, ∀ u ∈ first.lease.times, t.isZero = false → u.isZero = false →
    ((f t).before (f u) = true ↔ t.before u = true)

/-- A load of a deadline that was saved as it is does not put it off. -/
theorem moved_notLater (h : Elapsed host m saved current elapsed) {boot : Boot}
    (ht : t.isZero = false) (hunstepped : Unstepped m boot t) (hfits : Fits m t)
    (hreboot : host.boot m.saveUptime ≠ host.boot m.loadUptime →
      m.loadWall - m.saveWall ≤ host.wall m.loadWall - host.wall m.saveWall) :
    (host.boot m.loadUptime).realTime (moved saved current elapsed t) ≤ boot.realTime t := by
  have hleft := hunstepped.2
  have hreal : (host.boot m.loadUptime).realTime (moved saved current elapsed t) =
      m.loadWall + (left m t - gap m) := by
    rw [moved_eq h ht hfits, m.loadBoot]
    simp only [Boot.realTime, Time.add, Host.now, Host.uptime, Option.map_some, Option.getD_some]
    omega
  have hsave := m.saveOrder
  have hload := m.loadOrder
  rw [hreal]
  by_cases hboot : host.boot m.saveUptime = host.boot m.loadUptime
  · rw [gap, if_pos hboot, Host.uptime, Host.uptime, hboot]
    omega
  · have := hreboot hboot
    rw [gap, if_neg hboot]
    omega

theorem Cycle.notExtended (h : Cycle host m held held') (hsteady : Steady m held) :
    ∃ f, NotExtended held held' f := by
  obtain ⟨saved, current, elapsed, hbetween, hboot, hboot', htimes⟩ := h.times
  refine ⟨moved saved current elapsed, htimes, fun t _ ht => ?_, fun t _ ht => ?_, fun t hmem ht => ?_,
    fun t hmem u hmem' ht hu => ?_⟩
  · rw [moved_zero ht]
    rfl
  · exact (moved_live hbetween ht).isZero
  · obtain ⟨hunstepped, hfits⟩ := hsteady.deadlines t hmem ht
    rw [hboot']
    exact moved_notLater hbetween ht hunstepped hfits hsteady.reboot
  · obtain ⟨⟨hmono, hleft⟩, hfits⟩ := hsteady.deadlines t hmem ht
    obtain ⟨⟨hmono', hleft'⟩, hfits'⟩ := hsteady.deadlines u hmem' hu
    rw [moved_eq hbetween ht hfits, moved_eq hbetween hu hfits', Time.before_add_add, hleft, hleft']
    obtain ⟨a, ha⟩ := Option.isSome_iff_exists.mp hmono
    obtain ⟨b, hb⟩ := Option.isSome_iff_exists.mp hmono'
    simp only [Boot.realTime, ha, hb, Option.getD_some, Time.before, Time.diff_of_mono ha hb,
      decide_eq_true_eq]
    omega

theorem NotExtended.trans {first last : Held} {f g : Time → Time} (h : NotExtended first held f)
    (h' : NotExtended held last g) :
    NotExtended first last (g ∘ f) := by
  have hmem (t : Time) (ht : t ∈ first.lease.times) : f t ∈ held.lease.times := by
    rw [h.times]
    exact mem_map_of_mem ht
  refine ⟨?_, fun t ht hzero => ?_, fun t ht hne => ?_, fun t ht hne => ?_,
    fun t ht u hu hne hne' => ?_⟩
  · rw [h'.times, h.times, map_map]
  · exact h'.zero _ (hmem t ht) (h.zero t ht hzero)
  · exact h'.nonzero _ (hmem t ht) (h.nonzero t ht hne)
  · exact Int.le_trans (h'.notLater _ (hmem t ht) (h.nonzero t ht hne)) (h.notLater t ht hne)
  · exact (h'.order _ (hmem t ht) _ (hmem u hu) (h.nonzero t ht hne) (h.nonzero u hu hne')).trans
      (h.order t ht u hu hne hne')

/-- By induction on the saves and loads. -/
theorem Recoveries.notExtended {first last : Held} (h : Recoveries host first last) :
    ∃ f, NotExtended first last f := by
  induction h with
  | refl =>
    exact ⟨id, (map_id _).symm, fun _ _ h => h, fun _ _ h => h, fun _ _ _ => Int.le_refl _,
      fun _ _ _ _ _ _ => Iff.rfl⟩
  | cycle _ step steady ih =>
    obtain ⟨f, hf⟩ := ih
    obtain ⟨g, hg⟩ := step.notExtended steady
    exact ⟨g ∘ f, hf.trans hg⟩

end Cycle

/-- What one save and load do to a lease, and that over any number of them no
deadline is put off. -/
theorem recovery_never_extends (host : Host) :
    (∀ (m : Moments host) (held held' : Held), Cycle host m held held' →
      ∃ f, CycleKeeps m held held' f) ∧
    ∀ first last : Held, Recoveries host first last → ∃ f, NotExtended first last f :=
  ⟨fun _ _ _ h => h.keeps, fun _ _ h => h.notExtended⟩

/-! ### Two machines whose wall clock is set back -/

/-- The wall clock starts in 2025 and is set back by 500 seconds at the
thousandth second, when the machine may be rebooted. -/
def setBack (rebooted : Bool) : Host where
  wall t := 63885000000000000000 + max t 0 - if t < 1000 * second then 0 else 500 * second
  boot t := if rebooted ∧ 1000 * second ≤ t then ⟨"boot-b", 1000 * second⟩ else ⟨"boot-a", 0⟩
  wallLate t := by
    have hstep : (if t < 1000 * second then 0 else 500 * second) ≤ 500 * second := by
      split
      · decide
      · exact Int.le_refl _
    unfold second at *
    omega
  bootsDiffer t u h := by
    by_cases ht : rebooted = true ∧ 1000 * second ≤ t
    · by_cases hu : rebooted = true ∧ 1000 * second ≤ u
      · rw [if_pos ht, if_pos hu]
      · rw [if_pos ht, if_neg hu] at h
        exact absurd h (by decide)
    · by_cases hu : rebooted = true ∧ 1000 * second ≤ u
      · rw [if_neg ht, if_pos hu] at h
        exact absurd h (by decide)
      · rw [if_neg ht, if_neg hu]

/-- Saved at the nine hundredth, loaded at the sixteen hundredth second. -/
def acrossSetBack (rebooted : Bool) : Moments (setBack rebooted) where
  saveUptime := 900 * second
  saveWall := 900 * second
  loadWall := 1600 * second
  loadUptime := 1600 * second
  saveOrder := Int.le_refl _
  between := by decide
  loadOrder := Int.le_refl _
  saveBoot := rfl
  loadBoot := rfl

/-- A lease for two thousand seconds from the beginning. -/
def leaseOf2000 : LeaseInfo where
  state := .bound
  linkIndex := 2
  linkHardwareAddr := [2, 0, 0, 0, 0, 1]
  ip := some hostIP
  prefixLen := 24
  leaseTime := 2000 * second
  acquiredAt := (setBack false).now 0
  renewAt := ((setBack false).now 0).add (1000 * second)
  rebindAt := ((setBack false).now 0).add (1750 * second)
  expiresAt := ((setBack false).now 0).add (2000 * second)

/-- The lease is still loaded after a reboot at which the wall clock was set
back, and then ends five hundred seconds later than it was to end. -/
theorem setBack_reboot_extends : ∃ lease', Cycle (setBack true) (acrossSetBack true)
        ⟨.v4 leaseOf2000, (setBack true).boot (900 * second)⟩
        ⟨.v4 lease', (setBack true).boot (1600 * second)⟩ ∧
      ((setBack true).boot (900 * second)).realTime leaseOf2000.expiresAt = 2000 * second ∧
      ((setBack true).boot (1600 * second)).realTime lease'.expiresAt = 2500 * second := by
  exact ⟨_, @Cycle.v4 (setBack true) (acrossSetBack true) "wan" wan0 wan0 [] [] leaseOf2000 _ _
    rfl rfl, by decide, by decide⟩

instance (host : Host) (m : Moments host) (t : Time) : Decidable (Fits m t) :=
  inferInstanceAs (Decidable (_ ∧ _ ∧ _ ∧ _))

instance (host : Host) (m : Moments host) (boot : Boot) (t : Time) : Decidable (Unstepped m boot t) :=
  inferInstanceAs (Decidable (_ ∧ _))

theorem acrossSetBack_steady :
    Steady (acrossSetBack false) ⟨.v4 leaseOf2000, (setBack false).boot (900 * second)⟩ where
  deadlines := by decide
  reboot h := absurd rfl h

/-- Within one boot the same step changes nothing: the lease ends when it was
to end. -/
theorem setBack_sameBoot_not_extended :
    ∃ lease' f, NotExtended ⟨.v4 leaseOf2000, (setBack false).boot (900 * second)⟩
        ⟨.v4 lease', (setBack false).boot (1600 * second)⟩ f ∧
      ((setBack false).boot (1600 * second)).realTime lease'.expiresAt = 2000 * second := by
  have step := @Cycle.v4 (setBack false) (acrossSetBack false) "wan" wan0 wan0 [] [] leaseOf2000 _ _
    rfl rfl
  obtain ⟨f, hf⟩ := (recovery_never_extends (setBack false)).2 _ _
    (.cycle (.refl _) step acrossSetBack_steady)
  exact ⟨_, f, hf, by decide⟩

end Mwan.Dhcp

import Mwan.Core.Clock
import Mwan.Core.Exec

/-!
# Timers of a DHCPv4 lease (`gateway/internal/netif/dhcp.go`, `dhcp_bound.go`)

What the client makes of an ACK: `validateLease` accepts it, `leaseToInfo`
derives the renewal, rebinding and expiry times from the options, and
`renewalWaitDeadline` decides how long a held lease waits.

An ACK's options are the values the DHCP library decodes; a time option is a
32-bit number of seconds.

Results:
* `sevenEighths_cases`: where seven times a lease time wraps around.
* `leaseTimers_eq`: the pair of timers an ACK gives.
* `renewalWaitDeadline_not_after`: a held lease is never waited for past its
  expiry, nor past its rebinding time before it rebinds.
* `lease_timers_in_order_iff`: for which options the timers are in order.
-/
namespace Mwan.Dhcp

open Mwan.Core Mwan.Core.Exec

/-! ## Addresses and options -/

abbrev IPv4 := Vector UInt8 4

def ipv4Zero : IPv4 := #v[0, 0, 0, 0]

def ipv4Bcast : IPv4 := #v[255, 255, 255, 255]

/-- `IP.IsMulticast` of an IPv4 address: `224.0.0.0/4`. -/
def isMulticast (a : IPv4) : Bool := a[0] &&& 0xf0 = 0xe0

/-- An address that cannot be assigned to a host. -/
def unusable (a : IPv4) : Bool := a = ipv4Zero || isMulticast a || a = ipv4Bcast

/-- The leading ones of a mask, `none` where a one follows a zero. -/
def maskOnes : List Bool → Option Nat
  | [] => some 0
  | true :: rest => (maskOnes rest).map (· + 1)
  | false :: rest => if rest.all (! ·) then some 0 else none

/-- The bits of a byte, the most significant one first. -/
def byteBits (b : UInt8) : List Bool := (List.range 8).map fun k => (b.toNat >>> (7 - k)) % 2 = 1

/-- `IPMask.Size`: `0, 0` for a mask that is not ones before zeros. -/
def maskSize (mask : List UInt8) : Nat × Nat :=
  match maskOnes (mask.flatMap byteBits) with
  | some ones => (ones, 8 * mask.length)
  | none => (0, 0)

/-- mirrors dhcp.go:76-79; a destination is an address
and its prefix length -/
structure LeaseRoute where
  destination : IPv4 × Nat
  gateway : IPv4
  deriving DecidableEq

/-- What the client reads of an ACK. `classlessRoutes` is the decoded option
121, an error where its bytes do not decode. -/
structure Ack where
  yourIPAddr : Option IPv4
  subnetMask : Option (List UInt8)
  serverIdentifier : Option IPv4
  ipAddressLeaseTime : Option UInt32
  ipAddressRenewalTime : Option UInt32
  ipAddressRebindingTime : Option UInt32
  classlessRoutes : Option (Except String (List LeaseRoute))
  router : List IPv4
  dns : List IPv4

/-- A time option as a duration, the default where it is absent. -/
def seconds (option : Option UInt32) (default : Int) : Int :=
  match option with
  | none => default
  | some s => s.toNat * second

/-! ## The lease -/

/-- mirrors dhcp.go:40-51 -/
inductive LeaseState
  | init
  | selecting
  | requesting
  | bound
  | renewing
  | rebinding
  | expired
  deriving DecidableEq, Repr

/-- mirrors dhcp.go:82-99 -/
structure LeaseInfo where
  state : LeaseState
  linkIndex : Int := 0
  linkHardwareAddr : List UInt8 := []
  invalidationEpoch : UInt64 := 0
  ip : Option IPv4 := none
  prefixLen : Nat := 0
  gateway : Option IPv4 := none
  routes : List LeaseRoute := []
  dns : List IPv4 := []
  server : Option IPv4 := none
  leaseTime : Int := 0
  acquiredAt : Time
  renewAt : Time := .zero
  rebindAt : Time := .zero
  expiresAt : Time := .zero
  err : Option String := none

inductive LeaseError
  | missingACK
  | invalidAddress (address : Option IPv4)
  | missingSubnetMask
  | invalidSubnetMask
  | invalidServerIdentifier (server : Option IPv4)
  | missingLeaseTime
  | classlessRoutes (message : String)
  deriving DecidableEq

/-- mirrors dhcp.go:778-809; `none` for a missing ACK -/
def validateLease : Option Ack → Except LeaseError Unit
  | none => throw .missingACK
  | some ack => do
    refuse (ack.yourIPAddr.all unusable = true) (.invalidAddress ack.yourIPAddr)
    refuse (ack.subnetMask = none) .missingSubnetMask
    refuse (ack.subnetMask.any (fun mask => (maskSize mask).2 ≠ 32) = true) .invalidSubnetMask
    refuse (ack.serverIdentifier.all unusable = true)
      (.invalidServerIdentifier ack.serverIdentifier)
    refuse (seconds ack.ipAddressLeaseTime 0 ≤ 0) .missingLeaseTime
    match ack.classlessRoutes with
    | some (.error message) => throw (.classlessRoutes message)
    | _ => pure ()

/-- The default route's gateway among the classless routes. -/
def classlessGateway (routes : List LeaseRoute) : Option IPv4 :=
  (routes.find? fun route => route.destination.2 = 0).map (·.gateway)

/-- The routes and the default gateway of an ACK. -/
def leaseRoutes (ack : Ack) : List LeaseRoute × Option IPv4 :=
  match ack.classlessRoutes with
  | some decoded =>
    let routes := decoded.toOption.getD []
    (routes, classlessGateway routes)
  | none =>
    match ack.router with
    | [] => ([], none)
    | gateway :: _ => ([⟨(ipv4Zero, 0), gateway⟩], some gateway)

/-- `LeaseTime * 7 / 8` on 64-bit durations -/
def sevenEighths (leaseTime : Int) : Int := (wrap64 (leaseTime * 7)).tdiv 8

/-- The two timers of an ACK, from the options where they can be used and else
from the lease time.
mirrors dhcp.go:760-771 -/
def leaseTimers (ack : Ack) : Int × Int :=
  let leaseTime := seconds ack.ipAddressLeaseTime 0
  let t1 := seconds ack.ipAddressRenewalTime 0
  let t2 := seconds ack.ipAddressRebindingTime 0
  let t1 := if t1 ≤ 0 ∨ t1 ≥ leaseTime then leaseTime.tdiv 2 else t1
  let t2 := if t2 ≤ t1 ∨ t2 ≥ leaseTime then sevenEighths leaseTime else t2
  if t1 ≥ t2 then (leaseTime.tdiv 2, sevenEighths leaseTime) else (t1, t2)

/-- mirrors dhcp.go:726-776 -/
def leaseToInfo (state : LeaseState) (lease : Option Ack) (acquired requestedAt : Time) : LeaseInfo :=
  match lease with
  | none => { state, acquiredAt := acquired }
  | some ack =>
    { state
      ip := ack.yourIPAddr
      prefixLen := (ack.subnetMask.map fun mask => (maskSize mask).1).getD 0
      gateway := (leaseRoutes ack).2
      routes := (leaseRoutes ack).1
      dns := ack.dns.filter fun server => !unusable server
      server := ack.serverIdentifier
      leaseTime := seconds ack.ipAddressLeaseTime 0
      acquiredAt := acquired
      renewAt := requestedAt.add (leaseTimers ack).1
      rebindAt := requestedAt.add (leaseTimers ack).2
      expiresAt := requestedAt.add (seconds ack.ipAddressLeaseTime 0) }

/-! ## Waiting -/

def dhcpMinimumRetransmitWait : Int := 60 * second

/-- mirrors dhcp_bound.go:225-243 -/
def renewalWaitDeadline (renewTimeout : Int) (now : Time) (current : LeaseInfo) (state : LeaseState)
    (noResponse : Bool) : Time :=
  let deadline :=
    if state ≠ .bound then
      let wait :=
        if noResponse then
          let boundary := if state = .rebinding then current.expiresAt else current.rebindAt
          max ((boundary.sub now).tdiv 2) dhcpMinimumRetransmitWait
        else renewTimeout
      now.add wait
    else current.renewAt
  let deadline := Time.earlier deadline current.expiresAt
  if state ≠ .rebinding then Time.earlier deadline current.rebindAt else deadline

/-! ## What the timers are -/

theorem seconds_range (option : Option UInt32) :
    0 ≤ seconds option 0 ∧ seconds option 0 < 2 ^ 62 := by
  cases option with
  | none => exact ⟨Int.le_refl _, by decide⟩
  | some s =>
    have h := s.toNat_lt
    simp only [seconds, second]
    omega

/-- The renewal time before it is compared with the rebinding time. -/
def renewalTime (ack : Ack) : Int :=
  if seconds ack.ipAddressRenewalTime 0 ≤ 0 ∨
      seconds ack.ipAddressRenewalTime 0 ≥ seconds ack.ipAddressLeaseTime 0 then
    (seconds ack.ipAddressLeaseTime 0).tdiv 2
  else seconds ack.ipAddressRenewalTime 0

/-- The three ranges of a lease time's product with seven: it fits, it wraps
around once, or it wraps around twice, and is then negative. -/
theorem sevenEighths_cases {L : Int} (h₁ : 0 < L) (h₂ : L < 2 ^ 62) :
    (7 * L < 2 ^ 63 ∧ sevenEighths L = (7 * L).tdiv 8) ∨
    (2 ^ 63 ≤ 7 * L ∧ 7 * L < 2 ^ 64 + 2 ^ 63 ∧ sevenEighths L = (7 * L - 2 ^ 64).tdiv 8) ∨
    (2 ^ 64 + 2 ^ 63 ≤ 7 * L ∧ sevenEighths L ≤ 0) := by
  unfold sevenEighths
  have hcomm : L * 7 = 7 * L := Int.mul_comm L 7
  rw [hcomm]
  by_cases hfit : 7 * L < 2 ^ 63
  · rw [wrap64_eq (by omega) hfit]
    exact .inl ⟨hfit, rfl⟩
  by_cases honce : 7 * L < 2 ^ 64 + 2 ^ 63
  · rw [wrap64_of_add (y := 7 * L - 2 ^ 64) (by omega) (by omega) (by omega)]
    exact .inr (.inl ⟨by omega, honce, rfl⟩)
  · refine .inr (.inr ⟨by omega, ?_⟩)
    have htwice : wrap64 (7 * L) = 7 * L - 2 ^ 65 := by
      have hsum : 7 * L = 7 * L - 2 ^ 64 + ((2 ^ 64 : Nat) : Int) := by omega
      rw [hsum]
      unfold wrap64
      rw [Int.add_bmod_right]
      exact wrap64_of_add (by omega) (by omega) (by omega)
    rw [htwice, tdiv_eq_ite]
    split <;> omega

theorem sevenEighths_lt {L : Int} (h₁ : 0 < L) (h₂ : L < 2 ^ 62) : sevenEighths L < L := by
  rcases sevenEighths_cases h₁ h₂ with ⟨_, h⟩ | ⟨_, _, h⟩ | ⟨_, h⟩
  · rw [h, tdiv_eq_ite]
    split <;> omega
  · rw [h, tdiv_eq_ite]
    split <;> omega
  · omega

/-- The wrapped product is above half of the lease time only where it did not
wrap around. -/
theorem half_lt_sevenEighths_iff {L : Int} (h₁ : 8 ≤ L) (h₂ : L < 2 ^ 62) :
    L.tdiv 2 < sevenEighths L ↔ 7 * L < 2 ^ 63 := by
  rw [tdiv_eq_ite L 2, if_pos (by omega)]
  rcases sevenEighths_cases (by omega) h₂ with ⟨hfit, h⟩ | ⟨_, _, h⟩ | ⟨_, h⟩
  · rw [h, tdiv_eq_ite, if_pos (by omega)]
    omega
  · rw [h, tdiv_eq_ite]
    split <;> omega
  · omega

/-- The rebinding time that the renewal time is compared with. -/
def rebindingTime (ack : Ack) : Int :=
  if seconds ack.ipAddressRebindingTime 0 ≤ renewalTime ack ∨
      seconds ack.ipAddressRebindingTime 0 ≥ seconds ack.ipAddressLeaseTime 0 then
    sevenEighths (seconds ack.ipAddressLeaseTime 0)
  else seconds ack.ipAddressRebindingTime 0

theorem leaseTimers_eq (ack : Ack) :
    leaseTimers ack = if renewalTime ack ≥ rebindingTime ack then
      ((seconds ack.ipAddressLeaseTime 0).tdiv 2, sevenEighths (seconds ack.ipAddressLeaseTime 0))
    else (renewalTime ack, rebindingTime ack) := rfl

theorem leaseTimers_snd_lt {ack : Ack} (h : 0 < seconds ack.ipAddressLeaseTime 0) :
    (leaseTimers ack).2 < seconds ack.ipAddressLeaseTime 0 := by
  have hseven := sevenEighths_lt h (seconds_range _).2
  rw [leaseTimers_eq]
  split
  · exact hseven
  · show rebindingTime ack < _
    unfold rebindingTime
    omega

/-! ## The order of the timers -/

/-- The options give a usable pair, or seven times the lease time fits into a
duration, or the product wraps around to a value above the given renewal time. -/
def TimersFit (ack : Ack) : Prop :=
  let L := seconds ack.ipAddressLeaseTime 0
  let t1 := seconds ack.ipAddressRenewalTime 0
  let t2 := seconds ack.ipAddressRebindingTime 0
  (renewalTime ack < t2 ∧ t2 < L) ∨ 7 * L < 2 ^ 63 ∨ (0 < t1 ∧ t1 < L ∧ t1 < sevenEighths L)

instance (ack : Ack) : Decidable (TimersFit ack) :=
  inferInstanceAs (Decidable ((_ ∧ _) ∨ _ ∨ (_ ∧ _ ∧ _)))

/-- The timers are in order exactly where they fit. -/
theorem leaseTimers_ordered_iff {ack : Ack} (h : 0 < seconds ack.ipAddressLeaseTime 0) :
    0 < (leaseTimers ack).1 ∧ (leaseTimers ack).1 < (leaseTimers ack).2 ↔ TimersFit ack := by
  have hrange := (seconds_range ack.ipAddressLeaseTime).2
  have hL : 8 ≤ seconds ack.ipAddressLeaseTime 0 := by
    revert h
    cases ack.ipAddressLeaseTime <;> (simp only [seconds, second]; omega)
  have hhalf := half_lt_sevenEighths_iff hL hrange
  have hhalfpos : 0 < (seconds ack.ipAddressLeaseTime 0).tdiv 2 := by
    rw [tdiv_eq_ite, if_pos (by omega)]
    omega
  have ht1 := renewalTime.eq_1 ack
  have ht2 := rebindingTime.eq_1 ack
  rw [leaseTimers_eq, TimersFit]
  split
  · -- both are the defaults
    dsimp only
    omega
  · dsimp only
    omega

/-! ## The deadline of a held lease -/

/-- A lease whose rebinding time is not after its expiry is never waited for
past either. -/
theorem renewalWaitDeadline_not_after {renewTimeout : Int} {now : Time} {current : LeaseInfo}
    {state : LeaseState} {noResponse : Bool}
    (h : current.rebindAt.after current.expiresAt = false) :
    (renewalWaitDeadline renewTimeout now current state noResponse).after current.expiresAt
        = false ∧
      (state ≠ .rebinding →
        (renewalWaitDeadline renewTimeout now current state noResponse).after current.rebindAt
          = false) := by
  obtain ⟨deadline, hd⟩ : ∃ deadline, renewalWaitDeadline renewTimeout now current state noResponse =
    if state ≠ .rebinding then
      Time.earlier (Time.earlier deadline current.expiresAt) current.rebindAt
    else Time.earlier deadline current.expiresAt := ⟨_, rfl⟩
  rw [hd]
  by_cases hstate : state ≠ .rebinding
  · rw [if_pos hstate]
    refine ⟨?_, fun _ => Time.after_earlier_right _ _⟩
    rcases Time.earlier_cases (Time.earlier deadline current.expiresAt) current.rebindAt with
      hrebind | ⟨hexpiry, _⟩
    · rw [hrebind, h]
    · rw [hexpiry, Time.after_earlier_right]
  · rw [if_neg hstate]
    exact ⟨Time.after_earlier_right _ _, fun hne => absurd hne hstate⟩

/-- A bound lease is waited for until its renewal time where the timers are in
order. -/
theorem renewalWaitDeadline_bound {renewTimeout : Int} {now : Time} {current : LeaseInfo}
    {noResponse : Bool} (hexpiry : current.renewAt.after current.expiresAt = false)
    (hrebind : current.renewAt.after current.rebindAt = false) :
    renewalWaitDeadline renewTimeout now current .bound noResponse = current.renewAt := by
  have hstate : LeaseState.bound ≠ .rebinding := by decide
  simp only [renewalWaitDeadline, Time.earlier, ne_eq, not_true_eq_false, if_false, hexpiry,
    Bool.false_eq_true, hrebind, if_pos hstate]

/-- The timers of a fresh lease: they come in order after the request, the last
one is the end of the lease time, the deadline of the held lease is neither
past its expiry nor, before rebinding, past its rebinding time, and the bound
lease is due for renewal before it is due for rebinding. -/
structure TimersInOrder (renewTimeout : Int) (ack : Ack) (requestedAt : Time) (info : LeaseInfo) :
    Prop where
  renew : requestedAt.before info.renewAt = true
  rebind : info.renewAt.before info.rebindAt = true
  expire : info.rebindAt.before info.expiresAt = true
  expiry : info.expiresAt = requestedAt.add (seconds ack.ipAddressLeaseTime 0)
  deadline : ∀ now state noResponse,
    (renewalWaitDeadline renewTimeout now info state noResponse).after info.expiresAt = false ∧
      (state ≠ .rebinding →
        (renewalWaitDeadline renewTimeout now info state noResponse).after info.rebindAt = false)
  notDue : ∀ now noResponse,
    (renewalWaitDeadline renewTimeout now info .bound noResponse).before info.rebindAt = true

theorem lease_timers_in_order_iff (renewTimeout : Int) (ack : Ack) (state : LeaseState)
    (acquired requestedAt : Time) (h : validateLease (some ack) = .ok ()) :
    TimersInOrder renewTimeout ack requestedAt (leaseToInfo state (some ack) acquired requestedAt) ↔
      TimersFit ack := by
  have hpos : 0 < seconds ack.ipAddressLeaseTime 0 := by
    simp only [validateLease, except_bind_eq_ok, refuse_eq_ok, exists_const] at h
    omega
  have hlast := leaseTimers_snd_lt hpos
  rw [← leaseTimers_ordered_iff hpos]
  constructor
  · intro ordered
    exact ⟨(Time.before_self_add _ _).mp ordered.renew, (Time.before_add_add _ _ _).mp ordered.rebind⟩
  · rintro ⟨hfirst, hsecond⟩
    have hexpiry : (requestedAt.add (leaseTimers ack).2).after
        (requestedAt.add (seconds ack.ipAddressLeaseTime 0)) = false := by
      simp [← Bool.not_eq_true, Int.le_of_lt hlast]
    refine
      { renew := (Time.before_self_add _ _).mpr hfirst
        rebind := (Time.before_add_add _ _ _).mpr hsecond
        expire := (Time.before_add_add _ _ _).mpr hlast
        expiry := rfl
        deadline := fun now state noResponse => renewalWaitDeadline_not_after hexpiry
        notDue := fun now noResponse => ?_ }
    rw [renewalWaitDeadline_bound]
    · exact (Time.before_add_add _ _ _).mpr hsecond
    · simp [← Bool.not_eq_true, leaseToInfo, Int.le_of_lt (Int.lt_trans hsecond hlast)]
    · simp [← Bool.not_eq_true, leaseToInfo, Int.le_of_lt hsecond]

def hostIP : IPv4 := #v[192, 0, 2, 10]

def routerIP : IPv4 := #v[192, 0, 2, 1]

/-- An ACK with no renewal and rebinding times. -/
def ackOf (leaseTime : UInt32) : Ack where
  yourIPAddr := some hostIP
  subnetMask := some [255, 255, 255, 0]
  serverIdentifier := some routerIP
  ipAddressLeaseTime := some leaseTime
  ipAddressRenewalTime := none
  ipAddressRebindingTime := none
  classlessRoutes := none
  router := [routerIP]
  dns := []

/-- A request in 2025, with the monotonic clock at zero. -/
def requestTime : Time := ⟨1750000000000000000, some 0⟩

/-- A day's lease. -/
theorem day_lease_timers_in_order :
    TimersInOrder 0 (ackOf 86400) requestTime
      (leaseToInfo .bound (some (ackOf 86400)) requestTime requestTime) :=
  (lease_timers_in_order_iff 0 (ackOf 86400) .bound requestTime requestTime (by decide)).mpr
    (by decide)

/-- An infinite lease without timer options rebinds before it renews, and
before it was requested: seven times its length wraps around twice. -/
theorem infinite_lease_timers_out_of_order :
    validateLease (some (ackOf 0xffffffff)) = .ok () ∧
      (leaseToInfo .bound (some (ackOf 0xffffffff)) requestTime requestTime).rebindAt =
        requestTime.add (-853589635302387904) ∧
      ¬TimersInOrder 0 (ackOf 0xffffffff) requestTime
        (leaseToInfo .bound (some (ackOf 0xffffffff)) requestTime requestTime) := by
  refine ⟨by decide, by decide, fun ordered => ?_⟩
  exact absurd ordered.rebind (by decide)

end Mwan.Dhcp

import Mwan.L3Protocol.Dhcp.LeaseV6

/-!
# DHCPv6 leases across a restart (`gateway/internal/netif/dhcpv6.go`)

`compatibleDHCPv6Lease` runs on the lease that `parseDHCPv6` returned, maybe
after a restart; both read the same configuration, link and clock.

Results:
* `acceptedItems_spec`: what the loops over an association's options accept.
* `parseAssociation_sound`, `Obtained.sound`: every lease the client comes by
  has valid values with lifetimes in order.
* `parseAssociation_ordered_iff`: when the timers of a parsed association are in
  order. They are not where four times the shortest lifetime does not fit into
  a duration, or where an association the message leaves out is kept with its
  renewal put off past its rebinding time.
* `parsed_lease_survives_restart_iff`: the same for the check on the lease.
-/
namespace Mwan.Dhcp

open Mwan.Core Mwan.Core.Exec List
open Mwan.Npt (NetipAddr Prefix)

/-! ## The default timers -/

theorem ofSeconds_range {s : UInt32} (h : 0 < ofSeconds s) :
    second ≤ ofSeconds s ∧ ofSeconds s < 2 ^ 62 := by
  have hs := s.toNat_lt
  simp only [ofSeconds, second] at h ⊢
  omega

/-- Four times a lifetime fits, or wraps around to a negative number. -/
theorem fourFifths_cases {s : Int} (h₁ : 0 < s) (h₂ : s < 2 ^ 62) :
    (4 * s < 2 ^ 63 ∧ fourFifths s = 4 * s / 5) ∨ (2 ^ 63 ≤ 4 * s ∧ fourFifths s ≤ 0) := by
  unfold fourFifths
  have hcomm : s * 4 = 4 * s := Int.mul_comm s 4
  rw [hcomm]
  by_cases hfit : 4 * s < 2 ^ 63
  · rw [wrap64_eq (by omega) hfit, tdiv_eq_ite, if_pos (by omega)]
    exact .inl ⟨hfit, rfl⟩
  · rw [wrap64_of_add (y := 4 * s - 2 ^ 64) (by omega) (by omega) (by omega), tdiv_eq_ite]
    refine .inr ⟨by omega, ?_⟩
    split <;> omega

/-- The timers are durations after now, in order exactly where the message's
can be used or the default fits; the second one is before the end of the
shortest lifetime. -/
theorem dhcpv6Timers_spec (now : Time) (t1 t2 : Int) {shortest : Int} (h₁ : second ≤ shortest)
    (h₂ : shortest < 2 ^ 62) :
    ∃ a b, dhcpv6Timers now t1 t2 shortest = (now.add a, now.add b) ∧ 0 < a ∧ b < shortest ∧
      (a < b ↔ (0 < t1 ∧ t1 < t2 ∧ t2 < shortest) ∨ 4 * shortest < 2 ^ 63) := by
  unfold second at h₁
  unfold dhcpv6Timers
  split
  · next hunusable =>
    refine ⟨_, _, rfl, ?_⟩
    rw [tdiv_eq_ite, if_pos (by omega)]
    rcases fourFifths_cases (by omega) h₂ with ⟨hfit, h⟩ | ⟨hwrap, h⟩ <;> omega
  · next husable => exact ⟨t1, t2, rfl, by omega⟩

/-! ## The assignments of an option -/

variable {now : Time} {duplicate : ParseError} {iaid : UInt32}

section Association

variable {ρ α : Type} {accept : ρ → Option α} {valid : α → Bool}

/-- What the loop has found: valid values with lifetimes in order, and the
shortest of the valid lifetimes. -/
structure Accepted (valid : α → Bool) (now : Time) (found : List (Delegated α) × Int) : Prop where
  empty : found.2 = 0 ↔ found.1 = []
  range : found.2 ≠ 0 → second ≤ found.2 ∧ found.2 < 2 ^ 62
  items : ∀ item ∈ found.1, valid item.value = true ∧ ∃ p v, item.preferredUntil = now.add p ∧
    item.validUntil = now.add v ∧ p ≤ v ∧ found.2 ≤ v

theorem acceptedOption_eq_some {option : IAOption ρ} {item : Delegated α}
    (h : acceptedOption accept now option = some item) :
    accept option.value = some item.value ∧ 0 < ofSeconds option.validLifetime ∧
      ofSeconds option.preferredLifetime ≤ ofSeconds option.validLifetime ∧
      item.preferredUntil = now.add (ofSeconds option.preferredLifetime) ∧
      item.validUntil = now.add (ofSeconds option.validLifetime) := by
  unfold acceptedOption at h
  split at h
  · exact absurd h (by simp)
  · next hlifetimes =>
    obtain ⟨value, hvalue, rfl⟩ := Option.map_eq_some_iff.mp h
    exact ⟨hvalue, by omega, by omega, rfl, rfl⟩

section Accept

variable (haccept : ∀ x value, accept x = some value → valid value = true)

include haccept

theorem acceptStep_accepted {found : List (Delegated α) × Int} (h : Accepted valid now found) (option : IAOption ρ) :
    Accepted valid now (acceptStep accept now found option) := by
  unfold acceptStep
  split
  · exact h
  · next item hitem =>
    obtain ⟨hvalue, hpos, hle, hpreferred, hvalid⟩ := acceptedOption_eq_some hitem
    have hrange := ofSeconds_range hpos
    generalize ofSeconds option.validLifetime = lifetime at *
    have hshorter := shorter.eq_1 found.2 lifetime
    have hold := h.range
    have hnonzero : shorter found.2 lifetime ≠ 0 := by omega
    refine ⟨by simp [hnonzero], fun _ => by dsimp only; omega, fun other hother => ?_⟩
    · rcases mem_append.mp hother with hold | hnew
      · obtain ⟨hother, p, v, hp, hv, hpv, hsv⟩ := h.items other hold
        have hne : found.2 ≠ 0 := fun hzero => by simp [h.empty.mp hzero] at hold
        exact ⟨hother, p, v, hp, hv, hpv, by simp only []; omega⟩
      · obtain rfl := mem_singleton.mp hnew
        exact ⟨haccept _ _ hvalue, _, _, hpreferred, hvalid, hle, by simp only []; omega⟩

theorem acceptedItems_spec (ia : IA ρ) (now : Time) : Accepted valid now (acceptedItems accept ia now) := by
  unfold acceptedItems
  have hstart : Accepted valid now (([], 0) : List (Delegated α) × Int) :=
    ⟨by simp, fun h => absurd rfl h, fun item hitem => absurd hitem not_mem_nil⟩
  generalize (([], 0) : List (Delegated α) × Int) = found at hstart ⊢
  induction ia.options generalizing found with
  | nil => exact hstart
  | cons option options ih => exact ih _ (acceptStep_accepted haccept hstart option)

end Accept

/-! ## Associations the client comes by -/

/-- Valid values, with live times and preferred lifetimes within the valid
ones; the renewal time is live or not set. -/
structure Sound (valid : α → Bool) (a : Association α) : Prop where
  items : ∀ item ∈ a.items, valid item.value = true ∧ item.validUntil.Live ∧
    item.preferredUntil.after item.validUntil = false
  renewAt : a.renewAt = .zero ∨ a.renewAt.Live

theorem Sound.empty : Sound valid ({} : Association α) :=
  ⟨fun _ hitem => absurd hitem not_mem_nil, .inl rfl⟩

variable {a : Association α}

theorem Sound.alive (h : Sound valid a) (now : Time) : Sound valid (a.alive now) :=
  ⟨fun item hitem => h.items item (mem_of_mem_filter hitem), h.renewAt⟩

/-- The renewal of a kept association is put off to a live time after now. -/
theorem keptAssociation_renewAt {previous : Association α} (h : Sound valid previous)
    (hnow : now.Reading) :
    (keptAssociation (some previous) now).renewAt.Live ∧
      now.before (keptAssociation (some previous) now).renewAt = true := by
  have hwait : (0 : Int) < 30 * second := by decide
  have hlater : (now.add (30 * second)).Live := hnow.add (by decide)
  by_cases hbefore : previous.renewAt.before (now.add (30 * second)) = true
  · simp only [keptAssociation, hbefore, if_true]
    exact ⟨hlater, (Time.before_self_add _ _).mpr hwait⟩
  · simp only [keptAssociation, hbefore, if_false, Bool.false_eq_true]
    refine ⟨?_, Time.before_of_not_before_add hwait (Bool.eq_false_iff.mpr hbefore)⟩
    rcases h.renewAt with hzero | hlive
    · -- the zero time is before every live one
      rw [hzero] at hbefore
      exact absurd hlater.zero_before hbefore
    · exact hlive

variable {previous : Option (Association α)}

theorem Sound.kept (h : ∀ p ∈ previous, Sound valid p) (hnow : now.Reading) :
    Sound valid (keptAssociation previous now) := by
  cases previous with
  | none => exact .empty
  | some p => exact ⟨(h p rfl).items, .inr (keptAssociation_renewAt (h p rfl) hnow).1⟩

theorem Accepted.live (hnow : now.Reading) {found : List (Delegated α) × Int}
    (h : Accepted valid now found) :
    ∀ item ∈ found.1, valid item.value = true ∧ item.validUntil.Live ∧
      item.preferredUntil.after item.validUntil = false := by
  intro item hitem
  obtain ⟨hvalue, p, v, hp, hv, hpv, hle⟩ := h.items item hitem
  have hne : found.2 ≠ 0 := fun hzero => by simp [h.empty.mp hzero] at hitem
  have hrange := h.range hne
  refine ⟨hvalue, ?_, ?_⟩
  · rw [hv]
    refine hnow.add ?_
    unfold second at hrange
    omega
  · rw [hp, hv, ← Bool.not_eq_true, Time.after_add_add]
    omega

/-- A fresh association is empty, or holds what the loop accepted with timers
before the end of the shortest lifetime, in order exactly where the message's
can be used or the default fits. -/
theorem freshAssociation_cases (haccept : ∀ x value, accept x = some value → valid value = true)
    (association : IA ρ) (now : Time) :
    freshAssociation accept association now = {} ∧
        (successfulDHCPv6Status association.status = false ∨
          (acceptedItems accept association now).2 = 0) ∨
      ∃ found a b, acceptedItems accept association now = found ∧ Accepted valid now found ∧
        successfulDHCPv6Status association.status = true ∧ found.2 ≠ 0 ∧ 0 < a ∧ b < found.2 ∧
        (a < b ↔ (0 < ofSeconds association.t1 ∧
          ofSeconds association.t1 < ofSeconds association.t2 ∧
          ofSeconds association.t2 < found.2) ∨ 4 * found.2 < 2 ^ 63) ∧
        freshAssociation accept association now =
          { items := found.1, renewAt := now.add a, rebindAt := now.add b } := by
  unfold freshAssociation
  by_cases hstatus : successfulDHCPv6Status association.status = false
  · rw [if_pos hstatus]
    exact .inl ⟨rfl, .inl hstatus⟩
  · rw [if_neg hstatus]
    by_cases hzero : (acceptedItems accept association now).2 = 0
    · rw [if_pos hzero]
      exact .inl ⟨rfl, .inr hzero⟩
    · rw [if_neg hzero]
      have haccepted := acceptedItems_spec haccept association now
      obtain ⟨hmin, hmax⟩ := haccepted.range hzero
      obtain ⟨a, b, htimers, hpos, hlast, horder⟩ := dhcpv6Timers_spec now
        (ofSeconds association.t1) (ofSeconds association.t2) hmin hmax
      exact .inr ⟨_, a, b, rfl, haccepted, Bool.not_eq_false _ ▸ hstatus, hzero, hpos, hlast, horder,
        by rw [htimers]⟩

/-- A fresh association is sound, and has a renewal time if it assigns
something. -/
theorem Sound.fresh (haccept : ∀ x value, accept x = some value → valid value = true)
    (hnow : now.Reading) (association : IA ρ) :
    Sound valid (freshAssociation accept association now) ∧
      ((freshAssociation accept association now).items ≠ [] →
        (freshAssociation accept association now).renewAt.Live) := by
  rcases freshAssociation_cases haccept association now with
    ⟨hempty, _⟩ | ⟨found, a, b, _, haccepted, _, _, hpos, _, _, hfresh⟩
  · rw [hempty]
    exact ⟨Sound.empty, fun hitems => absurd rfl hitems⟩
  · have hlive : (now.add a).Live := hnow.add (by omega)
    rw [hfresh]
    exact ⟨⟨haccepted.live hnow, .inr hlive⟩, fun _ => hlive⟩

/-! ## When the timers are in order -/

/-- The message has the association. -/
def carried (iaid : UInt32) (ias : List (IA ρ)) : Bool := ias.any fun candidate => candidate.iaid = iaid

/-- The timers of an association that assigns something are in order, and the
second one is before the end of every assignment where the message had it. -/
def InOrder (now : Time) (inMessage : Bool) (a : Association α) : Prop :=
  a.items ≠ [] →
    (now.before a.renewAt = true ∧ a.renewAt.before a.rebindAt = true) ∧
      (inMessage = true → ∀ item ∈ a.items, a.rebindAt.before item.validUntil = true)

/-- An association the message leaves out is kept with a rebinding time after
its renewal is put off; one it has comes with usable timers, or four times the
shortest lifetime fits into a duration. -/
def associationFits (accept : ρ → Option α) (iaid : UInt32) (ias : List (IA ρ))
    (previous : Option (Association α)) (now : Time) : Bool :=
  match ias.filter fun candidate => candidate.iaid = iaid with
  | [] =>
    previous.all fun p => !(p.items.any fun item => now.before item.validUntil) ||
      (keptAssociation (some p) now).renewAt.before p.rebindAt
  | association :: _ =>
    let shortest := (acceptedItems accept association now).2
    !successfulDHCPv6Status association.status || shortest = 0 ||
      (0 < ofSeconds association.t1 ∧ ofSeconds association.t1 < ofSeconds association.t2 ∧
        ofSeconds association.t2 < shortest) || 4 * shortest < 2 ^ 63

variable {ias : List (IA ρ)} {result : Association α × Bool}

/-- Whether the message has the association decides between the two cases. -/
theorem parseAssociation_eq_ok
    (h : parseAssociation accept duplicate iaid ias previous now = .ok result) :
    (carried iaid ias = false ∧ (ias.filter fun candidate => candidate.iaid = iaid) = [] ∧
        result = (keptAssociation previous now, false)) ∨
      ∃ association, carried iaid ias = true ∧
        (ias.filter fun candidate => candidate.iaid = iaid) = [association] ∧
        result = (freshAssociation accept association now, true) := by
  simp only [parseAssociation, findAssociation] at h
  cases hfilter : ias.filter fun candidate => candidate.iaid = iaid with
  | nil =>
    have hnone : carried iaid ias = false := by
      simp only [filter_eq_nil_iff, decide_eq_true_eq] at hfilter
      simpa [carried] using hfilter
    simp only [hfilter, except_bind_eq_ok, except_pure_eq_ok] at h
    obtain ⟨found, rfl, hresult⟩ := h
    exact .inl ⟨hnone, rfl, (except_pure_eq_ok _ _).mp hresult⟩
  | cons association rest =>
    have hsome : carried iaid ias = true := by
      have hmem : association ∈ ias.filter fun candidate => candidate.iaid = iaid := by
        rw [hfilter]
        exact mem_cons_self
      exact any_eq_true.mpr ⟨association, mem_filter.mp hmem⟩
    simp only [hfilter, except_bind_eq_ok] at h
    obtain ⟨found, hfound, hresult⟩ := h
    cases rest with
    | nil =>
      obtain rfl := (except_pure_eq_ok _ _).mp hfound
      exact .inr ⟨association, hsome, rfl, (except_pure_eq_ok _ _).mp hresult⟩
    | cons => exact absurd hfound (except_throw_eq_ok _ _)

section

variable (haccept : ∀ x value, accept x = some value → valid value = true)
  (hprevious : ∀ p ∈ previous, Sound valid p) (hnow : now.Reading)
  (h : parseAssociation accept duplicate iaid ias previous now = .ok result)

include haccept hprevious hnow h

/-- A parsed association is sound. -/
theorem parseAssociation_sound : Sound valid result.1 := by
  rcases parseAssociation_eq_ok h with ⟨_, _, rfl⟩ | ⟨association, _, _, rfl⟩
  · exact .kept hprevious hnow
  · exact (Sound.fresh haccept hnow association).1

/-- A parsed association that assigns something has a renewal time. -/
theorem parseAssociation_renewAt (hitems : result.1.items ≠ []) : result.1.renewAt.Live := by
  rcases parseAssociation_eq_ok h with ⟨_, _, rfl⟩ | ⟨association, _, _, rfl⟩
  · cases previous with
    | none => exact absurd rfl hitems
    | some p => exact (keptAssociation_renewAt (hprevious p rfl) hnow).1
  · exact (Sound.fresh haccept hnow association).2 hitems

end

/-- A kept association is in order exactly where its rebinding time is after
the renewal that was put off. -/
theorem keptAssociation_inOrder_iff (hprevious : ∀ p ∈ previous, Sound valid p) (hnow : now.Reading)
    :
    InOrder now false ((keptAssociation previous now).alive now) ↔
      (previous.all fun p => !(p.items.any fun item => now.before item.validUntil) ||
        (keptAssociation (some p) now).renewAt.before p.rebindAt) = true := by
  cases previous with
  | none => simp [InOrder, keptAssociation, Association.alive]
  | some p =>
    have hrenew := (keptAssociation_renewAt (hprevious p rfl) hnow).2
    have hitems : (keptAssociation (some p) now).items = p.items := rfl
    have halive : ((keptAssociation (some p) now).alive now).items ≠ [] ↔
        (p.items.any fun item => now.before item.validUntil) = true := by
      simp [Association.alive, filter_eq_nil_iff, hitems]
    rw [InOrder, halive, Option.all_some, Bool.or_eq_true, Bool.not_eq_true',
      ← Bool.not_eq_true]
    constructor
    · intro hinOrder
      by_cases halive : (p.items.any fun item => now.before item.validUntil) = true
      · exact .inr (hinOrder halive).1.2
      · exact .inl halive
    · rintro (hdead | hrebind) halive
      · exact absurd halive hdead
      · exact ⟨⟨hrenew, hrebind⟩, fun hcarried => absurd hcarried (by simp)⟩

/-- A fresh association is in order exactly where its timers can be used or the
default ones fit. -/
theorem freshAssociation_inOrder_iff
    (haccept : ∀ x value, accept x = some value → valid value = true) (association : IA ρ) :
    InOrder now true ((freshAssociation accept association now).alive now) ↔
      successfulDHCPv6Status association.status = false ∨
        (acceptedItems accept association now).2 = 0 ∨
        (0 < ofSeconds association.t1 ∧ ofSeconds association.t1 < ofSeconds association.t2 ∧
          ofSeconds association.t2 < (acceptedItems accept association now).2) ∨
        4 * (acceptedItems accept association now).2 < 2 ^ 63 := by
  rcases freshAssociation_cases haccept association now with ⟨hempty, hreason⟩ |
    ⟨found, a, b, hfound, haccepted, hstatus, hne, hpos, hlast, horder, hfresh⟩
  · rw [hempty]
    refine iff_of_true (fun hitems => absurd rfl hitems) ?_
    rcases hreason with hstatus | hzero
    · exact .inl hstatus
    · exact .inr (.inl hzero)
  · have hmin := (haccepted.range hne).1
    have hvalid : ∀ item ∈ found.1, now.before item.validUntil = true := by
      intro item hitem
      obtain ⟨_, _, v, _, hv, _, hle⟩ := haccepted.items item hitem
      rw [hv, Time.before_self_add]
      unfold second at hmin
      omega
    have halive : (freshAssociation accept association now).alive now =
        { items := found.1, renewAt := now.add a, rebindAt := now.add b } := by
      rw [hfresh, Association.alive, filter_eq_self.mpr hvalid]
    have hitems : found.1 ≠ [] := fun hnil => hne (haccepted.empty.mpr hnil)
    rw [halive, hfound, ← horder]
    simp only [hstatus, Bool.true_eq_false, hne, false_or]
    constructor
    · intro hinOrder
      exact (Time.before_add_add _ _ _).mp (hinOrder hitems).1.2
    · intro hlt _
      refine ⟨⟨(Time.before_self_add _ _).mpr hpos, (Time.before_add_add _ _ _).mpr hlt⟩, ?_⟩
      intro _ item hitem
      obtain ⟨_, _, v, _, hv, _, hle⟩ := haccepted.items item hitem
      rw [hv]
      exact (Time.before_add_add _ _ _).mpr (by omega)

theorem parseAssociation_inOrder_iff
    (haccept : ∀ x value, accept x = some value → valid value = true)
    (hprevious : ∀ p ∈ previous, Sound valid p) (hnow : now.Reading)
    (h : parseAssociation accept duplicate iaid ias previous now = .ok result) :
    InOrder now (carried iaid ias) (result.1.alive now) ↔
      associationFits accept iaid ias previous now = true := by
  rcases parseAssociation_eq_ok h with ⟨hcarried, hfilter, rfl⟩ | ⟨association, hcarried, hfilter, rfl⟩
  · rw [hcarried, keptAssociation_inOrder_iff hprevious hnow]
    simp only [associationFits, hfilter]
  · rw [hcarried, freshAssociation_inOrder_iff haccept]
    simp only [associationFits, hfilter, Bool.or_eq_true, Bool.not_eq_true', decide_eq_true_eq]
    tauto

/-! ## The latest validity -/

/-- The fold over live times ends at a live time after now if it starts at one
or meets one. -/
theorem latest_spec (hnow : now.mono.isSome = true) (a : Association α)
    (ha : ∀ item ∈ a.items, item.validUntil.Live) (start : Time)
    (hstart : start = .zero ∨ start.Live) :
    (a.latest start = .zero ∨ (a.latest start).Live) ∧
      ((start.Live ∧ now.before start = true) ∨
          (∃ item ∈ a.items, now.before item.validUntil = true) →
        (a.latest start).Live ∧ now.before (a.latest start) = true) := by
  unfold Association.latest
  generalize a.items = items at ha ⊢
  -- the invariant goes through the start of the fold
  induction items generalizing start with
  | nil => exact ⟨hstart, fun h => h.resolve_right fun ⟨_, hitem, _⟩ => absurd hitem not_mem_nil⟩
  | cons item items ih =>
    have hitem := ha item mem_cons_self
    have ih := fun start hstart => ih start hstart fun other hother => ha other (.tail _ hother)
    rw [foldl_cons]
    by_cases hafter : item.validUntil.after start = true
    · rw [if_pos hafter]
      refine ⟨(ih _ (.inr hitem)).1, fun h => (ih _ (.inr hitem)).2 ?_⟩
      rcases h with ⟨hs, hbefore⟩ | ⟨other, hother, hbefore⟩
      · exact .inl ⟨hitem, Time.before_of_before_of_not_after hnow hs.mono hitem.mono hbefore
          (Time.not_after_of_after hs.mono hitem.mono hafter)⟩
      · rcases mem_cons.mp hother with rfl | hother
        · exact .inl ⟨hitem, hbefore⟩
        · exact .inr ⟨other, hother, hbefore⟩
    · rw [if_neg hafter]
      refine ⟨(ih _ hstart).1, fun h => (ih _ hstart).2 ?_⟩
      have hs : start.Live := hstart.resolve_left fun hzero => by
        rw [hzero] at hafter
        exact hafter hitem.after_zero
      rcases h with h | ⟨other, hother, hbefore⟩
      · exact .inl h
      · rcases mem_cons.mp hother with rfl | hother
        · exact .inl ⟨hs, Time.before_of_before_of_not_after hnow hitem.mono hs.mono hbefore
            (Bool.eq_false_iff.mpr hafter)⟩
        · exact .inr ⟨other, hother, hbefore⟩

/-- What remains of a sound association after expiry passes the checks on it
exactly where its timers are in order. -/
theorem validAssociation_iff (h : Sound valid a) (hrenew : a.items ≠ [] → a.renewAt.Live) :
    validAssociation valid a = true ↔ (a.items ≠ [] → a.renewAt.before a.rebindAt = true) := by
  have hall : (a.items.all fun item => valid item.value && !item.validUntil.isZero &&
      !item.preferredUntil.after item.validUntil) = true := by
    rw [List.all_eq_true]
    intro item hitem
    obtain ⟨hvalue, hlive, hpreferred⟩ := h.items item hitem
    simp [hvalue, hlive.isZero, hpreferred]
  rw [validAssociation, hall, Bool.true_and, Bool.or_eq_true, List.isEmpty_iff]
  by_cases hempty : a.items = []
  · simp [hempty]
  · simp [hempty, (hrenew hempty).isZero]

end Association

/-! ## Leases -/

/-- Both associations of the lease are sound. -/
structure SoundLease (lease : DHCPv6PDLease) : Prop where
  prefixes : Sound prefixIsValid lease.prefixes
  addresses : Sound addrIsValid lease.addresses

variable {lease : DHCPv6PDLease}

/-- A live assignment is valid at some time no later than the latest. -/
theorem before_latestDHCPv6Validity (h : SoundLease lease) (hnow : now.Reading)
    (halive : (∃ item ∈ lease.prefixes.items, now.before item.validUntil = true) ∨
      ∃ item ∈ lease.addresses.items, now.before item.validUntil = true) :
    now.before (latestDHCPv6Validity lease) = true := by
  obtain ⟨hkind, hprefixes⟩ := latest_spec hnow.mono lease.prefixes
    (fun item hitem => (h.prefixes.items item hitem).2.1) .zero (.inl rfl)
  obtain ⟨-, haddresses⟩ := latest_spec hnow.mono lease.addresses
    (fun item hitem => (h.addresses.items item hitem).2.1) _ hkind
  exact (haddresses (halive.imp (fun h => hprefixes (.inr h)) id)).2

theorem acceptedPrefix_valid (value : Option ParsedPrefix) (p : Prefix)
    (h : acceptedPrefix value = some p) : prefixIsValid p = true := by
  obtain ⟨parsed, _, hparsed⟩ := Option.bind_eq_some_iff.mp h
  split at hparsed
  · exact absurd hparsed (by simp)
  · cases hparsed
    exact parsed.2

theorem acceptedAddress_valid (slice : List UInt8) (a : NetipAddr)
    (h : acceptedAddress slice = some a) : addrIsValid a = true := by
  simp only [acceptedAddress] at h
  split at h
  · exact absurd h (by simp)
  · next hchecks =>
    cases h
    cases hslice : addrFromSlice slice with
    | invalid => simp [hslice, NetipAddr.is6] at hchecks
    | v4 | v6 => rfl

section Parse

variable {decodes : List UInt8 → Bool}

variable {message : Message decodes} {config : DHCPv6PDConfig}

variable {previous : Option DHCPv6PDLease} {link : Interface}

/-- What a successful parse went through. -/
theorem parseDHCPv6_eq_ok {expectedServer : List UInt8}
    (h : parseDHCPv6 message config expectedServer link previous now = .ok lease) :
    ∃ server prefixes addresses, message.serverID = some server ∧
      requested config.requestPrefix
        (parseDHCPv6PrefixAssociation message config.iaid previous now) = .ok prefixes ∧
      requested config.requestAddress
        (parseDHCPv6AddressAssociation message config.ianaiaid previous now) = .ok addresses ∧
      lease = expireDHCPv6Assignments
        (parsedLease message config link now server prefixes.1 addresses.1) now := by
  unfold parseDHCPv6 at h
  cases hserver : message.serverID with
  | none =>
    rw [hserver] at h
    exact absurd h (except_throw_eq_ok _ _)
  | some server =>
    rw [hserver] at h
    simp only [except_bind_eq_ok, refuse_eq_ok, exists_const, except_pure_eq_ok] at h
    obtain ⟨_, _, _, prefixes, hprefixes, addresses, haddresses, _, hlease⟩ := h
    exact ⟨server, prefixes, addresses, rfl, hprefixes, haddresses, hlease⟩

/-- The parsed association, or the empty one where it is not requested. -/
structure Parsed {α : Type} (valid : α → Bool) (request : Bool) (now : Time) (inMessage fits : Bool)
    (a : Association α) : Prop where
  sound : Sound valid a
  renewAt : a.items ≠ [] → a.renewAt.Live
  absent : request = false → a.items = []
  inOrder : InOrder now inMessage (a.alive now) ↔ (request = true → fits = true)

variable {α : Type} {found : List (Delegated α) × Int} {valid : α → Bool} {request : Bool}

theorem requested_parsed {ρ : Type} {accept : ρ → Option α}
    (haccept : ∀ x value, accept x = some value → valid value = true) {ias : List (IA ρ)}
    {previous : Option (Association α)} {result : Association α × Bool}
    (hprevious : ∀ p ∈ previous, Sound valid p) (hnow : now.Reading)
    (h : requested request (parseAssociation accept duplicate iaid ias previous now) = .ok result) :
    Parsed valid request now (carried iaid ias) (associationFits accept iaid ias previous now)
      result.1 := by
  cases request with
  | false =>
    obtain rfl := (except_pure_eq_ok _ _).mp h
    exact ⟨Sound.empty, fun hitems => absurd rfl hitems, fun _ => rfl,
      iff_of_true (fun hitems => absurd rfl hitems) (fun hfalse => absurd hfalse (by simp))⟩
  | true =>
    have h : parseAssociation accept duplicate iaid ias previous now = .ok result := h
    exact ⟨parseAssociation_sound haccept hprevious hnow h,
      parseAssociation_renewAt haccept hprevious hnow h, fun hfalse => absurd hfalse (by simp),
      (parseAssociation_inOrder_iff haccept hprevious hnow h).trans (by simp)⟩

/-! ## Leases the client comes by -/

/-- Dropping expired assignments changes neither who the lease is of nor when it
was acquired. -/
theorem expire_frame (lease : DHCPv6PDLease) (now : Time) :
    ∃ dns, (dns = lease.dns ∨ dns = []) ∧
      expireDHCPv6Assignments lease now =
        { lease with
          prefixes := lease.prefixes.alive now
          addresses := lease.addresses.alive now
          dns } := by
  simp only [expireDHCPv6Assignments]
  split
  · exact ⟨[], .inr rfl, rfl⟩
  · exact ⟨lease.dns, .inl rfl, rfl⟩

theorem SoundLease.expire (h : SoundLease lease) (now : Time) :
    SoundLease (expireDHCPv6Assignments lease now) := by
  obtain ⟨dns, -, hlease⟩ := expire_frame lease now
  rw [hlease]
  exact ⟨h.prefixes.alive now, h.addresses.alive now⟩

/-- The leases the client comes by: parsed from a message, with expired or
declined assignments dropped, merged, confirmed by a server, or recovered with
every time moved to a live one or left unset and then accepted by the check. -/
inductive Obtained (decodes : List UInt8 → Bool) : DHCPv6PDLease → Prop
  | parsed {message : Message decodes} {config : DHCPv6PDConfig} {expectedServer : List UInt8}
      {link : Interface} {previous : Option DHCPv6PDLease} {now : Time} {lease : DHCPv6PDLease}
      (hnow : now.Reading) (hprevious : ∀ p, previous = some p → Obtained decodes p)
      (h : parseDHCPv6 message config expectedServer link previous now = .ok lease) :
      Obtained decodes lease
  | expired {lease : DHCPv6PDLease} (h : Obtained decodes lease) (now : Time) :
      Obtained decodes (expireDHCPv6Assignments lease now)
  | merged {lease replacement : DHCPv6PDLease} (h : Obtained decodes lease)
      (hreplacement : Obtained decodes replacement) (missing : DHCPv6PDConfig) :
      Obtained decodes (mergeMissingDHCPv6 lease replacement missing)
  | declined {lease : DHCPv6PDLease} (h : Obtained decodes lease) (address : NetipAddr) :
      Obtained decodes (declineDHCPv6Address lease address)
  | confirmed {lease : DHCPv6PDLease} (h : Obtained decodes lease) (server : List UInt8)
      (index : Int) : Obtained decodes { lease with serverID := server, linkIndex := index }
  | recovered {lease : DHCPv6PDLease} (h : Obtained decodes lease) {f : Time → Time}
      (hf : ∀ t, f t = .zero ∨ (f t).Live) {config : DHCPv6PDConfig} {link : Interface} {now : Time}
      (hcompatible : compatibleDHCPv6Lease decodes config link now
        { lease.mapTimes f with linkIndex := link.index } = true) :
      Obtained decodes { lease.mapTimes f with linkIndex := link.index }

variable {a : Association α}

theorem Sound.of_valid {f : Time → Time} (hf : ∀ t, f t = .zero ∨ (f t).Live)
    (h : validAssociation valid (a.mapTimes f) = true) :
    Sound valid (a.mapTimes f) := by
  refine ⟨fun item hitem => ?_, hf _⟩
  simp only [validAssociation, Bool.and_eq_true, all_eq_true, Bool.not_eq_true'] at h
  obtain ⟨⟨hvalue, hvalid⟩, hpreferred⟩ := h.1 item hitem
  obtain ⟨stored, _, rfl⟩ := mem_map.mp hitem
  refine ⟨hvalue, ?_, hpreferred⟩
  rcases hf stored.validUntil with hzero | hlive
  · rw [hzero] at hvalid
    exact absurd (show Time.zero.isZero = false from hvalid) (by decide)
  · exact hlive

theorem parseDHCPv6_parsed (hnow : now.Reading) (hprevious : ∀ p, previous = some p → SoundLease p)
    {prefixes : Association Prefix × Bool} {addresses : Association NetipAddr × Bool}
    (hprefixes : requested config.requestPrefix
      (parseDHCPv6PrefixAssociation message config.iaid previous now) = .ok prefixes)
    (haddresses : requested config.requestAddress
      (parseDHCPv6AddressAssociation message config.ianaiaid previous now) = .ok addresses) :
    Parsed prefixIsValid config.requestPrefix now (carried config.iaid message.iapd)
        (associationFits acceptedPrefix config.iaid message.iapd (previous.map (·.prefixes)) now)
        prefixes.1 ∧
      Parsed addrIsValid config.requestAddress now (carried config.ianaiaid message.iana)
        (associationFits acceptedAddress config.ianaiaid message.iana (previous.map (·.addresses))
          now) addresses.1 := by
  constructor
  · refine requested_parsed acceptedPrefix_valid ?_ hnow hprefixes
    rintro p hp
    obtain ⟨lease, hlease, rfl⟩ := Option.map_eq_some_iff.mp hp
    exact (hprevious lease hlease).prefixes
  · refine requested_parsed acceptedAddress_valid ?_ hnow haddresses
    rintro p hp
    obtain ⟨lease, hlease, rfl⟩ := Option.map_eq_some_iff.mp hp
    exact (hprevious lease hlease).addresses

/-- Every lease the client comes by is sound. -/
theorem Obtained.sound (h : Obtained decodes lease) : SoundLease lease := by
  induction h with
  | parsed hnow _ h ih =>
    obtain ⟨server, prefixes, addresses, _, hprefixes, haddresses, rfl⟩ := parseDHCPv6_eq_ok h
    obtain ⟨hp, ha⟩ := parseDHCPv6_parsed hnow ih hprefixes haddresses
    exact SoundLease.expire ⟨hp.sound, ha.sound⟩ _
  | expired _ now ih => exact ih.expire now
  | merged _ _ missing ih ihReplacement =>
    simp only [mergeMissingDHCPv6]
    refine ⟨?_, ?_⟩
    · simp only []
      split
      · exact ihReplacement.prefixes
      · exact ih.prefixes
    · simp only []
      split
      · exact ihReplacement.addresses
      · exact ih.addresses
  | @declined lease _ address ih =>
    have hfewer : Sound addrIsValid { lease.addresses with
        items := lease.addresses.items.filter fun item => item.value ≠ address } :=
      ⟨fun item hitem => ih.addresses.items item (mem_of_mem_filter hitem),
        ih.addresses.renewAt⟩
    simp only [declineDHCPv6Address]
    split
    · split <;> exact ⟨ih.prefixes, hfewer⟩
    · exact ih
  | confirmed _ server index ih => exact ⟨ih.prefixes, ih.addresses⟩
  | recovered _ hf hcompatible _ =>
    simp only [compatibleDHCPv6Lease, validDHCPv6CachedDeadlines, Bool.and_eq_true] at hcompatible
    exact ⟨Sound.of_valid hf hcompatible.1.2.1.2, Sound.of_valid hf hcompatible.1.2.2⟩

/-! ## The check on a parsed lease -/

/-- The check accepts the lease, the timers of each association that assigns
something are in order, and where the message had the association its
rebinding time is before the end of every assignment. -/
structure SurvivesRestart (message : Message decodes) (config : DHCPv6PDConfig) (link : Interface)
    (now : Time) (lease : DHCPv6PDLease) : Prop where
  accepted : compatibleDHCPv6Lease decodes config link now lease = true
  prefixes : InOrder lease.acquiredAt (carried config.iaid message.iapd) lease.prefixes
  addresses : InOrder lease.acquiredAt (carried config.ianaiaid message.iana) lease.addresses

theorem dhcpv6DNS_usable (message : Message decodes) (enabled : Bool) :
    (enabled || (dhcpv6DNS message enabled).isEmpty) = true ∧
      (dhcpv6DNS message enabled).all dnsUsable = true := by
  cases enabled with
  | false => exact ⟨rfl, rfl⟩
  | true =>
    refine ⟨rfl, all_eq_true.mpr fun server hserver => ?_⟩
    exact (mem_filter.mp hserver).2

/-- An association with a live assignment has one that is valid now. -/
theorem alive_valid (h : (a.alive now).items ≠ []) :
    ∃ item ∈ (a.alive now).items, now.before item.validUntil = true := by
  obtain ⟨item, hitem⟩ := exists_mem_of_ne_nil _ h
  exact ⟨item, hitem, by simpa using (mem_filter.mp hitem).2⟩

variable {inMessage : Bool}

theorem Parsed.validAssociation {fits : Bool} (h : Parsed valid request now inMessage fits a)
    (horder : InOrder now inMessage (a.alive now)) :
    Dhcp.validAssociation valid (a.alive now) = true := by
  refine (validAssociation_iff (h.sound.alive now) fun hitems => h.renewAt fun hnil => hitems ?_).mpr
    fun hitems => (horder hitems).1.2
  simp [Association.alive, hnil]

theorem Parsed.requested {fits : Bool} (h : Parsed valid request now inMessage fits a) :
    request = true ∨ (a.alive now).items = [] := by
  cases request with
  | true => exact .inl rfl
  | false => exact .inr (by simp [Association.alive, h.absent rfl])

/-- The check accepts a parsed lease whose associations are in order. -/
theorem compatible_of_inOrder {server : List UInt8} (hserver : message.serverID = some server)
    (hnow : now.Reading) {prefixes : Association Prefix} {addresses : Association NetipAddr}
    {p₁ p₂ a₁ a₂ : Bool} (hp : Parsed prefixIsValid config.requestPrefix now p₁ p₂ prefixes)
    (ha : Parsed addrIsValid config.requestAddress now a₁ a₂ addresses)
    (hporder : InOrder now p₁ (prefixes.alive now)) (haorder : InOrder now a₁ (addresses.alive now))
    (hnonempty : (prefixes.alive now).items ≠ [] ∨ (addresses.alive now).items ≠ []) :
    compatibleDHCPv6Lease decodes config link now
      (expireDHCPv6Assignments (parsedLease message config link now server prefixes addresses) now)
        = true := by
  obtain ⟨hserverID, hdecodes⟩ := message.serverDecodes server hserver
  have hsound : SoundLease (parsedLease message config link now server prefixes addresses) :=
    ⟨hp.sound, ha.sound⟩
  have hlatest := before_latestDHCPv6Validity (hsound.expire now) hnow
  have hzero : now.isZero = false := by
    have := hnow.wall
    simp only [Time.isZero, decide_eq_false_iff_not]
    omega
  have hdns := dhcpv6DNS_usable message config.useDNS
  obtain ⟨dns, hdnsCases, hlease⟩ :=
    expire_frame (parsedLease message config link now server prefixes addresses) now
  have hdns' : (config.useDNS || dns.isEmpty) = true ∧ dns.all dnsUsable = true := by
    rcases hdnsCases with rfl | rfl
    · exact hdns
    · simp
  rw [hlease] at hlatest ⊢
  have hlatest := hlatest (hnonempty.imp alive_valid alive_valid)
  simp only [compatibleDHCPv6Lease, Bool.and_eq_true]
  refine ⟨⟨⟨⟨⟨⟨?client, ?times⟩, hdecodes⟩, ?prefixes⟩, ?addresses⟩, ?deadlines⟩, hlatest⟩
  case client => simp [sameClient, parsedLease]
  case times => simp [parsedLease, hserverID, hzero]
  case prefixes => simpa [parsedLease] using hp.requested
  case addresses => simpa [parsedLease] using ha.requested
  case deadlines =>
    simp only [validDHCPv6CachedDeadlines, Bool.and_eq_true]
    exact ⟨⟨hdns', hp.validAssociation hporder⟩, ha.validAssociation haorder⟩

/-- A lease the client parses is accepted after a restart, with its timers in
order, exactly where each association it asked for fits. -/
theorem parsed_lease_survives_restart_iff {message : Message decodes} {config : DHCPv6PDConfig}
    {expectedServer : List UInt8} {link : Interface} {previous : Option DHCPv6PDLease} {now : Time}
    {lease : DHCPv6PDLease} (hnow : now.Reading)
    (hprevious : ∀ p, previous = some p → Obtained decodes p)
    (h : parseDHCPv6 message config expectedServer link previous now = .ok lease)
    (hnonempty : lease.isEmpty = false) :
    SurvivesRestart message config link now lease ↔
      (config.requestPrefix = true →
        associationFits acceptedPrefix config.iaid message.iapd (previous.map (·.prefixes)) now
          = true) ∧
      (config.requestAddress = true →
        associationFits acceptedAddress config.ianaiaid message.iana (previous.map (·.addresses))
          now = true) := by
  obtain ⟨server, prefixes, addresses, hserver, hprefixes, haddresses, rfl⟩ := parseDHCPv6_eq_ok h
  obtain ⟨hp, ha⟩ := parseDHCPv6_parsed hnow (fun p heq => (hprevious p heq).sound) hprefixes haddresses
  rw [← hp.inOrder, ← ha.inOrder]
  obtain ⟨dns, _, hlease⟩ :=
    expire_frame (parsedLease message config link now server prefixes.1 addresses.1) now
  have hsome : (prefixes.1.alive now).items ≠ [] ∨ (addresses.1.alive now).items ≠ [] := by
    rw [hlease, DHCPv6PDLease.isEmpty, Bool.and_eq_false_iff, isEmpty_eq_false_iff,
      isEmpty_eq_false_iff] at hnonempty
    exact hnonempty
  constructor
  · intro hsurvives
    have hp' := hsurvives.prefixes
    have ha' := hsurvives.addresses
    rw [hlease] at hp' ha'
    exact ⟨hp', ha'⟩
  · rintro ⟨hporder, haorder⟩
    refine ⟨compatible_of_inOrder hserver hnow hp ha hporder haorder hsome, ?_, ?_⟩
    · rw [hlease]
      exact hporder
    · rw [hlease]
      exact haorder

end Parse

/-! ### A server that delegates a prefix -/

/-- `3d06:bad:b01::/48` -/
def delegatedPrefix : ParsedPrefix :=
  ⟨Prefix.ofAddr #v[0x3d, 0x06, 0x0b, 0xad, 0x0b, 0x01, 0, 0, 0, 0, 0, 0, 0, 0, 0, 0] 48, rfl⟩

/-- `3d06:bad:b01::8` -/
def delegatedAddress : List UInt8 :=
  [0x3d, 0x06, 0x0b, 0xad, 0x0b, 0x01, 0, 0, 0, 0, 0, 0, 0, 0, 0, 8]

def prefixIA (t1 t2 lifetime : UInt32) : IA (Option ParsedPrefix) :=
  ⟨1, t1, t2, none, [⟨some delegatedPrefix, lifetime, lifetime, none⟩]⟩

def addressIA (lifetime : UInt32) : IA (List UInt8) :=
  ⟨2, 0, 0, none, [⟨delegatedAddress, lifetime, lifetime, none⟩]⟩

def replyOf (iapd : List (IA (Option ParsedPrefix))) (iana : List (IA (List UInt8))) :
    Message fun _ => true where
  serverID := some [0, 3, 0, 1]
  serverDecodes := fun id hid => by
    cases hid
    exact ⟨by simp, rfl⟩
  clientID := some [0, 2, 0, 9]
  status := none
  iapd := iapd
  iana := iana
  dns := []

def bothRequested : DHCPv6PDConfig where
  iface := "wan0"
  duid := [0, 2, 0, 9]
  iaid := 1
  ianaiaid := 2
  requestAddress := true
  requestPrefix := true
  hint := none
  waitForRA := false
  useDNS := false

def wan0 : Interface := ⟨"wan0", 2, [2, 0, 0, 0, 0, 1]⟩

/-- A number of seconds after the process started, in 2025. -/
def secondsIn (n : Nat) : Time := ⟨63885000000000000000 + n * second, some (n * second)⟩

theorem secondsIn_reading (n : Nat) : (secondsIn n).Reading where
  wall := by
    simp only [secondsIn, second]
    omega
  mono := rfl

/-- The lease of a reply that has both associations for a hundred seconds. -/
def bothLease : DHCPv6PDLease :=
  expireDHCPv6Assignments (parsedLease (replyOf [prefixIA 50 80 100] [addressIA 100]) bothRequested
    wan0 (secondsIn 0) [0, 3, 0, 1]
    (freshAssociation acceptedPrefix (prefixIA 50 80 100) (secondsIn 0))
    (freshAssociation acceptedAddress (addressIA 100) (secondsIn 0))) (secondsIn 0)

theorem both_lease_survives_restart :
    SurvivesRestart (replyOf [prefixIA 50 80 100] [addressIA 100]) bothRequested wan0 (secondsIn 0)
      bothLease :=
  (parsed_lease_survives_restart_iff (secondsIn_reading 0) (fun _ h => absurd h (by simp))
    (show parseDHCPv6 (replyOf [prefixIA 50 80 100] [addressIA 100]) bothRequested [] wan0 none
      (secondsIn 0) = .ok bothLease from rfl) (by decide)).mpr
    ⟨fun _ => by decide, fun _ => by decide⟩

/-- Two leases the check rejects. The first is one with infinite lifetimes and
no timers: four times the lifetime wraps around, and the rebinding time is
before the renewal. The second comes from a renewal at the sixtieth second that
has only the address: the prefix is kept with its renewal put off to the
ninetieth second, after its rebinding time. -/
theorem parsed_leases_rejected :
    (∃ lease, parseDHCPv6 (replyOf [prefixIA 0 0 0xffffffff] []) bothRequested [] wan0 none
        (secondsIn 0) = .ok lease ∧ lease.isEmpty = false ∧
      lease.prefixes.rebindAt.before lease.prefixes.renewAt = true ∧
      compatibleDHCPv6Lease (fun _ => true) bothRequested wan0 (secondsIn 0) lease = false) ∧
    parseDHCPv6 (replyOf [prefixIA 50 80 100] [addressIA 100]) bothRequested [] wan0 none
      (secondsIn 0) = .ok bothLease ∧
    ∃ lease, parseDHCPv6 (replyOf [] [addressIA 100]) bothRequested [] wan0 (some bothLease)
        (secondsIn 60) = .ok lease ∧ lease.isEmpty = false ∧
      lease.prefixes.renewAt = secondsIn 90 ∧ lease.prefixes.rebindAt = secondsIn 80 ∧
      compatibleDHCPv6Lease (fun _ => true) bothRequested wan0 (secondsIn 60) lease = false :=
  ⟨⟨_, rfl, by decide, by decide, by decide⟩, rfl,
    ⟨_, rfl, by decide, by decide, by decide, by decide⟩⟩

end Mwan.Dhcp

import Mathlib.Data.List.TakeWhile
import Mwan.L3Protocol.Wan.Health

/-!
# The hysteresis of a health verdict

`advanceHealth` moves a verdict by the outcome of one cycle. Here is what the
verdict is after any history of cycles, the latest outcome first: it changes at
the end of a full run of equal outcomes and at the first pass, and the counters
are the length of the current run. A family's verdict is the same function of
the cycles that probed it.

Results:
* `statusAfter_tracks`: the counters, and how far each verdict is from the next;
* `statusAfter_change`: where a verdict changes;
* `verdict_hysteresis`: both, for providers and families.
-/
namespace Mwan.Health

open List

/-- The number of latest outcomes equal to `b`. -/
def streak (b : Bool) (outcomes : List Bool) : Nat := (outcomes.takeWhile (· == b)).length

/-- The status after the cycles of a provider, from `StateUnknown`. -/
def statusAfter (failures recoveries : Int) : List Bool → WanStatus
  | [] => ⟨.unknown, 0, 0⟩
  | passed :: past =>
    (advanceHealth (statusAfter failures recoveries past) passed failures recoveries).1

/-- The status of a family after cycles that probed it or not and passed or
not, from a missing map entry. -/
def familyAfter (cfg : Config) (wan : WAN) : List (Bool × Bool) → WanStatus
  | [] => .zero
  | (probed, passed) :: past => (advanceFamily cfg wan (familyAfter cfg wan past) probed passed).1

/-- The outcomes of the cycles that probed the family. -/
def probedOutcomes (cycles : List (Bool × Bool)) : List Bool :=
  (cycles.filter (·.1)).map (·.2)

/-- The verdict an outcome leads to. -/
def target (passed : Bool) : State := if passed then .healthy else .unhealthy

/-- How many equal outcomes it takes. -/
def threshold (failures recoveries : Int) (passed : Bool) : Int :=
  if passed then recoveries else failures

/-- A status as a function of the outcomes moves with full runs only. -/
structure Hysteresis (failures recoveries : Int) (status : List Bool → WanStatus) : Prop where
  /-- The verdict changes to the outcome's at the last of a full run of equal
  outcomes, and at the first pass. -/
  verdict : ∀ passed past, (status (passed :: past)).state =
    if (status past).state = .unknown ∧ passed = true ∨
        (status past).state ≠ target passed ∧
        (streak passed (passed :: past) : Int) = threshold failures recoveries passed
    then target passed else (status past).state
  /-- Between two changes lies a full run. -/
  fullRun : ∀ passed between first past,
    (status (first :: past)).state ≠ (status past).state →
    (status (passed :: (between ++ first :: past))).state ≠
      (status (between ++ first :: past)).state →
    ∃ rest, passed :: between =
      List.replicate (threshold failures recoveries passed).toNat passed ++ rest
  okCount : ∀ past, (status past).okCount = streak true past
  failCount : ∀ past, (status past).failCount = streak false past
  exclusive : ∀ past, ¬ (0 < (status past).okCount ∧ 0 < (status past).failCount)

/-! ## Streaks -/

@[simp] theorem streak_cons_self (b : Bool) (past : List Bool) :
    streak b (b :: past) = streak b past + 1 := by
  simp [streak]

/-- A streak that an older outcome ends lies in what came after it. -/
theorem streak_append {b : Bool} (later : List Bool) {past : List Bool} {first : Bool}
    (h : first = b → ∃ c ∈ later, c ≠ b) :
    ∃ rest, later = replicate (streak b (later ++ first :: past)) b ++ rest := by
  have hstreak : (later ++ first :: past).takeWhile (· == b) = later.takeWhile (· == b) := by
    rw [takeWhile_append]
    split
    · next hall =>
      have hfirst : first ≠ b := by
        intro heq
        obtain ⟨c, hc, hne⟩ := h heq
        rw [(takeWhile_sublist _).eq_of_length hall |>.symm] at hc
        exact hne (by simpa using mem_takeWhile_imp hc)
      rw [takeWhile_cons_of_neg (by simpa using hfirst), append_nil]
      exact ((takeWhile_sublist _).eq_of_length hall).symm
    · rfl
  refine ⟨later.dropWhile (· == b), ?_⟩
  rw [streak, hstreak, ← eq_replicate_iff.mpr ⟨rfl, fun c hc => ?_⟩,
    takeWhile_append_dropWhile]
  simpa using mem_takeWhile_imp hc

/-! ## One cycle -/

variable {failures recoveries : Int}

/-- What a status says of the outcomes, and how far it is from the next
verdict. -/
structure Tracks (failures recoveries : Int) (past : List Bool) (s : WanStatus) : Prop where
  okCount : s.okCount = streak true past
  failCount : s.failCount = streak false past
  valid : s.state ≠ .zero
  sound : s.state ≠ .unhealthy → s.failCount < failures
  sick : s.state = .unhealthy → s.okCount < recoveries

theorem statusAfter_tracks (hf : 0 < failures) (hr : 0 < recoveries) (past : List Bool) :
    Tracks failures recoveries past (statusAfter failures recoveries past) := by
  induction past with
  | nil => exact ⟨rfl, rfl, nofun, fun _ => hf, nofun⟩
  | cons passed past ih =>
    obtain ⟨hok, hfail, hvalid, hsound, hsick⟩ := ih
    have hvalid' := advanceHealth_valid hvalid passed failures recoveries
    cases passed with
    | true =>
      refine ⟨?_, by simp [statusAfter, advanceHealth, streak], hvalid', fun _ => hf, fun h => ?_⟩
      · simp [statusAfter, advanceHealth, hok]
      · simp only [statusAfter, advanceHealth, if_true] at h ⊢
        split at h
        · cases h
        · next hc => omega
    | false =>
      refine ⟨by simp [statusAfter, advanceHealth, streak], ?_, hvalid', fun h => ?_, fun _ => hr⟩
      · simp [statusAfter, advanceHealth, hfail]
      · simp only [statusAfter, advanceHealth, Bool.false_eq_true, if_false] at h ⊢
        split at h
        · exact absurd rfl h
        · next hc => omega

section

variable (hf : 0 < failures) (hr : 0 < recoveries) (passed : Bool) (past : List Bool)

include hf hr

/-- The verdict after one more cycle. -/
theorem statusAfter_state :
    (statusAfter failures recoveries (passed :: past)).state =
      if (statusAfter failures recoveries past).state = .unknown ∧ passed = true ∨
          (statusAfter failures recoveries past).state ≠ target passed ∧
          (streak passed (passed :: past) : Int) = threshold failures recoveries passed
      then target passed else (statusAfter failures recoveries past).state := by
  obtain ⟨hok, hfail, hvalid, hsound, hsick⟩ := statusAfter_tracks hf hr past
  cases passed with
  | true =>
    simp only [statusAfter, advanceHealth, if_true, target, threshold, streak_cons_self, and_true]
    generalize statusAfter failures recoveries past = s at *
    cases hs : s.state with
    | zero => exact absurd hs hvalid
    | unknown | healthy => simp
    | unhealthy =>
      have := hsick hs
      simp only [reduceCtorEq, false_or, ne_eq, not_false_eq_true, true_and]
      congr 1
      rw [eq_iff_iff]
      omega
  | false =>
    simp only [statusAfter, advanceHealth, Bool.false_eq_true, if_false, target, threshold,
      streak_cons_self, and_false, false_or]
    generalize statusAfter failures recoveries past = s at *
    by_cases hs : s.state = .unhealthy
    · simp [hs]
    · have := hsound hs
      congr 1
      rw [eq_iff_iff]
      constructor
      · intro h; exact ⟨hs, by omega⟩
      · rintro ⟨-, h⟩; omega

/-- A verdict that changes is the outcome's, after a full run or at the first
pass. -/
theorem statusAfter_change (h : (statusAfter failures recoveries (passed :: past)).state ≠
      (statusAfter failures recoveries past).state) :
    (statusAfter failures recoveries (passed :: past)).state = target passed ∧
    ((statusAfter failures recoveries past).state = .unknown ∨
      (streak passed (passed :: past) : Int) = threshold failures recoveries passed) := by
  rw [statusAfter_state hf hr] at h ⊢
  split at h
  · next hc => exact ⟨if_pos hc, hc.imp And.left And.right⟩
  · exact absurd rfl h


/-- While the outcomes stay those of the verdict, so does the verdict. -/
theorem statusAfter_stays (h : (statusAfter failures recoveries past).state = target passed)
    {later : List Bool} (hlater : ∀ c ∈ later, c = passed) :
    (statusAfter failures recoveries (later ++ past)).state = target passed := by
  induction later with
  | nil => exact h
  | cons c later ih =>
    have hc := hlater c mem_cons_self
    rw [cons_append, statusAfter_state hf hr, hc, ih fun d hd => hlater d (.tail _ hd)]
    exact ite_self _

/-- Past its first change a verdict is known. -/
theorem statusAfter_known (h : (statusAfter failures recoveries past).state ≠ .unknown)
    (later : List Bool) : (statusAfter failures recoveries (later ++ past)).state ≠ .unknown := by
  induction later with
  | nil => exact h
  | cons c later ih =>
    rw [cons_append, statusAfter_state hf hr]
    split
    · cases c <;> simp [target]
    · exact ih

/-- Between two changes lies a full run of the outcomes that made the second. -/
theorem statusAfter_fullRun {between : List Bool} {first : Bool}
    (hfirst : (statusAfter failures recoveries (first :: past)).state ≠
      (statusAfter failures recoveries past).state)
    (hsecond : (statusAfter failures recoveries (passed :: (between ++ first :: past))).state ≠
      (statusAfter failures recoveries (between ++ first :: past)).state) :
    ∃ rest, passed :: between =
      replicate (threshold failures recoveries passed).toNat passed ++ rest := by
  have htarget := (statusAfter_change hf hr first past hfirst).1
  have hknown : (statusAfter failures recoveries (first :: past)).state ≠ .unknown := by
    rw [htarget]
    cases first <;> simp [target]
  obtain ⟨hmoved, hrun⟩ := statusAfter_change hf hr passed _ hsecond
  have hrun := hrun.resolve_left (statusAfter_known hf hr (first :: past) hknown between)
  rw [← hrun, Int.toNat_natCast]
  refine streak_append (passed :: between) fun heq => ?_
  -- the run would reach back to the first change, which then was the same one
  by_contra hall
  simp only [not_exists, not_and, ne_eq, not_not] at hall
  refine hsecond (hmoved.trans (statusAfter_stays hf hr passed _ ?_ fun c hc =>
    hall c (.tail _ hc)).symm)
  rw [htarget, heq]

end

/-! ## Families -/

theorem orUnknown_of_valid {s : WanStatus} (h : s.state ≠ .zero) : s.orUnknown = s := by
  obtain ⟨state, okCount, failCount⟩ := s
  cases state <;> simp_all [WanStatus.orUnknown, State.valid]

/-- A cycle that does not probe a family leaves it as it is; the others move it
as they would move a provider. -/
theorem familyAfter_eq (cfg : Config) (wan : WAN) (cycles : List (Bool × Bool)) :
    (familyAfter cfg wan cycles).orUnknown = statusAfter (wan.resolvedFailureThreshold cfg)
      (wan.resolvedRecoveryThreshold cfg) (probedOutcomes cycles) := by
  induction cycles with
  | nil => rfl
  | cons cycle past ih =>
    obtain ⟨probed, passed⟩ := cycle
    cases probed with
    | false => exact ih
    | true =>
      have hvalid := advanceHealth_valid (orUnknown_state (familyAfter cfg wan past)).1 passed
        (wan.resolvedFailureThreshold cfg) (wan.resolvedRecoveryThreshold cfg)
      refine (orUnknown_of_valid hvalid).trans ?_
      rw [ih]
      rfl

/-- With any positive thresholds a provider's verdict moves with full runs of
equal outcomes and at the first pass only, and so does a family's with the
outcomes of the cycles that probed it. -/
theorem verdict_hysteresis (hf : 0 < failures) (hr : 0 < recoveries) :
    Hysteresis failures recoveries (statusAfter failures recoveries) ∧
    ∀ cfg wan cycles, wan.resolvedFailureThreshold cfg = failures →
      wan.resolvedRecoveryThreshold cfg = recoveries →
      (familyAfter cfg wan cycles).orUnknown =
        statusAfter failures recoveries (probedOutcomes cycles) := by
  refine ⟨?_, fun cfg wan cycles hfailures hrecoveries => ?_⟩
  · constructor
    case verdict => exact statusAfter_state hf hr
    case fullRun => exact fun passed between first past => statusAfter_fullRun hf hr passed past
    case okCount => exact fun past => (statusAfter_tracks hf hr past).okCount
    case failCount => exact fun past => (statusAfter_tracks hf hr past).failCount
    case exclusive =>
      intro past h
      rw [(statusAfter_tracks hf hr past).okCount, (statusAfter_tracks hf hr past).failCount] at h
      cases past with
      | nil => exact absurd h.1 (by decide)
      | cons passed => cases passed <;> simp [streak] at h
  · rw [← hfailures, ← hrecoveries]
    exact familyAfter_eq cfg wan cycles

/-- Three failures make a provider unhealthy and two passes bring it back. -/
theorem verdict_hysteresis_three :
    (statusAfter 3 2 [false, false, false, true]).state = .unhealthy ∧
    (statusAfter 3 2 [true, true, false, false, false, true]).okCount = 2 :=
  ⟨(@verdict_hysteresis 3 2 (by decide) (by decide)).1.verdict false [false, false, true],
    (@verdict_hysteresis 3 2 (by decide) (by decide)).1.okCount _⟩

end Mwan.Health

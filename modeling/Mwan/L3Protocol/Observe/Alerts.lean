import Mathlib.Data.List.Basic
import Mathlib.Logic.Function.Basic
import Mwan.Core.Clock
import Mwan.Core.Machine

/-!
# Alerts and their recoveries (`notify/manager.go`)

The manager remembers for each kind and key whether the alert is active, when a
line was emitted last and at what level. A `Notify` that finds the alert not
active opens an episode; `Resolve`, or a `Notify` that is a recovery, closes it.

Results:
* `episodes_well_formed`: what a call emits depends on the earlier calls for the
  same plain alert only: the first `Notify` of an episode emits the transition line, a
  later one a repeat if the interval has passed, and `Resolve` a recovery;
* `recovery_level_iff`: the recovery is emitted at the level of the line before
  it exactly if that level is not `slog.LevelInfo`;
* `lines_alternate`: transitions and recoveries of an alert alternate, and `Active`
  says which came last.
-/
namespace Mwan.Notify

open Mwan.Core List

structure Alert where
  kind : String
  key : String
  deriving DecidableEq

def Alert.id (a : Alert) : String := a.kind ++ "|" ++ a.key

/-- Neither part has the separator in it. -/
def Alert.Plain (a : Alert) : Prop := '|' ∉ a.kind.toList ∧ '|' ∉ a.key.toList

/-- mirrors manager.go:43-47 -/
structure AlertState where
  active : Bool
  lastEmit : Int
  lastLevel : Int

/-- The repeat cadence, durations of 64 bits: notify.go:66-69. -/
structure Config where
  repeatEvery : Int
  perKind : String → Option Int
  fits : ∀ kind, (perKind kind).getD repeatEvery < 2 ^ 63

def Config.interval (cfg : Config) (kind : String) : Int := (cfg.perKind kind).getD cfg.repeatEvery

/-- What `emit` logs and sends; the fields are those of the call. -/
structure Line where
  level : Int
  kind : String
  key : String
  msg : String
  transition : Bool
  resolved : Bool

/-- A call at the time it passes or reads; a `Notify` with `IsRecovery` is a
`resolve`. -/
inductive Call
  | notify (now level : Int) (alert : Alert) (msg : String)
  | resolve (now : Int) (alert : Alert) (msg : String)

/-- mirrors manager.go:115-138, on the entry of the alert; a missing one reads as
the zero value, which is not active -/
def notifyAt (cfg : Config) (st : AlertState) (now level : Int) (a : Alert) (msg : String) :
    Option Line × AlertState :=
  let repeatEvery := cfg.interval a.kind
  if !st.active || (0 < repeatEvery && saturate64 (now - st.lastEmit) ≥ repeatEvery) then
    (some ⟨level, a.kind, a.key, msg, !st.active, false⟩, ⟨true, now, level⟩)
  else (none, { st with active := true })

/-- The level of a recovery. An unset level falls back to `slog.LevelWarn`. -/
def recoveryLevel (lastLevel : Int) : Int := if lastLevel = 0 then 4 else lastLevel

def recovered : String := "RECOVERED:"

def recoveryMessage (msg : String) : String :=
  if recovered.toList.isPrefixOf msg.toList then msg else recovered ++ " " ++ msg

/-- mirrors manager.go:142-167 -/
def resolveAt (st : AlertState) (now : Int) (a : Alert) (msg : String) : Option Line × AlertState :=
  if !st.active then (none, st)
  else (some ⟨recoveryLevel st.lastLevel, a.kind, a.key, recoveryMessage msg, false, true⟩,
    { st with active := false, lastEmit := now })

def Call.run (cfg : Config) (st : AlertState) : Call → Option Line × AlertState
  | .notify now level a msg => notifyAt cfg st now level a msg
  | .resolve now a msg => resolveAt st now a msg

/-! ## Episodes -/

def Call.alert : Call → Alert
  | .notify _ _ a _ | .resolve _ a _ => a

def Call.now : Call → Int
  | .notify now .. | .resolve now .. => now

def Call.isNotify : Call → Bool
  | .notify .. => true
  | .resolve .. => false

/-- The manager's map and what happened so far: the calls, each with what it
emitted. -/
structure World where
  state : String → AlertState
  past : List (Call × Option Line)

def World.line (cfg : Config) (w : World) (c : Call) : Option Line := (c.run cfg (w.state c.alert.id)).1

def step (cfg : Config) (w : World) (c : Call) : World :=
  ⟨Function.update w.state c.alert.id (c.run cfg (w.state c.alert.id)).2, w.past ++ [(c, w.line cfg c)]⟩

def start : World := ⟨fun _ => ⟨false, 0, 0⟩, []⟩

/-- The calls for one entry of the map. -/
def World.own (w : World) (id : String) : List (Call × Option Line) := w.past.filter (·.1.alert.id = id)

/-- The calls for one alert. -/
def World.calls (w : World) (a : Alert) : List (Call × Option Line) := w.past.filter (·.1.alert = a)

/-- The alert was notified and not resolved since. -/
def Open (own : List (Call × Option Line)) : Prop := ∃ e ∈ own.getLast?, e.1.isNotify = true

/-- The last line emitted for the alert, with its time. -/
def lastEmission (own : List (Call × Option Line)) : Option (Int × Line) :=
  (own.filterMap fun e => e.2.map (e.1.now, ·)).getLast?

/-- What a call emits behind the earlier calls for its alert. -/
def Emits (cfg : Config) (own : List (Call × Option Line)) (line : Option Line) : Call → Prop
  | .notify now level a msg =>
    (¬ Open own → line = some ⟨level, a.kind, a.key, msg, true, false⟩) ∧
      (Open own → line = none ∨ line = some ⟨level, a.kind, a.key, msg, false, false⟩) ∧
      (Open own → (line ≠ none ↔ 0 < cfg.interval a.kind ∧
        ∃ last ∈ lastEmission own, cfg.interval a.kind ≤ now - last.1))
  | .resolve _ a msg =>
    (¬ Open own → line = none) ∧
      (Open own → ∃ last ∈ lastEmission own,
        line = some ⟨recoveryLevel last.2.level, a.kind, a.key, recoveryMessage msg, false, true⟩)

/-- A recovery is at the level of the last line of its episode. -/
def SameLevel (own : List (Call × Option Line)) (line : Option Line) : Prop :=
  ∀ l ∈ line, l.resolved = true → ∃ last ∈ lastEmission own, l.level = last.2.level

/-- The last line of the episode a call closes is not at the level that stands
for none. -/
def Levelled (own : List (Call × Option Line)) (c : Call) : Prop :=
  c.isNotify = false → Open own → ∀ last ∈ lastEmission own, last.2.level ≠ 0

/-! ## What is remembered -/

/-- The state of an alert is that of the calls for it. -/
structure Remembers (own : List (Call × Option Line)) (st : AlertState) : Prop where
  active : st.active = true ↔ Open own
  last : st.active = true →
    ∃ line, lastEmission own = some (st.lastEmit, line) ∧ line.level = st.lastLevel

def Inv (w : World) : Prop := ∀ id, Remembers (w.own id) (w.state id)

theorem Alert.id_inj {a b : Alert} (hplain : a.Plain) (h : a.id = b.id) : a = b := by
  have hlist : a.kind.toList ++ '|' :: a.key.toList = b.kind.toList ++ '|' :: b.key.toList := by
    simpa [Alert.id] using congrArg String.toList h
  obtain ⟨hkind, -, hkey⟩ :=
    (append_cons_inj_of_notMem hplain.1 hplain.2).mp hlist
  cases a
  cases b
  simp only [Alert.mk.injEq]
  exact ⟨String.toList_inj.mp hkind, String.toList_inj.mp hkey⟩

theorem open_snoc {own : List (Call × Option Line)} {e : Call × Option Line} :
    Open (own ++ [e]) ↔ e.1.isNotify = true := by
  simp [Open]

theorem lastEmission_some {own : List (Call × Option Line)} {c : Call} {line : Line} :
    lastEmission (own ++ [(c, some line)]) = some (c.now, line) := by
  simp [lastEmission]

theorem lastEmission_none {own : List (Call × Option Line)} {c : Call} :
    lastEmission (own ++ [(c, none)]) = lastEmission own := by
  simp [lastEmission]

theorem saturate64_ge_iff {x r : Int} (h : r < 2 ^ 63) (hr : 0 < r) : saturate64 x ≥ r ↔ r ≤ x := by
  unfold saturate64
  omega

variable {cfg : Config} {own : List (Call × Option Line)} {st : AlertState}

theorem notifyAt_spec (h : Remembers own st) (now level : Int) (a : Alert) (msg : String) :
    Emits cfg own (notifyAt cfg st now level a msg).1 (.notify now level a msg) ∧
      Remembers (own ++ [(.notify now level a msg, (notifyAt cfg st now level a msg).1)])
        (notifyAt cfg st now level a msg).2 := by
  unfold notifyAt
  cases hactive : st.active with
  | false =>
    have hclosed : ¬ Open own := by rw [← h.active, hactive]; decide
    exact ⟨⟨fun _ => rfl, fun ho => (hclosed ho).elim, fun ho => (hclosed ho).elim⟩,
      iff_of_true rfl (open_snoc.mpr rfl), fun _ => ⟨_, lastEmission_some, rfl⟩⟩
  | true =>
    have ho : Open own := h.active.mp hactive
    obtain ⟨line, hlast, hlevel⟩ := h.last hactive
    have hdue : (0 < cfg.interval a.kind && saturate64 (now - st.lastEmit) ≥ cfg.interval a.kind) = true ↔
        0 < cfg.interval a.kind ∧ ∃ last ∈ lastEmission own, cfg.interval a.kind ≤ now - last.1 := by
      simp only [Bool.and_eq_true, decide_eq_true_eq, hlast, Option.mem_some_iff, exists_eq_left']
      exact and_congr_right (saturate64_ge_iff (cfg.fits a.kind))
    simp only [Bool.not_true, Bool.false_or]
    split
    · next hrepeat =>
      exact ⟨⟨fun hclosed => (hclosed ho).elim, fun _ => .inr rfl,
        fun _ => iff_of_true (Option.some_ne_none _) (hdue.mp hrepeat)⟩,
        iff_of_true rfl (open_snoc.mpr rfl), fun _ => ⟨_, lastEmission_some, rfl⟩⟩
    · next hrepeat =>
      exact ⟨⟨fun hclosed => (hclosed ho).elim, fun _ => .inl rfl,
        fun _ => iff_of_false (fun h => h rfl) fun hpassed => hrepeat (hdue.mpr hpassed)⟩,
        iff_of_true rfl (open_snoc.mpr rfl), fun _ => ⟨line, lastEmission_none.trans hlast, hlevel⟩⟩

theorem resolveAt_spec (h : Remembers own st) (now : Int) (a : Alert) (msg : String) :
    Emits cfg own (resolveAt st now a msg).1 (.resolve now a msg) ∧
      Remembers (own ++ [(.resolve now a msg, (resolveAt st now a msg).1)]) (resolveAt st now a msg).2 ∧
      (SameLevel own (resolveAt st now a msg).1 ↔ Levelled own (.resolve now a msg)) := by
  have hcloses (line : Option Line) : ¬ Open (own ++ [(.resolve now a msg, line)]) := by
    rw [open_snoc]
    exact Bool.false_ne_true
  unfold resolveAt
  cases hactive : st.active with
  | false =>
    have hclosed : ¬ Open own := by rw [← h.active, hactive]; decide
    refine ⟨⟨fun _ => rfl, fun ho => (hclosed ho).elim⟩, ⟨iff_of_false ?_ (hcloses _), fun htrue => ?_⟩,
      iff_of_true (fun _ h => by cases h) fun _ ho => (hclosed ho).elim⟩
    · simp [hactive]
    · simp [hactive] at htrue
  | true =>
    have ho : Open own := h.active.mp hactive
    obtain ⟨line, hlast, hlevel⟩ := h.last hactive
    refine ⟨⟨fun hclosed => (hclosed ho).elim, fun _ => ⟨_, hlast, by rw [hlevel]; rfl⟩⟩,
      ⟨iff_of_false Bool.false_ne_true (hcloses _), fun h => by cases h⟩, ?_⟩
    simp only [SameLevel, Levelled, hlast, Option.mem_some_iff, exists_eq_left', forall_eq', hlevel,
      Bool.not_true, Bool.false_eq_true, if_false, Call.isNotify, ho, forall_const]
    unfold recoveryLevel
    split
    · next hzero => simp [hzero]
    · next hlevelled => simp [hlevelled]

/-! ## Runs -/

theorem run_spec {w : World} (h : Inv w) (c : Call) :
    Emits cfg (w.own c.alert.id) (w.line cfg c) c ∧
      Remembers (w.own c.alert.id ++ [(c, w.line cfg c)]) (c.run cfg (w.state c.alert.id)).2 ∧
      (SameLevel (w.own c.alert.id) (w.line cfg c) ↔ Levelled (w.own c.alert.id) c) := by
  cases c with
  | notify now level a msg =>
    obtain ⟨hemits, hremembers⟩ := @notifyAt_spec cfg _ _ (h a.id) now level a msg
    refine ⟨hemits, hremembers, iff_of_true (fun l hl hresolved => ?_) fun h => by cases h⟩
    simp only [World.line, Call.run, notifyAt] at hl
    split at hl <;> cases hl
    cases hresolved
  | resolve now a msg => exact resolveAt_spec (h a.id) now a msg

theorem inv_kept (cfg : Config) : Kept (step cfg) Inv := by
  intro w c h id
  simp only [step, World.own, filter_append]
  by_cases hid : c.alert.id = id
  · subst hid
    rw [Function.update_self, filter_cons_of_pos (by simp), filter_nil]
    exact (run_spec h c).2.1
  · rw [Function.update_of_ne (Ne.symm hid), filter_cons_of_neg (by simpa using hid),
      filter_nil, append_nil]
    exact h id

theorem inv_start : Inv start := fun _ =>
  ⟨iff_of_false Bool.false_ne_true fun h => by simp [Open, World.own, start] at h, fun h => by cases h⟩

/-- Every call emits what the earlier calls for its alert ask for. -/
theorem episodes_well_formed (cfg : Config) (calls : List {c : Call // c.alert.Plain}) :
    Each (fun w c => step cfg w c.1) (fun w c => Emits cfg (w.calls c.1.alert) (w.line cfg c.1) c.1)
      start calls := by
  have hkept : Kept (fun w (c : {c : Call // c.alert.Plain}) => step cfg w c.1)
      fun w => Inv w ∧ ∀ e ∈ w.past, e.1.alert.Plain :=
    fun w c h => ⟨inv_kept cfg w c.1 h.1,
      forall_mem_append.mpr ⟨h.2, forall_mem_singleton.mpr c.2⟩⟩
  refine .of_closed hkept ⟨inv_start, forall_mem_nil _⟩ (fun w c h => ?_) calls
  -- Among plain alerts those of one entry are one.
  have hown : w.calls c.1.alert = w.own c.1.alert.id :=
    filter_congr fun e he => decide_eq_decide.mpr ⟨congrArg _, Alert.id_inj (h.2 e he)⟩
  rw [hown]
  exact (run_spec h.1 c.1).1

/-- mirrors manager.go:104-111 -/
def World.active (w : World) (a : Alert) : Bool := (w.state a.id).active

/-- In every run the lines of an alert that open an episode are as many as those
that close one, and one more while `Active` reports the alert. -/
theorem lines_alternate (cfg : Config) (calls : List Call) :
    Always (step cfg) (fun w => ∀ a : Alert, (w.own a.id).countP (·.2.any Line.transition) =
      (w.own a.id).countP (·.2.any Line.resolved) + (w.active a).toNat) start calls := by
  refine Always.of_closed ?_ (fun _ => rfl) (fun _ h => h) calls
  intro w c h a
  specialize h a
  simp only [step, World.own, World.active, World.line, filter_append] at h ⊢
  by_cases hid : c.alert.id = a.id
  · rw [hid, Function.update_self, filter_cons_of_pos (by simpa using hid), countP_append,
      countP_append, h]
    cases c with
    | notify now level b msg =>
      cases hactive : (w.state a.id).active <;> simp [Call.run, notifyAt, hactive]
      split <;> simp
    | resolve now b msg =>
      cases hactive : (w.state a.id).active <;> simp [Call.run, resolveAt, hactive]
  · rw [Function.update_of_ne (Ne.symm hid), filter_cons_of_neg (by simpa using hid), filter_nil,
      append_nil]
    exact h

/-- Every recovery is emitted at the level of the line before it exactly if no
episode is closed behind a line at level zero. -/
theorem recovery_level_iff (cfg : Config) (calls : List Call) :
    Each (step cfg) (fun w c => SameLevel (w.own c.alert.id) (w.line cfg c)) start calls ↔
      Each (step cfg) (fun w c => Levelled (w.own c.alert.id) c) start calls :=
  Each.congr (inv_kept cfg) inv_start (fun _ c h => (run_spec h c).2.2) calls

/-- An alert at `slog.LevelInfo` recovers at `slog.LevelWarn`. -/
theorem info_recovers_at_warn :
    let cfg : Config := ⟨0, fun _ => none, fun _ => by decide⟩
    let a : Alert := ⟨"kind", "key"⟩
    ¬ Each (step cfg) (fun w c => SameLevel (w.own c.alert.id) (w.line cfg c)) start
      [.notify 0 0 a "down", .resolve 1 a "up"] := by
  intro cfg a h
  obtain ⟨last, hlast, hlevel⟩ := h.2.1 ⟨4, "kind", "key", "RECOVERED: up", false, true⟩ rfl rfl
  cases hlast
  cases hlevel

end Mwan.Notify

import Mwan.Core.Hoare
import Mwan.Core.Machine

/-!
# The source rule of the out-of-band address

The `oobv6` module keeps one inet6 rule at its priority that sends what comes
from the live SLAAC address to the out-of-band table. The module compares the
live address with the one it remembers, not with the rules of the kernel.

A run is made of calls of `Reconcile` and `OnKernelEvent`, each with the answers
of netlink, and between them of changes of the addresses, of the other rules,
removals of the rule by others and restarts of the process.

Results:
* `reconcileSLAACSrcRule_spec`: no call makes a second rule at the priority, and
  one that returns nil leaves the rule of the live address, unless it finds
  that address remembered;
* `source_rule_follows_iff`: the rule follows the live address exactly where a
  remembered address has its rule in the kernel.
-/
namespace Mwan.Oobv6

open Mwan.Core

/-! ## The module -/

/-- An address of the link: netif/state.go `CurrentAddr`. -/
structure CurrentAddr where
  cidr : String
  family : String
  flags : Nat
  deriving DecidableEq

/-- An inet6 rule, listed or desired: netif/rules.go:20-41. -/
structure Rule where
  priority : Int
  source : String
  mark : UInt32
  iifName : String
  uidRange : String
  tableID : Int
  deriving DecidableEq

/-- mirrors oobv6.go:38-58 -/
structure Config where
  iface : String
  oobAddr : String
  oobTableID : Int
  manageSLAACRule : Bool
  slaacRulePriority : Int

/-- The kernel and what the process remembers. -/
structure World where
  addrs : List CurrentAddr
  rules : List Rule
  installedSLAACAddr : String

/-- What netlink answers in one call: the calls up to the default route, the
list of addresses, and each operation on rules. -/
structure Netlink where
  before : Bool
  listsAddrs : Bool
  listsToRemove : Bool
  lists : Bool
  deletes : Rule → Bool
  adds : Bool

inductive Failure
  | before | addrList | ruleList | ruleDel | ruleAdd

abbrev Call := EStateM Failure World

/-- mirrors netif/cidr.go:12-19 -/
def stripPrefix (cidr : String) : String := String.ofList (cidr.toList.takeWhile (· ≠ '/'))

/-- The text starts with one of the starts, in lower case. -/
def startsLower (starts : List String) (text : String) : Bool :=
  starts.any fun start => start.toList.isPrefixOf text.toLower.toList

def IFAFTentative : Nat := 0x40

def IFAFPermanent : Nat := 0x80

/-- mirrors oobv6.go:360-385; the empty text where there is none -/
def findCurrentGlobalSLAAC (cfg : Config) (addrs : List CurrentAddr) : String :=
  let usable := addrs.find? fun a =>
    let bare := stripPrefix a.cidr
    a.family = "inet6" && !startsLower ["fe80", "fe8", "fe9", "fea", "feb"] bare &&
      decide (bare ≠ stripPrefix cfg.oobAddr) && (a.flags &&& IFAFPermanent) == 0 &&
      (a.flags &&& IFAFTentative) == 0
  (usable.map fun a => stripPrefix a.cidr).getD ""

/-- mirrors netif/rules.go:154-175: the six fields are all a `Rule` has -/
def rulesMatch (c w : Rule) : Bool := c = w

def listRules (answer : Bool) : Call (List Rule) := do
  if answer then return (← get).rules else throw .ruleList

def delRule (net : Netlink) (c : Rule) : Call Unit :=
  if net.deletes c then modify fun w => { w with rules := w.rules.erase c } else throw .ruleDel

/-- A rule that is there already is no error. -/
def addRule (net : Netlink) (r : Rule) : Call Unit :=
  if net.adds then
    modify fun w => { w with rules := if r ∈ w.rules then w.rules else w.rules ++ [r] }
  else throw .ruleAdd

/-- mirrors netif/rules.go:124-149 -/
def removeRuleAtPriority (net : Netlink) (priority : Int) : Call Unit := do
  let current ← listRules net.listsToRemove
  (current.filter (·.priority = priority)).forM (delRule net)

/-- Make sure of one desired rule; `byPrio` has the last rule listed at a
priority. -/
def reconcileRule (net : Netlink) (current : List Rule) (r : Rule) : Call Unit :=
  match (current.filter (·.priority = r.priority)).getLast? with
  | none => addRule net r
  | some cur => if rulesMatch cur r then pure () else do
    delRule net cur
    addRule net r

/-- mirrors netif/rules.go:54-117 for rules of one family -/
def reconcileRules (net : Netlink) (desired : List Rule) : Call Unit := do
  let current ← listRules net.lists
  desired.forM (reconcileRule net current)

/-- The rule that sends what comes from the address to the OOB table. -/
def slaacRule (cfg : Config) (addr : String) : Rule :=
  ⟨cfg.slaacRulePriority, addr, 0, "", "", cfg.oobTableID⟩

def onlyIf (c : Prop) [Decidable c] (call : Call Unit) : Call Unit := if c then call else pure ()

/-- mirrors oobv6.go:310-337, from a remembered address to another one -/
def replaceRule (cfg : Config) (net : Netlink) (installed current : String) : Call Unit := do
  onlyIf (installed ≠ "") (removeRuleAtPriority net cfg.slaacRulePriority)
  onlyIf (current ≠ "") (reconcileRules net [slaacRule cfg current])
  modify fun w => { w with installedSLAACAddr := current }

/-- mirrors oobv6.go:276-338 -/
def reconcileSLAACSrcRule (cfg : Config) (net : Netlink) : Call Unit := fun w =>
  let current := findCurrentGlobalSLAAC cfg w.addrs
  if !cfg.manageSLAACRule then .ok () w
  else if !net.listsAddrs then .error .addrList w
  else if current = w.installedSLAACAddr then .ok () w
  else replaceRule cfg net w.installedSLAACAddr current w

/-- mirrors oobv6.go:87-137; the address and the default route come first -/
def reconcile (cfg : Config) (net : Netlink) : Call Unit :=
  if net.before then reconcileSLAACSrcRule cfg net else throw .before

inductive EventKind
  | addrAdded | addrDeleted
  /-- A route event works on the default route only, the others on nothing. -/
  | other

/-- netif's `Event` as far as it is read for an address. -/
structure KernelEvent where
  iface : String
  kind : EventKind
  family : String
  cidr : String
  snapshotReplay : Bool

/-- The event is about an address that may be the SLAAC address. -/
def KernelEvent.concerns (cfg : Config) (ev : KernelEvent) : Bool :=
  ev.iface = cfg.iface && ev.family = "inet6" && !startsLower ["fe80"] ev.cidr &&
    decide (ev.cidr ≠ cfg.oobAddr) &&
    match ev.kind with
    | .addrAdded => !ev.snapshotReplay
    | .addrDeleted => true
    | .other => false

/-- mirrors oobv6.go:177-248 -/
def onKernelEvent (cfg : Config) (net : Netlink) (ev : KernelEvent) : Call Unit :=
  onlyIf (ev.concerns cfg) (reconcileSLAACSrcRule cfg net)

/-! ## Runs -/

/-- The rules at the module's priority. -/
def World.own (cfg : Config) (w : World) : List Rule :=
  w.rules.filter (·.priority = cfg.slaacRulePriority)

inductive Event
  | reconcile (net : Netlink)
  | kernelEvent (net : Netlink) (ev : KernelEvent)
  /-- Addresses come, go or are renumbered. -/
  | addresses (addrs : List CurrentAddr)
  /-- Others change the rules; at the module's priority they only remove. -/
  | others (rules : List Rule)
  | restart

/-- What a call leaves behind, whether it fails or not. -/
def after (call : Call Unit) (w : World) : World :=
  match call w with
  | .ok _ w' | .error _ w' => w'

def step (cfg : Config) (w : World) : Event → World
  | .reconcile net => after (reconcile cfg net) w
  | .kernelEvent net ev => after (onKernelEvent cfg net ev) w
  | .addresses addrs => { w with addrs }
  | .others rules =>
    let w' := { w with rules }
    if (w'.own cfg).Sublist (w.own cfg) then w' else w
  | .restart => { w with installedSLAACAddr := "" }

/-- The host before the module has run: no rule at its priority. -/
def boot (cfg : Config) (addrs : List CurrentAddr) (rules : List Rule) : World :=
  ⟨addrs, rules.filter (·.priority ≠ cfg.slaacRulePriority), ""⟩

/-- The rules at the priority for an address: one, or none for no address. -/
def wanted (cfg : Config) (addr : String) : List Rule :=
  if addr = "" then [] else [slaacRule cfg addr]

/-- The rules at the priority are those of the live address. -/
def Follows (cfg : Config) (w : World) : Prop :=
  w.own cfg = wanted cfg (findCurrentGlobalSLAAC cfg w.addrs)

/-- A `Reconcile` that manages the rule and returns nil leaves the rule of the
live address. -/
def Reconciled (cfg : Config) (w : World) : Event → Prop
  | .reconcile net => ∀ w', cfg.manageSLAACRule = true → reconcile cfg net w = .ok () w' →
      Follows cfg w'
  | _ => True

/-- A `Reconcile` that gets to the live address finds it remembered, and the
kernel has not the rule of it. -/
def Forgotten (cfg : Config) (w : World) : Event → Prop
  | .reconcile net => cfg.manageSLAACRule = true ∧ net.before = true ∧ net.listsAddrs = true ∧
      findCurrentGlobalSLAAC cfg w.addrs = w.installedSLAACAddr ∧
      w.own cfg ≠ wanted cfg w.installedSLAACAddr
  | _ => False

/-! ## The calls -/

/-- There is at most one rule at the priority. -/
def Single (cfg : Config) (w : World) : Prop := (w.own cfg).length ≤ 1

/-- The addresses of the link, and the rules at the priority. -/
def Has (cfg : Config) (addrs : List CurrentAddr) (own : List Rule) (w : World) : Prop :=
  w.addrs = addrs ∧ w.own cfg = own

variable {cfg : Config} {net : Netlink} {addrs : List CurrentAddr} {own : List Rule}

theorem Has.single (hone : own.length ≤ 1) {w : World} (h : Has cfg addrs own w) : Single cfg w := by
  rw [Single, h.2]
  exact hone

theorem delRule_spec (c : Rule) :
    Triple (Has cfg addrs [c]) (delRule net c) (fun _ => Has cfg addrs []) (fun _ => Single cfg) := by
  intro w h
  unfold delRule
  cases net.deletes c with
  | false => exact h.single (Nat.le_refl _)
  | true =>
    refine ⟨h.1, List.erase_filter.symm.trans ?_⟩
    exact (congrArg (·.erase c) h.2).trans (List.erase_cons_head ..)

theorem addRule_spec {r : Rule} (hr : r.priority = cfg.slaacRulePriority) :
    Triple (Has cfg addrs []) (addRule net r) (fun _ => Has cfg addrs [r]) (fun _ => Single cfg) := by
  intro w h
  unfold addRule
  cases net.adds with
  | false => exact h.single (Nat.zero_le _)
  | true =>
    obtain ⟨haddrs, hown⟩ := h
    have hnew : r ∉ w.rules := fun hmem => by
      have : r ∈ w.own cfg := List.mem_filter.mpr ⟨hmem, decide_eq_true hr⟩
      simp [hown] at this
    unfold World.own at hown
    refine ⟨haddrs, ?_⟩
    simp [World.own, hnew, hown, hr]

theorem listRules_spec (answer : Bool) (hone : own.length ≤ 1) :
    Triple (Has cfg addrs own) (listRules answer)
      (fun current w => Has cfg addrs own w ∧
        current.filter (·.priority = cfg.slaacRulePriority) = own) (fun _ => Single cfg) := by
  intro w h
  unfold listRules
  cases answer with
  | false => exact h.single hone
  | true => exact ⟨h, h.2⟩

theorem removeRuleAtPriority_spec (hone : own.length ≤ 1) :
    Triple (Has cfg addrs own) (removeRuleAtPriority net cfg.slaacRulePriority)
      (fun _ => Has cfg addrs []) (fun _ => Single cfg) := by
  refine .bind (listRules_spec _ hone) fun current w ⟨h, hlisted⟩ => ?_
  rw [hlisted]
  match own, hone with
  | [], _ => exact h
  | [c], _ => exact Triple.bind (delRule_spec c) (fun _ w h => h) w h

theorem reconcileRules_spec {r : Rule} (hr : r.priority = cfg.slaacRulePriority)
    (hone : own.length ≤ 1) :
    Triple (Has cfg addrs own) (reconcileRules net [r]) (fun _ => Has cfg addrs [r])
      (fun _ => Single cfg) := by
  refine .bind (listRules_spec _ hone) fun current w ⟨h, hlisted⟩ => ?_
  refine Triple.bind (P := Has cfg addrs own) (fun w h => ?_) (fun _ _ h => h) w h
  rw [reconcileRule, hr, hlisted]
  match own, hone with
  | [], _ => exact addRule_spec hr w h
  | [c], _ =>
    by_cases hmatch : c = r
    · simp only [List.getLast?_singleton, rulesMatch, hmatch, decide_true, if_true]
      exact hmatch ▸ h
    · simp only [List.getLast?_singleton, rulesMatch, hmatch, decide_false, Bool.false_eq_true,
        if_false]
      exact Triple.bind (delRule_spec c) (fun _ => addRule_spec hr) w h

theorem replaceRule_spec {installed current : String} (hne : current ≠ installed)
    (hone : own.length ≤ 1) :
    Triple (Has cfg addrs own) (replaceRule cfg net installed current)
      (fun _ => Has cfg addrs (wanted cfg current)) (fun _ => Single cfg) := by
  unfold replaceRule onlyIf wanted
  by_cases hcurrent : current = ""
  · have hinstalled : installed ≠ "" := fun h => hne (hcurrent.trans h.symm)
    rw [if_pos hinstalled, if_neg (not_not.mpr hcurrent), if_pos hcurrent]
    exact .bind (removeRuleAtPriority_spec hone) fun _ _ h => h
  · rw [if_pos hcurrent, if_neg hcurrent]
    split
    · exact .bind (removeRuleAtPriority_spec hone) fun _ =>
        Triple.bind (reconcileRules_spec rfl (Nat.zero_le _)) fun _ _ h => h
    · exact .bind (R := fun _ => Has cfg addrs own) (fun _ h => h) fun _ =>
        Triple.bind (reconcileRules_spec rfl hone) fun _ _ h => h

/-- There is never a second rule at the priority, and a call that returns nil
leaves the rule of the live address or finds that address remembered. -/
theorem reconcileSLAACSrcRule_spec {w : World} (h : Single cfg w) :
    Single cfg (after (reconcileSLAACSrcRule cfg net) w) ∧
      ∀ w', cfg.manageSLAACRule = true → reconcileSLAACSrcRule cfg net w = .ok () w' →
        net.listsAddrs = true ∧ findCurrentGlobalSLAAC cfg w.addrs = w.installedSLAACAddr ∧ w' = w ∨
          Follows cfg w' := by
  unfold after reconcileSLAACSrcRule
  cases hmanage : cfg.manageSLAACRule with
  | false => exact ⟨h, nofun⟩
  | true =>
    cases hlists : net.listsAddrs with
    | false => exact ⟨h, nofun⟩
    | true =>
      simp only [Bool.not_true, Bool.false_eq_true, if_false]
      by_cases hsame : findCurrentGlobalSLAAC cfg w.addrs = w.installedSLAACAddr
      · rw [if_pos hsame]
        exact ⟨h, fun _ _ hw' => .inl ⟨trivial, hsame, (EStateM.Result.ok.inj hw').2.symm⟩⟩
      · rw [if_neg hsame]
        have hspec := @replaceRule_spec cfg net w.addrs _ _ _ hsame h w ⟨rfl, rfl⟩
        cases hr : replaceRule cfg net w.installedSLAACAddr (findCurrentGlobalSLAAC cfg w.addrs) w with
        | error failure w' =>
          rw [hr] at hspec
          exact ⟨hspec, nofun⟩
        | ok _ w' =>
          rw [hr] at hspec
          have hfollows : Follows cfg w' := by
            rw [Follows, hspec.1]
            exact hspec.2
          refine ⟨hspec.single ?_, fun _ _ hw' => .inr ((EStateM.Result.ok.inj hw').2 ▸ hfollows)⟩
          unfold wanted
          split <;> simp

/-! ## The runs -/

theorem single_kept (cfg : Config) : Kept (step cfg) (Single cfg) := by
  intro w e h
  cases e with
  | reconcile net =>
    simp only [step, reconcile]
    split
    · exact (reconcileSLAACSrcRule_spec h).1
    · exact h
  | kernelEvent net ev =>
    simp only [step, onKernelEvent, onlyIf]
    split
    · exact (reconcileSLAACSrcRule_spec h).1
    · exact h
  | addresses addrs => exact h
  | others rules =>
    simp only [step]
    split
    · next hless => exact Nat.le_trans hless.length_le h
    · exact h
  | restart => exact h

theorem reconciled_iff {w : World} (h : Single cfg w) (e : Event) :
    Reconciled cfg w e ↔ ¬ Forgotten cfg w e := by
  cases e with
  | reconcile net =>
    constructor
    · rintro hreconciled ⟨hmanage, hbefore, hlists, hsame, hforgotten⟩
      have hreturns : reconcile cfg net w = .ok () w := by
        simp [reconcile, reconcileSLAACSrcRule, hmanage, hbefore, hlists, hsame]
      exact hforgotten (hsame ▸ hreconciled w hmanage hreturns)
    · intro hforgotten w' hmanage hreturns
      unfold reconcile at hreturns
      split at hreturns
      · next hbefore =>
        rcases (reconcileSLAACSrcRule_spec h).2 w' hmanage hreturns with ⟨hlists, hsame, rfl⟩ | hfollows
        · rw [Follows, hsame]
          exact not_not.mp fun hne => hforgotten ⟨hmanage, hbefore, hlists, hsame, hne⟩
        · exact hfollows
      · cases hreturns
  | kernelEvent | addresses | others | restart => simp [Reconciled, Forgotten]

end Mwan.Oobv6

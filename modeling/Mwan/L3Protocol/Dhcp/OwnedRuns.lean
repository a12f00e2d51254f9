import Mwan.Core.Machine
import Mwan.L3Protocol.Dhcp.OwnedSafe

/-!
# Runs of the DHCPv4 ownership reconciler

Calls of any consumers come one after the other; any of their operations may
fail and the process may die in any world on the way, after which it starts
again with the journal file. Between two calls other agents change the kernel.

Results:
* `OtherChange.lesser`: other agents take away what the reconciler wrote but
  never make it look like something else;
* `ownership_durable_and_exclusive`: along every run in which memory lists
  nothing that the file lacks when a call begins, what exists of the
  reconciler's writes is in the file, and it takes away only what is recorded.
-/
namespace Mwan.Dhcp

open Mwan.Core List

/-! ## Other agents -/

/-- What other agents do. -/
inductive OtherChange
  | addAddress (link : Int) (cidr : CIDR) (scope : Int)
  | keepAddresses (keep : KernelAddress → Bool)
  | addRoute (route : KernelRoute)
  | keepRoutes (keep : KernelRoute → Bool)
  | addLink (index : Int) (link : Link)
  | removeLink (index : Int)
  | renameLink (index : Int) (name : String)
  | setPromotion (index : Int) (value : Bool)

/-- The link under another name. -/
def Link.rename (link : Link) (name : String) : Link := { link with name }

/-- A link takes its addresses and routes with it. A new one has an index that
is not in use. -/
def OtherChange.apply (k : Kernel) : OtherChange → Kernel
  | .addAddress link cidr scope => (k.addrAdd { link, cidr, scope }).getD k
  | .keepAddresses keep => { k with addresses := k.addresses.filter keep }
  | .addRoute route => { k with routes := k.routes ++ [{ route with writer := none }] }
  | .keepRoutes keep => { k with routes := k.routes.filter keep }
  | .addLink index link =>
    if index ∈ k.links.map Prod.fst ∨ link.name ∈ k.links.map (·.2.name) then k
    else { k with links := k.links ++ [(index, link)] }
  | .removeLink index =>
    { k with
      links := k.links.filter fun link => link.1 ≠ index
      addresses := k.addresses.filter fun a => a.link ≠ index
      routes := k.routes.filter fun r => r.link ≠ index }
  | .renameLink index name =>
    if name ∈ k.links.map (·.2.name) then k
    else { k with links := k.links.map fun link =>
      if link.1 = index then (index, link.2.rename name) else link }
  | .setPromotion index value => { k with promote := Function.update k.promote index value }

/-- Nothing the reconciler wrote comes up, and what stays of it is what it was. -/
structure Lesser (k k' : Kernel) : Prop where
  sound : k'.Sound
  holds : ∀ value, k'.Holds value → k.Holds value

variable {k : Kernel}

theorem Lesser.refl (h : k.Sound) : Lesser k k := ⟨h, fun _ h => h⟩

variable {k' : Kernel}

/-- The links stay, and nothing comes up that carries a record. -/
theorem Lesser.of_links (h : k.Sound) (hlinks : k'.links = k.links)
    (haddresses : ∀ a ∈ k'.addresses, a ∈ k.addresses ∨ a.writer = none)
    (hroutes : ∀ r ∈ k'.routes, r ∈ k.routes ∨ r.writer = none) : Lesser k k' := by
  have hold : ∀ a ∈ k'.addresses, ∀ value, a.writer = some value → a ∈ k.addresses := by
    intro a ha value hw
    exact (haddresses a ha).resolve_right (by simp [hw])
  have holdRoute : ∀ r ∈ k'.routes, ∀ value, r.writer = some value → r ∈ k.routes := by
    intro r hr value hw
    exact (hroutes r hr).resolve_right (by simp [hw])
  refine ⟨⟨by rw [hlinks]; exact h.links, by rw [hlinks]; exact h.names, ?_, ?_⟩, ?_⟩
  · intro a ha value hw
    exact (h.addresses a (hold a ha value hw) value hw).congr hlinks
  · intro r hr value hw
    obtain ⟨his, hproto⟩ := h.routes r (holdRoute r hr value hw) value hw
    exact ⟨his.congr hlinks, hproto⟩
  · rintro value (⟨a, ha, hw⟩ | ⟨r, hr, hw⟩)
    · exact .inl ⟨a, hold a ha value hw, hw⟩
    · exact .inr ⟨r, holdRoute r hr value hw, hw⟩

/-- The links change and the objects that stay are on links that stay. -/
theorem Lesser.of_objects (h : k.Sound) (hlinks : (k'.links.map Prod.fst).Nodup)
    (hnames : (k'.links.map (·.2.name)).Nodup) (haddresses : ∀ a ∈ k'.addresses, a ∈ k.addresses ∧
      ∀ identity, k.hasLink a.link identity = true → k'.hasLink a.link identity = true)
    (hroutes : ∀ r ∈ k'.routes, r ∈ k.routes ∧
      ∀ identity, k.hasLink r.link identity = true → k'.hasLink r.link identity = true) :
    Lesser k k' := by
  refine ⟨⟨hlinks, hnames, ?_, ?_⟩, ?_⟩
  · intro a ha value hw
    obtain ⟨hin, hstays⟩ := haddresses a ha
    obtain ⟨hlink, hcidr, hlive⟩ := h.addresses a hin value hw
    exact ⟨hlink, hcidr, hlink ▸ hstays _ (hlink ▸ hlive)⟩
  · intro r hr value hw
    obtain ⟨hin, hstays⟩ := hroutes r hr
    obtain ⟨⟨htable, hcidr, hrec, hlive⟩, hproto⟩ := h.routes r hin value hw
    have hlink : r.link = value.linkIndex := by
      simp only [isRecordedRoute, Bool.and_eq_true, decide_eq_true_eq] at hrec
      exact hrec.1.2
    exact ⟨⟨htable, hcidr, hrec, hlink ▸ hstays _ (hlink ▸ hlive)⟩, hproto⟩
  · rintro value (⟨a, ha, hw⟩ | ⟨r, hr, hw⟩)
    · exact .inl ⟨a, (haddresses a ha).1, hw⟩
    · exact .inr ⟨r, (hroutes r hr).1, hw⟩

variable {links : List (Int × Link)} {index i : Int}

theorem lookup_append_new {link : Link} {identity : String}
    (h : (links.lookup i).any (fun l => l.identity = identity) = true) :
    ((links ++ [(index, link)]).lookup i).any (fun l => l.identity = identity) = true := by
  rw [lookup_append]
  cases hl : links.lookup i with
  | none => simp [hl] at h
  | some l => simpa [hl] using h

theorem lookup_filter_ne (h : i ≠ index) :
    (links.filter fun link => link.1 ≠ index).lookup i = links.lookup i := by
  induction links with
  | nil => rfl
  | cons head rest ih =>
    by_cases hhead : head.1 = index
    · have hne : (i == head.1) = false := by
        rw [beq_eq_false_iff_ne, hhead]
        exact h
      rw [filter_cons_of_neg (by simpa using hhead), ih, lookup_cons, hne]
    · rw [filter_cons_of_pos (by simpa using hhead), lookup_cons, lookup_cons, ih]

theorem lookup_rename {name identity : String} :
    ((links.map fun link => if link.1 = index then (index, link.2.rename name) else link).lookup
      i).any (fun l => l.identity = identity) = (links.lookup i).any fun l => l.identity = identity := by
  induction links with
  | nil => rfl
  | cons head rest ih =>
    by_cases hhead : head.1 = index
    · rw [map_cons, if_pos hhead, lookup_cons, lookup_cons, ← hhead]
      cases i == head.1 with
      | true => rfl
      | false => exact hhead ▸ ih
    · rw [map_cons, if_neg hhead, lookup_cons, lookup_cons]
      cases i == head.1 with
      | true => rfl
      | false => exact ih

/-- A name that is not in use is given to one link. -/
theorem nodup_rename {name : String} (hkeys : (links.map Prod.fst).Nodup)
    (hnames : (links.map (·.2.name)).Nodup) (hnew : name ∉ links.map (·.2.name)) :
    ((links.map fun link => if link.1 = index then (index, link.2.rename name) else link).map
      (·.2.name)).Nodup := by
  induction links with
  | nil => exact nodup_nil
  | cons head rest ih =>
    obtain ⟨hkey, hkeys⟩ := nodup_cons.mp hkeys
    obtain ⟨hname, hnames⟩ := nodup_cons.mp hnames
    have hne : name ≠ head.2.name := fun h => hnew (h ▸ (.head _))
    have hrest : name ∉ rest.map (·.2.name) := fun h => hnew (.tail _ h)
    rw [map_cons, map_cons, nodup_cons]
    refine ⟨fun hin => ?_, ih hkeys hnames hrest⟩
    obtain ⟨link, hlink, heq⟩ := mem_map.mp hin
    obtain ⟨old, hold, rfl⟩ := mem_map.mp hlink
    by_cases hhead : head.1 = index
    · -- No other link has the index.
      have hother : old.1 ≠ index := fun h => hkey (by
        rw [hhead, ← h]
        exact mem_map_of_mem hold)
      rw [if_pos hhead, if_neg hother] at heq
      have heq : old.2.name = name := heq
      exact hrest (mem_map.mpr ⟨old, hold, heq⟩)
    · rw [if_neg hhead] at heq
      by_cases hother : old.1 = index
      · rw [if_pos hother] at heq
        exact hne heq
      · rw [if_neg hother] at heq
        exact hname (mem_map.mpr ⟨old, hold, heq⟩)

theorem OtherChange.lesser (h : k.Sound) (change : OtherChange) : Lesser k (change.apply k) := by
  cases change with
  | addAddress =>
    simp only [OtherChange.apply, Kernel.addrAdd]
    split
    · exact .refl h
    · refine .of_links h rfl (forall_mem_append.mpr ⟨fun _ => .inl, ?_⟩) fun r hr => .inl hr
      exact forall_mem_singleton.mpr (.inr rfl)
  | keepAddresses =>
    exact .of_links h rfl (fun a ha => .inl (mem_filter.mp ha).1) fun r hr => .inl hr
  | addRoute =>
    refine .of_links h rfl (fun a ha => .inl ha) (forall_mem_append.mpr ⟨fun _ => .inl, ?_⟩)
    exact forall_mem_singleton.mpr (.inr rfl)
  | keepRoutes =>
    exact .of_links h rfl (fun a ha => .inl ha) fun r hr => .inl (mem_filter.mp hr).1
  | addLink =>
    simp only [OtherChange.apply]
    split
    · exact .refl h
    · rename_i hnew
      refine .of_objects h ?_ ?_ (fun a ha => ⟨ha, fun _ => lookup_append_new⟩)
        fun r hr => ⟨hr, fun _ => lookup_append_new⟩
      · rw [map_append, nodup_append_comm]
        exact nodup_cons.mpr ⟨fun hin => hnew (.inl hin), h.links⟩
      · rw [map_append, nodup_append_comm]
        exact nodup_cons.mpr ⟨fun hin => hnew (.inr hin), h.names⟩
  | removeLink =>
    refine .of_objects h ?_ ?_ (fun a ha => ?_) fun r hr => ?_
    · exact h.links.sublist (filter_sublist.map _)
    · exact h.names.sublist (filter_sublist.map _)
    · obtain ⟨hin, hne⟩ := mem_filter.mp ha
      refine ⟨hin, fun identity hlive => ?_⟩
      unfold Kernel.hasLink Kernel.linkByIndex OtherChange.apply
      rw [lookup_filter_ne (by simpa using hne)]
      exact hlive
    · obtain ⟨hin, hne⟩ := mem_filter.mp hr
      refine ⟨hin, fun identity hlive => ?_⟩
      unfold Kernel.hasLink Kernel.linkByIndex OtherChange.apply
      rw [lookup_filter_ne (by simpa using hne)]
      exact hlive
  | renameLink index name =>
    simp only [OtherChange.apply]
    split
    · exact .refl h
    · have hkeys : (k.links.map fun link : Int × Link =>
          if link.1 = index then (index, link.2.rename name) else link).map Prod.fst =
          k.links.map Prod.fst := by
        rw [map_map]
        refine map_congr_left fun link _ => ?_
        by_cases hl : link.1 = index <;> simp [hl]
      exact .of_objects h (by rw [hkeys]; exact h.links) (nodup_rename h.links h.names ‹_›)
        (fun a ha => ⟨ha, fun _ => lookup_rename.trans⟩) fun r hr => ⟨hr, fun _ => lookup_rename.trans⟩
  | setPromotion =>
    exact .of_links h rfl (fun a ha => .inl ha) fun r hr => .inl hr

/-! ## Runs -/

inductive OwnedCall
  | reconcile (consumerID connectionID iface : String) (tableID metric : Int)
      (lease : Option LeaseInfo)
  | pruneConsumer (consumerID : String)

namespace OwnedCall

variable {disk : Prop}

def run : OwnedCall → Owner Unit
  | .reconcile consumerID connectionID iface tableID metric lease =>
    Dhcp.reconcile consumerID connectionID iface tableID metric lease
  | .pruneConsumer consumerID => Dhcp.pruneConsumer consumerID

/-- The records a call may act on. -/
def Concerns : OwnedCall → OwnedObject → Prop
  | .reconcile consumerID connectionID _ _ _ _, value =>
    value.consumerID = consumerID ∧ value.connectionID = connectionID
  | .pruneConsumer consumerID, value => value.consumerID = consumerID

theorem sat (call : OwnedCall) :
    Sat (OwnedStep disk call.Concerns) (Ready disk) call.run (fun _ => Ready disk)
      (fun _ => Left disk) := by
  cases call with
  | reconcile consumerID connectionID iface tableID metric lease =>
    exact reconcile_sat consumerID connectionID iface tableID metric lease
  | pruneConsumer consumerID => exact pruneConsumer_sat consumerID

end OwnedCall

/-- A call with the outcomes of its operations, a call that the process does not
survive, or a change by other agents. -/
inductive OwnedEvent
  | call (call : OwnedCall) (script : List Outcome)
  | crash (call : OwnedCall) (script : List Outcome) (world : Nat)
  | other (change : OtherChange)

namespace OwnedEvent

/-- After a crash the process starts again with the file. -/
def step (b : OwnedBooks) : OwnedEvent → OwnedBooks
  | .call c script => (c.run.last ⟨b, script⟩).books
  | .crash c script world => ((c.run.worlds ⟨b, script⟩).getD world ⟨b, script⟩).books.restart
  | .other change => { b with kernel := change.apply b.kernel }

/-- When a call begins memory lists nothing that the file lacks. -/
def BeginsSynced (b : OwnedBooks) : OwnedEvent → Prop
  | .call _ _ | .crash _ _ _ => b.memory.objects ⊆ b.durable.objects
  | .other _ => True

end OwnedEvent

/-- What the reconciler wrote and what is there on the recorded link is in the
file. -/
def OwnedDurably (b : OwnedBooks) : Prop :=
  ∀ value, b.kernel.Holds value → b.kernel.hasLink value.linkIndex value.linkIdentity = true →
    value ∈ b.durable.objects

/-- Along a call the file is complete all the time, and every change takes away
only objects with a record that concerns the call. -/
def OwnedEvent.KeepsToJournal (b : OwnedBooks) : OwnedEvent → Prop
  | .call c script | .crash c script _ =>
    (∀ d ∈ c.run.worlds ⟨b, script⟩, OwnedDurably d.books) ∧
      History (fun d d' => Exclusive c.Concerns d.books d'.books) ⟨b, script⟩ (c.run.worlds ⟨b, script⟩)
  | .other _ => True

/-- A kernel in which the reconciler has written nothing. -/
structure Kernel.Untouched (k : Kernel) : Prop where
  links : (k.links.map Prod.fst).Nodup
  names : (k.links.map (·.2.name)).Nodup
  addresses : ∀ a ∈ k.addresses, a.writer = none
  routes : ∀ r ∈ k.routes, r.writer = none

/-- The first process of a boot. -/
def OwnedBooks.first (k : Kernel) : OwnedBooks := { kernel := k, memory := {}, durable := {} }

theorem Kernel.Untouched.left (h : k.Untouched) : Left True (OwnedBooks.first k) := by
  have hno : ∀ value, ¬ k.Holds value := by
    rintro value (⟨a, ha, hw⟩ | ⟨r, hr, hw⟩)
    · rw [h.addresses a ha] at hw
      cases hw
    · rw [h.routes r hr] at hw
      cases hw
  have hsound : k.Sound :=
    ⟨h.links, h.names, fun a ha value hw => absurd (.inl ⟨a, ha, hw⟩) (hno value),
      fun r hr value hw => absurd (.inr ⟨r, hr, hw⟩) (hno value)⟩
  have hcovers : Covers k {} :=
    ⟨hsound, nodup_nil, fun value hv => absurd hv (hno value),
      fun _ hv => absurd hv not_mem_nil, fun value hv => absurd hv (hno value)⟩
  exact ⟨hcovers, fun _ => hcovers, fun _ => Subset.refl _⟩

theorem Left.ready {b : OwnedBooks} (h : Left True b)
    (hsynced : b.memory.objects ⊆ b.durable.objects) : Ready True b :=
  { h with synced := fun _ => hsynced }

theorem Covers.durably {b : OwnedBooks} (h : Covers b.kernel b.durable) : OwnedDurably b :=
  fun value hv _ => h.listed value hv

/-- A restart begins with a file that lists everything. -/
theorem Covers.restart {b : OwnedBooks} (h : Covers b.kernel b.durable) : Left True b.restart :=
  ⟨h, fun _ => h, fun _ => Subset.refl _⟩

theorem Covers.lesser {journal : OwnedJournal} (h : Covers k journal) (hless : Lesser k k') :
    Covers k' journal :=
  { h with
    sound := hless.sound
    listed := fun value hv => h.listed value (hless.holds value hv)
    checked := fun value hv => h.checked value (hless.holds value hv) }

theorem Left.other {disk : Prop} {b : OwnedBooks} (h : Left disk b) (change : OtherChange) :
    Left disk { b with kernel := change.apply b.kernel } :=
  ⟨h.toCovers.lesser (change.lesser h.sound), fun hd => (h.file hd).lesser (change.lesser h.sound),
    h.marks⟩

section Call

variable {b : OwnedBooks} (h : Ready True b) (call : OwnedCall) (script : List Outcome)

include h

theorem Ready.worlds : ∀ d ∈ call.run.worlds ⟨b, script⟩, Covers d.books.kernel d.books.durable :=
  call.sat.worlds (d := ⟨b, script⟩) (K := fun b => Covers b.kernel b.durable) h (fun _ _ hstep _ => hstep.file trivial) (h.file trivial)

theorem Ready.exclusive : History (fun d d' => Exclusive call.Concerns d.books d'.books) ⟨b, script⟩
      (call.run.worlds ⟨b, script⟩) := by
  refine (call.sat.history (w := ⟨b, script⟩) h).mono fun d d' hstep => ?_
  rcases hstep with heq | hstep
  · exact ⟨fun a ha hno => absurd (heq ▸ ha) hno, fun r hr hno => absurd (heq ▸ hr) hno⟩
  · exact hstep.exclusive trivial

theorem Ready.ends : Left True (call.run.last ⟨b, script⟩).books :=
  call.sat.last (d := ⟨b, script⟩) h (fun _ _ h => h.toLeft) fun _ _ h => h

theorem Ready.dies (world : Nat) :
    Left True ((call.run.worlds ⟨b, script⟩).getD world ⟨b, script⟩).books.restart := by
  refine Covers.restart ?_
  rw [getD_eq_getElem?_getD]
  cases hworld : (call.run.worlds ⟨b, script⟩)[world]? with
  | none => exact h.file trivial
  | some d => exact h.worlds call script d (mem_of_getElem? hworld)

theorem Ready.keepsToJournal :
    (∀ d ∈ call.run.worlds ⟨b, script⟩, OwnedDurably d.books) ∧
      History (fun d d' => Exclusive call.Concerns d.books d'.books) ⟨b, script⟩
        (call.run.worlds ⟨b, script⟩) :=
  ⟨fun d hd => (h.worlds call script d hd).durably, h.exclusive call script⟩

end Call

/-- DHCPv4 ownership is durable and exclusive along every run in which memory
lists nothing that the file lacks when a call begins. -/
theorem ownership_durable_and_exclusive {k : Kernel} (hk : k.Untouched) {events : List OwnedEvent}
    (h : Each OwnedEvent.step OwnedEvent.BeginsSynced (OwnedBooks.first k) events) :
    Always OwnedEvent.step OwnedDurably (OwnedBooks.first k) events ∧
      Each OwnedEvent.step OwnedEvent.KeepsToJournal (OwnedBooks.first k) events := by
  refine Each.invariant (I := Left True) ?_ (fun b hb => (hb.file trivial).durably) hk.left h
  intro b e hb hsynced
  cases e with
  | call c script =>
    have hready := hb.ready hsynced
    exact ⟨hready.ends c script, hready.keepsToJournal c script⟩
  | crash c script world =>
    have hready := hb.ready hsynced
    exact ⟨hready.dies c script world, hready.keepsToJournal c script⟩
  | other change => exact ⟨hb.other change, trivial⟩

/-! ## A write of the file that fails after it took effect -/

def oneLink : Kernel := { links := [(2, ⟨"eth0", "52:54:00:00:00:01"⟩)] }

def oneLease : LeaseInfo :=
  { state := .bound, ip := some hostIP, prefixLen := 24
    gateway := some routerIP, acquiredAt := .zero }

/-- The record of the lease's address. -/
def oneAddress : OwnedObject :=
  { consumerID := "wan", connectionID := "wan0", linkName := "eth0", linkIndex := 2
    linkIdentity := "52:54:00:00:00:01", tableID := 100, cidr := some (hostIP, 24) }

theorem oneLink_untouched : oneLink.Untouched := ⟨by decide, by decide, by decide, by decide⟩

/-- The lease is applied, withdrawn and applied again. When it is withdrawn the
file is written without the address and the write fails after that. -/
def failedForget : List OwnedEvent :=
  [.call (.reconcile "wan" "wan0" "eth0" 100 10 (some oneLease)) [],
    .call (.reconcile "wan" "wan0" "eth0" 100 10 none) [.ok, .ok, .ok, .failedAfter],
    .call (.reconcile "wan" "wan0" "eth0" 100 10 (some oneLease)) []]

/-- The same with a write that fails before it takes effect, and a crash in the
middle of the last call. -/
theorem ownership_kept_without_failures :
    Always OwnedEvent.step OwnedDurably (OwnedBooks.first oneLink)
        [.call (.reconcile "wan" "wan0" "eth0" 100 10 (some oneLease)) [],
          .call (.reconcile "wan" "wan0" "eth0" 100 10 none) [.ok, .ok, .ok, .failed],
          .crash (.reconcile "wan" "wan0" "eth0" 100 10 (some oneLease)) [] 3] ∧
      Each OwnedEvent.step OwnedEvent.KeepsToJournal (OwnedBooks.first oneLink)
        [.call (.reconcile "wan" "wan0" "eth0" 100 10 (some oneLease)) [],
          .call (.reconcile "wan" "wan0" "eth0" 100 10 none) [.ok, .ok, .ok, .failed],
          .crash (.reconcile "wan" "wan0" "eth0" 100 10 (some oneLease)) [] 3] :=
  ownership_durable_and_exclusive oneLink_untouched
    ⟨nil_subset _, by unfold OwnedEvent.BeginsSynced; decide +kernel,
      by unfold OwnedEvent.BeginsSynced; decide +kernel, trivial⟩

/-- The address is written again and the file does not have it. -/
theorem written_address_not_in_file :
    oneLink.Untouched ∧
      ¬ Always OwnedEvent.step OwnedDurably (OwnedBooks.first oneLink) failedForget := by
  refine ⟨oneLink_untouched, fun h => ?_⟩
  have hholds : .of oneAddress (#v[192, 0, 2, 10], 24) ∈
      (runAll OwnedEvent.step (OwnedBooks.first oneLink) failedForget).kernel.addresses := by
    decide +kernel
  have hlive : (runAll OwnedEvent.step (OwnedBooks.first oneLink) failedForget).kernel.hasLink
      oneAddress.linkIndex oneAddress.linkIdentity = true := by
    decide +kernel
  have hno : oneAddress ∉
      (runAll OwnedEvent.step (OwnedBooks.first oneLink) failedForget).durable.objects := by
    decide +kernel
  exact hno (always_iff.mp h failedForget prefix_rfl oneAddress (.inl ⟨_, hholds, rfl⟩) hlive)

end Mwan.Dhcp

import Mwan.L3Protocol.Dhcp.Owned

/-!
# DHCPv4 ownership is durable and exclusive

Whatever operation fails and wherever the process dies: an object the
reconciler wrote is in the journal file for as long as it exists, and the
reconciler takes away only objects that its journal has for the same consumer,
connection and link.

The journal in memory must not list more than the file: `reserve` writes the
file only for what memory does not list.

Results:
* `reserve_sat`, `forget_sat`, `remove_sat`, `ensureAddress_sat`,
  `ensureRoute_sat`: each operation keeps its books in order;
* `reconcile_sat`, `pruneConsumer_sat`: so does a whole call, however it ends.
-/
namespace Mwan.Dhcp

open Mwan.Core List

/-! ## Books in order -/

/-- The kernel has an object that was written for the record. -/
def Kernel.Holds (k : Kernel) (value : OwnedObject) : Prop :=
  (∃ a ∈ k.addresses, a.writer = some value) ∨ ∃ r ∈ k.routes, r.writer = some value

/-- The address is the one of the record, on the recorded link. -/
def IsAddressOf (k : Kernel) (a : KernelAddress) (value : OwnedObject) : Prop :=
  a.link = value.linkIndex ∧ value.cidr = some a.cidr ∧
    k.hasLink value.linkIndex value.linkIdentity = true

/-- The route is the one of the record, on the recorded link. -/
def IsRouteOf (k : Kernel) (r : KernelRoute) (value : OwnedObject) : Prop :=
  r.table = value.tableID ∧ value.cidr = none ∧ isRecordedRoute r value = true ∧
    k.hasLink value.linkIndex value.linkIdentity = true

/-- Indices and names of links are unique, and what the reconciler wrote is what
it recorded. -/
structure Kernel.Sound (k : Kernel) : Prop where
  links : (k.links.map Prod.fst).Nodup
  names : (k.links.map (·.2.name)).Nodup
  addresses : ∀ a ∈ k.addresses, ∀ value, a.writer = some value → IsAddressOf k a value
  routes : ∀ r ∈ k.routes, ∀ value, r.writer = some value →
    IsRouteOf k r value ∧ r.protocol = ownedDHCPv4RouteProtocol

abbrev OwnedBooks := Books Kernel OwnedJournal

/-- The journal lists what the kernel holds of the reconciler's writes. -/
structure Covers (k : Kernel) (journal : OwnedJournal) : Prop where
  sound : k.Sound
  nodup : journal.objects.Nodup
  listed : ∀ value, k.Holds value → value ∈ journal.objects
  shaped : ∀ value ∈ journal.objects, value.Shaped
  /-- The objects of the earlier roles are looked for before anything is written. -/
  checked : ∀ value, k.Holds value → isLegacyRole value.consumerID = true →
    value.consumerID ∈ journal.legacyChecked

/-- How a call ends with an error. What it says of the file is for those who
rely on the disk. -/
structure Left (disk : Prop) (b : OwnedBooks) : Prop extends Covers b.kernel b.memory where
  file : disk → Covers b.kernel b.durable
  marks : disk → b.memory.legacyChecked ⊆ b.durable.legacyChecked

/-- How a call begins and how it ends without an error: the file has what memory
lists. -/
structure Ready (disk : Prop) (b : OwnedBooks) : Prop extends Left disk b where
  synced : disk → b.memory.objects ⊆ b.durable.objects

variable {disk : Prop}

/-- Only objects that the journal has for `who` are taken away. -/
structure Exclusive (who : OwnedObject → Prop) (b b' : OwnedBooks) : Prop where
  addresses : ∀ a ∈ b.kernel.addresses, a ∉ b'.kernel.addresses →
    ∃ value ∈ b.durable.objects, who value ∧ IsAddressOf b.kernel a value
  routes : ∀ r ∈ b.kernel.routes, r ∉ b'.kernel.routes →
    ∃ value ∈ b.durable.objects, who value ∧ IsRouteOf b.kernel r value

/-- A change of the books that keeps the file complete and takes away only what
is owned. -/
structure OwnedStep (disk : Prop) (who : OwnedObject → Prop) (b b' : OwnedBooks) : Prop where
  exclusive : disk → Exclusive who b b'
  file : disk → Covers b'.kernel b'.durable

section Steps

variable {who : OwnedObject → Prop} {b b' : OwnedBooks}

/-- Nothing is taken away where the kernel's objects stay. -/
theorem OwnedStep.of_same (haddresses : b'.kernel.addresses = b.kernel.addresses)
    (hroutes : b'.kernel.routes = b.kernel.routes) (hfile : disk → Covers b'.kernel b'.durable) :
    OwnedStep disk who b b' where
  exclusive _ :=
    { addresses := fun _ ha hno => absurd (haddresses ▸ ha) hno
      routes := fun _ hr hno => absurd (hroutes ▸ hr) hno }
  file := hfile

end Steps

/-- Every step is one of `OwnedStep`, and an error leaves the books in order. -/
abbrev Safe (disk : Prop) (who : OwnedObject → Prop) {α : Type} (P : OwnedBooks → Prop)
    (x : Owner α) (Q : α → OwnedBooks → Prop) : Prop :=
  Sat (OwnedStep disk who) P x Q fun _ => Left disk

section Reads

variable {α β : Type} {who : OwnedObject → Prop} {b₀ : OwnedBooks} {e : OwnedError}
  {Q : α → OwnedBooks → Prop}

theorem Safe.bindAsk {f : Kernel → β} {g : β → Owner α} (h₀ : Ready disk b₀)
    (h : Safe disk who (· = b₀) (g (f b₀.kernel)) Q) :
    Safe disk who (· = b₀) (Desk.ask e f >>= g) Q := by
  refine Sat.bindAsk (fun _ hb => hb ▸ h₀.toLeft) fun b hb => ?_
  subst hb
  exact h

theorem Safe.bindLook {g : OwnedBooks → Owner α} (h : Safe disk who (· = b₀) (g b₀) Q) :
    Safe disk who (· = b₀) (Desk.look >>= g) Q := by
  refine Sat.bindLook fun b hb => ?_
  subst hb
  exact h

theorem Safe.bindRefuse {c : Prop} [Decidable c] {g : Unit → Owner α} (h₀ : Ready disk b₀)
    (h : ¬ c → Safe disk who (· = b₀) (g ()) Q) :
    Safe disk who (· = b₀) (Prog.refuse c e >>= g) Q :=
  Sat.bindRefuse (fun _ hb _ => hb ▸ h₀.toLeft) h

end Reads

/-! ## The journal -/

variable {journal : OwnedJournal}

variable {value : OwnedObject}

theorem recorded_iff : journal.recorded value = true ↔ value ∈ journal.objects := by
  simp [OwnedJournal.recorded, sameObject_iff]

theorem eraseP_sameObject (objects : List OwnedObject) (value : OwnedObject) :
    (objects.eraseP fun old => sameObject old value) = objects.erase value := by
  rw [erase_eq_eraseP]
  congr 1
  funext old
  rw [Bool.eq_iff_iff, sameObject_iff, beq_iff_eq, eq_comm]

variable {k : Kernel}

theorem Covers.add (h : Covers k journal) (hnew : value ∉ journal.objects) (hshape : value.Shaped) :
    Covers k { journal with objects := journal.objects ++ [value] } where
  sound := h.sound
  nodup := by
    rw [nodup_append]
    refine ⟨h.nodup, by simp, ?_⟩
    rintro x hx y hy rfl
    exact hnew (mem_singleton.mp hy ▸ hx)
  listed v hv := mem_append_left _ (h.listed v hv)
  shaped := forall_mem_append.mpr ⟨h.shaped, forall_mem_singleton.mpr hshape⟩
  checked := h.checked

theorem Covers.drop (h : Covers k journal) (hgone : ¬ k.Holds value) :
    Covers k { journal with objects := journal.objects.eraseP fun old => sameObject old value } where
  sound := h.sound
  nodup := h.nodup.sublist eraseP_sublist
  listed v hv := by
    rw [eraseP_sameObject]
    have hne : v ≠ value := fun heq => hgone (heq ▸ hv)
    exact (mem_erase_of_ne hne).mpr (h.listed v hv)
  shaped v hv := h.shaped v (mem_of_mem_eraseP hv)
  checked := h.checked

theorem Covers.same {journal' : OwnedJournal} (h : Covers k journal)
    (hobjects : journal'.objects = journal.objects)
    (hmarks : journal.legacyChecked ⊆ journal'.legacyChecked) : Covers k journal' where
  sound := h.sound
  nodup := by rw [hobjects]; exact h.nodup
  listed := by rw [hobjects]; exact h.listed
  shaped := by rw [hobjects]; exact h.shaped
  checked v hv hrole := hmarks (h.checked v hv hrole)

variable {e : OwnedError}

variable {b₀ : OwnedBooks}

/-- A change of the journal that keeps it covering, with the file or without. -/
theorem change_sat {f : OwnedJournal → OwnedJournal} {who : OwnedObject → Prop} (h₀ : Ready disk b₀)
    (hcovers : Covers b₀.kernel (f b₀.memory))
    (hmarks : b₀.memory.legacyChecked ⊆ (f b₀.memory).legacyChecked) :
    Safe disk who (· = b₀) (Desk.change e f)
      (fun _ b => Ready disk b ∧ b.kernel = b₀.kernel ∧ b.memory = f b₀.memory) := by
  refine .change ?_ ?_ ?_ ?_ ?_ ?_ ?_ <;> rintro _ rfl
  · exact .of_same rfl rfl h₀.file
  · exact .of_same rfl rfl fun _ => hcovers
  · exact .of_same rfl rfl h₀.file
  · exact .of_same rfl rfl fun _ => hcovers
  · exact ⟨⟨⟨hcovers, fun _ => hcovers, fun _ => Subset.refl _⟩, fun _ => Subset.refl _⟩,
      rfl, rfl⟩
  · exact h₀.toLeft
  · exact ⟨h₀.toCovers, fun _ => hcovers, fun _ => hmarks⟩

/-- What stays when a record is written: the kernel, and the records so far. -/
structure Grown (disk : Prop) (b₀ b : OwnedBooks) : Prop extends Ready disk b where
  kernel : b.kernel = b₀.kernel
  memory : b₀.memory.objects ⊆ b.memory.objects
  checks : b.memory.legacyChecked = b₀.memory.legacyChecked

variable {who : OwnedObject → Prop}

theorem reserve_sat (hshape : value.Shaped) (h₀ : Ready disk b₀) :
    Safe disk who (· = b₀) (reserve value)
      (fun _ b => Grown disk b₀ b ∧ value ∈ b.memory.objects) := by
  refine Sat.bindLook fun b hb => Sat.ite (fun hrec => ?_) fun hrec => ?_
  · refine Sat.pure fun b' hb' => ?_
    subst hb hb'
    exact ⟨⟨h₀, rfl, Subset.refl _, rfl⟩, recorded_iff.mp hrec⟩
  · subst hb
    have hnew : value ∉ b.memory.objects := fun h => hrec (recorded_iff.mpr h)
    refine (change_sat h₀ (h₀.add hnew hshape) (Subset.refl _)).post ?_
    rintro _ b' ⟨hready, hkernel, hmemory⟩
    refine ⟨⟨hready, hkernel, ?_, by rw [hmemory]⟩, ?_⟩
    · rw [hmemory]
      exact subset_append_left _ _
    · rw [hmemory]
      simp

theorem forget_sat (h₀ : Ready disk b₀) (hgone : ¬ b₀.kernel.Holds value) :
    Safe disk who (· = b₀) (forget value)
      (fun _ b => Ready disk b ∧ b.kernel = b₀.kernel ∧
        b.memory.objects = b₀.memory.objects.erase value) := by
  refine Sat.bindLook fun b hb => Sat.ite (fun hrec => ?_) fun hrec => ?_
  · subst hb
    refine (change_sat h₀ (h₀.drop hgone) (Subset.refl _)).post ?_
    rintro _ b' ⟨hready, hkernel, hmemory⟩
    exact ⟨hready, hkernel, by rw [hmemory]; exact eraseP_sameObject _ _⟩
  · refine .pure fun b' hb' => ?_
    subst hb hb'
    refine ⟨h₀, rfl, (erase_of_not_mem fun h => hrec (recorded_iff.mpr h)).symm⟩

/-! ## Changes of the kernel -/

/-- The links and the records in memory are as before. -/
structure Framed (disk : Prop) (b₀ b : OwnedBooks) : Prop extends Ready disk b where
  links : b.kernel.links = b₀.kernel.links
  memory : b.memory.objects = b₀.memory.objects
  checks : b.memory.legacyChecked = b₀.memory.legacyChecked

variable {k' : Kernel}

theorem Kernel.hasLink_congr (h : k'.links = k.links) (index : Int) (identity : String) :
    k'.hasLink index identity = k.hasLink index identity := by
  unfold Kernel.hasLink Kernel.linkByIndex
  rw [h]

theorem IsAddressOf.congr {a : KernelAddress} (h : IsAddressOf k a value)
    (hlinks : k'.links = k.links) : IsAddressOf k' a value :=
  ⟨h.1, h.2.1, by rw [Kernel.hasLink_congr hlinks]; exact h.2.2⟩

theorem IsRouteOf.congr {r : KernelRoute} (h : IsRouteOf k r value) (hlinks : k'.links = k.links) :
    IsRouteOf k' r value :=
  ⟨h.1, h.2.1, h.2.2.1, by rw [Kernel.hasLink_congr hlinks]; exact h.2.2.2⟩

/-- The record is there, and the earlier roles have been looked at. -/
def Recorded (b : OwnedBooks) (value : OwnedObject) : Prop :=
  value ∈ b.memory.objects ∧
    (isLegacyRole value.consumerID = true → value.consumerID ∈ b.memory.legacyChecked)

variable {b : OwnedBooks}

/-- A kernel that has nothing new but what is recorded. -/
theorem Ready.withKernel (h : Ready disk b) (hlinks : k.links = b.kernel.links)
    (haddresses : ∀ a ∈ k.addresses, a ∈ b.kernel.addresses ∨
      ∃ value, Recorded b value ∧ a.writer = some value ∧ IsAddressOf b.kernel a value)
    (hroutes : ∀ r ∈ k.routes, r ∈ b.kernel.routes ∨
      ∃ value, Recorded b value ∧ r.writer = some value ∧ IsRouteOf b.kernel r value ∧
        r.protocol = ownedDHCPv4RouteProtocol) :
    Framed disk b { b with kernel := k } := by
  have hsound : k.Sound := by
    refine ⟨by rw [hlinks]; exact h.sound.links, by rw [hlinks]; exact h.sound.names, ?_, ?_⟩
    · intro a ha value hw
      rcases haddresses a ha with hold | ⟨other, -, hother, his⟩
      · exact (h.sound.addresses a hold value hw).congr hlinks
      · obtain rfl : other = value := Option.some.inj (hother.symm.trans hw)
        exact his.congr hlinks
    · intro r hr value hw
      rcases hroutes r hr with hold | ⟨other, -, hother, his, hproto⟩
      · obtain ⟨his, hproto⟩ := h.sound.routes r hold value hw
        exact ⟨his.congr hlinks, hproto⟩
      · obtain rfl : other = value := Option.some.inj (hother.symm.trans hw)
        exact ⟨his.congr hlinks, hproto⟩
  have hrecorded : ∀ value, k.Holds value → Recorded b value := by
    rintro value (⟨a, ha, hw⟩ | ⟨r, hr, hw⟩)
    · rcases haddresses a ha with hold | ⟨other, hrec, hother, -⟩
      · exact ⟨h.listed value (.inl ⟨a, hold, hw⟩), h.checked value (.inl ⟨a, hold, hw⟩)⟩
      · exact Option.some.inj (hother.symm.trans hw) ▸ hrec
    · rcases hroutes r hr with hold | ⟨other, hrec, hother, -⟩
      · exact ⟨h.listed value (.inr ⟨r, hold, hw⟩), h.checked value (.inr ⟨r, hold, hw⟩)⟩
      · exact Option.some.inj (hother.symm.trans hw) ▸ hrec
  have hmemory : Covers k b.memory :=
    ⟨hsound, h.nodup, fun v hv => (hrecorded v hv).1, h.shaped, fun v hv => (hrecorded v hv).2⟩
  have hfile (hd : disk) : Covers k b.durable :=
    ⟨hsound, (h.file hd).nodup, fun v hv => h.synced hd (hrecorded v hv).1, (h.file hd).shaped,
      fun v hv hrole => h.marks hd ((hrecorded v hv).2 hrole)⟩
  exact ⟨⟨⟨hmemory, hfile, h.marks⟩, h.synced⟩, hlinks, rfl, rfl⟩

/-- A kernel that has only less. -/
theorem Ready.withLess (h : Ready disk b) (hlinks : k.links = b.kernel.links)
    (haddresses : k.addresses ⊆ b.kernel.addresses) (hroutes : k.routes ⊆ b.kernel.routes) :
    Framed disk b { b with kernel := k } :=
  h.withKernel hlinks (fun _ ha => .inl (haddresses ha)) fun _ hr => .inl (hroutes hr)

theorem Framed.refl (h : Ready disk b) : Framed disk b b := ⟨h, rfl, rfl, rfl⟩

variable {b₁ : OwnedBooks}

variable {b₂ : OwnedBooks}

theorem Framed.trans (h : Framed disk b₀ b₁) (h' : Framed disk b₁ b₂) : Framed disk b₀ b₂ :=
  ⟨h'.toReady, h'.links.trans h.links, h'.memory.trans h.memory, h'.checks.trans h.checks⟩

/-- A change of the kernel that leaves the books in order and takes away only
what is owned. -/
theorem act_sat {f : Kernel → Option Kernel} {P : OwnedBooks → Prop} {Q : Unit → OwnedBooks → Prop}
    (hP : ∀ b, P b → Ready disk b) (hstep : ∀ b k, P b → f b.kernel = some k →
      Framed disk b { b with kernel := k } ∧ (disk → Exclusive who b { b with kernel := k }))
    (hQ : ∀ b k, P b → f b.kernel = some k → Framed disk b { b with kernel := k } →
      Q () { b with kernel := k }) :
    Safe disk who P (Desk.act e f) Q := by
  refine .act (fun b hb => (hP b hb).toLeft) ?_ ?_ ?_
  · intro b k hb hk
    obtain ⟨hframed, hexcl⟩ := hstep b k hb hk
    exact ⟨hexcl, hframed.file⟩
  · intro b k hb hk
    exact hQ b k hb hk (hstep b k hb hk).1
  · intro b k hb hk
    exact (hstep b k hb hk).1.toLeft

/-! ## Removal -/

section Removal

variable {value : OwnedObject} {b₀ : OwnedBooks}

/-- After a removal the object is gone. -/
structure Removed (disk : Prop) (value : OwnedObject) (b₀ b : OwnedBooks) : Prop extends
    Framed disk b₀ b where
  gone : ¬ b.kernel.Holds value

theorem removeDHCPv4Address_sat {cidr : CIDR} (h₀ : Ready disk b₀) (hcidr : value.cidr = some cidr)
    (hmem : value ∈ b₀.memory.objects) (hwho : who value)
    (hlink : b₀.kernel.hasLink value.linkIndex value.linkIdentity = true) :
    Safe disk who (· = b₀) (removeDHCPv4Address value cidr)
      (fun _ => Removed disk value b₀) := by
  -- What is left of the address is what the loop has yet to come to.
  let I : List KernelAddress → OwnedBooks → Prop := fun rest b =>
    Framed disk b₀ b ∧ ∀ a ∈ b.kernel.addresses, a.link = value.linkIndex → a.cidr = cidr → a ∈ rest
  refine Sat.bindAsk (fun b hb => hb ▸ h₀.toLeft) fun b hb => ?_
  subst hb
  refine .conseq (.forM (I := I) ?_ _) ?_ ?_ fun _ _ h => h
  · intro address rest
    refine .ite (fun hc => ?_) fun hc => ?_
    · refine act_sat (fun b' hI => hI.1.toReady) ?_ ?_
      · rintro b' k ⟨hf, -⟩ hk
        cases hk
        refine ⟨hf.withLess rfl (filter_subset_self _) (Subset.refl _), fun hd => ⟨?_, ?_⟩⟩
        · intro a ha hno
          have hsame : a.link = value.linkIndex ∧ a.cidr = address.cidr := by
            simpa [mem_filter, ha] using hno
          refine ⟨value, hf.synced hd (hf.memory ▸ hmem), hwho, hsame.1, ?_, ?_⟩
          · rw [hcidr, hsame.2, hc]
          · rw [Kernel.hasLink_congr hf.links]
            exact hlink
        · exact fun r hr hno => absurd hr hno
      · rintro b' k ⟨hf, -⟩ hk hframed
        cases hk
        refine ⟨hf.trans hframed, fun a ha hl hac => ?_⟩
        simp [mem_filter, hl, hac, hc] at ha
    · refine .pure fun b' hI => ⟨hI.1, fun a ha hl hac => ?_⟩
      rcases mem_cons.mp (hI.2 a ha hl hac) with rfl | hrest
      · exact absurd hac hc
      · exact hrest
  · rintro b' rfl
    exact ⟨Framed.refl h₀, fun a ha hl _ => mem_filter.mpr ⟨ha, by simpa using hl⟩⟩
  · rintro _ b' ⟨hf, hnone⟩
    refine ⟨hf, ?_⟩
    rintro (⟨a, ha, hw⟩ | ⟨r, hr, hw⟩)
    · obtain ⟨hl, hac, -⟩ := hf.sound.addresses a ha value hw
      exact not_mem_nil (hnone a ha hl (Option.some.inj (hac.symm.trans hcidr)))
    · have hno := (hf.sound.routes r hr value hw).1.2.1
      rw [hcidr] at hno
      cases hno

theorem removeDHCPv4Route_sat (h₀ : Ready disk b₀) (hcidr : value.cidr = none)
    (hmem : value ∈ b₀.memory.objects) (hwho : who value)
    (hlink : b₀.kernel.hasLink value.linkIndex value.linkIdentity = true) :
    Safe disk who (· = b₀) (removeDHCPv4Route value)
      (fun _ => Removed disk value b₀) := by
  let I : List KernelRoute → OwnedBooks → Prop := fun rest b =>
    Framed disk b₀ b ∧ (∀ r ∈ rest, r.table = value.tableID) ∧
      ∀ r ∈ b.kernel.routes, r.table = value.tableID → isRecordedRoute r value = true → r ∈ rest
  refine Sat.bindAsk (fun b hb => hb ▸ h₀.toLeft) fun b hb => ?_
  subst hb
  refine .conseq (.forM (I := I) ?_ _) ?_ ?_ fun _ _ h => h
  · intro route rest
    refine .ite (fun hc => ?_) fun hc => ?_
    · refine act_sat (fun b' hI => hI.1.toReady) ?_ ?_
      · rintro b' k ⟨hf, htable, -⟩ hk
        cases hk
        refine ⟨hf.withLess rfl (Subset.refl _) (filter_subset_self _), fun hd => ⟨?_, ?_⟩⟩
        · exact fun a ha hno => absurd ha hno
        · intro r hr hno
          -- The kernel takes a route that agrees with the listed one in all it compares.
          have hsame : Kernel.sameKey route r = true ∧ r.protocol = route.protocol ∧
              r.link = route.link ∧ r.gw = route.gw ∧ r.multiPath = route.multiPath := by
            simpa [mem_filter, hr, and_assoc] using hno
          obtain ⟨hkey, hproto, hl, hgw, -⟩ := hsame
          obtain ⟨hkt, hkd, hkp⟩ := Kernel.sameKey_iff.mp hkey
          refine ⟨value, hf.synced hd (hf.memory ▸ hmem), hwho, ?_, hcidr, ?_, ?_⟩
          · rw [← hkt]
            exact htable route mem_cons_self
          · simpa [isRecordedRoute, dhcpv4RouteMatches, hproto, hl, hgw, ← hkp, ← hkd] using hc
          · rw [Kernel.hasLink_congr hf.links]
            exact hlink
      · rintro b' k ⟨hf, htable, hleft⟩ hk hframed
        cases hk
        refine ⟨hf.trans hframed, (forall_mem_cons.mp htable).2, fun r hr ht hrec => ?_⟩
        obtain ⟨hr, hkeep⟩ := mem_filter.mp hr
        rcases mem_cons.mp (hleft r hr ht hrec) with rfl | hrest
        · simp [Kernel.sameKey] at hkeep
        · exact hrest
    · refine .pure ?_
      rintro b' ⟨hf, htable, hleft⟩
      refine ⟨hf, (forall_mem_cons.mp htable).2, fun r hr ht hrec => ?_⟩
      rcases mem_cons.mp (hleft r hr ht hrec) with rfl | hrest
      · exact absurd hrec hc
      · exact hrest
  · rintro b' rfl
    refine ⟨Framed.refl h₀, fun r hr => by simpa using (mem_filter.mp hr).2, ?_⟩
    exact fun r hr ht _ => mem_filter.mpr ⟨hr, by simpa using ht⟩
  · rintro _ b' ⟨hf, -, hnone⟩
    refine ⟨hf, ?_⟩
    rintro (⟨a, ha, hw⟩ | ⟨r, hr, hw⟩)
    · have hno := (hf.sound.addresses a ha value hw).2.1
      rw [hcidr] at hno
      cases hno
    · obtain ⟨ht, -, hrec, -⟩ := (hf.sound.routes r hr value hw).1
      exact not_mem_nil (hnone r hr ht hrec)

/-- A record goes after its object is gone. -/
theorem remove_sat (h₀ : Ready disk b₀) (hmem : value ∈ b₀.memory.objects) (hwho : who value) :
    Safe disk who (· = b₀) (remove value)
      (fun _ b => Ready disk b ∧ b.kernel.links = b₀.kernel.links ∧
        b.memory.objects = b₀.memory.objects.erase value) := by
  refine Sat.bindAsk (fun b hb => hb ▸ h₀.toLeft) fun b hb => Sat.ite (fun hlive => ?_) fun hlive => ?_
  · subst hb
    have hforget : Safe disk who (Removed disk value b) (forget value)
        (fun _ b' => Ready disk b' ∧ b'.kernel.links = b.kernel.links ∧
          b'.memory.objects = b.memory.objects.erase value) := by
      refine .given fun b₁ h₁ => (forget_sat h₁.toReady h₁.gone).post ?_
      rintro _ b₂ ⟨hready, hkernel, hobjects⟩
      exact ⟨hready, by rw [hkernel, h₁.links], by rw [hobjects, h₁.memory]⟩
    cases hc : value.cidr with
    | some => exact .bind (removeDHCPv4Address_sat h₀ hc hmem hwho hlive) fun _ => hforget
    | none => exact .bind (removeDHCPv4Route_sat h₀ hc hmem hwho hlive) fun _ => hforget
  · subst hb
    have hgone : ¬ b.kernel.Holds value := by
      rintro (⟨a, ha, hw⟩ | ⟨r, hr, hw⟩)
      · exact hlive (h₀.sound.addresses a ha value hw).2.2
      · exact hlive (h₀.sound.routes r hr value hw).1.2.2.2
    exact (forget_sat h₀ hgone).post fun _ b' h => ⟨h.1, by rw [h.2.1], h.2.2⟩

/-- The records of a list are removed, one after the other. -/
theorem removeAll_sat {p : OwnedObject → Prop} [DecidablePred p] (hp : ∀ old, p old → who old)
    (h₀ : Ready disk b₀) :
    Safe disk who (· = b₀)
      (b₀.memory.objects.forM fun old => if p old then remove old else pure ())
      (fun _ => Ready disk) := by
  let I : List OwnedObject → OwnedBooks → Prop := fun rest b =>
    Ready disk b ∧ rest.Nodup ∧ rest ⊆ b.memory.objects
  refine .conseq (.forM (I := I) ?_ _) ?_ (fun _ _ h => h.1) fun _ _ h => h
  · intro old rest
    refine .given fun b hI => ?_
    obtain ⟨hready, hnodup, hsub⟩ := hI
    obtain ⟨hnot, hrest⟩ := nodup_cons.mp hnodup
    refine .ite (fun hc => ?_) fun hc => ?_
    · refine (remove_sat hready (hsub mem_cons_self) (hp old hc)).post ?_
      rintro _ b' ⟨hready', -, hobjects⟩
      refine ⟨hready', hrest, fun x hx => ?_⟩
      rw [hobjects]
      have hne : x ≠ old := fun h => hnot (h ▸ hx)
      exact (mem_erase_of_ne hne).mpr (hsub (.tail _ hx))
    · refine .pure fun b' hb' => ?_
      subst hb'
      exact ⟨hready, hrest, fun x hx => hsub (.tail _ hx)⟩
  · rintro b rfl
    exact ⟨h₀, h₀.nodup, Subset.refl _⟩

end Removal

/-! ## Writing -/

section Writing

variable {value : OwnedObject} {b₀ : OwnedBooks}

/-- The links are as before, and what has been looked at has. -/
structure Linked (disk : Prop) (b₀ b : OwnedBooks) : Prop extends Ready disk b where
  links : b.kernel.links = b₀.kernel.links
  checks : b₀.memory.legacyChecked ⊆ b.memory.legacyChecked

theorem Linked.of_eq (h₀ : Ready disk b₀) (h : b = b₀) : Linked disk b₀ b := by
  subst h
  exact ⟨h₀, rfl, Subset.refl _⟩

theorem Linked.trans (h : Linked disk b₀ b₁) (h' : Linked disk b₁ b₂) : Linked disk b₀ b₂ :=
  ⟨h'.toReady, h'.links.trans h.links, Subset.trans h.checks h'.checks⟩

theorem Grown.linked (h : Grown disk b₀ b) : Linked disk b₀ b :=
  ⟨h.toReady, by rw [h.kernel], by rw [h.checks]; exact Subset.refl _⟩

theorem Framed.linked (h : Framed disk b₀ b) : Linked disk b₀ b :=
  ⟨h.toReady, h.links, by rw [h.checks]; exact Subset.refl _⟩

/-- A kernel that is written into with the record at hand. -/
theorem write_sat {f : Kernel → Option Kernel}
    (hstep : ∀ b k, Grown disk b₀ b ∧ value ∈ b.memory.objects → f b.kernel = some k →
      Framed disk b { b with kernel := k } ∧ (disk → Exclusive who b { b with kernel := k })) :
    Safe disk who (fun b => Grown disk b₀ b ∧ value ∈ b.memory.objects) (Desk.act e f)
      (fun _ => Linked disk b₀) :=
  act_sat (fun _ hb => hb.1.toReady) hstep fun _ _ hb _ hframed => hb.1.linked.trans hframed.linked

/-- An address is written after its record, where there is none of its value. -/
theorem ensureAddress_sat {cidr : CIDR} (h₀ : Ready disk b₀) (hcidr : value.cidr = some cidr)
    (hshape : value.Shaped)
    (hrole : isLegacyRole value.consumerID = true → value.consumerID ∈ b₀.memory.legacyChecked)
    (hlink : b₀.kernel.hasLink value.linkIndex value.linkIdentity = true) :
    Safe disk who (· = b₀) (ensureAddress value.linkIndex value cidr)
      (fun _ => Linked disk b₀) := by
  refine .bindAsk h₀ (.bindLook ?_)
  refine .bindRefuse h₀ fun _ => ?_
  refine .bindRefuse h₀ fun _ => ?_
  refine .ite (fun _ => .pure fun _ => .of_eq h₀) fun hfound => ?_
  have hnone : ∀ a ∈ b₀.kernel.addresses, a.link = value.linkIndex → a.cidr ≠ cidr := by
    intro a ha hl hac
    apply hfound
    rw [any_eq_true]
    exact ⟨a, mem_filter.mpr ⟨ha, by simpa using hl⟩, by simpa using hac⟩
  refine .bind (reserve_sat hshape h₀) fun _ => ?_
  -- The new kernel has the address and whatever it had before.
  have hstep : ∀ b k, Grown disk b₀ b ∧ value ∈ b.memory.objects →
      (∀ a ∈ k.addresses, a ∈ b.kernel.addresses ∨ a = .of value cidr) →
      b.kernel.addresses ⊆ k.addresses → k.links = b.kernel.links → k.routes = b.kernel.routes →
      Framed disk b { b with kernel := k } ∧ (disk → Exclusive who b { b with kernel := k }) := by
    rintro b k ⟨hg, hmem⟩ hnew hold hlinks hroutes
    refine ⟨hg.withKernel hlinks ?_ fun r hr => .inl (hroutes ▸ hr), fun _ => ⟨?_, ?_⟩⟩
    · intro a ha
      rcases hnew a ha with hin | rfl
      · exact .inl hin
      · have hlive : b.kernel.hasLink value.linkIndex value.linkIdentity = true := by
          rw [hg.kernel]
          exact hlink
        exact .inr ⟨value, ⟨hmem, by rw [hg.checks]; exact hrole⟩, rfl, rfl, hcidr, hlive⟩
    · exact fun a ha hno => absurd (hold ha) hno
    · exact fun r hr hno => absurd (show r ∈ k.routes from hroutes ▸ hr) hno
  refine .ite (fun _ => ?_) fun _ => ?_
  · refine write_sat fun b k hb hk => ?_
    cases hk
    refine hstep b _ hb ?_ ?_ rfl rfl
    · intro a ha
      exact (mem_append.mp ha).imp (fun hin => (mem_filter.mp hin).1) mem_singleton.mp
    · intro a ha
      have hne : a.link = value.linkIndex → a.cidr ≠ cidr := hnone a (hb.1.kernel ▸ ha)
      refine mem_append_left _ (mem_filter.mpr ⟨ha, ?_⟩)
      by_cases hl : a.link = value.linkIndex
      · simp [KernelAddress.of, hne hl]
      · simp [KernelAddress.of, hl]
  · refine write_sat fun b k hb hk => ?_
    unfold Kernel.addrAdd at hk
    split at hk
    · cases hk
    · cases hk
      refine hstep b _ hb ?_ (subset_append_left _ _) rfl rfl
      exact fun a ha => (mem_append.mp ha).imp_right mem_singleton.mp

/-- A recorded route of the kernel has a record of the same owner and link. -/
theorem recordedRoute_record {route : KernelRoute} (h : journal.recordedRoute route value = true)
    (hmetric : route.priority = value.metric) :
    ∃ old ∈ journal.objects, sameOwner old value = true ∧ old.tableID = value.tableID ∧
      old.cidr = none ∧ isRecordedRoute route old = true ∧ old.linkIndex = value.linkIndex ∧
      old.linkIdentity = value.linkIdentity := by
  obtain ⟨old, hmem, hold⟩ := any_eq_true.mp h
  simp only [Bool.and_eq_true, decide_eq_true_eq, sameLink, Option.isNone_iff_eq_none] at hold
  obtain ⟨⟨⟨⟨⟨⟨⟨⟨hcidr, howner⟩, ⟨hindex, hidentity⟩, -⟩, htable⟩, hm⟩, hdst⟩, hproto⟩, hlink⟩, hgw⟩ := hold
  refine ⟨old, hmem, howner, htable, hcidr, ?_, hindex, hidentity⟩
  simp [isRecordedRoute, hmetric, hm, hdst, hproto, hlink, hgw]

/-- A route is written after its record, in the place of recorded ones alone. -/
theorem ensureRoute_sat {dst : CIDR} (h₀ : Ready disk b₀) (hcidr : value.cidr = none)
    (hshape : value.Shaped)
    (hrole : isLegacyRole value.consumerID = true → value.consumerID ∈ b₀.memory.legacyChecked)
    (hdst : value.destination = some dst) (hlegacy : value.legacyProtocol = 0)
    (hlink : b₀.kernel.hasLink value.linkIndex value.linkIdentity = true)
    (hwho : ∀ old, sameOwner old value = true → who old) :
    Safe disk who (· = b₀) (ensureRoute value dst)
      (fun _ => Linked disk b₀) := by
  refine .bindAsk h₀ (.bindLook ?_)
  refine .bindRefuse h₀ fun hrec => ?_
  refine .ite (fun _ => .pure fun _ => .of_eq h₀) fun _ => ?_
  -- Every route of the same key has a record of the same owner and link.
  have hsame : ∀ r ∈ b₀.kernel.routes, Kernel.sameKey (.of value dst) r = true →
      ∃ old ∈ b₀.memory.objects, who old ∧ IsRouteOf b₀.kernel r old := by
    intro r hr hkey
    obtain ⟨htable, hkdst, hprio⟩ := Kernel.sameKey_iff.mp hkey
    change value.tableID = r.table at htable
    change dst = r.dst at hkdst
    change value.metric = r.priority at hprio
    have hrecorded : b₀.memory.recordedRoute r value = true := by
      by_contra hno
      apply hrec
      rw [any_eq_true]
      refine ⟨r, ?_, by simpa using hno⟩
      simp [mem_filter, hr, htable, hprio, dhcpv4RouteMatches, hdst, hkdst]
    obtain ⟨old, hmem, howner, ht, hc, hiso, hindex, hidentity⟩ :=
      recordedRoute_record hrecorded hprio.symm
    exact ⟨old, hmem, hwho old howner, by rw [ht, htable], hc, hiso, by
      rw [hindex, hidentity]
      exact hlink⟩
  have hself : IsRouteOf b₀.kernel (.of value dst) value := by
    refine ⟨rfl, hcidr, ?_, hlink⟩
    simp [isRecordedRoute, KernelRoute.of, dhcpv4RouteMatches, dhcpv4RouteProtocol, hdst, hlegacy]
  have hwritten {b : OwnedBooks} (hg : Grown disk b₀ b) (hmem : value ∈ b.memory.objects) :
      ∃ v, Recorded b v ∧ (KernelRoute.of value dst).writer = some v ∧
        IsRouteOf b.kernel (.of value dst) v ∧ (KernelRoute.of value dst).protocol = ownedDHCPv4RouteProtocol :=
    ⟨value, ⟨hmem, by rw [hg.checks]; exact hrole⟩, rfl, hself.congr (by rw [hg.kernel]), rfl⟩
  refine .bind (reserve_sat hshape h₀) fun _ => .ite (fun _ => ?_) fun _ => ?_
  · refine write_sat ?_
    rintro b k ⟨hg, hmem⟩ hk
    unfold Kernel.routeAdd at hk
    split at hk
    · cases hk
    · cases hk
      refine ⟨hg.withKernel rfl (fun _ ha => .inl ha) ?_, fun _ => ⟨fun a ha hno => absurd ha hno,
        fun r hr hno => absurd (mem_append_left _ hr) hno⟩⟩
      exact forall_mem_append.mpr ⟨fun _ => .inl, forall_mem_singleton.mpr (.inr (hwritten hg hmem))⟩
  · refine write_sat ?_
    rintro b k ⟨hg, hmem⟩ hk
    cases hk
    refine ⟨hg.withKernel rfl (fun _ ha => .inl ha) ?_,
      fun hd => ⟨fun a ha hno => absurd ha hno, ?_⟩⟩
    · exact forall_mem_append.mpr ⟨fun _ hin => .inl (mem_of_mem_eraseP hin),
        forall_mem_singleton.mpr (.inr (hwritten hg hmem))⟩
    · intro r hr hno
      have hkey : Kernel.sameKey (.of value dst) r = true := by
        by_contra hdiff
        exact hno (mem_append_left _ ((mem_eraseP_of_neg (by simpa using hdiff)).mpr hr))
      obtain ⟨old, hold, hw, his⟩ := hsame r (hg.kernel ▸ hr) hkey
      exact ⟨old, hg.synced hd (hg.memory hold), hw, his.congr (by rw [hg.kernel])⟩

end Writing

/-! ## Promotion of secondary addresses -/

section Promotion

variable {b₀ : OwnedBooks} {base : OwnedObject}

/-- Addresses, routes, links and the records of them are as before. -/
structure Still (disk : Prop) (b₀ b : OwnedBooks) : Prop extends Framed disk b₀ b where
  addresses : b.kernel.addresses = b₀.kernel.addresses
  routes : b.kernel.routes = b₀.kernel.routes

/-- The operation leaves the objects alone. -/
abbrev Quiet (disk : Prop) (who : OwnedObject → Prop) {α : Type} (x : Owner α) : Prop :=
  ∀ b₀, Safe disk who (Still disk b₀) x fun _ => Still disk b₀

theorem Still.refl (h : Ready disk b₀) : Still disk b₀ b₀ := ⟨Framed.refl h, rfl, rfl⟩

/-- A change of the promotion records. -/
theorem changePromotion_sat (f : OwnedJournal → List OwnedPromotion) :
    Quiet disk who (Desk.change e fun journal => { journal with promotion := f journal }) := by
  refine fun b₀ => .given fun b hb => ?_
  have hcovers : Covers b.kernel { b.memory with promotion := f b.memory } :=
    hb.toCovers.same rfl (Subset.refl _)
  refine (change_sat hb.toReady hcovers (Subset.refl _)).post ?_
  rintro _ b' ⟨hready, hkernel, hmemory⟩
  refine ⟨⟨hready, ?_, ?_, ?_⟩, ?_, ?_⟩
  · rw [hkernel, hb.links]
  · rw [hmemory, ← hb.memory]
  · rw [hmemory, ← hb.checks]
  · rw [hkernel, hb.addresses]
  · rw [hkernel, hb.routes]

theorem readPromotion_sat (name : String) : Quiet disk who (readPromotion name) := by
  refine fun _ => Sat.bindAsk (fun b hb => hb.toLeft) fun b hb => ?_
  exact .orFail (fun _ hd => hd ▸ hb.toLeft) fun _ _ _ hd => hd ▸ hb

theorem writePromotion_sat (name : String) (on : Bool) : Quiet disk who (writePromotion name on) := by
  intro b₀
  refine .bind (R := fun _ => Still disk b₀) (act_sat (fun b hb => hb.toReady) ?_ ?_) fun _ => ?_
  · intro b k hb hk
    obtain ⟨link, -, rfl⟩ := Option.map_eq_some_iff.mp hk
    refine ⟨hb.withLess rfl (Subset.refl _) (Subset.refl _), fun _ => ⟨?_, ?_⟩⟩
    · exact fun a hin hno => absurd hin hno
    · exact fun r hin hno => absurd hin hno
  · intro b k hb hk hframed
    obtain ⟨link, -, rfl⟩ := Option.map_eq_some_iff.mp hk
    exact ⟨hb.toFramed.trans hframed, hb.addresses, hb.routes⟩
  · exact .bind (readPromotion_sat name b₀) fun _ =>
      Sat.refuse (fun _ hb _ => hb.toLeft) fun _ hb _ => hb

theorem forgetPromotion_sat (record : OwnedPromotion) : Quiet disk who (forgetPromotion record) :=
  changePromotion_sat _

variable {α : Type}

/-- What the books say now does not matter to what leaves the objects alone. -/
theorem Quiet.look {g : OwnedBooks → Owner α} (h : ∀ b, Quiet disk who (g b)) :
    Quiet disk who (Desk.look >>= g) :=
  fun b₀ => Sat.bindLook fun b hb => (h b b₀).pre fun _ h => h ▸ hb

theorem Quiet.ask {β : Type} {f : Kernel → β} {g : β → Owner α} (h : ∀ a, Quiet disk who (g a)) :
    Quiet disk who (Desk.ask e f >>= g) :=
  fun b₀ => Sat.bindAsk (fun _ h => h.toLeft) fun b hb => (h _ b₀).pre fun _ h => h ▸ hb

theorem Quiet.bind {β : Type} {x : Owner β} {g : β → Owner α} (hx : Quiet disk who x)
    (hg : ∀ a, Quiet disk who (g a)) : Quiet disk who (x >>= g) :=
  fun b₀ => .bind (hx b₀) fun a => hg a b₀

variable {x : Owner α}

theorem Quiet.ite {c : Prop} [Decidable c] {y : Owner α} (hx : Quiet disk who x)
    (hy : Quiet disk who y) : Quiet disk who (if c then x else y) :=
  fun b₀ => .ite (fun _ => hx b₀) fun _ => hy b₀

theorem restorePromotion_sat : Quiet disk who (restorePromotion base) := by
  refine .look fun b => ?_
  cases b.memory.promotionOf base with
  | none => exact fun _ => .pure fun _ h => h
  | some record =>
    have hforget : Quiet disk who (forgetPromotion record) := forgetPromotion_sat record
    refine .ask fun live => ?_
    cases live with
    | none => exact hforget
    | some link =>
      refine .ite (.bind (readPromotion_sat link.name) fun current b₀ => ?_) hforget
      refine Sat.bindRefuse (fun _ h _ => h.toLeft) fun _ => ?_
      exact Quiet.ite (Quiet.bind (writePromotion_sat link.name record.previous) fun _ => hforget)
        hforget b₀

theorem promote_sat : Quiet disk who (promote base) :=
  Quiet.bind (readPromotion_sat base.linkName) fun _ =>
    Quiet.bind (changePromotion_sat _) fun _ => writePromotion_sat base.linkName true

theorem ensurePromotion_sat : Quiet disk who (ensurePromotion base) := by
  refine .look fun b => ?_
  cases b.memory.promotionOf base with
  | none => exact promote_sat
  | some record =>
    refine .ite (writePromotion_sat base.linkName true) (.ask fun _ => ?_)
    exact .ite (.bind restorePromotion_sat fun _ => promote_sat)
      (.bind (forgetPromotion_sat record) fun _ => promote_sat)

/-- What leaves the objects alone keeps the books in order. -/
theorem Quiet.linked (h : Quiet disk who x) (b₁ : OwnedBooks) :
    Safe disk who (Linked disk b₁) x (fun _ => Linked disk b₁) := by
  refine .given fun b hb => .conseq (h b) (fun b' hb' => ?_) (fun _ b' hb' => ?_) fun _ _ h => h
  · subst hb'
    exact Still.refl hb.toReady
  · exact hb.trans hb'.toFramed.linked

theorem Quiet.ready (h : Quiet disk who x) : Safe disk who (Ready disk) x (fun _ => Ready disk) :=
  Sat.given fun b hb => .conseq (h.linked b) (fun _ => .of_eq hb) (fun _ _ h => h.toReady)
    fun _ _ h => h

end Promotion

/-! ## Calls -/

section Calls

variable {b₀ : OwnedBooks} {base : OwnedObject} {metric : Int}

theorem checkRoutes_sat (h₀ : Ready disk b₀) (values : List OwnedObject) :
    Safe disk who (· = b₀) (checkRoutes values) (fun _ b => b = b₀) := by
  induction values with
  | nil => exact .pure fun _ h => h
  | cons value rest ih =>
    refine .bindAsk h₀ (.bindLook ?_)
    exact .bindRefuse h₀ fun _ => ih

theorem checkConflicts_sat (h₀ : Ready disk b₀) (link : Int) (desired : List OwnedObject) :
    Safe disk who (· = b₀) (checkConflicts link desired) (fun _ b => b = b₀) := by
  refine .bindAsk h₀ (.bindLook ?_)
  exact .bindRefuse h₀ fun _ => checkRoutes_sat h₀ _

theorem legacyAddress_sat (h₀ : Ready disk b₀) (link : Int) (value : OwnedObject) (cidr : CIDR) :
    Safe disk who (· = b₀) (legacyAddress link value cidr) (fun _ b => b = b₀) := by
  refine .bindAsk h₀ (.bindLook ?_)
  exact .bindRaise (fun _ b hb _ => hb ▸ h₀.toLeft) fun _ => .pure fun _ h => h

theorem legacyDefault_sat (h₀ : Ready disk b₀) (hcidr : base.cidr = none) :
    Safe disk who (· = b₀) (legacyDefault base metric)
      (fun found b => b = b₀ ∧ ∀ value, found = some value → value.Shaped) := by
  refine .bindAsk h₀ (.bindLook ?_)
  dsimp only
  split
  · exact .pure fun _ h => ⟨h, fun _ hnone => nomatch hnone⟩
  · refine .bindRefuse h₀ fun hboot => ?_
    refine .bindRefuse h₀ fun _ => .pure fun _ h => ⟨h, ?_⟩
    rintro value hvalue
    cases hvalue
    simp only [not_or, not_not] at hboot
    simp [OwnedObject.Shaped, hcidr, hboot.1, Option.isSome_iff_ne_none, hboot.2.2.1]

/-- A record of an object that is in the kernel already. -/
theorem adopt_sat (hshape : value.Shaped) :
    Safe disk who (Linked disk b₁) (reserve value) (fun _ => Linked disk b₁) :=
  Sat.given fun _ h => (reserve_sat hshape h.toReady).post fun _ _ h' => h.trans h'.1.linked

/-- Afterwards the earlier roles have been looked at. -/
theorem adoptLegacy_sat (base : OwnedObject) (h₀ : Ready disk b₀) (hcidr : base.cidr = none) (link : Int)
    {address : OwnedObject} (hshape : address.Shaped) (cidr : CIDR) :
    Safe disk who (· = b₀) (adoptLegacy link base address cidr metric)
      (fun _ b => Linked disk b₀ b ∧
        (isLegacyRole base.consumerID = true → base.consumerID ∈ b.memory.legacyChecked)) := by
  have hmark : Safe disk who (Linked disk b₀) (Desk.change OwnedError.journal fun journal =>
      { journal with legacyChecked := journal.legacyChecked ++ [base.consumerID] })
      (fun _ b => Linked disk b₀ b ∧
        (isLegacyRole base.consumerID = true → base.consumerID ∈ b.memory.legacyChecked)) := by
    refine .given fun b hb => ?_
    have hmore : b.memory.legacyChecked ⊆ b.memory.legacyChecked ++ [base.consumerID] :=
      subset_append_left _ _
    refine (change_sat hb.toReady (hb.toCovers.same rfl hmore) hmore).post ?_
    rintro _ b' ⟨hready, hkernel, hmemory⟩
    refine ⟨⟨hready, by rw [hkernel, hb.links], ?_⟩, fun _ => ?_⟩
    · rw [hmemory]
      exact Subset.trans hb.checks hmore
    · rw [hmemory]
      simp
  refine Sat.bindLook fun b hb => Sat.ite (fun hdone => Sat.pure fun b' hb' => ?_) fun _ => ?_
  · subst hb hb'
    refine ⟨.of_eq h₀ rfl, fun hrole => ?_⟩
    rcases hdone with hno | hin
    · rw [hno] at hrole
      cases hrole
    · exact hin
  · subst hb
    refine .bind (legacyAddress_sat h₀ link address cidr) fun adopt => ?_
    refine .bind (legacyDefault_sat h₀ hcidr) fun route => ?_
    refine .given fun b₁ h₁ => ?_
    obtain ⟨rfl, hroute⟩ := h₁
    refine .pre (A := Linked disk b₁) ?_ fun _ => .of_eq h₀
    refine .ite (fun _ => .bind (adopt_sat hshape) fun _ => ?_) fun _ => ?_
    all_goals
      cases route with
      | none => exact hmark
      | some route => exact .bind (adopt_sat (hroute route rfl)) fun _ => hmark

/-- A link found by its name has the identity that was read. -/
theorem Kernel.Sound.hasLink_of_name (h : k.Sound) {name : String} {link : Int × Link}
    (hlink : k.linkByName name = some link) : k.hasLink link.1 link.2.identity = true := by
  obtain ⟨before, behind, hlinks⟩ := append_of_mem (mem_of_find?_eq_some hlink)
  have hnodup := h.links
  have hlookup : k.links.lookup link.1 = some link.2 := by
    refine lookup_eq_some_iff.mpr ⟨before, behind, hlinks, fun p hp => ?_⟩
    rw [hlinks, map_append, map_cons, nodup_append] at hnodup
    exact bne_iff_ne.mpr (hnodup.2.2 _ (mem_map_of_mem hp) _ (.head _)).symm
  simp [Kernel.hasLink, Kernel.linkByIndex, hlookup]

/-- The base of a call has only its owner, link and table. -/
def OwnedObject.IsBase (base : OwnedObject) : Prop :=
  base.cidr = none ∧ base.destination = none ∧ base.gateway = none ∧ base.metric = 0 ∧
    base.legacyProtocol = 0

/-- The wanted objects are written one after the other. -/
theorem install_sat {desired : List OwnedObject}
    (hwanted : ∀ value ∈ desired, IsWanted base metric value) {f : OwnedObject → Owner PUnit}
    (hf : ∀ value b, Linked disk b₁ b → IsWanted base metric value →
      Safe disk who (fun b' => b' = b) (f value) (fun _ => Linked disk b)) :
    Safe disk who (Linked disk b₁) (desired.forM f) (fun _ => Linked disk b₁) := by
  let I : List OwnedObject → OwnedBooks → Prop := fun rest b =>
    Linked disk b₁ b ∧ ∀ value ∈ rest, IsWanted base metric value
  refine .conseq (.forM (I := I) ?_ desired) (fun b hb => ⟨hb, hwanted⟩)
    (fun _ _ h => h.1) fun _ _ h => h
  intro value rest
  refine .given fun b hb => (hf value b hb.1 (hb.2 value mem_cons_self)).post ?_
  intro _ b' hb'
  exact ⟨hb.1.trans hb', fun v hv => hb.2 v (.tail _ hv)⟩

theorem installBound_sat (h₀ : Ready disk b₀) (hbase : base.IsBase)
    (hwho : ∀ old, sameOwner old base = true → who old) (iface : String) (lease : LeaseInfo) :
    Safe disk who (· = b₀) (installBound iface metric base lease)
      (fun r b => Ready disk b ∧ sameOwner r.1 base = true) := by
  refine .bind (R := fun link b => b = b₀ ∧ b₀.kernel.linkByName iface = some link) ?_ fun link => ?_
  · refine .bindAsk (fun b hb => hb ▸ h₀.toLeft) fun b hb => ?_
    subst hb
    exact .orFail (fun _ hd => hd ▸ h₀.toLeft) fun _ _ hsome hd => ⟨hd, hsome⟩
  refine .given fun b hb => ?_
  obtain ⟨rfl, hname⟩ := hb
  have hlink := h₀.sound.hasLink_of_name hname
  refine .bindChecked (fun _ b' hb' _ => hb' ▸ h₀.toLeft) fun desired hdesired => ?_
  obtain ⟨hne, hwanted⟩ := dhcpv4Desired_wanted hdesired
  have hshape {value : OwnedObject} (hvalue : IsWanted (base.on iface link) metric value) :
      value.Shaped :=
    hvalue.shaped hbase.1 hbase.2.1 hbase.2.2.1 hbase.2.2.2.1 hbase.2.2.2.2
  have hhead : (desired.head?.getD (base.on iface link)).Shaped := by
    cases hd : desired with
    | nil => exact absurd hd hne
    | cons value => exact hshape (hwanted value (hd ▸ .head _))
  refine .bind (adoptLegacy_sat (base.on iface link) h₀ hbase.1 link.1 hhead _) fun _ =>
    Sat.given fun b₁ h₁ => ?_
  obtain ⟨hlinked, hrole⟩ := h₁
  refine .bind (R := fun _ => Linked disk b₁) ((checkConflicts_sat hlinked.toReady link.1 desired).post
    fun _ _ => .of_eq hlinked.toReady) fun _ => ?_
  refine .bind (ensurePromotion_sat.linked b₁) fun _ => ?_
  -- Both loops find the link and the marks as they are now.
  have hlive {b₂ : OwnedBooks} (h : Linked disk b₁ b₂) :
      b₂.kernel.hasLink link.1 link.2.identity = true := by
    rw [Kernel.hasLink_congr (h.links.trans hlinked.links)]
    exact hlink
  have hmarked {b₂ : OwnedBooks} (h : Linked disk b₁ b₂) {value : OwnedObject}
      (hvalue : IsWanted (base.on iface link) metric value)
      (hlegacy : isLegacyRole value.consumerID = true) : value.consumerID ∈ b₂.memory.legacyChecked := by
    have hconsumer : value.consumerID = base.consumerID := (sameOwner_iff.mp hvalue.like.1).1
    rw [hconsumer] at hlegacy ⊢
    exact h.checks (hrole hlegacy)
  refine .bind (install_sat hwanted ?_) fun _ => .bind (install_sat hwanted ?_) fun _ =>
    Sat.pure fun b' h => ⟨h.toReady, sameOwner_iff.mpr ⟨rfl, rfl⟩⟩
  · intro value b₂ h₂ hvalue
    obtain ⟨-, hindex, hidentity, -⟩ := hvalue.like
    cases hc : value.cidr with
    | none => exact .pure fun _ => .of_eq h₂.toReady
    | some cidr =>
      have hlive₂ : b₂.kernel.hasLink value.linkIndex value.linkIdentity = true := by
        rw [hindex, hidentity]
        exact hlive h₂
      change Sat _ _ (ensureAddress (base.on iface link).linkIndex value cidr) _ _
      rw [← hindex]
      exact ensureAddress_sat h₂.toReady hc (hshape hvalue) (hmarked h₂ hvalue) hlive₂
  · intro value b₂ h₂ hvalue
    obtain ⟨howner, hindex, hidentity, hlegacy⟩ := hvalue.like
    cases hc : value.cidr with
    | some => exact .pure fun _ => .of_eq h₂.toReady
    | none =>
      cases hd : value.destination with
      | none => exact .pure fun _ => .of_eq h₂.toReady
      | some dst =>
        refine ensureRoute_sat h₂.toReady hc (hshape hvalue) (hmarked h₂ hvalue) hd
          (hlegacy.trans hbase.2.2.2.2) ?_ ?_
        · rw [hindex, hidentity]
          exact hlive h₂
        · exact fun old hold => hwho old (sameOwner_trans hold howner)

theorem removeOthers_sat (hwho : ∀ old, sameOwner old base = true → who old)
    (desired : List OwnedObject) :
    Safe disk who (Ready disk) (removeOthers base desired) (fun _ => Ready disk) :=
  Sat.bindLook fun _ hb => removeAll_sat (fun old hold => hwho old hold.1) hb

theorem withdraw_sat (hwho : ∀ old, sameOwner old base = true → who old) :
    Safe disk who (Ready disk) (withdraw base) (fun _ => Ready disk) :=
  Sat.bind (removeOthers_sat hwho []) fun _ => restorePromotion_sat.ready

theorem reconcile_sat (consumerID connectionID iface : String) (tableID metric : Int)
    (lease : Option LeaseInfo) :
    Sat (OwnedStep disk fun value => value.consumerID = consumerID ∧ value.connectionID = connectionID) (Ready disk)
      (reconcile consumerID connectionID iface tableID metric lease) (fun _ => Ready disk)
      (fun _ => Left disk) := by
  have hwho (old : OwnedObject) (h : sameOwner old (dhcpv4Owner consumerID connectionID tableID) = true) :
      old.consumerID = consumerID ∧ old.connectionID = connectionID := sameOwner_iff.mp h
  refine .bindRefuse (fun _ hb _ => hb.toLeft) fun _ => ?_
  cases lease with
  | none => exact withdraw_sat hwho
  | some lease =>
    dsimp only
    split
    · exact .pure fun _ h => h
    · exact .pure fun _ h => h
    · refine .bind (.given fun b hb => installBound_sat hb ⟨rfl, rfl, rfl, rfl, rfl⟩ hwho iface lease) fun r => ?_
      refine .given fun b hb => .pre (removeOthers_sat ?_ r.2) fun b' hb' => hb' ▸ hb.1
      exact fun old hold => hwho old (sameOwner_trans hold hb.2)
    · exact withdraw_sat hwho
    · exact .throw fun _ hb => hb.toLeft

theorem pruneConsumer_sat (consumerID : String) :
    Sat (OwnedStep disk fun value => value.consumerID = consumerID) (Ready disk) (pruneConsumer consumerID)
      (fun _ => Ready disk) (fun _ => Left disk) := by
  refine .bindRefuse (fun _ hb _ => hb.toLeft) fun _ => .bindLook fun b hb => ?_
  refine .bind (removeAll_sat (fun _ h => h) hb) fun _ => .bindLook fun b' hb' => ?_
  refine .pre (A := Ready disk) ?_ fun _ h => h ▸ hb'
  refine .forM (I := fun _ => Ready disk) (fun promotion _ => ?_) _
  exact .ite (fun _ => restorePromotion_sat.ready) fun _ => .pure fun _ h => h

end Calls

end Mwan.Dhcp

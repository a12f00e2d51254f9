import Mwan.Core.Keyed
import Mwan.Core.Machine

/-!
# The unit files of networkd (`internal/networkd`, `cmd/mwan/ifmgr.go`)

At its start the daemon renders the document, writes the files that differ,
removes the marked files that are not rendered and asks networkd to reload if
this run changed a file. Each call is a step of its own here: it may fail, the
daemon may crash before it, and networkd may start, stop or load its files at
any time. Other agents edit the directory between the runs.

Beside the directory the state keeps whether networkd has loaded its files
since the daemon last changed a `.network` or `.netdev` file, and whether the
daemon has replaced or removed a file without the marker.

Results:
* `renderAll_eq_some`: what is rendered has distinct names and the marker;
* `networkd_up_to_date`: in every run where networkd is up to date before each
  start and no unmarked file has a rendered name, a run that returns nil leaves
  networkd up to date and the rendered files in place;
* `failed_reload_forgotten`: after a reload that failed, the next start finds
  nothing to change and does not reload.
-/
namespace Mwan.Networkd

open Mwan.Core List Option

abbrev Text := List Char

/-! ## Rendering -/

inductive FileKind
  | link
  | network
  | netdev
  deriving DecidableEq

def FileKind.text : FileKind → Text
  | link => "link".toList
  | network => "network".toList
  | netdev => "netdev".toList

/-- `Marker` and the end of its line (networkd.go:24) -/
def marker : Text := "# Generated by mwan from /etc/mwan/network.json. Do not edit.\n".toList

/-- mirrors networkd.go:171-173 -/
def fileName (iface : Text) (kind : FileKind) : Text := "20-".toList ++ iface ++ '.' :: kind.text

/-- `filepath.Ext` behind the dot -/
def extension (name : Text) : Text := (name.reverse.takeWhile (· ≠ '.')).reverse

/-- mirrors networkd.go:177-184 -/
def kindOfFile (name : Text) : Option FileKind :=
  if '.' ∈ name then
    [FileKind.link, .network, .netdev].find? fun kind => kind.text = extension name
  else none

/-- `unit.UnitSection` -/
structure Section where
  name : Text
  entries : List (Text × Text)

/-- The sections of each kind; a kind without sections has no file. -/
abbrev FileSet := FileKind → List Section

/-- The loop of `add` over the sections of the kind. -/
def addEntry (section_ key value : Text) : List Section → List Section
  | [] => [⟨section_, [(key, value)]⟩]
  | s :: rest =>
    if s.name = section_ then { s with entries := s.entries ++ [(key, value)] } :: rest
    else s :: addEntry section_ key value rest

/-- mirrors networkd.go:569-578 -/
def FileSet.add (f : FileSet) (kind : FileKind) (section_ key value : Text) : FileSet :=
  fun k => if k = kind then addEntry section_ key value (f kind) else f k

/-- What `renderAll` reads of a connection. -/
structure Connection where
  name : Text
  /-- `Owner == OwnerNetworkd && Link != nil` -/
  selected : Bool
  /-- `Link.VLAN.Parent` -/
  vlanParent : Option Text
  /-- what `render` returns for it; `none` is an error -/
  files : Option FileSet

/-- A file of the unit directory. -/
structure File where
  name : Text
  content : Text
  deriving DecidableEq

/-- The first loop of `renderAll`. -/
def collect : List Connection → List (Text × FileSet) → Option (List (Text × FileSet))
  | [], sets => some sets
  | c :: rest, sets =>
    if c.selected then
      if sets.any fun s => s.1 = c.name then none
      else
        match c.files with
        | none => none
        | some f => collect rest (sets ++ [(c.name, f)])
    else collect rest sets

/-- The second loop: each VLAN is named in its parent's file. -/
def addVLANs : List Connection → List (Text × FileSet) → Option (List (Text × FileSet))
  | [], sets => some sets
  | c :: rest, sets =>
    match c.selected, c.vlanParent with
    | true, some parent =>
      if sets.any fun s => s.1 = parent then
        addVLANs rest (sets.map fun s =>
          (s.1, if s.1 = parent then
            s.2.add .network "Network".toList "VLAN".toList c.name else s.2))
      else none
    | _, _ => addVLANs rest sets

/-- The files of one connection: their kinds in some order. -/
def FileSet.parts (iface : Text) (f : FileSet) : List (Text × FileKind × List Section) :=
  ([FileKind.link, .network, .netdev].filter fun kind => !(f kind).isEmpty).map fun kind =>
    (iface, kind, f kind)

/-- mirrors networkd.go:156-167; `text` is `unit.SerializeSections` -/
def serialize (text : List Section → Option Text) :
    List (Text × FileKind × List Section) → Option (List File)
  | [] => some []
  | (iface, kind, sections) :: rest => do
    let content ← text sections
    let files ← serialize text rest
    pure (⟨fileName iface kind, marker ++ content⟩ :: files)

/-- mirrors networkd.go:247-288 -/
def renderAll (text : List Section → Option Text) (connections : List Connection) :
    Option (List File) := do
  let sets ← collect connections []
  let sets ← addVLANs connections sets
  serialize text (sets.flatMap fun s => s.2.parts s.1)

/-! ## The directory and the run -/

structure Directory where
  files : List File
  keyed : Keyed File.name files

def marked (content : Text) : Bool := marker.isPrefixOf content

/-- A file without the marker has the name. -/
def Directory.unmarked (d : Directory) (name : Text) : Bool :=
  d.files.any fun f => f.name = name && !marked f.content

def Directory.write (d : Directory) (f : File) : Directory := ⟨put _ d.files f, d.keyed.put f⟩

def Directory.remove (d : Directory) (name : Text) : Directory :=
  ⟨dropKey _ d.files name, d.keyed.dropKey name⟩

/-- mirrors networkd.go:307-331 -/
def obsoleteFiles (d : Directory) (rendered : List File) : List Text :=
  (d.files.filter fun f =>
    !(rendered.any fun r => r.name = f.name) && marked f.content).map File.name

/-- What the daemon does next; `changed` is `len(changes) != 0`. -/
inductive Stage
  | idle
  /-- the loop of `WriteDir` over the rendered files, then `os.ReadDir` -/
  | writing (rendered left : List File) (changed : Bool)
  /-- the loop of `prune` over the obsolete files -/
  | pruning (rendered : List File) (left : List Text) (changed : Bool)
  /-- the first calls of `ReloadIfRunning` -/
  | asking (rendered : List File)
  /-- `Manager.Reload` -/
  | calling (rendered : List File)
  /-- `writeNetworkConfig` has returned nil -/
  | returned (rendered : List File)

structure World where
  dir : Directory
  stage : Stage
  /-- networkd is active -/
  active : Bool
  /-- networkd has loaded its files since the daemon's last change of one -/
  loaded : Bool
  /-- the daemon has replaced or removed a file without the marker -/
  touched : Bool

/-- The daemon changes the file with this name. -/
def World.change (w : World) (name : Text) (dir : Directory) : World :=
  { w with
    dir
    loaded := w.loaded && !(kindOfFile name = some .network || kindOfFile name = some .netdev)
    touched := w.touched || w.dir.unmarked name }

def World.goto (w : World) (stage : Stage) : World := { w with stage }

inductive Event
  /-- a start of the daemon; the map of rendered files is walked in any order -/
  | start (connections : List Connection) (order : List File)
  /-- the daemon's next call, which succeeds or fails -/
  | proceed (ok : Bool)
  /-- the socket of the system bus is absent -/
  | noBus
  | crash
  | networkdStart
  | networkdStop
  | networkdReload
  /-- another agent edits the directory -/
  | edit (dir : Directory)

/-- mirrors ifmgr.go:402-430, networkd.go:207-232 and 292-305,
installfile.go:29-45 and reload.go:22-63, one call at a time. A call that fails
ends the run. -/
def World.proceed (w : World) : Bool → World
  | false =>
    match w.stage with
    | .returned _ => w
    | _ => w.goto .idle
  | true =>
    match w.stage with
    | .idle | .returned _ => w
    | .writing r (f :: left) changed =>
      if f ∈ w.dir.files then w.goto (.writing r left changed)
      else (w.change f.name (w.dir.write f)).goto (.writing r left true)
    | .writing r [] changed => w.goto (.pruning r (obsoleteFiles w.dir r) changed)
    | .pruning r (name :: left) _ =>
      (w.change name (w.dir.remove name)).goto (.pruning r left true)
    | .pruning r [] true => w.goto (.asking r)
    | .pruning r [] false => w.goto (.returned r)
    | .asking r => w.goto (if w.active then .calling r else .returned r)
    | .calling r => { w with loaded := true, stage := .returned r }

/-- No run is going on. -/
def World.resting (w : World) : Bool :=
  match w.stage with
  | .idle | .returned _ => true
  | _ => false

def World.begin (w : World) (rendered : Option (List File)) (order : List File) : World :=
  match rendered with
  | some files =>
    if w.resting && order.isPerm files then w.goto (.writing order order false) else w
  | none => w

def World.withoutBus (w : World) : World :=
  match w.stage with
  | .asking r => w.goto (.returned r)
  | _ => w

def step (text : List Section → Option Text) (w : World) : Event → World
  | .start connections order => w.begin (renderAll text connections) order
  | .proceed ok => w.proceed ok
  | .noBus => w.withoutBus
  | .crash => w.goto .idle
  | .networkdStart => { w with active := true, loaded := true }
  | .networkdStop => { w with active := false }
  | .networkdReload => { w with loaded := w.loaded || w.active }
  | .edit dir => if w.resting then { w with dir, stage := .idle } else w

/-! ## What is required -/

/-- The marked files are the rendered ones. -/
def Exact (d : Directory) (rendered : List File) : Prop :=
  ∀ f, f ∈ d.files ∧ marked f.content = true ↔ f ∈ rendered

structure UpToDate (w : World) : Prop where
  untouched : w.touched = false
  returned : ∀ r, w.stage = .returned r → (w.active = true → w.loaded = true) ∧ Exact w.dir r

/-- At a start networkd is up to date and no unmarked file has the name of a
rendered one; while networkd is active the bus is there. -/
def Prepared (w : World) : Event → Prop
  | .start _ order =>
    (w.active = true → w.loaded = true) ∧ ∀ f ∈ order, w.dir.unmarked f.name = false
  | .noBus => w.active = false
  | _ => True

instance (w : World) (e : Event) : Decidable (Prepared w e) := by
  cases e <;> unfold Prepared <;> infer_instance

/-! ## What is rendered -/

variable {connections : List Connection} {sets : List (Text × FileSet)}

theorem collect_keyed {result : List (Text × FileSet)} (h : collect connections sets = some result)
    (hsets : Keyed Prod.fst sets) :
    Keyed Prod.fst result := by
  induction connections generalizing sets with
  | nil =>
    rw [← some.inj h]
    exact hsets
  | cons c rest ih =>
    unfold collect at h
    split at h
    · split at h
      · cases h
      · next hfresh =>
        split at h
        · cases h
        · refine ih h (pairwise_append.mpr ⟨hsets, pairwise_singleton _ _, ?_⟩)
          intro a ha b hb
          rw [mem_singleton.mp hb]
          exact fun heq => hfresh (any_eq_true.mpr ⟨a, ha, by simpa using heq⟩)
    · exact ih h hsets

theorem addVLANs_keyed {result : List (Text × FileSet)}
    (h : addVLANs connections sets = some result) (hsets : Keyed Prod.fst sets) :
    Keyed Prod.fst result := by
  induction connections generalizing sets with
  | nil =>
    rw [← some.inj h]
    exact hsets
  | cons c rest ih =>
    unfold addVLANs at h
    split at h
    · split at h
      · exact ih h (pairwise_map.mpr hsets)
      · cases h
    · exact ih h hsets

/-- The extension gives the kind back, so the interface is also determined. -/
theorem extension_fileName (iface : Text) (kind : FileKind) :
    extension (fileName iface kind) = kind.text := by
  have hdot : kind.text.reverse.all (· ≠ '.') = true := by
    cases kind <;> decide
  rw [extension, fileName, reverse_append, reverse_cons, append_assoc,
    takeWhile_append_of_pos (all_eq_true.mp hdot), singleton_append,
    takeWhile_cons_of_neg (by simp), append_nil, reverse_reverse]

theorem fileName_inj {iface iface' : Text} {kind kind' : FileKind}
    (h : fileName iface kind = fileName iface' kind') : iface = iface' ∧ kind = kind' := by
  have hkind : kind.text = kind'.text := by
    rw [← extension_fileName iface kind, h, extension_fileName]
  have hsame : kind = kind' := by
    revert hkind
    cases kind <;> cases kind' <;> decide
  subst hsame
  simpa [fileName] using h

variable {text : List Section → Option Text}

theorem serialize_eq_some {parts : List (Text × FileKind × List Section)} {files : List File}
    (h : serialize text parts = some files) :
    files.map File.name = parts.map (fun p => fileName p.1 p.2.1) ∧
      ∀ f ∈ files, marked f.content = true := by
  induction parts generalizing files with
  | nil =>
    rw [← some.inj h]
    exact ⟨rfl, by simp⟩
  | cons p parts ih =>
    obtain ⟨content, -, hbound⟩ := bind_eq_some_iff.mp h
    obtain ⟨rest, hrest, hfiles⟩ := bind_eq_some_iff.mp hbound
    obtain ⟨hnames, hmarked⟩ := ih hrest
    rw [← some.inj hfiles]
    refine ⟨by simp [hnames], forall_mem_cons.mpr ⟨?_, hmarked⟩⟩
    exact isPrefixOf_iff_prefix.mpr (prefix_append _ _)

/-- The parts of distinct interfaces have distinct names. -/
theorem parts_pairwise (h : Keyed Prod.fst sets) :
    (sets.flatMap fun s => s.2.parts s.1).Pairwise fun p q =>
      fileName p.1 p.2.1 ≠ fileName q.1 q.2.1 := by
  refine pairwise_flatMap.mpr ⟨fun s _ => ?_, h.imp fun hne p hp q hq heq => ?_⟩
  · refine pairwise_map.mpr (Pairwise.filter _ ?_)
    exact Pairwise.imp (fun hne heq => hne (fileName_inj heq).2)
      (show [FileKind.link, .network, .netdev].Pairwise (· ≠ ·) by decide)
  · obtain ⟨_, -, rfl⟩ := mem_map.mp hp
    obtain ⟨_, -, rfl⟩ := mem_map.mp hq
    exact hne (fileName_inj heq).1

/-- What is rendered has distinct names and the marker. -/
structure Rendered (r : List File) : Prop where
  keyed : Keyed File.name r
  marked : ∀ f ∈ r, marked f.content = true

theorem renderAll_eq_some {files : List File} (h : renderAll text connections = some files) :
    Rendered files := by
  obtain ⟨sets, hsets, hbound⟩ := bind_eq_some_iff.mp h
  obtain ⟨named, hnamed, hfiles⟩ := bind_eq_some_iff.mp hbound
  have hkeyed := addVLANs_keyed hnamed (collect_keyed hsets Pairwise.nil)
  obtain ⟨hnames, hmarked⟩ := serialize_eq_some hfiles
  refine ⟨(pairwise_map (R := (· ≠ ·))).mp ?_, hmarked⟩
  rw [hnames]
  exact pairwise_map.mpr (parts_pairwise hkeyed)

/-! ## The invariant -/

section Run

variable {d : Directory} {r left : List File} {f : File} {name : Text} {w : World}

/-- The part of the invariant that belongs to what the daemon does next. -/
def Under (w : World) : Stage → Prop
  | .idle => True
  | .writing r left changed =>
    Rendered r ∧ (∀ f ∈ left, f ∈ r ∧ w.dir.unmarked f.name = false) ∧
      (∀ f ∈ r, f ∈ left ∨ f ∈ w.dir.files) ∧
      (changed = false → w.active = true → w.loaded = true)
  | .pruning r left changed =>
    (∀ f ∈ r, f ∈ w.dir.files ∧ marked f.content = true ∧ f.name ∉ left) ∧
      (∀ f ∈ w.dir.files, marked f.content = true → f ∈ r ∨ f.name ∈ left) ∧
      (∀ name ∈ left, w.dir.unmarked name = false) ∧
      (changed = false → w.active = true → w.loaded = true)
  | .asking r | .calling r => Exact w.dir r
  | .returned r => (w.active = true → w.loaded = true) ∧ Exact w.dir r

structure Inv (w : World) : Prop where
  untouched : w.touched = false
  under : Under w w.stage

theorem Inv.upToDate (h : Inv w) : UpToDate w := by
  refine ⟨h.untouched, fun r hr => ?_⟩
  have hunder := h.under
  rwa [hr] at hunder

theorem unmarked_iff : d.unmarked name = false ↔
    ∀ f ∈ d.files, f.name = name → marked f.content = true := by
  simp [Directory.unmarked]

/-- What networkd does leaves the directory and can only bring it up to date. -/
theorem Under.congr {w' : World} {stage : Stage} (h : Under w stage) (hdir : w'.dir = w.dir)
    (hloaded : (w.active = true → w.loaded = true) → w'.active = true → w'.loaded = true) :
    Under w' stage := by
  cases stage with
  | idle => trivial
  | writing r left changed | pruning r left changed =>
    rw [Under, hdir]
    exact ⟨h.1, h.2.1, h.2.2.1, fun hc => hloaded (h.2.2.2 hc)⟩
  | asking r | calling r =>
    rw [Under, hdir]
    exact h
  | returned r =>
    rw [Under, hdir]
    exact ⟨hloaded h.1, h.2⟩

variable {changed : Bool}

/-- One file is written, or found as it is. -/
theorem Inv.write (h : Inv w) (hstage : w.stage = .writing r (f :: left) changed) :
    Inv (w.proceed true) := by
  have hunder := h.under
  rw [hstage] at hunder
  obtain ⟨hrendered, hleft, hplaced, hloaded⟩ := hunder
  obtain ⟨hf, hfree⟩ := hleft f mem_cons_self
  simp only [World.proceed, hstage]
  split
  · next hin =>
    refine ⟨h.untouched, hrendered, fun g hg => hleft g (.tail _ hg), ?_, hloaded⟩
    intro g hg
    rcases hplaced g hg with hg | hg
    · rcases mem_cons.mp hg with rfl | hg
      · exact .inr hin
      · exact .inl hg
    · exact .inr hg
  · have hmem {g : File} : g ∈ (w.dir.write f).files ↔ g = f ∨ g ∈ w.dir.files ∧ g.name ≠ f.name :=
      mem_put w.dir.keyed
    refine ⟨?_, hrendered, ?_, ?_, by simp⟩
    · show (w.touched || w.dir.unmarked f.name) = false
      rw [h.untouched, hfree, Bool.or_false]
    · intro g hg
      obtain ⟨hr, hnone⟩ := hleft g (.tail _ hg)
      refine ⟨hr, unmarked_iff.mpr fun x hx hname => ?_⟩
      rcases hmem.mp hx with rfl | ⟨hx, -⟩
      · exact hrendered.marked x hf
      · exact unmarked_iff.mp hnone x hx hname
    · intro g hg
      by_cases hname : g.name = f.name
      · exact .inr (hmem.mpr (.inl (hrendered.keyed.eq_of_key hg hf hname)))
      · rcases hplaced g hg with hg | hg
        · exact .inl (mem_of_ne_of_mem (fun heq => hname (heq ▸ rfl)) hg)
        · exact .inr (hmem.mpr (.inr ⟨hg, hname⟩))

/-- The directory is read: the obsolete files are the other marked ones. -/
theorem Inv.list (h : Inv w) (hstage : w.stage = .writing r [] changed) : Inv (w.proceed true) := by
  have hunder := h.under
  rw [hstage] at hunder
  obtain ⟨hrendered, -, hplaced, hloaded⟩ := hunder
  have hin : ∀ f ∈ r, f ∈ w.dir.files := fun f hf => (hplaced f hf).resolve_left (by simp)
  have hobsolete {name : Text} : name ∈ obsoleteFiles w.dir r ↔
      ∃ f ∈ w.dir.files, (∀ g ∈ r, g.name ≠ f.name) ∧ marked f.content = true ∧ f.name = name := by
    simp [obsoleteFiles, and_assoc]
  simp only [World.proceed, hstage]
  refine ⟨h.untouched, ?_, ?_, ?_, hloaded⟩
  · intro f hf
    refine ⟨hin f hf, hrendered.marked f hf, fun hmem => ?_⟩
    obtain ⟨g, -, hother, -, hname⟩ := hobsolete.mp hmem
    exact hother f hf hname.symm
  · intro f hf hmarked
    by_cases hname : ∃ g ∈ r, g.name = f.name
    · obtain ⟨g, hg, hname⟩ := hname
      exact .inl (w.dir.keyed.eq_of_key (hin g hg) hf hname ▸ hg)
    · exact .inr (hobsolete.mpr ⟨f, hf, fun g hg heq => hname ⟨g, hg, heq⟩, hmarked, rfl⟩)
  · intro name hmem
    obtain ⟨g, hg, -, hmarked, rfl⟩ := hobsolete.mp hmem
    exact unmarked_iff.mpr fun x hx hname => w.dir.keyed.eq_of_key hg hx hname.symm ▸ hmarked

/-- One obsolete file is removed. -/
theorem Inv.prune {left : List Text} (h : Inv w)
    (hstage : w.stage = .pruning r (name :: left) changed) : Inv (w.proceed true) := by
  have hunder := h.under
  rw [hstage] at hunder
  obtain ⟨hin, hothers, hfree, -⟩ := hunder
  have hmem {g : File} : g ∈ (w.dir.remove name).files ↔ g ∈ w.dir.files ∧ g.name ≠ name :=
    mem_dropKey
  simp only [World.proceed, hstage]
  refine ⟨?_, ?_, ?_, ?_, by simp⟩
  · show (w.touched || w.dir.unmarked name) = false
    rw [h.untouched, hfree name mem_cons_self, Bool.or_false]
  · intro f hf
    obtain ⟨hdir, hmarked, hnot⟩ := hin f hf
    rw [mem_cons, not_or] at hnot
    exact ⟨hmem.mpr ⟨hdir, hnot.1⟩, hmarked, hnot.2⟩
  · intro f hf hmarked
    obtain ⟨hdir, hne⟩ := hmem.mp hf
    exact (hothers f hdir hmarked).imp id (mem_of_ne_of_mem hne)
  · intro n hn
    have hold := unmarked_iff.mp (hfree n (.tail _ hn))
    exact unmarked_iff.mpr fun x hx => hold x (hmem.mp hx).1

theorem Inv.idle (h : Inv w) : Inv (w.goto .idle) := ⟨h.untouched, trivial⟩

theorem Inv.proceed (h : Inv w) (ok : Bool) : Inv (w.proceed ok) := by
  cases ok with
  | false =>
    simp only [World.proceed]
    split
    · exact h
    · exact h.idle
  | true =>
    have hunder := h.under
    cases hstage : w.stage with
    | idle | returned => simpa only [World.proceed, hstage] using h
    | writing r left =>
      cases left with
      | nil => exact h.list hstage
      | cons => exact h.write hstage
    | pruning r left changed =>
      cases left with
      | cons => exact h.prune hstage
      | nil =>
        rw [hstage] at hunder
        obtain ⟨hin, hothers, -, hloaded⟩ := hunder
        -- nothing is left to remove
        have hexact : Exact w.dir r := fun f =>
          ⟨fun hf => (hothers f hf.1 hf.2).resolve_right not_mem_nil,
            fun hf => ⟨(hin f hf).1, (hin f hf).2.1⟩⟩
        simp only [World.proceed, hstage]
        cases changed with
        | true => exact ⟨h.untouched, hexact⟩
        | false => exact ⟨h.untouched, hloaded rfl, hexact⟩
    | asking r =>
      rw [hstage] at hunder
      simp only [World.proceed, hstage]
      cases hactive : w.active with
      | true => exact ⟨h.untouched, hunder⟩
      | false => exact ⟨h.untouched, fun hon => absurd (hactive.symm.trans hon) (by simp), hunder⟩
    | calling r =>
      rw [hstage] at hunder
      simp only [World.proceed, hstage]
      exact ⟨h.untouched, fun _ => rfl, hunder⟩

theorem Inv.begin {rendered : Option (List File)} {order : List File} (h : Inv w)
    (hrendered : ∀ files, rendered = some files → Rendered files)
    (hloaded : w.active = true → w.loaded = true)
    (hfree : ∀ f ∈ order, w.dir.unmarked f.name = false) : Inv (w.begin rendered order) := by
  unfold World.begin
  split
  · next files =>
    split
    · next hstart =>
      have hperm := isPerm_iff.mp (Bool.and_eq_true_iff.mp hstart).2
      have hfiles := hrendered files rfl
      refine ⟨h.untouched, ⟨hfiles.keyed.perm hperm, fun f hf => ?_⟩, ?_, fun f hf => .inl hf,
        fun _ => hloaded⟩
      · exact hfiles.marked f (hperm.mem_iff.mp hf)
      · exact fun f hf => ⟨hf, hfree f hf⟩
    · exact h
  · exact h

theorem Inv.withoutBus (h : Inv w) (hactive : w.active = false) : Inv w.withoutBus := by
  unfold World.withoutBus
  split
  · next hstage =>
    have hunder := h.under
    rw [hstage] at hunder
    exact ⟨h.untouched, fun hon => absurd (hactive.symm.trans hon) (by simp), hunder⟩
  · exact h

theorem Inv.step {e : Event} (h : Inv w) (hprepared : Prepared w e) : Inv (step text w e) := by
  cases e with
  | start =>
    exact h.begin (fun _ hfiles => renderAll_eq_some hfiles) hprepared.1 hprepared.2
  | proceed ok => exact h.proceed ok
  | noBus => exact h.withoutBus hprepared
  | crash => exact h.idle
  | networkdStart => exact ⟨h.untouched, h.under.congr rfl fun _ _ => rfl⟩
  | networkdStop => exact ⟨h.untouched, h.under.congr rfl fun _ hon => by cases hon⟩
  | networkdReload =>
    refine ⟨h.untouched, h.under.congr rfl fun _ hon => ?_⟩
    show (w.loaded || w.active) = true
    rw [show w.active = true from hon, Bool.or_true]
  | edit dir =>
    show Inv (if w.resting then { w with dir, stage := .idle } else w)
    split
    · exact ⟨h.untouched, trivial⟩
    · exact h

end Run

/-- The state before the first start. -/
def boot (dir : Directory) (active loaded : Bool) : World := ⟨dir, .idle, active, loaded, false⟩

/-- Whenever a run returns nil while networkd is active, networkd has loaded the
files since the last change and the marked files are the rendered ones; no
unmarked file is touched. -/
theorem networkd_up_to_date (text : List Section → Option Text) (dir : Directory)
    (active loaded : Bool) {events : List Event}
    (h : Each (step text) Prepared (boot dir active loaded) events) :
    Always (step text) UpToDate (boot dir active loaded) events :=
  Each.always (I := Inv) (fun _ _ hs hprepared => hs.step hprepared) (fun _ hs => hs.upToDate)
    (show Inv (boot dir active loaded) from ⟨rfl, trivial⟩) h

/-! ## Two starts -/

/-- A serializer that writes nothing. -/
def emptyText : List Section → Option Text := fun _ => some []

/-- A connection with a `.network` file. -/
def uplink : Connection :=
  ⟨"wan".toList, true, none, some fun kind => if kind = .network then [⟨[], []⟩] else []⟩

def uplinkFile : File := ⟨fileName "wan".toList .network, marker⟩

def emptyDirectory : Directory := ⟨[], List.Pairwise.nil⟩

/-- A start that writes the file and reloads networkd, or fails to. -/
def firstStart (reloaded : Bool) : List Event :=
  [.start [uplink] [uplinkFile], .proceed true, .proceed true, .proceed true, .proceed true,
    .proceed reloaded]

/-- The same document again: there is nothing to change. -/
def secondStart : List Event :=
  [.start [uplink] [uplinkFile], .proceed true, .proceed true, .proceed true]

theorem reloaded_up_to_date : Always (step emptyText) UpToDate (boot emptyDirectory true true)
      (firstStart true ++ secondStart) :=
  networkd_up_to_date _ _ _ _ (by decide +kernel)

/-- The reload fails after the file was written. The next start changes nothing
and returns nil, and networkd still runs with the files it had. -/
theorem failed_reload_forgotten : ¬ Always (step emptyText) UpToDate (boot emptyDirectory true true)
      (firstStart false ++ secondStart) := by
  intro h
  have hlast := always_iff.mp h _ prefix_rfl
  exact absurd ((hlast.returned [uplinkFile] rfl).1 rfl) (by decide +kernel)

end Mwan.Networkd

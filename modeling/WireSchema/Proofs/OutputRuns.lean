import WireSchema.Output
import WireSchema.Proofs.DeclaredFields
import WireSchema.Proofs.FileTrees
import WireSchema.Proofs.WellFormed

/-!
# Runs as lists of writes

A run is taken apart into **writes** (`FileTree.Writes`), stage by stage: a unit, the units of a
message, a message (`MessageWrites`), all messages, the whole run (`writes_of_generateAll`). Each
stage has two lemmas. One says what a success has written. The other says that there is a success:
nothing stands in the way in an empty directory, if the names are ones that files can have and if
the units can be generated (`runs_generateAll`).

Documents are read in between, from a tree that has grown. They lie outside the output directory,
which was empty, so they are as they were (`GrownBelow.readText_eq`).
-/

namespace WireSchema

/-! ### Runs that succeed -/

/-- A program, run on a tree, gives a result and leaves a tree. -/
def Runs {α : Type} (program : ExceptT Failure (StateM FileTree) α) (t : FileTree) (a : α)
    (t' : FileTree) : Prop :=
  program.run t = (.ok a, t')

namespace Runs

variable {α β : Type} {t t' : FileTree}

theorem bind_iff {x : ExceptT Failure (StateM FileTree) α}
    {f : α → ExceptT Failure (StateM FileTree) β} {b : β} :
    Runs (x >>= f) t b t' ↔ ∃ a s, Runs x t a s ∧ Runs (f a) s b t' := by
  unfold Runs
  rw [ExceptT.run_bind]
  change (StateT.bind _ _) t = _ ↔ _
  rcases ran : x.run t with ⟨result, s⟩
  simp only [StateT.bind, ran]
  cases result with
  | error e =>
      constructor
      · intro h
        cases h
      · intro h
        obtain ⟨a, s', here, -⟩ := h
        cases here
  | ok a =>
      constructor
      · intro h
        exact ⟨a, s, rfl, h⟩
      · intro h
        obtain ⟨a', s', here, h⟩ := h
        cases here
        exact h

theorem unique {program : ExceptT Failure (StateM FileTree) α} {a b : α} {s : FileTree}
    (first : Runs program t a s) (second : Runs program t b t') : a = b ∧ s = t' := by
  cases first.symm.trans second
  exact ⟨rfl, rfl⟩

theorem pure_iff {a b : α} :
    Runs (pure a : ExceptT Failure (StateM FileTree) α) t b t' ↔ a = b ∧ t = t' := by
  constructor
  · intro h
    cases h
    exact ⟨rfl, rfl⟩
  · intro h
    obtain ⟨rfl, rfl⟩ := h
    rfl

theorem not_throw {e : Failure} {a : α} :
    ¬ Runs (throw e : ExceptT Failure (StateM FileTree) α) t a t' := by
  intro h
  cases h

theorem attempt_iff {explain : FileFault → Failure}
    {operation : StateM FileTree (Except FileFault α)} {a : α} :
    Runs (attempt explain operation) t a t' ↔ operation t = (.ok a, t') := by
  unfold Runs attempt
  rw [ExceptT.run_mk]
  change (StateT.bind _ _) t = _ ↔ _
  rcases ran : operation t with ⟨result, s⟩
  simp only [StateT.bind, ran]
  cases result with
  | error fault =>
      constructor
      · intro h
        cases h
      · intro h
        cases h
  | ok a =>
      constructor
      · intro h
        cases h
        rfl
      · intro h
        cases h
        rfl

theorem lift_iff {x : StateM FileTree α} {a : α} :
    Runs (ExceptT.lift x : ExceptT Failure (StateM FileTree) α) t a t' ↔ x t = (a, t') := by
  unfold Runs
  rw [ExceptT.run_lift]
  change StateT.map _ x t = _ ↔ _
  rcases ran : x t with ⟨result, s⟩
  simp only [StateT.map, ran]
  constructor
  · intro h
    cases h
    rfl
  · intro h
    cases h
    rfl

end Runs

/-! ### Files of a backend -/

/-- The names of modules that a run is described for: they are not empty and have no slash and no
dot. -/
structure Path.Plain (name : String) : Prop where
  nonempty : name ≠ ""
  noSlash : '/' ∉ name.toList
  noDot : '.' ∉ name.toList

theorem Path.Plain.proper {name : String} (plain : Path.Plain name) : Path.Proper name where
  nonempty := plain.nonempty
  noSlash := plain.noSlash
  notDot := by
    intro dot
    exact plain.noDot (by simp [dot])
  notDots := by
    intro dots
    exact plain.noDot (by simp [dots])

namespace Backend

/-- The files of a backend can be told from each other and from the directories of modules. -/
structure FilesApart (b : Backend) : Prop where
  manifest : Path.Proper b.manifestFile
  dotted : '.' ∈ b.manifestFile.toList
  extension : '/' ∉ b.fileExtension.toList
  units : ∀ v, b.unitFile v ≠ b.manifestFile

theorem unitFile_eq (b : Backend) (v : Version) :
    b.unitFile v = versionModule v ++ ("." ++ b.fileExtension) := by
  simp [unitFile, versionModule, String.append_assoc]

theorem head?_unitFile (b : Backend) (v : Version) : (b.unitFile v).toList.head? = some 'v' := by
  simp [unitFile]

theorem filesApart_rust (withTests : Bool) : (rust withTests).FilesApart where
  manifest := (by decide : Path.Proper "mod.rs")
  dotted := (by decide : '.' ∈ "mod.rs".toList)
  extension := (by decide : '/' ∉ "rs".toList)
  units := by
    intro v same
    have head := (rust withTests).head?_unitFile v
    rw [same] at head
    exact absurd head (by decide : "mod.rs".toList.head? ≠ some 'v')

variable {b : Backend}

theorem FilesApart.proper_unitFile (apart : b.FilesApart) (v : Version) :
    Path.Proper (b.unitFile v) := by
  have head := b.head?_unitFile v
  constructor
  case nonempty =>
    intro empty
    simp [empty] at head
  case noSlash =>
    intro slash
    simp only [unitFile, String.toList_append, List.mem_append] at slash
    rcases slash with ((first | number) | dot) | extension
    · exact absurd first (by decide)
    · rcases Text.mem_toString number with minus | digit
      · exact absurd minus (by decide)
      · exact absurd digit (by decide)
    · exact absurd dot (by decide)
    · exact apart.extension extension
  case notDot =>
    intro dot
    simp [dot] at head
  case notDots =>
    intro dots
    simp [dots] at head

/-! ### Stages of a run -/

section

open FileTree (Writes under)

variable {t t' : FileTree} {spec : MessageSpec} {r : Registry} {dir output : Path}

/-- The manifest of some modules, as a write in the directory that they are in. -/
def manifestWrite (b : Backend) (modules : List String) : List String × Entry :=
  ([b.manifestFile], .text (Manifest.text b modules))

theorem writes_of_writeManifest {modules : List String} {u : Unit} (apart : b.FilesApart)
    (run : Runs (writeManifest b dir modules) t u t') :
    Writes t [under dir.place (b.manifestWrite modules)] t' := by
  have written := FileTree.update_eq_ok.1 (Runs.attempt_iff.1 run)
  exact FileTree.writes_of_writeText apart.manifest written

/-- The unit of a version, as a write in the directory of its message. -/
def UnitWrite (b : Backend) (spec : MessageSpec) (r : Registry) (v : Version)
    (w : List String × Entry) : Prop :=
  ∃ text, b.generate spec r v = .ok text ∧ w = ([b.unitFile v], .text text)

theorem writes_of_writeUnit {v : Version} {u : Unit} (apart : b.FilesApart)
    (run : Runs (writeUnit b spec r dir v) t u t') :
    ∃ w, b.UnitWrite spec r v w ∧ Writes t [under dir.place w] t' := by
  unfold writeUnit at run
  split at run
  · exact absurd run Runs.not_throw
  · rename_i text rendered
    have written := FileTree.update_eq_ok.1 (Runs.attempt_iff.1 run)
    refine ⟨_, ⟨text, rendered, rfl⟩, ?_⟩
    exact FileTree.writes_of_writeText (apart.proper_unitFile v) written

theorem writes_of_units {versions : List Version} {u : PUnit} (apart : b.FilesApart)
    (run : Runs (versions.forM (writeUnit b spec r dir)) t u t') :
    ∃ ws, List.Forall₂ (b.UnitWrite spec r) versions ws ∧
      Writes t (ws.map (under dir.place)) t' := by
  induction versions generalizing t with
  | nil =>
      obtain ⟨-, rfl⟩ := Runs.pure_iff.1 run
      exact ⟨[], .nil, .nil t⟩
  | cons v versions ih =>
      obtain ⟨_, s, first, rest⟩ := Runs.bind_iff.1 run
      obtain ⟨w, isUnit, written⟩ := writes_of_writeUnit apart first
      obtain ⟨ws, areUnits, others⟩ := ih rest
      exact ⟨w :: ws, .cons isUnit areUnits, written.append others⟩

theorem map_fst_units {versions : List Version} {units : List (List String × Entry)}
    (h : List.Forall₂ (b.UnitWrite spec r) versions units) :
    units.map (·.1) = versions.map fun v => [b.unitFile v] := by
  induction h with
  | nil => rfl
  | cons first _ ih =>
      obtain ⟨text, -, rfl⟩ := first
      simp [ih]

/-- What is written for a message: its directory, and in it a unit for every version and a
manifest. -/
def MessageWrites (b : Backend) (spec : MessageSpec) (ws : List (List String × Entry)) : Prop :=
  ∃ r units, prepare spec = .ok r ∧
    List.Forall₂ (b.UnitWrite spec r) spec.validVersions.toList units ∧
    ws = ([spec.moduleName], .directory) ::
      (units ++ [b.manifestWrite (spec.validVersions.toList.map versionModule)]).map
        (under [spec.moduleName])

theorem writes_of_generateMessage {name : String} (apart : b.FilesApart)
    (plain : Path.Plain spec.moduleName) (here : t.HasDirectory output)
    (run : Runs (generateMessage b spec output) t name t') :
    name = spec.moduleName ∧
      ∃ ws, b.MessageWrites spec ws ∧ Writes t (ws.map (under output.place)) t' := by
  unfold generateMessage at run
  split at run
  · exact absurd run Runs.not_throw
  · rename_i r prepared
    obtain ⟨_, t₁, made, run⟩ := Runs.bind_iff.1 run
    obtain ⟨_, t₂, units, run⟩ := Runs.bind_iff.1 run
    obtain ⟨_, t₃, manifest, run⟩ := Runs.bind_iff.1 run
    obtain ⟨rfl, rfl⟩ := Runs.pure_iff.1 run
    have directory := FileTree.writes_of_makeDirectory plain.proper
      (FileTree.makeDirectory_of_makeDirectories here plain.proper (Runs.attempt_iff.1 made))
    obtain ⟨ws, areUnits, written⟩ := writes_of_units apart units
    have listed := writes_of_writeManifest apart manifest
    rw [Path.place_child plain.proper] at written listed
    refine ⟨rfl, _, ⟨r, ws, prepared, areUnits, rfl⟩, ?_⟩
    rw [List.map_cons, FileTree.map_under_map_under, List.map_append]
    exact directory.append (written.append listed)

theorem MessageWrites.map_fst {ws : List (List String × Entry)} (h : b.MessageWrites spec ws) :
    ws.map (·.1) = [spec.moduleName] ::
      ((spec.validVersions.toList.map fun v => [spec.moduleName, b.unitFile v]) ++
        [[spec.moduleName, b.manifestFile]]) := by
  obtain ⟨r, units, -, areUnits, rfl⟩ := h
  rw [List.map_cons, FileTree.map_fst_map_under, List.map_append, map_fst_units areUnits]
  simp [manifestWrite]

theorem MessageWrites.head? {ws : List (List String × Entry)} (h : b.MessageWrites spec ws) :
    ∀ w ∈ ws, w.1.head? = some spec.moduleName := by
  obtain ⟨r, units, -, -, rfl⟩ := h
  intro w listed
  rcases List.mem_cons.1 listed with rfl | inside
  · rfl
  · obtain ⟨w', -, rfl⟩ := List.mem_map.1 inside
    rfl

theorem MessageWrites.below {ws : List (List String × Entry)} (h : b.MessageWrites spec ws) :
    ∀ w ∈ ws, w.1 ≠ [] := by
  intro w listed root
  have head := h.head? w listed
  simp [root] at head

end

end Backend

/-! ### Documents -/

namespace FileTree

/-- A file of a tree is the document of a message. -/
def Loads (t : FileTree) (file : Path) (spec : MessageSpec) : Prop :=
  ∃ text, t.readText file = .ok text ∧ MessageSpec.load text = .ok spec

theorem Loads.unique {t : FileTree} {file : Path} {spec spec' : MessageSpec}
    (h : t.Loads file spec) (h' : t.Loads file spec') : spec = spec' := by
  obtain ⟨text, content, loaded⟩ := h
  obtain ⟨text', content', loaded'⟩ := h'
  cases content.symm.trans content'
  exact Except.ok.inj (loaded.symm.trans loaded')

theorem eq_of_forall₂_loads {t : FileTree} {files : List Path} {specs specs' : List MessageSpec}
    (h : List.Forall₂ t.Loads files specs) (h' : List.Forall₂ t.Loads files specs') :
    specs = specs' := by
  induction h generalizing specs' with
  | nil =>
      cases h'
      rfl
  | cons first _ ih =>
      cases h' with
      | cons first' rest' => rw [first.unique first', ih rest']

/-- What holds of the message of every document holds of every message, and the other way round. -/
theorem forall_loads_iff {t : FileTree} {files : List Path} {specs : List MessageSpec}
    {P : MessageSpec → Prop} (loaded : List.Forall₂ t.Loads files specs) :
    (∀ file ∈ files, ∀ spec, t.Loads file spec → P spec) ↔ ∀ spec ∈ specs, P spec := by
  constructor
  · intro each spec mem
    obtain ⟨file, isFile, isLoaded⟩ := Outcome.exists_of_mem_right loaded mem
    exact each file isFile spec isLoaded
  · intro each file isFile spec isLoaded
    obtain ⟨spec', mem, isLoaded'⟩ := Outcome.exists_of_mem_left loaded isFile
    rw [isLoaded.unique isLoaded']
    exact each spec' mem

theorem Loads.bounds {t : FileTree} {file : Path} {spec : MessageSpec} (h : t.Loads file spec) :
    0 ≤ spec.validVersions.lowest ∧ spec.validVersions.highest ≤ Version.greatest := by
  obtain ⟨text, -, loaded⟩ := h
  obtain ⟨record, -, built⟩ := MessageSpec.load_eq_ok.1 loaded
  obtain ⟨low, -, high⟩ := (Schema.buildMessage_eq_ok.1 built).validVersions_bounds
  exact ⟨low, Int.le_of_lt high⟩

/-- A tree to which something was added below a place. -/
def GrownBelow (place : List String) (t s : FileTree) : Prop :=
  ∃ ws : List (List String × Entry), (∀ w ∈ ws, w.1 ≠ []) ∧ Writes t (ws.map (under place)) s

variable {t s : FileTree} {input output : Path}

theorem loadFile_eq_ok {file : Path} {spec : MessageSpec}
    (h : (loadFile file : StateM FileTree _) t = (.ok spec, s)) : t.Loads file spec ∧ s = t := by
  simp only [loadFile, bind, StateT.bind, FileSystem.readText] at h
  cases content : t.readText file with
  | error fault =>
      rw [content] at h
      cases h
  | ok text =>
      rw [content] at h
      obtain ⟨loaded, rfl⟩ := Prod.mk.inj h
      exact ⟨⟨text, content, loaded⟩, rfl⟩

theorem Loads.loadFile_eq {file : Path} {spec : MessageSpec} (h : t.Loads file spec) :
    (loadFile file : StateM FileTree _) t = (.ok spec, t) := by
  obtain ⟨text, content, loaded⟩ := h
  simp only [loadFile, bind, StateT.bind, FileSystem.readText, content, loaded]
  rfl

/-- Listing the documents of a directory changes nothing, and each is a file of the directory. -/
theorem schemaFiles_eq_ok {files : List Path} (run : Runs (schemaFiles input) t files s) :
    s = t ∧ ∃ names, t.fileNames input = .ok names ∧
      ∀ file ∈ files, ∃ name ∈ names, file = input.child name := by
  obtain ⟨names, t₁, listing, run⟩ := Runs.bind_iff.1 run
  obtain ⟨rfl, rfl⟩ := Runs.pure_iff.1 run
  obtain ⟨listed, rfl⟩ := Prod.mk.inj (Runs.attempt_iff.1 listing)
  refine ⟨rfl, names, listed, fun file mem => ?_⟩
  obtain ⟨name, sorted, rfl⟩ := List.mem_map.1 mem
  rw [List.mem_mergeSort] at sorted
  exact ⟨name, List.mem_of_mem_filter sorted, rfl⟩

/-- The documents of a directory are listed in the order of their names. -/
theorem runs_schemaFiles {names documents : List String} (listed : t.fileNames input = .ok names)
    (kept : (names.filter fun name => Path.extension? name = some "json") = documents)
    (sorted : documents.Pairwise (ascending · · = true)) :
    Runs (schemaFiles input) t (documents.map input.child) t := by
  refine Runs.bind_iff.2 ⟨names, t, Runs.attempt_iff.2 (Prod.ext listed rfl), ?_⟩
  exact Runs.pure_iff.2 ⟨by rw [kept, List.mergeSort_of_pairwise sorted], rfl⟩

/-- What is written below an empty directory leaves all documents as they were. -/
theorem GrownBelow.readText_eq {names : List String} {name : String} (named : t.Named)
    (empty : ∀ place ≠ [], t.entry? (output.place ++ place) = none)
    (listed : t.fileNames input = .ok names) (mem : name ∈ names)
    (grown : GrownBelow output.place t s) :
    s.readText (input.child name) = t.readText (input.child name) := by
  obtain ⟨ws, below, written⟩ := grown
  obtain ⟨here, entry, held⟩ := of_mem_fileNames listed mem
  have proper : Path.Proper name := named _ held name (by simp)
  refine readText_child_congr here written.keepsDirectories proper (written.entry?_of_not_mem ?_)
  intro inside
  obtain ⟨_, moved, same⟩ := List.mem_map.1 inside
  obtain ⟨w, isWrite, rfl⟩ := List.mem_map.1 moved
  have there := empty w.1 (below w isWrite)
  exact entry?_ne_none_of_mem held (same ▸ there)

theorem GrownBelow.readText_document {files : List Path} {file : Path} (named : t.Named)
    (empty : ∀ place ≠ [], t.entry? (output.place ++ place) = none)
    (listing : Runs (schemaFiles input) t files t) (mem : file ∈ files)
    (grown : GrownBelow output.place t s) : s.readText file = t.readText file := by
  obtain ⟨-, names, listed, ofNames⟩ := schemaFiles_eq_ok listing
  obtain ⟨name, isName, rfl⟩ := ofNames file mem
  exact grown.readText_eq named empty listed isName

theorem GrownBelow.refl (place : List String) (t : FileTree) : GrownBelow place t t :=
  ⟨[], by simp, .nil t⟩

theorem GrownBelow.hasDirectory {place : List String} (grown : GrownBelow place t s)
    (here : t.HasDirectory output) : s.HasDirectory output := by
  obtain ⟨ws, -, written⟩ := grown
  exact here.mono written.keepsDirectories

theorem GrownBelow.trans {place : List String} {ws : List (List String × Entry)} {t' : FileTree}
    (grown : GrownBelow place t s) (below : ∀ w ∈ ws, w.1 ≠ [])
    (written : Writes s (ws.map (under place)) t') : GrownBelow place t t' := by
  obtain ⟨before, belowBefore, writtenBefore⟩ := grown
  refine ⟨before ++ ws, ?_, ?_⟩
  · intro w listed
    rcases List.mem_append.1 listed with earlier | later
    · exact belowBefore w earlier
    · exact below w later
  · rw [List.map_append]
    exact writtenBefore.append written

end FileTree

/-! ### All messages -/

namespace Backend

open FileTree (Writes under GrownBelow)

variable {b : Backend} {ready t t' : FileTree} {output : Path}

/-- **The loop over documents.** Each document gives a message, the message its writes, and no
module comes twice. -/
theorem writes_of_generateFiles {files : List Path} {written listed : List (String × Path)}
    (apart : b.FilesApart)
    (plain : ∀ file ∈ files, ∀ spec, ready.Loads file spec → Path.Plain spec.moduleName)
    (reads : ∀ file ∈ files, ∀ s, GrownBelow output.place ready s →
      s.readText file = ready.readText file)
    (here : ready.HasDirectory output) (grown : GrownBelow output.place ready t)
    (run : Runs (generateFiles b output written files) t listed t') :
    ∃ specs wss, List.Forall₂ ready.Loads files specs ∧
      List.Forall₂ b.MessageWrites specs wss ∧
      Writes t (wss.flatten.map (under output.place)) t' ∧
      listed.map (·.1) = written.map (·.1) ++ specs.map (·.moduleName) ∧
      ((written.map (·.1)).Nodup → (listed.map (·.1)).Nodup) := by
  induction files generalizing written t with
  | nil =>
      obtain ⟨rfl, rfl⟩ := Runs.pure_iff.1 run
      exact ⟨[], [], .nil, .nil, .nil t, by simp, id⟩
  | cons file files ih =>
      obtain ⟨plainHere, plain⟩ := List.forall_mem_cons.1 plain
      obtain ⟨readsHere, reads⟩ := List.forall_mem_cons.1 reads
      obtain ⟨loaded, t₁, lifted, generation⟩ := Runs.bind_iff.1 run
      cases loaded with
      | error e => exact absurd generation Runs.not_throw
      | ok spec =>
          obtain ⟨⟨text, content, load⟩, rfl⟩ := FileTree.loadFile_eq_ok (Runs.lift_iff.1 lifted)
          have isLoaded : ready.Loads file spec := ⟨text, readsHere t₁ grown ▸ content, load⟩
          obtain ⟨module, t₂, generated, others⟩ := Runs.bind_iff.1 generation
          obtain ⟨rfl, ws, messageWrites, first⟩ := writes_of_generateMessage apart
            (plainHere spec isLoaded) (grown.hasDirectory here) generated
          split at others
          · exact absurd others Runs.not_throw
          · rename_i fresh
            obtain ⟨specs, wss, areLoaded, areWrites, rest, modules, distinct⟩ :=
              ih plain reads (grown.trans messageWrites.below first) others
            refine ⟨spec :: specs, ws :: wss, .cons isLoaded areLoaded,
              .cons messageWrites areWrites, ?_, ?_, ?_⟩
            · rw [List.flatten_cons, List.map_append]
              exact first.append rest
            · simp [modules]
            · intro before
              have new : ∀ module ∈ written.map (·.1), module ≠ spec.moduleName := by
                intro module listed same
                obtain ⟨entry, mem, rfl⟩ := List.mem_map.1 listed
                have differ := List.lookup_eq_none_iff.1 fresh entry mem
                simp [same] at differ
              refine distinct ?_
              rw [List.map_append, List.nodup_append]
              refine ⟨before, by simp, fun module listed other last => ?_⟩
              rw [List.mem_singleton.1 last]
              exact new module listed

/-- **A run as a list of writes.** The modules that it returns are those of the messages, each
once. -/
theorem writes_of_generateAll {input : Path} {final : FileTree} {names : List String}
    (apart : b.FilesApart)
    (made : (FileSystem.makeDirectories output : StateM FileTree _) t = (.ok (), ready))
    (empty : ∀ place ≠ [], ready.entry? (output.place ++ place) = none) (named : ready.Named)
    (plain : ∀ files, Runs (schemaFiles input) ready files ready → ∀ file ∈ files, ∀ spec,
      ready.Loads file spec → Path.Plain spec.moduleName)
    (run : Runs (generateAll b input output) t names final) :
    ∃ files specs wss, Runs (schemaFiles input) ready files ready ∧
      List.Forall₂ ready.Loads files specs ∧ List.Forall₂ b.MessageWrites specs wss ∧
      (specs.map (·.moduleName)).Nodup ∧ names.Perm (specs.map (·.moduleName)) ∧
      Writes ready ((wss.flatten ++ [b.manifestWrite names]).map (under output.place)) final := by
  obtain ⟨_, t₁, making, run⟩ := Runs.bind_iff.1 run
  obtain ⟨files, t₂, listing, run⟩ := Runs.bind_iff.1 run
  obtain ⟨written, t₃, generation, run⟩ := Runs.bind_iff.1 run
  obtain ⟨_, t₄, manifest, run⟩ := Runs.bind_iff.1 run
  obtain ⟨rfl, rfl⟩ := Runs.pure_iff.1 run
  cases made.symm.trans (Runs.attempt_iff.1 making)
  obtain ⟨rfl, -⟩ := FileTree.schemaFiles_eq_ok listing
  have reads : ∀ file ∈ files, ∀ s, GrownBelow output.place t₂ s →
      s.readText file = t₂.readText file :=
    fun file mem s grown => grown.readText_document named empty listing mem
  obtain ⟨specs, wss, loaded, each, grown, modules, distinct⟩ :=
    writes_of_generateFiles apart (plain files listing) reads
      (FileTree.hasDirectory_of_makeDirectories made) (.refl _ t₂) generation
  refine ⟨files, specs, wss, listing, loaded, each, ?_, ?_, ?_⟩
  · simpa [modules] using distinct (by simp)
  · refine (List.mergeSort_perm _ _).trans ?_
    simp [modules]
  · rw [List.map_append]
    exact grown.append (writes_of_writeManifest apart manifest)

/-- The manifest of all modules has a dot in its name, and no module has. -/
theorem manifest_not_mem {specs : List MessageSpec} {wss : List (List (List String × Entry))}
    (apart : b.FilesApart) (each : List.Forall₂ b.MessageWrites specs wss)
    (plain : ∀ spec ∈ specs, Path.Plain spec.moduleName) :
    [b.manifestFile] ∉ wss.flatten.map (·.1) := by
  intro inside
  obtain ⟨w, isWrite, same⟩ := List.mem_map.1 inside
  obtain ⟨ws, isListed, isWrite⟩ := List.mem_flatten.1 isWrite
  obtain ⟨spec, mem, messageWrites⟩ := Outcome.exists_of_mem_right each isListed
  have head := messageWrites.head? w isWrite
  rw [same] at head
  have name : b.manifestFile = spec.moduleName := Option.some.inj head
  exact (plain spec mem).noDot (name ▸ apart.dotted)

/-! ### Success -/

/-- Everything that is to be written for a message can be: its structs are consistent, its units can
be generated, and its files have names that files can have. -/
def Produces (b : Backend) (spec : MessageSpec) : Prop :=
  ∃ r, prepare spec = .ok r ∧ FileTree.Usable spec.moduleName ∧
    ∀ v ∈ spec.validVersions.toList, FileTree.Usable (b.unitFile v) ∧
      ∃ text, b.generate spec r v = .ok text

theorem runs_units {spec : MessageSpec} {r : Registry} {dir : Path} {versions : List Version}
    (here : t.HasDirectory dir)
    (free : ∀ name, t.entry? (dir.place ++ [name]) ≠ some .directory)
    (each : ∀ v ∈ versions, FileTree.Usable (b.unitFile v) ∧
      ∃ text, b.generate spec r v = .ok text) :
    ∃ t', Runs (versions.forM (writeUnit b spec r dir)) t ⟨⟩ t' := by
  induction versions generalizing t with
  | nil => exact ⟨t, rfl⟩
  | cons v versions ih =>
      obtain ⟨⟨usable, text, rendered⟩, each⟩ := List.forall_mem_cons.1 each
      have first : Runs (writeUnit b spec r dir v) t ()
          (t.insert (dir.place ++ [b.unitFile v]) (.text text)) := by
        unfold writeUnit
        rw [rendered]
        exact Runs.attempt_iff.2
          (FileTree.update_eq_ok.2 (here.writeText_child usable (free _) text))
      have written : Writes t [(dir.place ++ [b.unitFile v], .text text)] _ :=
        .single (by simp) fun directory => absurd directory (free _)
      have free : ∀ name, FileTree.entry? (t.insert (dir.place ++ [b.unitFile v]) (.text text))
          (dir.place ++ [name]) ≠ some .directory := by
        intro name directory
        exact free name (FileTree.directory_of_insert_text (by simp) directory)
      obtain ⟨t', rest⟩ := ih (here.mono written.keepsDirectories) free each
      exact ⟨t', Runs.bind_iff.2 ⟨_, _, first, rest⟩⟩

theorem runs_writeManifest {dir : Path} (here : t.HasDirectory dir)
    (manifest : FileTree.Usable b.manifestFile)
    (free : t.entry? (dir.place ++ [b.manifestFile]) ≠ some .directory) (modules : List String) :
    ∃ t', Runs (writeManifest b dir modules) t () t' :=
  ⟨_, Runs.attempt_iff.2 (FileTree.update_eq_ok.2 (here.writeText_child manifest free _))⟩

theorem runs_generateMessage {spec : MessageSpec} (apart : b.FilesApart)
    (manifest : FileTree.Usable b.manifestFile) (produces : b.Produces spec)
    (here : t.HasDirectory output)
    (nothing : ∀ rest, t.entry? (output.place ++ spec.moduleName :: rest) = none) :
    ∃ t', Runs (generateMessage b spec output) t spec.moduleName t' := by
  obtain ⟨r, prepared, usable, each⟩ := produces
  have made := here.makeDirectory_child usable (nothing [])
  have inside := FileTree.hasDirectory_of_makeDirectory made
  have place : (output.child spec.moduleName).place = output.place ++ [spec.moduleName] :=
    Path.place_child usable.proper
  have free : ∀ name, FileTree.entry? (t.insert (output.place ++ [spec.moduleName]) .directory)
      ((output.child spec.moduleName).place ++ [name]) = none := by
    intro name
    rw [place, FileTree.entry?_insert_of_ne (by simp), List.append_assoc]
    exact nothing [name]
  obtain ⟨t₂, units⟩ := runs_units (b := b) (r := r) inside (by simp [free]) each
  obtain ⟨ws, areUnits, written⟩ := writes_of_units apart units
  -- No unit is called like the manifest, so its place is still free.
  have last : t₂.entry? ((output.child spec.moduleName).place ++ [b.manifestFile]) ≠
      some .directory := by
    rw [written.entry?_of_not_mem, free]
    · simp
    · rw [FileTree.map_fst_map_under, map_fst_units areUnits]
      intro listed
      simp only [List.mem_map, List.append_cancel_left_eq] at listed
      obtain ⟨_, ⟨v, -, rfl⟩, same⟩ := listed
      exact apart.units v (List.cons.inj same).1
  have stays := inside.mono written.keepsDirectories
  obtain ⟨t₃, ended⟩ := runs_writeManifest stays manifest last
    (spec.validVersions.toList.map versionModule)
  refine ⟨t₃, ?_⟩
  unfold generateMessage
  rw [prepared]
  refine Runs.bind_iff.2 ⟨(), _, Runs.attempt_iff.2
    (FileTree.makeDirectories_of_makeDirectory made), ?_⟩
  refine Runs.bind_iff.2 ⟨⟨⟩, t₂, units, ?_⟩
  exact Runs.bind_iff.2 ⟨(), t₃, ended, Runs.pure_iff.2 ⟨rfl, rfl⟩⟩

theorem runs_generateFiles {files : List Path} {specs : List MessageSpec}
    {written : List (String × Path)} (apart : b.FilesApart)
    (manifest : FileTree.Usable b.manifestFile)
    (loaded : List.Forall₂ ready.Loads files specs)
    (produces : ∀ spec ∈ specs, b.Produces spec ∧ Path.Plain spec.moduleName)
    (distinct : (written.map (·.1) ++ specs.map (·.moduleName)).Nodup)
    (reads : ∀ file ∈ files, ∀ s, GrownBelow output.place ready s →
      s.readText file = ready.readText file)
    (here : ready.HasDirectory output) (grown : GrownBelow output.place ready t)
    (nothing : ∀ spec ∈ specs, ∀ rest, t.entry? (output.place ++ spec.moduleName :: rest) = none) :
    ∃ listed t', Runs (generateFiles b output written files) t listed t' := by
  induction loaded generalizing written t with
  | nil => exact ⟨written, t, rfl⟩
  | @cons file spec files specs isLoaded _ ih =>
      obtain ⟨⟨producesHere, plain⟩, produces⟩ := List.forall_mem_cons.1 produces
      obtain ⟨readsHere, reads⟩ := List.forall_mem_cons.1 reads
      obtain ⟨nothingHere, nothing⟩ := List.forall_mem_cons.1 nothing
      obtain ⟨t₁, generated⟩ :=
        runs_generateMessage apart manifest producesHere (grown.hasDirectory here) nothingHere
      obtain ⟨-, ws, messageWrites, first⟩ :=
        writes_of_generateMessage apart plain (grown.hasDirectory here) generated
      have isLoaded : t.Loads file spec := by
        obtain ⟨text, content, load⟩ := isLoaded
        exact ⟨text, (readsHere t grown).trans content, load⟩
      have fresh : written.lookup spec.moduleName = none := by
        refine List.lookup_eq_none_iff.2 fun entry listed => ?_
        have differ := (List.nodup_append.1 distinct).2.2 entry.1 (List.mem_map_of_mem listed)
          spec.moduleName (List.mem_cons_self ..)
        simpa using Ne.symm differ
      have nothing : ∀ spec' ∈ specs, ∀ rest,
          t₁.entry? (output.place ++ spec'.moduleName :: rest) = none := by
        intro spec' mem rest
        rw [first.entry?_of_not_mem, nothing spec' mem rest]
        rw [FileTree.map_fst_map_under]
        intro listed
        obtain ⟨place, isPlace, same⟩ := List.mem_map.1 listed
        obtain ⟨w, isWrite, rfl⟩ := List.mem_map.1 isPlace
        have head := messageWrites.head? w isWrite
        rw [List.append_cancel_left same] at head
        have modules := (List.nodup_append.1 distinct).2.1
        refine (List.nodup_cons.1 modules).1 (List.mem_map.2 ⟨spec', mem, ?_⟩)
        exact Option.some.inj head
      have distinct : ((written ++ [(spec.moduleName, file)]).map (·.1) ++
          specs.map (·.moduleName)).Nodup := by
        simpa using distinct
      obtain ⟨listed, t', rest⟩ :=
        ih produces distinct reads (grown.trans messageWrites.below first) nothing
      refine ⟨listed, t', ?_⟩
      refine Runs.bind_iff.2 ⟨.ok spec, t, Runs.lift_iff.2 isLoaded.loadFile_eq, ?_⟩
      refine Runs.bind_iff.2 ⟨spec.moduleName, t₁, generated, ?_⟩
      simpa [fresh] using rest

/-- **A run succeeds** if the output directory is empty, every document is that of a message whose
units can be generated, and the modules of the messages have different plain names. -/
theorem runs_generateAll {input : Path} {files : List Path} {specs : List MessageSpec}
    (apart : b.FilesApart) (manifest : FileTree.Usable b.manifestFile)
    (here : t.HasDirectory output)
    (empty : ∀ place ≠ [], t.entry? (output.place ++ place) = none) (named : t.Named)
    (listing : Runs (schemaFiles input) t files t) (loaded : List.Forall₂ t.Loads files specs)
    (produces : ∀ spec ∈ specs, b.Produces spec ∧ Path.Plain spec.moduleName)
    (distinct : (specs.map (·.moduleName)).Nodup) :
    ∃ names final, Runs (generateAll b input output) t names final := by
  have reads : ∀ file ∈ files, ∀ s, GrownBelow output.place t s →
      s.readText file = t.readText file :=
    fun file mem s grown => grown.readText_document named empty listing mem
  have plain := (FileTree.forall_loads_iff loaded).2 fun spec mem => (produces spec mem).2
  have modules : (([] : List (String × Path)).map (·.1) ++ specs.map (·.moduleName)).Nodup :=
    distinct
  obtain ⟨written, t₁, generation⟩ := runs_generateFiles apart manifest loaded produces modules
    reads here (.refl _ t) fun spec _ rest => empty _ (by simp)
  obtain ⟨specs', wss, loaded', each, grown, -, -⟩ :=
    writes_of_generateFiles apart plain reads here (.refl _ t) generation
  have plainNames := (FileTree.forall_loads_iff loaded').1 plain
  have free : t₁.entry? (output.place ++ [b.manifestFile]) ≠ some .directory := by
    rw [grown.entry?_of_not_mem, empty _ (by simp)]
    · simp
    · rw [FileTree.map_fst_map_under]
      intro listed
      obtain ⟨place, isPlace, same⟩ := List.mem_map.1 listed
      rw [List.append_cancel_left same] at isPlace
      exact manifest_not_mem apart each plainNames isPlace
  obtain ⟨final, ended⟩ := runs_writeManifest (here.mono grown.keepsDirectories) manifest free
    ((written.map (·.1)).mergeSort ascending)
  refine ⟨(written.map (·.1)).mergeSort ascending, final, ?_⟩
  refine Runs.bind_iff.2 ⟨(), t, Runs.attempt_iff.2
    (FileTree.makeDirectories_of_makeDirectory here.makeDirectory_self), ?_⟩
  refine Runs.bind_iff.2 ⟨files, t, listing, ?_⟩
  refine Runs.bind_iff.2 ⟨written, t₁, generation, ?_⟩
  exact Runs.bind_iff.2 ⟨(), final, ended, Runs.pure_iff.2 ⟨rfl, rfl⟩⟩

end Backend

end WireSchema

import Mathlib.Data.List.Nodup
import WireSchema.Proofs.Manifests
import WireSchema.Proofs.OutputRuns

/-!
# The tree of a successful run

A run that succeeds has written what a reader of the schemas expects and nothing else: a directory
for every message, in it a unit for every version and a manifest, and the manifest of all modules
(`Backend.Rust.Describes`).

The run is a list of writes (`WireSchema.Proofs.OutputRuns`). They go to different places, because
modules have different names and no file of a module is called like another one (`nodup_writes`), so
the list is what there is in the tree at the end (`mem_writes_iff`).
-/

namespace WireSchema

namespace Backend

variable {b : Backend}

/-! ### Different places -/

/-- A message is written to different places: its versions can be told by their file names. -/
theorem MessageWrites.nodup {spec : MessageSpec} {ws : List (List String × Entry)}
    (apart : b.FilesApart) (low : 0 ≤ spec.validVersions.lowest)
    (high : spec.validVersions.highest ≤ Version.greatest) (h : b.MessageWrites spec ws) :
    (ws.map (·.1)).Nodup := by
  have units : (spec.validVersions.toList.map fun v =>
      [spec.moduleName, b.unitFile v]).Nodup := by
    have files := (Manifest.nodup_versionModules low high).map
      (f := fun name => [spec.moduleName, name ++ ("." ++ b.fileExtension)])
      (by simp [Function.Injective])
    simpa [Function.comp_def, unitFile_eq] using files
  rw [h.map_fst, List.nodup_cons, List.nodup_append]
  refine ⟨by simp, units, by simp, fun place listed other last => ?_⟩
  obtain ⟨v, -, rfl⟩ := List.mem_map.1 listed
  rw [List.mem_singleton.1 last]
  simpa using apart.units v

theorem nodup_flatten {specs : List MessageSpec} {wss : List (List (List String × Entry))}
    (each : List.Forall₂ b.MessageWrites specs wss)
    (nodup : ∀ spec ∈ specs, ∀ ws, b.MessageWrites spec ws → (ws.map (·.1)).Nodup)
    (distinct : (specs.map (·.moduleName)).Nodup) : (wss.flatten.map (·.1)).Nodup := by
  induction each with
  | nil => simp
  | @cons spec ws specs wss first others ih =>
      obtain ⟨nodupHere, nodup⟩ := List.forall_mem_cons.1 nodup
      obtain ⟨fresh, distinct⟩ := List.nodup_cons.1 distinct
      rw [List.flatten_cons, List.map_append, List.nodup_append]
      refine ⟨nodupHere ws first, ih nodup distinct, fun place here place' there same => ?_⟩
      obtain ⟨w, listed, rfl⟩ := List.mem_map.1 here
      obtain ⟨w', listed', rfl⟩ := List.mem_map.1 there
      obtain ⟨ws', inside, listed'⟩ := List.mem_flatten.1 listed'
      obtain ⟨spec', mem, messageWrites⟩ := Outcome.exists_of_mem_right others inside
      have heads := (first.head? w listed).symm.trans
        ((congrArg List.head? same).trans (messageWrites.head? w' listed'))
      exact fresh (List.mem_map.2 ⟨spec', mem, (Option.some.inj heads).symm⟩)

variable {specs : List MessageSpec}

theorem below_of_mem_writes {wss : List (List (List String × Entry))} {names : List String}
    (each : List.Forall₂ b.MessageWrites specs wss) :
    ∀ w ∈ wss.flatten ++ [b.manifestWrite names], w.1 ≠ [] := by
  intro w written
  rcases List.mem_append.1 written with ofMessage | last
  · obtain ⟨ws, isListed, isWrite⟩ := List.mem_flatten.1 ofMessage
    obtain ⟨spec, -, messageWrites⟩ := Outcome.exists_of_mem_right each isListed
    exact messageWrites.below w isWrite
  · rw [List.mem_singleton.1 last]
    simp [manifestWrite]

/-- The writes of a run go to different places. -/
theorem nodup_writes {wss : List (List (List String × Entry))} (names : List String)
    (apart : b.FilesApart) (each : List.Forall₂ b.MessageWrites specs wss)
    (bounds : ∀ spec ∈ specs, 0 ≤ spec.validVersions.lowest ∧
      spec.validVersions.highest ≤ Version.greatest)
    (plain : ∀ spec ∈ specs, Path.Plain spec.moduleName)
    (distinct : (specs.map (·.moduleName)).Nodup) :
    ((wss.flatten ++ [b.manifestWrite names]).map (·.1)).Nodup := by
  rw [List.map_append, List.nodup_append]
  refine ⟨nodup_flatten each ?_ distinct, by simp, fun place inside other last => ?_⟩
  · intro spec mem ws messageWrites
    exact messageWrites.nodup apart (bounds spec mem).1 (bounds spec mem).2
  · rw [List.mem_singleton.1 last]
    intro same
    rw [same] at inside
    exact manifest_not_mem apart each plain inside

/-! ### The described tree -/

theorem prepare_eq_ok {spec : MessageSpec} {r : Registry} (h : prepare spec = .ok r) :
    Registry.ofMessage spec = .ok r := by
  obtain ⟨_, -, registered⟩ := Outcome.bind_eq_ok.1 h
  exact registered

namespace Rust

/-- What is to stand in the output directory for a message, by what leads there. -/
inductive DescribesMessage (withTests : Bool) (spec : MessageSpec) :
    List String → Entry → Prop where
  /-- The directory of the message. -/
  | directory : DescribesMessage withTests spec [spec.moduleName] .directory
  /-- The unit of a version, generated from a registry of the message alone. -/
  | unit {r : Registry} {v : Version} {text : String}
      (registered : Registry.ofMessage spec = .ok r) (valid : v ∈ spec.validVersions.toList)
      (rendered : (rust withTests).generate spec r v = .ok text) :
      DescribesMessage withTests spec [spec.moduleName, "v" ++ toString v ++ ".rs"] (.text text)
  /-- The manifest of the versions, with a line for each. -/
  | versions : DescribesMessage withTests spec [spec.moduleName, "mod.rs"]
      (.text (String.join
        (spec.validVersions.toList.map fun v => "pub mod v" ++ toString v ++ ";\n")))

/-- What is to stand in the output directory for some messages, by what leads there. The modules in
`listed` are those of the manifest of all modules. -/
inductive Describes (withTests : Bool) (specs : List MessageSpec) (listed : List String) :
    List String → Entry → Prop where
  /-- The manifest of the modules, with a line for each. -/
  | manifest : Describes withTests specs listed ["mod.rs"]
      (.text (String.join (listed.map fun name => "pub mod " ++ escapeKeyword name ++ ";\n")))
  | message {spec : MessageSpec} {place : List String} {entry : Entry} (mem : spec ∈ specs)
      (described : DescribesMessage withTests spec place entry) :
      Describes withTests specs listed place entry

variable {withTests : Bool} {specs : List MessageSpec} {place : List String} {entry : Entry}

theorem unitFile_rust (v : Version) :
    (rust withTests).unitFile v = "v" ++ toString v ++ ".rs" := by
  have dot : ".rs" = "." ++ "rs" := by decide
  rw [dot, ← String.append_assoc]
  rfl

/-- The modules of versions need no mark in a manifest. -/
theorem manifestLine_versionModule (v : Version) :
    manifestLine (versionModule v) = "pub mod v" ++ toString v ++ ";\n" := by
  have digit : (versionModule v).toList.any Char.isDigit = true := by
    rw [versionModule, String.toList_append, List.any_append, Text.any_isDigit_toString,
      Bool.or_true]
  have start : "pub mod v" = "pub mod " ++ "v" := by decide
  rw [manifestLine, escapeKeyword_of_digit digit, versionModule, start]
  simp only [String.append_assoc]

theorem manifest_versions (versions : List Version) :
    (rust withTests).manifest (versions.map versionModule) =
      String.join (versions.map fun v => "pub mod v" ++ toString v ++ ";\n") := by
  show String.join ((versions.map versionModule).map manifestLine) = _
  simp only [List.map_map, Function.comp_def, manifestLine_versionModule]

/-- What is written for a message is what is described for it. -/
theorem mem_messageWrites_iff {spec : MessageSpec} {ws : List (List String × Entry)}
    (low : 0 ≤ spec.validVersions.lowest)
    (high : spec.validVersions.highest ≤ Version.greatest)
    (h : (rust withTests).MessageWrites spec ws) :
    (place, entry) ∈ ws ↔ DescribesMessage withTests spec place entry := by
  obtain ⟨r, units, prepared, areUnits, rfl⟩ := h
  have registered := prepare_eq_ok prepared
  have manifest : (rust withTests).manifestWrite (spec.validVersions.toList.map versionModule) =
      (["mod.rs"], .text (String.join
        (spec.validVersions.toList.map fun v => "pub mod v" ++ toString v ++ ";\n"))) := by
    rw [manifestWrite, Manifest.text, Manifest.arrange_versionModules low high, manifest_versions]
    rfl
  rw [List.mem_cons, List.map_append, List.mem_append, manifest]
  constructor
  · intro written
    rcases written with first | moved | last
    · cases first
      exact .directory
    · obtain ⟨w, isUnit, same⟩ := List.mem_map.1 moved
      obtain ⟨v, valid, text, rendered, rfl⟩ := Outcome.exists_of_mem_right areUnits isUnit
      rw [unitFile_rust] at same
      cases same
      exact .unit registered valid rendered
    · cases List.mem_singleton.1 last
      exact .versions
  · intro described
    cases described with
    | directory => exact .inl rfl
    | unit registered' valid rendered =>
        cases registered.symm.trans registered'
        obtain ⟨w, isUnit, text, rendered', rfl⟩ := Outcome.exists_of_mem_left areUnits valid
        cases rendered.symm.trans rendered'
        refine .inr (.inl (List.mem_map.2 ⟨_, isUnit, ?_⟩))
        rw [unitFile_rust]
        rfl
    | versions => exact .inr (.inr (List.mem_singleton.2 rfl))

theorem mem_writes_iff {wss : List (List (List String × Entry))}
    (each : List.Forall₂ (rust withTests).MessageWrites specs wss)
    (bounds : ∀ spec ∈ specs, 0 ≤ spec.validVersions.lowest ∧
      spec.validVersions.highest ≤ Version.greatest) (names : List String) :
    (place, entry) ∈ wss.flatten ++ [(rust withTests).manifestWrite names] ↔
      Describes withTests specs (Manifest.arrange names) place entry := by
  have manifest : (rust withTests).manifestWrite names =
      (["mod.rs"], .text (String.join
        ((Manifest.arrange names).map fun name => "pub mod " ++ escapeKeyword name ++ ";\n"))) :=
    rfl
  rw [List.mem_append, List.mem_singleton, manifest]
  constructor
  · intro written
    rcases written with ofMessage | last
    · obtain ⟨ws, isListed, isWrite⟩ := List.mem_flatten.1 ofMessage
      obtain ⟨spec, mem, messageWrites⟩ := Outcome.exists_of_mem_right each isListed
      obtain ⟨low, high⟩ := bounds spec mem
      exact .message mem ((mem_messageWrites_iff low high messageWrites).1 isWrite)
    · cases last
      exact .manifest
  · intro described
    cases described with
    | manifest => exact .inr rfl
    | @message spec _ _ mem described =>
        obtain ⟨ws, isListed, messageWrites⟩ := Outcome.exists_of_mem_left each mem
        obtain ⟨low, high⟩ := bounds spec mem
        exact .inl (List.mem_flatten.2
          ⟨ws, isListed, (mem_messageWrites_iff low high messageWrites).2 described⟩)

end Rust

end Backend

open FileTree (under) in
/-- **The tree of a successful run.** Let the output directory be empty once it is made, and let the
modules of the documents in the input directory have plain names. If the run succeeds then the
documents are those of messages with different modules, and the output directory holds what is
described for them and nothing else: the manifest with a line for each module, in the order of their
keys, and for every message a directory with a unit for each of its versions, generated from a
registry of its own, and with a manifest that has a line for each version, ascending. All units
could be generated. Nothing has changed elsewhere. -/
theorem generateAll_writes_described_tree {withTests : Bool} {input output : Path}
    {t ready final : FileTree} {names : List String}
    (made : (FileSystem.makeDirectories output : StateM FileTree _) t = (.ok (), ready))
    (empty : ∀ place ≠ [], ready.entry? (output.place ++ place) = none) (named : ready.Named)
    (plain : ∀ files, Runs (schemaFiles input) ready files ready → ∀ file ∈ files, ∀ spec,
      ready.Loads file spec → Path.Plain spec.moduleName)
    (run : Runs (generateAll (Backend.rust withTests) input output) t names final) :
    ∃ files specs listed, Runs (schemaFiles input) ready files ready ∧
      List.Forall₂ ready.Loads files specs ∧ (specs.map (·.moduleName)).Nodup ∧
      listed.Perm (specs.map (·.moduleName)) ∧ listed.Pairwise Manifest.Precedes ∧
      (∀ spec ∈ specs, ∃ r, Registry.ofMessage spec = .ok r ∧
        ∀ v ∈ spec.validVersions.toList, ∃ text,
          (Backend.rust withTests).generate spec r v = .ok text) ∧
      (∀ spec ∈ specs, spec.validVersions.toList.Pairwise (· < ·) ∧
        ∀ v, v ∈ spec.validVersions.toList ↔
          spec.validVersions.lowest ≤ v ∧ v ≤ spec.validVersions.highest) ∧
      (∀ place ≠ [], ∀ entry, final.entry? (output.place ++ place) = some entry ↔
        Backend.Rust.Describes withTests specs listed place entry) ∧
      ∀ place, (∀ rest ≠ [], place ≠ output.place ++ rest) →
        final.entry? place = ready.entry? place := by
  have apart := Backend.filesApart_rust withTests
  obtain ⟨files, specs, wss, listing, loaded, each, distinct, returned, written⟩ :=
    Backend.writes_of_generateAll apart made empty named plain run
  have plainNames := (FileTree.forall_loads_iff loaded).1 (plain files listing)
  have bounds := (FileTree.forall_loads_iff loaded).1 fun _ _ _ isLoaded => isLoaded.bounds
  have listed := Manifest.arrange_perm (returned.nodup_iff.2 distinct)
  have places : (((wss.flatten ++ [(Backend.rust withTests).manifestWrite names]).map
      (under output.place)).map (·.1)).Nodup := by
    rw [FileTree.map_fst_map_under]
    exact (Backend.nodup_writes names apart each bounds plainNames distinct).map
      (List.append_right_injective output.place)
  refine ⟨files, specs, _, listing, loaded, distinct, listed.trans returned,
    Manifest.pairwise_precedes_arrange names, ?_, ?_, ?_, ?_⟩
  · intro spec mem
    obtain ⟨ws, -, r, units, prepared, areUnits, -⟩ := Outcome.exists_of_mem_left each mem
    refine ⟨r, Backend.prepare_eq_ok prepared, fun v valid => ?_⟩
    obtain ⟨w, -, text, rendered, -⟩ := Outcome.exists_of_mem_left areUnits valid
    exact ⟨text, rendered⟩
  · intro spec _
    exact ⟨spec.validVersions.pairwise_toList, fun v => VersionRange.mem_toList⟩
  · intro place below entry
    rw [written.entry?_eq_some_iff places (empty place below), FileTree.mem_map_under]
    exact Backend.Rust.mem_writes_iff each bounds names
  · intro place elsewhere
    refine written.entry?_of_not_mem fun inside => ?_
    rw [FileTree.map_fst_map_under] at inside
    obtain ⟨rest, isPlace, same⟩ := List.mem_map.1 inside
    obtain ⟨w, isWrite, rfl⟩ := List.mem_map.1 isPlace
    exact elsewhere w.1 (Backend.below_of_mem_writes each w isWrite) same.symm

/-- A directory at the root of a tree is there under its name. -/
theorem FileTree.hasDirectory_of_entry {t : FileTree} {name : String}
    (clean : [name].any (·.toList.contains '\x00') = false)
    (components : (⟨name⟩ : Path).components = [name])
    (short : Text.utf8Length name.toList ≤ FileTree.nameLimit) (proper : Path.Proper name)
    (there : t.entry? [name] = some .directory) : t.HasDirectory ⟨name⟩ := by
  have here : FileTree.step [] name = [name] := by simp [FileTree.step, proper.notDots]
  refine ⟨components ▸ clean, components ▸ ⟨short, ?_, trivial⟩⟩
  rw [here, there]

namespace Sample

/-! ### A directory with two documents -/

/-- A file tree with two documents, another file, and an empty directory. -/
def rack : FileTree :=
  ⟨[(["in"], .directory), (["in", "journal.json"], .text journalText),
    (["in", "ticket.json"], .text ticketText), (["in", "notes.txt"], .text "No schema."),
    (["out"], .directory)]⟩

def rackInput : Path := ⟨"in"⟩

def rackOutput : Path := ⟨"out"⟩

def rackFiles : List Path := ["journal.json", "ticket.json"].map rackInput.child

theorem hasDirectory_rackInput : rack.HasDirectory rackInput :=
  FileTree.hasDirectory_of_entry (by decide) rfl (by decide) (by decide) rfl

theorem hasDirectory_rackOutput : rack.HasDirectory rackOutput :=
  FileTree.hasDirectory_of_entry (by decide) rfl (by decide) (by decide) rfl

theorem named_rack : rack.Named := by
  unfold FileTree.Named rack
  decide

theorem rackOutput_empty (place : List String) (below : place ≠ []) :
    rack.entry? (rackOutput.place ++ place) = none := by
  have start : rackOutput.place = ["out"] := rfl
  rw [start, FileTree.entry?, if_neg (by simp), List.lookup_eq_none_iff]
  simp [rack, below]

theorem runs_schemaFiles_rack : Runs (schemaFiles rackInput) rack rackFiles rack := by
  have names : rack.fileNames rackInput = .ok ["journal.json", "ticket.json", "notes.txt"] :=
    hasDirectory_rackInput.fileNames_eq
  exact FileTree.runs_schemaFiles names (by decide) (by decide)

theorem loads_rack : List.Forall₂ rack.Loads rackFiles [journal, ticket] := by
  refine .cons ⟨journalText, ?_, load_journalText⟩ (.cons ⟨ticketText, ?_, load_ticketText⟩ .nil)
  · exact hasDirectory_rackInput.readText_child (by decide) rfl
  · exact hasDirectory_rackInput.readText_child (by decide) rfl

theorem produces_journal : (Backend.rust true).Produces journal := by
  refine ⟨journalRegistry, rfl, by decide, fun v valid => ?_⟩
  have versions : v = 0 ∨ v = 1 := by
    simpa [journal, VersionRange.toList, List.range_succ] using valid
  rcases versions with rfl | rfl
  · refine ⟨by decide, Backend.Rust.generate_succeeds_iff.2
      ⟨⟨"Journal", .data, 0, [journal.struct.atVersion 0 false true false,
        entry.atVersion 0 false false true]⟩, ?_, by decide⟩⟩
    cbv
  · exact ⟨by decide, Backend.Rust.generate_succeeds_iff.2 ⟨_, atVersion_journal, by decide⟩⟩

/-- The unit of the second document from the version on at which it has a seat. -/
def ticketFrom2 (v : Version) : MessageAt where
  name := "Ticket"
  role := .request
  version := v
  structs :=
    [ticket.struct.atVersion v true true false, place.atVersion v true false false,
      fare.atVersion v true false true]

theorem atVersion_ticketFrom2 {v : Version} (seated : v = 2 ∨ v = 3 ∨ v = 4) :
    ticket.atVersion ticketRegistry v = .ok (ticketFrom2 v) := by
  rcases seated with rfl | rfl | rfl <;> cbv

theorem produces_ticket : (Backend.rust true).Produces ticket := by
  refine ⟨ticketRegistry, rfl, by decide, fun v valid => ?_⟩
  have versions : v = 1 ∨ v = 2 ∨ v = 3 ∨ v = 4 := by
    simpa [ticket, VersionRange.toList, List.range_succ] using valid
  rcases versions with rfl | seated
  · exact ⟨by decide, Backend.Rust.generate_succeeds_iff.2 ⟨_, atVersion_ticket_one, by decide⟩⟩
  · refine ⟨?_, Backend.Rust.generate_succeeds_iff.2 ⟨_, atVersion_ticketFrom2 seated, ?_⟩⟩
    all_goals rcases seated with rfl | rfl | rfl <;> decide

theorem produces_rack : ∀ spec ∈ [journal, ticket], (Backend.rust true).Produces spec := by
  intro spec mem
  rcases List.mem_pair.1 mem with rfl | rfl
  · exact produces_journal
  · exact produces_ticket

theorem plain_rack : ∀ spec ∈ [journal, ticket], Path.Plain spec.moduleName := by
  intro spec mem
  simp only [List.mem_cons, List.not_mem_nil, or_false] at mem
  rcases mem with rfl | rfl
  · exact ⟨by decide, by decide, by decide⟩
  · exact ⟨by decide, by decide, by decide⟩

theorem modules_rack : [journal, ticket].map (·.moduleName) = ["journal", "ticket"] := by
  decide

/-- The run on the sample succeeds, and leaves what is described for its two messages. -/
theorem rack_generated :
    ∃ names final, Runs (generateAll (Backend.rust true) rackInput rackOutput) rack names final ∧
      final.entry? ["out", "mod.rs"] = some (.text "pub mod journal;\npub mod ticket;\n") ∧
      final.entry? ["out", "ticket", "mod.rs"] =
        some (.text "pub mod v1;\npub mod v2;\npub mod v3;\npub mod v4;\n") ∧
      ∀ place ≠ [], ∀ entry, final.entry? (["out"] ++ place) = some entry ↔
        Backend.Rust.Describes true [journal, ticket] ["journal", "ticket"] place entry := by
  have apart := Backend.filesApart_rust true
  have manifest : FileTree.Usable (Backend.rust true).manifestFile := by decide
  have distinct : ([journal, ticket].map (·.moduleName)).Nodup := by
    rw [modules_rack]
    decide
  have made : (FileSystem.makeDirectories rackOutput : StateM FileTree _) rack =
      (.ok (), rack) :=
    FileTree.makeDirectories_of_makeDirectory hasDirectory_rackOutput.makeDirectory_self
  obtain ⟨names, final, run⟩ := Backend.runs_generateAll apart manifest hasDirectory_rackOutput
    rackOutput_empty named_rack runs_schemaFiles_rack loads_rack
    (fun spec mem => ⟨produces_rack spec mem, plain_rack spec mem⟩) distinct
  have plain : ∀ files, Runs (schemaFiles rackInput) rack files rack → ∀ file ∈ files, ∀ spec,
      rack.Loads file spec → Path.Plain spec.moduleName := by
    intro files listing
    obtain ⟨rfl, -⟩ := runs_schemaFiles_rack.unique listing
    exact (FileTree.forall_loads_iff loads_rack).2 plain_rack
  obtain ⟨files, specs, listed, listing, loaded, -, once, ascending, -, -, tree, -⟩ :=
    generateAll_writes_described_tree made rackOutput_empty named_rack plain run
  obtain ⟨rfl, -⟩ := runs_schemaFiles_rack.unique listing
  have same : specs = [journal, ticket] := FileTree.eq_of_forall₂_loads loaded loads_rack
  rw [same, modules_rack] at once
  have order : listed = ["journal", "ticket"] :=
    Manifest.eq_of_perm once ascending (by decide)
  rw [same, order] at tree
  have root : String.join (["journal", "ticket"].map fun name =>
      "pub mod " ++ Backend.Rust.escapeKeyword name ++ ";\n") =
      "pub mod journal;\npub mod ticket;\n" := by
    decide
  have versions : String.join (ticket.validVersions.toList.map fun v =>
      "pub mod v" ++ toString v ++ ";\n") =
      "pub mod v1;\npub mod v2;\npub mod v3;\npub mod v4;\n" := by
    decide
  refine ⟨names, final, run, ?_, ?_, tree⟩
  · rw [← root]
    exact (tree ["mod.rs"] (by simp) _).2 .manifest
  · rw [← versions]
    exact (tree ["ticket", "mod.rs"] (by simp) _).2
      (.message (List.mem_cons_of_mem _ (List.mem_singleton_self _)) .versions)

end Sample

end WireSchema

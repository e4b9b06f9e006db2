import WireSchema.Proofs.GeneratedTree

/-!
# The order in which modules are reported

A run reports the modules that it has written, and lists them in a manifest. The report is in the
order of the names as **texts**; the manifest is in the order of their **keys**, where a number at
the end counts as a number. The two orders differ: `record10` is reported before `record2` and
listed after it.

They differ only around names that end in a number. If a text comes first and is listed last, then
the other name is a stem with digits after it, and the text is the same stem with something after it
that is below the digits as a text, but is not a smaller number (`Manifest.before_iff_overtakes`).
So the report is in the order of the manifest exactly if no reported module overtakes another
(`reported_in_manifest_order_iff`).
-/

namespace WireSchema

/-! ### Texts in lexicographic order -/

namespace Text

theorem append_lt_append_iff {stem a b : List Char} : stem ++ a < stem ++ b ↔ a < b := by
  induction stem with
  | nil => rfl
  | cons c stem ih =>
      rw [List.cons_append, List.cons_append, List.cons_lt_cons_iff]
      simp [ih]

/-- Of two texts that do not start alike the order is settled, whatever follows. -/
theorem prefix_or_append_lt {a b : List Char} (less : a < b) :
    a <+: b ∨ ∀ x y, a ++ x < b ++ y := by
  induction a generalizing b with
  | nil => exact .inl (List.nil_prefix)
  | cons c a ih =>
      cases b with
      | nil => exact absurd less (List.not_lt_nil _)
      | cons d b =>
          rcases List.cons_lt_cons_iff.1 less with first | ⟨rfl, later⟩
          · exact .inr fun x y => List.cons_lt_cons_iff.2 (.inl first)
          · rcases ih later with starts | settled
            · exact .inl ((List.prefix_cons_inj c).2 starts)
            · exact .inr fun x y => List.cons_lt_cons_iff.2 (.inr ⟨rfl, settled x y⟩)

theorem lt_append {stem more : List Char} (nonempty : more ≠ []) : stem < stem ++ more := by
  have start : ([] : List Char) < more := by
    obtain ⟨c, cs, rfl⟩ := List.exists_cons_of_ne_nil nonempty
    exact List.nil_lt_cons c cs
  have longer : stem ++ [] < stem ++ more := append_lt_append_iff.2 start
  rwa [List.append_nil] at longer

end Text

namespace Manifest

/-! ### Different modules in order -/

/-- The listed modules are in the order of their keys. -/
theorem pairwise_arrange {modules : List String} (distinct : modules.Nodup) :
    (arrange modules).Pairwise (inOrder · · = true) := by
  rw [arrange_of_nodup distinct]
  exact pairwise_mergeSort modules

/-- Modules in the order of their keys are listed so, in whatever order they are given. -/
theorem arrange_eq_of_perm {modules listed : List String} (perm : listed.Perm modules)
    (distinct : modules.Nodup) (sorted : listed.Pairwise (inOrder · · = true)) :
    arrange modules = listed := by
  refine List.Perm.eq_of_pairwise ?_ (pairwise_arrange distinct) sorted
    ((arrange_perm distinct).trans perm.symm)
  intro a b _ _ first second
  exact eq_of_inOrder first second

/-! ### Stems and digits -/

/-- A name is a stem that ends in no digit, and digits. -/
structure Parts (name : String) (stem digits : List Char) : Prop where
  toList : name.toList = stem ++ digits
  digits : ∀ c ∈ digits, c.isDigit = true
  stem : ∀ c, stem.getLast? = some c → c.isDigit = false

theorem Parts.ofName {name : String} {stem digits : List Char} (parts : Parts name stem digits) :
    Key.ofName name = ⟨String.ofList stem, numberOf? digits, name⟩ := by
  have reversed : name.toList.reverse = digits.reverse ++ stem.reverse := by
    rw [parts.toList, List.reverse_append]
  have run : ∀ c ∈ digits.reverse, c.isDigit = true :=
    fun c mem => parts.digits c (List.mem_reverse.1 mem)
  have stops : stem.reverse.takeWhile Char.isDigit = [] ∧
      stem.reverse.dropWhile Char.isDigit = stem.reverse := by
    have last := parts.stem
    rw [List.getLast?_eq_head?_reverse] at last
    cases beginning : stem.reverse with
    | nil => simp
    | cons c cs =>
        rw [beginning] at last
        simp [last c rfl]
  simp [Key.ofName, reversed, List.takeWhile_append_of_pos run, List.dropWhile_append_of_pos run,
    stops]

theorem exists_parts (name : String) : ∃ stem digits, Parts name stem digits := by
  refine ⟨(name.toList.reverse.dropWhile Char.isDigit).reverse,
    (name.toList.reverse.takeWhile Char.isDigit).reverse, ?_, ?_, ?_⟩
  · rw [← List.reverse_append, List.takeWhile_append_dropWhile, List.reverse_reverse]
  · intro c mem
    exact List.all_eq_true.1 List.all_takeWhile c (List.mem_reverse.1 mem)
  · intro c last
    rw [List.getLast?_reverse] at last
    have stopped := List.head?_dropWhile_not Char.isDigit name.toList.reverse
    rw [last] at stopped
    simpa using stopped

/-- The module `b`, a stem with digits, is listed before `a` although its text comes later: `a` is
the same stem with something else, which is below the digits as a text but is not a smaller
number. -/
def Overtakes (b a : String) : Prop :=
  ∃ stem digits rest, Parts b stem digits ∧ a.toList = stem ++ rest ∧ rest < digits ∧
    ((∃ c ∈ rest, c.isDigit = false) ∨ numberBefore (numberOf? digits) (numberOf? rest) = true)

theorem Overtakes.lt {a b : String} (overtakes : Overtakes b a) : a < b := by
  obtain ⟨stem, digits, rest, parts, start, less, -⟩ := overtakes
  rw [String.lt_iff_toList_lt, start, parts.toList]
  exact Text.append_lt_append_iff.2 less

/-- A module whose name has no number at its end overtakes no other. -/
theorem Overtakes.ends_in_digit {a b : String} (overtakes : Overtakes b a) :
    ∃ c, b.toList.getLast? = some c ∧ c.isDigit = true := by
  obtain ⟨stem, digits, rest, parts, -, less, -⟩ := overtakes
  have nonempty : digits ≠ [] := by
    intro none
    rw [none] at less
    exact absurd less (List.not_lt_nil _)
  refine ⟨digits.getLast nonempty, ?_, parts.digits _ (List.getLast_mem nonempty)⟩
  rw [parts.toList, List.getLast?_append, List.getLast?_eq_some_getLast nonempty, Option.some_or]

theorem overtakes_of_before {a b : String} (less : a < b)
    (before : (Key.ofName b).before (Key.ofName a) = true) : Overtakes b a := by
  obtain ⟨stem, digits, parts⟩ := exists_parts b
  obtain ⟨stemA, digitsA, partsA⟩ := exists_parts a
  have texts : a.toList < b.toList := String.lt_iff_toList_lt.1 less
  rw [parts.ofName, partsA.ofName] at before
  simp only [Key.before, Bool.or_eq_true, Bool.and_eq_true, decide_eq_true_eq, beq_iff_eq,
    String.lt_iff_toList_lt, String.toList_ofList, String.ofList_inj] at before
  rcases before with stems | ⟨rfl, numbers | ⟨-, names⟩⟩
  · -- The stem is smaller, so the other one must start with it.
    rcases Text.prefix_or_append_lt stems with starts | settled
    · obtain ⟨more, rfl⟩ := starts
      have nonempty : more ≠ [] := by
        intro none
        rw [none, List.append_nil] at stems
        exact lt_irrefl stem stems
      have start : a.toList = stem ++ (more ++ digitsA) := by
        rw [partsA.toList, List.append_assoc]
      rw [start, parts.toList] at texts
      refine ⟨stem, digits, more ++ digitsA, parts, start, Text.append_lt_append_iff.1 texts,
        .inl ?_⟩
      refine ⟨more.getLast nonempty, ?_, partsA.stem _ ?_⟩
      · exact List.mem_append_left _ (List.getLast_mem nonempty)
      · rw [List.getLast?_append, List.getLast?_eq_some_getLast nonempty, Option.some_or]
    · have greater := settled digits digitsA
      rw [← parts.toList, ← partsA.toList] at greater
      exact absurd greater (lt_asymm texts)
  · rw [partsA.toList, parts.toList] at texts
    exact ⟨_, digits, digitsA, parts, partsA.toList, Text.append_lt_append_iff.1 texts,
      .inr numbers⟩
  · exact absurd names (lt_asymm texts)

theorem Overtakes.before {a b : String} (overtakes : Overtakes b a) :
    (Key.ofName b).before (Key.ofName a) = true := by
  obtain ⟨stem, digits, rest, parts, start, -, cause⟩ := overtakes
  by_cases other : ∃ c ∈ rest, c.isDigit = false
  · obtain ⟨c, mem, noDigit⟩ := other
    obtain ⟨stemA, digitsA, partsA⟩ := exists_parts a
    -- The digits of the other name are too few to reach back to the stem.
    have longer : ∃ more, more ≠ [] ∧ stemA = stem ++ more := by
      rcases List.append_eq_append_iff.1 (partsA.toList.symm.trans start) with
        ⟨between, -, inside⟩ | ⟨more, same, split⟩
      · have digit := partsA.digits c (inside ▸ List.mem_append_right _ mem)
        rw [noDigit] at digit
        cases digit
      · refine ⟨more, ?_, same⟩
        intro none
        rw [split, none, List.nil_append] at mem
        have digit := partsA.digits c mem
        rw [noDigit] at digit
        cases digit
    obtain ⟨more, nonempty, rfl⟩ := longer
    have stems : String.ofList stem < String.ofList (stem ++ more) := by
      rw [String.lt_iff_toList_lt, String.toList_ofList, String.toList_ofList]
      exact Text.lt_append nonempty
    rw [parts.ofName, partsA.ofName, Key.before, decide_eq_true stems, Bool.true_or]
  · have digit : ∀ c ∈ rest, c.isDigit = true := by
      intro c mem
      by_contra noDigit
      exact other ⟨c, mem, Bool.eq_false_iff.2 noDigit⟩
    have numbers := cause.resolve_left other
    have partsA : Parts a stem rest := ⟨start, digit, parts.stem⟩
    rw [parts.ofName, partsA.ofName]
    simp [Key.before, numbers]

/-- A name that comes later as a text is listed earlier exactly if it overtakes. -/
theorem before_iff_overtakes {a b : String} (less : a < b) :
    (Key.ofName b).before (Key.ofName a) = true ↔ Overtakes b a :=
  ⟨overtakes_of_before less, Overtakes.before⟩

/-- Names in the order of their texts are listed as they are, exactly if none overtakes another. -/
theorem arrange_eq_self_iff {modules : List String} (ascending : modules.Pairwise (· < ·)) :
    arrange modules = modules ↔ ∀ a ∈ modules, ∀ b ∈ modules, ¬ Overtakes b a := by
  have distinct : modules.Nodup := ascending.imp ne_of_lt
  have listed : ∀ {a b}, a < b → (inOrder a b = true ↔ ¬ Overtakes b a) := by
    intro a b less
    rw [inOrder, Bool.not_eq_true', Bool.eq_false_iff, ne_eq, before_iff_overtakes less]
  constructor
  · intro same a memA b memB overtakes
    have pairwise := pairwise_arrange distinct
    rw [same] at pairwise
    -- Of two names, the one with the smaller text stands first.
    have forwards : modules.Pairwise fun a b => a < b → inOrder a b = true := by
      refine pairwise.imp ?_
      intro a b first _
      exact first
    have backwards : modules.Pairwise fun a b => b < a → inOrder b a = true := by
      refine ascending.imp ?_
      intro a b less greater
      exact absurd greater (lt_asymm less)
    have every : ∀ a ∈ modules, ∀ b ∈ modules, a < b → inOrder a b = true :=
      fun a memA b memB => forwards.forall_of_forall_of_flip
        (fun a _ less => absurd less (lt_irrefl a)) backwards memA memB
    exact (listed overtakes.lt).1 (every a memA b memB overtakes.lt) overtakes
  · intro none
    rw [arrange_of_nodup distinct]
    refine List.mergeSort_of_pairwise (ascending.imp_of_mem ?_)
    intro a b memA memB less
    exact (listed less).2 (none a memA b memB)

end Manifest

/-! ### The report of a run -/

namespace Backend

variable {b : Backend} {input output : Path} {t final : FileTree} {names : List String}

/-- The loop over documents gives no module twice. -/
theorem nodup_of_generateFiles {files : List Path} {written listed : List (String × Path)}
    {t' : FileTree} (before : (written.map (·.1)).Nodup)
    (run : Runs (generateFiles b output written files) t listed t') :
    (listed.map (·.1)).Nodup := by
  induction files generalizing written t with
  | nil =>
      obtain ⟨rfl, rfl⟩ := Runs.pure_iff.1 run
      exact before
  | cons file files ih =>
      obtain ⟨loaded, t₁, -, generation⟩ := Runs.bind_iff.1 run
      cases loaded with
      | error e => exact absurd generation Runs.not_throw
      | ok spec =>
          obtain ⟨module, t₂, -, others⟩ := Runs.bind_iff.1 generation
          split at others
          · exact absurd others Runs.not_throw
          · rename_i fresh
            refine ih ?_ others
            have new : module ∉ written.map (·.1) := by
              intro listed
              obtain ⟨entry, mem, same⟩ := List.mem_map.1 listed
              have differ := List.lookup_eq_none_iff.1 fresh entry mem
              simp [same] at differ
            have grown := List.Nodup.concat new before
            rw [List.concat_eq_append] at grown
            rw [List.map_append]
            exact grown

/-- A run reports its modules in the order of their texts, each once, and the last thing that it
writes is the manifest that lists them. -/
theorem report_of_generateAll (apart : b.FilesApart)
    (run : Runs (generateAll b input output) t names final) :
    names.Pairwise (· < ·) ∧
      final.entry? (output.place ++ [b.manifestFile]) =
        some (.text (b.manifest (Manifest.arrange names))) := by
  obtain ⟨_, t₁, -, run⟩ := Runs.bind_iff.1 run
  obtain ⟨files, t₂, -, run⟩ := Runs.bind_iff.1 run
  obtain ⟨written, t₃, generation, run⟩ := Runs.bind_iff.1 run
  obtain ⟨_, t₄, manifest, run⟩ := Runs.bind_iff.1 run
  obtain ⟨rfl, rfl⟩ := Runs.pure_iff.1 run
  have distinct := nodup_of_generateFiles (by simp) generation
  constructor
  · have sorted : ((written.map (·.1)).mergeSort ascending).Pairwise (ascending · · = true) := by
      refine List.pairwise_mergeSort ?_ ?_ _
      · intro a b c first second
        simp only [ascending, Bool.not_eq_true', decide_eq_false_iff_not, not_lt] at first second ⊢
        exact le_trans first second
      · intro a b
        simp only [ascending, Bool.or_eq_true, Bool.not_eq_true', decide_eq_false_iff_not, not_lt]
        exact le_total a b
    have differ := (List.mergeSort_perm (written.map (·.1)) ascending).nodup_iff.2 distinct
    refine (sorted.and differ).imp ?_
    intro a b both
    have first := both.1
    simp only [ascending, Bool.not_eq_true', decide_eq_false_iff_not, not_lt] at first
    exact lt_of_le_of_ne first both.2
  · have written := writes_of_writeManifest apart manifest
    exact written.entry?_of_mem (by simp) (List.mem_singleton_self _)

/-- A run that finds nothing in its way reports the modules of the messages. -/
theorem exists_report {files : List Path} {specs : List MessageSpec} (apart : b.FilesApart)
    (manifest : FileTree.Usable b.manifestFile) (here : t.HasDirectory output)
    (empty : ∀ place ≠ [], t.entry? (output.place ++ place) = none) (named : t.Named)
    (listing : Runs (schemaFiles input) t files t) (loaded : List.Forall₂ t.Loads files specs)
    (produces : ∀ spec ∈ specs, b.Produces spec ∧ Path.Plain spec.moduleName)
    (distinct : (specs.map (·.moduleName)).Nodup) :
    ∃ names final, Runs (generateAll b input output) t names final ∧
      names.Perm (specs.map (·.moduleName)) := by
  obtain ⟨names, final, run⟩ :=
    runs_generateAll apart manifest here empty named listing loaded produces distinct
  have made : (FileSystem.makeDirectories output : StateM FileTree _) t = (.ok (), t) :=
    FileTree.makeDirectories_of_makeDirectory here.makeDirectory_self
  have plain : ∀ files, Runs (schemaFiles input) t files t → ∀ file ∈ files, ∀ spec,
      t.Loads file spec → Path.Plain spec.moduleName := by
    intro files' listing'
    obtain ⟨rfl, -⟩ := listing.unique listing'
    exact (FileTree.forall_loads_iff loaded).2 fun spec mem => (produces spec mem).2
  obtain ⟨files', specs', wss, listing', loaded', -, -, reported, -⟩ :=
    writes_of_generateAll apart made empty named plain run
  obtain ⟨rfl, -⟩ := listing.unique listing'
  rw [FileTree.eq_of_forall₂_loads loaded' loaded] at reported
  exact ⟨names, final, run, reported⟩

end Backend

/-- **Report and manifest.** A run that succeeds has written a manifest that lists the reported
modules in the order of their keys, each once. It reports them in that order exactly if none of them
overtakes another, as a module with a number at its end may. -/
theorem reported_in_manifest_order_iff {b : Backend} {input output : Path} {t final : FileTree}
    {names : List String} (apart : b.FilesApart)
    (run : Runs (generateAll b input output) t names final) :
    ∃ listed, final.entry? (output.place ++ [b.manifestFile]) = some (.text (b.manifest listed)) ∧
      listed.Perm names ∧ listed.Pairwise (Manifest.inOrder · · = true) ∧
      (names = listed ↔ ∀ first ∈ names, ∀ second ∈ names, ¬ Manifest.Overtakes second first) := by
  obtain ⟨ascending, manifest⟩ := Backend.report_of_generateAll apart run
  have distinct : names.Nodup := ascending.imp ne_of_lt
  refine ⟨_, manifest, Manifest.arrange_perm distinct, Manifest.pairwise_arrange distinct, ?_⟩
  rw [eq_comm, Manifest.arrange_eq_self_iff ascending]

namespace Sample

/-- In the sample with two documents no module ends in a number. -/
theorem rack_reported_in_manifest_order :
    ∃ names final, Runs (generateAll (Backend.rust true) rackInput rackOutput) rack names final ∧
      names.Perm ["journal", "ticket"] ∧
      final.entry? ["out", "mod.rs"] = some (.text ((Backend.rust true).manifest names)) := by
  have apart := Backend.filesApart_rust true
  obtain ⟨names, final, run, reported⟩ := Backend.exists_report apart (by decide)
    hasDirectory_rackOutput rackOutput_empty named_rack runs_schemaFiles_rack loads_rack
    (fun spec mem => ⟨produces_rack spec mem, plain_rack spec mem⟩) (by rw [modules_rack]; decide)
  rw [modules_rack] at reported
  obtain ⟨listed, written, -, -, same⟩ := reported_in_manifest_order_iff apart run
  have ends : ∀ name ∈ ["journal", "ticket"], (name.toList.getLast?.any Char.isDigit) = false := by
    decide
  have none : ∀ first ∈ names, ∀ second ∈ names, ¬ Manifest.Overtakes second first := by
    intro first _ second mem overtakes
    obtain ⟨c, last, digit⟩ := overtakes.ends_in_digit
    have plain := ends second (reported.mem_iff.1 mem)
    rw [last, Option.any_some, digit] at plain
    cases plain
  refine ⟨names, final, run, reported, ?_⟩
  rw [same.2 none]
  exact written

/-! ### Two numbered documents -/

/-- The document of a message with a number of one digit. -/
def record2Text : String :=
  "\x7b\"name\":\"Record2\",\"validVersions\":\"0\",\"fields\":[]\x7d"

/-- The document of a message with a number of two digits. -/
def record10Text : String :=
  "\x7b\"name\":\"Record10\",\"validVersions\":\"0\",\"fields\":[]\x7d"

/-- A message without fields. -/
def record (name : String) : MessageSpec where
  name := name
  apiKey := none
  role := .data
  validVersions := ⟨0, 0⟩
  flexibleVersions := .none
  struct := ⟨name, ⟨0, 0⟩, []⟩
  commonStructs := []

theorem load_record2Text : MessageSpec.load record2Text = .ok (record "Record2") :=
  MessageSpec.load_of_tokens (by cbv) rfl rfl rfl

theorem load_record10Text : MessageSpec.load record10Text = .ok (record "Record10") :=
  MessageSpec.load_of_tokens (by cbv) rfl rfl rfl

/-- A file tree with the two documents, and an empty directory. -/
def archive : FileTree :=
  ⟨[(["in"], .directory), (["in", "a.json"], .text record2Text),
    (["in", "b.json"], .text record10Text), (["out"], .directory)]⟩

theorem hasDirectory_archiveInput : archive.HasDirectory rackInput :=
  FileTree.hasDirectory_of_entry (by decide) rfl (by decide) (by decide) rfl

theorem hasDirectory_archiveOutput : archive.HasDirectory rackOutput :=
  FileTree.hasDirectory_of_entry (by decide) rfl (by decide) (by decide) rfl

theorem archiveOutput_empty (place : List String) (below : place ≠ []) :
    archive.entry? (rackOutput.place ++ place) = none := by
  have start : rackOutput.place = ["out"] := rfl
  rw [start, FileTree.entry?, if_neg (by simp), List.lookup_eq_none_iff]
  simp [archive, below]

theorem runs_schemaFiles_archive :
    Runs (schemaFiles rackInput) archive (["a.json", "b.json"].map rackInput.child) archive := by
  have names : archive.fileNames rackInput = .ok ["a.json", "b.json"] :=
    hasDirectory_archiveInput.fileNames_eq
  exact FileTree.runs_schemaFiles names (by decide) (by decide)

theorem loads_archive : List.Forall₂ archive.Loads (["a.json", "b.json"].map rackInput.child)
    [record "Record2", record "Record10"] := by
  refine .cons ⟨record2Text, ?_, load_record2Text⟩
    (.cons ⟨record10Text, ?_, load_record10Text⟩ .nil)
  · exact hasDirectory_archiveInput.readText_child (by decide) rfl
  · exact hasDirectory_archiveInput.readText_child (by decide) rfl

theorem produces_record {name : String} (usable : FileTree.Usable (record name).moduleName)
    (view : (record name).atVersion .empty 0 =
      .ok ⟨name, .data, 0, [(record name).struct.atVersion 0 false true false]⟩) :
    (Backend.rust true).Produces (record name) := by
  refine ⟨.empty, rfl, usable, fun v valid => ?_⟩
  have version : v = 0 := by
    simpa [record, VersionRange.toList, List.range_succ] using valid
  subst version
  refine ⟨by decide, Backend.Rust.generate_succeeds_iff.2 ⟨_, view, ?_⟩⟩
  simp [record, StructSpec.atVersion, StructSpec.fieldsAt]

/-- The two modules are reported in one order and listed in the other. -/
theorem numbered_modules_reported_out_of_order :
    ∃ final, Runs (generateAll (Backend.rust true) rackInput rackOutput) archive
        ["record10", "record2"] final ∧
      final.entry? ["out", "mod.rs"] = some (.text "pub mod record2;\npub mod record10;\n") := by
  have apart := Backend.filesApart_rust true
  have modules : [record "Record2", record "Record10"].map (·.moduleName) =
      ["record2", "record10"] := by
    decide
  have produces : ∀ spec ∈ [record "Record2", record "Record10"],
      (Backend.rust true).Produces spec ∧ Path.Plain spec.moduleName := by
    intro spec mem
    simp only [List.mem_cons, List.not_mem_nil, or_false] at mem
    rcases mem with rfl | rfl
    · exact ⟨produces_record (by decide) (by cbv), ⟨by decide, by decide, by decide⟩⟩
    · exact ⟨produces_record (by decide) (by cbv), ⟨by decide, by decide, by decide⟩⟩
  have named : archive.Named := by
    unfold FileTree.Named archive
    decide
  obtain ⟨names, final, run, reported⟩ := Backend.exists_report apart (by decide)
    hasDirectory_archiveOutput archiveOutput_empty named runs_schemaFiles_archive loads_archive
    produces (by rw [modules]; decide)
  rw [modules] at reported
  obtain ⟨ascending, manifest⟩ := Backend.report_of_generateAll apart run
  have order : names = ["record10", "record2"] := by
    refine List.Perm.eq_of_pairwise ?_ ascending (by decide)
      (reported.trans (List.Perm.swap "record10" "record2" []))
    intro a b _ _ less greater
    exact absurd greater (lt_asymm less)
  subst order
  have listed : Manifest.arrange ["record10", "record2"] = ["record2", "record10"] :=
    Manifest.arrange_eq_of_perm (List.Perm.swap "record10" "record2" []) (by decide) (by decide)
  rw [listed] at manifest
  exact ⟨final, run, manifest⟩

end Sample

end WireSchema

import WireSchema.Proofs.Conformance
import WireSchema.Proofs.Identifiers
import WireSchema.Proofs.ImportSets
import WireSchema.Proofs.Lines

/-!
# The fields of a unit, read off its text

A unit is a text, and the first struct in it is the top-level one. `declaredFields` reads the
identifiers of that struct off the lines of the text, without knowing how they came there. They are
the identifiers of the fields that an instance has, whatever the documentation of the fields says:
a comment of several lines, with a closing brace or a field in it, is neither.

Each part of a struct is a text on lines (`WireSchema.Proofs.Lines`) that ends nothing and on which
some identifiers stand (`Lists`); parts follow each other as their identifiers do. What comes before
the struct are imports, none of which looks like the head of a struct.
-/

namespace WireSchema

open Text (IsLine OnLines Consists)

/-! ### Reading fields off lines -/

/-- The identifier on a line that declares a field. -/
def fieldOnLine? (line : String) : Option String :=
  ("    pub ".toList.isPrefixOf? line.toList).map fun rest =>
    String.ofList (rest.takeWhile (· ≠ ':'))

/-- The line that opens a struct. -/
def headLine (name : String) : String :=
  "pub struct " ++ name ++ " \x7b"

/-- The identifiers that a unit shows for a struct: those on the lines between the first line that
opens the struct and the first closing brace after it. -/
def declaredFields (name unit : String) : List String :=
  let after := ((Text.lines unit).dropWhile (· ≠ headLine name)).drop 1
  (after.takeWhile (· ≠ "\x7d")).filterMap fieldOnLine?

/-- A text on lines, none of which is a closing brace, with these identifiers on them. -/
def Lists (text : String) (identifiers : List String) : Prop :=
  ∃ ls, OnLines text ls ∧ (∀ l ∈ ls, l ≠ "\x7d") ∧ ls.filterMap fieldOnLine? = identifiers

namespace Lists

theorem nil : Lists "" [] := ⟨[], .nil, nofun, rfl⟩

theorem append {a b : String} {as bs : List String} (listsA : Lists a as) (listsB : Lists b bs) :
    Lists (a ++ b) (as ++ bs) := by
  obtain ⟨ls, onLines, unclosed, rfl⟩ := listsA
  obtain ⟨ls', onLines', unclosed', rfl⟩ := listsB
  refine ⟨ls ++ ls', onLines.append onLines', ?_, List.filterMap_append⟩
  exact List.forall_mem_append.2 ⟨unclosed, unclosed'⟩

/-- A text that shows no field adds nothing. -/
theorem skip {a b : String} {bs : List String} (comment : Lists a []) (lists : Lists b bs) :
    Lists (a ++ b) bs :=
  comment.append lists

/-- A line of a struct is indented. -/
theorem line {l : String} (isLine : IsLine l) (indented : l.toList.head? = some ' ') :
    Lists (l ++ "\n") (fieldOnLine? l).toList := by
  refine ⟨[l], .line isLine, ?_, ?_⟩
  · intro l' mem same
    rw [List.mem_singleton.1 mem] at same
    rw [same] at indented
    exact absurd indented (by decide)
  · cases found : fieldOnLine? l <;> simp [found]

/-- A line that shows no field. -/
theorem line_nil {l : String} (isLine : IsLine l) (indented : l.toList.head? = some ' ')
    (none : fieldOnLine? l = none) : Lists (l ++ "\n") [] := by
  have lists := line isLine indented
  rwa [none] at lists

theorem join_nil {texts : List String} (each : ∀ text ∈ texts, Lists text []) :
    Lists (String.join texts) [] := by
  induction texts with
  | nil => exact nil
  | cons text texts ih =>
      obtain ⟨first, others⟩ := List.forall_mem_cons.1 each
      rw [String.join_cons]
      exact first.append (ih others)

end Lists

/-- A line that does not start as the head of a struct does. -/
def NotHead (line : String) : Prop :=
  line.toList.head? ≠ some 'p'

instance : DecidablePred NotHead := fun _ => inferInstanceAs (Decidable (_ ≠ _))

theorem NotHead.ne_headLine {line : String} (notHead : NotHead line) (name : String) :
    line ≠ headLine name := by
  rintro rfl
  simp [NotHead, headLine] at notHead

/-- A field whose names fit on a line, with no colon before the one after its identifier. -/
structure FieldAt.IsPlain (field : FieldAt) : Prop where
  /-- The name has no newline. -/
  newline : '\n' ∉ field.name.toList
  /-- The name has no colon. -/
  colon : ':' ∉ field.name.toList
  /-- The struct that the field refers to has no newline in its name. -/
  struct : ∀ name, field.type.structName? = some name → '\n' ∉ name.toList

/-- Between the head of a struct and its closing brace the identifiers are found, if nothing before
looks like a head. -/
theorem declaredFields_eq {name before inside : String} {identifiers : List String}
    (free : '\n' ∉ name.toList) (preceding : Consists NotHead before)
    (lists : Lists inside identifiers) (rest : String) :
    declaredFields name (before ++ (headLine name ++ "\n") ++ inside ++ "\x7d\n" ++ rest) =
      identifiers := by
  obtain ⟨ls, onLines, others⟩ := preceding
  obtain ⟨fieldLines, onFields, unclosed, rfl⟩ := lists
  have head : IsLine (headLine name) :=
    .append_left (by simp [free]) (by decide) (by decide)
  have brace : OnLines "\x7d\n" ["\x7d"] := .line (l := "\x7d") (by decide)
  have all := ((onLines.append (.line head)).append onFields).append brace
  have passed : ∀ l ∈ ls, decide (l ≠ headLine name) = true :=
    fun l mem => decide_eq_true ((others l mem).ne_headLine name)
  have kept : ∀ l ∈ fieldLines, decide (l ≠ "\x7d") = true :=
    fun l mem => decide_eq_true (unclosed l mem)
  rw [declaredFields, all.lines_append]
  simp only [List.append_assoc, List.cons_append, List.nil_append]
  rw [List.dropWhile_append_of_pos passed, List.dropWhile_cons_of_neg (by simp),
    List.drop_succ_cons, List.drop_zero, List.takeWhile_append_of_pos kept,
    List.takeWhile_cons_of_neg (by simp), List.append_nil]

/-! ### Imports -/

/-- A path that fits on a line. -/
def ImportPath.IsPlain (path : ImportPath) : Prop :=
  '\n' ∉ path.module.toList ∧ '\n' ∉ path.symbol.toList

instance (path : ImportPath) : Decidable path.IsPlain :=
  inferInstanceAs (Decidable (_ ∧ _))

/-- A group whose statement fits on a line. -/
def ImportGroup.IsPlain (group : ImportGroup) : Prop :=
  '\n' ∉ group.module.toList ∧ ∀ symbol ∈ group.symbols, '\n' ∉ symbol.toList

theorem insertPath_isPlain {path : ImportPath} {groups : List ImportGroup} (plain : path.IsPlain)
    (before : ∀ group ∈ groups, group.IsPlain) :
    ∀ group ∈ insertPath path groups, group.IsPlain := by
  have alone : (ImportGroup.single path).IsPlain :=
    ⟨plain.1, by simpa [ImportGroup.single] using plain.2⟩
  induction groups with
  | nil => simpa [insertPath] using alone
  | cons group groups ih =>
      obtain ⟨first, others⟩ := List.forall_mem_cons.1 before
      rw [insertPath]
      split
      · exact List.forall_mem_cons.2 ⟨alone, before⟩
      · split
        · refine List.forall_mem_cons.2 ⟨⟨first.1, ?_⟩, others⟩
          intro symbol mem
          rcases mem_insertText.1 mem with rfl | mem
          · exact plain.2
          · exact first.2 symbol mem
        · exact List.forall_mem_cons.2 ⟨first, ih others⟩

theorem Imports.insertAll_isPlain {paths : List ImportPath} {i : Imports}
    (plain : ∀ path ∈ paths, path.IsPlain) (before : ∀ group ∈ i.groups, group.IsPlain) :
    ∀ group ∈ (i.insertAll paths).groups, group.IsPlain := by
  induction paths generalizing i with
  | nil => exact before
  | cons path paths ih =>
      obtain ⟨first, others⟩ := List.forall_mem_cons.1 plain
      exact ih others (insertPath_isPlain first before)

theorem Imports.statement_consists {group : ImportGroup} (plain : group.IsPlain) :
    Consists NotHead (Imports.statement group) := by
  unfold Imports.statement
  split
  · next symbol single =>
      have free : '\n' ∉ symbol.toList := plain.2 symbol (single ▸ List.mem_singleton_self _)
      rw [show ";\n" = ";" ++ "\n" from rfl, ← String.append_assoc]
      refine .line (.append_left ?_ (by decide) (by decide)) ?_
      · simp [plain.1, free]
      · simp [NotHead]
  · have free : '\n' ∉ (", ".intercalate group.symbols).toList :=
      Text.not_mem_intercalate (by decide) plain.2
    rw [show "\x7d;\n" = "\x7d;" ++ "\n" from rfl, ← String.append_assoc]
    refine .line (.append_left ?_ (by decide) (by decide)) ?_
    · simp [plain.1, free, -String.toList_intercalate]
    · simp [NotHead]

/-- The text of imports consists of statements and empty lines. -/
theorem Imports.toText_consists {i : Imports} (plain : ∀ group ∈ i.groups, group.IsPlain) :
    Consists NotHead i.toText := by
  refine .intercalate (by simp [NotHead]) ?_
  intro text mem
  obtain ⟨block, listed, rfl⟩ := List.mem_map.1 mem
  refine .join ?_
  intro statement mem
  obtain ⟨origin, -, rfl⟩ := List.mem_map.1 (List.mem_filter.1 listed).1
  obtain ⟨group, kept, rfl⟩ := List.mem_map.1 mem
  exact statement_consists (plain group (List.mem_filter.1 kept).1)

namespace Backend

/-- What structs import is on lines if what each of them needs is. -/
theorem declareAll_isPlain {b : Backend} {m : MessageAt} {imports out : Imports}
    {structs : List StructAt} {texts : List String}
    (needed : ∀ s ∈ structs, ∀ path ∈ (b.declare m s).imports, path.IsPlain)
    (before : ∀ group ∈ imports.groups, group.IsPlain)
    (run : b.declareAll m imports structs = .ok (out, texts)) :
    ∀ group ∈ out.groups, group.IsPlain := by
  rw [(of_declareAll run).1]
  refine Imports.insertAll_isPlain ?_ before
  intro path mem
  obtain ⟨s, listed, there⟩ := List.mem_flatMap.1 mem
  exact needed s listed path there

namespace Rust

variable {m : MessageAt}

theorem path_of_typeOf? {type : FieldType} {text : String} {path : ImportPath}
    (rendered : typeOf? type = some (text, some path)) : path = uuidPath := by
  induction type generalizing text with
  | array element ih =>
      rw [typeOf?, Option.map_eq_some_iff] at rendered
      obtain ⟨⟨inner, path'⟩, found, same⟩ := rendered
      cases same
      exact ih found
  | _ => cases rendered <;> rfl

theorem fieldsDeclaration_imports {fields : List FieldAt} {path : ImportPath}
    (mem : path ∈ (fieldsDeclaration m fields).imports) : path = uuidPath := by
  induction fields with
  | nil => cases mem
  | cons field fields ih =>
      rw [fieldsDeclaration] at mem
      split at mem
      · cases mem
      · next type path? rendered =>
          rcases List.mem_append.1 mem with here | later
          · rw [Option.mem_toList.1 here] at rendered
            exact path_of_typeOf? rendered
          · exact ih later

theorem markerPaths_isPlain (role : MessageRole) : ∀ path ∈ markerPaths role, path.IsPlain := by
  cases role <;> decide

theorem serdePaths_isPlain : ∀ path ∈ serdePaths, path.IsPlain := by
  decide

theorem structDeclaration_isPlain (s : StructAt) :
    ∀ path ∈ (structDeclaration m s).imports, path.IsPlain := by
  have fields : ∀ path ∈ (fieldsDeclaration m s.fields).imports, path.IsPlain := by
    intro path mem
    rw [fieldsDeclaration_imports mem]
    decide
  have tagged : ∀ path ∈ (if s.hasUnknownTagged then [taggedFieldPath] else []), path.IsPlain := by
    split <;> decide
  have marked : ∀ path ∈ (if s.isTopLevel then markerPaths m.role else []), path.IsPlain := by
    split
    · exact markerPaths_isPlain m.role
    · nofun
  simp only [structDeclaration]
  split
  · exact List.forall_mem_append.2 ⟨serdePaths_isPlain, fields⟩
  · simp only [List.forall_mem_append]
    exact ⟨⟨⟨serdePaths_isPlain, fields⟩, tagged⟩, marked⟩

/-! ### Structs on lines -/

theorem docComment_lists (about : Option String) : Lists (docComment about) [] := by
  cases about with
  | none => exact .nil
  | some about =>
      refine .join_nil ?_
      intro text mem
      obtain ⟨line, listed, rfl⟩ := List.mem_map.1 mem
      -- Every line gets the mark of a comment, also one that looks like a field.
      have isLine := Text.isLine_trimEnd (Text.newline_not_mem_lines listed)
      refine .line_nil (.append (by decide) isLine) (by simp) ?_
      simp [fieldOnLine?, List.isPrefixOf?]

theorem isLine_toString (n : Int) : IsLine (toString n) where
  free := by
    intro mem
    rcases Text.mem_toString mem with minus | digit
    · exact absurd minus (by decide)
    · exact absurd digit (by decide)
  ending := by
    intro last
    rcases Text.mem_toString (List.mem_of_getLast? last) with minus | digit
    · exact absurd minus (by decide)
    · exact absurd digit (by decide)

theorem tagComment_lists (field : FieldAt) : Lists (tagComment field) [] := by
  have serde : Lists "    #[serde(default)]\n" [] :=
    .line_nil (l := "    #[serde(default)]") (by decide) (by decide) (by decide)
  unfold tagComment
  split
  · cases field.tag with
    | none => exact serde
    | some tag =>
        have isLine : IsLine ("    // tag " ++ toString tag) :=
          .append (by decide) (isLine_toString tag)
        refine .skip (.line_nil isLine (by simp) ?_) serde
        simp [fieldOnLine?, List.isPrefixOf?]
  · exact .nil

/-- The line of a field is cut right after its identifier. -/
theorem fieldOnLine?_field {identifier : String} (free : ':' ∉ identifier.toList) (type : String) :
    fieldOnLine? ("    pub " ++ identifier ++ ": " ++ type ++ ",") = some identifier := by
  have chars : ("    pub " ++ identifier ++ ": " ++ type ++ ",").toList =
      "    pub ".toList ++ (identifier.toList ++ ':' :: (" " ++ type ++ ",").toList) := by
    simp
  have before : ∀ c ∈ identifier.toList, decide (c ≠ ':') = true := by
    intro c mem
    exact decide_eq_true fun same => free (same ▸ mem)
  have cut : "    pub ".toList.isPrefixOf? ("    pub ".toList ++
      (identifier.toList ++ ':' :: (" " ++ type ++ ",").toList)) =
        some (identifier.toList ++ ':' :: (" " ++ type ++ ",").toList) := by
    simp [List.isPrefixOf?]
  rw [fieldOnLine?, chars, cut, Option.map_some, List.takeWhile_append_of_pos before,
    List.takeWhile_cons_of_neg (by decide), List.append_nil, String.ofList_toList]

theorem newline_not_mem_typeOf? {type : FieldType} {text : String} {path : Option ImportPath}
    (rendered : typeOf? type = some (text, path))
    (plain : ∀ name, type.structName? = some name → '\n' ∉ name.toList) : '\n' ∉ text.toList := by
  induction type generalizing text path with
  | array element ih =>
      rw [typeOf?, Option.map_eq_some_iff] at rendered
      obtain ⟨⟨inner, path'⟩, found, same⟩ := rendered
      cases same
      simp [ih found plain]
  | struct name =>
      cases rendered
      exact plain name rfl
  | int width =>
      cases rendered
      cases width <;> decide
  | _ => cases rendered <;> decide

theorem not_mem_fieldIdentifier {name : String} {c : Char} (free : c ∉ name.toList)
    (notUnderscore : c ≠ '_') (notHash : c ≠ '#') (notLower : c.isLower = false) :
    c ∉ (fieldIdentifier name).toList := by
  have snake := Text.not_mem_snakeCase free notUnderscore notLower
  have notR : c ≠ 'r' := by
    rintro rfl
    cases notLower
  rw [fieldIdentifier]
  rcases escapes_or_eq (Text.snakeCase name) with (⟨-, marked⟩ | ⟨-, extended⟩) | plain
  · simp [marked, snake, notR, notHash]
  · simp [extended, snake, notUnderscore]
  · rw [plain]
    exact snake

theorem fieldLine_lists {field : FieldAt} (plain : field.IsPlain) {type : String}
    (free : '\n' ∉ type.toList) :
    Lists ("    pub " ++ fieldIdentifier field.name ++ ": " ++ type ++ ",\n")
      [fieldIdentifier field.name] := by
  have noColon : ':' ∉ (fieldIdentifier field.name).toList :=
    not_mem_fieldIdentifier plain.colon (by decide) (by decide) (by decide)
  have noNewline : '\n' ∉ (fieldIdentifier field.name).toList :=
    not_mem_fieldIdentifier plain.newline (by decide) (by decide) (by decide)
  have isLine : IsLine ("    pub " ++ fieldIdentifier field.name ++ ": " ++ type ++ ",") :=
    .append_left (by simp [noNewline, free]) (by decide) (by decide)
  have lists := Lists.line isLine (by simp)
  rw [fieldOnLine?_field noColon] at lists
  rwa [String.append_assoc] at lists

/-- The comments of a field show nothing, so only its last line counts. -/
theorem fieldText_lists {field : FieldAt} (plain : field.IsPlain) {type : String}
    {path : Option ImportPath} (rendered : typeOf? field.type = some (type, path)) :
    Lists (fieldText field type) [fieldIdentifier field.name] := by
  have comments := (docComment_lists field.about).skip (tagComment_lists field)
  have free := newline_not_mem_typeOf? rendered plain.struct
  have optional : '\n' ∉ ("Option<" ++ type ++ ">").toList := by
    simp [free]
  simp only [fieldText]
  split
  · simpa only [String.append_assoc] using comments.skip (fieldLine_lists plain optional)
  · simpa only [String.append_assoc] using comments.skip (fieldLine_lists plain free)

theorem fieldsDeclaration_lists {fields : List FieldAt} {text : String}
    (plain : ∀ field ∈ fields, field.IsPlain)
    (rendered : (fieldsDeclaration m fields).text = .ok text) :
    Lists text (fields.map fun field => fieldIdentifier field.name) := by
  induction fields generalizing text with
  | nil =>
      cases rendered
      exact .nil
  | cons field fields ih =>
      obtain ⟨first, others⟩ := List.forall_mem_cons.1 plain
      rw [fieldsDeclaration] at rendered
      split at rendered
      · cases rendered
      · next type path typed =>
          obtain ⟨rest, follows, rfl⟩ := Outcome.map_eq_ok.1 rendered
          exact (fieldText_lists first typed).append (ih others follows)

theorem unknownTaggedText_lists : Lists unknownTaggedText [unknownTaggedKey] :=
  .skip
    (.line_nil (l := "    #[serde(default)]") (by decide) (by decide) (by decide))
    (.line (l := "    pub _unknown_tagged_fields: Vec<RawTaggedField>,") (by decide) (by decide))

/-- The text of a struct: its head, what lists its fields, and a brace. -/
theorem structDeclaration_lists {s : StructAt} {text : String}
    (plain : ∀ field ∈ s.fields, field.IsPlain)
    (rendered : (structDeclaration m s).text = .ok text) :
    ∃ inside rest, Lists inside s.identifiers ∧
      text = structHead s.name ++ inside ++ "\x7d\n" ++ rest := by
  simp only [structDeclaration] at rendered
  split at rendered
  · cases rendered
  · next fields fieldsRendered =>
      cases rendered
      have tagged : Lists (if s.hasUnknownTagged then unknownTaggedText else "")
          (if s.hasUnknownTagged then [unknownTaggedKey] else []) := by
        split
        · exact unknownTaggedText_lists
        · exact .nil
      refine ⟨_, if s.isTopLevel then markerText s.name m.role else "",
        (fieldsDeclaration_lists plain fieldsRendered).append tagged, ?_⟩
      rw [← String.append_assoc]

/-- The line above the head of a struct. -/
def deriveLine : String :=
  "#[derive(Serialize, Deserialize, Debug, Clone, PartialEq, Default)]"

theorem deriveLine_newline :
    "#[derive(Serialize, Deserialize, Debug, Clone, PartialEq, Default)]\n" =
      deriveLine ++ "\n" := by
  decide

theorem structHead_eq (name : String) :
    structHead name = deriveLine ++ "\n" ++ (headLine name ++ "\n") := by
  have split : structHead name =
      deriveLine ++ "\n" ++ "pub struct " ++ name ++ (" \x7b" ++ "\n") := by
    rw [← deriveLine_newline]
    rfl
  rw [split, headLine]
  simp only [String.append_assoc]

/-- What a unit has before its first declaration, and after it. -/
theorem exists_parts {header : String} (consists : Consists NotHead header) (first : String)
    (others : List String) :
    ∃ before after, Consists NotHead before ∧
      "\n".intercalate ((if header = "" then [] else [header]) ++ first :: others) =
        before ++ (first ++ after) := by
  obtain ⟨after, joined⟩ : ∃ after, "\n".intercalate (first :: others) = first ++ after := by
    cases others with
    | nil => exact ⟨"", by simp⟩
    | cons other others =>
        exact ⟨"\n" ++ "\n".intercalate (other :: others), by simp [String.append_assoc]⟩
  by_cases empty : header = ""
  · exact ⟨"", after, .nil, by simp [empty, joined]⟩
  · have blank : Consists NotHead ("" ++ "\n") := .line (by decide) (by simp [NotHead])
    exact ⟨header ++ ("" ++ "\n"), after, consists.append blank, by simp [empty, joined]⟩

/-- The first struct of a unit is where its fields are found. -/
theorem declaredFields_unitText {withTests : Bool} {u : MessageAt} {unit : String} {s : StructAt}
    {others : List StructAt} (first : u.structs = s :: others) (name : '\n' ∉ s.name.toList)
    (plain : ∀ field ∈ s.fields, field.IsPlain)
    (rendered : (rust withTests).unitText u = .ok unit) :
    declaredFields s.name unit = s.identifiers := by
  -- The imports of all structs come first, and they are plain; then comes the text of `s`.
  obtain ⟨⟨imports, texts⟩, declared, done⟩ := Outcome.bind_eq_ok.1 rendered
  have plainImports : ∀ group ∈ imports.groups, group.IsPlain :=
    declareAll_isPlain (fun s _ => structDeclaration_isPlain s) (by simp [Imports.empty]) declared
  rw [first] at declared
  obtain ⟨text, own, run⟩ := Outcome.bind_eq_ok.1 declared
  obtain ⟨⟨imports', texts'⟩, rest, same⟩ := Outcome.bind_eq_ok.1 run
  cases same
  obtain ⟨inside, rest', lists, rfl⟩ := structDeclaration_lists plain own
  obtain ⟨before, after, preceding, joined⟩ :=
    exists_parts (Imports.toText_consists plainImports)
      (structHead s.name ++ inside ++ "\x7d\n" ++ rest')
      (texts' ++ if (rust withTests).scaffold u = "" then [] else [(rust withTests).scaffold u])
  -- The line above the head counts as part of what precedes it.
  have derive : Consists NotHead (deriveLine ++ "\n") := .line (by decide) (by decide)
  have found := declaredFields_eq name (preceding.append derive) lists (rest' ++ after)
  have regrouped : before ++ (structHead s.name ++ inside ++ "\x7d\n" ++ rest' ++ after) =
      before ++ (deriveLine ++ "\n") ++ (headLine s.name ++ "\n") ++ inside ++ "\x7d\n" ++
        (rest' ++ after) := by
    rw [structHead_eq]
    simp only [String.append_assoc]
  cases done
  rw [List.append_assoc, List.cons_append]
  exact (congrArg (declaredFields s.name) (joined.trans regrouped)).trans found

end Rust

end Backend

open Backend.Rust (fieldIdentifier)

theorem fieldNames_of_materialize {text : String} {message : MessageSpec} {v : Version}
    {fixture : Json} {i : Instance} (loaded : MessageSpec.load text = .ok message)
    (materialized : message.materialize v fixture = .ok i) :
    i.fieldNames = (message.struct.fieldsAt v).map (·.name) := by
  unfold MessageSpec.materialize at materialized
  split at materialized
  · cases materialized
  · next r registered =>
      obtain ⟨m, valid, run⟩ := Outcome.bind_eq_ok.1 materialized
      exact (conforms_of_load loaded registered valid run).fieldNames

/-- **The declaration lists the fields of the instance.** Take any unit that is generated for a
loaded message, and the instance of the empty fixture at the same version. The fields that the text
of the unit shows for the top-level struct are the fields of the instance, in order, and after them
the one for unknown tagged fields exactly if the version is flexible. The names must fit on a line,
and a field name has no colon; the documentation is arbitrary. -/
theorem declared_fields_are_materialized {text : String} {message : MessageSpec} {r : Registry}
    {v : Version} {withTests : Bool} {unit : String} {i : Instance}
    (loaded : MessageSpec.load text = .ok message)
    (generated : (Backend.rust withTests).generate message r v = .ok unit)
    (materialized : message.materialize v (.object []) = .ok i)
    (name : '\n' ∉ message.name.toList)
    (fields : ∀ f ∈ message.struct.fieldsAt v, '\n' ∉ f.name.toList ∧ ':' ∉ f.name.toList ∧
      ∀ target, f.type.structName? = some target → '\n' ∉ target.toList) :
    declaredFields message.name unit =
      i.fieldNames.map fieldIdentifier ++
        if message.flexibleVersions.contains v then [unknownTaggedKey] else [] := by
  obtain ⟨u, resolved, rendered⟩ := Backend.generate_eq_ok.1 generated
  obtain ⟨-, walked, -⟩ := MessageSpec.atVersion_eq_ok.1 resolved
  obtain ⟨others, first, -⟩ := (MessageSpec.declaring_of_structsAt walked).1.shape
  rw [← MessageSpec.struct_name_of_load loaded] at name ⊢
  have plain : ∀ field ∈ (message.struct.atVersion v (message.isFlexibleAt v) true false).fields,
      field.IsPlain := by
    intro field mem
    obtain ⟨f, listed, rfl⟩ := List.mem_map.1 mem
    obtain ⟨newline, colon, struct⟩ := fields f listed
    exact ⟨newline, colon, struct⟩
  have shown := Backend.Rust.declaredFields_unitText first name plain rendered
  rw [fieldNames_of_materialize loaded materialized, List.map_map]
  refine shown.trans ?_
  simp only [StructAt.identifiers, StructSpec.atVersion, List.map_map]
  rfl

namespace Sample

theorem atVersion_ticket_one : ticket.atVersion ticketRegistry 1 =
    .ok ⟨"Ticket", .request, 1,
      [ticket.struct.atVersion 1 true true false, fare.atVersion 1 true false true]⟩ := by
  cbv

theorem materialize_ticket_one : ticket.materialize 1 (.object []) =
    .ok ⟨"Ticket", [("RideCount", .int .int8 0), ("Type", .string "")], []⟩ := by
  have registered : Registry.ofMessage ticket = .ok ticketRegistry := rfl
  rw [MessageSpec.materialize, registered]
  cbv

/-- The field in the documentation is not found, and the brace there ends nothing. -/
theorem ticket_declares_its_fields :
    MessageSpec.load ticketText = .ok ticket ∧
      ∃ unit, (Backend.rust true).generate ticket ticketRegistry 1 = .ok unit ∧
        declaredFields "Ticket" unit = ["ride_count", "r#type", "_unknown_tagged_fields"] := by
  obtain ⟨unit, generated⟩ : ∃ unit,
      (Backend.rust true).generate ticket ticketRegistry 1 = .ok unit :=
    Backend.Rust.generate_succeeds_iff.2 ⟨_, atVersion_ticket_one, by decide⟩
  refine ⟨load_ticketText, unit, generated, ?_⟩
  refine (declared_fields_are_materialized load_ticketText generated materialize_ticket_one
    (by decide) ?_).trans (by decide)
  have projected : ticket.struct.fieldsAt 1 =
      [rideCount, ⟨"Type", .string, ⟨1, 4⟩, none, none, .none, none, none, none⟩] := rfl
  intro f mem
  rw [projected] at mem
  rcases List.mem_pair.1 mem with rfl | rfl <;> exact ⟨by decide, by decide, nofun⟩

end Sample

end WireSchema

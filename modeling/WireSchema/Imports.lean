import WireSchema.Text.Blank

/-!
# Import blocks

A unit starts with the `use` statements for the symbols it needs. The symbols are collected while
the declarations are rendered and written as one block: one statement a module, modules and symbols
in ascending order, and a blank line between symbols of the standard library, of other crates and of
the unit's own crate.

`Imports` carries that its modules are strictly ascending, and so are the symbols of each of them,
of which there is at least one. The block depends only on the **set** of what was added.
-/

namespace WireSchema

/-! ### Where a module comes from -/

/-- Where a module comes from; the order of the blocks. -/
inductive Origin where
  /-- The standard library. -/
  | standard
  /-- Another crate. -/
  | external
  /-- The unit's own crate. -/
  | own
deriving DecidableEq, Repr

/-- All origins, in the order of the blocks. -/
def Origin.all : List Origin := [.standard, .external, .own]

/-- The text before and after the first `::`. -/
def splitFirstPath? : List Char → Option (List Char × List Char)
  | [] => none
  | ':' :: ':' :: cs => some ([], cs)
  | c :: cs => (splitFirstPath? cs).map fun (before, after) => (c :: before, after)

/-- The text before and after the last `::`. -/
def splitLastPath? (cs : List Char) : Option (List Char × List Char) :=
  (splitFirstPath? cs.reverse).map fun (after, before) => (before.reverse, after.reverse)

/-- The first component of a module path. -/
def pathRoot (module : String) : String :=
  match splitFirstPath? module.toList with
  | some (root, _) => String.ofList root
  | none => module

/-- The origin of a module, by the first component of its path. -/
def Origin.ofModule (module : String) : Origin :=
  let root := pathRoot module
  if ["std", "core", "alloc"].contains root then .standard
  else if ["crate", "super", "self"].contains root then .own
  else .external

/-! ### Collecting -/

/-- A symbol in a module. -/
structure ImportPath where
  /-- The path of the module. -/
  module : String
  /-- The symbol. -/
  symbol : String
deriving DecidableEq, Repr

/-- Read a path `module::Symbol`, split at its last `::`. Neither part may be empty. -/
def ImportPath.read? (text : String) : Option ImportPath :=
  match splitLastPath? (Text.dropBlanks text.toList) with
  | none => none
  | some (module, symbol) =>
    if module.isEmpty || symbol.isEmpty then none
    else some ⟨String.ofList module, String.ofList symbol⟩

/-- Add a text to an ascending list, if it is not there. -/
def insertText (text : String) : List String → List String
  | [] => [text]
  | first :: rest =>
    if text < first then text :: first :: rest
    else if text = first then first :: rest
    else first :: insertText text rest

theorem mem_insertText {text other : String} {texts : List String} :
    other ∈ insertText text texts ↔ other = text ∨ other ∈ texts := by
  induction texts with
  | nil => simp [insertText]
  | cons first rest ih =>
    rw [insertText]
    split
    · exact List.mem_cons
    · split
      · next same => simp [same]
      · rw [List.mem_cons, List.mem_cons, ih]
        exact or_left_comm

theorem insertText_ne_nil (text : String) (texts : List String) : insertText text texts ≠ [] :=
  List.ne_nil_of_mem (mem_insertText.2 (.inl rfl))

theorem ascending_insertText {text : String} {texts : List String}
    (ascending : texts.Pairwise (· < ·)) : (insertText text texts).Pairwise (· < ·) := by
  induction texts with
  | nil => exact List.pairwise_singleton _ _
  | cons first rest ih =>
    obtain ⟨below, later⟩ := List.pairwise_cons.1 ascending
    rw [insertText]
    split
    · next less =>
      refine List.pairwise_cons.2 ⟨fun other mem => ?_, ascending⟩
      rcases List.mem_cons.1 mem with rfl | mem
      · exact less
      · exact String.lt_trans less (below other mem)
    · split
      · exact ascending
      · next notLess differ =>
        refine List.pairwise_cons.2 ⟨fun other mem => ?_, ih later⟩
        rcases mem_insertText.1 mem with rfl | mem
        · exact Std.lt_of_le_of_ne (String.not_lt.1 notLess) (Ne.symm differ)
        · exact below other mem

/-- The symbols imported from a module: at least one, in strictly ascending order. -/
structure ImportGroup where
  /-- The path of the module. -/
  module : String
  /-- The symbols. -/
  symbols : List String
  nonempty : symbols ≠ []
  ascending : symbols.Pairwise (· < ·)
deriving DecidableEq, Repr

namespace ImportGroup

/-- The group of a single path. -/
def single (path : ImportPath) : ImportGroup where
  module := path.module
  symbols := [path.symbol]
  nonempty := List.cons_ne_nil _ _
  ascending := List.pairwise_singleton _ _

/-- Add a symbol. -/
def insert (group : ImportGroup) (symbol : String) : ImportGroup where
  module := group.module
  symbols := insertText symbol group.symbols
  nonempty := insertText_ne_nil symbol group.symbols
  ascending := ascending_insertText group.ascending

end ImportGroup

/-- Add a path to groups in ascending order of their modules. -/
def insertPath (path : ImportPath) : List ImportGroup → List ImportGroup
  | [] => [.single path]
  | group :: groups =>
    if path.module < group.module then .single path :: group :: groups
    else if path.module = group.module then group.insert path.symbol :: groups
    else group :: insertPath path groups

/-- Among the modules, that of the path is inserted as a text is. -/
theorem modules_insertPath (path : ImportPath) (groups : List ImportGroup) :
    (insertPath path groups).map (·.module) =
      insertText path.module (groups.map (·.module)) := by
  induction groups with
  | nil => rfl
  | cons group groups ih =>
    rw [insertPath, List.map_cons, insertText]
    split
    · rfl
    · split
      · rfl
      · rw [List.map_cons, ih]

/-- The imports of a unit: groups in strictly ascending order of their modules. -/
structure Imports where
  /-- The groups. -/
  groups : List ImportGroup
  ascending : (groups.map (·.module)).Pairwise (· < ·)
deriving DecidableEq, Repr

namespace Imports

/-- No imports. -/
def empty : Imports := ⟨[], List.Pairwise.nil⟩

/-- Whether nothing is imported. -/
def isEmpty (i : Imports) : Bool :=
  i.groups.isEmpty

/-- Add a symbol. -/
def insert (i : Imports) (path : ImportPath) : Imports where
  groups := insertPath path i.groups
  ascending := by
    rw [modules_insertPath]
    exact ascending_insertText i.ascending

/-- Add symbols one by one. -/
def insertAll (i : Imports) (paths : List ImportPath) : Imports :=
  paths.foldl insert i

/-! ### Text -/

/-- The statement for a module; several symbols stand in braces. -/
def statement (group : ImportGroup) : String :=
  match group.symbols with
  | [symbol] => "use " ++ group.module ++ "::" ++ symbol ++ ";\n"
  | symbols => "use " ++ group.module ++ "::\x7b" ++ ", ".intercalate symbols ++ "\x7d;\n"

/-- The statements for the modules of one origin. -/
def block (i : Imports) (origin : Origin) : List String :=
  (i.groups.filter fun group => Origin.ofModule group.module = origin).map statement

/-- The text of the imports: the blocks that are not empty, with a blank line between them. -/
def toText (i : Imports) : String :=
  let blocks := (Origin.all.map i.block).filter (!·.isEmpty)
  "\n".intercalate (blocks.map String.join)

end Imports

end WireSchema

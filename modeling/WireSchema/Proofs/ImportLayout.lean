import WireSchema.Proofs.Blanks
import WireSchema.Proofs.ImportTexts
import WireSchema.Proofs.Lines
import WireSchema.Proofs.UnitImports

/-!
# The layout of imports

The text of imports is read line by line, by a reader of `use` statements that knows nothing of how
they are written (`UseStatement.read?`). What it finds are the imported paths, one statement a
module, in the order of origins and then of modules, with one blank line between two origins
(`Layout`).

The lines of the text are blocks of statements with a blank line between each two
(`Imports.onLines_toText`), and no block is empty. The number of blank lines, and that none stands
at an end, are facts about such lists of blocks; everything else is read off one statement at a
time.
-/

namespace WireSchema

open Text (IsLine OnLines)

namespace Text

/-! ### Blocks of lines -/

/-- Texts on lines that are joined by newlines have a blank line between each two. -/
theorem OnLines.intercalate {blocks : List (List String)}
    (isLine : ∀ block ∈ blocks, ∀ l ∈ block, IsLine l) :
    OnLines ("\n".intercalate (blocks.map fun block => String.join (block.map (· ++ "\n"))))
      ([""].intercalate blocks) := by
  induction blocks with
  | nil => exact nil
  | cons block blocks ih =>
      obtain ⟨first, others⟩ := List.forall_mem_cons.1 isLine
      have here : OnLines (String.join (block.map (· ++ "\n"))) block := ⟨rfl, first⟩
      cases blocks with
      | nil => simpa using here
      | cons second blocks =>
          have blank : OnLines "\n" [""] := line (l := "") (by decide)
          rw [List.intercalate_cons_cons, List.map_cons, List.map_cons,
            String.intercalate_cons_cons]
          exact (here.append blank).append (ih others)

theorem OnLines.lines_eq {text : String} {ls : List String} (onLines : OnLines text ls) :
    lines text = ls := by
  have cut := onLines.lines_append ""
  rw [String.append_empty] at cut
  rw [cut]
  exact List.append_nil ls

section

variable {blocks : List (List String)} (statements : ∀ block ∈ blocks, "" ∉ block)

include statements

theorem filter_intercalate : ([""].intercalate blocks).filter (· ≠ "") = blocks.flatten := by
  have kept : ∀ block : List String, "" ∉ block → block.filter (· ≠ "") = block := by
    intro block free
    refine List.filter_eq_self.2 fun l mem => decide_eq_true ?_
    exact fun same => free (same ▸ mem)
  induction blocks with
  | nil => rfl
  | cons block blocks ih =>
      obtain ⟨first, others⟩ := List.forall_mem_cons.1 statements
      cases blocks with
      | nil => simpa using kept block first
      | cons second blocks =>
          rw [List.intercalate_cons_cons, List.filter_append, List.filter_append, ih others,
            kept block first]
          simp

theorem count_intercalate : ([""].intercalate blocks).count "" = blocks.length - 1 := by
  induction blocks with
  | nil => rfl
  | cons block blocks ih =>
      obtain ⟨first, others⟩ := List.forall_mem_cons.1 statements
      cases blocks with
      | nil => simpa using List.count_eq_zero.2 first
      | cons second blocks =>
          rw [List.intercalate_cons_cons, List.count_append, List.count_append, ih others,
            List.count_eq_zero.2 first, List.count_singleton_self]
          simp only [List.length_cons]
          omega

variable (nonempty : ∀ block ∈ blocks, block ≠ [])

include nonempty

theorem head?_intercalate : ([""].intercalate blocks).head? ≠ some "" := by
  cases blocks with
  | nil => simp
  | cons block blocks =>
      obtain ⟨l, ls, rfl⟩ := List.exists_cons_of_ne_nil (nonempty _ (List.mem_cons_self ..))
      have first := statements _ (List.mem_cons_self ..)
      have differ : l ≠ "" := fun same => first (by simp [same])
      cases blocks <;> simpa [List.intercalate_cons_cons] using differ

theorem getLast?_intercalate : ([""].intercalate blocks).getLast? ≠ some "" := by
  induction blocks with
  | nil => simp
  | cons block blocks ih =>
      obtain ⟨free, othersFree⟩ := List.forall_mem_cons.1 statements
      obtain ⟨first, others⟩ := List.forall_mem_cons.1 nonempty
      cases blocks with
      | nil =>
          intro last
          rw [List.intercalate_singleton] at last
          exact free (List.mem_of_getLast? last)
      | cons second blocks =>
          have rest := ih othersFree others
          -- The rest is not empty, so its last line is the last one.
          have more : [""].intercalate (second :: blocks) ≠ [] := by
            obtain ⟨l, ls, rfl⟩ := List.exists_cons_of_ne_nil (others _ (List.mem_cons_self ..))
            cases blocks <;> simp [List.intercalate_cons_cons]
          obtain ⟨last, ends⟩ :
              ∃ last, ([""].intercalate (second :: blocks)).getLast? = some last :=
            ⟨_, List.getLast?_eq_some_getLast more⟩
          rw [List.intercalate_cons_cons, List.getLast?_append, ends, Option.some_or, ← ends]
          exact rest

end

/-! ### Blanks and separators -/

theorem dropBlanks_space {cs : List Char} : dropBlanks (' ' :: cs) = dropBlanks cs := by
  have padded : dropBlanks ([' '] ++ cs ++ []) = dropBlanks cs :=
    dropBlanks_padded (by decide) .nil
  simpa using padded

end Text

/-! ### Components of paths -/

/-- A character that can stand in a component of a path: it neither ends the component, nor a list
of symbols, nor a statement. -/
def isComponentChar (c : Char) : Bool :=
  !Text.isBlank c && !([':', ',', ';', '{', '}'].contains c)

/-- A text that can be a component of a path. Every identifier is one. -/
structure IsComponent (text : String) : Prop where
  nonempty : text ≠ ""
  chars : ∀ c ∈ text.toList, isComponentChar c = true

instance (text : String) : Decidable (IsComponent text) :=
  decidable_of_iff (text ≠ "" ∧ text.toList.all isComponentChar = true)
    ⟨fun both => ⟨both.1, List.all_eq_true.1 both.2⟩,
      fun component => ⟨component.nonempty, List.all_eq_true.2 component.chars⟩⟩

theorem IsComponent.not_mem {text : String} (component : IsComponent text) {c : Char}
    (other : isComponentChar c = false) : c ∉ text.toList := by
  intro mem
  rw [component.chars c mem] at other
  cases other

theorem IsComponent.isBlank_eq {text : String} (component : IsComponent text) {c : Char}
    (mem : c ∈ text.toList) : Text.isBlank c = false := by
  have kept := component.chars c mem
  simp only [isComponentChar, Bool.and_eq_true, Bool.not_eq_true'] at kept
  exact kept.1

/-- A path: two components or more. -/
structure IsPath (components : List String) : Prop where
  long : 2 ≤ components.length
  each : ∀ component ∈ components, IsComponent component

/-- The module and the symbol that the components of a path stand for. -/
def ImportPath.ofComponents (components : List String) : ImportPath :=
  ⟨"::".intercalate components.dropLast, components.getLast?.getD ""⟩

/-- The origin that the first component of a path tells. -/
def Origin.ofRoot (root : String) : Origin :=
  if root ∈ ["std", "core", "alloc"] then .standard
  else if root ∈ ["crate", "super", "self"] then .own
  else .external

/-- The place of an origin in the order of the blocks. -/
def Origin.rank : Origin → Nat
  | .standard => 0
  | .external => 1
  | .own => 2

/-- The last component of a path is its symbol, and those before it make up the module. -/
theorem IsPath.parts {components : List String} (isPath : IsPath components) :
    components = components.dropLast ++ [components.getLast?.getD ""] ∧
      components.dropLast ≠ [] := by
  have long := isPath.long
  constructor
  · cases components with
    | nil => simp at long
    | cons first rest =>
        rw [List.getLast?_eq_some_getLast (List.cons_ne_nil _ _), Option.getD_some,
          List.dropLast_concat_getLast]
  · intro none
    have length := congrArg List.length none
    simp at length
    omega

/-! ### Reading a path -/

theorem splitFirstPath?_append {before after : List Char} (free : ':' ∉ before) :
    splitFirstPath? (before ++ ':' :: ':' :: after) = some (before, after) := by
  induction before with
  | nil => rfl
  | cons c before ih =>
      simp only [List.mem_cons, not_or] at free
      rw [List.cons_append, splitFirstPath?, ih free.2]
      · rfl
      · intro rest colon
        exact absurd colon.symm free.1

theorem splitLastPath?_append {before after : List Char} (free : ':' ∉ after) :
    splitLastPath? (before ++ ':' :: ':' :: after) = some (before, after) := by
  have reversed : (before ++ ':' :: ':' :: after).reverse =
      after.reverse ++ ':' :: ':' :: before.reverse := by
    simp
  rw [splitLastPath?, reversed, splitFirstPath?_append (by simpa using free)]
  simp

theorem ImportPath.read?_intercalate {components : List String} (isPath : IsPath components) :
    ImportPath.read? ("::".intercalate components) = some (.ofComponents components) := by
  obtain ⟨parts, nonempty⟩ := isPath.parts
  have symbol : IsComponent (components.getLast?.getD "") :=
    isPath.each _ (by rw [parts]; simp)
  have module : ∀ c ∈ ("::".intercalate components).toList, Text.isBlank c = false := by
    intro c mem
    rcases Text.mem_of_mem_intercalate mem with between | ⟨component, listed, there⟩
    · have colon : c = ':' := by simpa using between
      rw [colon]
      decide
    · exact (isPath.each component listed).isBlank_eq there
  have text : "::".intercalate components =
      "::".intercalate components.dropLast ++ "::" ++ components.getLast?.getD "" := by
    rw [← String.intercalate_singleton (s := "::") (t := components.getLast?.getD ""),
      ← String.intercalate_append_of_ne_nil nonempty (List.cons_ne_nil _ _), ← parts]
  have named : "::".intercalate components.dropLast ≠ "" := by
    obtain ⟨first, rest, split⟩ := List.exists_cons_of_ne_nil nonempty
    have mem : first ∈ components.dropLast := by simp [split]
    exact Text.intercalate_ne_empty mem
      (isPath.each first ((List.dropLast_sublist _).subset mem)).nonempty
  rw [ImportPath.read?, Text.dropBlanks_of_free module, text, toList_cut,
    splitLastPath?_append (symbol.not_mem (by decide))]
  simp [-String.toList_intercalate, ImportPath.ofComponents, named, symbol.nonempty]

/-- The root of a module is its first component. -/
theorem pathRoot_intercalate {first : String} {rest : List String} (component : IsComponent first) :
    pathRoot ("::".intercalate (first :: rest)) = first := by
  have free : ':' ∉ first.toList := component.not_mem (by decide)
  have uncut : splitFirstPath? first.toList = none := by
    rw [splitFirstPath?_eq_none_iff]
    intro before after same
    exact free (same ▸ List.mem_append_right _ (List.mem_cons_self ..))
  cases rest with
  | nil => simp [pathRoot, uncut]
  | cons second rest =>
      have text : ("::".intercalate (first :: second :: rest)).toList =
          first.toList ++ ':' :: ':' :: ("::".intercalate (second :: rest)).toList := by
        simp
      rw [pathRoot, text, splitFirstPath?_append free]
      exact String.ofList_toList

theorem Origin.ofModule_eq (module : String) :
    Origin.ofModule module = .ofRoot (pathRoot module) := by
  simp [Origin.ofModule, Origin.ofRoot]

/-! ### Statements -/

/-- A `use` statement. -/
structure UseStatement where
  /-- The path of the module. -/
  module : String
  /-- The symbols, in the order in which they stand. -/
  symbols : List String
  /-- Whether the symbols stand in braces. -/
  braced : Bool
deriving DecidableEq

namespace UseStatement

/-- Read a `use` statement off a line. Its path is cut at the last `::`; what follows is a symbol,
or a list of symbols in braces. -/
def read? (line : String) : Option UseStatement := do
  let statement ← "use ".toList.isPrefixOf? line.toList
  let path ← Text.dropLast? ';' statement
  let (module, imported) ← splitLastPath? path
  match imported with
  | '{' :: list =>
    let inside ← Text.dropLast? '}' list
    some ⟨String.ofList module,
      (inside.splitOn ',').map fun item => String.ofList (Text.dropBlanks item), true⟩
  | symbol => some ⟨String.ofList module, [String.ofList symbol], false⟩

/-- The origin of the imported symbols, by what stands before the first colon of the module. -/
def origin (s : UseStatement) : Origin :=
  .ofRoot (String.ofList (s.module.toList.takeWhile (· ≠ ':')))

/-- The order of statements: by origin, then by module. -/
def Precedes (a b : UseStatement) : Prop :=
  a.origin.rank < b.origin.rank ∨ a.origin = b.origin ∧ a.module < b.module

/-- The statement for a group. -/
def ofGroup (group : ImportGroup) : UseStatement :=
  ⟨group.module, group.symbols, 1 < group.symbols.length⟩

end UseStatement

/-- A group whose module is made of components, and whose symbols are components. -/
structure ImportGroup.IsNamed (group : ImportGroup) : Prop where
  module : ∃ first rest, (∀ component ∈ first :: rest, IsComponent component) ∧
    group.module = "::".intercalate (first :: rest)
  symbols : ∀ symbol ∈ group.symbols, IsComponent symbol

namespace Imports

/-- The line of a statement. -/
def useLine (group : ImportGroup) : String :=
  match group.symbols with
  | [symbol] => "use " ++ group.module ++ "::" ++ symbol ++ ";"
  | symbols => "use " ++ group.module ++ "::\x7b" ++ ", ".intercalate symbols ++ "\x7d;"

theorem statement_eq (group : ImportGroup) : statement group = useLine group ++ "\n" := by
  rw [statement, useLine]
  rcases group.symbols with _ | ⟨symbol, _ | ⟨other, others⟩⟩ <;> simp [String.append_assoc]

theorem isLine_useLine {group : ImportGroup} (named : group.IsNamed) : IsLine (useLine group) := by
  obtain ⟨⟨first, rest, components, module⟩, symbols⟩ := named
  have free : '\n' ∉ group.module.toList := by
    rw [module]
    exact Text.not_mem_intercalate (by decide) fun text mem =>
      (components text mem).not_mem (by decide)
  unfold useLine
  split
  · next symbol single =>
      have one : '\n' ∉ symbol.toList :=
        (symbols symbol (single ▸ List.mem_singleton_self _)).not_mem (by decide)
      exact .append_left (by simp [free, one]) (by decide) (by decide)
  · have list : '\n' ∉ (", ".intercalate group.symbols).toList :=
      Text.not_mem_intercalate (by decide) fun text mem => (symbols text mem).not_mem (by decide)
    exact .append_left (by simp [-String.toList_intercalate, free, list]) (by decide) (by decide)

/-- Symbols that are written in braces are read one by one. -/
theorem splitOn_symbols {symbols : List String} (nonempty : symbols ≠ [])
    (each : ∀ symbol ∈ symbols, IsComponent symbol) :
    ((", ".intercalate symbols).toList.splitOn ',').map
      (fun item => String.ofList (Text.dropBlanks item)) = symbols := by
  induction symbols with
  | nil => exact absurd rfl nonempty
  | cons symbol symbols ih =>
      obtain ⟨first, others⟩ := List.forall_mem_cons.1 each
      have free : ',' ∉ symbol.toList := first.not_mem (by decide)
      have plain : String.ofList (Text.dropBlanks symbol.toList) = symbol := by
        rw [Text.dropBlanks_of_free fun c mem => first.isBlank_eq mem, String.ofList_toList]
      cases symbols with
      | nil => simp [List.splitOn_eq_singleton free, plain]
      | cons second symbols =>
          have text : (", ".intercalate (symbol :: second :: symbols)).toList =
              symbol.toList ++ ',' :: ' ' :: (", ".intercalate (second :: symbols)).toList := by
            simp
          have later := ih (List.cons_ne_nil _ _) others
          -- The blank after the comma belongs to the first of the remaining items.
          obtain ⟨item, items, rest⟩ := List.exists_cons_of_ne_nil
            (List.splitOn_ne_nil ',' (", ".intercalate (second :: symbols)).toList)
          have shifted : (' ' :: (", ".intercalate (second :: symbols)).toList).splitOn ',' =
              (' ' :: item) :: items := by
            rw [List.splitOn_cons_eq_if_modifyHead, if_neg (by decide), rest, List.modifyHead_cons]
          rw [rest] at later
          rw [text, List.splitOn_append_cons_self_of_not_mem free, shifted, List.map_cons,
            List.map_cons, plain, Text.dropBlanks_space, ← later, List.map_cons]

theorem read?_useLine {group : ImportGroup} (named : group.IsNamed) :
    UseStatement.read? (useLine group) = some (.ofGroup group) := by
  obtain ⟨module, symbols, nonempty, ascending⟩ := group
  have each : ∀ symbol ∈ symbols, IsComponent symbol := named.symbols
  have started : ∀ cs : List Char, "use ".toList.isPrefixOf? ("use ".toList ++ cs) = some cs := by
    intro cs
    rfl
  cases symbols with
  | nil => exact absurd rfl nonempty
  | cons symbol others =>
      cases others with
      | nil =>
          have component := each symbol (List.mem_cons_self ..)
          have chars : (useLine ⟨module, [symbol], nonempty, ascending⟩).toList =
              "use ".toList ++ ((module.toList ++ ':' :: ':' :: symbol.toList) ++ [';']) := by
            simp [useLine]
          -- The symbol is no list, because it does not start with a brace.
          have plain : ∀ list, symbol.toList ≠ '{' :: list := by
            intro list same
            exact component.not_mem (c := '{') (by decide) (by simp [same])
          simp only [UseStatement.read?, chars, started, Text.dropLast?_concat, Option.bind_eq_bind,
            Option.bind_some, splitLastPath?_append (component.not_mem (c := ':') (by decide))]
          simp [UseStatement.ofGroup]
      | cons second others =>
          have list :
              ':' ∉ ('{' :: ((", ".intercalate (symbol :: second :: others)).toList ++ ['}'])) := by
            intro mem
            simp only [List.mem_cons, List.mem_append, List.not_mem_nil, or_false] at mem
            rcases mem with here | inside | here
            · exact absurd here (by decide)
            · rcases Text.mem_of_mem_intercalate inside with between | ⟨text, listed, there⟩
              · exact absurd between (by decide)
              · exact (each text listed).not_mem (by decide) there
            · exact absurd here (by decide)
          have chars : (useLine ⟨module, symbol :: second :: others, nonempty, ascending⟩).toList =
              "use ".toList ++ ((module.toList ++ ':' :: ':' ::
                ('{' :: ((", ".intercalate (symbol :: second :: others)).toList ++ ['}']))) ++
                  [';']) := by
            simp [useLine]
          simp only [UseStatement.read?, chars, started, Text.dropLast?_concat, Option.bind_eq_bind,
            Option.bind_some, splitLastPath?_append list,
            splitOn_symbols (List.cons_ne_nil _ _) each]
          simp [UseStatement.ofGroup]

theorem useLine_ne_empty (group : ImportGroup) : useLine group ≠ "" := by
  unfold useLine
  split <;> simp

/-! ### The lines of the text -/

/-- The groups of an origin, in order. -/
def groupsOf (i : Imports) (origin : Origin) : List ImportGroup :=
  i.groups.filter fun group => Origin.ofModule group.module = origin

/-- The lines of the blocks that are not empty. -/
def lineBlocks (i : Imports) : List (List String) :=
  (Origin.all.map fun origin => (i.groupsOf origin).map useLine).filter (!·.isEmpty)

/-- The groups in the order of their statements. -/
def arranged (i : Imports) : List ImportGroup :=
  Origin.all.flatMap i.groupsOf

theorem block_eq (i : Imports) (origin : Origin) :
    i.block origin = ((i.groupsOf origin).map useLine).map (· ++ "\n") := by
  rw [block, groupsOf, List.map_map]
  exact List.map_congr_left fun group _ => statement_eq group

theorem mem_groupsOf {i : Imports} {origin : Origin} {group : ImportGroup} :
    group ∈ i.groupsOf origin ↔ group ∈ i.groups ∧ Origin.ofModule group.module = origin := by
  simp [groupsOf]

theorem mem_arranged {i : Imports} {group : ImportGroup} :
    group ∈ i.arranged ↔ group ∈ i.groups := by
  rw [arranged, List.mem_flatMap]
  constructor
  · intro listed
    obtain ⟨origin, -, mem⟩ := listed
    exact (mem_groupsOf.1 mem).1
  · intro mem
    refine ⟨Origin.ofModule group.module, ?_, mem_groupsOf.2 ⟨mem, rfl⟩⟩
    cases Origin.ofModule group.module <;> decide

theorem exists_group_of_mem_lineBlocks {i : Imports} {block : List String} {l : String}
    (isBlock : block ∈ i.lineBlocks) (mem : l ∈ block) : ∃ group ∈ i.groups, l = useLine group := by
  obtain ⟨origin, -, rfl⟩ := List.mem_map.1 (List.mem_filter.1 isBlock).1
  obtain ⟨group, listed, rfl⟩ := List.mem_map.1 mem
  exact ⟨group, (mem_groupsOf.1 listed).1, rfl⟩

/-- The text consists of the blocks, with a blank line between each two. -/
theorem onLines_toText {i : Imports} (named : ∀ group ∈ i.groups, group.IsNamed) :
    OnLines i.toText ([""].intercalate i.lineBlocks) := by
  have text : i.toText =
      "\n".intercalate (i.lineBlocks.map fun block => String.join (block.map (· ++ "\n"))) := by
    have blocks : Origin.all.map i.block =
        (Origin.all.map fun origin => (i.groupsOf origin).map useLine).map
          (fun block => block.map (· ++ "\n")) := by
      rw [List.map_map]
      exact List.map_congr_left fun origin _ => i.block_eq origin
    have empty : ((fun block : List String => !block.isEmpty) ∘
        fun block : List String => block.map (· ++ "\n")) = fun block => !block.isEmpty := by
      funext block
      simp
    rw [toText, blocks, List.filter_map, empty, List.map_map]
    rfl
  rw [text]
  refine OnLines.intercalate fun block isBlock l mem => ?_
  obtain ⟨group, listed, rfl⟩ := exists_group_of_mem_lineBlocks isBlock mem
  exact isLine_useLine (named group listed)

theorem flatten_lineBlocks (i : Imports) : i.lineBlocks.flatten = i.arranged.map useLine := by
  rw [lineBlocks, List.flatten_filter_not_isEmpty, arranged, List.map_flatMap, List.flatMap]

theorem empty_not_mem_lineBlocks {i : Imports} : ∀ block ∈ i.lineBlocks, "" ∉ block := by
  intro block isBlock mem
  obtain ⟨group, -, same⟩ := exists_group_of_mem_lineBlocks isBlock mem
  exact useLine_ne_empty group same.symm

theorem lineBlocks_nonempty {i : Imports} : ∀ block ∈ i.lineBlocks, block ≠ [] := by
  intro block isBlock
  simpa using (List.mem_filter.1 isBlock).2

/-! ### The order of the statements -/

theorem origin_ofGroup {group : ImportGroup} (named : group.IsNamed) :
    (UseStatement.ofGroup group).origin = Origin.ofModule group.module := by
  obtain ⟨first, rest, components, module⟩ := named.module
  have component := components first (List.mem_cons_self ..)
  have free : ∀ c ∈ first.toList, decide (c ≠ ':') = true := by
    intro c mem
    refine decide_eq_true ?_
    intro colon
    exact component.not_mem (c := ':') (by decide) (colon ▸ mem)
  rw [Origin.ofModule_eq, module, pathRoot_intercalate component, UseStatement.origin]
  show Origin.ofRoot (String.ofList (group.module.toList.takeWhile _)) = _
  rw [module]
  cases rest with
  | nil =>
      have all : first.toList.takeWhile (· ≠ ':') = first.toList := by
        rw [← List.append_nil first.toList, List.takeWhile_append_of_pos free, List.takeWhile_nil]
      rw [String.intercalate_singleton, all, String.ofList_toList]
  | cons second rest =>
      have text : ("::".intercalate (first :: second :: rest)).toList =
          first.toList ++ ':' :: ':' :: ("::".intercalate (second :: rest)).toList := by
        simp
      rw [text, List.takeWhile_append_of_pos free, List.takeWhile_cons_of_neg (by simp)]
      simp

theorem pairwise_arranged {i : Imports} (named : ∀ group ∈ i.groups, group.IsNamed) :
    (i.arranged.map UseStatement.ofGroup).Pairwise UseStatement.Precedes := by
  have modules := List.pairwise_map.1 i.ascending
  rw [List.pairwise_map, arranged, List.pairwise_flatMap]
  constructor
  · intro origin _
    refine (modules.filter _).imp_of_mem ?_
    intro a b memA memB less
    obtain ⟨listedA, originA⟩ := mem_groupsOf.1 memA
    obtain ⟨listedB, originB⟩ := mem_groupsOf.1 memB
    refine .inr ⟨?_, less⟩
    rw [origin_ofGroup (named a listedA), origin_ofGroup (named b listedB), originA, originB]
  · have ranks : Origin.all.Pairwise fun a b => a.rank < b.rank := by decide
    refine ranks.imp ?_
    intro o p less a memA b memB
    obtain ⟨listedA, originA⟩ := mem_groupsOf.1 memA
    obtain ⟨listedB, originB⟩ := mem_groupsOf.1 memB
    left
    rwa [origin_ofGroup (named a listedA), origin_ofGroup (named b listedB), originA, originB]

end Imports

theorem UseStatement.Precedes.module_ne {a b : UseStatement} (h : a.Precedes b) :
    a.module ≠ b.module := by
  intro same
  have origins : a.origin = b.origin := by rw [origin, origin, same]
  rcases h with less | ⟨-, less⟩
  · rw [origins] at less
    exact lt_irrefl _ less
  · rw [same] at less
    exact lt_irrefl _ less

/-! ### The layout -/

namespace Imports

/-- The origins that some paths come from, by their first components. -/
def usedOrigins (paths : List (List String)) : List Origin :=
  Origin.all.filter fun origin => paths.any fun components =>
    Origin.ofRoot (components.headD "") = origin

/-- How the lines of a text lay out the paths with the given components. -/
structure Layout (lines : List String) (paths : List (List String))
    (statements : List UseStatement) : Prop where
  /-- The lines that are not blank are statements. -/
  read : (lines.filter (· ≠ "")).map UseStatement.read? = statements.map some
  /-- There is one statement for a module. -/
  modules : (statements.map (·.module)).Nodup
  /-- They are ordered by origin, then by module. -/
  order : statements.Pairwise UseStatement.Precedes
  /-- The symbols of a statement are strictly ascending. -/
  symbols : ∀ s ∈ statements, s.symbols.Pairwise (· < ·)
  /-- Braces are used exactly for several symbols. -/
  braces : ∀ s ∈ statements, s.braced = true ↔ 1 < s.symbols.length
  /-- The statements import the paths, and nothing else. -/
  faithful : ∀ path : ImportPath,
    (∃ s ∈ statements, path.module = s.module ∧ path.symbol ∈ s.symbols) ↔
      ∃ components ∈ paths, path = .ofComponents components
  /-- There is one blank line less than there are origins. -/
  blanks : lines.count "" = (usedOrigins paths).length - 1
  /-- No blank line comes first or last. -/
  ends : lines.head? ≠ some "" ∧ lines.getLast? ≠ some ""

/-- The lines that are not blank are the statements of the groups. -/
theorem read_lines {i : Imports} (named : ∀ group ∈ i.groups, group.IsNamed) :
    ((Text.lines i.toText).filter (· ≠ "")).map UseStatement.read? =
      (i.arranged.map UseStatement.ofGroup).map some := by
  rw [(onLines_toText named).lines_eq, Text.filter_intercalate empty_not_mem_lineBlocks,
    flatten_lineBlocks, List.map_map, List.map_map]
  refine List.map_congr_left fun group mem => ?_
  exact read?_useLine (named group (mem_arranged.1 mem))

/-- The statements of the groups import what the groups hold. -/
theorem imported_iff {i : Imports} {path : ImportPath} :
    (∃ s ∈ i.arranged.map UseStatement.ofGroup,
      path.module = s.module ∧ path.symbol ∈ s.symbols) ↔ path ∈ i.paths := by
  rw [Imports.paths, List.mem_flatMap]
  constructor
  · intro there
    obtain ⟨s, mem, module, symbol⟩ := there
    obtain ⟨group, listed, rfl⟩ := List.mem_map.1 mem
    exact ⟨group, mem_arranged.1 listed, ImportGroup.mem_paths.2 ⟨module, symbol⟩⟩
  · intro there
    obtain ⟨group, listed, here⟩ := there
    exact ⟨_, List.mem_map_of_mem (mem_arranged.2 listed), ImportGroup.mem_paths.1 here⟩

theorem mem_paths_of_components {paths : List (List String)} {path : ImportPath} :
    path ∈ (empty.insertAll (paths.map .ofComponents)).paths ↔
      ∃ components ∈ paths, path = .ofComponents components := by
  rw [mem_paths_insertAll]
  simp [empty, Imports.paths, eq_comm]

section

variable {paths : List (List String)} (arePaths : ∀ components ∈ paths, IsPath components)

include arePaths

/-- What is collected from paths has named groups. -/
theorem isNamed_of_paths :
    ∀ group ∈ (empty.insertAll (paths.map .ofComponents)).groups, group.IsNamed := by
  intro group mem
  -- Every symbol of the group comes from a path with the group's module.
  have origin : ∀ symbol ∈ group.symbols, ∃ components ∈ paths,
      ImportPath.ofComponents components = ⟨group.module, symbol⟩ := by
    intro symbol there
    obtain ⟨components, listed, same⟩ :=
      mem_paths_of_components.1 ((mem_symbols_iff mem symbol).1 there)
    exact ⟨components, listed, same.symm⟩
  constructor
  · obtain ⟨symbol, there⟩ := List.exists_mem_of_ne_nil _ group.nonempty
    obtain ⟨components, listed, same⟩ := origin symbol there
    obtain ⟨parts, nonempty⟩ := (arePaths components listed).parts
    obtain ⟨first, rest, split⟩ := List.exists_cons_of_ne_nil nonempty
    refine ⟨first, rest, ?_, ?_⟩
    · intro component inside
      rw [← split] at inside
      exact (arePaths components listed).each component ((List.dropLast_sublist _).subset inside)
    · rw [← split]
      exact (congrArg ImportPath.module same).symm
  · intro symbol there
    obtain ⟨components, listed, same⟩ := origin symbol there
    obtain ⟨parts, -⟩ := (arePaths components listed).parts
    have last : components.getLast?.getD "" = symbol := congrArg ImportPath.symbol same
    refine (arePaths components listed).each symbol ?_
    rw [parts, ← last]
    simp

theorem ofModule_ofComponents {components : List String} (listed : components ∈ paths) :
    Origin.ofModule (ImportPath.ofComponents components).module =
      Origin.ofRoot (components.headD "") := by
  obtain ⟨parts, nonempty⟩ := (arePaths components listed).parts
  obtain ⟨first, rest, split⟩ := List.exists_cons_of_ne_nil nonempty
  have component : IsComponent first := by
    refine (arePaths components listed).each first ((List.dropLast_sublist _).subset ?_)
    rw [split]
    exact List.mem_cons_self ..
  have head : components.headD "" = first := by
    rw [parts, split]
    rfl
  rw [ImportPath.ofComponents, Origin.ofModule_eq, split, pathRoot_intercalate component, head]

/-- There are as many blocks as origins. -/
theorem length_lineBlocks :
    (empty.insertAll (paths.map .ofComponents)).lineBlocks.length = (usedOrigins paths).length := by
  rw [lineBlocks, List.filter_map, List.length_map, usedOrigins]
  congr 1
  refine List.filter_congr fun origin _ => ?_
  rw [Bool.eq_iff_iff, List.any_eq_true]
  simp only [Function.comp_apply, Bool.not_eq_true', List.isEmpty_eq_false_iff, ne_eq,
    List.map_eq_nil_iff, decide_eq_true_eq]
  constructor
  · intro used
    obtain ⟨group, mem⟩ := List.exists_mem_of_ne_nil _ used
    obtain ⟨listed, here⟩ := mem_groupsOf.1 mem
    obtain ⟨symbol, there⟩ := List.exists_mem_of_ne_nil _ group.nonempty
    obtain ⟨components, isPath, same⟩ :=
      mem_paths_of_components.1 ((mem_symbols_iff listed symbol).1 there)
    refine ⟨components, isPath, ?_⟩
    rw [← ofModule_ofComponents arePaths isPath, ← same, here]
  · intro some
    obtain ⟨components, isPath, here⟩ := some
    obtain ⟨group, listed, there⟩ :=
      List.mem_flatMap.1 (mem_paths_of_components.2 ⟨components, isPath, rfl⟩)
    refine List.ne_nil_of_mem (mem_groupsOf.2 ⟨listed, ?_⟩)
    rw [← (ImportGroup.mem_paths.1 there).1, ofModule_ofComponents arePaths isPath, here]

theorem foldlM_add_paths :
    (paths.map "::".intercalate).foldlM add empty =
      .ok (empty.insertAll (paths.map .ofComponents)) := by
  have readable : ∀ text ∈ paths.map "::".intercalate, (ImportPath.read? text).isSome = true := by
    intro text mem
    obtain ⟨components, listed, rfl⟩ := List.mem_map.1 mem
    rw [ImportPath.read?_intercalate (arePaths components listed)]
    rfl
  have read : (paths.map "::".intercalate).filterMap ImportPath.read? =
      paths.map ImportPath.ofComponents := by
    rw [List.filterMap_map, ← List.filterMap_eq_map]
    refine List.filterMap_congr fun components listed => ?_
    exact ImportPath.read?_intercalate (arePaths components listed)
  rw [foldlM_add readable empty, read]

/-- **Imports are laid out faithfully.** Paths of two or more components can be added in any order.
The text is then empty if there are none, and otherwise consists of lines that lay the paths out:
the lines that are not blank are `use` statements for different modules, ordered by origin and then
by module; the symbols of a statement ascend strictly, and stand in braces exactly if there are
several; read back, the statements give the added paths; and there is one blank line less than there
are origins, none of them at an end. -/
theorem text_lays_out_paths :
    ∃ i, (paths.map "::".intercalate).foldlM add empty = .ok i ∧
      OnLines i.toText (Text.lines i.toText) ∧
      (∃ statements, Layout (Text.lines i.toText) paths statements) ∧
      (paths = [] → i.toText = "") := by
  have named := isNamed_of_paths arePaths
  have onLines := onLines_toText named
  have lines := onLines.lines_eq
  have order := pairwise_arranged named
  refine ⟨_, foldlM_add_paths arePaths, ?_,
    ⟨(empty.insertAll (paths.map .ofComponents)).arranged.map UseStatement.ofGroup, ?_⟩, ?_⟩
  · rw [lines]
    exact onLines
  · constructor
    case read => exact read_lines named
    case modules => exact List.pairwise_map.2 (order.imp fun h => h.module_ne)
    case order => exact order
    case symbols =>
      intro s mem
      obtain ⟨group, -, rfl⟩ := List.mem_map.1 mem
      exact group.ascending
    case braces =>
      intro s mem
      obtain ⟨group, -, rfl⟩ := List.mem_map.1 mem
      exact decide_eq_true_iff
    case faithful =>
      intro path
      rw [imported_iff, mem_paths_of_components]
    case blanks =>
      rw [lines, Text.count_intercalate empty_not_mem_lineBlocks, length_lineBlocks arePaths]
    case ends =>
      rw [lines]
      exact ⟨Text.head?_intercalate empty_not_mem_lineBlocks lineBlocks_nonempty,
        Text.getLast?_intercalate empty_not_mem_lineBlocks lineBlocks_nonempty⟩
  · intro none
    subst none
    rfl

end

end Imports

namespace Sample

/-- Paths of all three origins, in no order. -/
def markedPaths : List (List String) :=
  [["uuid", "Uuid"], ["crate", "markers", "Request"], ["std", "collections", "BTreeMap"],
    ["serde", "Serialize"], ["crate", "markers", "ApiMessage"], ["serde", "Deserialize"]]

theorem markedPaths_laid_out :
    (∀ components ∈ markedPaths, IsPath components) ∧
      ∃ i, (markedPaths.map "::".intercalate).foldlM Imports.add .empty = .ok i ∧
        (∃ statements, Imports.Layout (Text.lines i.toText) markedPaths statements) ∧
        (Text.lines i.toText).count "" = 2 := by
  have long : ∀ components ∈ markedPaths, 2 ≤ components.length := by decide
  have each : ∀ components ∈ markedPaths, ∀ component ∈ components, IsComponent component := by
    decide
  have arePaths : ∀ components ∈ markedPaths, IsPath components :=
    fun components listed => ⟨long components listed, each components listed⟩
  have origins : (Imports.usedOrigins markedPaths).length = 3 := by decide
  obtain ⟨i, added, -, ⟨statements, layout⟩, -⟩ := Imports.text_lays_out_paths arePaths
  refine ⟨arePaths, i, added, ⟨statements, layout⟩, ?_⟩
  rw [layout.blanks, origins]

end Sample

end WireSchema

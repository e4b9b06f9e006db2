import Mathlib.Logic.Relation
import WireSchema.Proofs.Declarations
import WireSchema.Proofs.Promotion

/-!
# The order of declarations

A unit declares its structs in **blocks**. The first block is headed by the top-level struct and
each further one by a common struct, in the order in which these became common. The rest of a block
are the structs that its head reaches without passing through a common struct and that no earlier
head reaches so, in depth-first pre-order.

`Registry.follow` keeps one list of pending fields for all levels of the walk. What it lists is
compared here with the plain recursion (`Registry.PreOrder`): the fields of a struct are gone
through in order, and a struct met for the first time is followed by what its own fields lead to
before the next field is looked at. What is in a block is said by reachability alone
(`MessageSpec.Reaches`), without any walk.
-/

namespace WireSchema

/-! ### Pre-order -/

namespace Registry

/-- `PreOrder visited fields order`: the structs met first when `fields` are followed depth first
are `order`, if those in `visited` have been met and common structs are not entered. -/
inductive PreOrder (r : Registry) (v : Version) :
    List String → List FieldSpec → List String → Prop where
  /-- There is nothing to follow. -/
  | nil {visited : List String} : PreOrder r v visited [] []
  /-- A field without a struct is passed over. -/
  | plain {visited order : List String} {field : FieldSpec} {rest : List FieldSpec}
      (noTarget : field.type.structName? = none) (next : PreOrder r v visited rest order) :
      PreOrder r v visited (field :: rest) order
  /-- A struct that is common or has been met is passed over. -/
  | pass {visited order : List String} {field : FieldSpec} {rest : List FieldSpec} {name : String}
      (target_eq : field.type.structName? = some name)
      (passed : r.isCommon name = true ∨ name ∈ visited) (next : PreOrder r v visited rest order) :
      PreOrder r v visited (field :: rest) order
  /-- Any other struct comes next, then what its own fields lead to, then the rest. -/
  | visit {visited below order : List String} {field : FieldSpec} {rest : List FieldSpec}
      {name : String} {spec : StructSpec} (target_eq : field.type.structName? = some name)
      (defined : r.find? name = some spec) (notCommon : r.isCommon name = false)
      (fresh : name ∉ visited) (inner : PreOrder r v (visited ++ [name]) (spec.fieldsAt v) below)
      (next : PreOrder r v (visited ++ name :: below) rest order) :
      PreOrder r v visited (field :: rest) (name :: below ++ order)

namespace PreOrder

variable {r : Registry} {v : Version} {visited order : List String} {fields : List FieldSpec}

/-- Following two lists of fields is following one after the other. -/
theorem split {first second : List FieldSpec} (h : PreOrder r v visited (first ++ second) order) :
    ∃ before after, order = before ++ after ∧ PreOrder r v visited first before ∧
      PreOrder r v (visited ++ before) second after := by
  induction first generalizing visited order with
  | nil => exact ⟨[], order, rfl, .nil, by simpa using h⟩
  | cons field first ih =>
      rw [List.cons_append] at h
      cases h with
      | plain noTarget next =>
          obtain ⟨before, after, rfl, here, later⟩ := ih next
          exact ⟨before, after, rfl, .plain noTarget here, later⟩
      | pass target_eq passed next =>
          obtain ⟨before, after, rfl, here, later⟩ := ih next
          exact ⟨before, after, rfl, .pass target_eq passed here, later⟩
      | @visit _ below _ _ _ name spec target_eq defined notCommon fresh inner next =>
          obtain ⟨before, after, rfl, here, later⟩ := ih next
          refine ⟨name :: below ++ before, after, by simp,
            .visit target_eq defined notCommon fresh inner here, ?_⟩
          simpa using later

/-- There is one pre-order at most. -/
theorem unique {order' : List String} (h : PreOrder r v visited fields order)
    (h' : PreOrder r v visited fields order') : order = order' := by
  induction h generalizing order' with
  | nil =>
      cases h'
      rfl
  | plain noTarget _ ih =>
      cases h' with
      | plain _ next => exact ih next
      | pass target_eq => simp [noTarget] at target_eq
      | visit target_eq => simp [noTarget] at target_eq
  | pass target_eq passed _ ih =>
      cases h' with
      | plain noTarget => simp [noTarget] at target_eq
      | pass _ _ next => exact ih next
      | visit target_eq' _ notCommon fresh =>
          obtain rfl : _ = _ := Option.some.inj (target_eq.symm.trans target_eq')
          simp [notCommon, fresh] at passed
  | visit target_eq defined notCommon fresh _ _ ihInner ihNext =>
      cases h' with
      | plain noTarget => simp [noTarget] at target_eq
      | pass target_eq' passed =>
          obtain rfl : _ = _ := Option.some.inj (target_eq.symm.trans target_eq')
          simp [notCommon, fresh] at passed
      | visit target_eq' defined' _ _ inner next =>
          obtain rfl : _ = _ := Option.some.inj (target_eq.symm.trans target_eq')
          obtain rfl : _ = _ := Option.some.inj (defined.symm.trans defined')
          obtain rfl := ihInner inner
          rw [ihNext next]

/-- What is met was not met before, and is not common. -/
theorem fresh (h : PreOrder r v visited fields order) {name : String} (mem : name ∈ order) :
    name ∉ visited ∧ r.isCommon name = false := by
  induction h with
  | nil => simp at mem
  | plain _ _ ih => exact ih mem
  | pass _ _ _ ih => exact ih mem
  | visit _ _ notCommon new _ _ ihInner ihNext =>
      simp only [List.cons_append, List.mem_cons, List.mem_append] at mem
      obtain rfl | inside | later := mem
      · exact ⟨new, notCommon⟩
      · have := ihInner inside
        simp_all
      · have := ihNext later
        simp_all

end PreOrder

/-- A run of `follow` lists the names that the pending fields lead to in pre-order. -/
theorem Follows.preOrder {r : Registry} {v : Version} {flexible : Bool} {pending : List FieldSpec}
    {done out : List StructAt} (run : Follows r v flexible pending done out) :
    ∃ order, PreOrder r v (StructAt.names done) pending order ∧
      StructAt.names out = StructAt.names done ++ order := by
  induction run with
  | nil => exact ⟨[], .nil, by simp⟩
  | plain noTarget _ ih =>
      obtain ⟨order, pre, names⟩ := ih
      exact ⟨order, .plain noTarget pre, names⟩
  | skip found skipped _ ih =>
      obtain ⟨order, pre, names⟩ := ih
      exact ⟨order, .pass (findStruct_eq_ok.1 found).1 skipped pre, names⟩
  | @enter field rest done out spec found notCommon fresh _ ih =>
      obtain ⟨order, pre, names⟩ := ih
      have added : StructAt.names (done ++ [spec.atVersion v flexible false false]) =
          StructAt.names done ++ [spec.name] := by simp [StructAt.names, StructSpec.atVersion]
      rw [added] at pre names
      -- The fields of the struct stand in front of the rest, as two lists in one.
      obtain ⟨below, after, rfl, inner, later⟩ := pre.split
      obtain ⟨target_eq, defined⟩ := findStruct_eq_ok.1 found
      refine ⟨spec.name :: below ++ after, .visit target_eq defined notCommon fresh inner ?_, ?_⟩
      · simpa using later
      · simpa using names

end Registry

/-! ### Reachability -/

namespace MessageSpec

/-- A struct of a unit leads to another one that is not common, if it has a field at the version
that refers to it, directly or as element of an array. -/
def Leads (m : MessageSpec) (r : Registry) (v : Version) (source target : String) : Prop :=
  r.isCommon target = false ∧ ∃ spec, m.definition? r source = some spec ∧
    ∃ field ∈ spec.fieldsAt v, field.type.structName? = some target

/-- What a struct leads to in any number of steps, none of which is to a common struct. -/
def Reaches (m : MessageSpec) (r : Registry) (v : Version) : String → String → Prop :=
  Relation.ReflTransGen (m.Leads r v)

variable {m : MessageSpec} {r : Registry} {v : Version}

theorem Leads.of_field {source target : String} {spec : StructSpec} {field : FieldSpec}
    (defined : m.definition? r source = some spec) (mem : field ∈ spec.fieldsAt v)
    (target_eq : field.type.structName? = some target) (notCommon : r.isCommon target = false) :
    m.Leads r v source target :=
  ⟨notCommon, spec, defined, field, mem, target_eq⟩

/-- A list of names that leads nowhere else contains what its members reach. -/
theorem mem_of_reaches {names : List String} {source target : String}
    (closed : ∀ name ∈ names, ∀ next, m.Leads r v name next → next ∈ names)
    (mem : source ∈ names) (h : m.Reaches r v source target) : target ∈ names := by
  induction h with
  | refl => exact mem
  | tail _ step ih => exact closed _ ih _ step

section

variable {visited order : List String} {fields : List FieldSpec}

/-- What is met is reached from one of the fields that are followed. -/
theorem reaches_of_preOrder (top : m.struct.name ∈ visited)
    (h : r.PreOrder v visited fields order) {name : String} (mem : name ∈ order) :
    ∃ field ∈ fields, ∃ target, field.type.structName? = some target ∧
      r.isCommon target = false ∧ m.Reaches r v target name := by
  induction h with
  | nil => simp at mem
  | plain _ _ ih =>
      obtain ⟨field, listed, found⟩ := ih top mem
      exact ⟨field, List.mem_cons_of_mem _ listed, found⟩
  | pass _ _ _ ih =>
      obtain ⟨field, listed, found⟩ := ih top mem
      exact ⟨field, List.mem_cons_of_mem _ listed, found⟩
  | @visit visited below order field rest entered spec target_eq defined notCommon fresh _ _
      ihInner ihNext =>
      have stands := definition?_of_fresh top fresh defined
      simp only [List.cons_append, List.mem_cons, List.mem_append] at mem
      obtain rfl | inside | later := mem
      · exact ⟨field, List.mem_cons_self .., name, target_eq, notCommon, .refl⟩
      · obtain ⟨inner, listed, target, inner_eq, own, reached⟩ := ihInner (by simp [top]) inside
        have step := Leads.of_field stands listed inner_eq own
        exact ⟨field, List.mem_cons_self .., entered, target_eq, notCommon, .head step reached⟩
      · obtain ⟨other, listed, found⟩ := ihNext (by simp [top]) later
        exact ⟨other, List.mem_cons_of_mem _ listed, found⟩

/-- Every field that is followed has its target met or common, and so has every struct that is
met on the way. -/
theorem met_of_preOrder (top : m.struct.name ∈ visited) (h : r.PreOrder v visited fields order) :
    (∀ field ∈ fields, ∀ target, field.type.structName? = some target →
      r.isCommon target = false → target ∈ visited ++ order) ∧
    ∀ name ∈ order, ∀ target, m.Leads r v name target → target ∈ visited ++ order := by
  induction h with
  | nil => simp
  | plain noTarget _ ih =>
      obtain ⟨followed, closed⟩ := ih top
      refine ⟨?_, closed⟩
      intro field mem target target_eq own
      obtain rfl | mem := List.mem_cons.1 mem
      · simp [noTarget] at target_eq
      · exact followed field mem target target_eq own
  | pass target_eq passed _ ih =>
      obtain ⟨followed, closed⟩ := ih top
      refine ⟨?_, closed⟩
      intro field mem target target_eq' own
      obtain rfl | mem := List.mem_cons.1 mem
      · obtain rfl : _ = _ := Option.some.inj (target_eq.symm.trans target_eq')
        simp only [own, Bool.false_eq_true, false_or] at passed
        exact List.mem_append_left _ passed
      · exact followed field mem target target_eq' own
  | @visit visited below order field rest entered spec target_eq defined notCommon fresh _ _
      ihInner ihNext =>
      obtain ⟨innerFollowed, innerClosed⟩ := ihInner (by simp [top])
      obtain ⟨nextFollowed, nextClosed⟩ := ihNext (by simp [top])
      -- What the struct leads to is met before the rest of the fields is looked at.
      have early : ∀ target, target ∈ (visited ++ [entered]) ++ below →
          target ∈ visited ++ (entered :: below ++ order) := by
        intro target mem
        simp only [List.mem_append, List.mem_cons, List.not_mem_nil, or_false] at mem ⊢
        tauto
      have late : ∀ target, target ∈ (visited ++ entered :: below) ++ order →
          target ∈ visited ++ (entered :: below ++ order) := by
        intro target mem
        simpa using mem
      constructor
      · intro other mem target target_eq' own
        obtain rfl | mem := List.mem_cons.1 mem
        · obtain rfl : _ = _ := Option.some.inj (target_eq.symm.trans target_eq')
          simp
        · exact late target (nextFollowed other mem target target_eq' own)
      · intro name mem target leads
        simp only [List.cons_append, List.mem_cons, List.mem_append] at mem
        obtain rfl | inside | later := mem
        · obtain ⟨own, spec', stands, inner, listed, inner_eq⟩ := leads
          rw [definition?_of_fresh top fresh defined] at stands
          obtain rfl := Option.some.inj stands
          exact early target (innerFollowed inner listed target inner_eq own)
        · exact early target (innerClosed name inside target leads)
        · exact late target (nextClosed name later target leads)

end

/-! ### Blocks -/

/-- The blocks headed by common structs that follow the names in `before`. -/
inductive Blocks (m : MessageSpec) (r : Registry) (v : Version) :
    List String → List (StructSpec × List String) → Prop where
  | nil {before : List String} : Blocks m r v before []
  | cons {before block : List String} {head : StructSpec} {rest : List (StructSpec × List String)}
      (shared : head ∈ r.commonStructs) (fresh : head.name ∉ before)
      (order : r.PreOrder v (before ++ [head.name]) (head.fieldsAt v) block)
      (next : Blocks m r v (before ++ head.name :: block) rest) :
      Blocks m r v before ((head, block) :: rest)

/-- The names in some blocks, one block after the other. -/
def blockNames (blocks : List (StructSpec × List String)) : List String :=
  blocks.flatMap fun block => block.1.name :: block.2

/-- What a block consists of: if the names before it are those that the heads before it reach, the
block has what its own head reaches and none of those does. -/
theorem mem_block_iff {before heads block : List String} {head : StructSpec}
    (top : m.struct.name ∈ before ++ [head.name])
    (origin : ∀ name, name ∈ before ↔ ∃ h ∈ heads, m.Reaches r v h name)
    (stands : m.definition? r head.name = some head)
    (order : r.PreOrder v (before ++ [head.name]) (head.fieldsAt v) block) (name : String) :
    name ∈ block ↔ name ≠ head.name ∧ m.Reaches r v head.name name ∧
      ∀ h ∈ heads, ¬ m.Reaches r v h name := by
  constructor
  · intro mem
    obtain ⟨unmet, -⟩ := order.fresh mem
    obtain ⟨field, listed, target, target_eq, own, reached⟩ := reaches_of_preOrder top order mem
    simp only [List.mem_append, List.mem_singleton, not_or] at unmet
    refine ⟨unmet.2, .head (.of_field stands listed target_eq own) reached, ?_⟩
    intro h listed reached
    exact unmet.1 ((origin name).2 ⟨h, listed, reached⟩)
  · intro ⟨other, reached, unreached⟩
    obtain ⟨followed, closed⟩ := met_of_preOrder top order
    have inside : name ∈ (before ++ [head.name]) ++ block := by
      refine mem_of_reaches ?_ (by simp) reached
      intro source mem next leads
      simp only [List.mem_append, List.mem_singleton] at mem
      obtain (mem | rfl) | mem := mem
      · obtain ⟨h, listed, path⟩ := (origin source).1 mem
        have : next ∈ before := (origin next).2 ⟨h, listed, path.tail leads⟩
        simp [this]
      · obtain ⟨own, spec, stands', field, listed, target_eq⟩ := leads
        rw [stands] at stands'
        obtain rfl := Option.some.inj stands'
        exact followed field listed next target_eq own
      · exact closed source mem next leads
    simp only [List.mem_append, List.mem_singleton, other, or_false] at inside
    obtain earlier | here := inside
    · obtain ⟨h, listed, path⟩ := (origin name).1 earlier
      exact absurd path (unreached h listed)
    · exact here

/-- With a block, the names so far are again those that the heads so far reach. -/
theorem origin_append {before heads block : List String} {head : StructSpec}
    (top : m.struct.name ∈ before ++ [head.name])
    (origin : ∀ name, name ∈ before ↔ ∃ h ∈ heads, m.Reaches r v h name)
    (stands : m.definition? r head.name = some head)
    (order : r.PreOrder v (before ++ [head.name]) (head.fieldsAt v) block) (name : String) :
    name ∈ before ++ head.name :: block ↔ ∃ h ∈ heads ++ [head.name], m.Reaches r v h name := by
  have here := mem_block_iff top origin stands order name
  simp only [List.mem_append, List.mem_cons, List.not_mem_nil, or_false]
  constructor
  · intro mem
    obtain earlier | rfl | inside := mem
    · obtain ⟨h, listed, path⟩ := (origin name).1 earlier
      exact ⟨h, .inl listed, path⟩
    · exact ⟨head.name, .inr rfl, .refl⟩
    · exact ⟨head.name, .inr rfl, (here.1 inside).2.1⟩
  · intro ⟨h, listed, path⟩
    by_cases earlier : ∃ h ∈ heads, m.Reaches r v h name
    · exact .inl ((origin name).2 earlier)
    · obtain listed | rfl := listed
      · exact absurd ⟨h, listed, path⟩ earlier
      · by_cases same : name = head.name
        · exact .inr (.inl same)
        · refine .inr (.inr (here.2 ⟨same, path, ?_⟩))
          intro h listed path
          exact earlier ⟨h, listed, path⟩

/-- Each of several blocks consists of what its head reaches and no head before it does. -/
theorem Blocks.mem_iff {before heads : List String} {blocks : List (StructSpec × List String)}
    (h : Blocks m r v before blocks) (top : m.struct.name ∈ before)
    (origin : ∀ name, name ∈ before ↔ ∃ h ∈ heads, m.Reaches r v h name)
    {earlier later : List (StructSpec × List String)} {head : StructSpec} {block : List String}
    (split : blocks = earlier ++ (head, block) :: later) (name : String) :
    name ∈ block ↔ name ≠ head.name ∧ m.Reaches r v head.name name ∧
      (∀ h ∈ heads, ¬ m.Reaches r v h name) ∧
      ∀ b ∈ earlier, ¬ m.Reaches r v b.1.name name := by
  induction h generalizing heads earlier with
  | nil => simp at split
  | @cons before block' head' rest shared fresh order _ ih =>
      have stands := definition?_of_fresh top fresh (mem_commonStructs.1 shared).2
      have known : m.struct.name ∈ before ++ [head'.name] := List.mem_append_left _ top
      cases earlier with
      | nil =>
          obtain ⟨same, rfl⟩ := List.cons.inj split
          cases same
          simpa using mem_block_iff known origin stands order name
      | cons first earlier =>
          obtain ⟨rfl, rfl⟩ := List.cons.inj split
          rw [ih (by simp [top]) (origin_append known origin stands order) rfl]
          simp only [List.forall_mem_append, List.forall_mem_cons, List.not_mem_nil,
            false_implies, implies_true, and_true, and_assoc]

theorem Blocks.notCommon {before : List String} {blocks : List (StructSpec × List String)}
    (h : Blocks m r v before blocks) :
    ∀ block ∈ blocks, ∀ name ∈ block.2, r.isCommon name = false := by
  induction h with
  | nil => simp
  | cons _ _ order _ ih =>
      rw [List.forall_mem_cons]
      exact ⟨fun name mem => (order.fresh mem).2, ih⟩

/-- The loop over the common structs adds one block for each that is not declared yet. -/
theorem blocks_of_foldlM {flexible : Bool} {specs : List StructSpec} {done out : List StructAt}
    (shared : specs ⊆ r.commonStructs) (distinct : (specs.map (·.name)).Nodup)
    (run : specs.foldlM (r.addCommon v flexible) done = .ok out) :
    ∃ blocks, Blocks m r v (StructAt.names done) blocks ∧
      StructAt.names out = StructAt.names done ++ blockNames blocks ∧
      blocks.map (·.1) = specs.filter (fun spec => spec.name ∉ StructAt.names done) := by
  induction specs generalizing done with
  | nil =>
      cases run
      exact ⟨[], .nil, by simp [blockNames], rfl⟩
  | cons spec specs ih =>
      rw [List.foldlM_cons] at run
      obtain ⟨next, step, rest⟩ := Outcome.bind_eq_ok.1 run
      obtain ⟨mem, shared⟩ := List.cons_subset.1 shared
      rw [List.map_cons, List.nodup_cons] at distinct
      obtain ⟨blocks, laid, names, heads⟩ := ih shared distinct.2 rest
      unfold Registry.addCommon at step
      split at step
      · rename_i there
        cases step
        exact ⟨blocks, laid, names, by simpa [there] using heads⟩
      · rename_i fresh
        obtain ⟨order, pre, added⟩ := (Registry.follows_of_follow step).preOrder
        have entered : StructAt.names (done ++ [spec.atVersion v flexible false true]) =
            StructAt.names done ++ [spec.name] := by simp [StructAt.names, StructSpec.atVersion]
        rw [entered] at pre added
        rw [List.append_assoc, List.singleton_append] at added
        rw [added] at laid names heads
        refine ⟨(spec, order) :: blocks, .cons mem fresh pre laid, ?_, ?_⟩
        · simp [names, blockNames]
        · -- A later common struct is neither this one nor in its block, which has no common one.
          have same : ∀ other ∈ specs, (other.name ∉ StructAt.names done ++ spec.name :: order ↔
              other.name ∉ StructAt.names done) := by
            intro other listed
            have apart : other.name ≠ spec.name := by
              intro same
              exact distinct.1 (same ▸ List.mem_map_of_mem listed)
            have outside : other.name ∉ order := by
              intro inside
              have common := (mem_commonStructs.1 (shared listed)).1
              simp [(pre.fresh inside).2] at common
            simp [apart, outside]
          rw [List.map_cons, heads, List.filter_cons_of_pos (by simpa using fresh)]
          congr 1
          apply List.filter_congr
          intro other listed
          simpa using same other listed

/-! ### References come first -/

/-- Each struct of a list that is neither top-level nor common is referred to by a struct before
it. -/
def ReferredBefore (structs : List StructAt) : Prop :=
  ∀ before s after, structs = before ++ s :: after → s.isTopLevel = false → s.isCommon = false →
    ∃ p ∈ before, ∃ field ∈ p.fields, field.type.structName? = some s.name

theorem ReferredBefore.concat {done : List StructAt} {s : StructAt} (h : ReferredBefore done)
    (last : s.isTopLevel = false → s.isCommon = false →
      ∃ p ∈ done, ∃ field ∈ p.fields, field.type.structName? = some s.name) :
    ReferredBefore (done ++ [s]) := by
  intro before s' after split nested own
  obtain rfl | ⟨init, other, rfl⟩ := List.eq_nil_or_concat after
  · obtain ⟨rfl, same⟩ := List.append_inj' split rfl
    cases same
    exact last nested own
  · have split' : done ++ [s] = (before ++ s' :: init) ++ [other] := by simpa using split
    exact h before s' init (List.append_inj' split' rfl).1 nested own

/-- Whatever is pending stands in a struct that is declared, so what it leads to is referred to
before. -/
theorem ReferredBefore.follows {flexible : Bool} {pending : List FieldSpec}
    {done out : List StructAt} (run : Registry.Follows r v flexible pending done out)
    (h : ReferredBefore done)
    (held : ∀ field ∈ pending, ∃ p ∈ done, field.atVersion v ∈ p.fields) : ReferredBefore out := by
  induction run with
  | nil => exact h
  | plain _ _ ih => exact ih h fun field mem => held field (List.mem_cons_of_mem _ mem)
  | skip _ _ _ ih => exact ih h fun field mem => held field (List.mem_cons_of_mem _ mem)
  | @enter field rest done out spec found _ _ _ ih =>
      obtain ⟨target_eq, -⟩ := Registry.findStruct_eq_ok.1 found
      refine ih (h.concat ?_) ?_
      · intro _ _
        obtain ⟨p, mem, listed⟩ := held field (List.mem_cons_self ..)
        exact ⟨p, mem, _, listed, target_eq⟩
      · intro field' mem
        obtain own | later := List.mem_append.1 mem
        · refine ⟨_, List.mem_append_right _ (List.mem_singleton.2 rfl), ?_⟩
          exact List.mem_map_of_mem own
        · obtain ⟨p, mem, listed⟩ := held field' (List.mem_cons_of_mem _ later)
          exact ⟨p, List.mem_append_left _ mem, listed⟩

theorem referredBefore_of_structsAt {out : List StructAt} (run : m.structsAt r v = .ok out) :
    ReferredBefore out := by
  obtain ⟨own, first, others⟩ := Outcome.bind_eq_ok.1 run
  have head : ReferredBefore [m.struct.atVersion v (m.isFlexibleAt v) true false] := by
    have empty : ReferredBefore [] := by simp [ReferredBefore]
    exact empty.concat (by simp [StructSpec.atVersion])
  refine Outcome.foldlM_induction others ?_ ?_
  · refine head.follows (Registry.follows_of_follow first) ?_
    intro field mem
    exact ⟨_, List.mem_singleton.2 rfl, List.mem_map_of_mem mem⟩
  · intro spec _ done next h step
    unfold Registry.addCommon at step
    split at step
    · cases step
      exact h
    · refine (h.concat (by simp [StructSpec.atVersion])).follows
        (Registry.follows_of_follow step) ?_
      intro field mem
      exact ⟨_, List.mem_append_right _ (List.mem_singleton.2 rfl), List.mem_map_of_mem mem⟩

/-! ### The order of a unit -/

/-- A definition bears the name under which it was found. -/
theorem names_filterMap_sublist (names : List String) :
    ((names.filterMap r.find?).map (·.name)).Sublist names := by
  induction names with
  | nil => simp
  | cons name names ih =>
      cases found : r.find? name with
      | none =>
          rw [List.filterMap_cons_none found]
          exact ih.cons name
      | some spec =>
          rw [List.filterMap_cons_some found, List.map_cons, Registry.name_of_find? found]
          exact ih.cons_cons name

theorem commonStructs_names_nodup (reachable : r.Reachable) :
    (r.commonStructs.map (·.name)).Nodup := by
  have distinct : r.common.Nodup :=
    reachable.of_stable Registry.stable_common_nodup List.nodup_nil
  exact distinct.sublist (names_filterMap_sublist r.common)

/-- **The order of declarations.** The unit of a message at a version starts with the top-level
struct. After it come, block by block, the structs `own` and the common structs with what follows
each of them:

* the common structs stand in the order of the registry, less one that bears the name of the
  top-level struct, and no other struct is common;
* the first block is what the top-level struct reaches without passing through a common struct, in
  depth-first pre-order, and there is no other such order;
* behind a common struct stands what it reaches in that way and neither the top-level struct nor an
  earlier common struct does;
* a struct that is neither top-level nor common comes after one that has a field of its type. -/
theorem atVersion_emission_order {u : MessageAt} (reachable : r.Reachable)
    (run : m.atVersion r v = .ok u) :
    u.structs.head? = some (m.struct.atVersion v (m.isFlexibleAt v) true false) ∧
    (∃ own blocks,
      StructAt.names u.structs = m.struct.name :: own ++ blockNames blocks ∧
      blocks.map (·.1) = r.commonStructs.filter (fun c => c.name ≠ m.struct.name) ∧
      (∀ name ∈ own, r.isCommon name = false) ∧
      (∀ block ∈ blocks, ∀ name ∈ block.2, r.isCommon name = false) ∧
      (∀ name, name ∈ m.struct.name :: own ↔ m.Reaches r v m.struct.name name) ∧
      (∀ order, r.PreOrder v [m.struct.name] (m.struct.fieldsAt v) order ↔ order = own) ∧
      ∀ earlier c block later, blocks = earlier ++ (c, block) :: later →
        ∀ name, name ∈ block ↔ name ≠ c.name ∧ m.Reaches r v c.name name ∧
          ¬ m.Reaches r v m.struct.name name ∧
          ∀ b ∈ earlier, ¬ m.Reaches r v b.1.name name) ∧
    ∀ before s after, u.structs = before ++ s :: after → s.isTopLevel = false →
      s.isCommon = false →
      ∃ p ∈ before, ∃ field ∈ p.fields, field.type.structName? = some s.name := by
  obtain ⟨-, walked, -⟩ := atVersion_eq_ok.1 run
  obtain ⟨inv, -⟩ := declaring_of_structsAt walked
  obtain ⟨others, structs_eq, -⟩ := inv.shape
  refine ⟨by simp [structs_eq], ?_, referredBefore_of_structsAt walked⟩
  obtain ⟨done, first, rest⟩ := Outcome.bind_eq_ok.1 walked
  obtain ⟨own, pre, ownNames⟩ := (Registry.follows_of_follow first).preOrder
  have start : StructAt.names [m.struct.atVersion v (m.isFlexibleAt v) true false] =
      [m.struct.name] := rfl
  rw [start] at pre ownNames
  obtain ⟨blocks, laid, names, heads⟩ := blocks_of_foldlM (m := m) (List.Subset.refl _)
    (commonStructs_names_nodup reachable) rest
  rw [ownNames] at laid names heads
  -- The top-level struct heads a block too, before which there is nothing.
  have origin : ∀ name, name ∈ [] ++ m.struct.name :: own ↔
      ∃ h ∈ [] ++ [m.struct.name], m.Reaches r v h name :=
    origin_append (by simp) (by simp) (if_pos rfl) pre
  refine ⟨own, blocks, names, ?_, fun name mem => (pre.fresh mem).2, laid.notCommon, ?_, ?_, ?_⟩
  · rw [heads]
    apply List.filter_congr
    intro c listed
    have outside : c.name ∉ own := by
      intro inside
      have common := (mem_commonStructs.1 listed).1
      simp [(pre.fresh inside).2] at common
    simp [outside]
  · intro name
    simpa using origin name
  · intro order
    constructor
    · intro other
      exact other.unique pre
    · intro same
      rwa [same]
  · intro earlier c block later split name
    simpa using laid.mem_iff (by simp) origin split name

end MessageSpec

/-! ### A unit of three blocks -/

namespace Sample

/-- The struct of a field that has one field of its own, of the given type. -/
def holder (name field : String) (type : FieldType) (inner : Option StructSpec) : StructSpec :=
  ⟨name, ⟨0, 0⟩, [pairField field type inner]⟩

def grid : StructSpec := holder "Grid" "Width" (.int .int32) none

def sheet : StructSpec := holder "Sheet" "Scale" (.struct "Grid") (some grid)

def corner : StructSpec := holder "Corner" "Angle" (.int .int16) none

def border : StructSpec := holder "Border" "Corners" (.array (.struct "Corner")) (some corner)

def page : StructSpec := holder "Page" "Frame" (.struct "Border") none

/-- A message with a declared common struct, which refers to a struct of its own, and a struct that
is promoted because two fields refer to it. -/
def atlas : MessageSpec :=
  ofFields "Atlas"
    [pairField "Cover" (.struct "Sheet") (some sheet),
      pairField "Pages" (.array (.struct "Page")) (some page),
      pairField "Front" (.struct "Label") (some label),
      pairField "Back" (.struct "Label") none]
    [border]

def atlasRegistry : Registry where
  definitions := [border, corner, sheet, grid, page, label]
  firstSites :=
    [("Corner", ⟨"Atlas", "Border", "Corners"⟩), ("Sheet", ⟨"Atlas", "Atlas", "Cover"⟩),
      ("Grid", ⟨"Atlas", "Sheet", "Scale"⟩), ("Page", ⟨"Atlas", "Atlas", "Pages"⟩),
      ("Label", ⟨"Atlas", "Atlas", "Front"⟩)]
  visited :=
    [⟨"Atlas", "Atlas", "Back"⟩, ⟨"Atlas", "Atlas", "Front"⟩, ⟨"Atlas", "Page", "Frame"⟩,
      ⟨"Atlas", "Atlas", "Pages"⟩, ⟨"Atlas", "Sheet", "Scale"⟩, ⟨"Atlas", "Atlas", "Cover"⟩,
      ⟨"Atlas", "Border", "Corners"⟩]
  common := ["Border", "Label"]
  distinct := by decide

theorem reachable_atlas : atlasRegistry.Reachable :=
  .register .empty atlas

def atlasAtZero : MessageAt where
  name := "Atlas"
  role := .data
  version := 0
  structs := [atlas.struct.atVersion 0 false true false, sheet.atVersion 0 false false false,
    grid.atVersion 0 false false false, page.atVersion 0 false false false,
    border.atVersion 0 false false true, corner.atVersion 0 false false false,
    label.atVersion 0 false false true]

theorem atVersion_atlas : atlas.atVersion atlasRegistry 0 = .ok atlasAtZero := by
  cbv

theorem preOrder_atlas :
    atlasRegistry.PreOrder 0 ["Atlas"] (atlas.struct.fieldsAt 0) ["Sheet", "Grid", "Page"] := by
  have newSheet : "Sheet" ∉ ["Atlas"] := by decide
  have newGrid : "Grid" ∉ ["Atlas", "Sheet"] := by decide
  have newPage : "Page" ∉ ["Atlas", "Sheet", "Grid"] := by decide
  have width : atlasRegistry.PreOrder 0 ["Atlas", "Sheet", "Grid"] (grid.fieldsAt 0) [] :=
    .plain rfl .nil
  have frame : atlasRegistry.PreOrder 0 ["Atlas", "Sheet", "Grid", "Page"] (page.fieldsAt 0) [] :=
    .pass rfl (.inl rfl) .nil
  -- The cover leads to the sheet and on to its grid before the pages are looked at.
  have cover : atlasRegistry.PreOrder 0 ["Atlas", "Sheet"] (sheet.fieldsAt 0) ["Grid"] :=
    .visit rfl rfl rfl newGrid width .nil
  have pages : atlasRegistry.PreOrder 0 ["Atlas", "Sheet", "Grid"]
      ((atlas.struct.fieldsAt 0).drop 1) ["Page"] :=
    .visit rfl rfl rfl newPage frame (.pass rfl (.inl rfl) (.pass rfl (.inl rfl) .nil))
  exact .visit rfl rfl rfl newSheet cover pages

/-- The corner of the border comes after the border: nothing else leads to it. -/
theorem atlas_emission_order :
    atlas.atVersion atlasRegistry 0 = .ok atlasAtZero ∧
      (∀ name, name ∈ ["Atlas", "Sheet", "Grid", "Page"] ↔
        atlas.Reaches atlasRegistry 0 "Atlas" name) := by
  refine ⟨atVersion_atlas, ?_⟩
  obtain ⟨-, ⟨own, blocks, -, -, -, -, reached, order, -⟩, -⟩ :=
    MessageSpec.atVersion_emission_order reachable_atlas atVersion_atlas
  obtain rfl := (order _).1 preOrder_atlas
  exact reached

end Sample

end WireSchema

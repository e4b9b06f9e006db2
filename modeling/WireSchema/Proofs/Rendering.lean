import WireSchema.Backend.Rust
import WireSchema.Proofs.Outcome

/-!
# Which units can be rendered

A unit can be rendered if each of its structs can, and the Rust backend can render a struct if it
has a type for each of its fields. Nothing else of a struct decides about success: neither its place
in the unit nor what was imported before it.
-/

namespace WireSchema.Backend

section

variable {b : Backend} {m : MessageAt}

theorem declareAll_succeeds_iff (imports : Imports) {structs : List StructAt} :
    (∃ out, b.declareAll m imports structs = .ok out) ↔
      ∀ s ∈ structs, ∃ text, (b.declare m s).text = .ok text := by
  induction structs generalizing imports with
  | nil => exact ⟨fun _ _ mem => (nomatch mem), fun _ => ⟨_, rfl⟩⟩
  | cons s structs ih =>
      rw [List.forall_mem_cons, ← ih (imports.insertAll (b.declare m s).imports)]
      constructor
      · rintro ⟨out, run⟩
        obtain ⟨text, first, run⟩ := Outcome.bind_eq_ok.1 run
        obtain ⟨others, rest, -⟩ := Outcome.bind_eq_ok.1 run
        exact ⟨⟨text, first⟩, others, rest⟩
      · rintro ⟨⟨text, first⟩, others, rest⟩
        exact ⟨_, Outcome.bind_eq_ok.2 ⟨text, first, Outcome.bind_eq_ok.2 ⟨others, rest, rfl⟩⟩⟩

/-- Rendering structs adds what each of them needs, and gives the text of each. -/
theorem of_declareAll {imports out : Imports} {structs : List StructAt} {texts : List String}
    (run : b.declareAll m imports structs = .ok (out, texts)) :
    out = imports.insertAll (structs.flatMap fun s => (b.declare m s).imports) ∧
      List.Forall₂ (fun s text => (b.declare m s).text = .ok text) structs texts := by
  induction structs generalizing imports texts with
  | nil =>
      cases run
      exact ⟨rfl, .nil⟩
  | cons s structs ih =>
      obtain ⟨text, first, run⟩ := Outcome.bind_eq_ok.1 run
      obtain ⟨⟨out', texts'⟩, rest, done⟩ := Outcome.bind_eq_ok.1 run
      cases done
      obtain ⟨collected, rendered⟩ := ih rest
      refine ⟨collected.trans ?_, .cons first rendered⟩
      rw [List.flatMap_cons]
      exact List.foldl_append.symm

theorem unitText_succeeds_iff :
    (∃ text, b.unitText m = .ok text) ↔
      ∀ s ∈ m.structs, ∃ text, (b.declare m s).text = .ok text := by
  rw [← declareAll_succeeds_iff .empty]
  constructor
  · rintro ⟨text, run⟩
    obtain ⟨out, declared, -⟩ := Outcome.bind_eq_ok.1 run
    exact ⟨out, declared⟩
  · rintro ⟨out, declared⟩
    exact ⟨_, Outcome.bind_eq_ok.2 ⟨out, declared, rfl⟩⟩

theorem generate_eq_ok {message : MessageSpec} {r : Registry} {v : Version} {text : String} :
    b.generate message r v = .ok text ↔
      ∃ u, message.atVersion r v = .ok u ∧ b.unitText u = .ok text := by
  unfold generate
  cases message.atVersion r v <;> simp

end

namespace Rust

variable {m : MessageAt}

theorem fieldsDeclaration_succeeds_iff {fields : List FieldAt} :
    (∃ text, (fieldsDeclaration m fields).text = .ok text) ↔
      ∀ field ∈ fields, (typeOf? field.type).isSome = true := by
  induction fields with
  | nil => exact ⟨fun _ _ mem => (nomatch mem), fun _ => ⟨_, rfl⟩⟩
  | cons field fields ih =>
      rw [List.forall_mem_cons, ← ih, fieldsDeclaration]
      cases typeOf? field.type with
      | none => simp
      | some type =>
          cases rest : (fieldsDeclaration m fields).text <;> simp [rest, Except.map]

theorem structDeclaration_succeeds_iff {s : StructAt} :
    (∃ text, (structDeclaration m s).text = .ok text) ↔
      ∀ field ∈ s.fields, (typeOf? field.type).isSome = true := by
  rw [← fieldsDeclaration_succeeds_iff (m := m), structDeclaration]
  cases (fieldsDeclaration m s.fields).text <;> simp

/-- A unit can be rendered exactly if its structs can be listed and each field of them has a type.
-/
theorem generate_succeeds_iff {withTests : Bool} {message : MessageSpec} {r : Registry}
    {v : Version} :
    (∃ text, (rust withTests).generate message r v = .ok text) ↔
      ∃ u, message.atVersion r v = .ok u ∧
        ∀ s ∈ u.structs, ∀ field ∈ s.fields, (typeOf? field.type).isSome = true := by
  have renders : ∀ u, (∃ text, (rust withTests).unitText u = .ok text) ↔
      ∀ s ∈ u.structs, ∀ field ∈ s.fields, (typeOf? field.type).isSome = true := by
    intro u
    rw [unitText_succeeds_iff]
    exact forall₂_congr fun s _ => structDeclaration_succeeds_iff
  constructor
  · rintro ⟨text, run⟩
    obtain ⟨u, resolved, rendered⟩ := generate_eq_ok.1 run
    exact ⟨u, resolved, (renders u).1 ⟨text, rendered⟩⟩
  · rintro ⟨u, resolved, typed⟩
    obtain ⟨text, rendered⟩ := (renders u).2 typed
    exact ⟨text, generate_eq_ok.2 ⟨u, resolved, rendered⟩⟩

end Rust

end WireSchema.Backend

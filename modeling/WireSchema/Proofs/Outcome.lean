import Mathlib.Data.List.Forall2

/-!
# Computations that may fail

Loading, registration and materialization are sequences of steps in `Except`. A sequence succeeds
if each of its steps does, and an invariant of one step is an invariant of a successful loop.
-/

namespace WireSchema.Outcome

variable {ε α β : Type}

/-- A sequence succeeds if its first step does and the rest does from there. -/
theorem bind_eq_ok {x : Except ε α} {f : α → Except ε β} {b : β} :
    (x >>= f) = .ok b ↔ ∃ a, x = .ok a ∧ f a = .ok b := by
  cases x with
  | error e =>
      constructor
      · intro h
        cases h
      · rintro ⟨_, h, _⟩
        cases h
  | ok a =>
      constructor
      · intro h
        exact ⟨a, rfl, h⟩
      · rintro ⟨a', h, hf⟩
        cases h
        exact hf

/-- A sequence fails if its first step does, or if the rest does from there. -/
theorem bind_eq_error {x : Except ε α} {f : α → Except ε β} {e : ε} :
    (x >>= f) = .error e ↔ x = .error e ∨ ∃ a, x = .ok a ∧ f a = .error e := by
  cases x <;> simp [bind, Except.bind]

theorem map_eq_ok {x : Except ε α} {f : α → β} {b : β} :
    x.map f = .ok b ↔ ∃ a, x = .ok a ∧ f a = b := by
  cases x <;> simp [Except.map]

theorem map_eq_error {x : Except ε α} {f : α → β} {e : ε} :
    x.map f = .error e ↔ x = .error e := by
  cases x <;> simp [Except.map]

/-- The rest of a sequence matters only where its first step succeeds. -/
theorem bind_congr {x : Except ε α} {f g : α → Except ε β} (same : ∀ a, x = .ok a → f a = g a) :
    (x >>= f) = (x >>= g) := by
  cases x with
  | error e => rfl
  | ok a => exact same a rfl

/-- What each step of a loop preserves holds after a successful loop. -/
theorem foldlM_induction {motive : β → Prop} {step : β → α → Except ε β} {items : List α}
    {start stop : β} (run : items.foldlM step start = .ok stop) (init : motive start)
    (preserved : ∀ item ∈ items, ∀ b b', motive b → step b item = .ok b' → motive b') :
    motive stop := by
  induction items generalizing start with
  | nil =>
      cases run
      exact init
  | cons item items ih =>
      rw [List.foldlM_cons] at run
      obtain ⟨next, first, others⟩ := bind_eq_ok.1 run
      refine ih others (preserved item (List.mem_cons_self ..) start next init first) ?_
      intro later mem
      exact preserved later (List.mem_cons_of_mem _ mem)

/-- A loop fails at its first item whose step fails. -/
theorem foldlM_eq_error {step : β → α → Except ε β} {items : List α} {start : β} {e : ε}
    (run : items.foldlM step start = .error e) :
    ∃ before item after mid, items = before ++ item :: after ∧
      before.foldlM step start = .ok mid ∧ step mid item = .error e := by
  induction items generalizing start with
  | nil => cases run
  | cons item items ih =>
      rw [List.foldlM_cons] at run
      cases first : step start item with
      | error e' =>
          rw [first] at run
          cases run
          exact ⟨[], item, items, start, rfl, rfl, first⟩
      | ok next =>
          rw [first] at run
          obtain ⟨before, later, after, mid, rfl, others, failed⟩ := ih run
          refine ⟨item :: before, later, after, mid, rfl, ?_, failed⟩
          rw [List.foldlM_cons, first]
          exact others

/-- A loop whose steps all leave the start as it is ends there. -/
theorem foldlM_fixed {step : β → α → Except ε β} {items : List α} {start : β}
    (fixed : ∀ item ∈ items, step start item = .ok start) :
    items.foldlM step start = .ok start := by
  induction items with
  | nil => rfl
  | cons item items ih =>
      rw [List.foldlM_cons, fixed item (List.mem_cons_self ..)]
      exact ih fun later mem => fixed later (List.mem_cons_of_mem _ mem)

/-- A traversal succeeds if each of its items does, and then has their results in order. -/
theorem mapM_eq_ok {f : α → Except ε β} {items : List α} {results : List β} :
    items.mapM f = .ok results ↔ List.Forall₂ (fun a b => f a = .ok b) items results := by
  induction items generalizing results with
  | nil =>
      constructor
      · intro run
        cases run
        exact .nil
      · rintro ⟨⟩
        rfl
  | cons item items ih =>
      rw [List.mapM_cons, List.forall₂_cons_left_iff, bind_eq_ok]
      constructor
      · rintro ⟨first, hfirst, run⟩
        obtain ⟨others, hothers, same⟩ := bind_eq_ok.1 run
        cases same
        exact ⟨first, others, hfirst, ih.1 hothers, rfl⟩
      · rintro ⟨first, others, hfirst, hothers, rfl⟩
        exact ⟨first, hfirst, bind_eq_ok.2 ⟨others, ih.2 hothers, rfl⟩⟩

/-! ### Lists side by side -/

section

variable {R : α → β → Prop} {as : List α} {bs : List β}

/-- At each position both lists have an item, and these are related, or neither has one. -/
theorem rel_getElem? (related : List.Forall₂ R as bs) (i : Nat) : Option.Rel R as[i]? bs[i]? := by
  induction related generalizing i with
  | nil => exact .none
  | cons first _ ih =>
      cases i with
      | zero => exact .some first
      | succ i => exact ih i

theorem exists_of_mem_right (related : List.Forall₂ R as bs) {b : β} (mem : b ∈ bs) :
    ∃ a ∈ as, R a b := by
  induction related with
  | nil => cases mem
  | @cons a _ as _ first _ ih =>
      rcases List.mem_cons.1 mem with rfl | mem
      · exact ⟨a, List.mem_cons_self .., first⟩
      · obtain ⟨a', listed, h⟩ := ih mem
        exact ⟨a', List.mem_cons_of_mem _ listed, h⟩

theorem exists_of_mem_left (related : List.Forall₂ R as bs) {a : α} (mem : a ∈ as) :
    ∃ b ∈ bs, R a b :=
  exists_of_mem_right (List.Forall₂.flip (R := flip R) related) mem

/-- What stands before and after an item is related to what stands before and after its partner. -/
theorem exists_split {a : α} {before after : List α}
    (related : List.Forall₂ R (before ++ a :: after) bs) :
    ∃ before' b after', bs = before' ++ b :: after' ∧ R a b ∧ List.Forall₂ R after after' := by
  induction before generalizing bs with
  | nil =>
      cases related with
      | cons first others => exact ⟨[], _, _, rfl, first, others⟩
  | cons _ before ih =>
      cases related with
      | cons first others =>
          obtain ⟨before', b, after', rfl, here, later⟩ := ih others
          exact ⟨_ :: before', b, after', rfl, here, later⟩

/-- Items that are related to the same things are so as a list. -/
theorem forall₂_congr_left {as' : List α}
    (same : List.Forall₂ (fun a a' => ∀ b, R a b ↔ R a' b) as as') :
    List.Forall₂ R as bs ↔ List.Forall₂ R as' bs := by
  induction same generalizing bs with
  | nil => exact Iff.rfl
  | cons first _ ih =>
      cases bs with
      | nil => exact ⟨nofun, nofun⟩
      | cons b bs => simp only [List.forall₂_cons, first, ih]

/-- Items that are each related to something form a list that is related as a whole. -/
theorem exists_forall₂ (each : ∀ a ∈ as, ∃ b, R a b) : ∃ bs, List.Forall₂ R as bs := by
  induction as with
  | nil => exact ⟨[], .nil⟩
  | cons a as ih =>
      obtain ⟨b, first⟩ := each a (List.mem_cons_self ..)
      obtain ⟨bs, others⟩ := ih fun a' mem => each a' (List.mem_cons_of_mem _ mem)
      exact ⟨b :: bs, .cons first others⟩

end

end WireSchema.Outcome

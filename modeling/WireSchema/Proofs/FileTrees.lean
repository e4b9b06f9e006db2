import Mathlib.Data.List.Nodup
import WireSchema.Files.Tree
import WireSchema.Proofs.Lines
import WireSchema.Proofs.Outcome

/-!
# File trees as maps

A tree maps places to entries. An operation is given a *path*, which is a text, and finds its place
by going through the directories on the way. Here the paths are done away with: the children of a
directory are the places one name below it (`place_child`), whatever the path of the directory looks
like, and an operation that succeeds amounts to a **write** at a place (`Writes`).

Writes never put a file where a directory is. So directories stay, paths that lead somewhere keep
leading there (`HasDirectory.mono`), and a list of writes to different places can be read off the
tree at the end (`Writes.entry?_of_mem`, `Writes.entry?_of_not_mem`).
-/

namespace WireSchema

/-! ### Paths -/

namespace Path

/-- The names that lead from a directory to something directly inside it. -/
structure Proper (name : String) : Prop where
  nonempty : name ≠ ""
  noSlash : '/' ∉ name.toList
  notDot : name ≠ "."
  notDots : name ≠ ".."

instance (name : String) : Decidable (Proper name) :=
  decidable_of_iff (name ≠ "" ∧ '/' ∉ name.toList ∧ name ≠ "." ∧ name ≠ "..")
    ⟨fun h => ⟨h.1, h.2.1, h.2.2.1, h.2.2.2⟩, fun h => ⟨h.1, h.2, h.3, h.4⟩⟩

variable {dir : Path} {name : String}

theorem Proper.relative (proper : Proper name) : name.toList.head? ≠ some '/' :=
  fun h => proper.noSlash (List.mem_of_mem_head? h)

theorem Proper.toList_ne_dot (proper : Proper name) : name.toList ≠ ['.'] :=
  fun h => proper.notDot (String.toList_injective h)

theorem Proper.toList_ne_nil (proper : Proper name) : name.toList ≠ [] := by
  simpa using proper.nonempty

theorem pieces_child (proper : Proper name) :
    (dir.child name).pieces = dir.pieces ++ [name.toList] := by
  have nonempty := proper.toList_ne_nil
  have single : name.toList.splitOn '/' = [name.toList] :=
    List.splitOn_eq_singleton proper.noSlash
  have behind : ∀ cs : List Char, ((cs ++ '/' :: name.toList).splitOn '/').filter (· ≠ []) =
      (cs.splitOn '/').filter (· ≠ []) ++ [name.toList] := by
    intro cs
    simp [List.splitOn_append_cons_self, single, nonempty]
  rw [child, if_neg proper.relative]
  split
  · rename_i direct
    rcases direct with empty | slash
    · simp [pieces, empty, single, nonempty]
    · obtain ⟨front, ends⟩ := List.getLast?_eq_some_iff.1 slash
      have whole : (dir.text ++ name).toList = front ++ '/' :: name.toList := by
        simp [ends]
      have before : (dir.text.toList.splitOn '/').filter (· ≠ []) =
          (front.splitOn '/').filter (· ≠ []) := by
        simp [ends, List.splitOn_append_cons_self]
      rw [pieces, pieces, whole, behind, before]
  · have whole : (dir.text ++ "/" ++ name).toList = dir.text.toList ++ '/' :: name.toList := by
      simp
    rw [pieces, pieces, whole, behind]

theorem components_child (proper : Proper name) :
    (dir.child name).components = dir.components ++ [name] := by
  simp [components, pieces_child proper, proper.toList_ne_dot]

theorem endsInDot_child (proper : Proper name) : (dir.child name).endsInDot = false := by
  simp [endsInDot, pieces_child proper, proper.toList_ne_dot]

theorem namesDirectory_child (proper : Proper name) : (dir.child name).namesDirectory = false := by
  have behind : ∃ front, (dir.child name).text = front ++ name := by
    rw [child, if_neg proper.relative]
    split
    · exact ⟨_, rfl⟩
    · exact ⟨_, rfl⟩
  have last : name.toList.getLast? ≠ some '/' :=
    fun h => proper.noSlash (List.mem_of_getLast? h)
  obtain ⟨front, text⟩ := behind
  have ending : (front ++ name).toList.getLast? = name.toList.getLast? := by
    rw [String.toList_append, List.getLast?_append_of_ne_nil _ proper.toList_ne_nil]
  rw [namesDirectory, endsInDot_child proper, text, ending]
  simp [last]

/-- The place that a path leads to. -/
def place (path : Path) : List String :=
  path.components.foldl FileTree.step []

theorem place_child (proper : Proper name) : (dir.child name).place = dir.place ++ [name] := by
  simp [place, components_child proper, FileTree.step, proper.notDots]

end Path

namespace FileTree

variable {t t' : FileTree}

/-! ### Entries -/

theorem lookup_insertEntry_self (place : List String) (entry : Entry)
    (entries : List (List String × Entry)) :
    (insertEntry place entry entries).lookup place = some entry := by
  induction entries with
  | nil => simp [insertEntry]
  | cons first entries ih =>
      obtain ⟨p, e⟩ := first
      by_cases here : p = place
      · simp [insertEntry, here]
      · simp [insertEntry, here, List.lookup_cons, beq_false_of_ne (Ne.symm here), ih]

theorem lookup_insertEntry_of_ne {place other : List String} (differ : other ≠ place)
    (entry : Entry) (entries : List (List String × Entry)) :
    (insertEntry place entry entries).lookup other = entries.lookup other := by
  induction entries with
  | nil => simp [insertEntry, List.lookup_cons, beq_false_of_ne differ]
  | cons first entries ih =>
      obtain ⟨p, e⟩ := first
      by_cases here : p = place
      · simp [insertEntry, here, List.lookup_cons, beq_false_of_ne differ]
      · simp [insertEntry, here, List.lookup_cons, ih]

theorem insertEntry_of_lookup {place : List String} {entry : Entry}
    {entries : List (List String × Entry)} (there : entries.lookup place = some entry) :
    insertEntry place entry entries = entries := by
  induction entries with
  | nil => cases there
  | cons first entries ih =>
      obtain ⟨p, e⟩ := first
      by_cases here : p = place
      · subst here
        simp only [List.lookup_cons, beq_self_eq_true, Option.some.injEq] at there
        simp [insertEntry, there]
      · simp only [List.lookup_cons, beq_false_of_ne (Ne.symm here)] at there
        simp [insertEntry, here, ih there]

@[simp]
theorem entry?_nil (t : FileTree) : t.entry? [] = some .directory := rfl

theorem entry?_insert_self {place : List String} (below : place ≠ []) (entry : Entry) :
    FileTree.entry? (t.insert place entry) place = some entry := by
  unfold entry?
  rw [if_neg below]
  exact lookup_insertEntry_self place entry t.entries

theorem entry?_insert_of_ne {place other : List String} (differ : other ≠ place) (entry : Entry) :
    FileTree.entry? (t.insert place entry) other = t.entry? other := by
  unfold entry?
  split
  · rfl
  · exact lookup_insertEntry_of_ne differ entry t.entries

theorem directory_of_insert_text {place other : List String} {content : String}
    (below : place ≠ [])
    (h : FileTree.entry? (t.insert place (.text content)) other = some .directory) :
    t.entry? other = some .directory := by
  by_cases here : other = place
  · rw [here, entry?_insert_self below] at h
    cases h
  · rwa [entry?_insert_of_ne here] at h

theorem insert_of_held {place : List String} {entry : Entry} (below : place ≠ [])
    (there : t.entry? place = some entry) : t.insert place entry = t := by
  unfold entry? at there
  rw [if_neg below] at there
  rw [insert, insertEntry_of_lookup there]

theorem entry?_ne_none_of_mem {place : List String} {entry : Entry}
    (held : (place, entry) ∈ t.entries) : t.entry? place ≠ none := by
  unfold entry?
  split
  · simp
  · intro nothing
    have differ := List.lookup_eq_none_iff.1 nothing _ held
    simp at differ

/-! ### Directories on the way -/

/-- From a place, components lead through directories only, the last one included. -/
def Open (t : FileTree) (here : List String) : List String → Prop
  | [] => True
  | component :: components =>
    Text.utf8Length component.toList ≤ nameLimit ∧
      t.entry? (step here component) = some .directory ∧
      t.Open (step here component) components

/-- Every directory of a tree is one of another tree. -/
def KeepsDirectories (t t' : FileTree) : Prop :=
  ∀ place, t.entry? place = some .directory → t'.entry? place = some .directory

theorem KeepsDirectories.refl (t : FileTree) : t.KeepsDirectories t :=
  fun _ directory => directory

theorem Open.mono (kept : t.KeepsDirectories t') {here components : List String}
    (h : t.Open here components) : t'.Open here components := by
  induction components generalizing here with
  | nil => trivial
  | cons component components ih =>
      obtain ⟨short, directory, rest⟩ := h
      exact ⟨short, kept _ directory, ih rest⟩

theorem open_concat {here components : List String} {component : String} :
    t.Open here (components ++ [component]) ↔
      t.Open here components ∧ Text.utf8Length component.toList ≤ nameLimit ∧
        t.entry? ((components ++ [component]).foldl step here) = some .directory := by
  induction components generalizing here with
  | nil => simp [Open]
  | cons first components ih => simp [Open, ih, and_assoc]

theorem locateFrom_cons {here components : List String} {component : String}
    (more : components ≠ []) (short : Text.utf8Length component.toList ≤ nameLimit)
    (directory : t.entry? (step here component) = some .directory) :
    t.locateFrom here (component :: components) =
      t.locateFrom (step here component) components := by
  cases components with
  | nil => exact absurd rfl more
  | cons second components => rw [locateFrom, if_neg (Nat.not_lt.2 short), directory]

theorem open_of_locateFrom_cons {here components place : List String} {component : String}
    (more : components ≠ []) (h : t.locateFrom here (component :: components) = .ok place) :
    Text.utf8Length component.toList ≤ nameLimit ∧
      t.entry? (step here component) = some .directory ∧
      t.locateFrom (step here component) components = .ok place := by
  cases components with
  | nil => exact absurd rfl more
  | cons second components =>
      rw [locateFrom] at h
      split at h
      · cases h
      · rename_i short
        split at h
        · rename_i directory
          exact ⟨Nat.not_lt.1 short, directory, h⟩
        · cases h
        · cases h

/-- Through directories the last component leads to its place. -/
theorem locateFrom_concat {here components : List String} (component : String)
    (h : t.Open here components) :
    t.locateFrom here (components ++ [component]) =
      if nameLimit < Text.utf8Length component.toList then .error .nameTooLong
      else .ok (step (components.foldl step here) component) := by
  induction components generalizing here with
  | nil => simp [locateFrom]
  | cons first components ih =>
      obtain ⟨short, directory, rest⟩ := h
      rw [List.cons_append, locateFrom_cons (by simp) short directory]
      exact ih rest

/-- Components that lead anywhere lead through directories. -/
theorem open_of_locateFrom {here components place : List String} {component : String}
    (h : t.locateFrom here (components ++ [component]) = .ok place) :
    t.Open here components ∧ Text.utf8Length component.toList ≤ nameLimit := by
  induction components generalizing here with
  | nil =>
      have entered : t.Open here [] := trivial
      rw [locateFrom_concat component entered] at h
      split at h
      · cases h
      · rename_i short
        exact ⟨entered, Nat.not_lt.1 short⟩
  | cons first components ih =>
      obtain ⟨short, directory, h⟩ := open_of_locateFrom_cons (by simp) h
      obtain ⟨rest, last⟩ := ih h
      exact ⟨⟨short, directory, rest⟩, last⟩

/-! ### Directories by their paths -/

/-- A path leads to a directory, through directories. -/
structure HasDirectory (t : FileTree) (dir : Path) : Prop where
  clean : dir.components.any (·.toList.contains '\x00') = false
  entered : t.Open [] dir.components

theorem HasDirectory.mono {dir : Path} (kept : t.KeepsDirectories t') (h : t.HasDirectory dir) :
    t'.HasDirectory dir :=
  ⟨h.clean, h.entered.mono kept⟩

/-- A path leads to its place, if it leads anywhere. -/
theorem place_of_locate {path : Path} {place : List String}
    (h : t.locate path.components = .ok place) : place = path.place := by
  unfold locate at h
  split at h
  · cases h
  · unfold Path.place
    rcases List.eq_nil_or_concat' path.components with none | ⟨front, last, split⟩
    · rw [none, locateFrom] at h
      cases h
      rw [none]
      rfl
    · rw [split] at h ⊢
      rw [locateFrom_concat last (open_of_locateFrom h).1] at h
      split at h
      · cases h
      · cases h
        simp

theorem place_of_locate_child {dir : Path} {name : String} {place : List String}
    (proper : Path.Proper name) (h : t.locate (dir.child name).components = .ok place) :
    place = dir.place ++ [name] := by
  rw [place_of_locate h, Path.place_child proper]

/-- A path that leads somewhere leads to the directory that stands there then. -/
theorem hasDirectory_of_locate {path : Path} {place : List String}
    (located : t.locate path.components = .ok place) (kept : t.KeepsDirectories t')
    (directory : t'.entry? place = some .directory) : t'.HasDirectory path := by
  have there : place = path.place := place_of_locate located
  unfold locate at located
  split at located
  · cases located
  · rename_i clean
    refine ⟨by simpa using clean, ?_⟩
    rw [there, Path.place] at directory
    rcases List.eq_nil_or_concat' path.components with none | ⟨front, last, split⟩
    · rw [none]
      trivial
    · rw [split] at located directory ⊢
      obtain ⟨entered, short⟩ := open_of_locateFrom located
      exact open_concat.2 ⟨entered.mono kept, short, directory⟩

/-- A path to a directory leads there. -/
theorem HasDirectory.locate_self {path : Path} (h : t.HasDirectory path) :
    t.locate path.components = .ok path.place ∧ t.entry? path.place = some .directory := by
  obtain ⟨clean, entered⟩ := h
  rw [locate, clean, Path.place]
  rcases List.eq_nil_or_concat' path.components with none | ⟨front, last, split⟩
  · rw [none]
    exact ⟨by simp [locateFrom], rfl⟩
  · rw [split] at entered ⊢
    obtain ⟨entered, short, directory⟩ := open_concat.1 entered
    refine ⟨?_, directory⟩
    rw [locateFrom_concat last entered, if_neg (Nat.not_lt.2 short)]
    simp

/-- In a directory a name leads to its place, whatever stands there. -/
theorem HasDirectory.locate_child {dir : Path} {name : String} (h : t.HasDirectory dir)
    (proper : Path.Proper name) :
    t.locate (dir.child name).components =
      if name.toList.contains '\x00' then .error .badName
      else if nameLimit < Text.utf8Length name.toList then .error .nameTooLong
      else .ok (dir.place ++ [name]) := by
  rw [Path.components_child proper, locate, List.any_append, h.clean,
    locateFrom_concat name h.entered]
  simp [step, proper.notDots, Path.place]

/-- The names that something in a directory can be given. -/
structure Usable (name : String) : Prop where
  proper : Path.Proper name
  clean : name.toList.contains '\x00' = false
  short : Text.utf8Length name.toList ≤ nameLimit

instance (name : String) : Decidable (Usable name) :=
  decidable_of_iff (Path.Proper name ∧ name.toList.contains '\x00' = false ∧
      Text.utf8Length name.toList ≤ nameLimit)
    ⟨fun h => ⟨h.1, h.2.1, h.2.2⟩, fun h => ⟨h.1, h.2, h.3⟩⟩

theorem HasDirectory.locate_usable {dir : Path} {name : String} (h : t.HasDirectory dir)
    (usable : Usable name) : t.locate (dir.child name).components = .ok (dir.place ++ [name]) := by
  rw [h.locate_child usable.proper, usable.clean, if_neg (Nat.not_lt.2 usable.short)]
  simp

/-! ### Writes -/

/-- One tree is another one after some entries were put at places, one by one, and no directory was
replaced by a file. -/
inductive Writes : FileTree → List (List String × Entry) → FileTree → Prop where
  | nil (t : FileTree) : Writes t [] t
  | cons {t t' : FileTree} {place : List String} {entry : Entry}
      {others : List (List String × Entry)} (below : place ≠ [])
      (kept : t.entry? place = some .directory → entry = .directory)
      (rest : Writes (t.insert place entry) others t') : Writes t ((place, entry) :: others) t'

/-- A write below a place, given by what leads from the place to it. -/
def under (place : List String) (w : List String × Entry) : List String × Entry :=
  (place ++ w.1, w.2)

theorem map_under_map_under (place place' : List String) (ws : List (List String × Entry)) :
    (ws.map (under place')).map (under place) = ws.map (under (place ++ place')) := by
  simp [under]

theorem mem_map_under {place place' : List String} {entry : Entry}
    {ws : List (List String × Entry)} :
    (place ++ place', entry) ∈ ws.map (under place) ↔ (place', entry) ∈ ws := by
  simp [under]

theorem map_fst_map_under (place : List String) (ws : List (List String × Entry)) :
    (ws.map (under place)).map (·.1) = (ws.map (·.1)).map (place ++ ·) := by
  simp [under]

section

variable {ws : List (List String × Entry)} {place : List String} {entry : Entry}

theorem Writes.single (below : place ≠ [])
    (kept : t.entry? place = some .directory → entry = .directory) :
    Writes t [(place, entry)] (t.insert place entry) :=
  .cons below kept (.nil _)

theorem Writes.append {t'' : FileTree} {ws' : List (List String × Entry)} (first : Writes t ws t')
    (second : Writes t' ws' t'') : Writes t (ws ++ ws') t'' := by
  induction first with
  | nil => exact second
  | cons below kept _ ih => exact .cons below kept (ih second)

theorem Writes.keepsDirectories (h : Writes t ws t') : t.KeepsDirectories t' := by
  induction h with
  | nil t => exact .refl t
  | @cons t _ place entry _ below kept _ ih =>
      intro other directory
      refine ih other ?_
      by_cases here : other = place
      · subst here
        rw [entry?_insert_self below, kept directory]
      · rw [entry?_insert_of_ne here, directory]

theorem Writes.entry?_of_not_mem (h : Writes t ws t') (elsewhere : place ∉ ws.map (·.1)) :
    t'.entry? place = t.entry? place := by
  induction h with
  | nil => rfl
  | cons _ _ _ ih =>
      simp only [List.map_cons, List.mem_cons, not_or] at elsewhere
      rw [ih elsewhere.2, entry?_insert_of_ne elsewhere.1]

theorem Writes.entry?_of_mem (h : Writes t ws t') (distinct : (ws.map (·.1)).Nodup)
    (listed : (place, entry) ∈ ws) : t'.entry? place = some entry := by
  induction h with
  | nil => cases listed
  | cons below _ rest ih =>
      obtain ⟨fresh, distinct⟩ := List.nodup_cons.1 distinct
      rcases List.mem_cons.1 listed with here | later
      · cases here
        rw [rest.entry?_of_not_mem fresh, entry?_insert_self below]
      · exact ih distinct later

/-- Where there was nothing, there is what was written. -/
theorem Writes.entry?_eq_some_iff (h : Writes t ws t') (distinct : (ws.map (·.1)).Nodup)
    (nothing : t.entry? place = none) : t'.entry? place = some entry ↔ (place, entry) ∈ ws := by
  constructor
  · intro there
    by_cases written : place ∈ ws.map (·.1)
    · obtain ⟨⟨_, entry'⟩, listed, rfl⟩ := List.mem_map.1 written
      cases there.symm.trans (h.entry?_of_mem distinct listed)
      exact listed
    · rw [h.entry?_of_not_mem written, nothing] at there
      cases there
  · exact h.entry?_of_mem distinct

end

/-! ### Operations as writes -/

variable {dir path : Path} {name : String}

theorem writes_of_writeText {content : String} (proper : Path.Proper name)
    (h : t.writeText (dir.child name) content = .ok t') :
    Writes t [(dir.place ++ [name], .text content)] t' := by
  obtain ⟨place, located, h⟩ := Outcome.bind_eq_ok.1 h
  cases place_of_locate_child proper located
  split at h
  · cases h
  · rename_i writable
    cases h
    refine .single (by simp) fun directory => ?_
    simp [directory] at writable

theorem writes_of_makeDirectory (proper : Path.Proper name)
    (h : t.makeDirectory (dir.child name) = .ok t') :
    Writes t [(dir.place ++ [name], .directory)] t' := by
  obtain ⟨place, located, h⟩ := Outcome.bind_eq_ok.1 h
  cases place_of_locate_child proper located
  have written : Writes t [(dir.place ++ [name], .directory)]
      (t.insert (dir.place ++ [name]) .directory) := .single (by simp) fun _ => rfl
  split at h
  · rename_i directory
    cases h
    rwa [insert_of_held (by simp) directory] at written
  · cases h
  · split at h
    · cases h
    · cases h
      exact written

theorem hasDirectory_of_makeDirectory (h : t.makeDirectory path = .ok t') :
    t'.HasDirectory path := by
  obtain ⟨place, located, h⟩ := Outcome.bind_eq_ok.1 h
  split at h
  · rename_i directory
    cases h
    exact hasDirectory_of_locate located (.refl t) directory
  · cases h
  · rename_i nothing
    split at h
    · cases h
    · cases h
      have below : place ≠ [] := by
        intro root
        simp [root] at nothing
      have written : Writes t [(place, .directory)] (t.insert place .directory) :=
        .single below fun _ => rfl
      exact hasDirectory_of_locate located written.keepsDirectories (entry?_insert_self below _)

/-- In a directory, nothing on the way to a new one is missing. -/
theorem makeDirectory_child_ne (h : t.HasDirectory dir) (proper : Path.Proper name) :
    t.makeDirectory (dir.child name) ≠ .error .notFound := by
  intro missing
  rcases Outcome.bind_eq_error.1 missing with lost | ⟨place, located, missing⟩
  · rw [h.locate_child proper] at lost
    split at lost
    · cases lost
    · split at lost <;> cases lost
  · split at missing
    · cases missing
    · split at missing <;> cases missing
    · rw [Path.endsInDot_child proper] at missing
      cases missing

theorem update_eq_ok {x : Except FileFault FileTree} : t.update x = (.ok (), t') ↔ x = .ok t' := by
  cases x with
  | ok next => simp [update]
  | error fault => simp [update]

/-- Making the first of some directories ends with making that one, at once if nothing on the way
is missing. -/
theorem makeDirectory_of_makeFirst {above : List Path}
    (h : (FileSystem.makeFirst (path :: above) : StateM FileTree _) t = (.ok (), t')) :
    ∃ s : FileTree, s.makeDirectory path = .ok t' ∧
      (t.makeDirectory path ≠ .error .notFound → s = t) := by
  cases made : t.makeDirectory path with
  | ok next =>
      simp only [FileSystem.makeFirst, bind, StateT.bind, FileSystem.makeDirectory, made,
        update] at h
      cases h
      exact ⟨t, made, fun _ => rfl⟩
  | error fault =>
      simp only [FileSystem.makeFirst, bind, StateT.bind, FileSystem.makeDirectory, made,
        update] at h
      cases fault with
      | notFound =>
          cases higher : (FileSystem.makeFirst above : StateM FileTree _) t with
          | mk result s =>
              simp only [StateT.bind, higher, bind] at h
              cases result with
              | ok => exact ⟨s, update_eq_ok.1 h, fun missing => absurd rfl missing⟩
              | error fault => cases h
      | _ => cases h

theorem hasDirectory_of_makeDirectories
    (h : (FileSystem.makeDirectories path : StateM FileTree _) t = (.ok (), t')) :
    t'.HasDirectory path := by
  obtain ⟨s, made, -⟩ := makeDirectory_of_makeFirst h
  exact hasDirectory_of_makeDirectory made

theorem makeDirectory_of_makeDirectories (here : t.HasDirectory dir) (proper : Path.Proper name)
    (h : (FileSystem.makeDirectories (dir.child name) : StateM FileTree _) t = (.ok (), t')) :
    t.makeDirectory (dir.child name) = .ok t' := by
  obtain ⟨s, made, atOnce⟩ := makeDirectory_of_makeFirst h
  rwa [atOnce (makeDirectory_child_ne here proper)] at made

/-! ### Operations that succeed -/

theorem HasDirectory.writeText_child (h : t.HasDirectory dir) (usable : Usable name)
    (free : t.entry? (dir.place ++ [name]) ≠ some .directory) (content : String) :
    t.writeText (dir.child name) content =
      .ok (t.insert (dir.place ++ [name]) (.text content)) := by
  rw [writeText, h.locate_usable usable]
  simp [bind, Except.bind, Path.namesDirectory_child usable.proper, free]

theorem HasDirectory.makeDirectory_child (h : t.HasDirectory dir) (usable : Usable name)
    (nothing : t.entry? (dir.place ++ [name]) = none) :
    t.makeDirectory (dir.child name) = .ok (t.insert (dir.place ++ [name]) .directory) := by
  rw [makeDirectory, h.locate_usable usable]
  simp [bind, Except.bind, Path.endsInDot_child usable.proper, nothing]

theorem HasDirectory.readText_child {content : String} (h : t.HasDirectory dir)
    (usable : Usable name) (there : t.entry? (dir.place ++ [name]) = some (.text content)) :
    t.readText (dir.child name) = .ok content := by
  rw [readText, find, h.locate_usable usable]
  simp [bind, Except.bind, there, Path.namesDirectory_child usable.proper]

theorem HasDirectory.makeDirectory_self (h : t.HasDirectory path) :
    t.makeDirectory path = .ok t := by
  obtain ⟨located, directory⟩ := h.locate_self
  rw [makeDirectory, located]
  simp [bind, Except.bind, directory]

theorem makeDirectories_of_makeDirectory (h : t.makeDirectory path = .ok t') :
    (FileSystem.makeDirectories path : StateM FileTree _) t = (.ok (), t') := by
  simp only [FileSystem.makeDirectories, FileSystem.makeFirst, bind, StateT.bind,
    FileSystem.makeDirectory, h, update]
  rfl

/-! ### Reading -/

theorem HasDirectory.fileNames_eq (h : t.HasDirectory path) :
    t.fileNames path = .ok (t.filesInside path.place) := by
  obtain ⟨located, directory⟩ := h.locate_self
  rw [fileNames, find, located]
  simp [bind, Except.bind, directory]

/-- Every place is spelled by names of directories and files. -/
def Named (t : FileTree) : Prop :=
  ∀ entry ∈ t.entries, ∀ name ∈ entry.1, Path.Proper name

theorem hasDirectory_of_find (h : t.find path = .ok .directory) : t.HasDirectory path := by
  obtain ⟨place, located, h⟩ := Outcome.bind_eq_ok.1 h
  split at h
  · rename_i directory
    exact hasDirectory_of_locate located (.refl t) directory
  · rename_i notDirectory _
    split at h
    · cases h
    · cases h
      exact absurd rfl notDirectory
  · cases h

theorem mem_inside {place : List String} {entry : Entry} :
    (name, entry) ∈ t.inside place ↔ (place ++ [name], entry) ∈ t.entries := by
  rw [inside, List.mem_filterMap]
  constructor
  · intro h
    obtain ⟨⟨p, entry'⟩, held, isInside⟩ := h
    dsimp only at isInside
    split at isInside
    · rename_i last ends
      split at isInside
      · rename_i front
        cases isInside
        rwa [← front, List.dropLast_append_getLast? _ ends]
      · cases isInside
    · cases isInside
  · intro held
    exact ⟨_, held, by simp⟩

/-- What a directory lists stands in it. -/
theorem of_mem_fileNames {names : List String} (h : t.fileNames path = .ok names)
    (listed : name ∈ names) :
    t.HasDirectory path ∧ ∃ entry, (path.place ++ [name], entry) ∈ t.entries := by
  obtain ⟨found, isThere, h⟩ := Outcome.bind_eq_ok.1 h
  split at h
  · obtain ⟨place, located, h⟩ := Outcome.bind_eq_ok.1 h
    cases h
    refine ⟨hasDirectory_of_find isThere, ?_⟩
    obtain ⟨⟨name', entry⟩, held, isFile⟩ := List.mem_filterMap.1 listed
    have same : name' = name := by
      dsimp only at isFile
      split at isFile
      · cases isFile
      · exact Option.some.inj isFile
    rw [mem_inside, same, place_of_locate located] at held
    exact ⟨entry, held⟩
  · cases h

/-- Reading a file of a directory depends on its entry alone, as long as directories stay. -/
theorem readText_child_congr (here : t.HasDirectory dir) (kept : t.KeepsDirectories t')
    (proper : Path.Proper name)
    (same : t'.entry? (dir.place ++ [name]) = t.entry? (dir.place ++ [name])) :
    t'.readText (dir.child name) = t.readText (dir.child name) := by
  have located : t'.locate (dir.child name).components = t.locate (dir.child name).components := by
    rw [(here.mono kept).locate_child proper, here.locate_child proper]
  have found : t'.find (dir.child name) = t.find (dir.child name) := by
    unfold find
    rw [located]
    cases there : t.locate (dir.child name).components with
    | error fault => rfl
    | ok place =>
        cases place_of_locate_child proper there
        simp only [bind, Except.bind, same]
  rw [readText, readText, found]

end FileTree

end WireSchema

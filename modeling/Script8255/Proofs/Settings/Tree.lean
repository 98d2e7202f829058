import Script8255.Proofs.Table
import Script8255.Settings.KeyPath

/-! What the merging of layers does to one part of a tree. -/

namespace Script8255

def KeyStep.folded : KeyStep → KeyStep
  | .key name => .key (Tree.foldCase name)
  | .index i => .index i

def KeyStep.spelled : KeyStep → String
  | .key name => name
  | .index i => s!"[{i}]"

namespace KeyPath

def folded (path : KeyPath) : KeyPath := ⟨Tree.foldCase path.first, path.steps.map KeyStep.folded⟩

/-- The keys along a path. An item of what the first key leads to makes that a list, so such a path
is about the first key alone. -/
def parts (path : KeyPath) : List String :=
  match path.steps with
  | [] | .index _ :: _ => [path.first]
  | .key name :: more => path.first :: name :: more.map KeyStep.spelled

theorem parts_folded_key (first name : String) (more : List KeyStep) :
    (⟨first, .key name :: more⟩ : KeyPath).folded.parts =
      [Tree.foldCase first, Tree.foldCase name] ++
        (more.map KeyStep.folded).map KeyStep.spelled := rfl

end KeyPath

namespace Tree

section Children

variable {root : Tree} {name key : String} {value : Tree}

def child (root : Tree) (name : String) : Tree := (root.entries.get? name).getD (table [])

def merged (old : Tree) : Tree → Tree
  | table incoming => setAll old incoming
  | value => value

theorem set_eq (root : Tree) (key : String) (value : Tree) :
    root.set key value =
      table (root.entries.put (foldCase key) (merged (root.child (foldCase key)) value)) := by
  cases value <;> rw [set] <;> first | rfl | exact nofun

theorem child_put (root : Tree) (name other : String) (value : Tree) :
    (table (root.entries.put name value)).child other =
      if other = name then value else root.child other := by
  unfold child
  rw [show (table (root.entries.put name value)).entries = root.entries.put name value from rfl,
    Table.get?_put]
  split <;> rfl

theorem child_set (root : Tree) (key name : String) (value : Tree) :
    (root.set key value).child name =
      if name = foldCase key then merged (root.child name) value else root.child name := by
  rw [set_eq, child_put]
  split
  next same => rw [same]
  next => rfl

def valuesOf (name : String) (incoming : List (String × Tree)) : List Tree :=
  (incoming.filter fun entry => name = foldCase entry.1).map Prod.snd

theorem child_setAll (root : Tree) (incoming : List (String × Tree)) (name : String) :
    (setAll root incoming).child name =
      (valuesOf name incoming).foldl merged (root.child name) := by
  induction incoming generalizing root with
  | nil => rw [setAll]; rfl
  | cons first rest ih =>
    obtain ⟨key, value⟩ := first
    rw [setAll, ih, child_set]
    by_cases same : name = foldCase key <;> simp [valuesOf, same]

end Children

section Outlines

/-- A value as far as its conversions see it. They do not look into tables. An empty table sets
nothing and is as good as no value. -/
def outline? : Tree → Option Tree
  | table [] => none
  | table (_ :: _) => some (table [])
  | value => some value

theorem exists_setAll (root : Tree) (first : String × Tree) (rest : List (String × Tree)) :
    ∃ entry entries, setAll root (first :: rest) = table (entry :: entries) := by
  induction rest generalizing root first with
  | nil =>
    obtain ⟨entry, entries, filled⟩ :=
      root.entries.exists_put (foldCase first.1) (merged (root.child (foldCase first.1)) first.2)
    rw [setAll, setAll, set_eq, filled]
    exact ⟨entry, entries, rfl⟩
  | cons next rest ih =>
    rw [setAll]
    exact ih _ next

theorem outline?_merged (old value : Tree) :
    outline? (merged old value) = (outline? value).or (outline? old) := by
  match value with
  | table [] => rw [merged, setAll]; rfl
  | table (first :: rest) =>
    obtain ⟨entry, entries, filled⟩ := exists_setAll old first rest
    rw [merged, filled]
    rfl
  | nothing | boolean _ | integer _ | float _ | text _ | list _ => rfl

theorem exists_outline?_foldl (values : List Tree) :
    ∃ given : Option Tree, ∀ old,
      outline? (values.foldl merged old) = given.or (outline? old) := by
  induction values with
  | nil => exact ⟨none, fun old => rfl⟩
  | cons value rest ih =>
    obtain ⟨given, ih⟩ := ih
    refine ⟨given.or (outline? value), fun old => ?_⟩
    rw [List.foldl_cons, ih, outline?_merged, Option.or_assoc]

theorem eq_or_table_of_outline? {value outlined : Tree} (seen : outline? value = some outlined) :
    value = outlined ∨ ∃ first second, value = table first ∧ outlined = table second := by
  match value, seen with
  | table (_ :: _), seen => exact Or.inr ⟨_, [], rfl, (Option.some.inj seen).symm⟩
  | nothing, seen | boolean _, seen | integer _, seen | float _, seen | text _, seen
  | list _, seen => exact Or.inl (Option.some.inj seen)

theorem toBool?_outline {value outlined : Tree} (seen : outline? value = some outlined) :
    value.toBool? = outlined.toBool? := by
  rcases eq_or_table_of_outline? seen with rfl | ⟨first, second, rfl, rfl⟩ <;> rfl

theorem toText?_outline {value outlined : Tree} (seen : outline? value = some outlined) :
    value.toText? = outlined.toText? := by
  rcases eq_or_table_of_outline? seen with rfl | ⟨first, second, rfl, rfl⟩ <;> rfl

end Outlines

section Paths

variable {root : Tree} {path : KeyPath} {sectionName name : String}

theorem child_setPath_other (value : Tree) (apart : sectionName ≠ foldCase path.first) :
    (root.setPath path value).child sectionName = root.child sectionName := by
  unfold setPath
  split
  · rw [child_set, if_neg apart]
  next last _ =>
    change (table (root.entries.put _ _)).child sectionName = _
    rw [child_put, if_neg apart]

theorem exists_setPath_key (root : Tree) (first other : String) (more : List KeyStep)
    (value : Tree) :
    ∃ part, (root.setPath ⟨first, .key other :: more⟩ value).child (foldCase first) =
        table ((root.child (foldCase first)).entries.put (foldCase other) part) ∧
      (more = [] → part = merged ((root.child (foldCase first)).child (foldCase other)) value) := by
  have missing : (((root.entries.get? (foldCase first)).getD nothing).entries : Table Tree) =
      (root.child (foldCase first)).entries := by
    unfold child
    cases root.entries.get? (foldCase first) <;> rfl
  unfold setPath
  cases more with
  | nil =>
    rw [List.getLast?_singleton]
    dsimp only
    rw [List.dropLast_singleton, alter, alter, child_put, if_pos rfl, set_eq]
    refine ⟨_, congrArg (fun entries => table (Table.put entries _ _)) missing, fun _ => ?_⟩
    unfold child
    rw [missing]
    rfl
  | cons next rest =>
    rw [List.getLast?_cons_cons, List.dropLast_cons_cons]
    split
    next absent => simp at absent
    next last _ =>
      dsimp only
      rw [alter, child_put, if_pos rfl, alter, missing]
      exact ⟨_, rfl, nofun⟩

/-- A path changes the part of a section that it leads to. It leaves the others as they are, if it
leads neither to the section nor below the part. -/
theorem child_setPath (value : Tree) (apart : path.folded.parts ≠ [sectionName])
    (below : [sectionName, name] <+: path.folded.parts → path.folded.parts = [sectionName, name]) :
    ((root.setPath path value).child sectionName).child name =
      if path.folded.parts = [sectionName, name] then
        merged ((root.child sectionName).child name) value
      else (root.child sectionName).child name := by
  obtain ⟨first, steps⟩ := path
  match steps with
  | [] | .index _ :: _ =>
    have other : sectionName ≠ foldCase first := fun same => apart (by rw [same]; rfl)
    have elsewhere : [foldCase first] ≠ [sectionName, name] := by simp
    exact (congrArg (child · name) (child_setPath_other value other)).trans (if_neg elsewhere).symm
  | .key other :: more =>
    obtain ⟨part, changed, whole⟩ := exists_setPath_key root first other more value
    rw [KeyPath.parts_folded_key] at below ⊢
    by_cases inside : sectionName = foldCase first
    · subst inside
      rw [changed, child_put]
      by_cases reached : name = foldCase other
      · subst reached
        have alone : more = [] := by simpa using below ⟨_, rfl⟩
        subst alone
        rw [if_pos rfl, whole rfl]
        exact (if_pos rfl).symm
      · rw [if_neg reached, if_neg (by simp [Ne.symm reached])]
    · rw [child_setPath_other value inside, if_neg (by simp [Ne.symm inside])]

end Paths

end Tree

end Script8255

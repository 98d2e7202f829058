/-! Tables from names to entries, in the order in which the names were added. -/

namespace Script8255

abbrev Table (α : Type) := List (String × α)

namespace Table

variable {α : Type}

def get? (table : Table α) (name : String) : Option α := List.lookup name table

def contains (table : Table α) (name : String) : Bool := (table.get? name).isSome

/-- A name that is present keeps its place, and a new one goes to the end. -/
def put : Table α → String → α → Table α
  | [], name, entry => [(name, entry)]
  | (key, old) :: rest, name, entry =>
    if key = name then (key, entry) :: rest else (key, old) :: put rest name entry

/-- The entries that stay keep their order. -/
def remove : Table α → String → Table α
  | [], _ => []
  | (key, entry) :: rest, name =>
    if key = name then rest else (key, entry) :: remove rest name

@[simp]
theorem get?_nil (name : String) : get? ([] : Table α) name = none := rfl

theorem get?_cons (key : String) (entry : α) (rest : Table α) (name : String) :
    get? ((key, entry) :: rest) name = if key = name then some entry else get? rest name := by
  unfold get?
  rw [List.lookup_cons]
  by_cases h : key = name
  · rw [h, beq_self_eq_true, if_pos rfl]
  · rw [beq_eq_false_iff_ne.mpr (Ne.symm h), if_neg h]

theorem contains_iff (table : Table α) (name : String) :
    table.contains name = true ↔ name ∈ table.map Prod.fst := by
  unfold contains get?
  rw [List.lookup_isSome_iff]
  simp

theorem get?_put (table : Table α) (name other : String) (entry : α) :
    (table.put name entry).get? other = if other = name then some entry else table.get? other := by
  induction table with
  | nil => by_cases h : other = name <;> simp [put, get?_cons, h, Ne.symm]
  | cons first rest ih =>
    rcases first with ⟨key, old⟩
    by_cases h : key = name
    · subst h
      by_cases same : other = key <;> simp [put, get?_cons, same, Ne.symm]
    · by_cases same : key = other
      · subst same
        simp [put, get?_cons, h]
      · simp [put, get?_cons, h, same, ih]

theorem names_put (table : Table α) (name : String) (entry : α) :
    (table.put name entry).map Prod.fst =
      if table.contains name then table.map Prod.fst else table.map Prod.fst ++ [name] := by
  induction table with
  | nil => simp [put, contains]
  | cons first rest ih =>
    rcases first with ⟨key, old⟩
    by_cases h : key = name
    · simp [put, contains, get?_cons, h]
    · have same : contains ((key, old) :: rest) name = contains rest name := by
        simp [contains, get?_cons, h]
      rw [same]
      by_cases known : contains rest name = true <;> simp_all [put]

theorem get?_remove_of_ne (table : Table α) {name other : String} (different : other ≠ name) :
    (table.remove name).get? other = table.get? other := by
  induction table with
  | nil => rfl
  | cons first rest ih =>
    rcases first with ⟨key, entry⟩
    by_cases h : key = name
    · subst h
      simp [remove, get?_cons, Ne.symm different]
    · simp [remove, get?_cons, h, ih]

theorem names_remove (table : Table α) (name : String) :
    (table.remove name).map Prod.fst = (table.map Prod.fst).erase name := by
  induction table with
  | nil => simp [remove]
  | cons first rest ih =>
    rcases first with ⟨key, entry⟩
    by_cases h : key = name <;> simp [remove, h, ih]

end Table

end Script8255

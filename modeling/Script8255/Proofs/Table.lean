import Script8255.Table

/-! Entries of tables, and the tables in which no name stands twice. -/

namespace Script8255.Table

variable {α : Type}

def names (table : Table α) : List String := table.map Prod.fst

/-- The entries under any name but the given one. -/
def others (table : Table α) (name : String) : Table α :=
  table.filter fun entry => entry.1 ≠ name

theorem mem_of_get? {table : Table α} {name : String} {entry : α}
    (found : table.get? name = some entry) : (name, entry) ∈ table := by
  obtain ⟨before, after, rfl, -⟩ := List.lookup_eq_some_iff.mp found
  exact List.mem_append_right before List.mem_cons_self

theorem get?_eq_none {table : Table α} {name : String} (absent : name ∉ table.names) :
    table.get? name = none := by
  refine List.lookup_eq_none_iff.mpr fun entry member => bne_iff_ne.mpr fun same => ?_
  exact absent (List.mem_map.mpr ⟨entry, member, same.symm⟩)

theorem exists_put (table : Table α) (name : String) (entry : α) :
    ∃ first rest, table.put name entry = first :: rest := by
  cases table with
  | nil => exact ⟨_, _, rfl⟩
  | cons first rest =>
    rw [put]
    split <;> exact ⟨_, _, rfl⟩

theorem mem_put {table : Table α} {name : String} {entry : α} {item : String × α}
    (member : item ∈ table.put name entry) : item = (name, entry) ∨ item ∈ table := by
  induction table with
  | nil => exact Or.inl (List.mem_singleton.mp member)
  | cons first rest ih =>
    rcases first with ⟨key, old⟩
    by_cases same : key = name
    · subst same
      simp only [put, if_true, List.mem_cons] at member
      rcases member with rfl | later
      · exact Or.inl rfl
      · exact Or.inr (List.mem_cons_of_mem _ later)
    · simp only [put, if_neg same, List.mem_cons] at member
      rcases member with rfl | later
      · exact Or.inr List.mem_cons_self
      · exact (ih later).imp_right (List.mem_cons_of_mem _)

theorem mem_remove {table : Table α} {name : String} {item : String × α}
    (member : item ∈ table.remove name) : item ∈ table := by
  induction table with
  | nil => cases member
  | cons first rest ih =>
    rcases first with ⟨key, old⟩
    by_cases same : key = name
    · exact List.mem_cons_of_mem _ (by simpa [remove, same] using member)
    · simp only [remove, if_neg same, List.mem_cons] at member
      rcases member with rfl | later
      · exact List.mem_cons_self
      · exact List.mem_cons_of_mem _ (ih later)

theorem distinct_put {table : Table α} (distinct : table.names.Nodup) (name : String)
    (entry : α) : (table.put name entry).names.Nodup := by
  unfold names at *
  rw [names_put]
  split
  · exact distinct
  next absent =>
    rw [contains_iff] at absent
    rw [List.nodup_append]
    refine ⟨distinct, by simp, ?_⟩
    intro known member new here same
    rw [List.mem_singleton] at here
    exact absent (here ▸ same ▸ member)

theorem distinct_remove {table : Table α} (distinct : table.names.Nodup) (name : String) :
    (table.remove name).names.Nodup := by
  unfold names at *
  rw [names_remove]
  exact distinct.erase name

theorem get?_remove_self {table : Table α} (distinct : table.names.Nodup) (name : String) :
    (table.remove name).get? name = none := by
  apply get?_eq_none
  unfold names
  rw [names_remove]
  exact distinct.not_mem_erase

theorem filter_put (keep : String → Bool) {name : String} (outside : keep name = false)
    (table : Table α) (entry : α) :
    ((table.put name entry).filter fun item => keep item.1) =
      table.filter fun item => keep item.1 := by
  induction table with
  | nil => simp [put, outside]
  | cons first rest ih =>
    rcases first with ⟨key, old⟩
    by_cases same : key = name
    · simp [put, same, outside]
    · simp [put, same, List.filter_cons, ih]

theorem filter_remove (keep : String → Bool) {name : String} (outside : keep name = false)
    (table : Table α) :
    ((table.remove name).filter fun item => keep item.1) =
      table.filter fun item => keep item.1 := by
  induction table with
  | nil => rfl
  | cons first rest ih =>
    rcases first with ⟨key, old⟩
    by_cases same : key = name
    · simp [remove, same, outside]
    · simp [remove, same, List.filter_cons, ih]

theorem get?_filter (keep : String → Bool) {name : String} (inside : keep name = true)
    (table : Table α) : get? (table.filter fun item => keep item.1) name = table.get? name := by
  induction table with
  | nil => rfl
  | cons first rest ih =>
    rcases first with ⟨key, old⟩
    by_cases same : key = name
    · simp [get?_cons, same, inside]
    · cases kept : keep key <;> simp [get?_cons, same, kept, ih]

theorem others_put (table : Table α) (name : String) (entry : α) :
    (table.put name entry).others name = table.others name :=
  filter_put (· ≠ name) (by simp) table entry

theorem others_remove (table : Table α) (name : String) :
    (table.remove name).others name = table.others name :=
  filter_remove (· ≠ name) (by simp) table

end Script8255.Table

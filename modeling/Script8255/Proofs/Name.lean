import Script8255.Proofs.Literal
import Script8255.Proofs.Store.History

/-! Names of variables: which tokens have one, and the ways to refer to a variable by its name. -/

namespace Script8255

structure IsName (name : String) : Prop where
  filled : name ≠ ""
  words : ∀ c ∈ name.toList, Text.isWord c = true

namespace IsName

variable {name : String}

theorem not_mem (named : IsName name) {d : Char} (outside : Text.isWord d = false) :
    d ∉ name.toList := by
  intro member
  rw [named.words d member] at outside
  cases outside

theorem toList_ne_nil (named : IsName name) : name.toList ≠ [] :=
  mt String.toList_eq_nil_iff.mp named.filled

theorem iff_all : IsName name ↔ (!name.toList.isEmpty && name.toList.all Text.isWord) = true := by
  rw [Bool.and_eq_true, Bool.not_eq_true', List.isEmpty_eq_false_iff, List.all_eq_true]
  constructor
  · intro named
    exact ⟨named.toList_ne_nil, named.words⟩
  · rintro ⟨filled, words⟩
    exact ⟨mt String.toList_eq_nil_iff.mpr filled, words⟩

end IsName

theorem variableName_eq_ok_iff {token name : String} :
    variableName token = .ok name ↔ IsName name ∧ (token = name ∨ token = "&" ++ name) := by
  have tested (letters : List Char) :
      (if !letters.isEmpty && letters.all Text.isWord then .ok (String.ofList letters)
        else .error (.variableName token)) = (.ok name : Except Malformed String) ↔
      IsName name ∧ letters = name.toList := by
    rw [IsName.iff_all]
    constructor
    · intro accepted
      split at accepted
      next all =>
        cases accepted
        rw [String.toList_ofList]
        exact ⟨all, rfl⟩
      · cases accepted
    · rintro ⟨all, rfl⟩
      rw [if_pos all, String.ofList_toList]
  have spelled : token = "&" ++ name ↔ token.toList = '&' :: name.toList := by
    rw [← String.toList_inj]
    simp
  rw [spelled]
  unfold variableName
  split
  next letters ampersand =>
    rw [tested, ampersand]
    constructor
    · rintro ⟨named, rfl⟩
      exact ⟨named, Or.inr rfl⟩
    · rintro ⟨named, same | same⟩
      · exact absurd (same ▸ ampersand ▸ List.mem_cons_self) (named.not_mem (d := '&') rfl)
      · exact ⟨named, (List.cons.inj same).2⟩
  next letters plain =>
    rw [tested, String.toList_inj]
    refine and_congr_right fun named => ⟨Or.inl, ?_⟩
    rintro (same | same)
    · exact same
    · exact absurd same (plain _)

section References

variable {store : Store} {name : String} {value : Value}

theorem segments_placeholder {name : List Char} (filled : name ≠ [])
    (words : ∀ c ∈ name, Text.isWord c = true) (rest : List Char)
    (stops : rest.head?.any Text.isWord = false) :
    segments ('$' :: (name ++ rest)) = .placeholder name :: segments rest := by
  have starts : ((name ++ rest).head?).any Text.isWord = true := by
    cases name with
    | nil => exact absurd rfl filled
    | cons c more => exact words c List.mem_cons_self
  have taken : rest.takeWhile Text.isWord = [] ∧ rest.dropWhile Text.isWord = rest := by
    cases rest with
    | nil => exact ⟨rfl, rfl⟩
    | cons c more =>
      have other : Text.isWord c = false := stops
      simp [other]
  rw [segments, starts, List.takeWhile_append_of_pos words, List.dropWhile_append_of_pos words,
    taken.1, taken.2, List.append_nil]
  rfl

theorem resolve_reference (named : IsName name) (present : store.read name = .ok value) :
    resolve store ("&" ++ name) = .ok value := by
  have letters : ("&" ++ name).toList = '&' :: name.toList := by simp
  unfold resolve
  simp only [letters, List.isEmpty_iff, named.toList_ne_nil, if_false, String.ofList_toList]
  exact Result.mapError_eq_ok.mpr present

theorem interpolate_placeholder (named : IsName name) (present : store.read name = .ok value) :
    interpolate store ('$' :: name.toList) = .ok value.display.toList := by
  have single := segments_placeholder named.toList_ne_nil named.words [] rfl
  rw [List.append_nil] at single
  unfold interpolate
  rw [single]
  simp [segments, expand, present, Except.map]

theorem resolve_placeholder (named : IsName name) (present : store.read name = .ok value) :
    resolve store ("\"$" ++ name ++ "\"") =
      match Escape.decode value.display.toList with
      | .error reason => .error (.unusable reason)
      | .ok text => .ok (.str (String.ofList text)) := by
  have spelled : "\"$" ++ name ++ "\"" =
      String.ofList ('"' :: (('$' :: name.toList) ++ ['"'])) := by
    rw [← String.toList_inj]
    simp
  have plain : '"' ∉ '$' :: name.toList := by
    simpa using named.not_mem (d := '"') rfl
  rw [spelled, resolve_quoted, resolveText, trimQuotes_quoted, trimQuotes_of_no_quote plain,
    interpolate_placeholder named present]
  dsimp only
  cases Escape.decode value.display.toList <;> rfl

end References

namespace Store

def Named (store : Store) : Prop := ∀ entry ∈ store.slots, IsName entry.1

variable {store next : Store}

theorem named_of_call {call : Call} (named : store.Named) (target : IsName call.target)
    (done : store.call call = .ok next) : next.Named := by
  intro entry member
  rcases call_eq_ok done with rfl | ⟨slot, rfl⟩ | rfl
  · exact named entry member
  · rcases Table.mem_put member with rfl | before
    · exact target
    · exact named entry before
  · exact named entry (Table.mem_remove member)

/-- Calls on variables with proper names create no others. -/
theorem named_of_calls {calls : List Call} (named : store.Named)
    (targets : ∀ call ∈ calls, IsName call.target) : (calls.foldl after store).Named :=
  kept_by_calls named fun call member _ _ kept done =>
    named_of_call kept (targets call member) done

theorem read_of_write {name : String} {value : Value}
    (written : store.write name value = .ok next) : next.read name = .ok value := by
  obtain ⟨-, rfl⟩ := assign_eq_ok_iff.mp (write_eq_ok_iff.mp written).2
  rw [read_eq_ok_iff, get?_put, if_pos rfl]
  rfl

end Store

end Script8255

import Mathlib.Data.List.Forall2
import Script8255.Proofs.Template.Grammar

/-! What is shown for a text with placeholders, segment by segment, and which segment prevents
it. -/

namespace Script8255

def Segment.shown (store : Store) : Segment → Except StoreError (List Char)
  | text front => .ok front
  | placeholder name => (store.read (String.ofList name)).map fun value => value.display.toList

section Expansion

variable {store : Store} {parts : List Segment} {shown : List Char} {error : StoreError}

theorem expand_of_shown {part : Segment} {piece : List Char} (here : part.shown store = .ok piece)
    (later : List Segment) :
    expand store (part :: later) = (expand store later).map (piece ++ ·) := by
  cases part with
  | text front =>
    cases here
    rfl
  | placeholder name =>
    obtain ⟨value, found, rfl⟩ := Result.map_eq_ok.mp here
    rw [expand, found]

theorem expand_of_unshown {part : Segment} (here : part.shown store = .error error)
    (later : List Segment) : expand store (part :: later) = .error error := by
  cases part with
  | text front => cases here
  | placeholder name =>
    rw [expand, Result.map_eq_error.mp here]

theorem expand_eq_ok_iff :
    expand store parts = .ok shown ↔
      ∃ pieces, List.Forall₂ (fun part piece => part.shown store = .ok piece) parts pieces ∧
        pieces.flatten = shown := by
  induction parts generalizing shown with
  | nil =>
    constructor
    · intro done
      cases done
      exact ⟨[], .nil, rfl⟩
    · rintro ⟨pieces, none, rfl⟩
      cases none
      rfl
  | cons part later ih =>
    constructor
    · intro done
      cases here : part.shown store with
      | error error => cases (expand_of_unshown here later).symm.trans done
      | ok piece =>
        rw [expand_of_shown here] at done
        obtain ⟨behind, rest, rfl⟩ := Result.map_eq_ok.mp done
        obtain ⟨pieces, others, rfl⟩ := ih.mp rest
        exact ⟨piece :: pieces, .cons here others, rfl⟩
    · rintro ⟨pieces, each, rfl⟩
      cases each with
      | cons here others =>
        rw [expand_of_shown here]
        exact Result.map_eq_ok.mpr ⟨_, ih.mpr ⟨_, others, rfl⟩, rfl⟩

theorem expand_eq_error_iff :
    expand store parts = .error error ↔
      ∃ front part later, parts = front ++ part :: later ∧
        (∀ before ∈ front, ∃ piece, before.shown store = .ok piece) ∧
          part.shown store = .error error := by
  induction parts with
  | nil =>
    constructor
    · intro failed
      cases failed
    · rintro ⟨front, part, later, impossible, -⟩
      simp at impossible
  | cons part later ih =>
    constructor
    · intro failed
      cases here : part.shown store with
      | error reason =>
        cases (expand_of_unshown here later).symm.trans failed
        exact ⟨[], part, later, rfl, nofun, here⟩
      | ok piece =>
        rw [expand_of_shown here] at failed
        obtain ⟨front, other, behind, rfl, shown, fails⟩ := ih.mp (Result.map_eq_error.mp failed)
        exact ⟨part :: front, other, behind, rfl,
          List.forall_mem_cons.mpr ⟨⟨piece, here⟩, shown⟩, fails⟩
    · rintro ⟨front, other, behind, cut, shown, fails⟩
      cases front with
      | nil =>
        cases cut
        exact expand_of_unshown fails later
      | cons first front =>
        cases cut
        obtain ⟨⟨piece, here⟩, others⟩ := List.forall_mem_cons.mp shown
        rw [expand_of_shown here]
        exact Result.map_eq_error.mpr (ih.mpr ⟨front, other, behind, rfl, others, fails⟩)

theorem exists_expand_iff :
    (∃ shown, expand store parts = .ok shown) ↔
      ∀ part ∈ parts, ∃ piece, part.shown store = .ok piece := by
  induction parts with
  | nil => simp [expand]
  | cons part later ih =>
    rw [List.forall_mem_cons, ← ih]
    cases here : part.shown store with
    | error error => simp [expand_of_unshown here]
    | ok piece => simp [expand_of_shown here, Result.map_eq_ok]

theorem forall_shown_iff :
    (∀ part ∈ parts, ∃ piece, part.shown store = .ok piece) ↔
      ∀ name, .placeholder name ∈ parts → ∃ value, store.read (String.ofList name) = .ok value := by
  constructor
  · intro shown name member
    obtain ⟨piece, here⟩ := shown _ member
    obtain ⟨value, found, -⟩ := Result.map_eq_ok.mp here
    exact ⟨value, found⟩
  · intro readable part member
    cases part with
    | text front => exact ⟨front, rfl⟩
    | placeholder name =>
      obtain ⟨value, found⟩ := readable name member
      exact ⟨_, Result.map_eq_ok.mpr ⟨value, found, rfl⟩⟩

end Expansion

/-- The grammar finds the segments of every text, and they make up the text. Placeholders have the
longest names, and no other dollar sign stands in front of a name. In the result each placeholder
gives way to what its variable displays, and the first one that cannot be read decides the error. -/
theorem placeholders_replaced_once (body : List Char) :
    Template.matched? body = some (segments body) ∧ Template.read body = segments body ∧
      (segments body).flatMap Segment.source = body ∧
      (∀ front name later, segments body = front ++ .placeholder name :: later →
        name ≠ [] ∧ (∀ c ∈ name, Text.isWord c = true) ∧
          ∀ c ∈ (later.flatMap Segment.source).head?, Text.isWord c = false) ∧
      (∀ front before after later,
        segments body = front ++ .text (before ++ '$' :: after) :: later →
          ∀ c ∈ (after ++ later.flatMap Segment.source).head?, Text.isWord c = false) ∧
      ∀ store : Store,
        ((∃ shown, interpolate store body = .ok shown) ↔
          ∀ name, .placeholder name ∈ segments body →
            ∃ value, store.read (String.ofList name) = .ok value) ∧
        (∀ shown, interpolate store body = .ok shown ↔
          ∃ pieces,
            List.Forall₂ (fun part piece => part.shown store = .ok piece) (segments body) pieces ∧
              pieces.flatten = shown) ∧
        ∀ error, interpolate store body = .error error ↔
          ∃ front name later, segments body = front ++ .placeholder name :: later ∧
            (∀ other, .placeholder other ∈ front →
              ∃ value, store.read (String.ofList other) = .ok value) ∧
              store.read (String.ofList name) = .error error := by
  have grammar := Template.matched?_eq body
  refine ⟨grammar, ?_, source_segments body, ?_, ?_, fun store => ⟨?_, ?_, ?_⟩⟩
  · rw [Template.read, grammar, Option.getD_some]
  · intro front name later cut
    have member : .placeholder name ∈ segments body := by simp [cut]
    obtain ⟨filled, longest⟩ := placeholder_longest (segments_suffix cut)
    exact ⟨filled, words_of_placeholder member, longest⟩
  · intro front before after later cut
    exact dollar_without_name (segments_suffix cut)
  · exact exists_expand_iff.trans forall_shown_iff
  · intro shown
    exact expand_eq_ok_iff
  · intro error
    refine expand_eq_error_iff.trans ?_
    constructor
    · rintro ⟨front, part, later, cut, shown, fails⟩
      cases part with
      | text plain => cases fails
      | placeholder name =>
        exact ⟨front, name, later, cut, forall_shown_iff.mp shown, Result.map_eq_error.mp fails⟩
    · rintro ⟨front, name, later, cut, readable, fails⟩
      exact ⟨front, .placeholder name, later, cut, forall_shown_iff.mpr readable,
        Result.map_eq_error.mpr fails⟩

end Script8255

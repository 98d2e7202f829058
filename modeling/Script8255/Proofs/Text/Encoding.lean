import Mathlib.Data.Char
import Mathlib.Data.List.Lex
import Mathlib.Order.Lattice
import Mathlib.Order.Monotone.Basic
import Mathlib.Tactic.SplitIfs

/-! Texts are ordered by the bytes of their encoding as they are by the codes of their characters. -/

namespace Script8255.Text

def codes (text : String) : List Nat := text.toList.map Char.toNat

def bytes (text : String) : List Nat := text.toUTF8.data.toList.map UInt8.toNat

def characterBytes (c : Char) : List Nat := (String.utf8EncodeChar c).map UInt8.toNat

theorem bytes_eq_flatMap (text : String) : bytes text = text.toList.flatMap characterBytes := by
  have encoded : text.toUTF8.data.toList = text.toList.flatMap String.utf8EncodeChar := by
    rw [String.toUTF8_eq_toByteArray, ← String.utf8Encode_toList]
    exact congrArg Array.toList List.data_toByteArray
  unfold bytes
  rw [encoded, List.map_flatMap]
  rfl

theorem code_lt_limit (c : Char) : c.val.toNat < 0x110000 := by
  rcases c.valid with low | high
  · exact Nat.lt_trans low (by decide)
  · exact high.2

/-- A character with a larger code has larger bytes, whatever follows. -/
theorem characterBytes_lt {c d : Char} (less : c < d) (x y : List Nat) :
    characterBytes c ++ x < characterBytes d ++ y := by
  have codes : c.val.toNat < d.val.toNat := less
  have limit := code_lt_limit d
  unfold characterBytes String.utf8EncodeChar
  generalize c.val.toNat = m at codes ⊢
  generalize d.val.toNat = n at codes limit ⊢
  -- a longer encoding has a larger first byte, and of two equally long ones the digits decide
  simp only
  split_ifs <;> try omega
  all_goals
    simp (disch := omega) only [List.map_cons, List.map_nil, UInt8.toNat_ofNat',
      List.cons_append, List.nil_append, List.cons_lt_cons_iff, Nat.mod_eq_of_lt]
    omega

section Lists

variable {α β : Type} [LinearOrder α] [LinearOrder β]

theorem flatMap_lt_iff {f : α → List β} (filled : ∀ a, f a ≠ [])
    (less : ∀ a b, a < b → ∀ x y, f a ++ x < f b ++ y) {s t : List α} :
    s.flatMap f < t.flatMap f ↔ s < t := by
  have mono : StrictMono fun s : List α => s.flatMap f := by
    intro s t before
    change s.flatMap f < t.flatMap f
    induction before with
    | @nil b t =>
      obtain ⟨first, rest, image⟩ := List.exists_cons_of_ne_nil (filled b)
      rw [List.flatMap_nil, List.flatMap_cons, image]
      exact List.nil_lt_cons _ _
    | cons later ih =>
      rw [List.flatMap_cons, List.flatMap_cons]
      exact List.append_left_lt ih
    | rel here =>
      rw [List.flatMap_cons, List.flatMap_cons]
      exact less _ _ here _ _
  exact mono.lt_iff_lt

end Lists

variable {s t : String}

theorem codes_lt_iff : codes s < codes t ↔ s < t := by
  have single (text : String) : codes text = text.toList.flatMap fun c => [c.toNat] :=
    List.map_eq_flatMap
  rw [single, single]
  refine flatMap_lt_iff (fun c => List.cons_ne_nil _ _) ?_
  intro c d less x y
  exact List.Lex.rel less

theorem bytes_lt_iff : bytes s < bytes t ↔ s < t := by
  have filled (c : Char) : characterBytes c ≠ [] := by simp [characterBytes]
  rw [bytes_eq_flatMap, bytes_eq_flatMap]
  exact flatMap_lt_iff filled fun c d => characterBytes_lt

end Script8255.Text

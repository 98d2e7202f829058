import Script8255.Settings.Load

/-! The settings that hold where no layer sets them. -/

namespace Script8255

theorem Tree.foldCase_of_folded {key : String}
    (folded : key.toList.all (fun c => c != '\u212a' && c.toLower == c) = true) :
    foldCase key = key := by
  have same : key.toList.map (fun c => if c = '\u212a' then 'k' else c.toLower) =
      key.toList.map id := by
    apply List.map_congr_left
    intro c member
    obtain ⟨other, lower⟩ := Bool.and_eq_true_iff.mp (List.all_eq_true.mp folded c member)
    rw [if_neg (by simpa using other), beq_iff_eq.mp lower]
    rfl
  unfold foldCase
  rw [← String.toList_inj, String.toList_map, same, List.map_id]

namespace Settings

theorem overlay_layerOf (settings : Settings) :
    (Tree.table []).overlay (layerOf settings) = .table (layerOf settings) := by
  have interpreter : KeyPath.ofKey "interpreter" = ⟨"interpreter", []⟩ := rfl
  have logging : KeyPath.ofKey "logging" = ⟨"logging", []⟩ := rfl
  have sections : Tree.foldCase "interpreter" = "interpreter" ∧
      Tree.foldCase "logging" = "logging" :=
    ⟨Tree.foldCase_of_folded rfl, Tree.foldCase_of_folded rfl⟩
  have parts : Tree.foldCase "debug" = "debug" ∧
      Tree.foldCase "ordered_comparisons" = "ordered_comparisons" ∧
      Tree.foldCase "filter" = "filter" :=
    ⟨Tree.foldCase_of_folded rfl, Tree.foldCase_of_folded rfl, Tree.foldCase_of_folded rfl⟩
  simp [layerOf, Tree.overlay, interpreter, logging, Tree.setPath, Tree.set, Tree.setAll,
    sections, parts, Table.put, Table.get?_cons, Tree.entries]

theorem settle_nil {m : Type → Type} [Monad m] (look : String → m Entry) :
    Request.settle (treeLibrary look) ⟨none, false, true, []⟩ [] (some []) = .ok default := by
  have converted : (treeLibrary look).convert ((treeLibrary look).merge
      (Request.layers (treeLibrary look) ⟨none, false, true, []⟩ [] [])) = some default := by
    change ofTree? ((Tree.table []).overlay (layerOf default)) = some default
    rw [overlay_layerOf]
    rfl
  unfold Request.settle
  rw [Option.bind_some, converted]
  rfl

end Settings

end Script8255

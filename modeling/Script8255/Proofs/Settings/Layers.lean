import Mathlib.Data.List.Basic
import Mathlib.Data.List.Induction
import Mathlib.Data.List.TakeWhile
import Script8255.Proofs.Machine.Stream
import Script8255.Proofs.Settings.Defaults
import Script8255.Proofs.Settings.Keys
import Script8255.Proofs.Settings.Tree

/-! The library over trees merges layers key by key. -/

namespace Script8255

theorem KeyPath.ofKey_of_plain {key : String} (plain : Settings.isPlainKey key = true) :
    ofKey key = ⟨key, []⟩ := by
  have keyed : ∀ c ∈ key.toList, isKeyChar c = true := by
    intro c member
    have shape := List.all_eq_true.mp plain c member
    simp only [isKeyChar, Bool.or_eq_true] at shape ⊢
    rcases shape with (letter | underscore) | dash
    · exact Or.inl (Or.inl (Or.inl letter))
    · exact Or.inl (Or.inr underscore)
    · exact Or.inr dash
  have whole : key.toList.takeWhile isKeyChar = key.toList :=
    List.takeWhile_eq_self_iff.mpr keyed
  have rest : key.toList.dropWhile isKeyChar = [] := List.dropWhile_eq_nil_iff.mpr keyed
  unfold ofKey ofText?
  rw [whole, rest]
  dsimp only
  split
  · rfl
  · simp [steps?]

def Tree.entries? : Tree → Option (Table Tree)
  | table entries => some entries
  | _ => none

namespace Settings

open Script8255.Tree

variable {m : Type → Type} [Monad m] {look : String → m Entry} {root : Tree} {setting : Setting}
  {layer : Table Tree} {environment : Table String}

def held? (root : Tree) (setting : Setting) : Option Tree :=
  outline? ((root.child setting.sectionName).child setting.name)

def names? (variableName : String) : Option (List String) :=
  (naming.key? variableName).map fun key => (KeyPath.ofKey key).folded.parts

def given? (layer : Table Tree) (setting : Setting) : Option Tree :=
  held? ((table []).overlay layer) setting

def treeView (look : String → m Entry) : View (treeLibrary look) where
  entries? := Tree.entries?
  held? := held?
  names? := names?
  valueOf := treeOf
  toBool? := Tree.toBool?
  toText? := Tree.toText?

section Merging

theorem exists_held?_overlay (plain : (treeView look).Plain layer) (setting : Setting) :
    ∃ given : Option Tree, ∀ root : Tree,
      held? (root.overlay layer) setting = given.or (held? root setting) := by
  -- what a file gives does not depend on the tree below, so one value serves for every root
  induction layer with
  | nil => exact ⟨none, fun root => rfl⟩
  | cons entry rest ih =>
    obtain ⟨first, others⟩ := List.forall_mem_cons.mp plain
    obtain ⟨key, value⟩ := entry
    obtain ⟨named, filled⟩ := first
    obtain ⟨later, ih⟩ := ih others
    match value, filled with
    | table entries, _ =>
      obtain ⟨given, decided⟩ := exists_outline?_foldl (valuesOf setting.name entries)
      have step (root : Tree) : held? (root.set key (table entries)) setting =
          (if setting.sectionName = foldCase key then given else none).or (held? root setting) := by
        unfold held?
        rw [child_set]
        split
        next same =>
          rw [merged, child_setAll, decided]
        next => rfl
      refine ⟨later.or (if setting.sectionName = foldCase key then given else none), fun root => ?_⟩
      rw [Option.or_assoc, ← step]
      change held? ((root.setPath (KeyPath.ofKey key) (table entries)).overlay rest) setting = _
      rw [KeyPath.ofKey_of_plain named]
      exact ih (root.set key (table entries))

theorem outline?_treeOf (text : String) (old : Tree) :
    outline? (merged old (treeOf text)) = some (treeOf text) := by
  unfold treeOf
  split
  · rfl
  · split
    · rfl
    · split
      · rfl
      · split <;> rfl

def setVariable (root : Tree) (entry : String × String) : Tree :=
  match naming.key? entry.1 with
  | some key => root.setPath (KeyPath.ofKey key) (treeOf entry.2)
  | none => root

theorem overlay_variableLayer (root : Tree) (environment : Table String) :
    root.overlay (variableLayer naming environment) = environment.foldl setVariable root := by
  unfold overlay variableLayer
  rw [List.foldl_filterMap]
  congr 1
  funext root entry
  obtain ⟨name, text⟩ := entry
  unfold setVariable
  dsimp only
  cases naming.key? name <;> rfl

theorem held?_setVariable {entry : String × String} {setting : Setting}
    (apart : ∀ path, names? entry.1 = some path → path ≠ [setting.sectionName])
    (below : ∀ path, names? entry.1 = some path → setting.path <+: path → path = setting.path)
    (root : Tree) :
    held? (setVariable root entry) setting =
      if names? entry.1 = some setting.path then some (treeOf entry.2) else held? root setting := by
  unfold setVariable
  cases named : naming.key? entry.1 with
  | none => simp [names?, named]
  | some key =>
    have path : names? entry.1 = some (KeyPath.ofKey key).folded.parts := by
      rw [names?, named, Option.map_some]
    have spelled : setting.path = [setting.sectionName, setting.name] := rfl
    dsimp only
    rw [held?, child_setPath _ (apart _ path) (below _ path), path, spelled]
    by_cases reached : (KeyPath.ofKey key).folded.parts = [setting.sectionName, setting.name]
    · rw [if_pos reached, if_pos (congrArg some reached), outline?_treeOf]
    · rw [if_neg reached, if_neg fun same => reached (Option.some.inj same)]
      rfl

theorem held?_foldl_setVariable {setting : Setting}
    (apart : ∀ entry ∈ environment, ∀ path, names? entry.1 = some path →
      path ≠ [setting.sectionName])
    (below : ∀ entry ∈ environment, ∀ path, names? entry.1 = some path →
      setting.path <+: path → path = setting.path)
    (distinct : environment.Pairwise fun first second => ∀ path, names? first.1 = some path →
      ∀ other, names? second.1 = some other → path ≠ other) (root : Tree) :
    held? (environment.foldl setVariable root) setting =
      ((environment.find? fun entry => names? entry.1 = some setting.path).map fun entry =>
        treeOf entry.2).or (held? root setting) := by
  induction environment generalizing root with
  | nil => rfl
  | cons entry rest ih =>
    obtain ⟨alone, distinct⟩ := List.pairwise_cons.mp distinct
    obtain ⟨here, apart⟩ := List.forall_mem_cons.mp apart
    obtain ⟨within, below⟩ := List.forall_mem_cons.mp below
    rw [List.foldl_cons, ih apart below distinct, held?_setVariable here within]
    by_cases reached : names? entry.1 = some setting.path
    · have absent : rest.find? (fun entry => names? entry.1 = some setting.path) = none := by
        rw [List.find?_eq_none]
        intro later member again
        exact alone later member _ reached _ (of_decide_eq_true again) rfl
      rw [absent, if_pos reached, List.find?_cons_of_pos (by simpa using reached)]
      rfl
    · rw [if_neg reached, List.find?_cons_of_neg (by simpa using reached)]

theorem held?_variables (tidy : (treeView look).Tidy environment) (root : Tree)
    (setting : Setting) :
    held? (root.overlay (variableLayer naming environment)) setting =
      ((treeView look).assigned? environment setting).or (held? root setting) := by
  obtain ⟨distinct, sections, below⟩ := tidy
  have listed {entry : String × String} {path : List String} (member : entry ∈ environment)
      (named : names? entry.1 = some path) : path ∈ (treeView look).paths environment :=
    List.mem_filterMap.mpr ⟨entry, member, named⟩
  rw [overlay_variableLayer]
  exact held?_foldl_setVariable
    (fun entry member path named => sections path (listed member named) setting)
    (fun entry member path named => below path (listed member named) setting)
    (List.pairwise_filterMap.mp distinct) root

end Merging

section Laws

theorem given?_layerOf (settings : Settings) (setting : Setting) :
    given? (layerOf settings) setting = held? (table (layerOf settings)) setting := by
  rw [given?, overlay_layerOf]

theorem exists_overlay_of_regular (regular : (treeView look).Regular layer) (setting : Setting) :
    ∃ given : Option Tree, ∀ root : Tree,
      held? (root.overlay layer) setting = given.or (held? root setting) := by
  match layer, regular with
  | _, .defaults settings =>
    have plain : (treeView look).Plain (layerOf settings) := by
      have keys : isPlainKey "interpreter" = true ∧ isPlainKey "logging" = true := by decide
      intro entry member
      rcases List.mem_pair.mp member with rfl | rfl
      · exact ⟨keys.1, rfl⟩
      · exact ⟨keys.2, rfl⟩
    exact exists_held?_overlay plain setting
  | _, .file plain => exact exists_held?_overlay plain setting
  | _, .environment tidy => exact ⟨_, fun root => held?_variables tidy root setting⟩

/-- Over what is there already, a layer decides whatever it gives when alone. -/
theorem held?_overlay (regular : (treeView look).Regular layer) (root : Tree)
    (setting : Setting) :
    held? (root.overlay layer) setting = (given? layer setting).or (held? root setting) := by
  obtain ⟨given, decided⟩ := exists_overlay_of_regular regular setting
  have alone : given? layer setting = given := (decided (table [])).trans Option.or_none
  rw [decided, alone]

theorem held?_merge (layers : List (Table Tree))
    (regular : ∀ layer ∈ layers, (treeView look).Regular layer) (setting : Setting) :
    held? (layers.foldl Tree.overlay (table [])) setting =
      layers.reverse.findSome? fun layer => given? layer setting := by
  induction layers using List.reverseRecOn with
  | nil => rfl
  | append_singleton layers last ih =>
    obtain ⟨lower, upper⟩ := List.forall_mem_append.mp regular
    rw [List.foldl_concat, held?_overlay (upper last (List.mem_singleton_self last)), ih lower,
      List.reverse_append, List.reverse_singleton, List.singleton_append, List.findSome?_cons]
    cases given? last setting <;> rfl

theorem read?_of_held {α : Type} {value : Tree} {convert : Tree → Option α}
    (held : held? root setting = some value)
    (same : ∀ tree outlined, outline? tree = some outlined → convert tree = convert outlined)
    (place : Nat) (absent : α) :
    read? root setting.sectionName setting.name place convert absent = convert value := by
  unfold held? child at held
  unfold read?
  cases found : root.entries.get? setting.sectionName with
  | none =>
    rw [found] at held
    cases held
  | some part =>
    rw [found] at held
    match part with
    | .table entries =>
      dsimp only [part?]
      change outline? ((Table.get? entries setting.name).getD (table [])) = _ at held
      cases present : Table.get? entries setting.name with
      | none =>
        rw [present] at held
        cases held
      | some tree =>
        rw [present] at held
        exact same tree value held
    | .nothing | .boolean _ | .integer _ | .float _ | .text _ | .list _ => cases held

theorem keyByKey_treeView (look : String → m Entry) :
    KeyByKey (treeLibrary look) (treeView look) where
  merged := held?_merge
  converted root debug ordered filter debugHeld orderedHeld filterHeld := by
    have debugRead := read?_of_held debugHeld (fun _ _ => toBool?_outline) 0 default.mode.debug
    have orderedRead :=
      read?_of_held orderedHeld (fun _ _ => toBool?_outline) 1 default.mode.ordered
    have filterRead := read?_of_held filterHeld (fun _ _ => toText?_outline) 0 default.filter
    dsimp only [Setting.sectionName, Setting.name] at debugRead orderedRead filterRead
    change ofTree? root = _
    unfold ofTree?
    rw [debugRead, orderedRead, filterRead]
    rfl
  debugDefault settings := congrArg (Option.bind · Tree.toBool?) (given?_layerOf settings .debug)
  orderedDefault settings :=
    congrArg (Option.bind · Tree.toBool?) (given?_layerOf settings .ordered)
  filterDefault settings := congrArg (Option.bind · Tree.toText?) (given?_layerOf settings .filter)
  environment environment tidy setting :=
    (held?_variables tidy (.table []) setting).trans Option.or_none

theorem fileLayer_text {files : Directory} {path text : String} (required : Bool)
    (stored : files.look path = .file text.toUTF8) :
    Id.run (fileLayer (fun path => pure (files.look path)) path required) =
      documentLayer? text := by
  have decoded : String.fromUTF8? text.toUTF8 = some text := fromUTF8?_eq_some_iff.mpr rfl
  have read : Id.run (bytes? (fun path => pure (files.look path)) path) = some text.toUTF8 := by
    unfold bytes?
    simp only [Id.run_bind, Id.run_pure, stored]
  unfold fileLayer
  rw [Id.run_bind, read, Option.bind_some, decoded]
  rfl

end Laws

end Settings

end Script8255

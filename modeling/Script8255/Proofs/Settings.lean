import Script8255.Proofs.Settings.Layers

/-! Each setting has the value of the highest layer that gives it one. -/

namespace Script8255.Settings

section Layers

variable {m : Type → Type} {library : Library m} {view : View library} {request : Request}
  {environment : Table String} {file : Table library.Value}

/-- The variables that take part. -/
def Request.counted (request : Request) (environment : Table String) : Table String :=
  if request.readEnvironment then environment else []

theorem held_layers (laws : KeyByKey library view) (plain : view.Plain file)
    (tidy : view.Tidy (request.counted environment)) (setting : Setting) :
    view.held? (library.merge (request.layers library environment file)) setting =
      (view.winner? (request.counted environment) file setting).or
        (view.given? (library.defaults default) setting) := by
  have regular : ∀ layer ∈ request.layers library environment file, view.Regular layer := by
    intro layer member
    unfold Request.counted at tidy
    rcases List.mem_append.mp member with lower | upper
    · rcases List.mem_pair.mp lower with rfl | rfl
      · exact .defaults default
      · exact .file plain
    · split at upper
      next reads =>
        rw [if_pos reads] at tidy
        rw [List.mem_singleton.mp upper]
        exact .environment tidy
      next => exact absurd upper List.not_mem_nil
  rw [laws.merged _ regular]
  unfold Request.layers Request.counted View.winner?
  unfold Request.counted at tidy
  split
  next reads =>
    rw [if_pos reads] at tidy
    rw [← laws.environment environment tidy]
    cases given : view.given? (library.environment naming environment) setting with
    | none => cases filed : view.given? file setting <;> simp [given, filed]
    | some value => simp [given]
  next => cases filed : view.given? file setting <;> simp [filed, View.assigned?]

theorem exists_held {α : Type} {convert : library.Value → Option α} {initial : α}
    {setting : Setting} (laws : KeyByKey library view) (plain : view.Plain file)
    (tidy : view.Tidy (request.counted environment))
    (initially : (view.given? (library.defaults default) setting).bind convert = some initial) :
    ∃ value, view.held? (library.merge (request.layers library environment file)) setting =
        some value ∧
      convert value =
        (view.winner? (request.counted environment) file setting).elim (some initial) convert := by
  obtain ⟨value, given, converted⟩ := Option.bind_eq_some_iff.mp initially
  rw [held_layers laws plain tidy, given]
  cases view.winner? (request.counted environment) file setting with
  | none => exact ⟨value, rfl, converted⟩
  | some winner => exact ⟨winner, rfl, rfl⟩

theorem convert_layers (laws : KeyByKey library view) (plain : view.Plain file)
    (tidy : view.Tidy (request.counted environment)) :
    library.convert (library.merge (request.layers library environment file)) = do
      let debug ← (view.winner? (request.counted environment) file .debug).elim
        (some default.mode.debug) view.toBool?
      let ordered ← (view.winner? (request.counted environment) file .ordered).elim
        (some default.mode.ordered) view.toBool?
      let filter ← (view.winner? (request.counted environment) file .filter).elim
        (some default.filter) view.toText?
      return ⟨⟨debug, ordered⟩, filter⟩ := by
  obtain ⟨debug, debugHeld, debugConverts⟩ :=
    exists_held laws plain tidy (laws.debugDefault default)
  obtain ⟨ordered, orderedHeld, orderedConverts⟩ :=
    exists_held laws plain tidy (laws.orderedDefault default)
  obtain ⟨filter, filterHeld, filterConverts⟩ :=
    exists_held laws plain tidy (laws.filterDefault default)
  rw [laws.converted _ debug ordered filter debugHeld orderedHeld filterHeld, debugConverts,
    orderedConverts, filterConverts]

theorem settle_cases {debug ordered : Option Bool} {filter : Option String}
    (layers : library.convert (library.merge (request.layers library environment file)) = do
      let debug ← debug
      let ordered ← ordered
      let filter ← filter
      return ⟨⟨debug, ordered⟩, filter⟩) :
    (∀ settings, request.settle library environment (some file) = .ok settings ↔
        debug.map (· || request.debug) = some settings.mode.debug ∧
          ordered = some settings.mode.ordered ∧ filter = some settings.filter) ∧
      (request.settle library environment (some file) = .error .invalid ↔
        debug = none ∨ ordered = none ∨ filter = none) := by
  rw [Request.settle, Option.bind_some, layers]
  cases debug with
  | none => simp
  | some debug =>
    cases ordered with
    | none => simp
    | some ordered =>
      cases filter with
      | none => simp
      | some filter =>
        refine ⟨fun ⟨⟨finalDebug, finalOrdered⟩, finalFilter⟩ => ?_, by simp⟩
        unfold Request.force
        cases request.debug <;> simp [and_assoc]

theorem settle_debug (file : Option (Table library.Value)) :
    Request.settle library { request with debug := true } environment file =
      (Request.settle library { request with debug := false } environment file).map fun settings =>
        { settings with mode := { settings.mode with debug := true } } := by
  have layers (debug : Bool) :
      Request.layers library { request with debug := debug } environment =
        request.layers library environment := rfl
  unfold Request.settle
  rw [layers true, layers false]
  cases file.bind fun file =>
    library.convert (library.merge (request.layers library environment file)) <;> rfl

end Layers

section Builds

variable {library : Library Id} {view : View library} {found : String → Bool} {request : Request}
  {file : Table library.Value}

def built (found : String → Bool) (library : Library Id) (request : Request) :
    Except SettingsError Settings :=
  Id.run (build (fun path => pure (found path)) library request)

def environmentOf (library : Library Id) (request : Request) : Table String :=
  Id.run (request.definedEnvironment library)

def pathOf (library : Library Id) (request : Request) : Option String :=
  request.filePath (environmentOf library request)

/-- The file that a build reads is there, and the layer in it. -/
structure Supplies (found : String → Bool) (library : Library Id) (request : Request)
    (file : Table library.Value) : Prop where
  present : ∀ path, pathOf library request = some path → found path = true
  described : Id.run (library.file ((pathOf library request).getD defaultFile)
    (pathOf library request).isSome) = some file

theorem built_eq :
    built found library request =
      match pathOf library request with
      | none => request.settle library (environmentOf library request)
          (Id.run (library.file defaultFile false))
      | some path =>
        if found path then request.settle library (environmentOf library request)
          (Id.run (library.file path true))
        else .error (.missingFile path) := by
  unfold built build
  rw [Id.run_bind]
  change Id.run (match pathOf library request with | none => _ | some path => _) = _
  cases pathOf library request with
  | none => rfl
  | some path => cases there : found path <;> simp [there, environmentOf]

theorem built_of_supplies (supplied : Supplies found library request file) :
    built found library request =
      request.settle library (environmentOf library request) (some file) := by
  obtain ⟨present, described⟩ := supplied
  rw [built_eq]
  cases shape : pathOf library request with
  | none =>
    rw [shape] at described
    exact congrArg (request.settle library (environmentOf library request)) described
  | some path =>
    rw [shape] at described
    dsimp only
    rw [if_pos (present path shape)]
    exact congrArg (request.settle library (environmentOf library request)) described

theorem built_debug :
    built found library { request with debug := true } =
      (built found library { request with debug := false }).map fun settings =>
        { settings with mode := { settings.mode with debug := true } } := by
  have path (debug : Bool) :
      pathOf library { request with debug := debug } = pathOf library request := rfl
  have environment (debug : Bool) :
      environmentOf library { request with debug := debug } = environmentOf library request := rfl
  rw [built_eq, built_eq, path true, path false, environment true, environment false]
  cases pathOf library request with
  | none => exact settle_debug _
  | some path =>
    dsimp only
    split
    · exact settle_debug _
    · rfl

theorem run_load (files : Directory) (request : Request) :
    Id.run (load (fun path => pure (files.look path)) request) =
      built (fun path => (files.look path).exists) (treeLibrary fun path => pure (files.look path))
        request := rfl

end Builds

end Script8255.Settings

import Mathlib.Data.List.Basic
import Script8255.Proofs.Token

/-! How a text is laid out: its tokens and what stands between them. -/

namespace Script8255.Token

/-- A text as what stands before its first token, and each token with what stands behind it. -/
structure Layout (α : Type) where
  start : List α
  entries : List (List α × List α)

namespace Layout

section Texts

variable {α : Type}

def text (layout : Layout α) : List α :=
  layout.start ++ layout.entries.flatMap fun entry => entry.1 ++ entry.2

def tokens (layout : Layout α) : List (List α) := layout.entries.map Prod.fst

def gaps (layout : Layout α) : List (List α) := layout.entries.map Prod.snd

def covered (layout : Layout α) : List Bool :=
  layout.start.map (fun _ => false) ++ layout.entries.flatMap fun entry =>
    entry.1.map (fun _ => true) ++ entry.2.map fun _ => false

/-- Nothing but separators stands outside of the tokens, some stand between any two of them, and no
token is empty. -/
structure Separated (separator : α → Prop) (layout : Layout α) : Prop where
  start : ∀ a ∈ layout.start, separator a
  gaps : ∀ gap ∈ layout.gaps, ∀ a ∈ gap, separator a
  between : ∀ gap ∈ layout.gaps.dropLast, gap ≠ []
  tokens : ∀ token ∈ layout.tokens, token ≠ []

/-- No separator stands in a token either: the text is cut at every one. -/
inductive Cut (separator : α → Prop) : Layout α → Prop where
  | last {start : List α} : (∀ a ∈ start, separator a) → Cut separator ⟨start, []⟩
  | next {start token gap : List α} {later : List (List α × List α)} :
    (∀ a ∈ start, separator a) → token ≠ [] → (∀ a ∈ token, ¬separator a) →
    (later ≠ [] → gap ≠ []) → Cut separator ⟨gap, later⟩ →
    Cut separator ⟨start, (token, gap) :: later⟩

theorem text_last (start : List α) : text ⟨start, []⟩ = start := List.append_nil start

theorem text_next (start token gap : List α) (later : List (List α × List α)) :
    text ⟨start, (token, gap) :: later⟩ = start ++ (token ++ text ⟨gap, later⟩) := by
  simp [text]

theorem covered_next (start token gap : List α) (later : List (List α × List α)) :
    covered ⟨start, (token, gap) :: later⟩ =
      start.map (fun _ => false) ++ (token.map (fun _ => true) ++ covered ⟨gap, later⟩) := by
  simp [covered]

def cons (separator : α → Bool) (a : α) (layout : Layout α) : Layout α :=
  if separator a then ⟨a :: layout.start, layout.entries⟩
  else match layout with
    | ⟨[], (token, gap) :: later⟩ => ⟨[], (a :: token, gap) :: later⟩
    | ⟨gap, entries⟩ => ⟨[], ([a], gap) :: entries⟩

def ofText (separator : α → Bool) (text : List α) : Layout α :=
  text.foldr (cons separator) ⟨[], []⟩

theorem text_ofText (separator : α → Bool) (whole : List α) :
    (ofText separator whole).text = whole := by
  have grown (a : α) (layout : Layout α) : (cons separator a layout).text = a :: layout.text := by
    unfold cons
    split
    · rfl
    · split <;> simp [text]
  induction whole with
  | nil => rfl
  | cons a rest ih =>
    change (cons separator a (ofText separator rest)).text = _
    rw [grown, ih]

variable {separator : α → Prop} {layout : Layout α}

theorem Cut.start (cut : Cut separator layout) : ∀ a ∈ layout.start, separator a := by
  cases cut <;> assumption

theorem Cut.cons {separator : α → Bool} {layout : Layout α} (a : α)
    (cut : Cut (separator · = true) layout) :
    Cut (separator · = true) (layout.cons separator a) := by
  unfold Layout.cons
  cases ended : separator a with
  | true =>
    have start : ∀ b ∈ a :: layout.start, separator b = true :=
      List.forall_mem_cons.mpr ⟨ended, cut.start⟩
    cases cut with
    | last => exact .last start
    | next _ filled inner between later => exact .next start filled inner between later
  | false =>
    have inner : ¬separator a = true := by simp [ended]
    -- The element begins a token of its own, unless the first token follows at once.
    cases cut with
    | @last start separators =>
      have single : Cut (separator · = true) ⟨[], [([a], start)]⟩ :=
        .next nofun (by simp) (by simpa using inner) nofun (.last separators)
      cases start <;> exact single
    | @next start token gap later separators filled within between rest =>
      cases start with
      | nil =>
        exact .next nofun (by simp) (List.forall_mem_cons.mpr ⟨inner, within⟩) between rest
      | cons b more =>
        exact .next nofun (by simp) (by simpa using inner) (by simp)
          (.next separators filled within between rest)

theorem cut_ofText (separator : α → Bool) (whole : List α) :
    Cut (separator · = true) (ofText separator whole) := by
  induction whole with
  | nil => exact .last nofun
  | cons a rest ih => exact ih.cons a

theorem Cut.separated (cut : Cut separator layout) : Separated separator layout := by
  induction cut with
  | last start => exact ⟨start, nofun, nofun, nofun⟩
  | @next start token gap later separators filled _ between rest ih =>
    constructor
    · exact separators
    · exact List.forall_mem_cons.mpr ⟨ih.start, ih.gaps⟩
    · cases later with
      | nil => exact nofun
      | cons entry others =>
        exact List.forall_mem_cons.mpr ⟨between (List.cons_ne_nil _ _), ih.between⟩
    · exact List.forall_mem_cons.mpr ⟨filled, ih.tokens⟩

end Texts

section Spelling

variable {α β : Type} {separator : α → Prop} {layout : Layout α} {f : α → List β}

def flatMap (f : α → List β) (layout : Layout α) : Layout β :=
  ⟨layout.start.flatMap f,
    layout.entries.map fun entry => (entry.1.flatMap f, entry.2.flatMap f)⟩

theorem text_flatMap (f : α → List β) (layout : Layout α) :
    (layout.flatMap f).text = layout.text.flatMap f := by
  simp [text, flatMap, List.flatMap_append, List.flatMap_map, List.flatMap_assoc]

theorem tokens_flatMap (f : α → List β) (layout : Layout α) :
    (layout.flatMap f).tokens = layout.tokens.map (List.flatMap f) := by
  simp [tokens, flatMap, Function.comp_def]

theorem gaps_flatMap (f : α → List β) (layout : Layout α) :
    (layout.flatMap f).gaps = layout.gaps.map (List.flatMap f) := by
  simp [gaps, flatMap, Function.comp_def]

theorem flatMap_ne_nil (spelled : ∀ a, f a ≠ []) {part : List α} (filled : part ≠ []) :
    part.flatMap f ≠ [] := by
  obtain ⟨a, rest, rfl⟩ := List.exists_cons_of_ne_nil filled
  simp [spelled a]

theorem Separated.flatMap {ended : β → Prop} (separated : Separated separator layout)
    (spelled : ∀ a, f a ≠ []) (same : ∀ a, separator a → ∀ b ∈ f a, ended b) :
    Separated ended (layout.flatMap f) := by
  have all {part : List α} (separators : ∀ a ∈ part, separator a) :
      ∀ b ∈ part.flatMap f, ended b :=
    List.forall_mem_flatMap.mpr fun a member => same a (separators a member)
  constructor
  · exact all separated.start
  · rw [gaps_flatMap]
    exact List.forall_mem_map.mpr fun gap member => all (separated.gaps gap member)
  · rw [gaps_flatMap, ← List.map_dropLast]
    exact List.forall_mem_map.mpr fun gap member =>
      flatMap_ne_nil spelled (separated.between gap member)
  · rw [tokens_flatMap]
    exact List.forall_mem_map.mpr fun token member =>
      flatMap_ne_nil spelled (separated.tokens token member)

/-- A text that is written out is cut where it was, if what is written out of a separator, and only
that, separates. -/
theorem Cut.flatMap {ended : β → Prop} (cut : Cut separator layout) (spelled : ∀ a, f a ≠ [])
    (same : ∀ a, ∀ b ∈ f a, ended b ↔ separator a) : Cut ended (layout.flatMap f) := by
  have outside {part : List α} (separators : ∀ a ∈ part, separator a) :
      ∀ b ∈ part.flatMap f, ended b :=
    List.forall_mem_flatMap.mpr fun a member b within =>
      (same a b within).mpr (separators a member)
  have inside {part : List α} (inner : ∀ a ∈ part, ¬separator a) :
      ∀ b ∈ part.flatMap f, ¬ended b :=
    List.forall_mem_flatMap.mpr fun a member b within =>
      (same a b within).not.mpr (inner a member)
  induction cut with
  | last separators => exact .last (outside separators)
  | next separators filled inner between _ ih =>
    refine .next (outside separators) (flatMap_ne_nil spelled filled) (inside inner) ?_ ih
    intro more
    exact flatMap_ne_nil spelled (between (by simpa using more))

theorem Cut.covered_flatMap {separator : α → Bool} {layout : Layout α}
    (cut : Cut (separator · = true) layout) :
    (layout.flatMap f).covered =
      layout.text.flatMap fun a => (f a).map fun _ => !separator a := by
  have marks (mark : Bool) (part : List α) (each : ∀ a ∈ part, (!separator a) = mark) :
      (part.flatMap f).map (fun _ => mark) =
        part.flatMap fun a => (f a).map fun _ => !separator a := by
    rw [List.map_flatMap]
    refine List.flatMap_congr fun a member => ?_
    rw [each a member]
  induction cut with
  | @last start separators =>
    have outside := marks false start fun a member => by simp [separators a member]
    simpa [covered, Layout.flatMap, text] using outside
  | @next start token _ _ separators _ inner _ _ ih =>
    have outside := marks false start fun a member => by simp [separators a member]
    have inside := marks true token fun a member => by simp [inner a member]
    rw [text_next, List.flatMap_append, List.flatMap_append, ← ih, ← outside, ← inside]
    exact covered_next _ _ _ _

end Spelling

theorem pieces_append_of_ended {gap : List (Char × Bool)} (back : List (Char × Bool))
    (separators : ∀ c ∈ gap, ends c = true) : pieces (gap ++ back) = pieces back := by
  induction gap with
  | nil => rfl
  | cons c rest ih =>
    obtain ⟨ended, others⟩ := List.forall_mem_cons.mp separators
    rw [List.cons_append, pieces_cons _ ended, ih others]

theorem Cut.pieces_text {layout : Layout (Char × Bool)} (cut : Cut (ends · = true) layout) :
    pieces layout.text = layout.tokens := by
  induction cut with
  | @last start separators =>
    have nothing := pieces_append_of_ended [] separators
    rw [List.append_nil] at nothing
    rw [text_last, nothing]
    rfl
  | @next start token gap later separators filled inner between rest ih =>
    have whole : pieces token = [token] :=
      pieces_of_whole filled fun c member => by simpa using inner c member
    rw [text_next, pieces_append_of_ended _ separators]
    cases gap with
    | nil =>
      obtain rfl : later = [] := by
        by_contra more
        exact between more rfl
      simpa [text, tokens] using whole
    | cons c more =>
      have ended := rest.start c List.mem_cons_self
      change pieces (token ++ c :: text ⟨more, later⟩) = token :: tokens ⟨c :: more, later⟩
      rw [pieces_append_cons _ _ ended, whole, ← ih, ← pieces_cons _ ended]
      rfl

end Layout

end Script8255.Token

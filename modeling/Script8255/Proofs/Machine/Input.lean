import Mathlib.Data.Nat.Count
import Script8255.Proofs.Machine.Frame
import Script8255.Proofs.Machine.Run
import Script8255.Proofs.Machine.StatusRegister
import Script8255.Proofs.Name
import Script8255.Proofs.Text.Blank

/-! Which line of the input each of the input instructions of a run receives. -/

namespace Script8255

section Lines

inductive LineEnd where
  | feed
  | returnFeed
  | missing
  deriving DecidableEq

def LineEnd.text : LineEnd → List Char
  | feed => ['\n']
  | returnFeed => ['\r', '\n']
  | missing => []

/-- A line of an input, split from its end. A line that has neither a text nor an end is none. -/
structure InputLine where
  text : String
  ending : LineEnd
  single : '\n' ∉ text.toList
  uncut : text.toList.getLast? ≠ some '\r'
  filled : ending = .missing → text ≠ ""

namespace InputLine

def whole (line : InputLine) : String := String.ofList (line.text.toList ++ line.ending.text)

def bytes (line : InputLine) : List UInt8 := encode line.whole.toList

def Complete (lines : List InputLine) : Prop :=
  lines.Pairwise fun line _ => line.ending ≠ .missing

variable (line : InputLine)

theorem whole_ne_empty : line.whole ≠ "" := by
  intro empty
  have letters := String.toList_eq_nil_iff.mpr empty
  rw [whole, String.toList_ofList] at letters
  obtain ⟨blank, unended⟩ := List.append_eq_nil_iff.mp letters
  cases kind : line.ending with
  | missing => exact line.filled kind (String.toList_eq_nil_iff.mp blank)
  | feed | returnFeed =>
    rw [kind] at unended
    cases unended

theorem bytes_ne_nil : line.bytes ≠ [] :=
  mt encode_eq_nil_iff.mp (mt String.toList_eq_nil_iff.mp line.whole_ne_empty)

theorem lineText_bytes : lineText line.bytes = .ok line.whole := lineText_eq_ok_iff.mpr rfl

theorem dropLineEnd_whole : dropLineEnd line.whole = line.text := by
  have unended : line.text.toList.getLast? ≠ some '\n' := fun last =>
    line.single (List.mem_of_getLast? last)
  unfold dropLineEnd whole
  rw [String.toList_ofList]
  cases line.ending with
  | feed =>
    simp only [LineEnd.text, Text.dropFinal_append, Text.dropFinal_of_other line.uncut,
      String.ofList_toList]
  | returnFeed =>
    simp only [LineEnd.text, List.append_cons _ '\r' ['\n'], Text.dropFinal_append,
      String.ofList_toList]
  | missing =>
    simp only [LineEnd.text, List.append_nil, Text.dropFinal_of_other unended,
      Text.dropFinal_of_other line.uncut, String.ofList_toList]

theorem takeLine_bytes {rest : List UInt8} (last : line.ending = .missing → rest = []) :
    takeLine (line.bytes ++ rest) = (line.bytes, rest) := by
  unfold bytes whole
  rw [String.toList_ofList]
  cases kind : line.ending with
  | feed => exact takeLine_of_feed line.single rest
  | returnFeed =>
    have returned : '\n' ∉ line.text.toList ++ ['\r'] := by simpa using line.single
    rw [LineEnd.text, List.append_cons]
    exact takeLine_of_feed returned rest
  | missing =>
    have whole := takeLine_of_not_mem (feed_not_mem_encode line.single) []
    rw [last kind, LineEnd.text, List.append_nil line.text.toList, whole]
    simp [takeLine]

variable {line} {lines : List InputLine} {k : Nat}

theorem bytes_of_drop (found : lines[k]? = some line) :
    (lines.drop k).flatMap bytes = line.bytes ++ (lines.drop (k + 1)).flatMap bytes := by
  obtain ⟨within, rfl⟩ := List.getElem?_eq_some_iff.mp found
  rw [List.drop_eq_getElem_cons within, List.flatMap_cons]

theorem Complete.bytes_after (complete : Complete lines) (found : lines[k]? = some line)
    (unended : line.ending = .missing) : (lines.drop (k + 1)).flatMap bytes = [] := by
  obtain ⟨within, rfl⟩ := List.getElem?_eq_some_iff.mp found
  have later := complete.sublist (List.drop_sublist k lines)
  rw [List.drop_eq_getElem_cons within] at later
  have none_after : lines.drop (k + 1) = [] :=
    List.eq_nil_iff_forall_not_mem.mpr fun other member =>
      (List.pairwise_cons.mp later).1 other member unended
  rw [none_after]
  rfl

end InputLine

end Lines

namespace Machine

def current (m : Machine) : List String := m.program.instructions[m.line]?.getD []

def request? (m : Machine) : Option (Except Failure (String × String)) :=
  match Instruction.ofTokens? m.current with
  | some (.input prompt name) => some (request m.store prompt name)
  | _ => none

/-- The instruction at the counter asks for a line with a text, and no capacity limits what its
destination may hold. -/
structure Asks (m : Machine) (prompt name : String) : Prop where
  request : m.request? = some (.ok (prompt, name))
  ordinary : name ≠ statusRegister
  unsized : (m.store.get? name).bind Variable.capacity = none

def inputs (m : Machine) (n : Nat) : Nat :=
  Nat.count (fun j => (m.afterSteps j).request?.isSome) n

structure Serving (m : Machine) : Prop where
  plain : m.mode.debug = false
  takes : m.output.Unfailing
  unsized : m.store.StatusUnsized
  only : m.store.OnlyStatusReserved

variable {m : Machine} {prompt name : String}

theorem fetched_of_request {asked : Except Failure (String × String)}
    (requested : m.request? = some asked) :
    m.program.instructions[m.line]? = some m.current ∧ ∃ promptToken nameToken,
      Instruction.ofTokens? m.current = some (.input promptToken nameToken) ∧
        request m.store promptToken nameToken = asked := by
  unfold request? at requested
  split at requested
  next promptToken nameToken shape =>
    refine ⟨?_, promptToken, nameToken, shape, Option.some.inj requested⟩
    unfold current at shape ⊢
    cases fetched : m.program.instructions[m.line]? with
    | some tokens => rfl
    | none =>
      rw [fetched] at shape
      cases shape
  · cases requested

theorem step_frame (plain : m.mode.debug = false) : Frame m.current m m.step.2 := by
  unfold current
  cases fetched : m.program.instructions[m.line]? with
  | none =>
    rw [step_past_end (Array.getElem?_eq_none_iff.mp fetched)]
    exact .refl _ m
  | some tokens =>
    rw [step_of_fetched plain fetched]
    exact (execute_frame m tokens).conclude

theorem step_of_no_request (plain : m.mode.debug = false) (quiet : m.request? = none) :
    m.step.2.input = m.input := by
  rcases (step_frame plain).input with same | ⟨⟨promptToken, nameToken, spelled⟩, -⟩
  · exact same
  · unfold request? at quiet
    rw [spelled] at quiet
    cases quiet

namespace Serving

theorem step (serving : m.Serving) : m.step.2.Serving := by
  have frame := step_frame serving.plain
  obtain ⟨-, calls, permitted, reached⟩ := step_calls m
  refine ⟨(congrArg Mode.debug frame.mode).trans serving.plain, ?_, step_unsized serving.unsized, ?_⟩
  · rcases frame.output with same | ⟨-, bytes, more⟩
    · rw [same]
      exact serving.takes
    · rw [more]
      exact serving.takes.append bytes
  · rw [reached]
    exact onlyStatusReserved_after serving.only permitted

theorem afterSteps (serving : m.Serving) (n : Nat) : (m.afterSteps n).Serving := by
  induction n with
  | zero => exact serving
  | succ n ih => exact ih.step

theorem exists_write (serving : m.Serving) (ordinary : name ≠ statusRegister)
    (unsized : (m.store.get? name).bind Variable.capacity = none) (value : Value) :
    ∃ store, m.store.write name value = .ok store := by
  refine ⟨_, Store.write_eq_ok_iff.mpr
    ⟨serving.only.free ordinary, Store.assign_eq_ok_iff.mpr ⟨?_, rfl⟩⟩⟩
  intro capacity sized
  rw [unsized] at sized
  cases sized

theorem presented (serving : m.Serving) (prompt : String) :
    m.present prompt = (.ok (), { m with output := m.output.append prompt.toUTF8 }) := by
  refine present_eq_ok_iff.mpr ⟨(Output.write_eq_ok_iff.mp (serving.takes.write prompt)).1, ?_, rfl⟩
  have flushed := serving.takes.flushes
  unfold Output.flush at flushed
  split at flushed
  · cases flushed
  next passes => simpa using passes

theorem step_receives (serving : m.Serving) (asks : m.Asks prompt name) (line : InputLine)
    {rest : List UInt8} (left : m.input = line.bytes ++ rest)
    (last : line.ending = .missing → rest = []) :
    ∃ store, m.store.write name (.str line.text) = .ok store ∧
      m.step = (.ok .running,
        { m with
          store := store.withStatus 0
          line := m.line + 1
          input := rest
          output := m.output.append prompt.toUTF8 }) := by
  obtain ⟨fetched, promptToken, nameToken, shape, asked⟩ := fetched_of_request asks.request
  obtain ⟨resolved, named⟩ := request_eq_ok_iff.mp asked
  obtain ⟨room, flushed, -⟩ := present_eq_ok_iff.mp (serving.presented prompt)
  obtain ⟨store, stored⟩ := serving.exists_write asks.ordinary asks.unsized (.str line.text)
  have taken : takeLine m.input = (line.bytes, rest) := by
    rw [left]
    exact line.takeLine_bytes last
  have open_input : m.input ≠ [] := by
    rw [left]
    exact fun empty => line.bytes_ne_nil (List.append_eq_nil_iff.mp empty).1
  have read : lineText (takeLine m.input).1 = .ok line.whole := by
    rw [taken]
    exact line.lineText_bytes
  have effect := Effect.input resolved named room flushed open_input read
    (by rw [line.dropLineEnd_whole]; exact stored)
  have kept : store.StatusUnsized := serving.unsized.of_same effect.statusRegister
  refine ⟨store, stored, ?_⟩
  rw [step_of_fetched serving.plain fetched, execute_of_effect shape effect]
  simp only [conclude]
  rw [advance_of_unsized (by exact kept), taken]
  rfl

theorem execute_at_end (serving : m.Serving) (requested : m.request? = some (.ok (prompt, name)))
    (empty : m.input = []) :
    m.execute m.current =
      (.error .endOfInput, { m with output := m.output.append prompt.toUTF8 }) := by
  obtain ⟨-, promptToken, nameToken, shape, asked⟩ := fetched_of_request requested
  have performed := (execute_of_shape shape).trans (ask_of_ok asked (serving.presented prompt))
  have used : takeLine m.input = ([], m.input) := by
    rw [empty]
    rfl
  have nothing : lineText [] = .ok "" := lineText_eq_ok_iff.mpr rfl
  rw [performed, used, nothing]
  rfl

theorem step_at_end (serving : m.Serving) (requested : m.request? = some (.ok (prompt, name)))
    (empty : m.input = []) :
    m.step = (.ok .running,
      { m with
        store := m.store.withStatus 1
        line := m.line + 1
        output := m.output.append prompt.toUTF8 }) := by
  obtain ⟨fetched, -⟩ := fetched_of_request requested
  rw [step_of_fetched serving.plain fetched, serving.execute_at_end requested empty]
  simp only [conclude, Failure.isFatal, Bool.false_eq_true, if_false]
  rw [advance_of_unsized (by exact serving.unsized)]
  rfl

end Serving

theorem get?_afterSteps_of_unnamed {n : Nat} (plain : ∀ j, (m.afterSteps j).mode.debug = false)
    (ordinary : name ≠ statusRegister) :
    ∀ later, n ≤ later →
      (∀ j, n ≤ j → j < later → Instruction.target? (m.afterSteps j).current ≠ some name) →
        (m.afterSteps later).store.get? name = (m.afterSteps n).store.get? name := by
  intro later after unnamed
  induction later, after using Nat.le_induction with
  | base => rfl
  | succ later after ih =>
    have outside : Instruction.leaves (m.afterSteps later).current name = true := by
      simp [Instruction.leaves, ordinary, unnamed later after (Nat.lt_succ_self later)]
    have same := Store.get?_of_untouched (step_frame (plain later)).slots outside
    exact same.trans (ih fun j from_n before => unnamed j from_n (by omega))

/-- Each input instruction that asks for a line takes one, as long as there are any. -/
theorem Serving.input_afterSteps {lines : List InputLine} (complete : InputLine.Complete lines)
    (serving : m.Serving) (left : m.input = lines.flatMap InputLine.bytes) (n : Nat)
    (asking : ∀ j < n, (m.afterSteps j).request? ≠ none →
      ∃ prompt name, (m.afterSteps j).Asks prompt name) :
    (m.afterSteps n).input = (lines.drop (m.inputs n)).flatMap InputLine.bytes := by
  induction n with
  | zero => exact left
  | succ n ih =>
    have before := ih fun j earlier => asking j (Nat.lt_succ_of_lt earlier)
    have ready := serving.afterSteps n
    change (m.afterSteps n).step.2.input = _
    cases requested : (m.afterSteps n).request? with
    | none =>
      have counted : m.inputs (n + 1) = m.inputs n := by
        simp [inputs, Nat.count_succ, requested]
      rw [step_of_no_request ready.plain requested, before, counted]
    | some asked =>
      have counted : m.inputs (n + 1) = m.inputs n + 1 := by
        simp [inputs, Nat.count_succ, requested]
      obtain ⟨prompt, name, asks⟩ := asking n (Nat.lt_succ_self n) (by simp [requested])
      rw [counted]
      by_cases more : m.inputs n < lines.length
      · have found := List.getElem?_eq_getElem more
        obtain ⟨store, -, stepped⟩ := ready.step_receives asks lines[m.inputs n]
          (before.trans (InputLine.bytes_of_drop found)) (complete.bytes_after found)
        rw [stepped]
      · have used := List.drop_eq_nil_of_le (Nat.le_of_not_lt more)
        have after := List.drop_eq_nil_of_le (Nat.le_succ_of_le (Nat.le_of_not_lt more))
        rw [used] at before
        rw [ready.step_at_end asks.request before, after]
        exact before

/-- Where the input instructions of a run ask with texts for lines that go to variables without a
capacity, each of them stores the next line without its end, and exactly the lines after it are
left. A line stays in its variable until an instruction names that again. With no line left an input
instruction fails and only the failure is recorded. -/
theorem inputs_receive_successive_lines (program : Program) (ordered : Bool) {output : Output}
    (takes : output.Unfailing) {lines : List InputLine} (complete : InputLine.Complete lines) :
    let first : Machine :=
      { start program ⟨false, ordered⟩ (lines.flatMap InputLine.bytes) with output }
    ∀ n, (∀ j < n, (first.afterSteps j).request? ≠ none →
        ∃ prompt name, (first.afterSteps j).Asks prompt name) →
      let m := first.afterSteps n
      let received := first.inputs n
      m.input = (lines.drop received).flatMap InputLine.bytes ∧
      (∀ line prompt name, lines[received]? = some line → m.Asks prompt name →
        ∃ store, m.store.write name (.str line.text) = .ok store ∧
          m.step = (.ok .running,
            { m with
              store := store.withStatus 0
              line := m.line + 1
              input := (lines.drop (received + 1)).flatMap InputLine.bytes
              output := m.output.append prompt.toUTF8 }) ∧
          ∀ later, n < later →
            (∀ j, n < j → j < later →
              Instruction.target? (first.afterSteps j).current ≠ some name) →
            (first.afterSteps later).store.read name = .ok (.str line.text)) ∧
      ∀ prompt name, lines.length ≤ received → m.request? = some (.ok (prompt, name)) →
        (m.execute m.current).1 = .error .endOfInput ∧
          m.step = (.ok .running,
            { m with
              store := m.store.withStatus 1
              line := m.line + 1
              output := m.output.append prompt.toUTF8 }) ∧
          ∀ other, other ≠ statusRegister →
            m.step.2.store.get? other = m.store.get? other := by
  intro first n asking m received
  have serving : first.Serving := by
    refine ⟨rfl, takes, ?_, ?_⟩
    · intro slot found
      cases found
    · intro name slot member
      cases member
  have left := serving.input_afterSteps complete rfl n asking
  have ready := serving.afterSteps n
  refine ⟨left, ?_, ?_⟩
  · intro line prompt name found asks
    obtain ⟨store, stored, stepped⟩ := ready.step_receives asks line
      (left.trans (InputLine.bytes_of_drop found)) (complete.bytes_after found)
    refine ⟨store, stored, stepped, ?_⟩
    intro later after unnamed
    have kept := get?_afterSteps_of_unnamed (fun j => (serving.afterSteps j).plain)
      asks.ordinary later after unnamed
    have reached : (first.afterSteps (n + 1)).store = store.withStatus 0 :=
      congrArg (fun result => result.2.store) stepped
    rw [Store.read_eq_ok_iff, kept, reached, Store.get?_withStatus_of_ne store 0 asks.ordinary]
    exact Store.read_eq_ok_iff.mp (Store.read_of_write stored)
  · intro prompt name used requested
    have empty : m.input = [] := by
      rw [List.drop_eq_nil_of_le used] at left
      exact left
    have stepped := ready.step_at_end requested empty
    refine ⟨congrArg Prod.fst (ready.execute_at_end requested empty), stepped, ?_⟩
    intro other ordinary
    rw [stepped]
    exact Store.get?_withStatus_of_ne m.store 1 ordinary

theorem inputs_fill_two_variables :
    let lines : List InputLine :=
      [⟨"", .returnFeed, by decide, by decide, by decide⟩,
        ⟨"é\rx", .missing, by decide, by decide, by decide⟩]
    let program : Program :=
      ⟨#[["inp", "\"?\"", ">", "&a"], ["inp", "\"?\"", ">", "b"]], [], 0⟩
    let output : Output := ⟨ByteArray.empty, none, false⟩
    let first : Machine :=
      { start program ⟨false, false⟩ (lines.flatMap InputLine.bytes) with output }
    output.Unfailing ∧ InputLine.Complete lines ∧ first.Asks "?" "a" ∧
      (first.afterSteps 1).Asks "?" "b" ∧
      (first.afterSteps 2).store.read "a" = .ok (.str "") ∧
      (first.afterSteps 2).store.read "b" = .ok (.str "é\rx") ∧ (first.afterSteps 2).input = [] := by
  intro lines program output first
  have takes : output.Unfailing := ⟨fun _ => rfl, rfl⟩
  have complete : InputLine.Complete lines := by
    simp [InputLine.Complete, lines]
  have prompt (store : Store) : resolve store "\"?\"" = .ok (.str "?") := by
    have resolved := resolve_quoted store ['?']
    rw [resolveText, trimQuotes_quoted, trimQuotes_of_no_quote (by decide),
      interpolate_of_no_dollar store (by decide)] at resolved
    simp only [Escape.decode_of_no_backslash (show '\\' ∉ ['?'] by decide)] at resolved
    exact resolved
  have reads := inputs_receive_successive_lines program false takes complete
  have asks_first : first.Asks "?" "a" :=
    ⟨congrArg some (request_eq_ok_iff.mpr ⟨prompt _, rfl⟩), by decide, rfl⟩
  obtain ⟨store, stored, stepped, keeps⟩ := (reads 0 (by simp)).2.1 _ _ _ rfl asks_first
  have second : first.afterSteps 1 =
      { first with
        store := store.withStatus 0
        line := 1
        input := (lines.drop 1).flatMap InputLine.bytes
        output := output.append "?".toUTF8 } := congrArg Prod.snd stepped
  have asks_second : (first.afterSteps 1).Asks "?" "b" := by
    obtain rfl := Except.ok.inj stored
    rw [second]
    exact ⟨congrArg some (request_eq_ok_iff.mpr ⟨prompt _, rfl⟩), by decide, rfl⟩
  have other : Instruction.target? (first.afterSteps 1).current ≠ some "a" := by
    rw [second]
    change Instruction.target? ["inp", "\"?\"", ">", "b"] ≠ some "a"
    decide
  have asking : ∀ j < 1, (first.afterSteps j).request? ≠ none →
      ∃ prompt name, (first.afterSteps j).Asks prompt name := by
    intro j before
    obtain rfl : j = 0 := by omega
    exact fun _ => ⟨_, _, asks_first⟩
  have counted : first.inputs 1 = 1 := by
    simp [inputs, Nat.count_succ, asks_first.request, afterSteps]
  obtain ⟨final, -, ended, holds⟩ :=
    (reads 1 asking).2.1 lines[1] _ _ (congrArg (lines[·]?) counted) asks_second
  refine ⟨takes, complete, asks_first, asks_second, ?_, holds 2 (by omega) (by omega), ?_⟩
  · apply keeps 2 (by omega)
    intro j after before
    obtain rfl : j = 1 := by omega
    exact other
  · change (first.afterSteps 1).step.2.input = []
    rw [ended]
    change (lines.drop (first.inputs 1 + 1)).flatMap InputLine.bytes = []
    rw [counted]
    rfl

end Machine

end Script8255

import Script8255.CommandLine
import Script8255.Proofs.Machine.Exit
import Script8255.Proofs.Settings.Defaults

/-! The exit status of a process, by how the run of its machine ended. -/

namespace Script8255

namespace CommandLine

/-- The machine that a process starts, if its arguments ask for one and both the settings and the
source can be read. -/
def machine? (files : Directory) (environment : Table String) (input : List UInt8)
    (arguments : List String) : Option Machine :=
  match parse arguments none false with
  | .ok (.run arguments) =>
    let ready := Id.run (prepare (fun path => pure (files.look path)) environment input arguments)
    ready.machine.toOption
  | _ => none

variable {fuel : Nat} {files : Directory} {environment : Table String} {input : List UInt8}
  {arguments : List String} {machine last : Machine} {result : Except Fatal Halt}

theorem prepare_machine (arguments : Arguments) :
    (Id.run (prepare (fun path => pure (files.look path)) environment input arguments)).machine =
      match Id.run (Settings.load (fun path => pure (files.look path))
          ⟨none, arguments.debug, true, environment⟩) with
      | .error error => .error (.settings error)
      | .ok settings =>
        (sourceText arguments.path (files.look arguments.path)).map fun text =>
          Machine.start (Program.ofSource text) settings.mode input := by
  unfold prepare
  rw [Id.run_bind]
  cases Id.run (Settings.load (fun path => pure (files.look path))
    ⟨none, arguments.debug, true, environment⟩) <;> rfl

theorem machine?_eq_some_iff :
    machine? files environment input arguments = some machine ↔
      ∃ asked, parse arguments none false = .ok (.run asked) ∧
        (Id.run (prepare (fun path => pure (files.look path)) environment input asked)).machine =
          .ok machine := by
  unfold machine?
  split
  next asked parsed =>
    rw [parsed]
    cases prepared :
      (Id.run (prepare (fun path => pure (files.look path)) environment input asked)).machine <;>
      simp [prepared, Except.toOption]
  next other =>
    constructor
    · intro impossible
      cases impossible
    · rintro ⟨asked, parsed, -⟩
      exact absurd parsed (other asked)

theorem start_of_machine? (ready : machine? files environment input arguments = some machine) :
    ∃ text mode, machine = Machine.start (Program.ofSource text) mode input := by
  obtain ⟨asked, -, prepared⟩ := machine?_eq_some_iff.mp ready
  rw [prepare_machine] at prepared
  split at prepared
  · cases prepared
  next settings loaded =>
    obtain ⟨text, -, rfl⟩ := Result.map_eq_ok.mp prepared
    exact ⟨text, settings.mode, rfl⟩

theorem run_of_machine? (ready : machine? files environment input arguments = some machine)
    (ended : machine.run fuel = (some result, last)) :
    ∃ complaints, run fuel files environment input arguments =
      some (Outcome.ofRun last.output.written complaints result) := by
  obtain ⟨asked, parsed, prepared⟩ := machine?_eq_some_iff.mp ready
  unfold run
  simp only [parsed, prepared, ended, Option.map_some]
  exact ⟨_, rfl⟩

theorem machine?_of_source (text : String) (input : List UInt8) :
    machine? [("p.8255", text.toUTF8)] [] input ["p.8255"] =
      some (Machine.start (Program.ofSource text) Settings.default.mode input) := by
  have loaded : Id.run (Settings.load
      (fun path => pure (Directory.look [("p.8255", text.toUTF8)] path)) ⟨none, false, true, []⟩) =
        .ok Settings.default := by
    exact Settings.settle_nil _
  have found : Directory.look [("p.8255", text.toUTF8)] "p.8255" = .file text.toUTF8 := rfl
  have decoded : String.fromUTF8? text.toUTF8 = some text := fromUTF8?_eq_some_iff.mpr rfl
  apply machine?_eq_some_iff.mpr
  refine ⟨⟨"p.8255", false⟩, rfl, ?_⟩
  rw [prepare_machine, loaded]
  dsimp only
  rw [found]
  simp only [sourceText, decoded]
  rfl

section Status

variable {output : ByteArray} {complaints : List String}

theorem exitStatus_code (n : Int64) :
    ((exitStatus (.exited (.code n))).toNat : Int) = n.toInt % 256 := by
  have bounded := n.toInt8.toUInt8.toNat_lt
  have byte : n.toInt8.toInt = (n.toInt8.toUInt8.toNat : Int).bmod 256 :=
    BitVec.toInt_eq_toNat_bmod _
  have narrowed : exitStatus (.exited (.code n)) = n.toInt8.toUInt8 :=
    congrArg Int8.toUInt8 (Int64.toInt8_toInt32 n)
  calc
    ((exitStatus (.exited (.code n))).toNat : Int) = (n.toInt8.toUInt8.toNat : Int) % 256 := by
      rw [narrowed]
      omega
    _ = (n.toInt8.toUInt8.toNat : Int).bmod 256 % 256 := Int.bmod_emod.symm
    _ = n.toInt.bmod 256 % 256 := by
      rw [← byte, Int64.toInt_toInt8]
    _ = n.toInt % 256 := Int.bmod_emod

theorem exitStatus_code_eq_zero_iff (n : Int64) :
    exitStatus (.exited (.code n)) = 0 ↔ 256 ∣ n.toInt := by
  have status := exitStatus_code n
  rw [← UInt8.toNat_inj, Int.dvd_iff_emod_eq_zero, ← status]
  exact Int.natCast_eq_zero.symm

theorem ofRun_message (text : String) :
    (Outcome.ofRun output complaints (.ok (.exited (.message text)))).exit = 1 := rfl

theorem ofRun_fatal (fatal : Fatal) :
    (Outcome.ofRun output complaints (.error fatal)).exit = 1 := rfl

theorem ofRun_exit_eq_zero_iff (result : Except Fatal Halt) :
    (Outcome.ofRun output complaints result).exit = 0 ↔
      result = .ok .completed ∨ ∃ n : Int64, result = .ok (.exited (.code n)) ∧ 256 ∣ n.toInt := by
  rcases result with fatal | halt
  · rw [ofRun_fatal]
    simp
  · cases halt with
    | completed => exact ⟨fun _ => Or.inl rfl, fun _ => rfl⟩
    | exited status =>
      cases status with
      | code n =>
        change exitStatus _ = 0 ↔ _
        rw [exitStatus_code_eq_zero_iff]
        simp
      | message text =>
        rw [ofRun_message]
        simp

end Status

/-- A process whose run has ended reports zero when the run came past the last instruction or the
exit instruction had a multiple of 256. A message and a fatal error are always reported as one. -/
theorem exit_status_of_run (ready : machine? files environment input arguments = some machine)
    (ended : machine.run fuel = (some result, last)) :
    last.Ended result ∧ ∃ outcome, run fuel files environment input arguments = some outcome ∧
      (outcome.exit = 0 ↔ result = .ok .completed ∨
        ∃ n : Int64, result = .ok (.exited (.code n)) ∧ 256 ∣ n.toInt) ∧
      (∀ n : Int64, result = .ok (.exited (.code n)) →
        (outcome.exit.toNat : Int) = n.toInt % 256) ∧
      (∀ text, result = .ok (.exited (.message text)) → outcome.exit = 1) ∧
      ∀ fatal, result = .error fatal → outcome.exit = 1 := by
  obtain ⟨source, mode, rfl⟩ := start_of_machine? ready
  obtain ⟨complaints, ran⟩ := run_of_machine? ready ended
  refine ⟨Machine.ended_of_run rfl rfl ended, _, ran, ofRun_exit_eq_zero_iff result, ?_, ?_, ?_⟩
  · rintro n rfl
    exact exitStatus_code n
  · rintro text rfl
    exact ofRun_message text
  · rintro fatal rfl
    exact ofRun_fatal fatal

theorem negative_code_reported :
    let files : Directory := [("p.8255", "ext -257".toUTF8)]
    let machine := Machine.start (Program.ofSource "ext -257") Settings.default.mode []
    machine? files [] [] ["p.8255"] = some machine ∧
      machine.run 1 = (some (.ok (.exited (.code (-257)))), machine) ∧
      ∃ outcome, run 1 files [] [] ["p.8255"] = some outcome ∧
        (outcome.exit.toNat : Int) = 255 := by
  intro files machine
  have ready : machine? files [] [] ["p.8255"] = some machine := machine?_of_source _ []
  have ended : machine.run 1 = (some (.ok (.exited (.code (-257)))), machine) := rfl
  obtain ⟨-, outcome, ran, -, status, -⟩ := exit_status_of_run ready ended
  exact ⟨ready, ended, outcome, ran, status _ rfl⟩

/-- A code that is not zero, but zero in its low 32 bits, is reported as zero. -/
theorem wide_code_lost :
    let files : Directory := [("p.8255", "ext 4294967296".toUTF8)]
    let machine := Machine.start (Program.ofSource "ext 4294967296") Settings.default.mode []
    machine? files [] [] ["p.8255"] = some machine ∧
      machine.run 1 = (some (.ok (.exited (.code 4294967296))), machine) ∧
      (4294967296 : Int64) ≠ 0 ∧ (run 1 files [] [] ["p.8255"]).map Outcome.exit = some 0 := by
  intro files machine
  have ready : machine? files [] [] ["p.8255"] = some machine := machine?_of_source _ []
  have ended : machine.run 1 = (some (.ok (.exited (.code 4294967296))), machine) := rfl
  obtain ⟨complaints, ran⟩ := run_of_machine? ready ended
  refine ⟨ready, ended, by decide, ?_⟩
  rw [ran]
  rfl

end CommandLine

end Script8255

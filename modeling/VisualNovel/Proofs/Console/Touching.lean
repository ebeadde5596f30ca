import VisualNovel.Proofs.Console.Leaving

namespace VisualNovel

namespace Agent

-- The ways in which a command ends: its code and lines, its writes, and the disk that it leaves.
inductive Ends (budget : Nat) (here : String) (disk : Disk) (command : AgentCommand) :
    Nat → List String → List (String × String) → Disk → Prop where
  | saved {played : LoadedScript} {reply : Reply Unit} {s : Snapshot} {lines : List String}
      {after : Disk} (left : Leaves budget here disk command played reply)
      (taken : reply.machine.snapshot = .ok s)
      (parked : lines[1]? = some "EVENT:SAY" ∨ lines[1]? = some "EVENT:CHOICE")
      (told : lines.getLast? = some ("STATE_OUT:" ++ command.stateOut))
      (kept : after.look command.stateOut = .text (SavedRun.toJson ⟨played.path, s⟩).write) :
      Ends budget here disk command 0 lines
        [(command.stateOut, (SavedRun.toJson ⟨played.path, s⟩).write)] after
  | finished {lines : List String}
      (gone : lines[1]? = some "EVENT:END" ∨ lines[1]? = some "EVENT:STALLED" ∨
        lines[1]? = some "EVENT:PAUSED")
      (told : lines.getLast? = some "STATE_OUT:NONE") :
      Ends budget here disk command 0 lines [] disk
  | failed {lines : List String} (told : lines.head? = some "RESULT:ERROR") :
      Ends budget here disk command 1 lines [] disk

variable {disk after : Disk} {command : AgentCommand} {m : Machine}

theorem second_line (report : Report) :
    report.lines[1]? = some ("EVENT:" ++ report.boundary.kind.name) := rfl

theorem last_line (report : Report) :
    report.lines.getLast? = some ("STATE_OUT:" ++ report.stateOut.getD "NONE") :=
  List.getLast?_concat ..

theorem parked_line (report : Report) (parked : report.boundary.kind.isSuspended = true) :
    report.lines[1]? = some "EVENT:SAY" ∨ report.lines[1]? = some "EVENT:CHOICE" := by
  rw [second_line]
  cases kind : report.boundary.kind with
  | say => exact .inl rfl
  | choice => exact .inr rfl
  | _ => rw [kind] at parked; cases parked

theorem gone_line (report : Report) (gone : report.boundary.kind.isSuspended = false) :
    report.lines[1]? = some "EVENT:END" ∨ report.lines[1]? = some "EVENT:STALLED" ∨
      report.lines[1]? = some "EVENT:PAUSED" := by
  rw [second_line]
  cases kind : report.boundary.kind with
  | ended => exact .inl rfl
  | stalled => exact .inr (.inl rfl)
  | paused => exact .inr (.inr rfl)
  | say => rw [kind] at gone; cases gone
  | choice => rw [kind] at gone; cases gone

theorem writes_settle_parked (taken : m.snapshot = .ok s) (path stateOut : String)
    (signals : List Signal) (disk : Disk) :
    (settle path stateOut m signals).writes disk =
      [(stateOut, (SavedRun.toJson ⟨path, s⟩).write)] := by
  have suspended := (Machine.snapshot_eq_ok taken).1
  have kept : (FileTask.ofStory m.snapshot).on disk = (.ok s, disk) := by rw [taken]; rfl
  have silent : (FileTask.ofStory m.snapshot).writes disk = [] := rfl
  have saves (value : Json) :
      (FileTask.save stateOut value).writes disk = [(stateOut, value.write)] := by
    unfold FileTask.writes FileTask.save
    simp only [ExceptT.run_mk, FileProgram.writes]
  unfold settle SavedRun.save
  simp only [kind_collect, suspended, if_true]
  rw [FileTask.writes_bind, kept, silent, List.nil_append]
  dsimp only
  rw [FileTask.writes_bind, saves]
  cases (FileTask.save stateOut _).on disk with
  | mk outcome changed => cases outcome <;> rfl

theorem writes_settle_finished (finished : m.phase.isSuspended = false) (path stateOut : String)
    (signals : List Signal) (disk : Disk) :
    (settle path stateOut m signals).writes disk = [] := by
  unfold settle
  simp only [kind_collect, finished]
  rfl

-- What any file holds is as before, but for the one that the command was to leave.
def Spares (disk after : Disk) (command : AgentCommand) : Prop :=
  ∀ place, after.locate command.stateOut ≠ some place →
    after.tree.contentAt place = disk.tree.contentAt place

theorem writes_through (writable : ∀ text, (disk.write path text).2 = true) (text : String) :
    ∃ changed, disk.write path text = (changed, true) := by
  have done := writable text
  cases written : disk.write path text with
  | mk changed own =>
    rw [written] at done
    exact ⟨changed, congrArg (Prod.mk changed) done⟩

theorem ends_of_settle (there : disk.tree.isDirectoryAt disk.here = true)
    (writable : ∀ text, (disk.write command.stateOut text).2 = true)
    (leaves : Leaves budget here disk command played reply) :
    let last := settle played.path command.stateOut reply.machine reply.signals
    ∃ report after, last.on disk = (.ok report, after) ∧
      Ends budget here disk command 0 report.lines (last.writes disk) after ∧
      Spares disk after command := by
  intro last
  have kind := kind_collect reply.machine reply.signals
  cases suspended : reply.machine.phase.isSuspended with
  | false =>
    rw [suspended] at kind
    refine ⟨_, disk, on_settle_finished suspended, ?_, fun _ _ => rfl⟩
    rw [writes_settle_finished suspended]
    exact .finished (gone_line _ kind) (last_line _)
  | true =>
    rw [suspended] at kind
    obtain ⟨s, taken⟩ : ∃ s, reply.machine.snapshot = .ok s := by
      simp [Machine.snapshot, suspended]
    obtain ⟨changed, written⟩ := writes_through writable (SavedRun.toJson ⟨played.path, s⟩).write
    obtain ⟨place, holds⟩ := Disk.holds_of_write there written
    let report : Report := ⟨Boundary.collect reply.machine reply.signals, some command.stateOut⟩
    have told : report.lines.getLast? = some ("STATE_OUT:" ++ command.stateOut) := last_line report
    refine ⟨report, changed, on_settle_parked taken written, ?_, ?_⟩
    · rw [writes_settle_parked taken]
      exact .saved leaves taken (parked_line report kind) told holds.look
    · intro other elsewhere
      refine holds.elsewhere other ?_
      rintro rfl
      exact elsewhere holds.located

theorem ends_of_run (there : disk.tree.isDirectoryAt disk.here = true)
    (writable : ∀ text, (disk.write command.stateOut text).2 = true)
    (ran : (run budget here command).on disk = (result, after))
    (printed : Console.agentOutput result = some output) :
    Ends budget here disk command output.code (linesOf result)
        ((run budget here command).writes disk) after ∧
      Spares disk after command := by
  cases narrows_run budget here command disk with
  | stops silent nothing =>
    have same : ((run budget here command).on disk).2 = disk :=
      FileProgram.runOn_of_silent silent
    rw [ran] at same nothing
    obtain rfl : after = disk := same
    rw [silent]
    refine ⟨?_, fun _ _ => rfl⟩
    cases result with
    | error error =>
      cases Option.some.inj printed
      exact .failed rfl
    | ok reported =>
      cases reported with
      | none => cases printed
      | some report => exact absurd rfl (nothing report)
  | ends own writes same =>
    obtain ⟨played, reply, leaves, rfl⟩ := own
    obtain ⟨report, changed, settled, ends⟩ := ends_of_settle there writable leaves
    rw [same, settled] at ran
    cases ran
    cases Option.some.inj printed
    rw [writes]
    exact ends

theorem Ends.written_iff (ends : Ends budget here disk command code lines writes after) :
    (∃ text, (command.stateOut, text) ∈ writes) ↔
      code = 0 ∧ (lines[1]? = some "EVENT:SAY" ∨ lines[1]? = some "EVENT:CHOICE") := by
  cases ends with
  | saved left taken parked told kept => simp [parked]
  | finished gone told =>
    rcases gone with gone | gone | gone <;> simp [gone]
  | failed told => simp

theorem state_written_as_told (input : List InputLine)
    (there : disk.tree.isDirectoryAt disk.here = true)
    (writable : ∀ text, (disk.write command.stateOut text).2 = true)
    (returned : (Console.runRequest budget here input (.agent command)).runOn disk =
      (some output, after)) :
    ∃ lines writes, output.text = Console.text lines ∧
      (Console.runRequest budget here input (.agent command)).writes disk = writes ∧
      Ends budget here disk command output.code lines writes after ∧
      ((∃ text, (command.stateOut, text) ∈ writes) ↔
        output.code = 0 ∧ (lines[1]? = some "EVENT:SAY" ∨ lines[1]? = some "EVENT:CHOICE")) ∧
      Spares disk after command := by
  unfold Console.runRequest at returned ⊢
  dsimp only at returned ⊢
  rw [FileProgram.runOn_bind, FileProgram.runOn_pure] at returned
  obtain ⟨printed, left⟩ := Prod.mk.inj returned
  have ran : (run budget here command).on disk =
      (((run budget here command).on disk).1, after) := Prod.ext rfl left
  obtain ⟨ends, spares⟩ := ends_of_run there writable ran printed
  refine ⟨_, _, text_agentOutput printed, ?_, ends, ends.written_iff, spares⟩
  rw [FileProgram.writes_bind]
  exact List.append_nil _

def lineStart : AgentCommand := .start ⟨"s", none, none, none, none, "a"⟩

def lineRun : FileProgram (Option Console.Output) :=
  Console.runRequest 9 "/w" [] (.agent lineStart)

theorem state_written_as_told_at_a_line : ∃ output after lines,
    lineRun.runOn numberDisk = (some output, after) ∧ output.text = Console.text lines ∧
    output.code = 0 ∧ (lines[1]? = some "EVENT:SAY" ∨ lines[1]? = some "EVENT:CHOICE") ∧
    Spares numberDisk after lineStart := by
  have there : numberDisk.tree.isDirectoryAt numberDisk.here = true := by decide
  have writable : ∀ text, (numberDisk.write lineStart.stateOut text).2 = true := by
    intro text
    rw [Disk.done_write numberDisk lineStart.stateOut text ""]
    decide +kernel
  have written : (lineRun.writes numberDisk).map Prod.fst = [lineStart.stateOut] := by
    decide +kernel
  have ended : (lineRun.runOn numberDisk).1.isSome = true := by decide +kernel
  cases ran : lineRun.runOn numberDisk with
  | mk printed after =>
    rw [ran] at ended
    obtain ⟨output, rfl⟩ := Option.isSome_iff_exists.1 ended
    obtain ⟨lines, writes, text, wrote, -, told, spares⟩ :=
      state_written_as_told [] there writable ran
    have paths : writes.map Prod.fst = [lineStart.stateOut] := by
      rw [← wrote]
      exact written
    have path : lineStart.stateOut ∈ writes.map Prod.fst := by
      rw [paths]
      exact List.mem_singleton_self _
    obtain ⟨⟨own, content⟩, member, same⟩ := List.mem_map.1 path
    obtain rfl : own = lineStart.stateOut := same
    obtain ⟨code, event⟩ := told.1 ⟨content, member⟩
    exact ⟨output, after, lines, rfl, text, code, event, spares⟩

end Agent

end VisualNovel

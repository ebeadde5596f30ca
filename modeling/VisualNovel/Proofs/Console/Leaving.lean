import VisualNovel.Proofs.Console.Session
import VisualNovel.Proofs.Playback.Ending
import VisualNovel.Proofs.Playback.Parked

namespace VisualNovel

open Machine

-- The script that a command plays, and the machine with which it comes to its boundary, with what
-- that has emitted since the last one.
inductive Agent.Leaves (budget : Nat) (here : String) (disk : Disk) :
    AgentCommand → LoadedScript → Reply Unit → Prop where
  | start (loaded : (LoadedScript.load here options.script).on disk = (.ok played, disk))
      (ran : (engine budget here options).on disk = (.ok (some reply), disk)) :
      Leaves budget here disk (.start options) played reply
  | move {change : Move} {reply : Reply Unit}
      (taken : (takeUp here stateIn).on disk = (.ok (played, m), disk))
      (moved : change.on budget m = some reply) (accepted : reply.result = .ok ()) :
      Leaves budget here disk (change.command stateIn stateOut) played reply

def AgentCommand.stateOut : AgentCommand → String
  | .start options => options.stateOut
  | .advance _ stateOut => stateOut
  | .choose _ _ stateOut => stateOut
  | .env _ _ _ stateOut => stateOut

-- On this disk the task writes nothing and comes to no value, or it ends as one of these tasks does.
inductive FileTask.Narrows (disk : Disk) (last : FileTask β → Prop) (task : FileTask (Option β)) :
    Prop where
  | stops (silent : task.writes disk = [])
      (nothing : ∀ value, (task.on disk).1 ≠ .ok (some value)) : Narrows disk last task
  | ends (own : last final) (writes : task.writes disk = final.writes disk)
      (ran : task.on disk = ((final.on disk).1.map some, (final.on disk).2)) :
      Narrows disk last task

namespace FileTask

variable {disk after : Disk} {last : FileTask β → Prop} {task : FileTask (Option β)}

theorem Narrows.nothing : Narrows disk last (pure none) := by
  refine .stops rfl ?_
  intro value same
  cases same

theorem Narrows.ofLast {final : FileTask β} (own : last final) :
    Narrows disk last (final >>= fun value => pure (some value)) := by
  refine .ends own ?_ ?_
  · rw [writes_bind]
    cases final.on disk with
    | mk outcome changed => cases outcome <;> exact List.append_nil _
  · rw [on_bind]
    cases final.on disk with
    | mk outcome changed => cases outcome <;> rfl

theorem Narrows.bind {first : FileTask α} {next : α → FileTask (Option β)} (silent : Silent first)
    (further : ∀ value, first.on disk = (.ok value, disk) → Narrows disk last (next value)) :
    Narrows disk last (first >>= next) := by
  have same := silent.looks disk
  cases ran : first.on disk with
  | mk outcome changed =>
    obtain rfl : changed = disk := by rwa [ran] at same
    have writes := writes_bind first next changed
    rw [silent changed, ran, List.nil_append] at writes
    cases outcome with
    | error error => exact .stops writes (by simp [on_bind_error ran])
    | ok value =>
      have goesOn : (first >>= next).on changed = (next value).on changed := on_bind_ok ran
      cases further value ran with
      | stops silent nothing => exact .stops (writes.trans silent) (by rwa [goesOn])
      | ends own written ran => exact .ends own (writes.trans written) (goesOn.trans ran)

theorem Narrows.eq_ok (narrows : Narrows disk last task)
    (ran : task.on disk = (.ok (some value), after)) :
    ∃ final, last final ∧ final.on disk = (.ok value, after) := by
  cases narrows with
  | stops silent nothing => exact absurd (congrArg Prod.fst ran) (nothing value)
  | @ends final own writes same =>
    refine ⟨final, own, ?_⟩
    rw [same] at ran
    cases settled : final.on disk with
    | mk outcome changed =>
      rw [settled] at ran
      cases outcome with
      | error error => cases ran
      | ok own => cases ran; rfl

end FileTask

variable {m : Machine} {script : Script}

theorem played_of_loadScript (loaded : (LoadedScript.load here path).on disk = (.ok played, after)) :
    played.path = Path.join here path ∧ disk.look played.path = .text played.text := by
  obtain ⟨error, failed⟩ | ⟨text, script, ran, found, -⟩ := on_loadScript_cases here path disk
  · rw [failed] at loaded
    cases loaded
  · rw [ran] at loaded
    cases loaded
    exact ⟨rfl, found⟩

theorem scriptOf_eq_ok (accepted : Setup.scriptOf false text = .ok script) :
    Script.parse text = .ok script := by
  unfold Setup.scriptOf at accepted
  split at accepted
  · cases accepted
  · rename_i own parsed
    cases accepted
    exact parsed

namespace Agent

variable {disk after : Disk} {report : Report} {reply : Reply Unit} {change : Move}

def Last (budget : Nat) (here : String) (disk : Disk) (command : AgentCommand)
    (last : FileTask Report) : Prop :=
  ∃ played reply, Leaves budget here disk command played reply ∧
    last = settle played.path command.stateOut reply.machine reply.signals

theorem narrows_start : FileTask.Narrows disk (Last budget here disk (.start options))
    (start budget here options) := by
  refine .bind (silent_loadScript here options.script) fun played loaded => ?_
  refine .bind (silent_values options.globals) fun globals globalsRead => ?_
  refine .bind (silent_values options.locals) fun locals localsRead => ?_
  dsimp only
  generalize created : Setup.create budget _ played.text = outcome
  cases outcome with
  | none => exact .nothing
  | some outcome =>
    refine .bind (FileTask.silent_ofExcept _) fun machine made => ?_
    have ran : (engine budget here options).on disk =
        (.ok (some ⟨machine, outcome.signals, .ok ()⟩), disk) := by
      unfold engine
      rw [FileTask.on_bind_ok loaded, FileTask.on_bind_ok globalsRead,
        FileTask.on_bind_ok localsRead]
      dsimp only
      rw [created]
      dsimp only
      rw [FileTask.on_bind_ok made]
      rfl
    exact .ofLast ⟨played, _, .start loaded ran, rfl⟩

theorem stateOut_command (change : Move) (stateIn stateOut : String) :
    (change.command stateIn stateOut).stateOut = stateOut := by
  cases change <;> rfl

theorem narrows_move : FileTask.Narrows disk (Last budget here disk (change.command stateIn stateOut))
    (move here stateIn stateOut (change.on budget)) := by
  refine .bind (silent_takeUp here stateIn) fun taken took => ?_
  obtain ⟨played, m⟩ := taken
  dsimp only
  cases moved : change.on budget m with
  | none => exact .nothing
  | some reply =>
    refine .bind (FileTask.silent_ofExcept _) fun done accepted => ?_
    have accepted := FileTask.ok_of_ofStory accepted
    refine .ofLast ⟨played, reply, .move took moved accepted, ?_⟩
    rw [stateOut_command]

theorem exists_move (command : AgentCommand) : (∃ options, command = .start options) ∨
    ∃ (change : Move) (stateIn stateOut : String), command = change.command stateIn stateOut := by
  cases command with
  | start options => exact .inl ⟨options, rfl⟩
  | advance stateIn stateOut => exact .inr ⟨.advance, stateIn, stateOut, rfl⟩
  | choose stateIn label stateOut => exact .inr ⟨.choose label, stateIn, stateOut, rfl⟩
  | env stateIn key value stateOut => exact .inr ⟨.env key value, stateIn, stateOut, rfl⟩

theorem narrows_run (budget : Nat) (here : String) (command : AgentCommand) (disk : Disk) :
    FileTask.Narrows disk (Last budget here disk command) (run budget here command) := by
  obtain ⟨options, rfl⟩ | ⟨change, stateIn, stateOut, rfl⟩ := exists_move command
  · exact narrows_start
  · rw [run_command]
    exact narrows_move

theorem leaves_of_run (ran : (run budget here command).on disk = (.ok (some report), after)) :
    ∃ played reply, Leaves budget here disk command played reply ∧
      (settle played.path command.stateOut reply.machine reply.signals).on disk =
        (.ok report, after) := by
  obtain ⟨last, ⟨played, reply, leaves, rfl⟩, settled⟩ :=
    (narrows_run budget here command disk).eq_ok ran
  exact ⟨played, reply, leaves, settled⟩

theorem ready_takeUp (taken : (takeUp here stateIn).on disk = (.ok (played, m), after)) :
    ∃ script, Script.parse played.text = .ok script ∧ Ready script m := by
  unfold takeUp at taken
  obtain ⟨saved, read, -, taken⟩ := FileTask.on_bind_eq_ok.1 taken
  obtain ⟨loaded, readScript, -, taken⟩ := FileTask.on_bind_eq_ok.1 taken
  obtain ⟨machine, checked, accepted, returned⟩ := FileTask.on_bind_eq_ok.1 taken
  cases returned
  have resumed := FileTask.ok_of_ofStory accepted
  unfold Setup.resume at resumed
  split at resumed
  · cases resumed
  · rename_i own parsed
    let blank := ((new none none none).load own .empty .empty).machine
    have fresh : Resting ((none : Option Environment).getD .standard).keys (new none none none) :=
      resting_new
    have resting : Resting Environment.standard.keys blank := fresh.load own .empty .empty
    have plays : Plays own none blank := ⟨rfl, rfl⟩
    refine ⟨own, scriptOf_eq_ok parsed, ?_⟩
    rw [← machine_of_outcome resumed]
    exact ⟨resting.resume saved.snapshot, plays.resume saved.snapshot⟩

theorem ready_engine (loaded : (LoadedScript.load here options.script).on disk = (.ok played, disk))
    (ran : (engine budget here options).on disk = (.ok (some reply), after)) :
    (∃ script, Script.parse played.text = .ok script ∧ Ready script reply.machine) ∧
      reply.machine.Fresh reply.signals := by
  unfold engine at ran
  rw [FileTask.on_bind_ok loaded] at ran
  obtain ⟨globals, afterGlobals, globalsRead, ran⟩ := FileTask.on_bind_eq_ok.1 ran
  obtain ⟨locals, afterLocals, localsRead, ran⟩ := FileTask.on_bind_eq_ok.1 ran
  dsimp only at ran
  generalize created : Setup.create budget _ played.text = outcome at ran
  cases outcome with
  | none => cases ran
  | some outcome =>
    obtain ⟨machine, made, accepted, returned⟩ := FileTask.on_bind_eq_ok.1 ran
    cases returned
    have result := FileTask.ok_of_ofStory accepted
    obtain ⟨own, parsed, plays, resting⟩ := create_cases created result
    exact ⟨⟨own, scriptOf_eq_ok parsed, resting, plays⟩, fresh_of_create created result⟩

theorem Leaves.loaded (leaves : Leaves budget here disk command played reply) :
    ∃ path, (LoadedScript.load here path).on disk = (.ok played, disk) := by
  cases leaves with
  | start loaded ran => exact ⟨_, loaded⟩
  | move taken moved accepted =>
    unfold takeUp at taken
    obtain ⟨run, read, taken⟩ := (silent_loadState _ _).looks.bind_eq_ok taken
    obtain ⟨script, loaded, taken⟩ := (silent_loadScript here _).looks.bind_eq_ok taken
    obtain ⟨machine, made, returned⟩ := (FileTask.looks_ofStory _).bind_eq_ok taken
    cases returned
    exact ⟨_, loaded⟩

theorem Leaves.of_start (leaves : Leaves budget here disk (.start options) played reply) :
    (LoadedScript.load here options.script).on disk = (.ok played, disk) ∧
      (engine budget here options).on disk = (.ok (some reply), disk) := by
  generalize asked : AgentCommand.start options = command at leaves
  cases leaves with
  | start loaded ran =>
    cases asked
    exact ⟨loaded, ran⟩
  | @move _ _ _ _ change _ taken moved accepted => cases change <;> cases asked

theorem Leaves.ready (leaves : Leaves budget here disk command played reply) :
    ∃ script, Script.parse played.text = .ok script ∧ Ready script reply.machine := by
  cases leaves with
  | start loaded ran => exact (ready_engine loaded ran).1
  | move taken moved accepted =>
    obtain ⟨script, parsed, ready⟩ := ready_takeUp taken
    exact ⟨script, parsed, ready.on moved⟩

theorem Leaves.fresh (leaves : Leaves budget here disk command played reply) :
    reply.machine.Fresh reply.signals := by
  cases leaves with
  | start loaded ran => exact (ready_engine loaded ran).2
  | @move _ _ own _ change reply taken moved accepted =>
    cases change with
    | advance => exact .of_on .advance moved
    | choose label => exact .of_on (.choose label) moved
    | env key value =>
      cases Option.some.inj moved
      exact .inl (setEnvironment_quiet own key value).1

end Agent

end VisualNovel

import VisualNovel.Console.Agent
import VisualNovel.Proofs.Console.Reread
import VisualNovel.Proofs.Files.WriteLook
import VisualNovel.Proofs.Playback.Kept
import VisualNovel.Proofs.Playback.Resumption

namespace VisualNovel

namespace FileProgram

def writes (disk : Disk) : FileProgram α → List (String × String)
  | .done _ => []
  | .look path next => (next (disk.look path)).writes disk
  | .write path text next =>
    (path, text) :: (next (disk.write path text).2).writes (disk.write path text).1

theorem writes_bind (first : FileProgram α) (next : α → FileProgram β) (disk : Disk) :
    (first >>= next).writes disk =
      first.writes disk ++ (next (first.runOn disk).1).writes (first.runOn disk).2 := by
  change (first.bind next).writes disk = _
  induction first generalizing disk with
  | done value => rfl
  | look path continuation ih => exact ih (disk.look path) disk
  | write path text continuation ih =>
    simp only [FileProgram.bind, writes, runOn, ih, List.cons_append]

theorem runOn_of_silent {program : FileProgram α} (silent : program.writes disk = []) :
    (program.runOn disk).2 = disk := by
  induction program with
  | done value => rfl
  | look path continuation ih => exact ih (disk.look path) silent
  | write path text continuation ih => cases silent

end FileProgram

namespace FileTask

def on (task : FileTask α) (disk : Disk) : Except ConsoleError α × Disk := task.run.runOn disk

def writes (task : FileTask α) (disk : Disk) : List (String × String) := task.run.writes disk

theorem on_bind (first : FileTask α) (next : α → FileTask β) (disk : Disk) :
    (first >>= next).on disk = match first.on disk with
      | (.ok value, changed) => (next value).on changed
      | (.error error, changed) => (.error error, changed) := by
  unfold on
  rw [ExceptT.run_bind, FileProgram.runOn_bind]
  cases first.run.runOn disk with
  | mk result changed => cases result <;> rfl

theorem on_bind_ok {first : FileTask α} {next : α → FileTask β}
    (ran : first.on disk = (.ok value, changed)) :
    (first >>= next).on disk = (next value).on changed := by
  rw [on_bind, ran]

theorem on_bind_error {first : FileTask α} {next : α → FileTask β}
    (ran : first.on disk = (.error error, changed)) :
    (first >>= next).on disk = (.error error, changed) := by
  rw [on_bind, ran]

theorem on_bind_eq_ok {first : FileTask α} {next : α → FileTask β} {disk after : Disk} :
    (first >>= next).on disk = (.ok result, after) ↔
      ∃ value changed, first.on disk = (.ok value, changed) ∧
        (next value).on changed = (.ok result, after) := by
  rw [on_bind]
  cases ran : first.on disk with
  | mk outcome changed => cases outcome <;> simp

theorem on_look (path : String) (disk : Disk) :
    (look path).on disk = (.ok (disk.look path), disk) := rfl

theorem on_ofStory (result : Except StoryError α) (disk : Disk) :
    (ofStory result).on disk = (result.mapError .story, disk) := rfl

theorem ok_of_ofStory {result : Except StoryError α}
    (ran : (ofStory result).on disk = (.ok value, after)) : result = .ok value := by
  rw [on_ofStory] at ran
  cases result with
  | ok own => cases ran; rfl
  | error error => cases ran

theorem writes_bind (first : FileTask α) (next : α → FileTask β) (disk : Disk) :
    (first >>= next).writes disk = first.writes disk ++
      match first.on disk with
      | (.ok value, changed) => (next value).writes changed
      | (.error _, _) => [] := by
  unfold writes on
  rw [ExceptT.run_bind, FileProgram.writes_bind]
  cases first.run.runOn disk with
  | mk result changed => cases result <;> rfl

def Silent (task : FileTask α) : Prop := ∀ disk, task.writes disk = []

theorem silent_look (path : String) : Silent (look path) := fun _ => rfl

theorem silent_ofExcept (result : Except ConsoleError α) : Silent (ofExcept result) := fun _ => rfl

theorem silent_pure (value : α) : Silent (pure value : FileTask α) := fun _ => rfl

theorem Silent.bind {first : FileTask α} {next : α → FileTask β} (silent : Silent first)
    (further : ∀ value, Silent (next value)) : Silent (first >>= next) := by
  intro disk
  rw [writes_bind, silent disk, List.nil_append]
  cases first.on disk with
  | mk outcome changed =>
    cases outcome with
    | error error => rfl
    | ok value => exact further value changed

def Looks (task : FileTask α) : Prop := ∀ disk, (task.on disk).2 = disk

theorem Silent.looks {task : FileTask α} (silent : Silent task) : Looks task :=
  fun disk => FileProgram.runOn_of_silent (silent disk)

theorem looks_ofStory (result : Except StoryError α) : Looks (ofStory result) :=
  (silent_ofExcept _).looks

theorem Looks.bind_eq_ok {first : FileTask α} {next : α → FileTask β} (looks : Looks first)
    (ran : (first >>= next).on disk = (.ok result, after)) :
    ∃ value, first.on disk = (.ok value, disk) ∧ (next value).on disk = (.ok result, after) := by
  obtain ⟨value, changed, ranFirst, ranNext⟩ := on_bind_eq_ok.1 ran
  have same := looks disk
  rw [ranFirst] at same
  obtain rfl : changed = disk := same
  exact ⟨value, ranFirst, ranNext⟩

theorem on_save (written : disk.write path value.write = (changed, done)) :
    (save path value).on disk =
      (if done then .ok () else .error .stateUnwritable, changed) := by
  unfold on save
  simp only [ExceptT.run_mk, FileProgram.runOn, written]

end FileTask

open FileTask

-- Nothing is written before the end of a command.
theorem silent_loadScript (here path : String) : Silent (LoadedScript.load here path) := by
  refine (silent_look _).bind fun entry => ?_
  cases entry <;> exact fun _ => rfl

theorem silent_loadState (ofText : String → Except ConsoleError α) (path : String) :
    Silent (loadState ofText path) := by
  refine (silent_look path).bind fun entry => ?_
  cases entry <;> exact fun _ => rfl

theorem silent_valuesText (argument : String) : Silent (Agent.valuesText argument) := by
  unfold Agent.valuesText
  split
  · refine (silent_look _).bind fun entry => ?_
    cases entry <;> exact fun _ => rfl
  · exact silent_pure _

theorem silent_values (argument : Option String) : Silent (Agent.values argument) := by
  cases argument with
  | none => exact silent_pure _
  | some argument =>
    refine (silent_valuesText argument).bind fun text => ?_
    exact (silent_ofExcept _).bind fun values => silent_pure _

theorem silent_takeUp (here stateIn : String) : Silent (Agent.takeUp here stateIn) :=
  (silent_loadState _ stateIn).bind fun _ => (silent_loadScript here _).bind fun _ =>
    (silent_ofExcept _).bind fun _ => silent_pure _

theorem on_loadScript_eq (here path : String) (disk : Disk) :
    (LoadedScript.load here path).on disk =
      (match disk.look (Path.join here path) with
        | .missing => .error (.scriptNotFound (Path.join here path))
        | .directory => .error (.scriptNotFile (Path.join here path))
        | .unreadable => .error .scriptUnreadable
        | .text text => LoadedScript.checked (Path.join here path) text, disk) := by
  unfold LoadedScript.load
  rw [on_bind_ok (on_look _ _)]
  cases disk.look (Path.join here path) <;> rfl

theorem on_loadScript (found : disk.look (Path.join here path) = .text text)
    (parsed : Script.parse text = .ok script) :
    (LoadedScript.load here path).on disk = (.ok ⟨Path.join here path, text⟩, disk) := by
  simp only [on_loadScript_eq, found, LoadedScript.checked, parsed]

theorem on_loadRun (found : disk.look path = .text text) (read : SavedRun.ofText text = .ok run) :
    (SavedRun.load path).on disk = (.ok run, disk) := by
  unfold SavedRun.load loadState
  rw [on_bind_ok (on_look _ _), found]
  simp only [read]
  rfl

theorem on_takeUp_of (file : disk.look stateIn = .text saved)
    (read : SavedRun.ofText saved = .ok run)
    (found : disk.look (Path.join here run.scriptPath) = .text text)
    (parsed : Script.parse text = .ok script)
    (accepted : (Setup.standard.resume text run.snapshot).result = .ok m) :
    (Agent.takeUp here stateIn).on disk =
      (.ok (⟨Path.join here run.scriptPath, text⟩, m), disk) := by
  unfold Agent.takeUp
  rw [on_bind_ok (on_loadRun file read), on_bind_ok (on_loadScript found parsed), on_bind,
    on_ofStory, accepted]
  rfl

-- What the state file of a parked machine keeps. The place of the machine is a machine word.
structure Machine.Storable (m : Machine) : Prop where
  cursor : m.cursor < Snapshot.wordLimit
  globals : m.stores.globals.Faithful
  locals : m.stores.locals.toMap.Faithful
  shallow : ∀ s ∈ m.snapshot.toOption, s.toJson.nesting + 1 ≤ Json.depthLimit

instance (m : Machine) : Decidable m.Storable :=
  decidable_of_iff (m.cursor < Snapshot.wordLimit ∧ m.stores.globals.Faithful ∧
      m.stores.locals.toMap.Faithful ∧
      ∀ s ∈ m.snapshot.toOption, s.toJson.nesting + 1 ≤ Json.depthLimit)
    ⟨fun ⟨cursor, globals, locals, shallow⟩ => ⟨cursor, globals, locals, shallow⟩,
      fun storable => ⟨storable.cursor, storable.globals, storable.locals, storable.shallow⟩⟩

theorem Machine.Storable.faithful {m : Machine} (storable : m.Storable)
    (taken : m.snapshot = .ok s) : s.Faithful := by
  obtain ⟨-, rfl⟩ := Machine.snapshot_eq_ok taken
  exact ⟨storable.cursor, storable.globals, storable.locals⟩

-- A machine as the commands of a chain have it, all with the same script and no step guard.
structure Ready (script : Script) (m : Machine) : Prop where
  resting : Machine.Resting Environment.standard.keys m
  plays : Machine.Plays script none m

theorem scriptOf_lenient (parsed : Script.parse text = .ok script) :
    Setup.scriptOf false text = .ok script := by
  simp [Setup.scriptOf, parsed]

theorem resume_setup {m : Machine} (ready : Ready script m) (taken : m.snapshot = .ok s)
    (parsed : Script.parse text = .ok script) :
    ∃ resumed, (Setup.standard.resume text s).result = .ok resumed ∧
      Machine.Resumed Environment.standard.keys m resumed := by
  let other := ((Machine.new none none none).load script .empty .empty).machine
  have sameScript : other.script = m.script := ready.plays.script.symm
  have sameGuard : other.stepGuard = m.stepGuard := ready.plays.stepGuard.symm
  have flags : other.stores.environment.keys = m.stores.environment.keys :=
    ready.resting.flags.symm
  obtain ⟨resumed, signals, accepted, -, result⟩ :=
    Machine.resume_snapshot ready.resting taken sameScript sameGuard flags
  refine ⟨resumed, ?_, result⟩
  simp only [Setup.resume, scriptOf_lenient parsed, Setup.standard]
  change (Setup.outcome _ (other.resume s)).result = .ok resumed
  rw [accepted]
  rfl

structure SavedAt (path : String) (m : Machine) (stateIn : String) (disk : Disk) : Prop where
  here : disk.tree.isDirectoryAt disk.here = true
  file : ∃ s, m.snapshot = .ok s ∧ disk.look stateIn = .text (SavedRun.toJson ⟨path, s⟩).write

theorem on_takeUp {m : Machine} (ready : Ready script m) (storable : m.Storable)
    (saved : SavedAt path m stateIn disk) (absolute : Path.isAbsolute path = true)
    (found : disk.look path = .text text) (parsed : Script.parse text = .ok script) :
    ∃ resumed, (Agent.takeUp here stateIn).on disk = (.ok (⟨path, text⟩, resumed), disk) ∧
      Machine.Resumed Environment.standard.keys m resumed := by
  obtain ⟨s, taken, file⟩ := saved.file
  obtain ⟨resumed, accepted, result⟩ := resume_setup ready taken parsed
  have joined : Path.join here path = path := by simp [Path.join, absolute]
  have shallow : (SavedRun.toJson ⟨path, s⟩).nesting ≤ Json.depthLimit := by
    rw [SavedRun.nesting_toJson]
    exact storable.shallow s (by simp [taken, Except.toOption])
  have taken : (Agent.takeUp here stateIn).on disk = _ :=
    on_takeUp_of file (SavedRun.ofText_write (storable.faithful taken) shallow)
      (by rw [joined, found]) parsed accepted
  rw [joined] at taken
  exact ⟨resumed, taken, result⟩

theorem isSuspended_ofMachine (m : Machine) :
    (BoundaryKind.ofMachine m).isSuspended = m.phase.isSuspended := by
  unfold BoundaryKind.ofMachine
  cases m.phase with
  | playing => dsimp only; split <;> rfl
  | _ => rfl

theorem kind_collect (m : Machine) (signals : List Signal) :
    (Boundary.collect m signals).kind.isSuspended = m.phase.isSuspended :=
  isSuspended_ofMachine m

theorem on_settle_parked {m : Machine} (taken : m.snapshot = .ok s)
    (written : disk.write stateOut (SavedRun.toJson ⟨path, s⟩).write = (changed, done)) :
    (Agent.settle path stateOut m signals).on disk =
      (if done then .ok ⟨Boundary.collect m signals, some stateOut⟩ else .error .stateUnwritable,
        changed) := by
  have suspended := (Machine.snapshot_eq_ok taken).1
  unfold Agent.settle SavedRun.save
  simp only [kind_collect, suspended, if_true]
  have kept : (ofStory m.snapshot).on disk = (.ok s, disk) := by rw [taken]; rfl
  rw [on_bind_ok kept, on_bind, on_save written]
  cases done <;> rfl

theorem on_settle_finished {m : Machine} (finished : m.phase.isSuspended = false) :
    (Agent.settle path stateOut m signals).on disk =
      (.ok ⟨Boundary.collect m signals, none⟩, disk) := by
  unfold Agent.settle
  simp only [kind_collect, finished]
  rfl

theorem report_of_settle
    (ran : (Agent.settle path stateOut m signals).on disk = (.ok report, after)) :
    report.boundary = Boundary.collect m signals ∧ ∀ told ∈ report.stateOut, told = stateOut := by
  unfold Agent.settle at ran
  dsimp only at ran
  split at ran
  · obtain ⟨s, mid, -, saved⟩ := FileTask.on_bind_eq_ok.1 ran
    obtain ⟨done, last, -, returned⟩ := FileTask.on_bind_eq_ok.1 saved
    cases returned
    exact ⟨rfl, fun told same => (Option.some.inj same).symm⟩
  · cases ran
    exact ⟨rfl, nofun⟩

-- The ways in which a command ends that has moved a machine to its next stop.
inductive Settles (path stateOut : String) (m : Machine) (signals : List Signal) (disk : Disk) :
    Except ConsoleError Agent.Report → Disk → Prop where
  | saved (parked : m.phase.isSuspended = true) (next : SavedAt path m stateOut after) :
      Settles path stateOut m signals disk
        (.ok ⟨Boundary.collect m signals, some stateOut⟩) after
  | unsaved (here : after.tree.isDirectoryAt after.here = true)
      (kept : ∀ stateIn text, disk.look stateIn = .text text → after.look stateIn = .text text) :
      Settles path stateOut m signals disk (.error .stateUnwritable) after
  | finished (gone : m.phase.isSuspended = false) :
      Settles path stateOut m signals disk (.ok ⟨Boundary.collect m signals, none⟩) disk

theorem settles (m : Machine) (signals : List Signal) (path stateOut : String)
    (here : disk.tree.isDirectoryAt disk.here = true) :
    ∃ result after, (Agent.settle path stateOut m signals).on disk = (result, after) ∧
      Settles path stateOut m signals disk result after := by
  cases suspended : m.phase.isSuspended with
  | false => exact ⟨_, _, on_settle_finished suspended, .finished suspended⟩
  | true =>
    obtain ⟨s, taken⟩ : ∃ s, m.snapshot = .ok s := by simp [Machine.snapshot, suspended]
    cases written : disk.write stateOut (SavedRun.toJson ⟨path, s⟩).write with
    | mk changed done =>
      have ends : (Agent.settle path stateOut m signals).on disk = _ :=
        on_settle_parked taken written
      have still := Disk.isDirectoryAt_here_write here written
      cases done with
      | true => exact ⟨_, _, ends, .saved suspended ⟨still, s, taken, Disk.look_write here written⟩⟩
      | false =>
        exact ⟨_, _, ends, .unsaved still fun _ _ found => Disk.look_of_failed here written found⟩

-- The past of a machine at rest shows in nothing but the fault of its stop.
theorem collect_withPast {m : Machine} (resting : Machine.Resting keys m) (past : Past)
    (signals : List Signal) :
    Boundary.collect (m.withPast past) signals =
      { Boundary.collect m signals with fault := m.lastFault.or past.fault } := by
  have stalled := Machine.isStalled_withPast resting past
  have kind : BoundaryKind.ofMachine (m.withPast past) = BoundaryKind.ofMachine m := by
    unfold BoundaryKind.ofMachine
    rw [stalled]
    rfl
  unfold Boundary.collect
  rw [kind]
  rfl

end VisualNovel

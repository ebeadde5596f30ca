import VisualNovel.Proofs.Console.Redraw

namespace VisualNovel

open Machine

-- Stores that are read again from a file in which they stand so many levels deep.
structure Reloadable (globals locals : ValueMap) (levels : Nat) : Prop where
  globalsFinite : globals.Finite
  localsFinite : locals.Finite
  globalsShallow : globals.toJson.nesting + levels ≤ Json.depthLimit
  localsShallow : locals.toJson.nesting + levels ≤ Json.depthLimit

instance (globals locals : ValueMap) (levels : Nat) : Decidable (Reloadable globals locals levels) :=
  decidable_of_iff (globals.Finite ∧ locals.Finite ∧
      globals.toJson.nesting + levels ≤ Json.depthLimit ∧
      locals.toJson.nesting + levels ≤ Json.depthLimit)
    ⟨fun ⟨globals, locals, first, second⟩ => ⟨globals, locals, first, second⟩,
      fun ⟨globals, locals, first, second⟩ => ⟨globals, locals, first, second⟩⟩

variable {m : Machine} {s : Snapshot} {script : Script} {disk after : Disk} {player : Player}

theorem Snapshot.reread_cases (back : s.reread depth = some again) :
    ∃ globals locals, again = { s with globals, locals } := by
  unfold Snapshot.reread at back
  split at back
  · split at back
    · cases back
      exact ⟨_, _, rfl⟩
    · cases back
  · cases back

theorem reloadable_iff (globals locals : ValueMap) {levels depth : Nat}
    (fits : depth + levels = Json.depthLimit) :
    Reloadable globals locals levels ↔
      (∃ again, globals.reread depth = some again) ∧ ∃ again, locals.reread depth = some again := by
  rw [← Option.isSome_iff_exists, ← Option.isSome_iff_exists, ValueMap.isSome_reread,
    ValueMap.isSome_reread]
  constructor
  · intro reload
    have globalsShallow := reload.globalsShallow
    have localsShallow := reload.localsShallow
    exact ⟨⟨by omega, reload.globalsFinite⟩, by omega, reload.localsFinite⟩
  · rintro ⟨⟨globalsShallow, globals⟩, localsShallow, locals⟩
    exact ⟨globals, locals, by omega, by omega⟩

theorem Snapshot.isSome_reread (s : Snapshot) :
    (∃ again, s.reread 125 = some again) ↔
      s.cursor < Snapshot.wordLimit ∧ Reloadable s.globals s.locals 2 := by
  rw [reloadable_iff _ _ (show 125 + 2 = Json.depthLimit from rfl), Snapshot.reread]
  by_cases fits : s.cursor < Snapshot.wordLimit
  · cases s.globals.reread 125 <;> cases s.locals.reread 125 <;> simp [fits]
  · simp [fits]

theorem resume_result (m : Machine) (s : Snapshot) :
    (m.resume s).result =
      if s.schemaVersion ≠ Snapshot.schema then .error (.snapshotSchema s.schemaVersion)
      else if m.fits s = false then .error (.snapshotCursor s.cursor s.phase)
      else match m.stores.environment.setAll s.environment.toList with
        | .error key => .error (.unknownEnvironmentKey key)
        | .ok _ => .ok () := by
  unfold Machine.resume
  by_cases schema : s.schemaVersion = Snapshot.schema
  · cases fits : m.fits s with
    | false => simp [schema]
    | true =>
      cases set : m.stores.environment.setAll s.environment.toList <;> simp [schema, shown]
  · simp [schema]

theorem resume_withStores (m : Machine) (s : Snapshot) (globals locals : ValueMap) :
    (m.resume { s with globals, locals }).result = (m.resume s).result := by
  rw [resume_result, resume_result]
  rfl

theorem setup_resume (accepted : (Setup.standard.resume text s).result = .ok m)
    (globals locals : ValueMap) :
    ∃ other, (Setup.standard.resume text { s with globals, locals }).result = .ok other := by
  unfold Setup.resume at accepted ⊢
  split at accepted
  · cases accepted
  · rename_i script parsed
    dsimp only [Setup.outcome] at accepted ⊢
    rw [resume_withStores]
    cases result : Reply.result _ with
    | error error => rw [result] at accepted; cases accepted
    | ok done => exact ⟨_, rfl⟩

theorem on_loadState {ofText : String → Except ConsoleError α} (found : disk.look path = .text text) :
    (loadState ofText path).on disk = (ofText text, disk) := by
  unfold loadState
  rw [FileTask.on_bind_ok (FileTask.on_look _ _), found]
  rfl

theorem takeUp_of_saved (ready : Ready script m) (saved : SavedAt path m stateIn after)
    (absolute : Path.isAbsolute path = true) (found : after.look path = .text text)
    (parsed : Script.parse text = .ok script) :
    (∃ taken, (Agent.takeUp here stateIn).on after = (.ok taken, after)) ↔
      m.cursor < Snapshot.wordLimit ∧
        Reloadable m.stores.globals m.stores.locals.toMap 2 := by
  obtain ⟨s, taken, file⟩ := saved.file
  have read := SavedRun.ofText_write_eq ⟨path, s⟩
  have stores : s.cursor < Snapshot.wordLimit ∧ Reloadable s.globals s.locals 2 ↔
      m.cursor < Snapshot.wordLimit ∧ Reloadable m.stores.globals m.stores.locals.toMap 2 := by
    obtain ⟨-, rfl⟩ := snapshot_eq_ok taken
    exact Iff.rfl
  rw [← stores, ← Snapshot.isSome_reread]
  constructor
  · rintro ⟨again, took⟩
    unfold Agent.takeUp at took
    obtain ⟨run, loaded, -⟩ := (silent_loadState _ stateIn).looks.bind_eq_ok took
    have answered : (loadState SavedRun.ofText stateIn).on after = _ := on_loadState file
    cases back : s.reread 125 with
    | some again => exact ⟨again, rfl⟩
    | none =>
      rw [answered, read, back] at loaded
      cases loaded
  · rintro ⟨again, back⟩
    rw [back] at read
    obtain ⟨resumed, accepted, -⟩ := resume_setup ready taken parsed
    obtain ⟨globals, locals, rfl⟩ := Snapshot.reread_cases back
    obtain ⟨other, takes⟩ := setup_resume accepted globals locals
    have joined : Path.join here path = path := by simp [Path.join, absolute]
    exact ⟨_, on_takeUp_of file read (by rw [joined, found]) parsed takes⟩

theorem savedAt_of_settle (there : disk.tree.isDirectoryAt disk.here = true)
    (settled : (Agent.settle path stateOut m signals).on disk =
      (.ok ⟨boundary, some stateIn⟩, after)) :
    stateIn = stateOut ∧ SavedAt path m stateIn after := by
  obtain ⟨result, left, ran, settles⟩ := settles m signals path stateOut there
  rw [ran] at settled
  cases settles with
  | saved parked next => cases settled; exact ⟨rfl, next⟩
  | unsaved still kept => cases settled
  | finished gone => cases settled

def Player.stores (player : Player) : SavedStores :=
  ⟨player.machine.stores.globals, player.machine.stores.locals.toMap⟩

theorem on_saveStores {stores : SavedStores}
    (written : disk.write path stores.toJson.write = (changed, done)) :
    (SavedStores.save path stores).run.runOn disk =
      (if done then .ok () else .error .stateUnwritable, changed) := by
  change (FileTask.save path stores.toJson).on disk = _
  rw [FileTask.on_save written]

theorem saved_of_keep (there : disk.tree.isDirectoryAt disk.here = true)
    (kept : player.keep.runOn disk = (turn, after)) (reports : .saved path ∈ turn.shown) :
    after.look path = .text player.stores.toJson.write := by
  cases written : disk.write player.saveFile player.stores.toJson.write with
  | mk changed done =>
  unfold Player.keep at kept
  rw [FileProgram.runOn_bind, ← Player.stores, on_saveStores written] at kept
  cases done with
  | true =>
    cases kept
    have same : path = player.saveFile := by simpa [Player.stay] using reports
    rw [same]
    exact Disk.look_write there written
  | false =>
    cases kept
    simp [Player.fail] at reports

theorem saved_of_feed (there : disk.tree.isDirectoryAt disk.here = true)
    (asks : PlayCommand.ofWords? (Text.words line) = some .save)
    (fed : (player.feed budget (.text line)).runOn disk = (some turn, after))
    (reports : .saved path ∈ turn.shown) :
    after.look path = .text player.stores.toJson.write := by
  unfold Player.feed at fed
  simp only [asks] at fed
  rw [Player.obey_save, Prod.mk.injEq, Option.some.injEq] at fed
  exact saved_of_keep there (Prod.ext fed.1 fed.2) reports

theorem SavedStores.reread_iff (stores : SavedStores) (again : SavedStores) :
    SavedStores.ofText stores.toJson.write = .ok again ↔
      stores.globals.reread 126 = some again.globals ∧
        stores.locals.reread 126 = some again.locals := by
  rw [SavedStores.ofText_write_eq]
  obtain ⟨globals, locals⟩ := again
  cases stores.globals.reread 126 <;> cases stores.locals.reread 126 <;> simp

theorem load_of_saved (stores : SavedStores)
    (file : after.look path = .text stores.toJson.write) :
    ((∃ loaded, (SavedStores.load path).on after = (.ok loaded, after)) ↔
      Reloadable stores.globals stores.locals 1) ∧
    ((SavedStores.load path).on after = (.ok stores, after) ↔
      Reloadable stores.globals stores.locals 1 ∧ stores.globals.Faithful ∧
        stores.locals.Faithful) := by
  have answered : (loadState SavedStores.ofText path).on after = _ := on_loadState file
  have loads (again : SavedStores) :
      (SavedStores.load path).on after = (.ok again, after) ↔
        stores.globals.reread 126 = some again.globals ∧
          stores.locals.reread 126 = some again.locals := by
    rw [SavedStores.load, answered, Prod.mk.injEq, SavedStores.reread_iff, and_iff_left rfl]
  have reload := reloadable_iff stores.globals stores.locals
    (show 126 + 1 = Json.depthLimit from rfl)
  refine ⟨?_, ?_⟩
  · rw [reload]
    constructor
    · rintro ⟨again, loaded⟩
      have both := (loads again).1 loaded
      exact ⟨⟨_, both.1⟩, _, both.2⟩
    · rintro ⟨⟨globals, first⟩, locals, second⟩
      exact ⟨⟨globals, locals⟩, (loads ⟨globals, locals⟩).2 ⟨first, second⟩⟩
  · rw [loads, reload]
    constructor
    · rintro ⟨first, second⟩
      exact ⟨⟨⟨_, first⟩, _, second⟩, (ValueMap.reread_eq_self _).1 first |>.2,
        (ValueMap.reread_eq_self _).1 second |>.2⟩
    · rintro ⟨both, globals, locals⟩
      have shallow := reload.2 both
      exact ⟨(ValueMap.reread_eq_self _).2 ⟨Nat.le_of_succ_le_succ shallow.globalsShallow, globals⟩,
        (ValueMap.reread_eq_self _).2 ⟨Nat.le_of_succ_le_succ shallow.localsShallow, locals⟩⟩

theorem takeUp_iff (absolute : Path.isAbsolute here = true)
    (there : disk.tree.isDirectoryAt disk.here = true)
    (ran : (Agent.run budget here command).on disk = (.ok (some ⟨boundary, some path⟩), after)) :
    path = command.stateOut ∧ ∃ played reply,
      Agent.Leaves budget here disk command played reply ∧
      (after.look played.path = disk.look played.path →
        ((∃ taken, (Agent.takeUp here path).on after = (.ok taken, after)) ↔
          reply.machine.cursor < Snapshot.wordLimit ∧
            Reloadable reply.machine.stores.globals reply.machine.stores.locals.toMap 2)) := by
  obtain ⟨played, reply, leaves, settled⟩ := Agent.leaves_of_run ran
  obtain ⟨script, parsed, ready⟩ := leaves.ready
  obtain ⟨same, saved⟩ := savedAt_of_settle there settled
  refine ⟨same, played, reply, leaves, fun unchanged => ?_⟩
  obtain ⟨name, loaded⟩ := leaves.loaded
  obtain ⟨joined, found⟩ := played_of_loadScript loaded
  have absolutePath : Path.isAbsolute played.path = true :=
    joined ▸ Path.isAbsolute_join absolute name
  exact takeUp_of_saved ready saved absolutePath (unchanged.trans found) parsed

-- A command that prints a file has left its run there, and a command can go on from it, if the place
-- fits a word and the stores are reloadable. What `:save` reports as saved can be loaded under the
-- same condition, and is then the same stores if their numbers are faithful.
theorem saved_loads_iff (budget : Nat) (disk after : Disk) (path : String)
    (there : disk.tree.isDirectoryAt disk.here = true) :
    (∀ (here : String) (command : AgentCommand) (boundary : Boundary),
      Path.isAbsolute here = true →
      (Agent.run budget here command).on disk = (.ok (some ⟨boundary, some path⟩), after) →
        path = command.stateOut ∧ ∃ played reply,
          Agent.Leaves budget here disk command played reply ∧
          (after.look played.path = disk.look played.path →
            ((∃ taken, (Agent.takeUp here path).on after = (.ok taken, after)) ↔
              reply.machine.cursor < Snapshot.wordLimit ∧
                Reloadable reply.machine.stores.globals reply.machine.stores.locals.toMap 2))) ∧
    ∀ (player : Player) (line : String) (turn : Turn),
      PlayCommand.ofWords? (Text.words line) = some .save →
      (player.feed budget (.text line)).runOn disk = (some turn, after) →
      .saved path ∈ turn.shown →
        ((∃ loaded, (SavedStores.load path).on after = (.ok loaded, after)) ↔
          Reloadable player.stores.globals player.stores.locals 1) ∧
        ((SavedStores.load path).on after = (.ok player.stores, after) ↔
          Reloadable player.stores.globals player.stores.locals 1 ∧
            player.stores.globals.Faithful ∧ player.stores.locals.Faithful) := by
  constructor
  · intro here command boundary absolute ran
    exact takeUp_iff absolute there ran
  · intro player line turn asks fed reports
    exact load_of_saved player.stores (saved_of_feed there asks fed reports)

-- A story of one line, before which a number is kept.
def keepingDisk (number : String) : Disk :=
  ⟨.directory [("w", .directory [("s", .file (.text ("[\x7b\"type\":\"meta\"," ++
    "\"action\":\"create_global\",\"var\":\"x\",\"init\":" ++ number ++
    "\x7d,\x7b\"type\":\"dialogue\"\x7d]")))])], ["w"]⟩

-- A player that saves at its first stop, with the disk before it, its turn and the disk after it.
def savingPlayer? (disk : Disk) : Option (Player × Disk × Turn × Disk) :=
  match (Player.begin 9 "/w" ⟨"s", none, none⟩).runOn disk with
  | (some ⟨_, _, .ready player⟩, before) =>
    match (player.feed 9 (.text ":save\n")).runOn before with
    | (some turn, after) => some (player, before, turn, after)
    | (none, _) => none
  | _ => none

theorem feed_of_savingPlayer? (saves : savingPlayer? disk = some (player, before, turn, after)) :
    (player.feed 9 (.text ":save\n")).runOn before = (some turn, after) := by
  unfold savingPlayer? at saves
  split at saves
  · split at saves
    · rename_i fed
      cases saves
      exact fed
    · cases saves
  · cases saves

theorem saved_loads_at_small_number :
    (∃ after taken, (Agent.run 9 "/w" (.start (numberOptions "1.5"))).on numberDisk =
        (.ok (some ⟨numberBoundary "1.5", some "a"⟩), after) ∧
      (Agent.takeUp "/w" "a").on after = (.ok taken, after)) ∧
    ∃ player before turn after, savingPlayer? (keepingDisk "1.5") =
        some (player, before, turn, after) ∧ player.stores.globals.toList = [("x", .number 1.5)] ∧
      (SavedStores.load player.saveFile).on after = (.ok player.stores, after) := by
  constructor
  · obtain ⟨first, kept⟩ : ((Agent.run 9 "/w" (.start (numberOptions "1.5"))).on numberDisk).1 =
          .ok (some ⟨numberBoundary "1.5", some "a"⟩) ∧
        ((Agent.run 9 "/w" (.start (numberOptions "1.5"))).on numberDisk).2.look "/w/s" =
          numberDisk.look "/w/s" := by decide +kernel
    have reloadable : ∀ outcome ∈ ((engine 9 "/w" (numberOptions "1.5")).on numberDisk).1.toOption,
        ∀ reply ∈ outcome, reply.machine.cursor < Snapshot.wordLimit ∧
          Reloadable reply.machine.stores.globals reply.machine.stores.locals.toMap 2 := by
      decide +kernel
    have script : Path.join "/w" "s" = "/w/s" := by decide +kernel
    generalize ran : (Agent.run 9 "/w" (.start (numberOptions "1.5"))).on numberDisk =
      started at first kept
    obtain ⟨result, after⟩ := started
    dsimp only at first kept
    subst first
    obtain ⟨-, played, reply, leaves, iff⟩ :=
      (saved_loads_iff 9 _ _ _ (by decide)).1 "/w" _ _ (by decide) ran
    obtain ⟨loaded, engineRan⟩ := leaves.of_start
    have path : played.path = "/w/s" := (played_of_loadScript loaded).1.trans script
    rw [path] at iff
    rw [engineRan] at reloadable
    obtain ⟨taken, takes⟩ := (iff kept).2 (reloadable _ rfl _ rfl)
    exact ⟨after, taken, rfl, takes⟩
  · have saves : (savingPlayer? (keepingDisk "1.5")).any (fun (player, before, turn, after) =>
        before.tree.isDirectoryAt before.here && .saved player.saveFile ∈ turn.shown &&
          player.stores.globals.toList = [("x", .number 1.5)] &&
          (Reloadable player.stores.globals player.stores.locals 1 ∧
            player.stores.globals.Faithful ∧ player.stores.locals.Faithful)) = true := by
      decide +kernel
    generalize saved : savingPlayer? (keepingDisk "1.5") = found at saves
    obtain ⟨⟨player, before, turn, after⟩, rfl, checks⟩ := (Option.any_eq_true ..).1 saves
    simp only [Bool.and_eq_true, decide_eq_true_eq] at checks
    obtain ⟨⟨⟨there, reports⟩, stores⟩, keeps⟩ := checks
    have loads := (saved_loads_iff 9 before after player.saveFile there).2 player ":save\n" turn
      (by decide +kernel) (feed_of_savingPlayer? saved) reports
    exact ⟨player, before, turn, after, rfl, stores, loads.2.2 keeps⟩

def growingDisk : Disk :=
  ⟨.directory [("w", .directory [("s", .file (.text ("[\x7b\"type\":\"modify_global\"," ++
    "\"action\":\"increment_var\",\"var\":\"x\",\"value\":1e308\x7d,\x7b\"type\":\"dialogue\"\x7d]")))])],
    ["w"]⟩

-- A number that has grown beyond the doubles is saved and then refused. A finite number is loaded as
-- the one next to it.
theorem saved_but_lost :
    (∃ after, (Agent.run 9 "/w" (.start (numberOptions "1e308"))).on growingDisk =
        (.ok (some ⟨numberBoundary "", some "a"⟩), after) ∧
      after.look "/w/s" = growingDisk.look "/w/s" ∧
      ∀ taken, (Agent.takeUp "/w" "a").on after ≠ (.ok taken, after)) ∧
    ∃ player before turn after, savingPlayer? (keepingDisk "5e32") =
        some (player, before, turn, after) ∧ .saved player.saveFile ∈ turn.shown ∧
      (SavedStores.load player.saveFile).on after ≠ (.ok player.stores, after) := by
  constructor
  · obtain ⟨first, kept⟩ : ((Agent.run 9 "/w" (.start (numberOptions "1e308"))).on growingDisk).1 =
          .ok (some ⟨numberBoundary "", some "a"⟩) ∧
        ((Agent.run 9 "/w" (.start (numberOptions "1e308"))).on growingDisk).2.look "/w/s" =
          growingDisk.look "/w/s" := by decide +kernel
    have infinite : ∀ outcome ∈ ((engine 9 "/w" (numberOptions "1e308")).on growingDisk).1.toOption,
        ∀ reply ∈ outcome, ¬ reply.machine.stores.globals.Finite := by
      decide +kernel
    have script : Path.join "/w" "s" = "/w/s" := by decide +kernel
    generalize ran : (Agent.run 9 "/w" (.start (numberOptions "1e308"))).on growingDisk =
      started at first kept
    obtain ⟨result, after⟩ := started
    dsimp only at first kept
    subst first
    refine ⟨after, rfl, kept, fun taken takes => ?_⟩
    obtain ⟨-, played, reply, leaves, iff⟩ := takeUp_iff (by decide) (by decide) ran
    obtain ⟨loaded, engineRan⟩ := leaves.of_start
    have path : played.path = "/w/s" := (played_of_loadScript loaded).1.trans script
    rw [path] at iff
    rw [engineRan] at infinite
    exact infinite _ rfl _ rfl ((iff kept).1 ⟨taken, takes⟩).2.globalsFinite
  · have saves : (savingPlayer? (keepingDisk "5e32")).any (fun (player, before, turn, _) =>
        before.tree.isDirectoryAt before.here && .saved player.saveFile ∈ turn.shown &&
          ¬ player.stores.globals.Faithful) = true := by
      decide +kernel
    generalize saved : savingPlayer? (keepingDisk "5e32") = found at saves
    obtain ⟨⟨player, before, turn, after⟩, rfl, checks⟩ := (Option.any_eq_true ..).1 saves
    simp only [Bool.and_eq_true, decide_eq_true_eq] at checks
    obtain ⟨⟨there, reports⟩, unfaithful⟩ := checks
    refine ⟨player, before, turn, after, rfl, reports, fun loads => unfaithful ?_⟩
    have file := saved_of_feed there (by decide +kernel) (feed_of_savingPlayer? saved) reports
    exact ((load_of_saved player.stores file).2.1 loads).2.1

end VisualNovel

import VisualNovel.Proofs.Console.Redraw

namespace VisualNovel

open Machine

def Shown.isAside : Shown → Bool
  | .event _ => false
  | .prompt => false
  | _ => true

namespace InputLine

def command? : InputLine → Option PlayCommand
  | .text typed => PlayCommand.ofWords? (Text.words typed)
  | .notText => none

def plain? : InputLine → Option String
  | .text typed =>
    if PlayCommand.ofWords? (Text.words typed) = none then some (Text.trim typed) else none
  | .notText => none

theorem plain?_of_command {line : InputLine} (asked : line.command? = some command) :
    line.plain? = none := by
  cases line with
  | notText => rfl
  | text typed =>
    refine if_neg fun plain => ?_
    rw [command?, plain] at asked
    cases asked

end InputLine

-- A drive of a machine, with what a player shows before the story goes on there, and what the
-- machine has emitted by then.
structure Errand where
  machine : Machine
  drive : Drive
  before : List Shown
  led : List Signal

namespace Errand

def anew (script : Script) (globals locals : ValueMap) (label : Option String)
    (before : List Shown) : Errand :=
  let loaded := (Machine.new none none none).load script globals locals
  ⟨loaded.machine, .start label, before, loaded.signals⟩

def turn (errand : Errand) (player : Player) (reply : Reply Unit) : Turn :=
  player.refresh errand.before reply.machine (errand.led ++ reply.signals)

end Errand

namespace Player

def picked? (player : Player) (line : InputLine) : Option String :=
  line.plain?.bind fun typed =>
    if player.boundary.kind = .choice then resolveChoice typed player.boundary.options else none

-- The drives that a line asks for.
inductive Asks (script : Script) (player : Player) (disk : Disk) (line : InputLine) :
    Errand → Prop where
  | advance (plain : line.plain? = some typed) (atLine : player.boundary.kind = .say) :
      Asks script player disk line ⟨player.machine, .advance, [], []⟩
  | choose (picked : player.picked? line = some label) :
      Asks script player disk line ⟨player.machine, .choose label, [], []⟩
  | restart (asked : line.command? = some .restart) :
      Asks script player disk line
        (.anew script player.machine.stores.globals .empty player.startLabel [.restarted])
  | load (asked : line.command? = some .load)
      (held : (SavedStores.load player.saveFile).on disk = (.ok saved, disk)) :
      Asks script player disk line
        (.anew script saved.globals saved.locals none [.loaded player.saveFile])

inductive Idles (player : Player) (line : InputLine) : Turn → Prop where
  | stays {items : List Shown} (other : line.command? ≠ some .restart)
      (unpicked : player.picked? line = none) (aside : ∀ item ∈ items, item.isAside = true) :
      Idles player line (player.stay items [])
  | leaves {items : List Shown} (other : line.command? ≠ some .restart)
      (unpicked : player.picked? line = none) (aside : ∀ item ∈ items, item.isAside = true) :
      Idles player line ⟨items, [], .finished code⟩
  | flags (asked : line.command? = some (.env (some key) (some value))) :
      Idles player line (player.setFlag key value)

-- What a line does, whatever the budget: it idles, or asks for one drive and does as that does.
def Does (script : Script) (player : Player) (disk : Disk) (line : InputLine) : Prop :=
  (∃ turn after, player.Idles line turn ∧
    ∀ budget, (player.feed budget line).runOn disk = (some turn, after)) ∨
  ∃ errand, player.Asks script disk line errand ∧ ∀ budget,
    (player.feed budget line).runOn disk =
      ((errand.drive.on budget errand.machine).map (errand.turn player), disk)

-- A player of a loaded script, at a stop of it.
structure Seated (options : PlayOptions) (played : LoadedScript) (script : Script)
    (player : Player) : Prop extends Faces player where
  own : player.script = played
  saveFile : player.saveFile = options.saveFile.getD standardSaveFile
  startLabel : player.startLabel = options.startLabel
  plays : Plays script none player.machine
  atLine : player.boundary.kind = .say → player.machine.phase = .waiting
  atChoice : player.boundary.kind = .choice → player.machine.phase = .choice

end Player

namespace Drive

variable {m : Machine} {script : Script}

theorem ready_on (drive : Drive) (ready : Ready script m)
    (returned : drive.on budget m = some reply) : Ready script reply.machine :=
  ⟨ready.resting.on drive returned, ready.plays.on drive returned⟩

end Drive

namespace Player

variable {options : PlayOptions} {played : LoadedScript} {script : Script} {player : Player}
  {disk : Disk} {line : InputLine} {turn : Turn}

theorem picked?_of_command (player : Player) (asked : line.command? = some command) :
    player.picked? line = none := by
  rw [picked?, InputLine.plain?_of_command asked]
  rfl

theorem picked?_of_atLine (atLine : player.boundary.kind = .say) : player.picked? line = none := by
  simp [picked?, atLine]

theorem kind_of_picked? (picked : player.picked? line = some label) :
    player.boundary.kind = .choice := by
  obtain ⟨typed, plain, resolved⟩ := Option.bind_eq_some_iff.1 picked
  split at resolved
  · assumption
  · cases resolved

theorem ready_anew (script : Script) (globals locals : ValueMap) (label : Option String)
    (items : List Shown) :
    Ready script (Errand.anew script globals locals label items).machine := by
  have blank : Resting ((none : Option Environment).getD .standard).keys
      (Machine.new none none none) := resting_new
  exact ⟨blank.load script globals locals, rfl, rfl⟩

theorem Seated.ready (seated : player.Seated options played script) :
    Ready script player.machine := ⟨seated.resting, seated.plays⟩

theorem Asks.ready (asks : player.Asks script disk line errand)
    (seated : player.Seated options played script) : Ready script errand.machine := by
  cases asks with
  | advance => exact seated.ready
  | choose => exact seated.ready
  | restart => exact ready_anew ..
  | load => exact ready_anew ..

theorem create_anew (parsed : Script.parse text = .ok script) (globals locals : Option ValueMap)
    (label : Option String) (items : List Shown) (budget : Nat) :
    let errand := Errand.anew script (globals.getD .empty) (locals.getD .empty) label items
    Setup.create budget ⟨globals, locals, none, none, true, label, false, none⟩ text =
      (errand.drive.on budget errand.machine).map fun reply =>
        ⟨errand.led ++ reply.signals, .ok reply.machine⟩ := by
  intro errand
  unfold Setup.create
  simp only [scriptOf_lenient parsed]
  change (errand.drive.on budget errand.machine).map (Setup.outcome errand.led) = _
  cases started : errand.drive.on budget errand.machine with
  | none => rfl
  | some reply =>
    have accepted := (ready_anew ..).plays.result_on _ started
    simp only [Option.map_some, Setup.outcome, accepted]
    rfl

theorem renew_anew (parsed : Script.parse player.script.text = .ok script)
    (globals locals : Option ValueMap) (label : Option String) (items : List Shown) (budget : Nat) :
    let errand := Errand.anew script (globals.getD .empty) (locals.getD .empty) label items
    player.renew budget ⟨globals, locals, none, none, true, label, false, none⟩ items =
      (errand.drive.on budget errand.machine).map (errand.turn player) := by
  intro errand
  unfold Player.renew
  rw [create_anew parsed globals locals label items, Option.map_map]
  rfl

theorem feed_command (asked : PlayCommand.ofWords? (Text.words typed) = some command)
    (budget : Nat) : player.feed budget (.text typed) = player.obey budget command := by
  simp only [feed, asked]

theorem idles_keep (asked : line.command? = some .save) (disk : Disk) :
    player.Idles line (player.keep.runOn disk).1 := by
  have other : line.command? ≠ some .restart := by simp [asked]
  unfold keep
  rw [FileProgram.runOn_bind]
  generalize FileProgram.runOn disk _ = saved
  obtain ⟨result, after⟩ := saved
  cases result with
  | ok done => exact .stays other (player.picked?_of_command asked) (by simp [Shown.isAside])
  | error error => exact .leaves other (player.picked?_of_command asked) (by simp [Shown.isAside])

theorem does_load (parsed : Script.parse player.script.text = .ok script)
    (asked : PlayCommand.ofWords? (Text.words typed) = some .load) (disk : Disk) :
    player.Does script disk (.text typed) := by
  have obeys (budget : Nat) :
      (player.feed budget (.text typed)).runOn disk = (player.takeBack budget).runOn disk := by
    rw [feed_command asked]
    rfl
  have looks := (silent_loadState SavedStores.ofText player.saveFile).looks disk
  cases held : (SavedStores.load player.saveFile).on disk with
  | mk result after =>
    obtain rfl : after = disk := by
      have same : ((SavedStores.load player.saveFile).on disk).2 = disk := looks
      rwa [held] at same
    have ran : (SavedStores.load player.saveFile).run.runOn after = (result, after) := held
    cases result with
    | error error =>
      refine .inl ⟨fail [] [] error, after, ?_, fun budget => ?_⟩
      · exact .leaves (by simp [InputLine.command?, asked]) (player.picked?_of_command asked)
          (by simp [Shown.isAside])
      · rw [obeys, takeBack, FileProgram.runOn_bind, ran]
        rfl
    | ok stores =>
      refine .inr ⟨_, .load asked held, fun budget => ?_⟩
      rw [obeys, takeBack, FileProgram.runOn_bind, ran]
      exact congrArg (·, after) (renew_anew parsed (some stores.globals) (some stores.locals) none
        [.loaded player.saveFile] budget)

theorem does_idle (asked : PlayCommand.ofWords? (Text.words typed) = some command)
    (obeyed : ∀ budget, (player.obey budget command).runOn disk = (some turn, after))
    (idles : player.Idles (.text typed) turn) : player.Does script disk (.text typed) := by
  refine .inl ⟨turn, after, idles, fun budget => ?_⟩
  rw [feed_command asked]
  exact obeyed budget

theorem does_command (parsed : Script.parse player.script.text = .ok script)
    (asked : PlayCommand.ofWords? (Text.words typed) = some command) (disk : Disk) :
    player.Does script disk (.text typed) := by
  have known : InputLine.command? (.text typed) = some command := asked
  have unpicked := player.picked?_of_command known
  have aside (other : command ≠ .restart) (item : Shown) (own : item.isAside = true) :
      player.Idles (.text typed) (player.stay [item] []) :=
    .stays (by simpa [InputLine.command?, asked] using other) unpicked (by simpa using own)
  cases command with
  | help => exact does_idle asked (fun budget => rfl) (aside nofun .help rfl)
  | stores => exact does_idle asked (fun budget => rfl) (aside nofun (.stores ..) rfl)
  | quit =>
    refine does_idle asked (fun budget => rfl) ?_
    exact .leaves (by simp [InputLine.command?, asked]) unpicked (by simp [Shown.isAside])
  | save =>
    exact does_idle asked (fun budget => obey_save player budget disk)
      (idles_keep known disk)
  | load => exact does_load parsed asked disk
  | restart =>
    refine .inr ⟨_, .restart asked, fun budget => ?_⟩
    rw [feed_command asked]
    exact congrArg (·, disk) (renew_anew parsed (some player.machine.stores.globals) none
      player.startLabel [.restarted] budget)
  | env key value =>
    match key, value with
    | some key, some value => exact does_idle asked (fun budget => rfl) (.flags asked)
    | none, _ => exact does_idle asked (fun budget => rfl) (aside nofun .flagUsage rfl)
    | some _, none => exact does_idle asked (fun budget => rfl) (aside nofun .flagUsage rfl)

theorem map_moved (drive : Drive) (ready : Ready script player.machine) (budget : Nat) :
    (drive.on budget player.machine).map player.moved =
      (drive.on budget player.machine).map
        (Errand.turn ⟨player.machine, drive, [], []⟩ player) := by
  cases ran : drive.on budget player.machine with
  | none => rfl
  | some reply =>
    have accepted := ready.plays.result_on drive ran
    simp only [Option.map_some, moved, accepted]
    rfl

theorem does_typed (seated : player.Seated options played script)
    (unasked : PlayCommand.ofWords? (Text.words typed) = none) (disk : Disk) :
    player.Does script disk (.text typed) := by
  have plain : InputLine.plain? (.text typed) = some (Text.trim typed) := if_pos unasked
  have fed (budget : Nat) : (player.feed budget (.text typed)).runOn disk =
      (player.continueWith budget (Text.trim typed), disk) := by
    simp only [feed, unasked]
    rfl
  have aside (unpicked : player.picked? (.text typed) = none) (item : Shown)
      (own : item.isAside = true) : player.Idles (.text typed) (player.stay [item] []) :=
    .stays (by simp [InputLine.command?, unasked]) unpicked (by simpa using own)
  cases kind : player.boundary.kind with
  | say =>
    refine .inr ⟨_, .advance plain kind, fun budget => ?_⟩
    rw [fed, continueWith, kind]
    exact congrArg (·, disk) (map_moved .advance seated.ready budget)
  | choice =>
    have picks : player.picked? (.text typed) =
        resolveChoice (Text.trim typed) player.boundary.options := by
      simp [picked?, plain, kind]
    cases picked : resolveChoice (Text.trim typed) player.boundary.options with
    | none =>
      refine .inl ⟨_, disk, aside (picks.trans picked) (.unknownChoice (Text.trim typed)) rfl,
        fun budget => ?_⟩
      rw [fed, continueWith, kind]
      simp only [picked]
    | some label =>
      refine .inr ⟨_, .choose (picks.trans picked), fun budget => ?_⟩
      rw [fed, continueWith, kind]
      simp only [picked]
      exact congrArg (·, disk) (map_moved (.choose label) seated.ready budget)
  | _ =>
    have unpicked : player.picked? (.text typed) = none := by simp [picked?, plain, kind]
    refine .inl ⟨_, disk, aside unpicked .stuck rfl, fun budget => ?_⟩
    rw [fed, continueWith, kind]

theorem Seated.does (seated : player.Seated options played script)
    (parsed : Script.parse played.text = .ok script) (disk : Disk) (line : InputLine) :
    player.Does script disk line := by
  cases line with
  | notText =>
    refine .inl ⟨fail [] [] .inputUnreadable, disk, ?_, fun budget => rfl⟩
    exact .leaves nofun rfl (by simp [Shown.isAside])
  | text typed =>
    cases asked : PlayCommand.ofWords? (Text.words typed) with
    | some command => exact does_command (by rwa [seated.own]) asked disk
    | none => exact does_typed seated asked disk

end Player

end VisualNovel

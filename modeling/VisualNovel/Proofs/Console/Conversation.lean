import VisualNovel.Proofs.Console.Turns

namespace VisualNovel

-- A line with the player that was given it, the disk at that time, and the turn that answers it.
structure Exchange where
  disk : Disk
  player : Player
  line : InputLine
  turn : Turn

inductive Exchanges : Turn → List InputLine → Disk → List Exchange → Disk → Prop where
  | unasked : Exchanges turn [] disk [] disk
  | finished (ended : turn.next = .finished code) : Exchanges turn input disk [] disk
  | goesOn (ready : turn.next = .ready player)
      (fed : (player.feed budget line).runOn disk = (some next, mid))
      (further : Exchanges next rest mid more after) :
      Exchanges turn (line :: rest) disk (⟨disk, player, line, next⟩ :: more) after

-- The drives that lie ahead of a turn.
inductive Ahead (script : Script) : Turn → List InputLine → Disk → Errand → Prop where
  | here (ready : turn.next = .ready player) (asks : player.Asks script disk line errand) :
      Ahead script turn (line :: rest) disk errand
  | further (ready : turn.next = .ready player)
      (fed : (player.feed budget line).runOn disk = (some next, mid))
      (ahead : Ahead script next rest mid errand) : Ahead script turn (line :: rest) disk errand

namespace Player

def opening (options : PlayOptions) (played : LoadedScript) (script : Script) : Errand :=
  .anew script .empty .empty options.startLabel [.title played.title, .help]

def seat (options : PlayOptions) (played : LoadedScript) (m : Machine) : Player :=
  ⟨played, options.saveFile.getD standardSaveFile, options.startLabel, m, .collect m []⟩

end Player

-- The drives that a conversation asks for.
inductive Asked (options : PlayOptions) (played : LoadedScript) (script : Script)
    (input : List InputLine) (disk : Disk) : Errand → Prop where
  | opening : Asked options played script input disk (Player.opening options played script)
  | later (started : Player.start budget options played = some first)
      (ahead : Ahead script first input disk errand) :
      Asked options played script input disk errand

def Next.code : Next → Nat
  | .ready _ => 0
  | .finished code => code

def transcript (turn : Turn) : List Exchange → Transcript
  | [] => ⟨turn.shown, turn.signals, turn.next.code⟩
  | exchange :: more => .after turn (transcript exchange.turn more)

namespace Exchange

-- The choice that is shown again after an option whose label the script lacks.
def again (exchange : Exchange) : List Event :=
  if exchange.player.misses exchange.line then [.choice exchange.player.boundary.options] else []

structure Kept (options : PlayOptions) (script : Script) (exchange : Exchange) : Prop where
  answers : exchange.player.Answers script exchange.disk exchange.line exchange.turn
  missed : exchange.player.misses exchange.line = true →
    storyEvents exchange.turn.signals = [] ∧
      Machine.ParkedOn exchange.player.machine (.choice exchange.player.boundary.options)
        exchange.player.boundary.options
  undisturbed : ∀ command, exchange.line.command? = some command →
    command ≠ .restart ∧ command ≠ .load → ∀ next, exchange.turn.next = .ready next →
      Undisturbed exchange.player.machine next.machine
  restarted : exchange.line.command? = some .restart →
    let errand := Errand.anew script exchange.player.machine.stores.globals .empty
      options.startLabel [.restarted]
    ∃ units reply, errand.drive.Returns errand.machine units reply ∧
      exchange.turn = errand.turn exchange.player reply

end Exchange

variable {options : PlayOptions} {played : LoadedScript} {script : Script} {player : Player}
  {disk after : Disk} {line : InputLine} {turn first : Turn} {input : List InputLine}
  {exchanges : List Exchange}

theorem Player.Does.answers (does : player.Does script disk line)
    (fed : (player.feed budget line).runOn disk = (some turn, after)) :
    player.Answers script disk line turn ∧
      ∀ larger, budget ≤ larger → (player.feed larger line).runOn disk = (some turn, after) := by
  rcases does with ⟨own, left, idles, always⟩ | ⟨errand, asks, always⟩
  · have same := fed.symm.trans (always budget)
    cases same
    exact ⟨.idles idles, fun larger _ => always larger⟩
  · have ran := fed.symm.trans (always budget)
    obtain ⟨came, rfl⟩ := Prod.mk.inj ran
    obtain ⟨reply, returned, rfl⟩ := Option.map_eq_some_iff.1 came.symm
    obtain ⟨units, returns, enough⟩ := Drive.on_eq_some_iff.1 returned
    refine ⟨.drives asks returns, fun larger more => ?_⟩
    rw [always, returns.on_eq fun free => Nat.le_trans (enough free) more]
    rfl

def Turn.Seats (options : PlayOptions) (played : LoadedScript) (script : Script) (turn : Turn) :
    Prop := ∀ player, turn.next = .ready player → player.Seated options played script

theorem converse_nil (budget : Nat) (turn : Turn) (disk : Disk) :
    (converse budget turn []).runOn disk = (some (transcript turn []), disk) := by
  unfold converse transcript Next.code
  rfl

theorem converse_finished (ended : turn.next = .finished code) (budget : Nat)
    (input : List InputLine) (disk : Disk) :
    (converse budget turn input).runOn disk = (some (transcript turn []), disk) := by
  cases input with
  | nil => exact converse_nil budget turn disk
  | cons line rest =>
    unfold converse
    simp only [ended, transcript, Next.code]
    rfl

theorem converse_goesOn (ready : turn.next = .ready player)
    (fed : (player.feed budget line).runOn disk = (some next, mid)) (rest : List InputLine) :
    (converse budget turn (line :: rest)).runOn disk =
      (((converse budget next rest).runOn mid).1.map (Transcript.after turn),
        ((converse budget next rest).runOn mid).2) := by
  rw [converse]
  simp only [ready, FileProgram.runOn_bind, fed]
  rfl

theorem Exchanges.converse (conversed : Exchanges turn input disk exchanges after)
    (parsed : Script.parse played.text = .ok script) (seats : turn.Seats options played script) :
    ∃ enough, ∀ budget, enough ≤ budget →
      (VisualNovel.converse budget turn input).runOn disk =
        (some (transcript turn exchanges), after) := by
  induction conversed with
  | unasked => exact ⟨0, fun budget _ => converse_nil budget _ _⟩
  | finished ended => exact ⟨0, fun budget _ => converse_finished ended budget _ _⟩
  | @goesOn _ _ _ _ _ _ _ _ _ own ready fed further ih =>
    have seated := seats _ ready
    obtain ⟨answers, larger⟩ := (seated.does parsed _ _).answers fed
    obtain ⟨enough, goesOn⟩ := ih fun player ready => answers.seated seated ready
    refine ⟨max own enough, fun budget both => ?_⟩
    have fed := larger budget (Nat.le_trans (Nat.le_max_left ..) both)
    rw [converse_goesOn ready fed, goesOn budget (Nat.le_trans (Nat.le_max_right ..) both)]
    rfl

theorem exists_exchanges (parsed : Script.parse played.text = .ok script)
    (seats : turn.Seats options played script)
    (rests : ∀ errand, Ahead script turn input disk errand →
      ∃ units reply, errand.drive.Returns errand.machine units reply) :
    ∃ exchanges after, Exchanges turn input disk exchanges after := by
  induction input generalizing turn disk with
  | nil => exact ⟨[], disk, .unasked⟩
  | cons line rest ih =>
    cases ready : turn.next with
    | finished code => exact ⟨[], disk, .finished ready⟩
    | ready player =>
      have seated := seats player ready
      have does := seated.does parsed disk line
      have comes : ∃ budget next mid,
          (player.feed budget line).runOn disk = (some next, mid) := by
        rcases does with ⟨next, mid, -, always⟩ | ⟨errand, asks, always⟩
        · exact ⟨0, next, mid, always 0⟩
        · obtain ⟨units, reply, returns⟩ := rests errand (.here ready asks)
          refine ⟨units, errand.turn player reply, disk, ?_⟩
          rw [always, returns.on_eq fun _ => Nat.le_refl units]
          rfl
      obtain ⟨budget, next, mid, fed⟩ := comes
      have answers := (does.answers fed).1
      obtain ⟨more, after, further⟩ := ih (fun player ready => answers.seated seated ready)
        fun errand ahead => rests errand (.further ready fed ahead)
      exact ⟨_, after, .goesOn ready fed further⟩

theorem signals_transcript (turn : Turn) (exchanges : List Exchange) :
    (transcript turn exchanges).signals = turn.signals ++ exchanges.flatMap (·.turn.signals) := by
  induction exchanges generalizing turn with
  | nil => simp [transcript]
  | cons exchange more ih => simp [transcript, Transcript.after, ih]

theorem Exchanges.length_le (conversed : Exchanges turn input disk exchanges after) :
    exchanges.length ≤ input.length := by
  induction conversed with
  | unasked => exact Nat.le_refl _
  | finished ended => exact Nat.zero_le _
  | goesOn ready fed further ih => exact Nat.succ_le_succ ih

theorem Exchanges.answers (conversed : Exchanges turn input disk exchanges after)
    (parsed : Script.parse played.text = .ok script) (seats : turn.Seats options played script) :
    ∀ exchange ∈ exchanges, exchange.player.Seated options played script ∧
      exchange.player.Answers script exchange.disk exchange.line exchange.turn := by
  induction conversed with
  | unasked => exact List.forall_mem_nil _
  | finished ended => exact List.forall_mem_nil _
  | goesOn ready fed further ih =>
    have seated := seats _ ready
    have answers := ((seated.does parsed _ _).answers fed).1
    have later := ih fun player ready => answers.seated seated ready
    exact List.forall_mem_cons.2 ⟨⟨seated, answers⟩, later⟩

theorem start_opening (parsed : Script.parse played.text = .ok script) (options : PlayOptions)
    (budget : Nat) :
    let errand := Player.opening options played script
    Player.start budget options played =
      (errand.drive.on budget errand.machine).map
        (errand.turn (Player.seat options played errand.machine)) := by
  intro errand
  have created := Player.create_anew parsed none none options.startLabel
    [.title played.title, .help] budget
  unfold Player.start
  dsimp only [Setup.standard]
  rw [created, Option.map_map]
  rfl

theorem play_opening (found : disk.look (Path.join here options.script) = .text text)
    (parsed : Script.parse text = .ok script)
    (started : Player.start budget options ⟨Path.join here options.script, text⟩ = some first) :
    (play budget here options input).runOn disk = (converse budget first input).runOn disk := by
  have loaded : (LoadedScript.load here options.script).run.runOn disk =
    (.ok ⟨Path.join here options.script, text⟩, disk) := on_loadScript found parsed
  unfold play Player.begin
  simp only [FileProgram.runOn_bind, loaded, FileProgram.runOn_pure, started]

theorem seats_opening
    (returns : (Player.opening options played script).drive.Returns
      (Player.opening options played script).machine units reply) (m : Machine) :
    ((Player.opening options played script).turn (Player.seat options played m) reply).Seats
      options played script := by
  intro player ready
  have stands : Ready script (Player.opening options played script).machine :=
    Player.ready_anew ..
  have quiet : storyEvents (Player.opening options played script).led = [] :=
    Player.silent_anew ..
  have fresh := (Machine.Fresh.of_returns returns).behind quiet
  exact Player.seated_refresh rfl rfl rfl
    (Drive.ready_on _ stands (returns.on_eq fun _ => Nat.le_refl _)) fresh ready

theorem Ahead.ready (ahead : Ahead script turn input disk errand)
    (parsed : Script.parse played.text = .ok script) (seats : turn.Seats options played script) :
    Ready script errand.machine := by
  induction ahead with
  | here ready asks => exact asks.ready (seats _ ready)
  | further ready fed ahead ih =>
    have seated := seats _ ready
    exact ih fun player ready =>
      ((seated.does parsed _ _).answers fed).1.seated seated ready

theorem Asked.ready (asked : Asked options played script input disk errand)
    (parsed : Script.parse played.text = .ok script) : Ready script errand.machine := by
  cases asked with
  | opening => exact Player.ready_anew ..
  | later started ahead =>
    rw [start_opening parsed] at started
    obtain ⟨reply, returned, rfl⟩ := Option.map_eq_some_iff.1 started
    obtain ⟨units, returns, -⟩ := Drive.on_eq_some_iff.1 returned
    exact ahead.ready parsed (seats_opening returns _)

theorem Exchange.kept {exchange : Exchange}
    (seated : exchange.player.Seated options played script)
    (answers : exchange.player.Answers script exchange.disk exchange.line exchange.turn) :
    exchange.Kept options script where
  answers := answers
  missed missed := by
    obtain ⟨label, picked, -⟩ := (Option.any_eq_true ..).1 missed
    have choice := seated.atChoice (Player.kind_of_picked? picked)
    exact ⟨answers.silent seated missed, seated.parked_choice choice⟩
  undisturbed command asked stays next ready := answers.undisturbed asked stays ready
  restarted asked := by
    rw [← seated.startLabel]
    exact answers.restarted asked

theorem rendered_exchange {exchange : Exchange}
    (seated : exchange.player.Seated options played script)
    (answers : exchange.player.Answers script exchange.disk exchange.line exchange.turn) :
    rendered exchange.turn.shown = storyEvents exchange.turn.signals ++ exchange.again := by
  rw [answers.rendered seated, Exchange.again]
  cases missed : exchange.player.misses exchange.line with
  | false => simp
  | true => simp [answers.silent seated missed]

theorem rendered_transcript
    (each : ∀ exchange ∈ exchanges, rendered exchange.turn.shown =
      storyEvents exchange.turn.signals ++ exchange.again) :
    rendered (transcript turn exchanges).shown = rendered turn.shown ++
      exchanges.flatMap fun exchange =>
        storyEvents exchange.turn.signals ++ exchange.again := by
  induction exchanges generalizing turn with
  | nil => simp [transcript]
  | cons exchange more ih =>
    obtain ⟨here, later⟩ := List.forall_mem_cons.1 each
    rw [transcript, Transcript.after, rendered_append, ih later, here, List.flatMap_cons]

theorem prompts_transcript
    (each : ∀ exchange ∈ exchanges, exchange.turn.shown.count .prompt ≤ 1)
    (first : turn.shown.count .prompt ≤ 1) :
    (transcript turn exchanges).shown.count .prompt ≤ exchanges.length + 1 := by
  induction exchanges generalizing turn with
  | nil => exact first
  | cons exchange more ih =>
    obtain ⟨here, later⟩ := List.forall_mem_cons.1 each
    have rest := ih later here
    rw [transcript, Transcript.after, List.count_append, List.length_cons]
    omega

theorem Next.prompts_le (next : Next) : next.prompts ≤ 1 := by
  cases next with
  | ready player => exact Nat.le_refl 1
  | finished code => exact Nat.zero_le 1

theorem exists_first (parsed : Script.parse played.text = .ok script)
    (returns : (Player.opening options played script).drive.Returns
      (Player.opening options played script).machine units reply) :
    ∃ first, (∀ budget, units ≤ budget → Player.start budget options played = some first) ∧
      first.Seats options played script ∧ first.shown.count .prompt ≤ 1 ∧
      first.signals = (Player.opening options played script).led ++ reply.signals ∧
      rendered first.shown = storyEvents first.signals := by
  have asides : ∀ item ∈ (Player.opening options played script).before, item.isAside = true := by
    simp [Player.opening, Errand.anew, Shown.isAside]
  have silent : storyEvents (Player.opening options played script).led = [] :=
    Player.silent_anew ..
  refine ⟨_, fun budget more => ?_, seats_opening returns
    (Player.opening options played script).machine, ?_, Player.signals_refresh .., ?_⟩
  · rw [start_opening parsed options budget, returns.on_eq fun _ => more]
    rfl
  · exact Nat.le_trans (Nat.le_of_eq (Player.count_refresh asides ..)) (Next.prompts_le _)
  · exact Player.rendered_told asides silent (Player.told_anew _ _ _ _ _ returns) _

theorem conversation_retold (found : disk.look (Path.join here options.script) = .text text)
    (parsed : Script.parse text = .ok script)
    (rests : ∀ errand,
      Asked options ⟨Path.join here options.script, text⟩ script input disk errand →
        ∃ units reply, errand.drive.Returns errand.machine units reply) :
    ∃ enough first exchanges after,
      (∀ budget, enough ≤ budget → (play budget here options input).runOn disk =
        (some (transcript first exchanges), after)) ∧
      Exchanges first input disk exchanges after ∧
      (transcript first exchanges).shown.count .prompt ≤ input.length + 1 ∧
      (let opening := Player.opening options ⟨Path.join here options.script, text⟩ script
        ∃ units reply, opening.drive.Returns opening.machine units reply ∧
          first.signals = opening.led ++ reply.signals) ∧
      (transcript first exchanges).signals =
        first.signals ++ exchanges.flatMap (·.turn.signals) ∧
      rendered (transcript first exchanges).shown = storyEvents first.signals ++
        exchanges.flatMap (fun exchange =>
          storyEvents exchange.turn.signals ++ exchange.again) ∧
      ∀ exchange ∈ exchanges, exchange.Kept options script := by
  have known : Script.parse (LoadedScript.mk (Path.join here options.script) text).text =
    .ok script := parsed
  obtain ⟨units, reply, returns⟩ := rests _ .opening
  obtain ⟨first, started, seats, asks, emitted, told⟩ := exists_first known returns
  obtain ⟨exchanges, after, conversed⟩ := exists_exchanges known seats fun errand ahead =>
    rests errand (.later (started units (Nat.le_refl units)) ahead)
  obtain ⟨enough, comes⟩ := conversed.converse known seats
  have answered := conversed.answers known seats
  refine ⟨max units enough, first, exchanges, after, ?_, conversed, ?_,
    ⟨units, reply, returns, emitted⟩, signals_transcript first exchanges, ?_, ?_⟩
  · intro budget both
    rw [play_opening found parsed (started budget (Nat.le_trans (Nat.le_max_left ..) both))]
    exact comes budget (Nat.le_trans (Nat.le_max_right ..) both)
  · have each : ∀ exchange ∈ exchanges, exchange.turn.shown.count .prompt ≤ 1 := by
      intro exchange member
      rw [(answered exchange member).2.count]
      exact Next.prompts_le _
    exact Nat.le_trans (prompts_transcript each asks) (Nat.succ_le_succ conversed.length_le)
  · rw [← told]
    refine rendered_transcript fun exchange member => ?_
    exact rendered_exchange (answered exchange member).1 (answered exchange member).2
  · intro exchange member
    exact Exchange.kept (answered exchange member).1 (answered exchange member).2

theorem settled_work {m : Machine} {id : Option StepId}
    (own : m.script = [⟨id, .dialogue label content⟩]) :
    m.work.1.pending = false := by
  unfold Machine.work
  dsimp only
  split
  · rfl
  · rename_i step here
    have member : step ∈ m.script := List.mem_of_getElem? here
    rw [own, List.mem_singleton] at member
    subst member
    rfl

theorem line_rests {m : Machine} {id : Option StepId}
    (ready : Ready [⟨id, .dialogue label content⟩] m)
    (drive : Drive) : ∃ units reply, drive.Returns m units reply := by
  cases opening : drive.opening? m with
  | none => exact ⟨0, _, .idle opening⟩
  | some opened =>
    obtain ⟨entered, led⟩ := opened
    have own := (ready.plays.opening opening).script
    rcases entered.drives_or_unguarded 1 with ⟨units, reply, drives, -⟩ |
      ⟨-, signals, next, works, left⟩
    · exact ⟨units, _, .drives opening drives⟩
    · cases works with
      | cons due further =>
        cases further
        rw [settled_work own] at left
        cases left

-- A story of one line is restarted at that line and then read to its end.
theorem conversation_retold_after_restart : ∃ enough first exchanges after,
    (∀ budget, enough ≤ budget →
      (play budget "/w" ⟨"s", none, none⟩ [.text ":restart\n", .text "\n"]).runOn numberDisk =
        (some (transcript first exchanges), after)) ∧
    (transcript first exchanges).shown.count .prompt ≤ 3 ∧
    rendered (transcript first exchanges).shown = storyEvents first.signals ++
      exchanges.flatMap fun exchange =>
        storyEvents exchange.turn.signals ++ exchange.again := by
  let options : PlayOptions := ⟨"s", none, none⟩
  let input : List InputLine := [.text ":restart\n", .text "\n"]
  have found : numberDisk.look (Path.join "/w" options.script) = .text numberScript := by
    decide +kernel
  have parsed : Script.parse numberScript = .ok [⟨none, .dialogue none (some "<x>")⟩] := by
    decide +kernel
  have rests : ∀ errand, Asked options ⟨Path.join "/w" options.script, numberScript⟩
      [⟨none, .dialogue none (some "<x>")⟩] input numberDisk errand →
        ∃ units reply, errand.drive.Returns errand.machine units reply :=
    fun errand asked => line_rests (asked.ready parsed) errand.drive
  obtain ⟨enough, first, exchanges, after, comes, -, few, -, -, told, -⟩ :=
    conversation_retold found parsed rests
  exact ⟨enough, first, exchanges, after, comes, few, told⟩

def strayScript : String :=
  "[\x7b\"type\":\"choice\",\"choice\":[\x7b\"display\":\"d\",\"label\":\"gone\"\x7d]\x7d]"

example :
    let told : Event := .choice [⟨"d", "gone"⟩]
    let disk : Disk := ⟨.directory [("w", .directory [("s", .file (.text strayScript))])], ["w"]⟩
    let result := ((play 9 "/w" ⟨"s", none, none⟩ [.text "gone\n"]).runOn disk).1
    result.map (fun played => (storyEvents played.signals, rendered played.shown)) =
      some ([told], [told, told]) := by decide +kernel

end VisualNovel

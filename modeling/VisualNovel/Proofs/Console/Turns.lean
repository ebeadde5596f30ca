import VisualNovel.Proofs.Console.Errands

namespace VisualNovel

open Machine

def Shown.event? : Shown → Option Event
  | .event told => some told
  | _ => none

def rendered (items : List Shown) : List Event := items.filterMap Shown.event?

def Next.prompts : Next → Nat
  | .ready _ => 1
  | .finished _ => 0

-- A machine whose story has neither moved nor been changed.
structure Undisturbed (before after : Machine) : Prop where
  cursor : after.cursor = before.cursor
  phase : after.phase = before.phase
  globals : after.stores.globals = before.stores.globals
  locals : after.stores.locals = before.stores.locals

namespace Player

-- Whether a line picks an option whose label the script lacks.
def misses (player : Player) (line : InputLine) : Bool :=
  (player.picked? line).any fun label => player.machine.script.labelIndex? label = none

inductive Answers (script : Script) (player : Player) (disk : Disk) (line : InputLine) :
    Turn → Prop where
  | idles (idles : player.Idles line turn) : Answers script player disk line turn
  | drives (asks : player.Asks script disk line errand)
      (returns : errand.drive.Returns errand.machine units reply) :
      Answers script player disk line (errand.turn player reply)

end Player

namespace Drive

variable {m : Machine} {drive : Drive} {reply : Reply Unit}

theorem playing_or_missed (opening : drive.opening? m = some (entered, led)) :
    entered.phase = .playing ∨
      ∃ label, drive = .choose label ∧ m.script.labelIndex? label = none := by
  rcases opening_plays opening with ⟨playing, -⟩ | ⟨label, own, -, jumped⟩
  · exact .inl playing
  · unfold jumpToLabel at jumped
    split at jumped
    · cases jumped
      exact .inl rfl
    · rename_i missing
      exact .inr ⟨label, own, missing⟩

theorem Returns.told_or (returns : drive.Returns m units reply)
    (suspended : reply.machine.phase.isSuspended = true) :
    storyEvents reply.signals ≠ [] ∨ (drive.opening? m = none ∧ reply.machine = m) ∨
      ∃ label, drive = .choose label ∧ m.script.labelIndex? label = none := by
  rcases Nat.eq_zero_or_pos units with rfl | worked
  · cases returns with
    | idle nothing => exact .inr (.inl ⟨nothing, idle_machine drive m⟩)
    | drives opening drives =>
      rcases playing_or_missed opening with playing | missed
      · change (_ : Machine).phase.isSuspended = true at suspended
        rcases drives.unworked.2 with same | idle
        · simp [Reply.behind, same, playing, Phase.isSuspended] at suspended
        · simp [Reply.behind, idle, Phase.isSuspended] at suspended
      · exact .inr (.inr missed)
  · have shown := (returns.tells worked).getLast?_iff (isOpen_of_isSuspended suspended)
    obtain ⟨event, last, -⟩ := shown
    refine .inl fun silent => ?_
    rw [silent] at last
    cases last

theorem Returns.missed (returns : (Drive.choose label).Returns m units reply)
    (choice : m.phase = .choice) (missing : m.script.labelIndex? label = none) :
    reply = ⟨{ m with lastFault := some (.unresolvedLabel label), due := false },
      [.record (.labelNotFound label)], .ok ()⟩ := by
  cases returns with
  | idle nothing => simp [opening?, choice] at nothing
  | drives opening drives =>
    have landed : (Drive.choose label).opening? m = some (m.jumpToLabel label) := if_pos choice
    have stuck : m.jumpToLabel label =
        ({ m with lastFault := some (.unresolvedLabel label) },
          [.record (.labelNotFound label)]) := by
      simp only [jumpToLabel, missing]
    rw [landed, stuck] at opening
    cases opening
    have settled : pending { m with lastFault := some (.unresolvedLabel label) } = false := by
      simp [pending, choice]
    cases drives with
    | rests works within left =>
      cases works with
      | nil => simp [Reply.behind, Machine.rest]
      | cons due further => rw [settled] at due; cases due
    | trips works guarded left =>
      cases works with
      | nil => rw [settled] at left; cases left
      | cons due further => rw [settled] at due; cases due

end Drive

theorem rendered_append (earlier later : List Shown) :
    rendered (earlier ++ later) = rendered earlier ++ rendered later := by
  simp [rendered]

theorem rendered_asides {items : List Shown} (asides : ∀ item ∈ items, item.isAside = true) :
    rendered items = [] := by
  refine List.filterMap_eq_nil_iff.2 fun item member => ?_
  have aside := asides item member
  cases item <;> first | rfl | cases aside

theorem count_asides {items : List Shown} (asides : ∀ item ∈ items, item.isAside = true) :
    items.count .prompt = 0 := by
  refine List.count_eq_zero.2 fun member => ?_
  cases asides _ member

theorem kind_waiting {m : Machine} (kind : BoundaryKind.ofMachine m = .say) :
    m.phase = .waiting := by
  unfold BoundaryKind.ofMachine at kind
  split at kind
  · assumption
  all_goals first | cases kind | (split at kind <;> cases kind)

theorem kind_choice {m : Machine} (kind : BoundaryKind.ofMachine m = .choice) :
    m.phase = .choice := by
  unfold BoundaryKind.ofMachine at kind
  split at kind
  · cases kind
  · assumption
  all_goals first | cases kind | (split at kind <;> cases kind)

namespace Player

variable {options : PlayOptions} {played : LoadedScript} {script : Script} {player next : Player}
  {disk : Disk} {line : InputLine} {turn : Turn} {m : Machine} {signals : List Signal}
  {items : List Shown}

theorem rendered_render (boundary : Boundary) : rendered (render boundary) = boundary.events := by
  unfold rendered render
  rw [List.filterMap_append]
  have told : (boundary.events.map Shown.event).filterMap Shown.event? = boundary.events := by
    simp [List.filterMap_map, Function.comp_def, Shown.event?]
  rw [told]
  split
  · exact List.append_nil _
  · exact List.append_nil _

theorem count_render (boundary : Boundary) : (render boundary).count .prompt = 0 := by
  refine List.count_eq_zero.2 fun member => ?_
  rcases List.mem_append.1 member with told | stalled
  · obtain ⟨event, -, same⟩ := List.mem_map.1 told
    cases same
  · split at stalled <;> simp at stalled

theorem rendered_refresh (asides : ∀ item ∈ items, item.isAside = true) (player : Player)
    (m : Machine) (signals : List Signal) :
    rendered (player.refresh items m signals).shown = (Boundary.collect m signals).events := by
  unfold refresh
  dsimp only
  split <;>
  · simp only [rendered_append, rendered_asides asides, rendered_render]
    simp [rendered, Shown.event?]

theorem signals_refresh (player : Player) (items : List Shown) (m : Machine)
    (signals : List Signal) : (player.refresh items m signals).signals = signals := by
  unfold refresh
  dsimp only
  split <;> rfl

theorem count_refresh (asides : ∀ item ∈ items, item.isAside = true) (player : Player)
    (m : Machine) (signals : List Signal) :
    (player.refresh items m signals).shown.count .prompt =
      (player.refresh items m signals).next.prompts := by
  unfold refresh
  dsimp only
  split
  · simp only [List.count_append, count_asides asides, count_render]
    rfl
  · simp only [List.count_append, count_asides asides, count_render]
    rfl

theorem events_collect (told : m.phase.isSuspended = true → storyEvents signals ≠ []) :
    (Boundary.collect m signals).events = storyEvents signals :=
  if_neg fun both => told both.2 both.1

theorem events_collect_silent (suspended : m.phase.isSuspended = true)
    (silent : storyEvents signals = []) :
    (Boundary.collect m signals).events = m.currentBoundary?.toList :=
  if_pos ⟨silent, suspended⟩

theorem Idles.rendered (idles : player.Idles line turn) : rendered turn.shown = [] := by
  cases idles with
  | stays other unpicked asides =>
    simp only [stay, rendered_append, rendered_asides asides]
    rfl
  | leaves other unpicked asides => exact rendered_asides asides
  | flags asked =>
    simp only [setFlag, stay]
    split <;> rfl

theorem Idles.silent (idles : player.Idles line turn) : storyEvents turn.signals = [] := by
  cases idles with
  | stays => rfl
  | leaves => rfl
  | flags asked => exact (setEnvironment_quiet player.machine _ _).1

theorem Idles.count (idles : player.Idles line turn) :
    turn.shown.count .prompt = turn.next.prompts := by
  cases idles with
  | stays other unpicked asides =>
    simp only [stay, List.count_append, count_asides asides]
    rfl
  | leaves other unpicked asides => exact count_asides asides
  | flags asked =>
    simp only [setFlag, stay]
    split <;> rfl

theorem Idles.unpicked (idles : player.Idles line turn) : player.picked? line = none := by
  cases idles with
  | stays other unpicked asides => exact unpicked
  | leaves other unpicked asides => exact unpicked
  | flags asked => exact player.picked?_of_command asked

theorem misses_of_unpicked (unpicked : player.picked? line = none) :
    player.misses line = false := by
  simp [misses, unpicked]

theorem asides_of_asks {errand : Errand} (asks : player.Asks script disk line errand) :
    ∀ item ∈ errand.before, item.isAside = true := by
  cases asks <;> simp [Errand.anew, Shown.isAside]

variable {errand : Errand} {reply : Reply Unit}

theorem silent_anew (script : Script) (globals locals : ValueMap) (label : Option String)
    (items : List Shown) : storyEvents (Errand.anew script globals locals label items).led = [] :=
  storyEvents_shown (isRemark_refusals _) _

theorem Asks.silent_led (asks : player.Asks script disk line errand) :
    storyEvents errand.led = [] := by
  cases asks with
  | advance => rfl
  | choose => rfl
  | restart => exact silent_anew ..
  | load => exact silent_anew ..

theorem Seated.parked_choice (seated : player.Seated options played script)
    (choice : player.machine.phase = .choice) :
    ParkedOn player.machine (.choice player.boundary.options) player.boundary.options := by
  obtain ⟨before, event, offered, parked, -, same⟩ := seated.shows (by rw [choice]; rfl)
  rw [same]
  cases parked with
  | dialogue waiting here kind => cases waiting.symm.trans choice
  | choice own here kind => exact .choice own here kind

theorem told_anew (script : Script) (globals locals : ValueMap) (label : Option String)
    (items : List Shown)
    (returns : (Drive.start label).Returns (Errand.anew script globals locals label items).machine
      units reply)
    (suspended : reply.machine.phase.isSuspended = true) : storyEvents reply.signals ≠ [] := by
  rcases returns.told_or suspended with told | ⟨-, same⟩ | ⟨label, other, -⟩
  · exact told
  · rw [same] at suspended
    cases suspended
  · cases other

theorem Asks.told (asks : player.Asks script disk line errand)
    (seated : player.Seated options played script)
    (returns : errand.drive.Returns errand.machine units reply)
    (hit : player.misses line = false) (suspended : reply.machine.phase.isSuspended = true) :
    storyEvents reply.signals ≠ [] := by
  cases asks with
  | advance plain atLine =>
    rcases returns.told_or suspended with told | ⟨nothing, -⟩ | ⟨label, other, -⟩
    · exact told
    · simp [Drive.opening?, seated.atLine atLine] at nothing
    · cases other
  | choose picked =>
    rcases returns.told_or suspended with told | ⟨nothing, -⟩ | ⟨label, other, missing⟩
    · exact told
    · simp [Drive.opening?, seated.atChoice (kind_of_picked? picked)] at nothing
    · cases other
      simp [misses, picked, missing] at hit
  | restart => exact told_anew _ _ _ _ _ returns suspended
  | load => exact told_anew _ _ _ _ _ returns suspended

theorem Asks.silent_of_misses (asks : player.Asks script disk line errand)
    (seated : player.Seated options played script)
    (returns : errand.drive.Returns errand.machine units reply)
    (missed : player.misses line = true) :
    storyEvents reply.signals = [] ∧ reply.machine.phase = .choice ∧
      reply.machine.currentBoundary? = some (.choice player.boundary.options) := by
  have unpicked (nothing : player.picked? line = none) : False := by
    rw [misses_of_unpicked nothing] at missed
    cases missed
  cases asks with
  | advance plain atLine => exact (unpicked (picked?_of_atLine atLine)).elim
  | restart asked => exact (unpicked (player.picked?_of_command asked)).elim
  | load asked => exact (unpicked (player.picked?_of_command asked)).elim
  | @choose label picked =>
    have choice := seated.atChoice (kind_of_picked? picked)
    have missing : player.machine.script.labelIndex? label = none := by
      simpa [misses, picked] using missed
    rw [returns.missed choice missing]
    exact ⟨rfl, choice, (seated.parked_choice choice).currentBoundary?⟩

theorem storyEvents_turn (led : storyEvents errand.led = []) (player : Player)
    (reply : Reply Unit) :
    storyEvents (errand.turn player reply).signals = storyEvents reply.signals := by
  rw [Errand.turn, signals_refresh, storyEvents_append, led, List.nil_append]

theorem rendered_told (asides : ∀ item ∈ errand.before, item.isAside = true)
    (led : storyEvents errand.led = [])
    (told : reply.machine.phase.isSuspended = true → storyEvents reply.signals ≠ [])
    (player : Player) :
    rendered (errand.turn player reply).shown =
      storyEvents (errand.turn player reply).signals := by
  have whole : storyEvents (errand.led ++ reply.signals) = storyEvents reply.signals := by
    rw [storyEvents_append, led, List.nil_append]
  rw [Errand.turn, rendered_refresh asides, signals_refresh]
  rw [← whole] at told
  exact events_collect told

theorem rendered_again (asides : ∀ item ∈ errand.before, item.isAside = true)
    (led : storyEvents errand.led = []) (silent : storyEvents reply.signals = [])
    (suspended : reply.machine.phase.isSuspended = true) (player : Player) :
    rendered (errand.turn player reply).shown = reply.machine.currentBoundary?.toList := by
  have whole : storyEvents (errand.led ++ reply.signals) = [] := by
    rw [storyEvents_append, led, silent, List.nil_append]
  rw [Errand.turn, rendered_refresh asides]
  exact events_collect_silent suspended whole

theorem rendered_turn (asks : player.Asks script disk line errand)
    (seated : player.Seated options played script)
    (returns : errand.drive.Returns errand.machine units reply) :
    rendered (errand.turn player reply).shown =
      if player.misses line then [.choice player.boundary.options]
      else storyEvents (errand.turn player reply).signals := by
  have asides := asides_of_asks asks
  cases missed : player.misses line with
  | false =>
    exact rendered_told asides asks.silent_led (asks.told seated returns missed) player
  | true =>
    obtain ⟨silent, choice, again⟩ := asks.silent_of_misses seated returns missed
    rw [rendered_again asides asks.silent_led silent (by rw [choice]; rfl) player, again]
    rfl

-- What is shown of the story is what is told, or the parked choice once more.
theorem Answers.rendered (answers : Answers script player disk line turn)
    (seated : player.Seated options played script) :
    rendered turn.shown =
      if player.misses line then [.choice player.boundary.options]
      else storyEvents turn.signals := by
  cases answers with
  | idles idles =>
    rw [idles.rendered, idles.silent, misses_of_unpicked idles.unpicked]
    rfl
  | drives asks returns => exact rendered_turn asks seated returns

theorem Answers.silent (answers : Answers script player disk line turn)
    (seated : player.Seated options played script) (missed : player.misses line = true) :
    storyEvents turn.signals = [] := by
  cases answers with
  | idles idles => exact idles.silent
  | drives asks returns =>
    rw [storyEvents_turn asks.silent_led]
    exact (asks.silent_of_misses seated returns missed).1

theorem Answers.count (answers : Answers script player disk line turn) :
    turn.shown.count .prompt = turn.next.prompts := by
  cases answers with
  | idles idles => exact idles.count
  | drives asks returns => exact count_refresh (asides_of_asks asks) ..

theorem seated_refresh (own : player.script = played)
    (saveFile : player.saveFile = options.saveFile.getD standardSaveFile)
    (startLabel : player.startLabel = options.startLabel) (ready : Ready script m)
    (fresh : m.Fresh signals) (stopped : (player.refresh items m signals).next = .ready next) :
    next.Seated options played script := by
  have faces := faces_refresh ready.resting fresh stopped
  unfold refresh at stopped
  dsimp only at stopped
  split at stopped
  · cases stopped
  · cases stopped
    exact ⟨faces, own, saveFile, startLabel, ready.plays, kind_waiting, kind_choice⟩

theorem Answers.seated (answers : Answers script player disk line turn)
    (seated : player.Seated options played script) (stopped : turn.next = .ready next) :
    next.Seated options played script := by
  cases answers with
  | idles idles =>
    cases idles with
    | stays => cases stopped; exact seated
    | leaves => cases stopped
    | @flags key value asked =>
      have faces := seated.toFaces.setFlag key value stopped
      cases stopped
      have same := (setEnvironment_quiet player.machine key value).2.phase
      exact ⟨faces, seated.own, seated.saveFile, seated.startLabel,
        seated.plays.setEnvironment key value, fun kind => same.trans (seated.atLine kind),
        fun kind => same.trans (seated.atChoice kind)⟩
  | drives asks returns =>
    have ready := Drive.ready_on _ (asks.ready seated) (returns.on_eq fun _ => Nat.le_refl _)
    have fresh := (Fresh.of_returns returns).behind asks.silent_led
    exact seated_refresh seated.own seated.saveFile seated.startLabel ready fresh stopped

theorem undisturbed_setEnvironment (m : Machine) (key : String) (value : Bool) :
    Undisturbed m (m.setEnvironment key value).machine := by
  unfold Machine.setEnvironment
  split <;> exact ⟨rfl, rfl, rfl, rfl⟩

theorem Idles.undisturbed (idles : player.Idles line turn) (stopped : turn.next = .ready next) :
    Undisturbed player.machine next.machine := by
  cases idles with
  | stays => cases stopped; exact ⟨rfl, rfl, rfl, rfl⟩
  | leaves => cases stopped
  | flags asked => cases stopped; exact undisturbed_setEnvironment player.machine _ _

theorem Answers.undisturbed (answers : Answers script player disk line turn)
    (asked : line.command? = some command) (stays : command ≠ .restart ∧ command ≠ .load)
    (stopped : turn.next = .ready next) : Undisturbed player.machine next.machine := by
  cases answers with
  | idles idles => exact idles.undisturbed stopped
  | drives asks returns =>
    cases asks with
    | advance plain atLine => rw [InputLine.plain?_of_command asked] at plain; cases plain
    | choose picked => rw [player.picked?_of_command asked] at picked; cases picked
    | restart same => exact absurd (Option.some.inj (asked.symm.trans same)) stays.1
    | load same => exact absurd (Option.some.inj (asked.symm.trans same)) stays.2

theorem Answers.restarted (answers : Answers script player disk line turn)
    (asked : line.command? = some .restart) :
    let errand := Errand.anew script player.machine.stores.globals .empty player.startLabel
      [.restarted]
    ∃ units reply, errand.drive.Returns errand.machine units reply ∧
      turn = errand.turn player reply := by
  cases answers with
  | idles idles =>
    cases idles with
    | stays other => exact absurd asked other
    | leaves other => exact absurd asked other
    | flags same => rw [asked] at same; cases same
  | drives asks returns =>
    cases asks with
    | advance plain atLine => rw [InputLine.plain?_of_command asked] at plain; cases plain
    | choose picked => rw [player.picked?_of_command asked] at picked; cases picked
    | restart same => exact ⟨_, _, returns, rfl⟩
    | load same => rw [asked] at same; cases same

end Player

end VisualNovel

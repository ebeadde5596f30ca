import VisualNovel.Proofs.Playback.Operations

namespace VisualNovel

def debugEvents (signals : List Signal) : List Event := (events signals).filter Event.isDebug

theorem debugEvents_append (earlier later : List Signal) :
    debugEvents (earlier ++ later) = debugEvents earlier ++ debugEvents later := by
  simp [debugEvents, events]

theorem debugEvents_remarks (remarks : ∀ signal ∈ signals, signal.isRemark = true) :
    debugEvents signals = [] := by
  have silent : events signals = [] := by
    refine List.filterMap_eq_nil_iff.2 fun signal member => ?_
    cases signal with
    | event event => cases remarks _ member
    | record record => rfl
  rw [debugEvents, silent]
  rfl

theorem Event.story_of_isPassing {event : Event} (passing : event.isPassing = true) :
    event.isDebug = false := by
  cases event <;> first | rfl | cases passing

theorem ne_nil_of_debug {event : Event} {signals : List Signal} (debug : event.isDebug = true)
    (sent : .event event ∈ signals) : debugEvents signals ≠ [] := by
  refine List.ne_nil_of_mem (a := event) ?_
  exact List.mem_filter.2 ⟨List.mem_filterMap.2 ⟨.event event, sent, rfl⟩, debug⟩

namespace Machine

def mirror (m : Machine) : Event := .updateDebug m.stores.globals m.stores.locals.toMap m.phase

-- How a machine comes to what it shows from one that showed `held`.
inductive Refreshes (held : Event) (next : Machine) : List Signal → Prop where
  | playsOn (playing : next.phase = .playing) (quiet : debugEvents signals = []) :
      Refreshes held next signals
  | keeps (same : next.mirror = held) (quiet : debugEvents signals = []) :
      Refreshes held next signals
  | shows (quiet : debugEvents before = []) : Refreshes held next (before ++ [.event next.mirror])

-- Unless the machine plays, what was shown last is what it holds.
def Mirrored (m : Machine) (received : List Signal) : Prop :=
  m.phase ≠ .playing → (debugEvents received).getLast? = some m.mirror

-- The machines behind a load, each with all that a listener from before the load has received.
inductive Hears : Machine → List Signal → Prop where
  | load (m : Machine) (before : List Signal) (script : Script) (globals locals : ValueMap) :
      Hears (m.load script globals locals).machine
        (before ++ (m.load script globals locals).signals)
  | perform (hears : Hears m received) (returned : m.perform budget operation = some reply) :
      Hears reply.machine (received ++ reply.signals)

-- Where work stands when a signal has just gone out behind those earlier ones: behind the unit of
-- which it is the last signal.
inductive Sends (m : Machine) (units : Nat) : List Signal → Signal → Machine → Prop where
  | unit {led own : List Signal} (sooner : fewer < units) (works : Works fewer m led here)
      (due : here.pending = true) (last : here.work = (moment, own ++ [signal])) :
      Sends m units (led ++ own) signal moment

inductive Emits (m : Machine) (operation : Operation) (reply : Reply Answer) :
    List Signal → Signal → Machine → Prop where
  | amid {drive : Drive} {led behind : List Signal} (own : drive.operation = operation)
      (opening : drive.opening? m = some (entered, led)) (drives : entered.Drives units ended)
      (whole : reply = (ended.behind led).done)
      (sends : entered.Sends units behind signal moment) :
      Emits m operation reply (led ++ behind) signal moment
  | atEnd (last : reply.signals = earlier ++ [signal]) :
      Emits m operation reply earlier signal reply.machine

variable {m next : Machine} {held event : Event} {signals earlier later received : List Signal}

theorem Refreshes.alone (next : Machine) : Refreshes held next [.event next.mirror] := by
  have quiet : debugEvents [] = [] := rfl
  exact .shows quiet

theorem Refreshes.jumpToLabel (m : Machine) (label : String) :
    Refreshes m.mirror (m.jumpToLabel label).1 (m.jumpToLabel label).2 := by
  unfold Machine.jumpToLabel
  split
  · exact .playsOn rfl rfl
  · exact .keeps rfl rfl

theorem Refreshes.jumpToId (m : Machine) (id : StepId) :
    Refreshes m.mirror (m.jumpToId id).1 (m.jumpToId id).2 := by
  unfold Machine.jumpToId
  split
  · exact .playsOn rfl rfl
  · exact .keeps rfl rfl

theorem Refreshes.showAndProceed {changed : Machine × List Signal}
    (quiet : debugEvents changed.2 = []) :
    Refreshes held (showAndProceed changed).1 (showAndProceed changed).2 := .shows quiet

theorem Refreshes.park (m : Machine) (phase : Phase) (story : event.isDebug = false) :
    Refreshes held (m.park phase event).1 (m.park phase event).2 := by
  have quiet : debugEvents [.event event] = [] := by
    simp [debugEvents, events, Signal.event?, story]
  exact .shows quiet

theorem Refreshes.finish (m : Machine) : Refreshes held m.finish.1 m.finish.2 := by
  have quiet : debugEvents [.event .finish] = [] := rfl
  exact .shows quiet

theorem Refreshes.tell (playing : m.phase = .playing) (story : event.isDebug = false) :
    Refreshes held (m.tell event).1 (m.tell event).2 := by
  refine .playsOn playing ?_
  simp [debugEvents, events, Machine.tell, Signal.event?, story]

theorem Acts.refreshes {done : Machine × List Signal} (acts : Acts m step done)
    (playing : m.phase = .playing) : Refreshes m.mirror done.1 done.2 := by
  cases acts with
  | passes => exact .keeps rfl rfl
  | emits stores environment tidy passing =>
    exact .tell (m := { m with stores := stores }) playing (Event.story_of_isPassing passing)
  | changes stores environment tidy remarks => exact .showAndProceed (debugEvents_remarks remarks)
  | strays => exact .keeps rfl rfl
  | skips kind => exact .keeps rfl rfl
  | jumpsToLabel generator label => exact .jumpToLabel { m with generator := generator } label
  | jumpsToId id => exact .jumpToId m id
  | speaks kind => exact .park m .waiting rfl
  | asks kind => exact .park m .choice rfl
  | ends kind => exact .finish m

theorem work_refreshes (due : m.pending = true) : Refreshes m.mirror m.work.1 m.work.2 := by
  rcases m.work_acts with ⟨-, ended⟩ | ⟨step, here, acts⟩
  · rw [ended]
    exact .finish m
  · exact acts.refreshes (pending_iff.1 due).2

theorem debugEvents_of_silent (silent : events signals = []) :
    debugEvents signals = [] := by
  rw [debugEvents, silent]
  rfl

theorem Refreshes.opening {drive : Drive}
    (opening : drive.opening? m = some (entered, led)) : Refreshes m.mirror entered led := by
  rcases Drive.opening_plays opening with ⟨playing, silent⟩ | ⟨label, -, -, jumped⟩
  · exact .playsOn playing (debugEvents_of_silent silent)
  · have landed := Refreshes.jumpToLabel m label
    rwa [jumped] at landed

theorem Refreshes.tripped (m : Machine) (limit : Nat) :
    Refreshes m.mirror (m.giveUp limit)
      [.record (.guardExceeded limit m.cursor), (m.giveUp limit).debugEvent] := by
  have quiet : debugEvents [.record (.guardExceeded limit m.cursor)] = [] := rfl
  exact .shows quiet

theorem Refreshes.idle (drive : Drive) (m : Machine) :
    Refreshes m.mirror (drive.idle m).machine (drive.idle m).signals := by
  rcases drive.idle_cases m with same | same <;> (rw [same]; exact .keeps rfl rfl)

theorem Performs.refreshes (performs : Performs m operation reply) :
    (∃ (drive : Drive) (units : Nat) (ended : Reply Unit), drive.operation = operation ∧
      drive.Returns m units ended ∧ reply = ended.done) ∨
    Refreshes m.mirror reply.machine reply.signals := by
  cases performs with
  | drives drive returns => exact .inl ⟨drive, _, _, rfl, returns, rfl⟩
  | loads script globals locals =>
    exact .inr (.shows (debugEvents_remarks (isRemark_refusals _)))
  | stops unended => exact .inr (.alone _)
  | writes writes stores environment tidy remarks answer =>
    exact .inr (.shows (debugEvents_remarks remarks))
  | resumes fits set => exact .inr (.shows (debugEvents_remarks (isRemark_refusals _)))
  | _ => exact .inr (.keeps rfl rfl)

theorem mirrored_of_shown (m : Machine) (received : List Signal) :
    m.Mirrored (received ++ [.event m.mirror]) := by
  intro _
  rw [debugEvents_append]
  exact List.getLast?_concat

theorem Refreshes.mirrored (refreshes : Refreshes m.mirror next signals)
    (mirrored : m.Mirrored received) : next.Mirrored (received ++ signals) := by
  cases refreshes with
  | playsOn playing quiet => exact fun other => absurd playing other
  | keeps same quiet =>
    have phase : next.phase = m.phase := by injection same
    intro other
    rw [debugEvents_append, quiet, List.append_nil, same]
    exact mirrored (phase ▸ other)
  | shows quiet =>
    rw [← List.append_assoc]
    exact mirrored_of_shown next _

theorem Works.mirrored (works : Works units m signals next) (mirrored : m.Mirrored received) :
    next.Mirrored (received ++ signals) := by
  induction works generalizing received with
  | nil => rwa [List.append_nil]
  | cons due further ih =>
    rw [← List.append_assoc]
    exact ih ((work_refreshes due).mirrored mirrored)

theorem Drives.mirrored {reply : Reply Unit} (drives : Drives m units reply)
    (mirrored : m.Mirrored received) : reply.machine.Mirrored (received ++ reply.signals) := by
  cases drives with
  | rests works within settled => exact works.mirrored mirrored
  | trips works guarded left =>
    simp only [tripped]
    rw [← List.append_assoc]
    exact (Refreshes.tripped _ _).mirrored (works.mirrored mirrored)

theorem mirrored_of_returns {drive : Drive} {reply : Reply Unit}
    (returns : drive.Returns m units reply) (mirrored : m.Mirrored received) :
    reply.machine.Mirrored (received ++ reply.signals) := by
  cases returns with
  | idle nothing => exact (Refreshes.idle drive m).mirrored mirrored
  | drives opening drives =>
    rw [Reply.behind, ← List.append_assoc]
    exact drives.mirrored ((Refreshes.opening opening).mirrored mirrored)

theorem Mirrored.perform (mirrored : m.Mirrored received)
    (returned : m.perform budget operation = some reply) :
    reply.machine.Mirrored (received ++ reply.signals) := by
  rcases (performs_of_perform returned).refreshes with ⟨drive, units, ended, -, returns, rfl⟩ | refreshes
  · exact mirrored_of_returns returns mirrored
  · exact refreshes.mirrored mirrored

theorem Hears.mirrored (hears : Hears m received) : m.Mirrored received := by
  induction hears with
  | load m before script globals locals =>
    have shown : (m.load script globals locals).signals =
      refusals (LocalStore.mapNotices locals) ++
        [.event (m.load script globals locals).machine.mirror] := rfl
    rw [shown, ← List.append_assoc]
    exact mirrored_of_shown _ _
  | perform hears returned ih => exact ih.perform returned

theorem Refreshes.last (refreshes : Refreshes held next signals) (debug : event.isDebug = true)
    (sent : signals = earlier ++ .event event :: later) : later = [] ∧ event = next.mirror := by
  have loud : debugEvents signals ≠ [] := ne_nil_of_debug debug (by simp [sent])
  cases refreshes with
  | playsOn playing quiet => exact absurd quiet loud
  | keeps same quiet => exact absurd quiet loud
  | @shows before quiet =>
    rcases List.eq_nil_or_concat later with rfl | ⟨more, last, rfl⟩
    · have same := (List.append_inj' sent rfl).2
      injection same with same
      injection same with same
      exact ⟨rfl, same.symm⟩
    · rw [List.concat_eq_append, ← List.cons_append, ← List.append_assoc] at sent
      have same : before = _ := (List.append_inj' sent rfl).1
      exact absurd quiet (ne_nil_of_debug debug (by simp [same]))

theorem append_eq_split {signal : Signal} {whole : List Signal}
    (sent : signals ++ later = earlier ++ signal :: whole) :
    (∃ rest, signals = earlier ++ signal :: rest) ∨
      ∃ more, earlier = signals ++ more ∧ later = more ++ signal :: whole := by
  rcases List.append_eq_append_iff.1 sent with ⟨more, rfl, behind⟩ | ⟨rest, rfl, behind⟩
  · exact .inr ⟨more, rfl, behind⟩
  · cases rest with
    | nil => exact .inr ⟨[], by simp, behind.symm⟩
    | cons first rest =>
      obtain ⟨rfl, -⟩ := List.cons.inj behind
      exact .inl ⟨rest, rfl⟩

theorem Sends.behind (sends : Sends m.work.1 units earlier signal moment)
    (due : m.pending = true) : Sends m (units + 1) (m.work.2 ++ earlier) signal moment := by
  cases sends with
  | unit sooner works left last =>
    rw [← List.append_assoc]
    exact .unit (Nat.succ_lt_succ sooner) (.cons due works) left last

theorem Works.sends (works : Works units m signals next) (debug : event.isDebug = true)
    (sent : signals = earlier ++ .event event :: later) :
    ∃ moment, Sends m units earlier (.event event) moment ∧ event = moment.mirror := by
  induction works generalizing earlier with
  | nil => simp at sent
  | @cons units signals next m due further ih =>
    rcases append_eq_split sent with ⟨rest, own⟩ | ⟨more, rfl, behind⟩
    · obtain ⟨rfl, same⟩ := (work_refreshes due).last debug own
      have ended : m.work = (m.work.1, earlier ++ [.event event]) := by rw [← own]
      have sends : Sends m (units + 1) ([] ++ earlier) (.event event) m.work.1 :=
        .unit (Nat.succ_pos _) .nil due ended
      exact ⟨_, sends, same⟩
    · obtain ⟨moment, sends, same⟩ := ih behind
      exact ⟨moment, sends.behind due, same⟩

theorem debugEvents_of_opening {drive : Drive}
    (opening : drive.opening? m = some (entered, led)) : debugEvents led = [] := by
  rcases Drive.opening_plays opening with ⟨-, silent⟩ | ⟨label, -, -, jumped⟩
  · exact debugEvents_of_silent silent
  · unfold jumpToLabel at jumped
    split at jumped <;> (cases jumped; rfl)

theorem Drives.sends {reply : Reply Unit} (drives : Drives m units reply)
    (debug : event.isDebug = true) (sent : reply.signals = earlier ++ .event event :: later) :
    (∃ moment, Sends m units earlier (.event event) moment ∧ event = moment.mirror) ∨
      (later = [] ∧ event = reply.machine.mirror) := by
  cases drives with
  | rests works within settled => exact .inl (works.sends debug sent)
  | trips works guarded left =>
    rcases append_eq_split sent with ⟨rest, own⟩ | ⟨more, rfl, behind⟩
    · exact .inl (works.sends debug own)
    · exact .inr ((Refreshes.tripped _ _).last debug behind)

theorem Drive.Returns.emits {drive : Drive} {ended : Reply Unit}
    (returns : drive.Returns m units ended) (debug : event.isDebug = true)
    (sent : ended.signals = earlier ++ .event event :: later) :
    ∃ moment, Emits m drive.operation ended.done earlier (.event event) moment ∧
      event = moment.mirror := by
  have atEnd (last : later = []) :
      Emits m drive.operation ended.done earlier (.event event) ended.machine :=
    .atEnd (last ▸ sent)
  cases returns with
  | idle nothing =>
    obtain ⟨last, same⟩ := (Refreshes.idle drive m).last debug sent
    exact ⟨_, atEnd last, same⟩
  | drives opening drives =>
    rcases append_eq_split sent with ⟨rest, own⟩ | ⟨more, rfl, behind⟩
    · have quiet := debugEvents_of_opening opening
      rw [own] at quiet
      exact absurd quiet (ne_nil_of_debug debug (by simp))
    · rcases drives.sends debug behind with ⟨moment, sends, same⟩ | ⟨last, same⟩
      · exact ⟨moment, .amid rfl opening drives rfl sends, same⟩
      · exact ⟨_, atEnd last, same⟩

theorem emits_of_perform (returned : m.perform budget operation = some reply)
    (debug : event.isDebug = true) (sent : reply.signals = earlier ++ .event event :: later) :
    ∃ moment, Emits m operation reply earlier (.event event) moment ∧ event = moment.mirror := by
  rcases (performs_of_perform returned).refreshes with ⟨drive, units, ended, rfl, returns, rfl⟩ | refreshes
  · exact Drive.Returns.emits returns debug sent
  · obtain ⟨last, same⟩ := refreshes.last debug sent
    exact ⟨_, .atEnd (last ▸ sent), same⟩

-- A listener that was there before the load has seen the stores and the phase of every machine that
-- does not play, and what a debug event shows is there when it is emitted.
theorem mirror_is_current :
    (∀ m received, Hears m received → m.phase ≠ .playing →
      (debugEvents received).getLast? =
        some (.updateDebug m.stores.globals m.stores.locals.toMap m.phase)) ∧
    ∀ m budget operation reply, m.perform budget operation = some reply →
      ∀ earlier event later, event.isDebug = true →
        reply.signals = earlier ++ .event event :: later →
        ∃ moment, Emits m operation reply earlier (.event event) moment ∧
          event = .updateDebug moment.stores.globals moment.stores.locals.toMap moment.phase := by
  constructor
  · intro m received hears
    exact hears.mirrored
  · intro m budget operation reply returned earlier event later debug sent
    exact emits_of_perform returned debug sent

-- A variable is created and then an autosave point passed, which only the next line shows.
theorem mirror_is_current_at_line : ∃ first m received event rest moment,
    Hears m received ∧ m.phase = .waiting ∧
      (debugEvents received).getLast? =
        some (.updateDebug m.stores.globals m.stores.locals.toMap m.phase) ∧
      m.stores.locals.autosave = some "a" ∧
      Emits first (.start none) ⟨m, .event event :: rest, .ok .done⟩ [] (.event event) moment ∧
      event = .updateDebug moment.stores.globals moment.stores.locals.toMap .playing := by
  let script : Script := [⟨none, .creation ⟨.createVar, "x", none⟩⟩, ⟨none, .next "a"⟩,
    ⟨none, .dialogue none none⟩]
  let first := ((new none none (some 8)).load script .empty .empty).machine
  have loaded : Hears first _ := .load (new none none (some 8)) [] script .empty .empty
  have started := loaded.perform (show first.perform 0 (.start none) = some _ from rfl)
  obtain ⟨moment, emits, shown⟩ := mirror_is_current.2 first 0 (.start none) _ rfl [] _ _ rfl rfl
  have playing : .playing = moment.phase := by injection shown
  exact ⟨first, _, _, _, _, moment, started, rfl, mirror_is_current.1 _ _ started nofun, rfl, emits,
    playing ▸ shown⟩

end Machine

end VisualNovel

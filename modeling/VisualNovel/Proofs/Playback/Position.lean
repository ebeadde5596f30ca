import VisualNovel.Proofs.Playback.Insertion
import VisualNovel.Proofs.Playback.Parked
import Mathlib.Data.List.Forall2

namespace VisualNovel

open Script

namespace Machine

variable {m other : Machine} {place : Nat} {script : Script} {keys : List String}

structure Twin (place : Nat) (reply other : Reply α) : Prop where
  machine : Aside place reply.machine other.machine
  signals : other.signals = reply.signals
  result : other.result = reply.result

theorem Twin.behind {reply other : Reply α} (twin : Twin place reply other)
    (earlier : List Signal) : Twin place (reply.behind earlier) (other.behind earlier) :=
  ⟨twin.machine, congrArg (earlier ++ ·) twin.signals, twin.result⟩

theorem Twin.map {reply other : Reply α} (twin : Twin place reply other) (f : α → β) :
    Twin place (reply.map f) (other.map f) :=
  ⟨twin.machine, twin.signals, congrArg (Except.map f) twin.result⟩

theorem Aside.shown (aside : Aside place m other) (signals : List Signal) (value : α) :
    Twin place (m.shown signals value) (other.shown signals value) :=
  ⟨aside, congrArg (fun event => signals ++ [event]) aside.debugEvent, rfl⟩

theorem Aside.rest (aside : Aside place m other) : Aside place m.rest other.rest :=
  { aside with due := rfl }

theorem Aside.drives_longer (aside : Aside place m other) (plays : Plays script none m)
    (inert : script.Inert place) {reply : Reply Unit} (drives : Drives other units reply) :
    ∃ more long, Drives m more long ∧ Twin place long reply := by
  cases drives with
  | rests works within settled =>
    obtain ⟨more, next, worked, ends⟩ := aside.works_longer plays inert works
    have free : ∀ limit ∈ m.stepGuard, more ≤ limit := by simp [plays.stepGuard]
    exact ⟨more, _, .rests worked free (ends.pending.symm.trans settled), ends.rest, rfl, rfl⟩
  | trips works guarded left =>
    rw [aside.stepGuard, plays.stepGuard] at guarded
    cases guarded

theorem Aside.drives_shorter (aside : Aside place m other) (plays : Plays script none m)
    (inert : script.Inert place) {reply : Reply Unit} (drives : Drives m units reply) :
    ∃ fewer short, Drives other fewer short ∧ Twin place reply short := by
  cases drives with
  | rests works within settled =>
    obtain ⟨fewer, next, worked, ends⟩ := aside.works_shorter plays inert works
    have free : ∀ limit ∈ other.stepGuard, fewer ≤ limit := by
      simp [aside.stepGuard, plays.stepGuard]
    exact ⟨fewer, _, .rests worked free (ends.pending.trans settled), ends.rest, rfl, rfl⟩
  | trips works guarded left =>
    rw [plays.stepGuard] at guarded
    cases guarded

theorem Resting.off_inert (resting : Resting keys m) (inert : m.script.Inert place)
    (suspended : m.phase.isSuspended = true) : m.cursor ≠ place := by
  rintro rfl
  obtain ⟨extra, here, command, -⟩ := inert.unsought
  obtain ⟨event, options, parked⟩ := resting.parkedOn suspended
  cases parked with
  | dialogue waiting on kind =>
    cases here.symm.trans on
    rw [command] at kind
    cases kind
  | choice choice on kind =>
    cases here.symm.trans on
    rw [command] at kind
    cases kind

-- Two machines between two calls. The longer script is fixed.
structure Paired (longer : Script) (place : Nat) (keys : List String) (m other : Machine) :
    Prop extends Aside place m other where
  plays : Plays longer none m
  resting : Resting keys m

end Machine

open Machine

section

variable {m other : Machine} {place : Nat} {script : Script} {keys : List String} {drive : Drive}

theorem Script.Inert.ne_nil (inert : script.Inert place) : script ≠ [] := by
  obtain ⟨extra, here, -⟩ := inert.unsought
  exact List.ne_nil_of_mem (List.mem_of_getElem? here)

theorem Drive.opening?_beside (paired : Paired script place keys m other)
    (inert : script.Inert place) (nonempty : other.script ≠ []) (drive : Drive) :
    Option.Rel (Beside place) (drive.opening? m) (drive.opening? other) := by
  have aside := paired.toAside
  have here : m.script.Inert place := paired.plays.script ▸ inert
  cases drive with
  | start label =>
    have entry : other.entry? label = m.entry? label := by
      simp only [aside.stores, Machine.entry?]
    simp only [opening?, here.ne_nil, nonempty, false_or, aside.phase, entry]
    split
    · exact .none
    · split
      · have playing : Aside place { m with phase := .playing } { other with phase := .playing } :=
          { aside with phase := rfl }
        exact .some (playing.jumpToLabel here _)
      · exact .some ⟨{ aside with phase := rfl, cursor := by simp [closeUp], due := rfl }, rfl⟩
  | advance =>
    simp only [opening?, aside.phase]
    split
    · rename_i waiting
      have off := paired.resting.off_inert here (by rw [waiting]; rfl)
      have behind : other.cursor + 1 = closeUp place (m.cursor + 1) := by
        rw [closeUp_succ off, aside.cursor]
      exact .some ⟨{ aside with phase := rfl, cursor := behind, due := rfl }, rfl⟩
    · exact .none
  | choose label =>
    simp only [opening?, aside.phase]
    split
    · exact .some (aside.jumpToLabel here label)
    · exact .none

theorem Drive.idle_twin (aside : Aside place m other) (nonempty : m.script ≠ [])
    (otherNonempty : other.script ≠ []) (drive : Drive) :
    Twin place (drive.idle m) (drive.idle other) := by
  cases drive with
  | start label =>
    simp only [idle, nonempty, otherNonempty]
    exact ⟨aside, rfl, rfl⟩
  | advance => exact ⟨aside, rfl, rfl⟩
  | choose label => exact ⟨aside, rfl, rfl⟩

theorem Drive.opening?_cases (paired : Paired script place keys m other)
    (inert : script.Inert place) (nonempty : other.script ≠ []) (drive : Drive) :
    (drive.opening? m = none ∧ drive.opening? other = none) ∨
    ∃ entered otherEntered earlier, drive.opening? m = some (entered, earlier) ∧
      drive.opening? other = some (otherEntered, earlier) ∧
      Aside place entered otherEntered ∧ Plays script none entered := by
  have opened := Drive.opening?_beside paired inert nonempty drive
  cases own : drive.opening? m with
  | none =>
    rw [own] at opened
    cases others : drive.opening? other with
    | none => exact .inl ⟨rfl, rfl⟩
    | some entered => rw [others] at opened; cases opened
  | some entered =>
    rw [own] at opened
    cases others : drive.opening? other with
    | none => rw [others] at opened; cases opened
    | some otherEntered =>
      rw [others] at opened
      obtain ⟨enters, told⟩ : Beside place entered otherEntered := by cases opened; assumption
      have kept := paired.plays.opening own
      exact .inr ⟨entered.1, otherEntered.1, entered.2, rfl, by rw [← told], enters, kept⟩

theorem Drive.Returns.longer (returns : drive.Returns other units reply)
    (paired : Paired script place keys m other) (inert : script.Inert place)
    (nonempty : other.script ≠ []) :
    ∃ more long, drive.Returns m more long ∧ Twin place long reply := by
  have ownNonempty : m.script ≠ [] := paired.plays.script ▸ inert.ne_nil
  rcases Drive.opening?_cases paired inert nonempty drive with ⟨own, others⟩ |
    ⟨entered, otherEntered, earlier, own, others, enters, plays⟩
  · cases returns with
    | idle nothing =>
      exact ⟨0, _, .idle own, Drive.idle_twin paired.toAside ownNonempty nonempty drive⟩
    | drives opening drives => rw [others] at opening; cases opening
  · cases returns with
    | idle nothing => rw [others] at nothing; cases nothing
    | drives opening drives =>
      cases others.symm.trans opening
      obtain ⟨more, long, driven, twin⟩ := enters.drives_longer plays inert drives
      exact ⟨more, _, .drives own driven, twin.behind earlier⟩

theorem Drive.Returns.shorter (returns : drive.Returns m units reply)
    (paired : Paired script place keys m other) (inert : script.Inert place)
    (nonempty : other.script ≠ []) :
    ∃ fewer short, drive.Returns other fewer short ∧ Twin place reply short := by
  have ownNonempty : m.script ≠ [] := paired.plays.script ▸ inert.ne_nil
  rcases Drive.opening?_cases paired inert nonempty drive with ⟨own, others⟩ |
    ⟨entered, otherEntered, earlier, own, others, enters, plays⟩
  · cases returns with
    | idle nothing =>
      exact ⟨0, _, .idle others, Drive.idle_twin paired.toAside ownNonempty nonempty drive⟩
    | drives opening drives => rw [own] at opening; cases opening
  · cases returns with
    | idle nothing => rw [own] at nothing; cases nothing
    | drives opening drives =>
      cases own.symm.trans opening
      obtain ⟨fewer, short, driven, twin⟩ := enters.drives_shorter plays inert drives
      exact ⟨fewer, _, .drives others driven, twin.behind earlier⟩

end

-- The operations that neither replace the script nor tell or take a place in it.
def Operation.placeless : Operation → Bool
  | .load _ _ _ => false
  | .snapshot => false
  | .resume _ => false
  | _ => true

-- What shows of two replies, in all but the place in the script and the number of steps.
structure SameButPlace (reply other : Reply Answer) : Prop where
  result : other.result = reply.result
  signals : other.signals = reply.signals
  phase : other.machine.phase = reply.machine.phase
  globals : other.machine.stores.globals = reply.machine.stores.globals
  locals : other.machine.stores.locals = reply.machine.stores.locals
  environment : other.machine.stores.environment = reply.machine.stores.environment
  generator : other.machine.generator = reply.machine.generator
  lastFault : other.machine.lastFault = reply.machine.lastFault
  stalled : other.machine.isStalled = reply.machine.isStalled

namespace Machine

inductive Replies : Machine → List Operation → List (Reply Answer) → Prop where
  | nil : Replies m [] []
  | cons (returned : m.perform budget operation = some reply)
      (further : reply.machine.Replies more later) : Replies m (operation :: more) (reply :: later)

-- Whatever one of two machines is asked, the other answers too, and differs in its place only.
structure Interchangeable (m other : Machine) : Prop where
  longer : ∀ operations, (∀ operation ∈ operations, operation.placeless = true) →
    ∀ others, other.Replies operations others →
      ∃ own, m.Replies operations own ∧ List.Forall₂ SameButPlace own others
  shorter : ∀ operations, (∀ operation ∈ operations, operation.placeless = true) →
    ∀ own, m.Replies operations own →
      ∃ others, other.Replies operations others ∧ List.Forall₂ SameButPlace own others

variable {m other : Machine} {place : Nat} {script : Script} {keys : List String}
  {operation : Operation}

theorem Twin.sameButPlace {reply short : Reply Answer} (twin : Twin place reply short) :
    SameButPlace reply short where
  result := twin.result
  signals := twin.signals
  phase := twin.machine.phase
  globals := by rw [twin.machine.stores]
  locals := by rw [twin.machine.stores]
  environment := by rw [twin.machine.stores]
  generator := twin.machine.generator
  lastFault := twin.machine.lastFault
  stalled := twin.machine.isStalled

theorem Aside.withStores (aside : Aside place m other) (stores : Stores) :
    Aside place { m with stores := stores } { other with stores := stores } :=
  { aside with stores := rfl }

theorem Aside.withLocals (aside : Aside place m other) (locals : LocalStore) :
    Aside place (m.withLocals locals) (other.withLocals locals) := by
  unfold Machine.withLocals
  rw [aside.stores]
  exact aside.withStores _

theorem Aside.withGlobals (aside : Aside place m other) (globals : ValueMap) :
    Aside place (m.withGlobals globals) (other.withGlobals globals) := by
  unfold Machine.withGlobals
  rw [aside.stores]
  exact aside.withStores _

theorem Aside.stop (aside : Aside place m other) : Twin place m.stop other.stop := by
  unfold Machine.stop
  rw [aside.phase]
  split
  · exact ⟨aside, rfl, rfl⟩
  · have idle : Aside place { m with phase := .idle, due := false }
        { other with phase := .idle, due := false } := { aside with phase := rfl, due := rfl }
    exact idle.shown [] ()

theorem Aside.setEnvironment (aside : Aside place m other) (key : String) (value : Bool) :
    Twin place (m.setEnvironment key value) (other.setEnvironment key value) := by
  unfold Machine.setEnvironment
  rw [aside.stores]
  split
  · exact ⟨aside.withStores _, rfl, rfl⟩
  · exact ⟨{ aside with stores := rfl, lastFault := rfl }, rfl, rfl⟩

theorem Paired.currentBoundary? (paired : Paired script place keys m other)
    (inert : script.Inert place) : other.currentBoundary? = m.currentBoundary? := by
  cases suspended : m.phase.isSuspended with
  | false =>
    have running : other.phase.isSuspended = false := by rw [paired.phase, suspended]
    rw [currentBoundary?_of_running suspended, currentBoundary?_of_running running]
  | true =>
    have off := paired.resting.off_inert (paired.plays.script ▸ inert) suspended
    have same := paired.toAside.currentStep? off
    simp only [Machine.currentBoundary?, same, paired.phase, sayEvent, paired.stores]

theorem Paired.perform_still (paired : Paired script place keys m other)
    (inert : script.Inert place) (placeless : operation.placeless = true)
    (still : ∀ drive : Drive, operation ≠ drive.operation) :
    ∃ long short, (∀ budget, m.perform budget operation = some long) ∧
      (∀ budget, other.perform budget operation = some short) ∧ Twin place long short := by
  have aside := paired.toAside
  cases operation with
  | load script globals locals => cases placeless
  | snapshot => cases placeless
  | resume s => cases placeless
  | start label => exact absurd rfl (still (.start label))
  | advance => exact absurd rfl (still .advance)
  | choose label => exact absurd rfl (still (.choose label))
  | stop => exact ⟨_, _, fun _ => rfl, fun _ => rfl, aside.stop.map _⟩
  | setEnvironment key value =>
    exact ⟨_, _, fun _ => rfl, fun _ => rfl, (aside.setEnvironment key value).map _⟩
  | getVariable key =>
    refine ⟨_, _, fun _ => rfl, fun _ => rfl, aside, rfl, ?_⟩
    simp only [localValue?, aside.stores]
  | setVariable key value =>
    refine ⟨_, _, fun _ => rfl, fun _ => rfl, Twin.map ?_ _⟩
    simp only [Machine.setVariable, setLocal, aside.stores]
    exact (aside.withLocals _).shown _ ()
  | deleteVariable key =>
    refine ⟨_, _, fun _ => rfl, fun _ => rfl, Twin.map ?_ _⟩
    simp only [Machine.deleteVariable, aside.stores]
    exact (aside.withLocals _).shown [] _
  | getGlobal key =>
    refine ⟨_, _, fun _ => rfl, fun _ => rfl, aside, rfl, ?_⟩
    simp only [globalValue?, aside.stores]
  | setGlobal key value =>
    refine ⟨_, _, fun _ => rfl, fun _ => rfl, Twin.map ?_ _⟩
    simp only [Machine.setGlobal, aside.stores]
    exact (aside.withGlobals _).shown [] ()
  | deleteGlobal key =>
    refine ⟨_, _, fun _ => rfl, fun _ => rfl, Twin.map ?_ _⟩
    simp only [Machine.deleteGlobal, globalValue?, aside.stores]
    exact (aside.withGlobals _).shown [] _
  | boundary =>
    refine ⟨_, _, fun _ => rfl, fun _ => rfl, aside, rfl, ?_⟩
    rw [paired.currentBoundary? inert]

theorem Paired.nonempty (paired : Paired script place keys m other)
    (nonempty : script.eraseIdx place ≠ []) : other.script ≠ [] := by
  rw [paired.script, paired.plays.script]
  exact nonempty

theorem Paired.perform (paired : Paired script place keys m other)
    (placeless : operation.placeless = true) (returned : m.perform budget operation = some long)
    (twin : Twin place long short) : Paired script place keys long.machine short.machine := by
  have kept : ∀ script globals locals, operation ≠ .load script globals locals := by
    rintro script globals locals rfl
    cases placeless
  exact ⟨twin.machine, paired.plays.perform kept returned, paired.resting.perform returned⟩

theorem Paired.perform_longer (paired : Paired script place keys m other)
    (inert : script.Inert place) (nonempty : script.eraseIdx place ≠ [])
    (placeless : operation.placeless = true)
    (returned : other.perform budget operation = some short) :
    ∃ budget long, m.perform budget operation = some long ∧ Twin place long short := by
  by_cases driven : ∃ drive : Drive, operation = drive.operation
  · obtain ⟨drive, rfl⟩ := driven
    obtain ⟨units, reply, returns, rfl⟩ := Drive.returns_of_perform returned
    obtain ⟨more, long, longer, twin⟩ := returns.longer paired inert (paired.nonempty nonempty)
    exact ⟨more, long.done, longer.performs, twin.map _⟩
  · obtain ⟨long, own, performs, performed, twin⟩ := paired.perform_still inert placeless
      fun drive same => driven ⟨drive, same⟩
    cases (performed budget).symm.trans returned
    exact ⟨0, long, performs 0, twin⟩

theorem Paired.perform_shorter (paired : Paired script place keys m other)
    (inert : script.Inert place) (nonempty : script.eraseIdx place ≠ [])
    (placeless : operation.placeless = true)
    (returned : m.perform budget operation = some long) :
    ∃ budget short, other.perform budget operation = some short ∧ Twin place long short := by
  by_cases driven : ∃ drive : Drive, operation = drive.operation
  · obtain ⟨drive, rfl⟩ := driven
    obtain ⟨units, reply, returns, rfl⟩ := Drive.returns_of_perform returned
    obtain ⟨fewer, short, shorter, twin⟩ := returns.shorter paired inert (paired.nonempty nonempty)
    exact ⟨fewer, short.done, shorter.performs, twin.map _⟩
  · obtain ⟨own, short, performed, performs, twin⟩ := paired.perform_still inert placeless
      fun drive same => driven ⟨drive, same⟩
    cases (performed budget).symm.trans returned
    exact ⟨0, short, performs 0, twin⟩

theorem Paired.replies_longer (paired : Paired script place keys m other)
    (inert : script.Inert place) (nonempty : script.eraseIdx place ≠ [])
    (placeless : ∀ operation ∈ operations, operation.placeless = true)
    (replies : other.Replies operations shorter) :
    ∃ longer, m.Replies operations longer ∧ List.Forall₂ SameButPlace longer shorter := by
  induction replies generalizing m with
  | nil => exact ⟨[], .nil, .nil⟩
  | cons returned _ ih =>
    obtain ⟨here, after⟩ := List.forall_mem_cons.1 placeless
    obtain ⟨budget, long, performed, twin⟩ :=
      paired.perform_longer inert nonempty here returned
    obtain ⟨longer, further, same⟩ := ih (paired.perform here performed twin) after
    exact ⟨long :: longer, .cons performed further, .cons twin.sameButPlace same⟩

theorem Paired.replies_shorter (paired : Paired script place keys m other)
    (inert : script.Inert place) (nonempty : script.eraseIdx place ≠ [])
    (placeless : ∀ operation ∈ operations, operation.placeless = true)
    (replies : m.Replies operations longer) :
    ∃ shorter, other.Replies operations shorter ∧ List.Forall₂ SameButPlace longer shorter := by
  induction replies generalizing other with
  | nil => exact ⟨[], .nil, .nil⟩
  | cons returned _ ih =>
    obtain ⟨here, after⟩ := List.forall_mem_cons.1 placeless
    obtain ⟨budget, short, performed, twin⟩ :=
      paired.perform_shorter inert nonempty here returned
    obtain ⟨shorter, further, same⟩ := ih (paired.perform here returned twin) after
    exact ⟨short :: shorter, .cons performed further, .cons twin.sameButPlace same⟩

variable {front back : Script} {extra : Step}

theorem inert_inserted (command : extra.kind = .command)
    (unsought : ∀ step ∈ front ++ back, ∀ id, step.kind.fallback? = some id →
      extra.id ≠ some id) : Script.Inert (front ++ extra :: back) front.length := by
  refine ⟨extra, by simp, command, ?_⟩
  intro step member id sought
  rcases List.mem_append.1 member with before | after
  · exact unsought step (List.mem_append_left _ before) id sought
  · rcases List.mem_cons.1 after with rfl | behind
    · rw [command] at sought
      cases sought
    · exact unsought step (List.mem_append_right _ behind) id sought

theorem eraseIdx_inserted (front back : Script) (extra : Step) :
    (front ++ extra :: back).eraseIdx front.length = front ++ back := by
  simp [List.eraseIdx_append_of_length_le]

theorem paired_load {first second : Machine} (free : first.stepGuard = none)
    (guard : second.stepGuard = first.stepGuard) (seed : second.seed = first.seed)
    (environment : second.stores.environment = first.stores.environment)
    (front back : Script) (extra : Step) (globals locals : ValueMap) :
    Paired (front ++ extra :: back) front.length first.stores.environment.keys
      (first.load (front ++ extra :: back) globals locals).machine
      (second.load (front ++ back) globals locals).machine := by
  have stores : (⟨globals, .ofMap locals, second.stores.environment⟩ : Stores) =
      ⟨globals, .ofMap locals, first.stores.environment⟩ := by rw [environment]
  have generator : (⟨second.seed⟩ : Generator) = ⟨first.seed⟩ := by rw [seed]
  refine ⟨⟨⟨stores, generator, rfl⟩, (eraseIdx_inserted front back extra).symm, ?_, guard, rfl,
    rfl⟩, ⟨rfl, free⟩, ⟨⟨Nat.zero_le _, trivial, rfl, LocalStore.tidy_ofMap locals⟩, rfl, nofun⟩⟩
  simp [Machine.load, shown, resetRun, closeUp]

-- Whether another step has the id of the inserted one does not matter, as long as no condition asks
-- for it.
theorem insertion_unnoticed (nonempty : front ++ back ≠ []) (command : extra.kind = .command)
    (unsought : ∀ step ∈ front ++ back, ∀ id, step.kind.fallback? = some id → extra.id ≠ some id)
    {first second : Machine} (free : first.stepGuard = none)
    (otherFree : second.stepGuard = none) (seed : second.seed = first.seed)
    (environment : second.stores.environment = first.stores.environment)
    (globals locals : ValueMap) :
    SameButPlace (first.load (front ++ extra :: back) globals locals).done
        (second.load (front ++ back) globals locals).done ∧
      Interchangeable (first.load (front ++ extra :: back) globals locals).machine
        (second.load (front ++ back) globals locals).machine := by
  have paired := paired_load free (otherFree.trans free.symm) seed environment front back extra
    globals locals
  have inert := inert_inserted command unsought
  have others : (front ++ extra :: back).eraseIdx front.length ≠ [] := by
    rwa [eraseIdx_inserted]
  refine ⟨?_, ?_, ?_⟩
  · have loaded := paired.toAside.shown (refusals (LocalStore.mapNotices locals)) ()
    exact (loaded.map fun _ => Answer.done).sameButPlace
  · intro operations placeless shorter replies
    exact paired.replies_longer inert others placeless replies
  · intro operations placeless longer replies
    exact paired.replies_shorter inert others placeless replies

-- A story of one line, with a step before that line that has an id. It is counted.
theorem insertion_unnoticed_before_a_line :
    let front : Script := [⟨none, .label "a"⟩]
    let back : Script := [⟨none, .dialogue none (some "hm")⟩]
    let longer := ((new none none none).load (front ++ ⟨some (.number 7), .command⟩ :: back)
      .empty .empty).machine
    let shorter := ((new none none none).load (front ++ back) .empty .empty).machine
    Interchangeable longer shorter ∧ ∃ told others,
      shorter.Replies [.start (some "a"), .advance] told ∧
      longer.Replies [.start (some "a"), .advance] others ∧
      List.Forall₂ SameButPlace others told ∧
      told.map (fun reply => reply.machine.phase) = [.waiting, .ended] ∧
      told.map (fun reply => reply.machine.stepCount) = [2, 2] := by
  intro front back longer shorter
  have unsought : ∀ step ∈ front ++ back, ∀ id, step.kind.fallback? = some id →
      (⟨some (.number 7), .command⟩ : Step).id ≠ some id := by
    intro step member id sought
    rcases List.mem_cons.1 member with rfl | last
    · cases sought
    · cases List.mem_singleton.1 last
      cases sought
  have nonempty : front ++ back ≠ [] := nofun
  have free : (new none none none).stepGuard = none := rfl
  obtain ⟨-, alike⟩ :=
    insertion_unnoticed nonempty rfl unsought free free rfl rfl .empty .empty
  have started : shorter.perform 3 (.start (some "a")) = some _ := rfl
  have told := Replies.cons started
    (.cons (show Machine.perform 2 _ .advance = some _ from rfl) .nil)
  obtain ⟨others, answered, same⟩ := alike.longer _ (by decide) _ told
  exact ⟨alike, _, others, told, answered, same, rfl, rfl⟩

end Machine

end VisualNovel

import VisualNovel.Proofs.Playback.Reload
import VisualNovel.Proofs.Random.Rejection
import VisualNovel.Proofs.Store.Outcome

namespace VisualNovel

namespace StepKind

-- The local variable that a step can write. Two kinds of step have a reserved one of their own.
def writesLocal? : StepKind → Option String
  | .creation ⟨.createVar, var, _⟩ => some var
  | .modifyVariable mutation => some mutation.var
  | .next _ => some autosaveKey
  | .unlockDialogues _ => some unlockedKey
  | _ => none

def writesGlobal? : StepKind → Option String
  | .creation ⟨.createGlobal, var, _⟩ => some var
  | .modifyGlobal mutation => some mutation.var
  | _ => none

def stop? : StepKind → Option Phase
  | .dialogue _ _ => some .waiting
  | .choice _ => some .choice
  | .finishDialogue => some .ended
  | _ => none

end StepKind

inductive Target where
  | label (name : String)
  | id (own : StepId)
deriving DecidableEq

namespace Target

def Fits : Target → Step → Prop
  | .label name, step => step.kind = .label name
  | .id own, step => step.id = some own

def index? (script : Script) : Target → Option Nat
  | .label name => script.labelIndex? name
  | .id own => script.idIndex? own

def jump (m : Machine) : Target → Machine × List Signal
  | .label name => m.jumpToLabel name
  | .id own => m.jumpToId own

def fault : Target → Fault
  | .label name => .unresolvedLabel name
  | .id own => .unresolvedStepId own

def record : Target → Record
  | .label name => .labelNotFound name
  | .id own => .stepIdNotFound own

end Target

-- The step with this index fits, and none before it does.
structure Script.First (script : Script) (target : Target) (index : Nat) : Prop where
  here : ∃ step, script[index]? = some step ∧ target.Fits step
  before : ∀ earlier < index, ∀ step, script[earlier]? = some step → ¬ target.Fits step

def Stores.after (stores : Stores) : StepKind → Stores
  | .creation ⟨.createVar, var, init⟩ =>
    { stores with locals := stores.locals.set var (init.getD .zero) }
  | .creation ⟨.createGlobal, var, init⟩ =>
    if stores.globals.contains var then stores
    else { stores with globals := stores.globals.insert var (init.getD .zero) }
  | .next label => { stores with locals := stores.locals.setAutosave label }
  | .modifyVariable mutation => { stores with locals := (mutation.apply stores.locals).store }
  | .modifyGlobal mutation => { stores with globals := (mutation.apply stores.globals).store }
  | .unlockDialogues labels => { stores with locals := stores.locals.unlockAll labels }
  | _ => stores

namespace Machine

variable {m next : Machine} {step : Step} {target : Target}

def target? (m : Machine) (step : Step) : Option Target :=
  match step.kind with
  | .transition label => some (.label label)
  | .idleChat =>
    if m.stores.locals.unlocked = [] then none
    else
      (m.generator.pick? m.stores.locals.unlocked.length).bind fun pick =>
        m.stores.locals.unlocked[pick.1]?.map .label
  | .conditional condition =>
    if m.stores.satisfies .locals condition then none else condition.fallback.map .id
  | .conditionalGlobal condition =>
    if m.stores.satisfies .globals condition then none else condition.fallback.map .id
  | _ => none

def skipped? (m : Machine) (step : Step) : Option Fault :=
  match step.kind with
  | .conditional condition =>
    if m.stores.satisfies .locals condition then none
    else some (.conditionFailureWithoutFallback step.id)
  | .conditionalGlobal condition =>
    if m.stores.satisfies .globals condition then none
    else some (.conditionFailureWithoutFallback step.id)
  | .unknown typeName _ => some (.unknownStepType step.id typeName)
  | _ => none

structure Frame (kind : StepKind) (m next : Machine) : Prop where
  untouched : Untouched { m with stepCount := m.stepCount + 1 } next
  locals : ∀ key, kind.writesLocal? ≠ some key →
    next.stores.locals.get? key = m.stores.locals.get? key
  sameLocals : kind.writesLocal? = none → next.stores.locals = m.stores.locals
  globals : ∀ key, kind.writesGlobal? ≠ some key →
    next.stores.globals.get? key = m.stores.globals.get? key
  sameGlobals : kind.writesGlobal? = none → next.stores.globals = m.stores.globals
  created : ∀ var init, kind = .creation ⟨.createGlobal, var, init⟩ →
    m.stores.globals.contains var = true → next.stores.globals = m.stores.globals
  autosave : ∀ label, kind = .next label →
    next.stores.locals = { m.stores.locals with autosave := some label }
  unlocked : ∀ labels, kind = .unlockDialogues labels →
    ∃ added, (∀ label ∈ added, label ∈ labels) ∧ next.stores.locals =
      { m.stores.locals with unlocked := m.stores.locals.unlocked ++ added }
  generator : kind ≠ .idleChat ∨ m.stores.locals.unlocked = [] → next.generator = m.generator

-- How a jump ends: on the first step that fits, or where the machine was if there is none.
structure Lands (m : Machine) (target : Target) (next : Machine) (signals : List Signal) :
    Prop where
  found : ∀ index, m.script.First target index →
    next.cursor = index ∧ next.phase = .playing ∧ next.due = true ∧ next.lastFault = m.lastFault
  lost : (∀ step ∈ m.script, ¬ target.Fits step) →
    next.cursor = m.cursor ∧ next.phase = m.phase ∧ next.due = false ∧
      next.lastFault = some target.fault
  stores : next.stores = m.stores
  silent : events signals = []

structure Moves (m : Machine) (step : Step) (next : Machine) (signals : List Signal) : Prop where
  jumps : ∀ target, m.target? step = some target → m.Lands target next signals
  stops : ∀ phase, step.kind.stop? = some phase →
    next.cursor = m.cursor ∧ next.phase = phase ∧ next.due = false ∧ next.lastFault = m.lastFault
  goesOn : m.target? step = none → step.kind.stop? = none →
    next.cursor = m.cursor + 1 ∧ next.phase = .playing ∧ next.due = true ∧
      next.lastFault = (m.skipped? step).or m.lastFault

end Machine

namespace Target

theorem index?_eq_some_iff {script : Script} {target : Target} :
    target.index? script = some index ↔ script.First target index := by
  have first : target.index? script = some index ↔
      (∃ step, script[index]? = some step ∧ target.Fits step) ∧
        ∀ earlier < index, ∀ step, script[earlier]? = some step → ¬ target.Fits step := by
    cases target with
    | label name => exact Script.findIdx?_eq_some_iff_first (Script.labelled_iff name)
    | id own => exact Script.findIdx?_eq_some_iff_first fun step => decide_eq_true_iff
  exact first.trans ⟨fun ⟨here, before⟩ => ⟨here, before⟩, fun ⟨here, before⟩ => ⟨here, before⟩⟩

theorem jump_eq (m : Machine) (target : Target) : target.jump m =
    match target.index? m.script with
    | some index => (m.landOn index, [])
    | none => ({ m with lastFault := some target.fault }, [.record target.record]) := by
  cases target <;> rfl

end Target

namespace Stores

variable {kind : StepKind}

theorem locals_after_of_ne (stores : Stores) (other : kind.writesLocal? ≠ some key) :
    (stores.after kind).locals.get? key = stores.locals.get? key := by
  cases kind with
  | creation what =>
    obtain ⟨action, var, init⟩ := what
    cases action with
    | createVar =>
      exact LocalStore.get?_set_of_ne _ (fun same => other (congrArg some same.symm)) _
    | createGlobal => dsimp only [after]; split <;> rfl
    | other => rfl
  | next label =>
    exact LocalStore.get?_setAutosave_of_ne _ (fun same => other (congrArg some same.symm)) label
  | modifyVariable mutation =>
    exact Mutation.read_apply_of_ne stores.locals fun same => other (congrArg some same.symm)
  | unlockDialogues labels =>
    exact LocalStore.get?_unlockAll_of_ne _ (fun same => other (congrArg some same.symm)) labels
  | _ => rfl

theorem locals_after_of_none (stores : Stores) (unwritten : kind.writesLocal? = none) :
    (stores.after kind).locals = stores.locals := by
  cases kind with
  | creation what =>
    obtain ⟨action, var, init⟩ := what
    cases action with
    | createVar => cases unwritten
    | createGlobal => dsimp only [after]; split <;> rfl
    | other => rfl
  | next label => cases unwritten
  | modifyVariable mutation => cases unwritten
  | unlockDialogues labels => cases unwritten
  | _ => rfl

theorem globals_after_of_ne (stores : Stores) (other : kind.writesGlobal? ≠ some key) :
    (stores.after kind).globals.get? key = stores.globals.get? key := by
  cases kind with
  | creation what =>
    obtain ⟨action, var, init⟩ := what
    cases action with
    | createVar => rfl
    | createGlobal =>
      dsimp only [after]
      split
      · rfl
      · exact Dict.get?_insert_of_ne _ _ fun same => other (congrArg some same.symm)
    | other => rfl
  | modifyGlobal mutation =>
    exact Mutation.read_apply_of_ne stores.globals fun same => other (congrArg some same.symm)
  | _ => rfl

theorem globals_after_of_none (stores : Stores) (unwritten : kind.writesGlobal? = none) :
    (stores.after kind).globals = stores.globals := by
  refine Dict.ext_get? fun key => globals_after_of_ne stores ?_
  rw [unwritten]
  nofun

end Stores

namespace Machine

variable {m next : Machine} {step : Step}

-- The ways of a step, from a machine on which nothing is due.
inductive Takes (m : Machine) (step : Step) : Machine × List Signal → Prop where
  | goesOn (stores : Stores) (fault : Option Fault) (signals : List Signal)
      (written : m.stores.after step.kind = stores) (here : m.target? step = none)
      (free : step.kind.stop? = none) (noted : (m.skipped? step).or m.lastFault = fault) :
      Takes m step ({ m with stores := stores, lastFault := fault }.proceed, signals)
  | jumps {target : Target} (generator : Generator)
      (unwritten : m.stores.after step.kind = m.stores) (sought : m.target? step = some target)
      (free : step.kind.stop? = none)
      (drawn : generator = m.generator ∨ step.kind = .idleChat ∧ m.stores.locals.unlocked ≠ []) :
      Takes m step (target.jump { m with generator := generator })
  | stops (phase : Phase) (signals : List Signal)
      (unwritten : m.stores.after step.kind = m.stores) (here : m.target? step = none)
      (stop : step.kind.stop? = some phase) :
      Takes m step ({ m with phase := phase, due := false }, signals)

theorem takes_create (kind : step.kind = .creation what) :
    Takes m step (showAndProceed (m.create what)) := by
  have here : m.target? step = none := by simp [target?, kind]
  have free : step.kind.stop? = none := by simp [StepKind.stop?, kind]
  have noted : (m.skipped? step).or m.lastFault = m.lastFault := by simp [skipped?, kind]
  obtain ⟨action, var, init⟩ := what
  cases action with
  | createVar => exact .goesOn _ _ _ (by rw [kind]; rfl) here free noted
  | createGlobal =>
    dsimp only [create]
    split
    · rename_i known
      exact .goesOn m.stores _ _ (by rw [kind]; exact if_pos known) here free noted
    · rename_i new
      exact .goesOn _ _ _ (by rw [kind]; exact if_neg new) here free noted
  | other => exact .goesOn m.stores _ _ (by rw [kind]; rfl) here free noted

theorem exists_label (m : Machine) (filled : m.stores.locals.unlocked ≠ []) :
    ∃ index later, m.generator.pick? m.stores.locals.unlocked.length = some (index, later) ∧
      ∃ label, m.stores.locals.unlocked[index]? = some label := by
  obtain ⟨-, -, index, later, -, picked, inside⟩ :=
    m.generator.exists_pick (List.length_pos_iff.2 filled)
  exact ⟨index, later, picked, _, List.getElem?_eq_getElem inside⟩

theorem takes_chat (kind : step.kind = .idleChat) (filled : m.stores.locals.unlocked ≠ []) :
    Takes m step m.chat := by
  obtain ⟨index, later, picked, label, there⟩ := exists_label m filled
  have sought : m.target? step = some (.label label) := by
    simp [target?, kind, filled, picked, there]
  have jumped : m.chat = (Target.label label).jump { m with generator := later } := by
    simp [chat, picked, there, Target.jump]
  rw [jumped]
  exact .jumps later (by rw [kind]; rfl) sought (by rw [kind]; rfl) (.inr ⟨kind, filled⟩)

theorem takes_branch {condition : Condition} (unwritten : m.stores.after step.kind = m.stores)
    (free : step.kind.stop? = none)
    (sought : m.target? step =
      if m.stores.satisfies scope condition then none else condition.fallback.map .id)
    (noted : m.skipped? step =
      if m.stores.satisfies scope condition then none
      else some (.conditionFailureWithoutFallback step.id)) :
    Takes m step (m.branch step.id scope condition) := by
  unfold branch
  split
  · rename_i holds
    rw [if_pos holds] at sought noted
    exact .goesOn m.stores m.lastFault [] unwritten sought free (by rw [noted]; rfl)
  · rename_i fails
    rw [if_neg fails] at sought noted
    split
    · rename_i own fallback
      rw [fallback] at sought
      exact .jumps m.generator unwritten sought free (.inl rfl)
    · rename_i fallback
      rw [fallback] at sought
      exact .goesOn m.stores _ _ unwritten sought free (by rw [noted]; rfl)

theorem takes_execute (m : Machine) (step : Step) :
    Takes m.taking step (m.taking.execute step) := by
  unfold execute
  cases kind : step.kind with
  | creation what => exact takes_create kind
  | transition label =>
    have sought : m.taking.target? step = some (.label label) := by simp [target?, kind]
    exact .jumps m.generator (by rw [kind]; rfl) sought (by rw [kind]; rfl) (.inl rfl)
  | idleChat =>
    dsimp only
    split
    · rename_i empty
      have here : m.taking.target? step = none := by simp [target?, kind, empty]
      have noted : (m.taking.skipped? step).or m.lastFault = m.lastFault := by simp [skipped?, kind]
      exact .goesOn m.stores m.lastFault [] (by rw [kind]; rfl) here (by rw [kind]; rfl) noted
    · rename_i filled
      exact takes_chat kind filled
  | conditional condition =>
    exact takes_branch (by rw [kind]; rfl) (by rw [kind]; rfl) (by simp only [target?, kind])
      (by simp only [skipped?, kind])
  | conditionalGlobal condition =>
    exact takes_branch (by rw [kind]; rfl) (by rw [kind]; rfl) (by simp only [target?, kind])
      (by simp only [skipped?, kind])
  | dialogue label content =>
    exact .stops .waiting _ (by rw [kind]; rfl) (by simp [target?, kind]) (by rw [kind]; rfl)
  | choice options =>
    exact .stops .choice _ (by rw [kind]; rfl) (by simp [target?, kind]) (by rw [kind]; rfl)
  | finishDialogue =>
    exact .stops .ended _ (by rw [kind]; rfl) (by simp [target?, kind]) (by rw [kind]; rfl)
  | _ =>
    exact .goesOn _ _ _ (by rw [kind]; rfl) (by simp [target?, kind]) (by rw [kind]; rfl)
      (by simp only [skipped?, kind]; rfl)

theorem Takes.stores (taken : Takes m step after) : after.1.stores = m.stores.after step.kind := by
  cases taken with
  | goesOn stores fault signals written here free noted => exact written.symm
  | jumps generator unwritten sought free drawn =>
    rw [unwritten, Target.jump_eq]
    split <;> rfl
  | stops phase signals unwritten here stop => exact unwritten.symm

theorem Takes.generator (taken : Takes m step after)
    (still : step.kind ≠ .idleChat ∨ m.stores.locals.unlocked = []) :
    after.1.generator = m.generator := by
  cases taken with
  | goesOn stores fault signals written here free noted => rfl
  | jumps generator unwritten sought free drawn =>
    have same : generator = m.generator := drawn.resolve_right fun chats =>
      still.elim (· chats.1) chats.2
    rw [Target.jump_eq]
    split <;> exact same
  | stops phase signals unwritten here stop => rfl

theorem frame_execute (m : Machine) (step : Step) :
    Frame step.kind m (m.taking.execute step).1 := by
  have stores : (m.taking.execute step).1.stores = m.stores.after step.kind :=
    (takes_execute m step).stores
  have untouched := (execute_leaves m.taking step).untouched
  exact
    { untouched := ⟨untouched.script, untouched.seed, untouched.stepGuard, untouched.stepCount,
        untouched.environment⟩
      locals := fun key other => by rw [stores, Stores.locals_after_of_ne m.stores other]
      sameLocals := fun unwritten => by
        rw [stores, Stores.locals_after_of_none m.stores unwritten]
      globals := fun key other => by rw [stores, Stores.globals_after_of_ne m.stores other]
      sameGlobals := fun unwritten => by
        rw [stores, Stores.globals_after_of_none m.stores unwritten]
      created := fun var init kind known => by rw [stores, kind, Stores.after, if_pos known]
      autosave := fun label kind => by rw [stores, kind]; rfl
      unlocked := fun labels kind => by
        rw [stores, kind]
        exact LocalStore.unlockAll_eq_append m.stores.locals labels
      generator := (takes_execute m step).generator }

theorem lands_jump (m : Machine) (generator : Generator) (target : Target) :
    m.Lands target (target.jump { m.taking with generator := generator }).1
      (target.jump { m.taking with generator := generator }).2 := by
  rw [Target.jump_eq]
  cases sought : target.index? m.script with
  | some found =>
    have sought' : target.index? m.taking.script = some found := sought
    simp only [sought']
    refine ⟨fun index first => ?_, fun missing => ?_, rfl, rfl⟩
    · have same := sought.symm.trans (Target.index?_eq_some_iff.2 first)
      exact ⟨Option.some.inj same, rfl, rfl, rfl⟩
    · obtain ⟨step, there, fits⟩ := (Target.index?_eq_some_iff.1 sought).here
      exact absurd fits (missing step (List.mem_of_getElem? there))
  | none =>
    have sought' : target.index? m.taking.script = none := sought
    simp only [sought']
    refine ⟨fun index first => ?_, fun _ => ⟨rfl, rfl, rfl, rfl⟩, rfl, rfl⟩
    cases sought.symm.trans (Target.index?_eq_some_iff.2 first)

theorem moves_execute (playing : m.phase = .playing) (step : Step) :
    Moves m step (m.taking.execute step).1 (m.taking.execute step).2 := by
  have taken := takes_execute m step
  generalize m.taking.execute step = after at taken ⊢
  cases taken with
  | goesOn stores fault signals written here free noted =>
    refine ⟨fun target sought => ?_, fun phase stop => ?_,
      fun _ _ => ⟨rfl, playing, rfl, noted.symm⟩⟩
    · cases here.symm.trans sought
    · cases free.symm.trans stop
  | jumps generator unwritten sought free drawn =>
    refine ⟨fun target sought' => ?_, fun phase stop => ?_, fun here _ => ?_⟩
    · cases sought.symm.trans sought'
      exact lands_jump m generator _
    · cases free.symm.trans stop
    · cases sought.symm.trans here
  | stops phase signals unwritten here stop =>
    refine ⟨fun target sought => ?_, fun phase' stop' => ?_, fun _ free => ?_⟩
    · cases here.symm.trans sought
    · cases stop.symm.trans stop'
      exact ⟨rfl, rfl, rfl, rfl⟩
    · cases stop.symm.trans free

theorem target?_of_idleChat (kind : step.kind = .idleChat)
    (filled : m.stores.locals.unlocked ≠ []) :
    ∃ label ∈ m.stores.locals.unlocked, m.target? step = some (.label label) := by
  obtain ⟨index, later, picked, label, there⟩ := exists_label m filled
  exact ⟨label, List.mem_of_getElem? there, by simp [target?, kind, filled, picked, there]⟩

theorem step_effect (playing : m.phase = .playing) (here : m.currentStep? = some step) :
    Frame step.kind m m.work.1 ∧ Moves m step m.work.1 m.work.2 ∧
      (step.kind = .idleChat → m.stores.locals.unlocked ≠ [] →
        ∃ label ∈ m.stores.locals.unlocked, m.target? step = some (.label label)) := by
  rw [work_eq here]
  exact ⟨frame_execute m step, moves_execute playing step, target?_of_idleChat⟩

-- Idle chat whose only dialogue is in no step: the machine stays where it is, and says nothing.
theorem step_effect_at_lost_chat :
    let m : Machine :=
      { new none none (some 4) with
        script := [⟨none, .label "top"⟩, ⟨none, .idleChat⟩], cursor := 1, phase := .playing
        stores := ⟨.empty, { LocalStore.empty with unlocked := ["attic"] }, .standard⟩ }
    m.phase = .playing ∧ m.currentStep? = some ⟨none, .idleChat⟩ ∧
      m.stores.locals.unlocked = ["attic"] ∧ m.work.1.stores = m.stores ∧
      m.work.1.cursor = 1 ∧ m.work.1.phase = .playing ∧ m.work.1.due = false ∧
      m.work.1.lastFault = some (.unresolvedLabel "attic") ∧ events m.work.2 = [] := by
  intro m
  have here : m.currentStep? = some ⟨none, .idleChat⟩ := rfl
  obtain ⟨-, moves, chats⟩ := step_effect rfl here
  obtain ⟨label, listed, sought⟩ := chats rfl (by simp [m])
  have only : label = "attic" := List.mem_singleton.1 listed
  subst only
  have lands := moves.jumps _ sought
  have missing : ∀ step ∈ m.script, ¬ (Target.label "attic").Fits step := by
    simp [m, Target.Fits]
  obtain ⟨cursor, phase, due, fault⟩ := lands.lost missing
  exact ⟨rfl, rfl, rfl, lands.stores, cursor, phase, due, fault, lands.silent⟩

end Machine

end VisualNovel

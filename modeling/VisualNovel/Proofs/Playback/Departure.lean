import VisualNovel.Playback.Machine
import VisualNovel.Proofs.Store.OneMap

namespace VisualNovel

def StepKind.parks : StepKind → Phase → Bool
  | .dialogue _ _, .waiting => true
  | .choice _, .choice => true
  | _, _ => false

def Event.isPassing : Event → Bool
  | .showSprite _ _ => true
  | .removeSprite _ => true
  | .background _ => true
  | .autoSave _ => true
  | _ => false

-- A record about a variable. The story minds none of these.
def Signal.isRemark : Signal → Bool
  | .record (.creationWithoutAction _) => true
  | .record (.mutationFailed _ _ _) => true
  | .record (.refused _) => true
  | _ => false

theorem storyEvents_append (earlier later : List Signal) :
    storyEvents (earlier ++ later) = storyEvents earlier ++ storyEvents later := by
  simp [storyEvents]

theorem storyEvents_remarks (remarks : ∀ signal ∈ signals, signal.isRemark = true) :
    storyEvents signals = [] := by
  refine List.filterMap_eq_nil_iff.2 fun signal member => ?_
  cases signal with
  | event event => cases remarks _ member
  | record record => rfl

theorem Script.labelIndex?_lt {script : Script} (found : script.labelIndex? label = some target) :
    target < script.length :=
  (List.findIdx?_eq_some_iff_getElem.1 found).1

theorem Script.idIndex?_lt {script : Script} {id : StepId}
    (found : script.idIndex? id = some target) : target < script.length :=
  (List.findIdx?_eq_some_iff_getElem.1 found).1

namespace Machine

-- The ways of a step, with all that it emits.
inductive Acts (m : Machine) (step : Step) : Machine × List Signal → Prop where
  | passes : Acts m step (m.proceed, [])
  | emits (stores : Stores) (environment : stores.environment = m.stores.environment)
      (tidy : m.stores.locals.Tidy → stores.locals.Tidy) (passing : event.isPassing = true) :
      Acts m step ({ m with stores := stores }.tell event)
  | changes (stores : Stores) (environment : stores.environment = m.stores.environment)
      (tidy : m.stores.locals.Tidy → stores.locals.Tidy)
      (remarks : ∀ signal ∈ signals, signal.isRemark = true) :
      Acts m step (showAndProceed ({ m with stores := stores }, signals))
  | strays : Acts m step
      ({ m with lastFault := some (.conditionFailureWithoutFallback step.id) }.proceed,
        [.record (.noFallback step.id)])
  | skips (kind : step.kind = .unknown typeName reason) : Acts m step
      ({ m with lastFault := some (.unknownStepType step.id typeName) }.proceed,
        [.record (.unknownSkipped step.id typeName reason)])
  | jumpsToLabel (generator : Generator) (label : String) :
      Acts m step ({ m with generator := generator }.jumpToLabel label)
  | jumpsToId (id : StepId) : Acts m step (m.jumpToId id)
  | speaks (kind : step.kind = .dialogue label content) :
      Acts m step (m.park .waiting (m.sayEvent label content))
  | asks (kind : step.kind = .choice options) : Acts m step (m.park .choice (.choice options))
  | ends (kind : step.kind = .finishDialogue) : Acts m step m.finish

inductive Leaves (m : Machine) (step : Step) : Machine → List Signal → Prop where
  | goesOn (stores : Stores) (fault : Option Fault) (signals : List Signal)
      (environment : stores.environment = m.stores.environment)
      (tidy : m.stores.locals.Tidy → stores.locals.Tidy) :
      Leaves m step { m with stores := stores, lastFault := fault }.proceed signals
  | jumps (generator : Generator) (inside : target < m.script.length) :
      Leaves m step ({ m with generator := generator }.landOn target) []
  | stuck (generator : Generator) (fault : Fault) (record : Record) (stalls : fault.stalls = true) :
      Leaves m step { m with generator := generator, lastFault := some fault } [.record record]
  | parks (phase : Phase) (event : Event) (parked : step.kind.parks phase = true) :
      Leaves m step { m with phase := phase }
        [.event event, { m with phase := phase }.debugEvent]
  | ends (last : step.kind = .finishDialogue) : Leaves m step m.finish.1 m.finish.2

variable {m : Machine} {step : Step}

structure Untouched (m next : Machine) : Prop where
  script : next.script = m.script
  seed : next.seed = m.seed
  stepGuard : next.stepGuard = m.stepGuard
  stepCount : next.stepCount = m.stepCount
  environment : next.stores.environment = m.stores.environment

theorem Leaves.untouched (left : m.Leaves step next signals) : Untouched m next := by
  cases left with
  | goesOn stores fault signals environment tidy => exact ⟨rfl, rfl, rfl, rfl, environment⟩
  | _ => exact ⟨rfl, rfl, rfl, rfl, rfl⟩

theorem jumpToLabel_untouched (m : Machine) (label : String) :
    Untouched m (m.jumpToLabel label).1 := by
  unfold jumpToLabel
  split <;> exact ⟨rfl, rfl, rfl, rfl, rfl⟩

theorem jumpToLabel_leaves (generator : Generator) (label : String) :
    m.Leaves step ({ m with generator := generator }.jumpToLabel label).1
      ({ m with generator := generator }.jumpToLabel label).2 := by
  unfold jumpToLabel
  split
  · rename_i target found
    exact .jumps generator (Script.labelIndex?_lt found)
  · exact .stuck generator (.unresolvedLabel label) _ rfl

theorem jumpToId_leaves (id : StepId) :
    m.Leaves step (m.jumpToId id).1 (m.jumpToId id).2 := by
  unfold jumpToId
  split
  · rename_i target found
    exact .jumps m.generator (Script.idIndex?_lt found)
  · exact .stuck m.generator (.unresolvedStepId id) _ rfl

theorem isRemark_refusals (notices : List Notice) :
    ∀ signal ∈ refusals notices, signal.isRemark = true := by
  intro signal member
  obtain ⟨notice, -, rfl⟩ := List.mem_map.1 member
  rfl

theorem isRemark_failureRecords (scope : VariableScope) (key : String)
    (result : Except MutationFailure (Option Value × Option Value)) :
    ∀ signal ∈ failureRecords scope key result, signal.isRemark = true := by
  intro signal member
  cases result with
  | ok values => cases member
  | error failure =>
    cases List.mem_singleton.1 member
    rfl

theorem storyEvents_shown (remarks : ∀ signal ∈ signals, signal.isRemark = true) (m : Machine) :
    storyEvents (signals ++ [m.debugEvent]) = [] := by
  rw [storyEvents_append, storyEvents_remarks remarks]
  rfl

theorem acts_locals {locals : LocalStore} (tidy : m.stores.locals.Tidy → locals.Tidy)
    (remarks : ∀ signal ∈ signals, signal.isRemark = true) :
    Acts m step (showAndProceed (m.withLocals locals, signals)) :=
  .changes { m.stores with locals := locals } rfl tidy remarks

theorem acts_globals (globals : ValueMap) (remarks : ∀ signal ∈ signals, signal.isRemark = true) :
    Acts m step (showAndProceed (m.withGlobals globals, signals)) :=
  .changes { m.stores with globals := globals } rfl id remarks

theorem acts_create (what : Creation) : Acts m step (showAndProceed (m.create what)) := by
  have silent : ∀ signal ∈ [], Signal.isRemark signal = true := List.forall_mem_nil _
  unfold create
  cases what.action with
  | createVar => exact acts_locals (LocalStore.tidy_set · _ _) (isRemark_refusals _)
  | createGlobal =>
    dsimp only
    split
    · exact .changes m.stores rfl id silent
    · exact acts_globals _ silent
  | other => exact .changes m.stores rfl id (by simp [Signal.isRemark])

theorem acts_mutateLocal (mutation : Mutation) :
    Acts m step (showAndProceed (m.mutateLocal mutation)) :=
  acts_locals (LocalStore.tidy_apply · _)
    (List.forall_mem_append.2 ⟨isRemark_refusals _, isRemark_failureRecords _ _ _⟩)

theorem acts_mutateGlobal (mutation : Mutation) :
    Acts m step (showAndProceed (m.mutateGlobal mutation)) :=
  acts_globals _ (List.forall_mem_append.2 ⟨isRemark_refusals _, isRemark_failureRecords _ _ _⟩)

-- The pick itself stays closed: it may try every state of the generator.
theorem acts_chat : Acts m step m.chat := by
  cases picked : m.generator.pick? m.stores.locals.unlocked.length with
  | none =>
    simp only [chat, picked]
    exact .passes
  | some pick =>
    obtain ⟨index, generator⟩ := pick
    cases chosen : m.stores.locals.unlocked[index]? with
    | none =>
      simp only [chat, picked, chosen]
      exact .passes
    | some label =>
      simp only [chat, picked, chosen]
      exact .jumpsToLabel generator label

theorem acts_branch (scope : VariableScope) (condition : Condition) :
    Acts m step (m.branch step.id scope condition) := by
  unfold branch
  split
  · exact .passes
  · split
    · exact .jumpsToId _
    · exact .strays

theorem execute_acts (m : Machine) (step : Step) : Acts m step (m.execute step) := by
  unfold execute
  cases kind : step.kind with
  | label name => exact .passes
  | start => exact .passes
  | command => exact .passes
  | creation what => exact acts_create what
  | transition label => exact .jumpsToLabel m.generator label
  | next label =>
    exact .emits { m.stores with locals := _ } rfl (LocalStore.tidy_setAutosave · label) rfl
  | dialogue label content => exact .speaks kind
  | choice options => exact .asks kind
  | showSprite placement => exact .emits m.stores rfl id rfl
  | removeSprite sprite => exact .emits m.stores rfl id rfl
  | modifyBackground background => exact .emits m.stores rfl id rfl
  | modifyVariable mutation => exact acts_mutateLocal mutation
  | modifyGlobal mutation => exact acts_mutateGlobal mutation
  | unlockDialogues labels =>
    exact acts_locals (LocalStore.tidy_unlockAll · labels) (List.forall_mem_nil _)
  | idleChat =>
    dsimp only
    split
    · exact .passes
    · exact acts_chat
  | conditional condition => exact acts_branch .locals condition
  | conditionalGlobal condition => exact acts_branch .globals condition
  | finishDialogue => exact .ends kind
  | unknown typeName reason => exact .skips kind

theorem Acts.leaves {done : Machine × List Signal} (acts : Acts m step done) :
    m.Leaves step done.1 done.2 := by
  cases acts with
  | passes => exact .goesOn m.stores m.lastFault _ rfl id
  | emits stores environment tidy passing => exact .goesOn stores m.lastFault _ environment tidy
  | changes stores environment tidy remarks => exact .goesOn stores m.lastFault _ environment tidy
  | strays => exact .goesOn m.stores _ _ rfl id
  | skips kind => exact .goesOn m.stores _ _ rfl id
  | jumpsToLabel generator label => exact jumpToLabel_leaves generator label
  | jumpsToId id => exact jumpToId_leaves id
  | speaks kind => exact .parks _ _ (by rw [kind]; rfl)
  | asks kind => exact .parks _ _ (by rw [kind]; rfl)
  | ends kind => exact .ends kind

theorem execute_leaves (m : Machine) (step : Step) :
    m.Leaves step (m.execute step).1 (m.execute step).2 := (execute_acts m step).leaves

def taking (m : Machine) : Machine := { m with due := false, stepCount := m.stepCount + 1 }

theorem work_eq (here : m.currentStep? = some step) : m.work = m.taking.execute step := by
  have here' : ({ m with due := false } : Machine).currentStep? = some step := here
  simp only [work, here', taking]

theorem work_beyond (beyond : m.currentStep? = none) : m.work = m.finish := by
  have same : ({ m with due := false } : Machine).currentStep? = none := beyond
  simp only [work, same]
  rfl

theorem work_acts (m : Machine) : (m.currentStep? = none ∧ m.work = m.finish) ∨
    ∃ step, m.currentStep? = some step ∧ Acts m.taking step m.work := by
  cases here : m.currentStep? with
  | none => exact .inl ⟨rfl, work_beyond here⟩
  | some step =>
    refine .inr ⟨step, rfl, ?_⟩
    rw [work_eq here]
    exact execute_acts m.taking step

end Machine

end VisualNovel

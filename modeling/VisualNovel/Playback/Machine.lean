import VisualNovel.Playback.Event

namespace VisualNovel

-- Every draw moves the state on by the same odd amount, so 2 ^ 32 draws pass through all states.
structure Generator where
  state : UInt32
deriving DecidableEq

namespace Generator

def stride : UInt32 := 0x6d2b79f5

def scramble (state : UInt32) : UInt32 :=
  let a := (state ^^^ (state >>> 15)) * (state ||| 1)
  let b := a ^^^ (a + (a ^^^ (a >>> 7)) * (a ||| 61))
  b ^^^ (b >>> 14)

-- The stride stands on the left, where unfolding a draw does not count through it.
def next (g : Generator) : UInt32 × Generator :=
  let state := stride + g.state
  (scramble state, ⟨state⟩)

def wordCount : Nat := 2 ^ 32

-- The largest multiple of `bound` that is at most 2 ^ 32.
def threshold (bound : Nat) : Nat := wordCount / bound * bound

-- The residue of the first draw below the threshold, if one of the next `tries` draws is.
def drawBelow? (draw : σ → UInt32 × σ) (bound : Nat) : Nat → σ → Option (Nat × σ)
  | 0, _ => none
  | tries + 1, source =>
    let (candidate, source) := draw source
    if candidate.toNat < threshold bound then some (candidate.toNat % bound, source)
    else drawBelow? draw bound tries source

-- A pick passes through every state before it could give up.
def pick? (g : Generator) (count : Nat) : Option (Nat × Generator) :=
  drawBelow? next (min count (wordCount - 1)) wordCount g

end Generator

structure Machine where
  script : Script
  cursor : Nat
  phase : Phase
  stores : Stores
  generator : Generator
  seed : UInt32
  stepGuard : Option Nat
  due : Bool
  stepCount : Nat
  lastFault : Option Fault
deriving DecidableEq

namespace Machine

def new (seed : Option UInt32) (environment : Option Environment) (stepGuard : Option Nat) :
    Machine :=
  { script := []
    cursor := 0
    phase := .idle
    stores := ⟨.empty, .empty, environment.getD .standard⟩
    generator := ⟨seed.getD 1⟩
    seed := seed.getD 1
    stepGuard := stepGuard
    due := false
    stepCount := 0
    lastFault := none }

def currentStep? (m : Machine) : Option Step := m.script[m.cursor]?

-- Playing, with a unit of work left.
def pending (m : Machine) : Bool := m.due && m.phase = .playing

-- Playing, with nothing left to do after a jump that found no target.
def isStalled (m : Machine) : Bool :=
  m.phase = .playing && !m.due && m.lastFault.any Fault.stalls

def debugEvent (m : Machine) : Signal :=
  .event (.updateDebug m.stores.globals m.stores.locals.toMap m.phase)

def proceed (m : Machine) : Machine := { m with cursor := m.cursor + 1, due := true }

def landOn (m : Machine) (target : Nat) : Machine :=
  { m with cursor := target, phase := .playing, due := true }

def jumpToLabel (m : Machine) (label : String) : Machine × List Signal :=
  match m.script.labelIndex? label with
  | some target => (m.landOn target, [])
  | none =>
    ({ m with lastFault := some (.unresolvedLabel label) }, [.record (.labelNotFound label)])

def jumpToId (m : Machine) (id : StepId) : Machine × List Signal :=
  match m.script.idIndex? id with
  | some target => (m.landOn target, [])
  | none =>
    ({ m with lastFault := some (.unresolvedStepId id) }, [.record (.stepIdNotFound id)])

def finish (m : Machine) : Machine × List Signal :=
  let m := { m with phase := .ended, due := false }
  (m, [.event .finish, m.debugEvent])

def withLocals (m : Machine) (locals : LocalStore) : Machine :=
  { m with stores := { m.stores with locals := locals } }

def withGlobals (m : Machine) (globals : ValueMap) : Machine :=
  { m with stores := { m.stores with globals := globals } }

def refusals (notices : List Notice) : List Signal := notices.map fun n => .record (.refused n)

def setLocal (m : Machine) (key : String) (value : Value) : Machine × List Signal :=
  (m.withLocals (m.stores.locals.set key value), refusals (LocalStore.notices key value))

-- Globals are only created, never overwritten.
def create (m : Machine) (what : Creation) : Machine × List Signal :=
  let init := what.init.getD .zero
  match what.action with
  | .createVar => m.setLocal what.var init
  | .createGlobal =>
    if m.stores.globals.contains what.var then (m, [])
    else (m.withGlobals (m.stores.globals.insert what.var init), [])
  | .other => (m, [.record (.creationWithoutAction what.var)])

def failureRecords (scope : VariableScope) (key : String) :
    Except MutationFailure (Option Value × Option Value) → List Signal
  | .ok _ => []
  | .error failure => [.record (.mutationFailed scope key failure)]

def mutateLocal (m : Machine) (mutation : Mutation) : Machine × List Signal :=
  let outcome := mutation.apply m.stores.locals
  (m.withLocals outcome.store,
    refusals outcome.notices ++ failureRecords .locals mutation.var outcome.result)

def mutateGlobal (m : Machine) (mutation : Mutation) : Machine × List Signal :=
  let outcome := mutation.apply m.stores.globals
  (m.withGlobals outcome.store,
    refusals outcome.notices ++ failureRecords .globals mutation.var outcome.result)

def showAndProceed (changed : Machine × List Signal) : Machine × List Signal :=
  (changed.1.proceed, changed.2 ++ [changed.1.debugEvent])

def sayEvent (m : Machine) (label content : Option String) : Event :=
  .say (m.stores.renderText label) (m.stores.renderText content)

def park (m : Machine) (phase : Phase) (event : Event) : Machine × List Signal :=
  let m := { m with phase := phase }
  (m, [.event event, m.debugEvent])

def tell (m : Machine) (event : Event) : Machine × List Signal := (m.proceed, [.event event])

def chat (m : Machine) : Machine × List Signal :=
  let labels := m.stores.locals.unlocked
  match m.generator.pick? labels.length with
  | none => (m.proceed, [])
  | some (index, generator) =>
    match labels[index]? with
    | none => (m.proceed, [])
    | some label => { m with generator := generator }.jumpToLabel label

def branch (m : Machine) (id : Option StepId) (scope : VariableScope) (condition : Condition) :
    Machine × List Signal :=
  if m.stores.satisfies scope condition then (m.proceed, [])
  else
    match condition.fallback with
    | some target => m.jumpToId target
    | none =>
      ({ m with lastFault := some (.conditionFailureWithoutFallback id) }.proceed,
        [.record (.noFallback id)])

def execute (m : Machine) (step : Step) : Machine × List Signal :=
  match step.kind with
  | .label _ => (m.proceed, [])
  | .start => (m.proceed, [])
  | .command => (m.proceed, [])
  | .creation what => showAndProceed (m.create what)
  | .transition label => m.jumpToLabel label
  | .next label => (m.withLocals (m.stores.locals.setAutosave label)).tell (.autoSave label)
  | .dialogue label content => m.park .waiting (m.sayEvent label content)
  | .choice options => m.park .choice (.choice options)
  | .showSprite placement =>
    m.tell (.showSprite (m.stores.spriteLocation placement) placement)
  | .removeSprite sprite => m.tell (.removeSprite sprite)
  | .modifyBackground background => m.tell (.background background)
  | .modifyVariable mutation => showAndProceed (m.mutateLocal mutation)
  | .modifyGlobal mutation => showAndProceed (m.mutateGlobal mutation)
  | .unlockDialogues labels =>
    showAndProceed (m.withLocals (m.stores.locals.unlockAll labels), [])
  | .idleChat => if m.stores.locals.unlocked = [] then (m.proceed, []) else m.chat
  | .conditional condition => m.branch step.id .locals condition
  | .conditionalGlobal condition => m.branch step.id .globals condition
  | .finishDialogue => m.finish
  | .unknown typeName reason =>
    ({ m with lastFault := some (.unknownStepType step.id typeName) }.proceed,
      [.record (.unknownSkipped step.id typeName reason)])

-- Behind the last step the story ends; that unit is no step and is not counted as one.
def work (m : Machine) : Machine × List Signal :=
  let m := { m with due := false }
  match m.currentStep? with
  | none => m.finish
  | some step => { m with stepCount := m.stepCount + 1 }.execute step

-- At most `units` units of work, with the signals of the latest first.
def workOn : Nat → Machine → List Signal → Machine × List Signal
  | 0, m, log => (m, log)
  | units + 1, m, log =>
    if m.pending then
      let (m, signals) := m.work
      workOn units m (signals.reverseAux log)
    else (m, log)

end Machine

end VisualNovel

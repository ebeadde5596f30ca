import VisualNovel.Playback.Machine

namespace VisualNovel

def StepKind.fallback? : StepKind → Option StepId
  | .conditional condition => condition.fallback
  | .conditionalGlobal condition => condition.fallback
  | _ => none

namespace Machine

structure Agrees (m other : Machine) : Prop where
  stores : other.stores = m.stores
  generator : other.generator = m.generator
  phase : other.phase = m.phase

-- The ways in which two machines leave the same step side by side. A fault of the step takes the
-- place of the one that is remembered.
inductive Departs (step : Step) (m other : Machine) :
    Machine × List Signal → Machine × List Signal → Prop where
  | goesOn (stores : Stores) (fault : Option Fault) (signals : List Signal) :
      Departs step m other
        ({ m with stores := stores, lastFault := fault.or m.lastFault }.proceed, signals)
        ({ other with stores := stores, lastFault := fault.or other.lastFault }.proceed, signals)
  | jumpsToLabel (generator : Generator) (label : String) :
      Departs step m other ({ m with generator := generator }.jumpToLabel label)
        ({ other with generator := generator }.jumpToLabel label)
  | jumpsToId {id : StepId} (sought : step.kind.fallback? = some id) :
      Departs step m other (m.jumpToId id) (other.jumpToId id)
  | parks (phase : Phase) (event : Event) :
      Departs step m other (m.park phase event) (other.park phase event)
  | ends : Departs step m other m.finish other.finish

variable {m other : Machine} {step : Step}

theorem Agrees.eq (agrees : m.Agrees other) : other =
    { m with
      script := other.script, cursor := other.cursor, seed := other.seed
      stepGuard := other.stepGuard, due := other.due, stepCount := other.stepCount
      lastFault := other.lastFault } := by
  obtain ⟨stores, generator, phase⟩ := agrees
  cases other
  cases stores
  cases generator
  cases phase
  rfl

theorem departs_create (agrees : m.Agrees other) (what : Creation) :
    Departs step m other (showAndProceed (m.create what)) (showAndProceed (other.create what)) := by
  rw [agrees.eq]
  unfold create
  cases what.action with
  | createVar => exact .goesOn _ none _
  | createGlobal =>
    dsimp only
    split
    · exact .goesOn m.stores none _
    · exact .goesOn _ none _
  | other => exact .goesOn m.stores none _

-- The pick itself stays closed: it may try every state of the generator.
theorem departs_chat (agrees : m.Agrees other) : Departs step m other m.chat other.chat := by
  rw [agrees.eq]
  cases picked : m.generator.pick? m.stores.locals.unlocked.length with
  | none =>
    simp only [chat, picked]
    exact .goesOn m.stores none _
  | some pick =>
    obtain ⟨index, generator⟩ := pick
    cases chosen : m.stores.locals.unlocked[index]? with
    | none =>
      simp only [chat, picked, chosen]
      exact .goesOn m.stores none _
    | some label =>
      simp only [chat, picked, chosen]
      exact .jumpsToLabel generator label

theorem departs_branch (agrees : m.Agrees other) (scope : VariableScope) {condition : Condition}
    (sought : step.kind.fallback? = condition.fallback) :
    Departs step m other (m.branch step.id scope condition)
      (other.branch step.id scope condition) := by
  rw [agrees.eq]
  unfold branch
  dsimp only
  split
  · exact .goesOn m.stores none _
  · split
    · rename_i target fallback
      exact .jumpsToId (sought.trans fallback)
    · exact .goesOn m.stores (some _) _

theorem execute_departs (agrees : m.Agrees other) (step : Step) :
    Departs step m other (m.execute step) (other.execute step) := by
  unfold execute
  cases kind : step.kind with
  | creation what => exact departs_create agrees what
  | idleChat =>
    dsimp only
    rw [agrees.stores]
    split
    · rw [agrees.eq]
      exact .goesOn m.stores none _
    · exact departs_chat agrees
  | conditional condition => exact departs_branch agrees _ (by rw [kind]; rfl)
  | conditionalGlobal condition => exact departs_branch agrees _ (by rw [kind]; rfl)
  | finishDialogue => exact .ends
  | transition label =>
    rw [agrees.eq]
    exact .jumpsToLabel m.generator label
  | dialogue label content =>
    rw [agrees.eq]
    exact .parks _ _
  | choice options => exact .parks _ _
  | unknown typeName reason =>
    rw [agrees.eq]
    exact .goesOn m.stores (some _) _
  | _ =>
    rw [agrees.eq]
    exact .goesOn _ none _

end Machine

end VisualNovel

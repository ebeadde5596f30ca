import VisualNovel.Playback.Operation
import VisualNovel.Proofs.Playback.Effect

namespace VisualNovel

-- What a machine carries along from an earlier life without ever reading it.
structure Past where
  seed : UInt32
  steps : Nat
  fault : Option Fault

def Operation.goesOn : Operation → Bool
  | .load _ _ _ => false
  | .resume _ => false
  | _ => true

namespace Machine

def withPast (m : Machine) (past : Past) : Machine :=
  { m with
    seed := past.seed
    stepCount := past.steps + m.stepCount
    lastFault := m.lastFault.or past.fault }

end Machine

def Reply.withPast (reply : Reply α) (past : Past) : Reply α :=
  ⟨reply.machine.withPast past, reply.signals, reply.result⟩

namespace Machine

def changeWithPast (past : Past) (changed : Machine × List Signal) : Machine × List Signal :=
  (changed.1.withPast past, changed.2)

variable (m : Machine) (past : Past)

theorem jumpToLabel_withPast (label : String) :
    (m.withPast past).jumpToLabel label = changeWithPast past (m.jumpToLabel label) := by
  unfold jumpToLabel
  cases found : m.script.labelIndex? label <;> simp only [withPast, found] <;> rfl

theorem jumpToId_withPast (id : StepId) :
    (m.withPast past).jumpToId id = changeWithPast past (m.jumpToId id) := by
  unfold jumpToId
  cases found : m.script.idIndex? id <;> simp only [withPast, found] <;> rfl

theorem departs_withPast {step : Step}
    (departs : Departs step m (m.withPast past) one two) : two = changeWithPast past one := by
  cases departs with
  | goesOn stores fault signals =>
    simp [changeWithPast, withPast, proceed, Option.or_assoc]
  | jumpsToLabel generator label =>
    exact jumpToLabel_withPast { m with generator := generator } past label
  | jumpsToId sought => exact jumpToId_withPast m past _
  | parks phase event => rfl
  | ends => rfl

-- No step reads the past.
theorem execute_withPast (step : Step) :
    (m.withPast past).execute step = changeWithPast past (m.execute step) := by
  have agrees : m.Agrees (m.withPast past) := ⟨rfl, rfl, rfl⟩
  exact departs_withPast m past (execute_departs agrees step)

theorem work_withPast : (m.withPast past).work = changeWithPast past m.work := by
  unfold work
  cases here : m.currentStep? with
  | none =>
    have beyond : ({ m with due := false } : Machine).currentStep? = none := here
    have beyondPast : ({ m.withPast past with due := false } : Machine).currentStep? = none := here
    simp only [beyond, beyondPast]
    rfl
  | some step =>
    have standing : ({ m with due := false } : Machine).currentStep? = some step := here
    have standingPast : ({ m.withPast past with due := false } : Machine).currentStep? =
      some step := here
    simp only [standing, standingPast]
    exact execute_withPast { m with due := false, stepCount := m.stepCount + 1 } past step

theorem workOn_withPast (units : Nat) (log : List Signal) :
    (m.withPast past).workOn units log = changeWithPast past (m.workOn units log) := by
  induction units generalizing m log with
  | zero => rfl
  | succ units ih =>
    simp only [workOn]
    change (if m.pending = true then _ else _) = _
    split
    · rw [work_withPast]
      exact ih m.work.1 _
    · rfl

theorem drive_withPast (budget : Nat) (earlier : List Signal) :
    (m.withPast past).drive budget earlier =
      (m.drive budget earlier).map (·.withPast past) := by
  cases guard : m.stepGuard with
  | some limit =>
    have guardPast : (m.withPast past).stepGuard = some limit := guard
    simp only [drive, guard, guardPast, workOn_withPast]
    change (if (m.workOn limit earlier.reverse).1.pending = true then _ else _) = _
    split <;> rfl
  | none =>
    have guardPast : (m.withPast past).stepGuard = none := guard
    simp only [drive, guard, guardPast, workOn_withPast]
    change (if (m.workOn budget earlier.reverse).1.pending = true then _ else _) = _
    split <;> rfl

theorem start_withPast (budget : Nat) (label : Option String) :
    (m.withPast past).start budget label = (m.start budget label).map (·.withPast past) := by
  unfold start
  change (if m.script = [] then _ else _) = _
  split
  · rfl
  · change (if m.phase = .ended then _ else _) = _
    split
    · rfl
    · cases entry : m.entry? label with
      | some label =>
        have entryPast : Machine.entry? (m.withPast past) _ = some label := entry
        have jumped := jumpToLabel_withPast { m with phase := .playing } past label
        simp only [entryPast]
        have playingPast : ({ m.withPast past with phase := .playing } : Machine) =
          ({ m with phase := .playing } : Machine).withPast past := rfl
        rw [playingPast, jumped]
        exact drive_withPast _ past budget _
      | none =>
        have entryPast : Machine.entry? (m.withPast past) _ = none := entry
        simp only [entryPast]
        exact drive_withPast { m with phase := .playing, cursor := 0, due := true } past budget []

theorem stop_withPast : (m.withPast past).stop = m.stop.withPast past := by
  unfold stop
  change (if m.phase = .ended then _ else _) = _
  split <;> rfl

theorem advance_withPast (budget : Nat) :
    (m.withPast past).advance budget = (m.advance budget).map (·.withPast past) := by
  unfold advance
  change (if m.phase = .waiting then _ else _) = _
  split
  · exact drive_withPast { m with phase := .playing }.proceed past budget []
  · rfl

theorem choose_withPast (budget : Nat) (label : String) :
    (m.withPast past).choose budget label = (m.choose budget label).map (·.withPast past) := by
  unfold choose
  change (if m.phase = .choice then _ else _) = _
  split
  · rw [jumpToLabel_withPast]
    exact drive_withPast (m.jumpToLabel label).1 past budget _
  · rfl

theorem setEnvironment_withPast (key : String) (value : Bool) :
    (m.withPast past).setEnvironment key value = (m.setEnvironment key value).withPast past := by
  cases set : m.stores.environment.set? key value <;>
    simp only [setEnvironment, withPast, set] <;> rfl

theorem perform_withPast (budget : Nat) (goesOn : operation.goesOn = true) :
    (m.withPast past).perform budget operation =
      (m.perform budget operation).map (·.withPast past) := by
  cases operation with
  | load script globals locals => cases goesOn
  | resume s => cases goesOn
  | start label =>
    simp only [perform, start_withPast, Option.map_map]
    rfl
  | stop =>
    simp only [perform, stop_withPast]
    rfl
  | advance =>
    simp only [perform, advance_withPast, Option.map_map]
    rfl
  | choose label =>
    simp only [perform, choose_withPast, Option.map_map]
    rfl
  | setEnvironment key value =>
    simp only [perform, setEnvironment_withPast]
    rfl
  | _ => rfl

end Machine

end VisualNovel

import VisualNovel.Proofs.Playback.Effect
import VisualNovel.Proofs.Playback.Kept

namespace VisualNovel

namespace Script

-- A step that does nothing. Only conditions look for ids, and none of them for its own.
structure Inert (script : Script) (place : Nat) : Prop where
  unsought : ∃ extra, script[place]? = some extra ∧ extra.kind = .command ∧
    ∀ step ∈ script, ∀ id, step.kind.fallback? = some id → extra.id ≠ some id

-- Where a place is when the step at `place` has been taken out.
def closeUp (place cursor : Nat) : Nat := if cursor ≤ place then cursor else cursor - 1

variable {script : Script} {place cursor : Nat}

theorem closeUp_succ (off : cursor ≠ place) :
    closeUp place (cursor + 1) = closeUp place cursor + 1 := by
  unfold closeUp
  split <;> split <;> omega

theorem closeUp_behind (place : Nat) : closeUp place (place + 1) = closeUp place place := by
  simp [closeUp]

theorem getElem?_closeUp (list : List α) (off : cursor ≠ place) :
    (list.eraseIdx place)[closeUp place cursor]? = list[cursor]? := by
  rw [List.getElem?_eraseIdx]
  unfold closeUp
  by_cases before : cursor ≤ place
  · rw [if_pos before, if_pos (Nat.lt_of_le_of_ne before off)]
  · rw [if_neg before, if_neg (by omega), Nat.sub_add_cancel (by omega)]

theorem findIdx?_eraseIdx {p : α → Bool} {list : List α} (here : list[place]? = some extra)
    (passed : p extra = false) :
    (list.eraseIdx place).findIdx? p = (list.findIdx? p).map (closeUp place) := by
  induction list generalizing place with
  | nil => cases here
  | cons head rest ih =>
    cases place with
    | zero =>
      obtain rfl : head = extra := Option.some.inj here
      simp [List.findIdx?_cons, passed, closeUp, Function.comp_def]
    | succ place =>
      have further : (rest.eraseIdx place).findIdx? p = (rest.findIdx? p).map (closeUp place) :=
        ih here
      by_cases fits : p head = true
      · simp [List.findIdx?_cons, fits, closeUp]
      · have shifted : ∀ index, closeUp (place + 1) (index + 1) = closeUp place index + 1 := by
          intro index
          unfold closeUp
          split <;> split <;> omega
        simp [List.findIdx?_cons, fits, further, Function.comp_def, shifted]

theorem Inert.labelIndex? (inert : script.Inert place) (label : String) :
    labelIndex? (script.eraseIdx place) label = (script.labelIndex? label).map (closeUp place) := by
  obtain ⟨extra, here, command, -⟩ := inert.unsought
  apply findIdx?_eraseIdx here
  simp [command, StepKind.labelName?]

theorem Inert.idIndex? (inert : script.Inert place) {step : Step} (member : step ∈ script)
    {id : StepId} (sought : step.kind.fallback? = some id) :
    idIndex? (script.eraseIdx place) id = (script.idIndex? id).map (closeUp place) := by
  obtain ⟨extra, here, -, unsought⟩ := inert.unsought
  apply findIdx?_eraseIdx here
  simpa using unsought step member id sought

end Script

open Script

namespace Machine

-- A machine in a script, and another in the script without the step at `place`. They may have
-- counted different numbers of steps.
structure Aside (place : Nat) (m other : Machine) : Prop extends Agrees m other where
  script : other.script = m.script.eraseIdx place
  cursor : other.cursor = closeUp place m.cursor
  stepGuard : other.stepGuard = m.stepGuard
  due : other.due = m.due
  lastFault : other.lastFault = m.lastFault

structure Beside (place : Nat) (changed other : Machine × List Signal) : Prop where
  machine : Aside place changed.1 other.1
  signals : other.2 = changed.2

variable {m other next : Machine} {place : Nat} {script : Script} {guard : Option Nat}
  {step : Step} {changed otherChanged : Machine × List Signal}

theorem Aside.pending (aside : Aside place m other) : other.pending = m.pending := by
  simp only [Machine.pending, aside.due, aside.phase]

theorem Aside.isStalled (aside : Aside place m other) : other.isStalled = m.isStalled := by
  simp only [Machine.isStalled, aside.due, aside.phase, aside.lastFault]

theorem Aside.landOn (aside : Aside place m other) (target : Nat) :
    Aside place (m.landOn target) (other.landOn (closeUp place target)) :=
  { aside with cursor := rfl, phase := rfl, due := rfl }

theorem Aside.jumpToLabel (aside : Aside place m other) (inert : m.script.Inert place)
    (label : String) : Beside place (m.jumpToLabel label) (other.jumpToLabel label) := by
  have found := inert.labelIndex? label
  rw [← aside.script] at found
  cases sought : m.script.labelIndex? label with
  | none =>
    simp only [Machine.jumpToLabel, found, sought, Option.map_none]
    exact ⟨{ aside with lastFault := rfl }, rfl⟩
  | some target =>
    simp only [Machine.jumpToLabel, found, sought, Option.map_some]
    exact ⟨aside.landOn target, rfl⟩

theorem Aside.jumpToId (aside : Aside place m other) (inert : m.script.Inert place)
    (member : step ∈ m.script) {id : StepId} (sought : step.kind.fallback? = some id) :
    Beside place (m.jumpToId id) (other.jumpToId id) := by
  have found := inert.idIndex? member sought
  rw [← aside.script] at found
  cases landed : m.script.idIndex? id with
  | none =>
    simp only [Machine.jumpToId, found, landed, Option.map_none]
    exact ⟨{ aside with lastFault := rfl }, rfl⟩
  | some target =>
    simp only [Machine.jumpToId, found, landed, Option.map_some]
    exact ⟨aside.landOn target, rfl⟩

theorem Aside.debugEvent (aside : Aside place m other) : other.debugEvent = m.debugEvent := by
  simp only [Machine.debugEvent, aside.stores, aside.phase]

theorem Aside.finish (aside : Aside place m other) : Beside place m.finish other.finish := by
  have ended : Aside place m.finish.1 other.finish.1 := { aside with phase := rfl, due := rfl }
  exact ⟨ended, congrArg (fun shown => [Signal.event .finish, shown]) ended.debugEvent⟩

theorem Aside.park (aside : Aside place m other) (phase : Phase) (event : Event) :
    Beside place (m.park phase event) (other.park phase event) := by
  have parked : Aside place (m.park phase event).1 (other.park phase event).1 :=
    { aside with phase := rfl }
  exact ⟨parked, congrArg (fun shown => [Signal.event event, shown]) parked.debugEvent⟩

theorem Aside.departs (aside : Aside place m other) (inert : m.script.Inert place)
    (off : m.cursor ≠ place) (member : step ∈ m.script)
    (departs : Departs step m other changed otherChanged) :
    Beside place changed otherChanged := by
  cases departs with
  | goesOn stores fault signals =>
    have behind : other.cursor + 1 = closeUp place (m.cursor + 1) := by
      rw [closeUp_succ off, aside.cursor]
    have fault : fault.or other.lastFault = fault.or m.lastFault := by rw [aside.lastFault]
    exact ⟨{ aside with stores := rfl, lastFault := fault, cursor := behind, due := rfl }, rfl⟩
  | jumpsToLabel generator label =>
    have drawn : Aside place { m with generator := generator }
        { other with generator := generator } := { aside with generator := rfl }
    exact drawn.jumpToLabel inert label
  | jumpsToId sought => exact aside.jumpToId inert member sought
  | parks phase event => exact aside.park phase event
  | ends => exact aside.finish

theorem Aside.currentStep? (aside : Aside place m other) (off : m.cursor ≠ place) :
    other.currentStep? = m.currentStep? := by
  unfold Machine.currentStep?
  rw [aside.script, aside.cursor]
  exact getElem?_closeUp m.script off

theorem Aside.works (aside : Aside place m other) (inert : m.script.Inert place)
    (off : m.cursor ≠ place) : Beside place m.work other.work := by
  have same := aside.currentStep? off
  unfold Machine.currentStep? at same
  unfold Machine.work Machine.currentStep?
  dsimp only
  rw [same]
  split
  · have quiet : Aside place { m with due := false } { other with due := false } :=
      { aside with due := rfl }
    exact quiet.finish
  · rename_i step here
    have begun : Aside place { m with due := false, stepCount := m.stepCount + 1 }
        { other with due := false, stepCount := other.stepCount + 1 } := { aside with due := rfl }
    exact begun.departs inert off (List.mem_of_getElem? here) (execute_departs begun.toAgrees step)

-- A unit on the step itself only moves the cursor, to where the other machine already is.
theorem Aside.idles (aside : Aside place m other) (inert : m.script.Inert place)
    (on : m.cursor = place) (due : m.pending = true) :
    Aside place m.work.1 other ∧ m.work.2 = [] ∧ m.work.1.cursor ≠ place := by
  obtain ⟨extra, here, command, -⟩ := inert.unsought
  have worked : m.work =
      ({ m with due := false, stepCount := m.stepCount + 1 } : Machine).execute extra := by
    unfold Machine.work Machine.currentStep?
    dsimp only
    rw [on, here]
  simp only [worked, execute, command]
  have behind : other.cursor = closeUp place (m.cursor + 1) := by
    rw [aside.cursor, on, closeUp_behind]
  have stillDue : other.due = true := aside.due.trans (pending_iff.1 due).1
  refine ⟨{ aside with cursor := behind, due := stillDue }, trivial, ?_⟩
  exact Nat.ne_of_gt (on ▸ Nat.lt_succ_self m.cursor)

-- One unit in the shorter script is one or two in the longer.
theorem Aside.catchUp (aside : Aside place m other) (inert : m.script.Inert place)
    (due : other.pending = true) :
    ∃ units next, Works units m other.work.2 next ∧ Aside place next other.work.1 := by
  have ownDue : m.pending = true := aside.pending.symm.trans due
  by_cases on : m.cursor = place
  · obtain ⟨still, silent, off⟩ := aside.idles inert on ownDue
    have kept : Plays m.script m.stepGuard m.work.1 := Plays.work ⟨rfl, rfl⟩
    obtain ⟨worked, told⟩ := still.works (kept.script ▸ inert) off
    have first : Works 1 m (m.work.2 ++ []) m.work.1 := .cons ownDue .nil
    have second : Works 1 m.work.1 (m.work.1.work.2 ++ []) m.work.1.work.1 :=
      .cons (still.pending.symm.trans due) .nil
    refine ⟨2, m.work.1.work.1, ?_, worked⟩
    simpa [silent, told] using first.append second
  · obtain ⟨worked, told⟩ := aside.works inert on
    have only : Works 1 m (m.work.2 ++ []) m.work.1 := .cons ownDue .nil
    exact ⟨1, m.work.1, by simpa [told] using only, worked⟩

theorem Aside.works_longer (aside : Aside place m other) (plays : Plays script guard m)
    (inert : script.Inert place) (works : Works units other signals last) :
    ∃ more next, Works more m signals next ∧ Aside place next last := by
  induction works generalizing m with
  | nil => exact ⟨0, m, .nil, aside⟩
  | cons due _ ih =>
    obtain ⟨units, mid, first, beside⟩ := aside.catchUp (plays.script ▸ inert) due
    obtain ⟨more, next, second, ends⟩ := ih beside (plays.works first)
    exact ⟨units + more, next, first.append second, ends⟩

theorem Aside.works_shorter (aside : Aside place m other) (plays : Plays script guard m)
    (inert : script.Inert place) (works : Works units m signals last) :
    ∃ fewer next, Works fewer other signals next ∧ Aside place last next := by
  induction works generalizing other with
  | nil => exact ⟨0, other, .nil, aside⟩
  | @cons units signals last m due _ ih =>
    have here : m.script.Inert place := plays.script ▸ inert
    by_cases on : m.cursor = place
    · obtain ⟨still, silent, -⟩ := aside.idles here on due
      obtain ⟨fewer, next, worked, ends⟩ := ih still plays.work
      exact ⟨fewer, next, by simpa [silent] using worked, ends⟩
    · obtain ⟨beside, told⟩ := aside.works here on
      obtain ⟨fewer, next, worked, ends⟩ := ih beside plays.work
      rw [← told]
      exact ⟨fewer + 1, next, .cons (aside.pending.trans due) worked, ends⟩

end Machine

end VisualNovel

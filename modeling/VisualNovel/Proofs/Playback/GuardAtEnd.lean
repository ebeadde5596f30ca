import VisualNovel.Proofs.Playback.Ending

namespace VisualNovel

namespace Machine

variable {m next : Machine}

theorem Works.split (works : Works total m signals next) (parts : total = units + more) :
    ∃ first middle second, Works units m first middle ∧ Works more middle second next := by
  induction works generalizing units with
  | nil =>
    obtain ⟨rfl, rfl⟩ := Nat.add_eq_zero_iff.1 parts.symm
    exact ⟨_, _, _, .nil, .nil⟩
  | @cons total signals next m due further ih =>
    cases units with
    | zero =>
      obtain rfl : total + 1 = more := by omega
      exact ⟨_, _, _, .nil, .cons due further⟩
    | succ units =>
      have fewer : total = units + more := by omega
      obtain ⟨first, middle, second, one, two⟩ := ih fewer
      exact ⟨_, middle, second, .cons due one, two⟩

theorem pending_finish (m : Machine) : m.finish.1.pending = false := rfl

theorem Works.of_settled (works : Works units m signals next) (settled : m.pending = false) :
    next = m := by
  cases works with
  | nil => rfl
  | cons due further => exact absurd due (by simp [settled])

theorem exists_step (further : Works units m.work.1 signals next) (left : next.pending = true) :
    ∃ step, m.currentStep? = some step := by
  cases here : m.currentStep? with
  | some step => exact ⟨step, rfl⟩
  | none =>
    rw [work_beyond here] at further
    rw [further.of_settled (pending_finish m), pending_finish] at left
    cases left

theorem stepCount_work (here : m.currentStep? = some step) :
    m.work.1.stepCount = m.stepCount + 1 := by
  rw [work_eq here]
  exact (execute_leaves m.taking step).untouched.stepCount

-- As long as more is due, every unit was a step.
theorem Works.stepCount_eq (works : Works units m signals next) (left : next.pending = true) :
    next.stepCount = m.stepCount + units := by
  induction works with
  | nil => rfl
  | cons due further ih =>
    obtain ⟨step, here⟩ := exists_step further left
    rw [ih left, stepCount_work here]
    omega

end Machine

namespace Drive

open Machine

variable {m : Machine} {drive : Drive}

-- The operation executes so many steps, and with them it runs off the end of the script.
structure RunsOff (drive : Drive) (m : Machine) (steps : Nat) (next : Machine) : Prop where
  passes : ∃ signals, drive.Passes m steps signals next
  due : next.pending = true
  beyond : next.currentStep? = none

theorem RunsOff.stepCount_eq (runsOff : drive.RunsOff m steps next) :
    next.stepCount = m.stepCount + steps := by
  obtain ⟨signals, passes⟩ := runsOff.passes
  cases passes with
  | works opening works => rw [works.stepCount_eq runsOff.due, (untouched_of_opening opening).stepCount]

structure Finishes (drive : Drive) (m : Machine) (reply : Reply Unit) : Prop where
  returned : ∀ budget, drive.on budget m = some reply
  result : reply.result = .ok ()
  ended : reply.machine.phase = .ended
  told : .finish ∈ storyEvents reply.signals

structure GivesUp (drive : Drive) (m : Machine) (limit : Nat) (reply : Reply Unit) : Prop where
  returned : ∀ budget, drive.on budget m = some reply
  result : reply.result = .error (.guardExceeded limit)
  idle : reply.machine.phase = .idle
  untold : .finish ∉ storyEvents reply.signals

theorem open_of_opening (opening : drive.opening? m = some opened) : m.phase ≠ .ended := by
  intro ended
  rw [opening?_ended ended] at opening
  cases opening

theorem RunsOff.finishes (runsOff : drive.RunsOff m steps next)
    (guarded : m.stepGuard = some limit) (within : steps < limit) :
    ∃ reply, drive.Finishes m reply := by
  obtain ⟨signals, passes⟩ := runsOff.passes
  cases passes with
  | @works entered earlier _ signals _ opening works =>
    have all := works.snoc runsOff.due
    rw [work_beyond runsOff.beyond] at all
    have enough : ∀ own ∈ entered.stepGuard, steps + 1 ≤ own := by
      simpa [(untouched_of_opening opening).stepGuard, guarded] using Nat.succ_le_of_lt within
    have returns : drive.Returns m (steps + 1) _ :=
      .drives opening (.rests all enough (pending_finish next))
    have ended : next.finish.1.rest.phase = .ended := rfl
    refine ⟨_, fun budget => returns.on_eq (by simp [guarded]), rfl, ended, ?_⟩
    exact (returns.tellsEnd (open_of_opening opening)).ended.1 ended

theorem givesUp_of_passes (passes : drive.Passes m limit signals next)
    (due : next.pending = true) (guarded : m.stepGuard = some limit) :
    ∃ reply, drive.GivesUp m limit reply ∧ reply.machine.cursor = next.cursor := by
  cases passes with
  | @works entered earlier _ signals _ opening works =>
    have same : entered.stepGuard = some limit :=
      (untouched_of_opening opening).stepGuard.trans guarded
    have returns : drive.Returns m limit _ := .drives opening (.trips works same due)
    refine ⟨_, ⟨fun budget => returns.on_eq (by simp [guarded]), rfl, rfl, ?_⟩, rfl⟩
    have tells := returns.tellsEnd (open_of_opening opening)
    intro told
    cases tells.ended.2 told

theorem RunsOff.reached (runsOff : drive.RunsOff m steps next) (beyond : limit ≤ steps) :
    ∃ signals middle, drive.Passes m limit signals middle ∧ middle.pending = true ∧
      (steps = limit → middle = next) ∧
      (limit < steps → ∃ step, middle.currentStep? = some step) := by
  obtain ⟨more, rfl⟩ := Nat.exists_eq_add_of_le beyond
  obtain ⟨signals, passes⟩ := runsOff.passes
  cases passes with
  | works opening works =>
    obtain ⟨first, middle, second, one, two⟩ := works.split rfl
    refine ⟨_, middle, .works opening one, ?_⟩
    cases two with
    | nil => exact ⟨runsOff.due, fun _ => rfl, fun less => absurd less (Nat.lt_irrefl _)⟩
    | cons due further =>
      exact ⟨due, fun same => by omega, fun _ => exists_step further runsOff.due⟩

theorem script_of_passes (passes : drive.Passes m units signals next) :
    next.script = m.script := by
  cases passes with
  | works opening works =>
    have plays : Plays m.script m.stepGuard m := ⟨rfl, rfl⟩
    exact ((plays.opening opening).works works).script

section

variable {seed : Option UInt32} {environment : Option Environment} {reply : Reply Unit}

theorem inside_of_on {guard : Option Nat} (reached : Reaches (new seed environment guard) m)
    (returned : drive.on budget m = some reply) : reply.machine.cursor ≤ m.script.length := by
  have performed : m.perform budget drive.operation = some reply.done := by
    rw [on_operation, returned]
    rfl
  have rests := resting_of_new (.perform reached performed)
  have plays := Plays.perform ⟨rfl, rfl⟩ (by cases drive <;> rintro _ _ _ ⟨⟩) performed
  rw [← plays.script]
  exact rests.inside

theorem stepGuard_of_reaches {guard : Option Nat}
    (reached : Reaches (new seed environment guard) m) : m.stepGuard = guard := by
  induction reached with
  | refl => rfl
  | @perform m budget operation reply before returned ih =>
    cases operation with
    | load script globals locals =>
      cases Option.some.inj returned
      exact ih
    | _ => exact (Plays.perform ⟨rfl, ih⟩ (by rintro _ _ _ ⟨⟩) returned).stepGuard

theorem RunsOff.givesUp (reached : Reaches (new seed environment (some limit)) m)
    (runsOff : drive.RunsOff m steps next) (beyond : limit ≤ steps) :
    ∃ reply, drive.GivesUp m limit reply ∧
      (reply.machine.cursor = m.script.length ↔ steps = limit) := by
  obtain ⟨signals, middle, passes, due, last, short⟩ := runsOff.reached beyond
  obtain ⟨reply, givesUp, same⟩ := givesUp_of_passes passes due (stepGuard_of_reaches reached)
  have script := script_of_passes passes
  refine ⟨reply, givesUp, ?_⟩
  rw [same]
  constructor
  · intro atEnd
    refine Decidable.byContradiction fun other => ?_
    obtain ⟨step, here⟩ := short (by omega)
    have inside := inside_of_currentStep? here
    rw [atEnd, script] at inside
    exact Nat.lt_irrefl _ inside
  · intro all
    have behind := List.getElem?_eq_none_iff.1 runsOff.beyond
    rw [← last all, script] at behind
    have inside := inside_of_on reached (givesUp.returned 0)
    rw [same] at inside
    exact Nat.le_antisymm inside behind

-- What a refusal can mean: a step is still due, or the limit led exactly to the end.
theorem refusal_cases (reached : Reaches (new seed environment (some limit)) m)
    (returned : drive.on budget m = some reply) (refused : reply.result = .error error) :
    error = .guardExceeded limit ∧ (reply.machine.cursor < m.script.length ∨
      reply.machine.cursor = m.script.length ∧ ∃ next, drive.RunsOff m limit next) := by
  have guarded := stepGuard_of_reaches reached
  have inside := inside_of_on reached returned
  obtain ⟨units, returns, -⟩ := on_eq_some_iff.1 returned
  cases returns with
  | idle nothing => rw [idle_result] at refused; cases refused
  | drives opening drives =>
    cases drives with
    | rests works within settled => cases refused
    | @trips signals next works own due =>
      have same := (untouched_of_opening opening).stepGuard.trans guarded
      cases Option.some.inj (own.symm.trans same)
      cases refused
      have passes : drive.Passes m _ _ next := .works opening works
      refine ⟨rfl, (Nat.lt_or_eq_of_le inside).imp_right fun atEnd => ?_⟩
      have beyond : next.currentStep? = none := by
        rw [currentStep?, List.getElem?_eq_none_iff, script_of_passes passes]
        exact Nat.le_of_eq atEnd.symm
      exact ⟨atEnd, next, ⟨_, passes⟩, due, beyond⟩

theorem guard_at_end (reached : Reaches (new seed environment (some limit)) m) (drive : Drive) :
    (∀ budget reply error, drive.on budget m = some reply → reply.result = .error error →
      error = .guardExceeded limit ∧ (reply.machine.cursor < m.script.length ∨
        reply.machine.cursor = m.script.length ∧ ∃ next, drive.RunsOff m limit next)) ∧
    ∀ steps next, drive.RunsOff m steps next →
      next.stepCount = m.stepCount + steps ∧
      (steps < limit → ∃ reply, drive.Finishes m reply) ∧
      (limit ≤ steps → ∃ reply, drive.GivesUp m limit reply ∧
        (reply.machine.cursor = m.script.length ↔ steps = limit)) := by
  constructor
  · intro budget reply error returned refused
    exact refusal_cases reached returned refused
  · intro steps next runsOff
    have guarded := stepGuard_of_reaches reached
    exact ⟨runsOff.stepCount_eq, runsOff.finishes guarded, runsOff.givesUp reached⟩

end

-- A story of one step that is played with the limit 1 is given up behind that step.
theorem guard_at_end_behind_one_step : ∃ m reply, Reaches (new none none (some 1)) m ∧
    (∃ next, (Drive.start none).RunsOff m 1 next ∧ next.stepCount = m.stepCount + 1) ∧
    (Drive.start none).GivesUp m 1 reply ∧ reply.machine.cursor = m.script.length := by
  let m := ((new none none (some 1)).load [⟨none, .command⟩] .empty .empty).machine
  let entered : Machine := { m with phase := .playing, due := true }
  have loaded : Reaches (new none none (some 1)) m := .perform .refl
    (show (new none none (some 1)).perform 0 (.load _ .empty .empty) = some _ from rfl)
  have works : Works 1 entered _ entered.work.1 := .cons rfl .nil
  have runsOff : (Drive.start none).RunsOff m 1 entered.work.1 :=
    ⟨⟨_, .works rfl works⟩, rfl, rfl⟩
  obtain ⟨counted, -, givesUp⟩ := (guard_at_end loaded (.start none)).2 1 _ runsOff
  obtain ⟨reply, stopped, place⟩ := givesUp (Nat.le_refl 1)
  exact ⟨_, reply, loaded, ⟨_, runsOff, counted⟩, stopped, place.2 rfl⟩

theorem guard_fires_at_end : ¬ ∀ m, Reaches (new none none (some 1)) m →
    ∀ (drive : Drive) budget reply error, drive.on budget m = some reply →
      reply.result = .error error → reply.machine.cursor < reply.machine.script.length := by
  intro claimed
  have loaded := Reaches.perform .refl (show (new none none (some 1)).perform 0
    (.load [⟨none, .command⟩] .empty .empty) = some _ from rfl)
  exact absurd (claimed _ loaded (.start none) 0 _ _ rfl rfl) (by decide)

end Drive

end VisualNovel

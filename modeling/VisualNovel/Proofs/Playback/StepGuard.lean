import VisualNovel.Proofs.Playback.Effect
import VisualNovel.Proofs.Playback.Units

namespace VisualNovel

namespace Machine

def withGuard (m : Machine) (guard : Option Nat) : Machine := { m with stepGuard := guard }

end Machine

def Reply.withGuard (reply : Reply α) (guard : Option Nat) : Reply α :=
  ⟨reply.machine.withGuard guard, reply.signals, reply.result⟩

namespace Machine

def changeWithGuard (guard : Option Nat) (changed : Machine × List Signal) :
    Machine × List Signal :=
  (changed.1.withGuard guard, changed.2)

variable (m : Machine) (guard : Option Nat)

theorem jumpToLabel_withGuard (label : String) :
    (m.withGuard guard).jumpToLabel label = changeWithGuard guard (m.jumpToLabel label) := by
  unfold jumpToLabel
  cases found : m.script.labelIndex? label <;> simp only [withGuard, found] <;> rfl

theorem jumpToId_withGuard (id : StepId) :
    (m.withGuard guard).jumpToId id = changeWithGuard guard (m.jumpToId id) := by
  unfold jumpToId
  cases found : m.script.idIndex? id <;> simp only [withGuard, found] <;> rfl

theorem departs_withGuard {step : Step}
    (departs : Departs step m (m.withGuard guard) one two) : two = changeWithGuard guard one := by
  cases departs with
  | goesOn stores fault signals => rfl
  | jumpsToLabel generator label =>
    exact jumpToLabel_withGuard { m with generator := generator } guard label
  | jumpsToId sought => exact jumpToId_withGuard m guard _
  | parks phase event => rfl
  | ends => rfl

-- No step reads the guard.
theorem execute_withGuard (step : Step) :
    (m.withGuard guard).execute step = changeWithGuard guard (m.execute step) := by
  have agrees : m.Agrees (m.withGuard guard) := ⟨rfl, rfl, rfl⟩
  exact departs_withGuard m guard (execute_departs agrees step)

theorem work_withGuard : (m.withGuard guard).work = changeWithGuard guard m.work := by
  unfold work
  dsimp only [currentStep?, withGuard]
  cases m.script[m.cursor]? with
  | none => rfl
  | some step =>
    exact execute_withGuard { m with due := false, stepCount := m.stepCount + 1 } guard step

variable {m next : Machine} {reply : Reply Unit}

theorem Works.withGuard (works : Works units m signals next) (guard : Option Nat) :
    Works units (m.withGuard guard) signals (next.withGuard guard) := by
  induction works with
  | nil => exact .nil
  | @cons units signals next m due further ih =>
    have one := work_withGuard m guard
    have more : Works units (m.withGuard guard).work.1 signals (next.withGuard guard) := by
      rw [one]
      exact ih
    have all := Works.cons (m := m.withGuard guard) due more
    rwa [one] at all

theorem Drives.withGuard (drives : Drives (m.withGuard none) units reply)
    (within : units ≤ limit) :
    reply.result = .ok () ∧
      Drives (m.withGuard (some limit)) units (reply.withGuard (some limit)) := by
  cases drives with
  | rests works _ settled =>
    refine ⟨rfl, .rests (works.withGuard (some limit)) ?_ settled⟩
    intro own same
    cases same
    exact within
  | trips works guarded left => cases guarded

end Machine

namespace Drive

open Machine

variable {m : Machine} {drive : Drive} {reply : Reply Unit} {guard : Option Nat}

theorem opening?_withGuard (drive : Drive) (m : Machine) (guard : Option Nat) :
    drive.opening? (m.withGuard guard) = (drive.opening? m).map (changeWithGuard guard) := by
  cases drive with
  | start label =>
    unfold opening?
    have entry : Machine.entry? (m.withGuard guard) label = m.entry? label := rfl
    dsimp only
    rw [entry]
    change (if m.script = [] ∨ m.phase = .ended then _ else _) = _
    split
    · rfl
    · cases m.entry? label with
      | none => rfl
      | some label =>
        exact congrArg some (jumpToLabel_withGuard { m with phase := .playing } guard label)
  | advance =>
    unfold opening?
    change (if m.phase = .waiting then _ else _) = _
    split <;> rfl
  | choose label =>
    unfold opening?
    change (if m.phase = .choice then _ else _) = _
    split
    · exact congrArg some (jumpToLabel_withGuard m guard label)
    · rfl

theorem opening_of_guarded
    (opening : drive.opening? (m.withGuard guard) = some (entered, earlier)) :
    ∃ free : Machine, entered = free.withGuard guard ∧
      ∀ other, drive.opening? (m.withGuard other) = some (free.withGuard other, earlier) := by
  rw [opening?_withGuard] at opening
  obtain ⟨⟨free, signals⟩, opened, same⟩ := Option.map_eq_some_iff.1 opening
  cases same
  refine ⟨free, rfl, fun other => ?_⟩
  rw [opening?_withGuard, opened]
  rfl

theorem idle_withGuard (drive : Drive) (m : Machine) (guard : Option Nat) :
    drive.idle (m.withGuard guard) = (drive.idle m).withGuard guard := by
  cases drive with
  | start label =>
    unfold idle
    change (if m.script = [] then _ else _) = _
    split <;> rfl
  | advance => rfl
  | choose label => rfl

theorem Returns.withGuard (returns : drive.Returns (m.withGuard none) units reply)
    (within : units ≤ limit) :
    reply.result = .ok () ∧
      drive.Returns (m.withGuard (some limit)) units (reply.withGuard (some limit)) := by
  cases returns with
  | idle nothing =>
    refine ⟨idle_result .., ?_⟩
    have alike : (drive.idle (m.withGuard none)).withGuard (some limit) =
        drive.idle (m.withGuard (some limit)) := by
      rw [idle_withGuard, idle_withGuard]
      rfl
    rw [alike]
    refine .idle ?_
    rw [opening?_withGuard, Option.map_eq_none_iff] at nothing ⊢
    exact nothing
  | drives opening drives =>
    obtain ⟨free, rfl, same⟩ := opening_of_guarded opening
    obtain ⟨accepted, guarded⟩ := drives.withGuard within
    exact ⟨accepted, .drives (same (some limit)) guarded⟩

theorem passes_of_beyond
    (beyond : ∀ units reply, drive.Returns (m.withGuard none) units reply → limit < units) :
    ∃ signals next, drive.Passes (m.withGuard none) limit signals next ∧
      drive.Returns (m.withGuard (some limit)) limit
        ((next.withGuard (some limit)).tripped limit signals) := by
  cases opening : drive.opening? (m.withGuard none) with
  | none => exact absurd (beyond 0 _ (.idle opening)) (Nat.not_lt_zero _)
  | some opened =>
    obtain ⟨entered, earlier⟩ := opened
    obtain ⟨free, rfl, same⟩ := opening_of_guarded opening
    rcases drives_or_unguarded (free.withGuard none) limit with
      ⟨units, ended, drives, enough⟩ | ⟨-, signals, next, works, left⟩
    · exact absurd (beyond units _ (.drives opening drives)) (Nat.not_lt.2 (enough rfl))
    · refine ⟨earlier ++ signals, next, .works opening works, ?_⟩
      have tripped := Drives.trips (works.withGuard (some limit)) rfl left
      have returned := Returns.drives (same (some limit)) tripped
      simpa [Reply.behind, Machine.tripped] using returned

-- A guarded operation always ends within the limit, and like the unguarded one if that does. If
-- that has more to do, the guarded one ends where it is after as many units as the limit allows,
-- paused, and rests there.
theorem guard_transparent (m : Machine) (limit : Nat) (drive : Drive) :
    (∀ budget reply, drive.on budget (m.withGuard none) = some reply ↔
      ∃ units ≤ budget, drive.Returns (m.withGuard none) units reply) ∧
    (∃ units ≤ limit, ∃ reply, drive.Returns (m.withGuard (some limit)) units reply ∧
      ∀ budget, drive.on budget (m.withGuard (some limit)) = some reply) ∧
    (∀ units ≤ limit, ∀ reply, drive.Returns (m.withGuard none) units reply →
      reply.result = .ok () ∧
        ∀ budget, drive.on budget (m.withGuard (some limit)) =
          some (reply.withGuard (some limit))) ∧
    ((∀ units reply, drive.Returns (m.withGuard none) units reply → limit < units) →
      ∃ signals next, drive.Passes (m.withGuard none) limit signals next ∧
        let paused : Machine := { next with
          stepGuard := some limit, phase := .idle, due := false,
          lastFault := some (.guardExceeded limit) }
        (∀ budget, drive.on budget (m.withGuard (some limit)) =
          some ⟨paused, signals ++ [.record (.guardExceeded limit next.cursor), paused.debugEvent],
            .error (.guardExceeded limit)⟩) ∧
        ∀ budget, paused.advance budget = some paused.unchanged ∧
          ∀ label, paused.choose budget label = some paused.unchanged) := by
  refine ⟨?_, ?_, ?_, ?_⟩
  · intro budget reply
    rw [on_eq_some_iff]
    constructor
    · rintro ⟨units, returns, enough⟩
      exact ⟨units, enough rfl, returns⟩
    · rintro ⟨units, within, returns⟩
      exact ⟨units, returns, fun _ => within⟩
  · by_cases soon : ∃ units ≤ limit, ∃ reply, drive.Returns (m.withGuard none) units reply
    · obtain ⟨units, within, reply, returns⟩ := soon
      have guarded := (returns.withGuard within).2
      exact ⟨units, within, _, guarded, fun budget => guarded.on_eq nofun⟩
    · obtain ⟨signals, next, -, guarded⟩ : ∃ signals next,
          drive.Passes (m.withGuard none) limit signals next ∧ _ := by
        refine passes_of_beyond fun units reply returns => Nat.lt_of_not_le fun within => ?_
        exact soon ⟨units, within, reply, returns⟩
      exact ⟨limit, Nat.le_refl _, _, guarded, fun budget => guarded.on_eq nofun⟩
  · intro units within reply returns
    obtain ⟨accepted, guarded⟩ := returns.withGuard within
    exact ⟨accepted, fun budget => guarded.on_eq nofun⟩
  · intro beyond
    obtain ⟨signals, next, passes, guarded⟩ := passes_of_beyond beyond
    exact ⟨signals, next, passes, fun budget => guarded.on_eq nofun, fun budget =>
      ⟨rfl, fun label => rfl⟩⟩

end Drive

end VisualNovel

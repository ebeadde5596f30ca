import VisualNovel.Proofs.Playback.Kept
import VisualNovel.Proofs.Playback.Past
import VisualNovel.Proofs.Playback.Telling
import Mathlib.Data.List.Basic

namespace VisualNovel

def Operation.steers : Operation → Bool
  | .start _ => true
  | .stop => true
  | .advance => true
  | .choose _ => true
  | _ => false

namespace Machine

-- The operations after a machine has been made, loaded or resumed, with all they have emitted. Only
-- a resume that was refused can be among them.
inductive Stretch (first : Machine) : List Signal → Machine → Prop where
  | nil : Stretch first [] first
  | cons (before : Stretch first signals m) (returned : m.perform budget operation = some reply)
      (same : operation.goesOn = true ∨ ∃ error, reply.result = .error error) :
      Stretch first (signals ++ reply.signals) reply.machine

inductive Begins : Machine → Prop where
  | new (seed : Option UInt32) (environment : Option Environment) (limit : Option Nat) :
      Begins (.new seed environment limit)
  | renewed {seed : Option UInt32} {environment : Option Environment} {limit : Option Nat}
      (reached : Reaches (.new seed environment limit) m)
      (returned : m.perform budget operation = some reply) (renews : operation.goesOn = false)
      (accepted : reply.result = .ok answer) : Begins reply.machine

-- What is told holds the end only as its last event, and exactly if the machine is ended.
structure TellsEnd (m : Machine) (told : List Event) : Prop where
  last : ∀ event ∈ told.dropLast, event ≠ .finish
  ended : m.phase = .ended ↔ .finish ∈ told

structure Unmoved (before after : Machine) : Prop where
  phase : after.phase = before.phase
  cursor : after.cursor = before.cursor
  stepCount : after.stepCount = before.stepCount
  generator : after.generator = before.generator

variable {m next first : Machine} {told earlier later : List Event} {operation : Operation}

theorem Unmoved.refl (m : Machine) : Unmoved m m := ⟨rfl, rfl, rfl, rfl⟩

theorem TellsEnd.silent (unended : m.phase ≠ .ended) : TellsEnd m [] :=
  ⟨List.forall_mem_nil _, iff_of_false unended List.not_mem_nil⟩

theorem TellsEnd.of_quiet (unended : m.phase ≠ .ended) (quiet : storyEvents signals = []) :
    TellsEnd m (storyEvents signals) := by
  rw [quiet]
  exact .silent unended

theorem eq_finish_of_stop? {event : Event} (stop : event.stop? = some .ended) :
    event = .finish := by
  cases event <;> first | rfl | cases stop

theorem Tells.tellsEnd (tells : m.Tells told) : TellsEnd m told := by
  have others : ∀ event ∈ told.dropLast, event ≠ .finish := by
    rintro event member rfl
    cases tells.dropLast _ member
  refine ⟨others, ?_, ?_⟩
  · intro ended
    obtain ⟨event, last, stop, -⟩ := tells.getLast?_iff (by rw [ended]; rfl)
    rw [ended] at stop
    rw [← eq_finish_of_stop? stop]
    exact List.mem_of_getLast? last
  · intro member
    by_cases last : told.getLast? = some .finish
    · exact tells.phase_of_getLast? last rfl
    · have inside := List.mem_dropLast_of_mem_of_ne_getLast? member (Ne.symm last)
      exact absurd rfl (others _ inside)

theorem TellsEnd.append (before : TellsEnd m earlier) (unended : m.phase ≠ .ended)
    (after : TellsEnd next later) : TellsEnd next (earlier ++ later) := by
  have untold : .finish ∉ earlier := fun member => unended (before.ended.2 member)
  constructor
  · intro event member
    rcases List.eq_nil_or_concat later with rfl | ⟨front, back, rfl⟩
    · rw [List.append_nil] at member
      exact before.last event member
    · rw [List.concat_eq_append, ← List.append_assoc, List.dropLast_concat] at member
      rcases List.mem_append.1 member with early | late
      · rintro rfl
        exact untold early
      · refine after.last event ?_
        rwa [List.concat_eq_append, List.dropLast_concat]
  · rw [after.ended, List.mem_append, or_iff_right untold]

theorem TellsEnd.count_le_one (tellsEnd : TellsEnd m told) : told.count .finish ≤ 1 := by
  rcases List.eq_nil_or_concat told with rfl | ⟨front, back, rfl⟩
  · exact Nat.zero_le _
  · have unfinished : front.count .finish = 0 := by
      refine List.count_eq_zero.2 fun member => tellsEnd.last .finish ?_ rfl
      rwa [List.concat_eq_append, List.dropLast_concat]
    rw [List.concat_eq_append, List.count_append, unfinished, Nat.zero_add]
    exact List.count_le_length

end Machine

open Machine

section

variable {m : Machine} {drive : Drive} {reply : Reply Unit}

theorem Drive.phase_of_opening (opening : drive.opening? m = some (entered, earlier)) :
    entered.phase ≠ .ended := by
  rcases opening_cases opening with ⟨phase, label, playing, jumped⟩ | ⟨cursor, rfl, -⟩
  · unfold Machine.jumpToLabel at jumped
    split at jumped
    · cases jumped
      exact nofun
    · cases jumped
      rcases playing with rfl | rfl <;> exact nofun
  · exact nofun

theorem Drive.Returns.tellsEnd (returns : drive.Returns m units reply) (unended : m.phase ≠ .ended) :
    TellsEnd reply.machine (storyEvents reply.signals) := by
  rcases Nat.eq_zero_or_pos units with rfl | worked
  · refine .of_quiet ?_ returns.quiet
    cases returns with
    | idle nothing => rwa [Drive.idle_machine]
    | drives opening drives =>
      have entered := Drive.phase_of_opening opening
      rcases drives.unworked.2 with same | idle
      · exact fun ended => entered (same.symm.trans ended)
      · exact fun ended => nomatch idle.symm.trans ended
  · exact (returns.tells worked).tellsEnd

theorem Drive.opening?_ended (ended : m.phase = .ended) (drive : Drive) :
    drive.opening? m = none := by
  cases drive <;> simp [Drive.opening?, ended]

end

namespace Machine

variable {m next first : Machine} {reply : Reply Answer} {operation : Operation}

theorem goesOn_of_access (access : operation.reads = true ∨ operation.writes = true) :
    operation.goesOn = true ∧ operation.steers = false := by
  cases operation <;> first | exact ⟨rfl, rfl⟩ | simp [Operation.reads, Operation.writes] at access

theorem perform_refused (renews : operation.goesOn = false)
    (returned : m.perform budget operation = some reply) (refused : reply.result = .error error) :
    reply.machine = m ∧ reply.signals = [] := by
  cases operation with
  | load script globals locals => cases Option.some.inj returned; cases refused
  | resume s => exact (performs_of_perform returned).untraced rfl refused
  | _ => cases renews

theorem Performs.renewed (performs : Performs m operation reply)
    (renews : operation.goesOn = false) (accepted : reply.result = .ok answer) :
    reply.machine.phase ≠ .ended := by
  cases performs with
  | drives drive returns => cases drive <;> cases renews
  | loads script globals locals => exact nofun
  | reads reads result =>
    rw [(goesOn_of_access (.inl reads)).1] at renews
    cases renews
  | writes writes =>
    rw [(goesOn_of_access (.inr writes)).1] at renews
    cases renews
  | refuses s error => cases accepted
  | @resumes s environment fits set =>
    have suspended := isSuspended_of_fits fits
    intro ended
    rw [show s.phase = .ended from ended] at suspended
    cases suspended
  | _ => cases renews

theorem setEnvironment_quiet (m : Machine) (key : String) (value : Bool) :
    storyEvents (m.setEnvironment key value).signals = [] ∧
      Unmoved m (m.setEnvironment key value).machine := by
  unfold Machine.setEnvironment
  split <;> exact ⟨rfl, rfl, rfl, rfl, rfl⟩

theorem Performs.tellsEnd (performs : Performs m operation reply) (unended : m.phase ≠ .ended)
    (goesOn : operation.goesOn = true) : TellsEnd reply.machine (storyEvents reply.signals) := by
  cases performs with
  | drives drive returns => exact returns.tellsEnd unended
  | loads script globals locals => cases goesOn
  | stops _ => exact .of_quiet nofun rfl
  | writes writes stores environment tidy remarks answer =>
    exact .of_quiet unended (storyEvents_shown remarks _)
  | refuses s error => cases goesOn
  | resumes fits set => cases goesOn
  | _ => exact .of_quiet unended rfl

-- What an operation can still do to an ended machine.
structure Idles (m : Machine) (operation : Operation) (reply : Reply Answer) : Prop where
  quiet : storyEvents reply.signals = []
  unmoved : Unmoved m reply.machine
  steered : operation.steers = true → reply.result = .ok .done ∧ reply.machine.stores = m.stores

theorem Idles.of_idle (drive : Drive) (m : Machine) :
    Idles m drive.operation (drive.idle m).done where
  quiet := Drive.storyEvents_idle drive m
  unmoved := by
    change Unmoved m (drive.idle m).machine
    rw [Drive.idle_machine]
    exact .refl m
  steered _ := by
    change (drive.idle m).result.map _ = _ ∧ (drive.idle m).machine.stores = _
    rw [Drive.idle_result, Drive.idle_machine]
    exact ⟨rfl, rfl⟩

theorem Idles.of_access (access : operation.reads = true ∨ operation.writes = true)
    (quiet : storyEvents reply.signals = []) (unmoved : Unmoved m reply.machine) :
    Idles m operation reply where
  quiet := quiet
  unmoved := unmoved
  steered steers := by
    rw [(goesOn_of_access access).2] at steers
    cases steers

theorem Performs.idles (performs : Performs m operation reply) (ended : m.phase = .ended)
    (goesOn : operation.goesOn = true) : Idles m operation reply := by
  cases performs with
  | drives drive returns =>
    cases returns with
    | idle nothing => exact .of_idle drive m
    | drives opening drives =>
      rw [Drive.opening?_ended ended] at opening
      cases opening
  | loads script globals locals => cases goesOn
  | stops unended => exact absurd ended unended
  | ended _ => exact ⟨rfl, .refl m, fun _ => ⟨rfl, rfl⟩⟩
  | sets set => exact ⟨rfl, ⟨rfl, rfl, rfl, rfl⟩, nofun⟩
  | strays unknown => exact ⟨rfl, ⟨rfl, rfl, rfl, rfl⟩, nofun⟩
  | reads reads result => exact .of_access (.inl reads) rfl (.refl m)
  | writes writes stores environment tidy remarks answer =>
    exact .of_access (.inr writes) (storyEvents_shown remarks _) ⟨rfl, rfl, rfl, rfl⟩
  | refuses s error => cases goesOn
  | resumes fits set => cases goesOn

theorem perform_ended (ended : m.phase = .ended) (goesOn : operation.goesOn = true)
    (budget : Nat) : ∃ reply, m.perform budget operation = some reply ∧ Idles m operation reply := by
  have drives (drive : Drive) : ∃ reply, m.perform budget drive.operation = some reply := by
    rw [Drive.on_operation, Drive.on_of_idle (Drive.opening?_ended ended drive)]
    exact ⟨_, rfl⟩
  have returns : ∃ reply, m.perform budget operation = some reply := by
    cases operation with
    | start label => exact drives (.start label)
    | advance => exact drives .advance
    | choose label => exact drives (.choose label)
    | _ => exact ⟨_, rfl⟩
  obtain ⟨reply, returned⟩ := returns
  exact ⟨reply, returned, (performs_of_perform returned).idles ended goesOn⟩

theorem begins_open (begins : Begins first) : first.phase ≠ .ended := by
  cases begins with
  | new seed environment limit => exact nofun
  | renewed reached returned renews accepted => exact (performs_of_perform returned).renewed renews accepted

-- Once the end has been told, nothing is told; until then, it may be told.
theorem Stretch.tellsEnd (unended : first.phase ≠ .ended) (stretch : Stretch first signals m) :
    TellsEnd m (storyEvents signals) := by
  induction stretch with
  | nil => exact .silent unended
  | @cons signals m budget operation reply before returned same ih =>
    rw [storyEvents_append]
    cases goesOn : operation.goesOn with
    | false =>
      obtain ⟨error, refused⟩ := same.resolve_left (by simp [goesOn])
      obtain ⟨kept, quiet⟩ := perform_refused goesOn returned refused
      rw [kept, quiet]
      simpa [storyEvents] using ih
    | true =>
      by_cases ended : m.phase = .ended
      · obtain ⟨own, performed, idles⟩ := perform_ended ended goesOn budget
        cases Option.some.inj (returned.symm.trans performed)
        rw [idles.quiet, List.append_nil]
        refine ⟨ih.last, ?_⟩
        rw [idles.unmoved.phase]
        exact ih.ended
      · exact ih.append ended ((performs_of_perform returned).tellsEnd ended goesOn)

theorem end_is_final (begins : Begins first) (stretch : Stretch first signals m) :
    (storyEvents signals).count .finish ≤ 1 ∧
      (∀ event ∈ (storyEvents signals).dropLast, event ≠ .finish) ∧
      (m.phase = .ended ↔ .finish ∈ storyEvents signals) ∧
      (m.phase = .ended → ∀ budget operation, operation.goesOn = true →
        ∃ reply, m.perform budget operation = some reply ∧ Unmoved m reply.machine ∧
          (operation.steers = true →
            reply.result = .ok .done ∧ reply.machine.stores = m.stores)) := by
  have tellsEnd := stretch.tellsEnd (begins_open begins)
  refine ⟨tellsEnd.count_le_one, tellsEnd.last, tellsEnd.ended, ?_⟩
  intro ended budget operation goesOn
  obtain ⟨reply, performed, idles⟩ := perform_ended ended goesOn budget
  exact ⟨reply, performed, idles.unmoved, idles.steered⟩

-- A story of one line, told to its end and then started again.
theorem end_is_final_after_one_line : ∃ first m signals, Begins first ∧
    Stretch first signals m ∧ m.phase = .ended ∧
    storyEvents signals = [.say "" "", .finish] ∧
    (storyEvents signals).count .finish ≤ 1 ∧
    (m.phase = .ended → ∀ budget operation, operation.goesOn = true →
      ∃ reply, m.perform budget operation = some reply ∧ Unmoved m reply.machine ∧
        (operation.steers = true → reply.result = .ok .done ∧ reply.machine.stores = m.stores)) := by
  let script : Script := [⟨none, .dialogue none none⟩]
  let first := ((new none none (some 8)).load script .empty .empty).machine
  have begun : Begins first := .renewed .refl
    (show (new none none (some 8)).perform 0 (.load script .empty .empty) = some _ from rfl) rfl rfl
  have started := Stretch.cons (show Stretch first [] first from .nil)
    (show first.perform 0 (.start none) = some _ from rfl) (.inl rfl)
  have ended := Stretch.cons started (show Machine.perform 0 _ .advance = some _ from rfl)
    (.inl rfl)
  have again := Stretch.cons ended (show Machine.perform 0 _ (.start none) = some _ from rfl)
    (.inl rfl)
  obtain ⟨once, -, -, still⟩ := end_is_final begun again
  exact ⟨_, _, _, begun, again, rfl, by decide, once, still⟩

end Machine

end VisualNovel

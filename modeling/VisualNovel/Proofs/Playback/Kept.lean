import VisualNovel.Proofs.Playback.Rest

namespace VisualNovel.Machine

structure Plays (script : Script) (stepGuard : Option Nat) (m : Machine) : Prop where
  script : m.script = script
  stepGuard : m.stepGuard = stepGuard

variable {script : Script} {guard : Option Nat} {m next : Machine} {step : Step}

theorem Plays.untouched (plays : Plays script guard m) (untouched : Untouched m next) :
    Plays script guard next :=
  ⟨untouched.script.trans plays.script, untouched.stepGuard.trans plays.stepGuard⟩

theorem Plays.work (plays : Plays script guard m) : Plays script guard m.work.1 := by
  rcases m.work_acts with ⟨-, ended⟩ | ⟨step, -, acts⟩
  · rw [ended]
    exact ⟨plays.script, plays.stepGuard⟩
  · have taking : Plays script guard m.taking := ⟨plays.script, plays.stepGuard⟩
    exact taking.untouched acts.leaves.untouched

theorem Plays.works (plays : Plays script guard m) (works : Works units m signals next) :
    Plays script guard next := by
  induction works with
  | nil => exact plays
  | cons due further ih => exact ih plays.work

theorem Drives.plays {reply : Reply Unit} (drives : Drives m units reply)
    (plays : Plays script guard m) : Plays script guard reply.machine := by
  cases drives with
  | rests works within settled =>
    have worked := plays.works works
    exact ⟨worked.script, worked.stepGuard⟩
  | trips works guarded left =>
    have worked := plays.works works
    exact ⟨worked.script, worked.stepGuard⟩

theorem Plays.opening (plays : Plays script guard m) {drive : Drive}
    (opening : drive.opening? m = some (entered, earlier)) : Plays script guard entered :=
  plays.untouched (Drive.untouched_of_opening opening)

theorem Plays.returns (plays : Plays script guard m) {drive : Drive} {reply : Reply Unit}
    (returns : drive.Returns m units reply) : Plays script guard reply.machine := by
  cases returns with
  | idle nothing => rwa [Drive.idle_machine]
  | drives opening drives => exact drives.plays (plays.opening opening)

theorem Plays.on (plays : Plays script guard m) (drive : Drive)
    (returned : drive.on budget m = some reply) : Plays script guard reply.machine := by
  obtain ⟨units, returns, -⟩ := Drive.on_eq_some_iff.1 returned
  exact plays.returns returns

theorem Plays.result_on (plays : Plays script none m) (drive : Drive)
    (returned : drive.on budget m = some reply) : reply.result = .ok () := by
  obtain ⟨units, returns, -⟩ := Drive.on_eq_some_iff.1 returned
  cases returns with
  | idle nothing => exact Drive.idle_result drive m
  | drives opening drives =>
    cases drives with
    | rests works within settled => rfl
    | trips works guarded left =>
      rw [(plays.opening opening).stepGuard] at guarded
      cases guarded

theorem Performs.plays (performs : Performs m operation reply)
    (kept : ∀ script globals locals, operation ≠ .load script globals locals)
    (plays : Plays script guard m) : Plays script guard reply.machine := by
  cases performs with
  | drives drive returns => exact plays.returns returns
  | loads script globals locals => exact absurd rfl (kept script globals locals)
  | _ => exact ⟨plays.script, plays.stepGuard⟩

theorem Plays.perform (plays : Plays script guard m)
    (kept : ∀ script globals locals, operation ≠ .load script globals locals)
    (returned : m.perform budget operation = some reply) : Plays script guard reply.machine :=
  (performs_of_perform returned).plays kept plays

theorem Plays.setEnvironment (plays : Plays script guard m) (key : String) (value : Bool) :
    Plays script guard (m.setEnvironment key value).machine :=
  (performs_setEnvironment m key value).plays nofun plays

theorem Plays.resume (plays : Plays script guard m) (s : Snapshot) :
    Plays script guard (m.resume s).machine := (performs_resume m s).plays nofun plays

theorem machine_of_outcome (accepted : (Setup.outcome earlier reply).result = .ok m) :
    reply.machine = m := by
  unfold Setup.outcome at accepted
  cases result : reply.result with
  | error error => rw [result] at accepted; cases accepted
  | ok done =>
    rw [result] at accepted
    exact Except.ok.inj accepted

theorem create_cases {setup : Setup} (created : setup.create budget text = some outcome)
    (accepted : outcome.result = .ok m) :
    ∃ script, Setup.scriptOf setup.strict text = .ok script ∧ Plays script setup.stepGuard m ∧
      Resting (setup.environment.getD .standard).keys m := by
  unfold Setup.create at created
  split at created
  · cases Option.some.inj created
    cases accepted
  · rename_i script parsed
    have rests : Resting (setup.environment.getD .standard).keys
        (setup.loaded script).machine := resting_new.load _ _ _
    have plays : Plays script setup.stepGuard (setup.loaded script).machine := ⟨rfl, rfl⟩
    refine ⟨script, parsed, ?_⟩
    dsimp only at created
    split at created
    · obtain ⟨reply, started, rfl⟩ := Option.map_eq_some_iff.1 created
      cases machine_of_outcome accepted
      exact ⟨plays.on (.start _) started, rests.on (.start _) started⟩
    · cases Option.some.inj created
      cases machine_of_outcome accepted
      exact ⟨plays, rests⟩

end VisualNovel.Machine

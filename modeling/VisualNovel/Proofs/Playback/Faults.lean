import VisualNovel.Proofs.Playback.Operations

namespace VisualNovel

def Record.fault? : Record → Option Fault
  | .labelNotFound label => some (.unresolvedLabel label)
  | .stepIdNotFound id => some (.unresolvedStepId id)
  | .unknownSkipped id typeName _ => some (.unknownStepType id typeName)
  | .noFallback id => some (.conditionFailureWithoutFallback id)
  | .guardExceeded limit _ => some (.guardExceeded limit)
  | .environmentKeyRejected key => some (.unknownEnvironmentKey key)
  | .startIgnored => none
  | .creationWithoutAction _ => none
  | .mutationFailed _ _ _ => none
  | .refused _ => none

namespace Fault

-- How the log has to show a fault: only the flag that does not exist is no error of the script.
def level : Fault → Level
  | .unknownEnvironmentKey _ => .warn
  | _ => .error

def message : Fault → String
  | .unresolvedLabel _ => "critical: label not found"
  | .unresolvedStepId _ => "critical: step id not found"
  | .unknownStepType _ _ => "unknown instruction skipped"
  | .conditionFailureWithoutFallback _ => "condition failed but no end id provided"
  | .unknownEnvironmentKey _ => "unknown environment key rejected"
  | .guardExceeded _ => "step guard exceeded, pausing"

def fields : Fault → List (String × String)
  | .unresolvedLabel label => [("label", label)]
  | .unresolvedStepId id => [("id", id.show)]
  | .unknownStepType id typeName => [("id", Record.idText id), ("step_type", typeName)]
  | .conditionFailureWithoutFallback id => [("id", Record.idText id)]
  | .unknownEnvironmentKey key => [("key", key)]
  | .guardExceeded limit => [("limit", toString limit)]

-- The record shows the fault: in its level, its words and all that the fault names.
structure ShownBy (fault : Fault) (record : Record) : Prop where
  level : record.level = fault.level
  message : record.message = fault.message
  fields : ∀ field ∈ fault.fields, field ∈ record.fields

theorem shownBy_of_fault? {record : Record} (told : record.fault? = some fault) :
    fault.ShownBy record := by
  cases record with
  | startIgnored => cases told
  | creationWithoutAction key => cases told
  | mutationFailed scope key failure => cases told
  | refused notice => cases told
  | _ =>
    cases told
    exact ⟨rfl, rfl, by simp [fields, Record.fields]⟩

-- By its words a record that tells of no fault cannot be taken for one that does.
theorem message_ne_of_fault? {record : Record} (silent : record.fault? = none) (fault : Fault) :
    record.message ≠ fault.message := by
  cases record with
  | startIgnored => cases fault <;> simp [Record.message, message]
  | creationWithoutAction key => cases fault <;> simp [Record.message, message]
  | mutationFailed scope key failure => cases fault <;> simp [Record.message, message]
  | refused notice => cases notice <;> cases fault <;> simp [Record.message, message]
  | _ => cases silent

end Fault

def faults (signals : List Signal) : List Fault := (records signals).filterMap Record.fault?

theorem faults_append (earlier later : List Signal) :
    faults (earlier ++ later) = faults earlier ++ faults later := by
  simp [faults, records]

theorem faults_remarks (remarks : ∀ signal ∈ signals, signal.isRemark = true) :
    faults signals = [] := by
  refine List.filterMap_eq_nil_iff.2 fun record member => ?_
  obtain ⟨signal, sent, same⟩ := List.mem_filterMap.1 member
  have remark := remarks signal sent
  cases signal with
  | event event => cases same
  | record record =>
    cases same
    cases record <;> first | rfl | cases remark

theorem faults_shown (remarks : ∀ signal ∈ signals, signal.isRemark = true) (event : Event) :
    faults (signals ++ [.event event]) = [] := by
  rw [faults_append, faults_remarks remarks]
  rfl

-- A run begins anew with a load, and with a snapshot that is taken.
def Operation.Renews (result : Except StoryError Answer) : Operation → Prop
  | .load _ _ _ => True
  | .resume _ => result = .ok .done
  | _ => False

namespace Machine

-- The machine remembers the last fault of which the signals tell, or else what was held before.
def Recalls (held : Option Fault) (m : Machine) (signals : List Signal) : Prop :=
  m.lastFault = (faults signals).getLast?.or held

variable {m next : Machine} {held : Option Fault} {signals earlier later : List Signal}

theorem Recalls.keeps (same : next.lastFault = held) (quiet : faults signals = []) :
    Recalls held next signals := by
  rw [Recalls, quiet]
  exact same

theorem Recalls.fails {record : Record} (told : record.fault? = some fault)
    (noted : next.lastFault = some fault) : Recalls held next [.record record] := by
  simp [Recalls, faults, records, Signal.record?, told, noted]

theorem Recalls.append (before : Recalls held m earlier) (behind : Recalls m.lastFault next later) :
    Recalls held next (earlier ++ later) := by
  rw [Recalls, faults_append, List.getLast?_append, Option.or_assoc, ← before]
  exact behind

theorem Recalls.behind (recalls : Recalls held next signals) (quiet : faults later = []) :
    Recalls held next (signals ++ later) := by
  rw [Recalls, faults_append, quiet, List.append_nil]
  exact recalls

theorem recalls_jumpToLabel (m : Machine) (label : String) :
    Recalls m.lastFault (m.jumpToLabel label).1 (m.jumpToLabel label).2 := by
  unfold jumpToLabel
  split
  · exact .keeps rfl rfl
  · exact .fails rfl rfl

theorem recalls_jumpToId (m : Machine) (id : StepId) :
    Recalls m.lastFault (m.jumpToId id).1 (m.jumpToId id).2 := by
  unfold jumpToId
  split
  · exact .keeps rfl rfl
  · exact .fails rfl rfl

theorem Acts.recalls {done : Machine × List Signal} (acts : Acts m step done) :
    Recalls m.lastFault done.1 done.2 := by
  cases acts with
  | changes stores environment tidy remarks => exact .keeps rfl (faults_shown remarks _)
  | strays => exact .fails rfl rfl
  | skips kind => exact .fails rfl rfl
  | jumpsToLabel generator label => exact recalls_jumpToLabel { m with generator := generator } label
  | jumpsToId id => exact recalls_jumpToId m id
  | _ => exact .keeps rfl rfl

theorem recalls_work (m : Machine) : Recalls m.lastFault m.work.1 m.work.2 := by
  rcases m.work_acts with ⟨-, ended⟩ | ⟨step, -, acts⟩
  · rw [ended]
    exact .keeps rfl rfl
  · exact acts.recalls

theorem Works.recalls (works : Works units m signals next) : Recalls m.lastFault next signals := by
  induction works with
  | nil => exact .keeps rfl rfl
  | @cons units signals next m due further ih => exact (recalls_work m).append ih

theorem Drives.recalls {reply : Reply Unit} (drives : Drives m units reply) :
    Recalls m.lastFault reply.machine reply.signals := by
  cases drives with
  | rests works within settled => exact works.recalls
  | @trips signals next works guarded left =>
    have tripped : Recalls next.lastFault (next.giveUp units)
        ([.record (.guardExceeded units next.cursor)] ++ [(next.giveUp units).debugEvent]) :=
      .behind (.fails rfl rfl) rfl
    exact works.recalls.append tripped

end Machine

namespace Drive

open Machine (Recalls)

variable {m : Machine} {drive : Drive} {ended : Reply Unit}

theorem recalls_opening (opening : drive.opening? m = some (entered, earlier)) :
    Recalls m.lastFault entered earlier := by
  rcases opening_cases opening with ⟨phase, label, -, jumped⟩ | ⟨cursor, rfl, rfl⟩
  · have landed := Machine.recalls_jumpToLabel { m with phase := phase } label
    rwa [jumped] at landed
  · exact .keeps rfl rfl

theorem recalls_idle (drive : Drive) (m : Machine) :
    Recalls m.lastFault (drive.idle m).machine (drive.idle m).signals := by
  rcases drive.idle_cases m with same | same <;> (rw [same]; exact .keeps rfl rfl)

theorem Returns.recalls (returns : drive.Returns m units ended) :
    Recalls m.lastFault ended.machine ended.signals := by
  cases returns with
  | idle nothing => exact recalls_idle drive m
  | drives opening drives => exact (recalls_opening opening).append drives.recalls

theorem Passes.recalls (passes : drive.Passes m units signals next) :
    Recalls m.lastFault next signals := by
  cases passes with
  | works opening works => exact (recalls_opening opening).append works.recalls

end Drive

namespace Machine

variable {m : Machine} {operation : Operation} {reply : Reply Answer}

theorem not_renews_of_access (access : operation.reads = true ∨ operation.writes = true)
    (result : Except StoryError Answer) : ¬ operation.Renews result := by
  cases operation <;> first | exact not_false | simp [Operation.reads, Operation.writes] at access

theorem Performs.recalls (performs : Performs m operation reply)
    (goesOn : ¬ operation.Renews reply.result) :
    Recalls m.lastFault reply.machine reply.signals := by
  cases performs with
  | drives drive returns => exact returns.recalls
  | loads script globals locals => exact absurd trivial goesOn
  | strays unknown => exact .fails rfl rfl
  | writes writes stores environment tidy remarks answer => exact .keeps rfl (faults_shown remarks _)
  | resumes fits set => exact absurd rfl goesOn
  | _ => exact .keeps rfl rfl

theorem Performs.forgets (performs : Performs m operation reply)
    (renews : operation.Renews reply.result) :
    reply.machine.lastFault = none ∧ faults reply.signals = [] := by
  cases performs with
  | loads script globals locals => exact ⟨rfl, faults_shown (isRemark_refusals _) _⟩
  | resumes fits set => exact ⟨rfl, faults_shown (isRemark_refusals _) _⟩
  | drives drive returns => cases drive <;> cases renews
  | reads reads result => exact absurd renews (not_renews_of_access (.inl reads) _)
  | writes writes => exact absurd renews (not_renews_of_access (.inr writes) _)
  | _ => cases renews

theorem silent_of_rejected {s : Snapshot} (returned : m.perform budget (.resume s) = some reply)
    (rejected : reply.result = .error error) :
    faults reply.signals = [] ∧ reply.machine.lastFault = m.lastFault := by
  obtain ⟨same, silent⟩ := (performs_of_perform returned).untraced rfl rejected
  rw [same, silent]
  exact ⟨rfl, rfl⟩

-- A record that tells of a fault shows it, and no other looks like one. The machine remembers the
-- last of the faults that it has told of, after every operation that goes on with the run and at
-- every moment amid a drive; a rejected snapshot is no such fault.
theorem last_fault_as_logged :
    (∀ (record : Record) (fault : Fault), record.fault? = some fault → fault.ShownBy record) ∧
    (∀ record : Record, record.fault? = none → ∀ fault : Fault, record.message ≠ fault.message) ∧
    (∀ m budget operation reply, perform budget m operation = some reply →
      (¬ operation.Renews reply.result →
        reply.machine.lastFault = (faults reply.signals).getLast?.or m.lastFault) ∧
      (operation.Renews reply.result →
        reply.machine.lastFault = none ∧ faults reply.signals = []) ∧
      ∀ s error, operation = .resume s → reply.result = .error error →
        faults reply.signals = [] ∧ reply.machine.lastFault = m.lastFault) ∧
    ∀ m drive units signals amid, Drive.Passes m drive units signals amid →
      amid.lastFault = (faults signals).getLast?.or m.lastFault := by
  refine ⟨fun record fault => Fault.shownBy_of_fault?, fun record => Fault.message_ne_of_fault?,
    fun m budget operation reply returned => ⟨?_, ?_, ?_⟩, ?_⟩
  · exact (performs_of_perform returned).recalls
  · exact (performs_of_perform returned).forgets
  · rintro s error rfl rejected
    exact silent_of_rejected returned rejected
  · intro m drive units signals amid passes
    exact passes.recalls

-- An unknown step is skipped and then a change of a variable fails: the failure is logged last, and
-- the step stays the last fault, also behind a snapshot of another schema.
theorem last_fault_as_logged_behind_failed_change :
    let script : Script := [⟨some (.number 1), .unknown "zap" "r"⟩,
      ⟨none, .modifyVariable ⟨.other, "x", none⟩⟩, ⟨none, .dialogue none none⟩]
    let first := ((new none none (some 8)).load script .empty .empty).machine
    let stranger : Snapshot := ⟨"other", 0, .waiting, .empty, .empty, .empty, 0⟩
    ∃ reply refused, first.perform 0 (.start none) = some reply ∧
      records reply.signals = [.unknownSkipped (some (.number 1)) "zap" "r",
        .mutationFailed .locals "x" (.noAction "x")] ∧
      reply.machine.lastFault = some (.unknownStepType (some (.number 1)) "zap") ∧
      reply.machine.perform 0 (.resume stranger) = some refused ∧
      refused.machine.lastFault = some (.unknownStepType (some (.number 1)) "zap") := by
  intro script first stranger
  obtain ⟨-, -, logged, -⟩ := last_fault_as_logged
  have ran : (first.perform 0 (.start none)).map (fun reply => records reply.signals) =
      some [.unknownSkipped (some (.number 1)) "zap" "r",
        .mutationFailed .locals "x" (.noAction "x")] := rfl
  obtain ⟨reply, started, wrote⟩ := Option.map_eq_some_iff.1 ran
  have told := (logged first 0 (.start none) reply started).1 not_false
  rw [faults, wrote] at told
  have rejected := (logged reply.machine 0 (.resume stranger) _ rfl).2.2 stranger _ rfl rfl
  exact ⟨reply, _, started, wrote, told, rfl, rejected.2.trans told⟩

end Machine

end VisualNovel

import VisualNovel.Proofs.Playback.Units

namespace VisualNovel

namespace Operation

def reads : Operation → Bool
  | .getVariable _ => true
  | .getGlobal _ => true
  | .boundary => true
  | .snapshot => true
  | _ => false

def writes : Operation → Bool
  | .setVariable _ _ => true
  | .deleteVariable _ => true
  | .setGlobal _ _ => true
  | .deleteGlobal _ => true
  | _ => false

end Operation

namespace Machine

def taken (m : Machine) (s : Snapshot) (environment : Environment) : Machine :=
  { m.resetRun with
    stores := ⟨s.globals, .ofMap s.locals, environment⟩
    generator := ⟨s.generatorState⟩
    cursor := s.cursor
    phase := s.phase }

-- The replies to an operation.
inductive Performs (m : Machine) : Operation → Reply Answer → Prop where
  | drives (drive : Drive) (returns : drive.Returns m units ended) :
      Performs m drive.operation ended.done
  | loads (script : Script) (globals locals : ValueMap) :
      Performs m (.load script globals locals) (m.load script globals locals).done
  | stops (unended : m.phase ≠ .ended) :
      Performs m .stop ({ m with phase := .idle, due := false }.shown [] ()).done
  | ended (ended : m.phase = .ended) : Performs m .stop m.unchanged.done
  | sets (set : m.stores.environment.set? key value = some environment) :
      Performs m (.setEnvironment key value)
        ⟨{ m with stores := { m.stores with environment := environment } }, [], .ok .done⟩
  | strays (unknown : m.stores.environment.set? key value = none) :
      Performs m (.setEnvironment key value)
        ⟨{ m with lastFault := some (.unknownEnvironmentKey key) },
          [.record (.environmentKeyRejected key)], .error (.unknownEnvironmentKey key)⟩
  | reads (reads : operation.reads = true) (result : Except StoryError Answer) :
      Performs m operation ⟨m, [], result⟩
  | writes (writes : operation.writes = true) (stores : Stores)
      (environment : stores.environment = m.stores.environment)
      (tidy : m.stores.locals.Tidy → stores.locals.Tidy)
      (remarks : ∀ signal ∈ signals, signal.isRemark = true) (answer : Answer) :
      Performs m operation ({ m with stores := stores }.shown signals answer)
  | refuses (s : Snapshot) (error : StoryError) : Performs m (.resume s) ⟨m, [], .error error⟩
  | resumes (fits : m.fits s = true)
      (set : m.stores.environment.setAll s.environment.toList = .ok environment) :
      Performs m (.resume s)
        ((m.taken s environment).shown (refusals (LocalStore.mapNotices s.locals)) ()).done

variable {m : Machine} {operation : Operation} {reply : Reply Answer}

theorem performs_stop (m : Machine) : Performs m .stop m.stop.done := by
  unfold stop
  split
  · rename_i ended
    exact .ended ended
  · rename_i unended
    exact .stops unended

theorem performs_setEnvironment (m : Machine) (key : String) (value : Bool) :
    Performs m (.setEnvironment key value) (m.setEnvironment key value).done := by
  unfold setEnvironment
  split
  · rename_i environment set
    exact .sets set
  · rename_i unknown
    exact .strays unknown

theorem performs_resume (m : Machine) (s : Snapshot) :
    Performs m (.resume s) (m.resume s).done := by
  unfold resume
  split
  · exact .refuses s _
  · split
    · exact .refuses s _
    · rename_i fitting
      split
      · exact .refuses s _
      · rename_i environment set
        exact .resumes (by simpa using fitting) set

theorem performs_drive (drive : Drive) (returned : m.perform budget drive.operation = some reply) :
    Performs m drive.operation reply := by
  obtain ⟨units, ended, returns, rfl⟩ := Drive.returns_of_perform returned
  exact .drives drive returns

theorem performs_of_perform (returned : m.perform budget operation = some reply) :
    Performs m operation reply := by
  have quiet : ∀ signal ∈ [], Signal.isRemark signal = true := List.forall_mem_nil _
  cases operation with
  | load script globals locals =>
    cases Option.some.inj returned
    exact .loads script globals locals
  | start label => exact performs_drive (.start label) returned
  | advance => exact performs_drive .advance returned
  | choose label => exact performs_drive (.choose label) returned
  | stop =>
    cases Option.some.inj returned
    exact performs_stop m
  | setEnvironment key value =>
    cases Option.some.inj returned
    exact performs_setEnvironment m key value
  | setVariable key value =>
    cases Option.some.inj returned
    exact .writes rfl { m.stores with locals := m.stores.locals.set key value } rfl
      (LocalStore.tidy_set · key value) (isRemark_refusals _) .done
  | deleteVariable key =>
    cases Option.some.inj returned
    exact .writes rfl { m.stores with locals := (m.stores.locals.remove key).2 } rfl
      (LocalStore.tidy_remove · key) quiet (.value (m.stores.locals.remove key).1)
  | setGlobal key value =>
    cases Option.some.inj returned
    exact .writes rfl { m.stores with globals := m.stores.globals.insert key value } rfl id quiet
      .done
  | deleteGlobal key =>
    cases Option.some.inj returned
    exact .writes rfl { m.stores with globals := m.stores.globals.erase key } rfl id quiet
      (.value (m.globalValue? key))
  | resume s =>
    cases Option.some.inj returned
    exact performs_resume m s
  | _ =>
    cases Option.some.inj returned
    exact .reads rfl _

theorem Performs.untraced {s : Snapshot} (performs : Performs m operation reply)
    (own : operation = .resume s) (refused : reply.result = .error error) :
    reply.machine = m ∧ reply.signals = [] := by
  cases performs with
  | drives drive returns => cases drive <;> cases own
  | reads reads result => exact ⟨rfl, rfl⟩
  | writes writes => rw [own] at writes; cases writes
  | refuses s error => exact ⟨rfl, rfl⟩
  | resumes fits set => cases refused
  | _ => cases own

end Machine

end VisualNovel

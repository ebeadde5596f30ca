import VisualNovel.Scenario.Source
import VisualNovel.Proofs.Playback.Encoded

namespace VisualNovel

theorem mapM_map_eq_some {encode : α → β} {decode : β → Option α} {items : List α}
    (back : ∀ item ∈ items, decode (encode item) = some item) :
    (items.map encode).mapM decode = some items := by
  induction items with
  | nil => rfl
  | cons item rest ih =>
    obtain ⟨first, others⟩ := List.forall_mem_cons.1 back
    rw [List.map_cons, List.mapM_cons, first, ih others]
    rfl

namespace Scenario

theorem Observation.ofJson?_toJson (seen : Observation) :
    observationOfJson? seen.toJson = some seen := by
  cases seen with
  | choice displays =>
    have back : (displays.map Json.string).mapM Json.string? = some displays :=
      mapM_map_eq_some fun _ _ => rfl
    change ((displays.map Json.string).mapM Json.string?).bind
      (fun displays => some (Observation.choice displays)) = _
    rw [back]
    rfl
  | _ => rfl

def expecting (scenario : Scenario) (report : Report) : Scenario :=
  { scenario with
    expectedEvents := report.observed
    expectedState := some report.phase
    expectedVariables := report.locals
    expectedGlobals := report.globals }

def Report.members (report : Report) : List (String × Json) :=
  [("expectedEvents", .array (report.observed.map Observation.toJson)),
    ("expectedState", .string report.phase.name),
    ("expectedVariables", report.locals.toJson), ("expectedGlobals", report.globals.toJson)]

def isExpectation (name : String) : Bool :=
  ["expectedEvents", "expectedState", "expectedVariables", "expectedGlobals"].contains name

theorem isExpectation_iff : isExpectation name = true ↔ name = "expectedEvents" ∨
    name = "expectedState" ∨ name = "expectedVariables" ∨ name = "expectedGlobals" := by
  simp [isExpectation]

theorem isExpectation_of_mem {report : Report} (member : binding ∈ report.members) :
    isExpectation binding.1 = true := by
  simp only [Report.members, List.mem_cons, List.not_mem_nil, or_false] at member
  rcases member with rfl | rfl | rfl | rfl <;> rfl

-- The members of a scenario, with those of the report for what was expected before.
def recording (members : List (String × Json)) (report : Report) : List (String × Json) :=
  report.members ++ members.filter fun member => !isExpectation member.1

theorem find?_recording (members : List (String × Json)) (report : Report) (name : String) :
    Bindings.find? name (recording members report) =
      if isExpectation name then Bindings.find? name report.members
      else Bindings.find? name members := by
  have parts : Bindings.find? name (recording members report) =
      (Bindings.find? name report.members).or
        (Bindings.find? name (members.filter fun member => !isExpectation member.1)) :=
    List.lookup_append
  rw [parts, Bindings.find?_filter fun name => !isExpectation name]
  cases expected : isExpectation name with
  | true => simp
  | false =>
    have absent : Bindings.find? name report.members = none := by
      refine Option.eq_none_iff_forall_ne_some.2 fun json found => ?_
      have own := isExpectation_of_mem (Bindings.mem_of_find? found)
      exact absurd own (by simp [expected])
    simp [absent]

theorem occurrences_recording (members : List (String × Json)) (report : Report) (name : String) :
    Json.occurrences name (recording members report) =
      if isExpectation name then 1 else Json.occurrences name members := by
  rw [Json.occurrences, recording, List.countP_append, List.countP_filter]
  cases expected : isExpectation name with
  | true =>
    have gone : members.countP (fun member => decide (member.1 = name) &&
        !isExpectation member.1) = 0 := by
      refine List.countP_eq_zero.2 fun member _ => ?_
      by_cases same : member.1 = name <;> simp [same, expected]
    rw [gone, if_pos rfl]
    rcases isExpectation_iff.1 expected with rfl | rfl | rfl | rfl <;> rfl
  | false =>
    have foreign : report.members.countP (fun member => decide (member.1 = name)) = 0 := by
      refine List.countP_eq_zero.2 fun member among same => ?_
      have own := isExpectation_of_mem among
      rw [of_decide_eq_true same, expected] at own
      cases own
    rw [foreign, Nat.zero_add]
    refine List.countP_congr fun member _ => ?_
    by_cases same : member.1 = name <;> simp [same, expected]

theorem fieldsOf?_recording {members : List (String × Json)} (report : Report)
    (known : (Json.object members).fieldsOf? memberNames = some field) :
    field = (fun name => Bindings.find? name members) ∧
    (Json.object (recording members report)).fieldsOf? memberNames =
      some fun name => Bindings.find? name (recording members report) := by
  rw [Json.fieldsOf?] at known ⊢
  split at known
  · rename_i few
    refine ⟨(Option.some.inj known).symm, if_pos ?_⟩
    rw [List.all_eq_true] at few ⊢
    intro name member
    have before := few name member
    rw [occurrences_recording]
    split
    · rfl
    · exact before
  · cases known

theorem ofFields?_recorded {field other : String → Option Json} {scenario : Scenario}
    (read : ofFields? field = some scenario) (report : Report)
    (kept : ∀ name, isExpectation name = false → other name = field name)
    (new : ∀ name, isExpectation name = true → other name = Bindings.find? name report.members) :
    ofFields? other =
      if report.locals.Finite ∧ report.globals.Finite then some (scenario.expecting report)
      else none := by
  obtain ⟨version, readVersion, read⟩ := Option.bind_eq_some_iff.1 read
  obtain ⟨script, readScript, read⟩ := Option.bind_eq_some_iff.1 read
  obtain ⟨seed, readSeed, read⟩ := Option.bind_eq_some_iff.1 read
  obtain ⟨globals, readGlobals, read⟩ := Option.bind_eq_some_iff.1 read
  obtain ⟨locals, readLocals, read⟩ := Option.bind_eq_some_iff.1 read
  obtain ⟨environment, readEnvironment, read⟩ := Option.bind_eq_some_iff.1 read
  obtain ⟨start, readStart, read⟩ := Option.bind_eq_some_iff.1 read
  obtain ⟨actions, readActions, read⟩ := Option.bind_eq_some_iff.1 read
  obtain ⟨_, -, read⟩ := Option.bind_eq_some_iff.1 read
  obtain ⟨_, -, read⟩ := Option.bind_eq_some_iff.1 read
  obtain ⟨_, -, read⟩ := Option.bind_eq_some_iff.1 read
  obtain ⟨_, -, made⟩ := Option.bind_eq_some_iff.1 read
  cases made
  have versionStays : requiredText other "schemaVersion" = some version := by
    rw [requiredText, kept "schemaVersion" rfl]
    exact readVersion
  have events : Json.defaulted (Json.listOf? observationOfJson?) [] (other "expectedEvents") =
      some report.observed := by
    rw [new "expectedEvents" rfl]
    exact mapM_map_eq_some fun seen _ => seen.ofJson?_toJson
  have state : Json.optional Snapshot.phaseOfJson? (other "expectedState") =
      some (some report.phase) := by
    rw [new "expectedState" rfl]
    exact congrArg (Option.map some) report.phase.ofName?_name
  have values : Json.defaulted ValueMap.ofJson? Dict.empty (other "expectedVariables") =
      if report.locals.Finite then some report.locals else none := by
    rw [new "expectedVariables" rfl]
    exact ValueMap.ofJson?_toJson_eq report.locals
  have others : Json.defaulted ValueMap.ofJson? Dict.empty (other "expectedGlobals") =
      if report.globals.Finite then some report.globals else none := by
    rw [new "expectedGlobals" rfl]
    exact ValueMap.ofJson?_toJson_eq report.globals
  rw [ofFields?, versionStays, kept "script" rfl, kept "randomSeed" rfl, kept "globals" rfl,
    kept "variables" rfl, kept "environment" rfl, kept "startLabel" rfl, kept "actions" rfl,
    events, state, values, others]
  simp only [readScript, readSeed, readGlobals, readLocals, readEnvironment, readStart,
    readActions, Option.bind_eq_bind, Option.bind_some]
  by_cases locals : report.locals.Finite
  · by_cases globals : report.globals.Finite
    · simp [locals, globals]
      rfl
    · simp [locals, globals]
  · simp [locals]

theorem ofJson?_recording {scenario : Scenario} {members : List (String × Json)}
    (read : ofJson? (.object members) = some scenario) (report : Report) :
    ofJson? (.object (recording members report)) =
      if report.locals.Finite ∧ report.globals.Finite then some (scenario.expecting report)
      else none := by
  obtain ⟨field, known, fields⟩ := Option.bind_eq_some_iff.1 read
  obtain ⟨rfl, recorded⟩ := fieldsOf?_recording report known
  rw [ofJson?, recorded, Option.bind_some]
  refine ofFields?_recorded fields report (fun name kept => ?_) fun name new => ?_
  · rw [find?_recording, if_neg (by simp [kept])]
  · rw [find?_recording, if_pos new]

end Scenario

end VisualNovel

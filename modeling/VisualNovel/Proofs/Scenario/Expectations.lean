import VisualNovel.Proofs.Scenario.Recorded
import VisualNovel.Proofs.Script.Loading

namespace VisualNovel

namespace Value

theorem beq_self {x : Float} (finite : x.isFinite = true) : (x == x) = true := by
  change x.toModel.unpack.isFinite = true at finite
  change x.toModel.unpack.beq x.toModel.unpack = true
  cases unpacked : x.toModel.unpack with
  | notANumber => rw [unpacked] at finite; cases finite
  | infinity sign => rw [unpacked] at finite; cases finite
  | zero sign => rfl
  | finite sign mantissa exponent positive =>
    cases sign <;>
      simp [Float.Model.UnpackedFloat.beq, Float.Model.UnpackedFloat.compare]

mutual

-- Of all values only those that hold NaN do not agree with themselves.
theorem agrees_self : (value : Value) → value.isFinite = true → value.agrees value = true
  | .bool _, _ => by simp [agrees]
  | .text _, _ => by simp [agrees]
  | .number _, finite => beq_self finite
  | .list items, finite => agreesItems_self items finite

theorem agreesItems_self : (items : List Value) → allFinite items = true →
    agreesItems items items = true
  | [], _ => rfl
  | item :: rest, finite => by
    obtain ⟨here, behind⟩ := Bool.and_eq_true_iff.1 finite
    rw [agreesItems, agrees_self item here, agreesItems_self rest behind]
    rfl

end

end Value

namespace ValueMap

-- Equal as the values of a story are compared: the two zeros are, and NaN is equal to nothing.
def HasEqual (actual : ValueMap) (key : String) (value : Value) : Prop :=
  ∃ found, actual.get? key = some found ∧ value.agrees found = true

-- Further values may be there as well.
def Covers (actual expected : ValueMap) : Prop :=
  ∀ key value, expected.get? key = some value → actual.HasEqual key value

-- The least key whose expected value is not there.
structure FirstMissing (actual expected : ValueMap) (key : String) (value : Value) : Prop where
  wanted : expected.get? key = some value
  missing : ¬ actual.HasEqual key value
  before : ∀ earlier other, earlier < key → expected.get? earlier = some other →
    actual.HasEqual earlier other

theorem hasEqual_iff {actual : ValueMap} :
    actual.HasEqual key value ↔ (actual.get? key).any value.agrees = true := by
  simp [HasEqual, Option.any_eq_true]

theorem covers_iff {actual expected : ValueMap} : actual.Covers expected ↔
    ∀ binding ∈ expected.toList, actual.HasEqual binding.1 binding.2 :=
  ⟨fun covers _ member => covers _ _ (Dict.mem_toList.1 member),
    fun all _ _ wanted => all _ (Dict.mem_toList.2 wanted)⟩

theorem firstMissing_iff {actual expected : ValueMap} : actual.FirstMissing expected key value ↔
    ∃ earlier later, expected.toList = earlier ++ (key, value) :: later ∧
      (∀ binding ∈ earlier, actual.HasEqual binding.1 binding.2) ∧ ¬ actual.HasEqual key value := by
  constructor
  · rintro ⟨wanted, missing, before⟩
    obtain ⟨earlier, later, listed⟩ := List.append_of_mem (Dict.mem_toList.2 wanted)
    have sorted : Bindings.Increasing (earlier ++ (key, value) :: later) :=
      listed ▸ expected.increasing
    refine ⟨earlier, later, listed, fun binding member => ?_, missing⟩
    have smaller := (List.pairwise_append.1 sorted).2.2 binding member _ (List.mem_cons_self ..)
    have inside : binding ∈ expected.toList := listed ▸ List.mem_append_left _ member
    exact before _ _ smaller (Dict.mem_toList.1 inside)
  · rintro ⟨earlier, later, listed, equal, missing⟩
    have inside : (key, value) ∈ expected.toList :=
      listed ▸ List.mem_append_right _ (List.mem_cons_self ..)
    refine ⟨Dict.mem_toList.1 inside, missing, fun other found smaller wanted => ?_⟩
    exact equal _ (Dict.mem_earlier listed (Dict.mem_toList.2 wanted) smaller)

theorem Finite.covers_self {map : ValueMap} (finite : map.Finite) : map.Covers map :=
  fun _ value found =>
    ⟨value, found, Value.agrees_self value (finite _ (Dict.mem_toList.2 found))⟩

end ValueMap

namespace Scenario

variable {scenario : Scenario} {report : Report} {failure : Failure}

-- How two lists of observations are told apart: by their lengths, or else by the first place.
inductive EventsDiffer (expected actual : List Observation) : Failure → Prop where
  | count (lengths : actual.length ≠ expected.length) :
      EventsDiffer expected actual (.eventCount expected.length actual)
  | event (lengths : actual.length = expected.length)
      (first : Earliest (fun pair => pair.1 ≠ pair.2) (expected.zip actual) index (one, other)) :
      EventsDiffer expected actual (.event index one other)

def StateMet (scenario : Scenario) (report : Report) : Prop :=
  scenario.expectedState = none ∨ scenario.expectedState = some report.phase

structure Met (scenario : Scenario) (report : Report) : Prop where
  events : report.observed = scenario.expectedEvents
  state : scenario.StateMet report
  locals : report.locals.Covers scenario.expectedVariables
  globals : report.globals.Covers scenario.expectedGlobals

inductive FirstDifference (scenario : Scenario) (report : Report) : Failure → Prop where
  | events {failure : Failure}
      (differ : EventsDiffer scenario.expectedEvents report.observed failure) :
      FirstDifference scenario report failure
  | state (events : report.observed = scenario.expectedEvents)
      (wanted : scenario.expectedState = some phase) (differs : phase ≠ report.phase) :
      FirstDifference scenario report (.state phase report.phase)
  | locals (events : report.observed = scenario.expectedEvents)
      (state : scenario.StateMet report)
      (first : report.locals.FirstMissing scenario.expectedVariables key value) :
      FirstDifference scenario report (.value .locals key value (report.locals.get? key))
  | globals (events : report.observed = scenario.expectedEvents)
      (state : scenario.StateMet report)
      (locals : report.locals.Covers scenario.expectedVariables)
      (first : report.globals.FirstMissing scenario.expectedGlobals key value) :
      FirstDifference scenario report (.value .globals key value (report.globals.get? key))

section

variable {first second : Except Failure Unit}

theorem checks_eq_ok : (first >>= fun _ => second) = .ok () ↔ first = .ok () ∧ second = .ok () := by
  cases first with
  | ok passed => simp [bind, Except.bind]
  | error failure => simp [bind, Except.bind]

theorem checks_eq_error : (first >>= fun _ => second) = .error failure ↔
    first = .error failure ∨ first = .ok () ∧ second = .error failure := by
  cases first with
  | ok passed => simp [bind, Except.bind]
  | error failure => simp [bind, Except.bind]

end

theorem checkFrom_cases {expected actual : List Observation}
    (lengths : actual.length = expected.length) (index : Nat) :
    (actual = expected ∧ checkFrom index expected actual = .ok ()) ∨
    ∃ i one other, Earliest (fun pair => pair.1 ≠ pair.2) (expected.zip actual) i (one, other) ∧
      checkFrom index expected actual = .error (.event (index + i) one other) := by
  induction expected generalizing actual index with
  | nil => exact .inl ⟨List.eq_nil_of_length_eq_zero lengths, rfl⟩
  | cons one rest ih =>
    cases actual with
    | nil => cases lengths
    | cons other more =>
      rw [checkFrom, List.zip_cons_cons]
      by_cases same : one = other
      · subst same
        rw [if_pos rfl]
        rcases ih (Nat.succ.inj lengths) (index + 1) with ⟨rfl, passed⟩ | ⟨i, a, b, first, failed⟩
        · exact .inl ⟨rfl, passed⟩
        · refine .inr ⟨i + 1, a, b, first.tail (not_not_intro rfl), ?_⟩
          rw [failed, Nat.add_right_comm]
          rfl
      · rw [if_neg same]
        exact .inr ⟨0, one, other, .head same, rfl⟩

theorem checkEvents_eq_ok {expected actual : List Observation} :
    checkEvents expected actual = .ok () ↔ actual = expected := by
  unfold checkEvents
  split
  · rename_i lengths
    rcases checkFrom_cases lengths 0 with ⟨same, passed⟩ | ⟨i, one, other, first, failed⟩
    · exact ⟨fun _ => same, fun _ => passed⟩
    · rw [failed]
      refine ⟨nofun, ?_⟩
      rintro rfl
      obtain ⟨here, there⟩ := List.getElem?_zip_eq_some.1 first.here
      exact absurd (Option.some.inj (here.symm.trans there)) first.holds
  · rename_i lengths
    exact ⟨nofun, fun same => absurd (congrArg List.length same) lengths⟩

theorem checkEvents_eq_error {expected actual : List Observation} :
    checkEvents expected actual = .error failure ↔ EventsDiffer expected actual failure := by
  unfold checkEvents
  constructor
  · intro failed
    split at failed
    · rename_i lengths
      rcases checkFrom_cases lengths 0 with ⟨-, passed⟩ | ⟨i, one, other, first, told⟩
      · rw [passed] at failed
        cases failed
      · rw [told, Nat.zero_add] at failed
        cases failed
        exact .event lengths first
    · rename_i lengths
      cases failed
      exact .count lengths
  · rintro (lengths | ⟨lengths, first⟩)
    · rw [if_neg lengths]
    · rw [if_pos lengths]
      rcases checkFrom_cases lengths 0 with ⟨rfl, -⟩ | ⟨i, one, other, earliest, told⟩
      · obtain ⟨here, there⟩ := List.getElem?_zip_eq_some.1 first.here
        exact absurd (Option.some.inj (here.symm.trans there)) first.holds
      · obtain ⟨rfl, same⟩ := earliest.unique first
        cases same
        rw [told, Nat.zero_add]

theorem checkState_eq_ok : checkState scenario.expectedState report.phase = .ok () ↔
    scenario.StateMet report := by
  unfold checkState StateMet
  cases scenario.expectedState with
  | none => simp
  | some phase => simp

theorem checkState_eq_error : checkState scenario.expectedState report.phase = .error failure ↔
    ∃ phase, scenario.expectedState = some phase ∧ phase ≠ report.phase ∧
      failure = .state phase report.phase := by
  unfold checkState
  cases scenario.expectedState with
  | none => simp
  | some phase =>
    by_cases same : phase = report.phase
    · simp [same]
    · simp [same, eq_comm]

theorem checkValues_eq_ok {scope : VariableScope} {actual : ValueMap} :
    checkValues scope actual bindings = .ok () ↔
      ∀ binding ∈ bindings, actual.HasEqual binding.1 binding.2 := by
  induction bindings with
  | nil => simp [checkValues]
  | cons head rest ih =>
    rw [checkValues, List.forall_mem_cons, ← ih, ValueMap.hasEqual_iff]
    split
    · rename_i equal
      exact ⟨fun passed => ⟨equal, passed⟩, And.right⟩
    · rename_i missing
      exact ⟨nofun, fun all => absurd all.1 missing⟩

theorem checkValues_eq_error {scope : VariableScope} {actual : ValueMap} :
    checkValues scope actual bindings = .error failure ↔
      ∃ key value earlier later, bindings = earlier ++ (key, value) :: later ∧
        (∀ binding ∈ earlier, actual.HasEqual binding.1 binding.2) ∧
        ¬ actual.HasEqual key value ∧ failure = .value scope key value (actual.get? key) := by
  induction bindings with
  | nil => simp [checkValues]
  | cons head rest ih =>
    obtain ⟨first, wanted⟩ := head
    rw [checkValues]
    split
    · rename_i equal
      rw [ih]
      constructor
      · rintro ⟨key, value, earlier, later, rfl, before, missing, told⟩
        exact ⟨key, value, (first, wanted) :: earlier, later, rfl,
          List.forall_mem_cons.2 ⟨ValueMap.hasEqual_iff.2 equal, before⟩, missing, told⟩
      · rintro ⟨key, value, earlier, later, listed, before, missing, told⟩
        cases earlier with
        | nil =>
          cases listed
          exact absurd (ValueMap.hasEqual_iff.2 equal) missing
        | cons binding earlier =>
          cases listed
          exact ⟨key, value, earlier, later, rfl, (List.forall_mem_cons.1 before).2, missing, told⟩
    · rename_i unequal
      constructor
      · rintro ⟨⟩
        exact ⟨first, wanted, [], rest, rfl, List.forall_mem_nil _,
          mt ValueMap.hasEqual_iff.1 unequal, rfl⟩
      · rintro ⟨key, value, earlier, later, listed, before, missing, told⟩
        cases earlier with
        | nil =>
          cases listed
          rw [told]
        | cons binding earlier =>
          cases listed
          exact absurd (ValueMap.hasEqual_iff.1 (List.forall_mem_cons.1 before).1) unequal

theorem checkValues_toList_eq_ok {scope : VariableScope} {actual expected : ValueMap} :
    checkValues scope actual expected.toList = .ok () ↔ actual.Covers expected :=
  checkValues_eq_ok.trans ValueMap.covers_iff.symm

theorem checkValues_toList_eq_error {scope : VariableScope} {actual expected : ValueMap} :
    checkValues scope actual expected.toList = .error failure ↔
      ∃ key value, actual.FirstMissing expected key value ∧
        failure = .value scope key value (actual.get? key) := by
  rw [checkValues_eq_error]
  constructor
  · rintro ⟨key, value, earlier, later, listed, before, missing, told⟩
    exact ⟨key, value, ValueMap.firstMissing_iff.2 ⟨earlier, later, listed, before, missing⟩, told⟩
  · rintro ⟨key, value, first, told⟩
    obtain ⟨earlier, later, listed, before, missing⟩ := ValueMap.firstMissing_iff.1 first
    exact ⟨key, value, earlier, later, listed, before, missing, told⟩

theorem check_eq_ok : scenario.check report = .ok () ↔ scenario.Met report := by
  rw [check, checks_eq_ok, checks_eq_ok, checks_eq_ok, checkEvents_eq_ok, checkState_eq_ok,
    checkValues_toList_eq_ok, checkValues_toList_eq_ok]
  exact ⟨fun ⟨events, state, locals, globals⟩ => ⟨events, state, locals, globals⟩,
    fun ⟨events, state, locals, globals⟩ => ⟨events, state, locals, globals⟩⟩

theorem check_eq_error : scenario.check report = .error failure ↔
    FirstDifference scenario report failure := by
  simp only [check, checks_eq_error, checkEvents_eq_ok, checkState_eq_ok, checkEvents_eq_error,
    checkState_eq_error, checkValues_toList_eq_ok, checkValues_toList_eq_error]
  constructor
  · rintro (differ | ⟨events, ⟨phase, wanted, differs, rfl⟩ | ⟨state, ⟨key, value, first, rfl⟩ |
      ⟨locals, key, value, first, rfl⟩⟩⟩)
    · exact .events differ
    · exact .state events wanted differs
    · exact .locals events state first
    · exact .globals events state locals first
  · rintro (differ | ⟨events, wanted, differs⟩ | ⟨events, state, first⟩ |
      ⟨events, state, locals, first⟩)
    · exact .inl differ
    · exact .inr ⟨events, .inl ⟨_, wanted, differs, rfl⟩⟩
    · exact .inr ⟨events, .inr ⟨state, .inl ⟨_, _, first, rfl⟩⟩⟩
    · exact .inr ⟨events, .inr ⟨state, .inr ⟨locals, _, _, first, rfl⟩⟩⟩

theorem met_expecting (globals : report.globals.Finite) (locals : report.locals.Finite) :
    (scenario.expecting report).Met report where
  events := rfl
  state := .inr rfl
  locals := locals.covers_self
  globals := globals.covers_self

theorem replayIn_runOn (scenario : Scenario) (budget : Nat) (directory : String) (disk : Disk) :
    (scenario.replayIn budget directory).runOn disk =
      (match disk.look (Path.join directory scenario.script) with
        | .text text => scenario.replay budget text
        | _ => some (.error (.unreadable (Path.join directory scenario.script))), disk) := by
  simp only [replayIn, readScript, readText, FileProgram.runOn, FileProgram.runOn_bind]
  cases disk.look (Path.join directory scenario.script) <;> rfl

theorem checkFile_of_text {disk : Disk} (readable : disk.look path = .text text)
    (parsed : parse? text = some scenario) (version : scenario.schemaVersion = schema) :
    (checkFile budget directory path).runOn disk =
      (((scenario.replayIn budget directory).runOn disk).1.map scenario.checked, disk) := by
  have understood : ofText path text = .ok scenario := by simp [ofText, parsed, version]
  simp [checkFile, load, readText, FileProgram.runOn, readable, understood, replayIn_runOn]

-- No expectation takes part in a replay, wherever the script is the same.
theorem replayIn_expecting {disk after : Disk}
    (script : after.look (Path.join directory scenario.script) =
      disk.look (Path.join directory scenario.script)) :
    (((scenario.expecting report).replayIn budget directory).runOn after).1 =
      ((scenario.replayIn budget directory).runOn disk).1 := by
  have text : after.look (Path.join directory (scenario.expecting report).script) =
      disk.look (Path.join directory scenario.script) := script
  rw [replayIn_runOn, replayIn_runOn, text]
  rfl

theorem checkFile_blames_first_difference {disk : Disk} (readable : disk.look path = .text text)
    (parsed : parse? text = some scenario) (version : scenario.schemaVersion = schema)
    (replayed : ((scenario.replayIn budget directory).runOn disk).1 = some (.ok report)) :
    (∃ verdict, (checkFile budget directory path).runOn disk = (some verdict, disk) ∧
      (verdict = .ok () ↔ scenario.Met report) ∧
      ∀ failure, verdict = .error failure ↔ FirstDifference scenario report failure) ∧
    (report.globals.Finite → report.locals.Finite →
      (((scenario.expecting report).replayIn budget directory).runOn disk).1.map
        (scenario.expecting report).checked = some (.ok ()) ∧
      (∀ members, ofJson? (.object members) = some scenario →
        ofJson? (.object (recording members report)) = some (scenario.expecting report)) ∧
      ∀ (after : Disk) other written, after.look other = .text written →
        after.look (Path.join directory scenario.script) =
          disk.look (Path.join directory scenario.script) →
        parse? written = some (scenario.expecting report) →
        (checkFile budget directory other).runOn after = (some (.ok ()), after)) := by
  refine ⟨⟨scenario.check report, ?_, check_eq_ok, fun _ => check_eq_error⟩, ?_⟩
  · rw [checkFile_of_text readable parsed version, replayed]
    rfl
  · intro globals locals
    have passes : (some (.ok report)).map (scenario.expecting report).checked = some (.ok ()) :=
      congrArg some (check_eq_ok.2 (met_expecting globals locals))
    refine ⟨by rw [replayIn_expecting rfl, replayed, passes], ?_, ?_⟩
    · intro members read
      rw [ofJson?_recording read, if_pos ⟨locals, globals⟩]
    · intro after other written there script reads
      rw [checkFile_of_text there reads version, replayIn_expecting script, replayed, passes]

-- A story that ends at once, and a scenario that expects it to stall.
def stalledCase : String :=
  "\x7b\"schemaVersion\":\"vn-tool-case.v1\",\"script\":\"s\"," ++
    "\"expectedEvents\":[\x7b\"kind\":\"stalled\"\x7d]\x7d"

def endedCase : String :=
  "\x7b\"schemaVersion\":\"vn-tool-case.v1\",\"script\":\"s\"," ++
    "\"expectedEvents\":[\x7b\"kind\":\"end\"\x7d],\"expectedState\":\"ENDED\"\x7d"

def casesDisk : Disk := ⟨.directory [("ended", .file (.text endedCase)),
  ("s", .file (.text "[\x7b\"type\":\"command\"\x7d]")), ("stalled", .file (.text stalledCase))], []⟩

def stalling : Scenario where
  schemaVersion := schema
  script := "s"
  randomSeed := none
  globals := .empty
  locals := .empty
  environment := .empty
  startLabel := none
  actions := []
  expectedEvents := [.stalled]
  expectedState := none
  expectedVariables := .empty
  expectedGlobals := .empty

def endReport : Report := ⟨[.ended], 0, 1, .ended, .empty, .empty⟩

theorem checkFile_blames_first_difference_of_stalled :
    (checkFile 9 "" "stalled").runOn casesDisk =
      (some (.error (.event 0 .stalled .ended)), casesDisk) ∧
    (checkFile 9 "" "ended").runOn casesDisk = (some (.ok ()), casesDisk) := by
  have readable : casesDisk.look "stalled" = .text stalledCase := by rfl
  have parsed : parse? stalledCase = some stalling := by decide +kernel
  have replayed : ((stalling.replayIn 9 "").runOn casesDisk).1 = some (.ok endReport) := by
    decide +kernel
  obtain ⟨⟨verdict, checked, -, blamed⟩, again⟩ :=
    checkFile_blames_first_difference readable parsed rfl replayed
  have differs : FirstDifference stalling endReport (.event 0 .stalled .ended) :=
    .events (.event rfl (.head (by decide)))
  have reads : parse? endedCase = some (stalling.expecting endReport) := by decide +kernel
  rw [checked, (blamed _).2 differs]
  exact ⟨rfl, (again (by decide) (by decide)).2.2 casesDisk "ended" endedCase rfl rfl reads⟩

end Scenario

end VisualNovel

import VisualNovel.Console.Storage
import VisualNovel.Proofs.Playback.Encoded
import VisualNovel.Proofs.Json.Wanted
import VisualNovel.Proofs.Store.Reread

namespace VisualNovel

namespace Json

variable {members written : List (String × Json)} {depth : Nat}

theorem rereadMembers_cons_eq_some
    (read : rereadMembers ((key, value) :: members) depth = some written) :
    ∃ first others, value.reread depth = some first ∧
      rereadMembers members depth = some others ∧ written = (key, first) :: others := by
  rw [rereadMembers] at read
  split at read
  · rename_i first others one rest
    exact ⟨first, others, one, rest, (Option.some.inj read).symm⟩
  · cases read

theorem names_rereadMembers (read : rereadMembers members depth = some written) :
    written.map Prod.fst = members.map Prod.fst := by
  induction members generalizing written with
  | nil => cases read; rfl
  | cons head rest ih =>
    obtain ⟨first, others, -, behind, rfl⟩ := rereadMembers_cons_eq_some read
    rw [List.map_cons, List.map_cons, ih behind]

theorem find?_rereadMembers (read : rereadMembers members depth = some written) (name : String) :
    Bindings.find? name written = (Bindings.find? name members).bind (reread · depth) := by
  induction members generalizing written with
  | nil => cases read; rfl
  | cons head rest ih =>
    obtain ⟨key, value⟩ := head
    obtain ⟨first, others, one, behind, rfl⟩ := rereadMembers_cons_eq_some read
    rw [Bindings.find?_cons, Bindings.find?_cons, ih behind]
    split
    · exact one.symm
    · rfl

theorem fieldsOf?_names (once : (members.map Prod.fst).Nodup) :
    (object members).fieldsOf? (members.map Prod.fst) =
      some fun name => Bindings.find? name members := by
  have single : ∀ name ∈ members.map Prod.fst, occurrences name members ≤ 1 := by
    intro name _
    have counted : occurrences name members = (members.map Prod.fst).count name := by
      rw [List.count, List.countP_map]
      rfl
    rw [counted]
    exact List.nodup_iff_count_le_one.1 once name
  simp only [fieldsOf?, List.all_eq_true, decide_eq_true_eq]
  exact if_pos single

theorem lost_of_rereadMembers (lost : rereadMembers members depth = none) :
    ∃ name value, (name, value) ∈ members ∧ value.reread depth = none := by
  induction members with
  | nil => cases lost
  | cons head rest ih =>
    obtain ⟨name, value⟩ := head
    cases first : value.reread depth with
    | none => exact ⟨name, value, .head _, first⟩
    | some one =>
      cases others : rereadMembers rest depth with
      | none =>
        obtain ⟨name, value, member, own⟩ := ih others
        exact ⟨name, value, .tail _ member, own⟩
      | some behind =>
        rw [rereadMembers, first, others] at lost
        cases lost

-- A record that cannot do without any of its members is read again one member at a time.
theorem bind_reread_object {read : (String → Option Json) → Option α}
    (once : (members.map Prod.fst).Nodup)
    (needs : ∀ field, ∀ name ∈ members.map Prod.fst, field name = none → read field = none) :
    ((object members).reread (depth + 1)).bind
        (fun value => (value.fieldsOf? (members.map Prod.fst)).bind read) =
      read fun name => (Bindings.find? name members).bind (reread · depth) := by
  rw [reread]
  cases again : rereadMembers members depth with
  | none =>
    obtain ⟨name, value, member, lost⟩ := lost_of_rereadMembers again
    refine (needs _ name (List.mem_map_of_mem member) ?_).symm
    rw [Bindings.find?_of_mem_once once member]
    exact lost
  | some written =>
    rw [← names_rereadMembers again] at once ⊢
    have fields := fieldsOf?_names once
    simp only [Option.map_some, Option.bind_some, fields]
    exact congrArg read (funext (find?_rereadMembers again))

end Json

namespace Snapshot

structure Faithful (s : Snapshot) : Prop where
  cursor : s.cursor < wordLimit
  globals : s.globals.Faithful
  locals : s.locals.Faithful

variable {s : Snapshot}

theorem Faithful.ofJson?_toJson (faithful : s.Faithful) : ofJson? s.toJson = some s := by
  rw [ofJson?_toJson_eq faithful.cursor]
  exact if_pos ⟨faithful.globals.finite, faithful.locals.finite⟩

theorem exact_ofNat (fits : n < Json.wordBound) : (Json.ofNat n).Exact :=
  Json.readNumber_wholeText fits

theorem exact_toJson (faithful : s.Faithful) : s.toJson.Exact :=
  ⟨trivial, exact_ofNat faithful.cursor, trivial, ValueMap.exact_toJson faithful.globals,
    ValueMap.exact_toJson faithful.locals, Environment.exact_toJson _,
    exact_ofNat (Nat.lt_trans s.generatorState.toNat_lt (by decide)), trivial⟩

-- A snapshot after it was written and read again, its stores as deep as given.
def reread (s : Snapshot) (depth : Nat) : Option Snapshot :=
  if s.cursor < wordLimit then
    match s.globals.reread depth, s.locals.reread depth with
    | some globals, some locals => some { s with globals, locals }
    | _, _ => none
  else none

theorem reread_ofNat (fits : n < Json.wordBound) (depth : Nat) :
    (Json.ofNat n).reread depth = some (.ofNat n) :=
  Json.reread_exact depth _ (exact_ofNat fits) (Nat.zero_le _)

theorem cursor_reread (n depth : Nat) :
    ((Json.ofNat n).reread depth).bind (Json.nat? wordLimit) =
      if n < wordLimit then some n else none := by
  by_cases fits : n < wordLimit
  · rw [if_pos fits, reread_ofNat fits]
    exact nat?_ofNat fits
  · obtain ⟨value, reread⟩ := Json.rereadNumber?_large (Nat.not_lt.1 fits)
    rw [if_neg fits]
    change (Json.rereadNumber? (.whole n)).bind _ = _
    rw [reread]
    cases value <;> rfl

theorem environment_reread (flags : Environment) (depth : Nat) :
    flags.toJson.reread (depth + 1) = some flags.toJson := by
  refine Json.reread_exact _ _ (Environment.exact_toJson flags) ?_
  have flat : ∀ entries : List (String × Bool),
      Json.membersNesting (entries.map fun binding => (binding.1, Json.bool binding.2)) = 0 := by
    intro entries
    induction entries with
    | nil => rfl
    | cons head rest ih => rw [List.map_cons, Json.membersNesting, ih]; rfl
  change Json.membersNesting (flags.toList.map fun binding => (binding.1, Json.bool binding.2)) + 1 ≤ _
  rw [flat]
  exact Nat.succ_le_succ (Nat.zero_le _)

theorem ofFields?_needs (field : String → Option Json) : ∀ name ∈ memberNames,
    field name = none → ofFields? field = none := by
  intro name inside missing
  simp only [memberNames, List.mem_cons, List.not_mem_nil, or_false] at inside
  rcases inside with rfl | rfl | rfl | rfl | rfl | rfl | rfl <;> simp [ofFields?, missing]

theorem bind_reread (s : Snapshot) (depth : Nat) :
    (s.toJson.reread (depth + 2)).bind ofJson? = s.reread (depth + 1) := by
  let field (name : String) : Option Json :=
    (Bindings.find? name s.members).bind (Json.reread · (depth + 1))
  have version : (field "schemaVersion").bind Json.string? = some s.schemaVersion := rfl
  have cursor : (field "cursor").bind (Json.nat? wordLimit) =
      if s.cursor < wordLimit then some s.cursor else none := cursor_reread s.cursor (depth + 1)
  have phase : (field "state").bind phaseOfJson? = some s.phase := Phase.ofName?_name s.phase
  have globals : (field "globals").bind ValueMap.ofJson? = s.globals.reread (depth + 1) :=
    ValueMap.bind_reread s.globals (depth + 1)
  have locals : (field "variables").bind ValueMap.ofJson? = s.locals.reread (depth + 1) :=
    ValueMap.bind_reread s.locals (depth + 1)
  have flags : (field "environment").bind Environment.ofJson? = some s.environment := by
    change (s.environment.toJson.reread (depth + 1)).bind _ = _
    rw [environment_reread]
    exact Environment.ofJson?_toJson s.environment
  have random : (field "rngState").bind (Json.nat? stateLimit) = some s.generatorState.toNat := by
    have state : s.generatorState.toNat < stateLimit := s.generatorState.toNat_lt
    change ((Json.ofNat s.generatorState.toNat).reread (depth + 1)).bind _ = _
    rw [reread_ofNat (Nat.lt_trans state (by decide))]
    exact nat?_ofNat state
  have memberwise : (s.toJson.reread (depth + 2)).bind ofJson? = ofFields? field :=
    Json.bind_reread_object (show memberNames.Nodup by decide) ofFields?_needs
  simp only [memberwise, ofFields?, version, cursor, phase, globals, locals, flags, random, reread,
    Option.bind_eq_bind, Option.bind_some, UInt32.ofNat_toNat]
  by_cases fits : s.cursor < wordLimit
  · rw [if_pos fits, if_pos fits, Option.bind_some]
    cases s.globals.reread (depth + 1) with
    | none => rfl
    | some globals => cases s.locals.reread (depth + 1) <;> rfl
  · rw [if_neg fits, if_neg fits]
    rfl

end Snapshot

namespace SavedRun

variable {run : SavedRun}

theorem ofJson?_toJson (faithful : run.snapshot.Faithful) :
    ofJson? run.toJson = some (schema, run) := by
  have fields : run.toJson.fieldsOf? ["schemaVersion", "scriptPath", "snapshot"] =
      some fun name => Bindings.find? name [("schemaVersion", .string schema),
        ("scriptPath", .string run.scriptPath), ("snapshot", run.snapshot.toJson)] := rfl
  rw [ofJson?, fields, Option.bind_some, ofFields?]
  simp [Bindings.find?_cons, Json.string?, faithful.ofJson?_toJson]

theorem exact_toJson (faithful : run.snapshot.Faithful) : run.toJson.Exact :=
  ⟨trivial, trivial, Snapshot.exact_toJson faithful, trivial⟩

theorem nesting_toJson (run : SavedRun) :
    run.toJson.nesting = run.snapshot.toJson.nesting + 1 := by
  simp [toJson, Json.nesting, Json.membersNesting]

theorem ofText_write (faithful : run.snapshot.Faithful)
    (shallow : run.toJson.nesting ≤ Json.depthLimit) : ofText run.toJson.write = .ok run := by
  have read := Json.read?_write (exact_toJson faithful) shallow
  simp [ofText, Json.readFor?, read, ofJson?_toJson faithful, checkedSchema]

theorem covers (run : SavedRun) : Json.Covers wanted run.toJson := by
  refine .object _ (fun name =>
    if name = "snapshot" then .ofNames Snapshot.memberNames else .whole) ?_ ?_
  · intro member inside
    simp only [List.mem_cons, List.not_mem_nil, or_false] at inside
    rcases inside with rfl | rfl | rfl <;> rfl
  · intro member inside
    simp only [List.mem_cons, List.not_mem_nil, or_false] at inside
    rcases inside with rfl | rfl | rfl
    · exact .whole
    · exact .whole
    · exact Json.covers_ofNames fun _ inside => List.mem_map_of_mem (f := Prod.fst) inside

theorem ofFields?_needs (field : String → Option Json) :
    ∀ name ∈ ["schemaVersion", "scriptPath", "snapshot"],
      field name = none → ofFields? field = none := by
  intro name inside missing
  simp only [List.mem_cons, List.not_mem_nil, or_false] at inside
  rcases inside with rfl | rfl | rfl <;> simp [ofFields?, missing]

theorem bind_reread (run : SavedRun) (depth : Nat) :
    (run.toJson.reread (depth + 3)).bind ofJson? =
      (run.snapshot.reread (depth + 1)).map fun s => (schema, { run with snapshot := s }) := by
  let field (name : String) : Option Json :=
    (Bindings.find? name [("schemaVersion", .string schema),
      ("scriptPath", .string run.scriptPath), ("snapshot", run.snapshot.toJson)]).bind
        (Json.reread · (depth + 2))
  have version : (field "schemaVersion").bind Json.string? = some schema := rfl
  have path : (field "scriptPath").bind Json.string? = some run.scriptPath := rfl
  have snapshot : (field "snapshot").bind Snapshot.ofJson? = run.snapshot.reread (depth + 1) :=
    Snapshot.bind_reread run.snapshot depth
  have memberwise : (run.toJson.reread (depth + 3)).bind ofJson? = ofFields? field :=
    Json.bind_reread_object
      (show ["schemaVersion", "scriptPath", "snapshot"].Nodup by decide) ofFields?_needs
  simp only [memberwise, ofFields?, version, path, snapshot, Option.bind_eq_bind, Option.bind_some]
  cases run.snapshot.reread (depth + 1) <;> rfl

theorem ofText_write_eq (run : SavedRun) :
    ofText run.toJson.write = match run.snapshot.reread 125 with
      | some s => .ok { run with snapshot := s }
      | none => .error .stateInvalid := by
  rw [ofText, Json.readFor?_write run.covers, show Json.depthLimit = 124 + 3 from rfl, bind_reread]
  cases run.snapshot.reread 125 <;> rfl

end SavedRun

namespace SavedStores

theorem ofFields?_needs (field : String → Option Json) : ∀ name ∈ memberNames,
    field name = none → ofFields? field = none := by
  intro name inside missing
  simp only [memberNames, List.mem_cons, List.not_mem_nil, or_false] at inside
  rcases inside with rfl | rfl | rfl <;> simp [ofFields?, missing]

theorem bind_reread (stores : SavedStores) (depth : Nat) :
    (stores.toJson.reread (depth + 1)).bind ofJson? =
      (stores.globals.reread depth).bind fun globals =>
        (stores.locals.reread depth).map fun locals => (schema, ⟨globals, locals⟩) := by
  let field (name : String) : Option Json :=
    (Bindings.find? name [("schemaVersion", .string schema), ("globals", stores.globals.toJson),
      ("variables", stores.locals.toJson)]).bind (Json.reread · depth)
  have version : (field "schemaVersion").bind Json.string? = some schema := rfl
  have globals : (field "globals").bind ValueMap.ofJson? = stores.globals.reread depth :=
    ValueMap.bind_reread stores.globals depth
  have locals : (field "variables").bind ValueMap.ofJson? = stores.locals.reread depth :=
    ValueMap.bind_reread stores.locals depth
  have memberwise : (stores.toJson.reread (depth + 1)).bind ofJson? = ofFields? field :=
    Json.bind_reread_object (show memberNames.Nodup by decide) ofFields?_needs
  simp only [memberwise, ofFields?, version, globals, locals, Option.bind_eq_bind,
    Option.bind_some]
  cases stores.globals.reread depth with
  | none => rfl
  | some globals => cases stores.locals.reread depth <;> rfl

theorem ofText_write_eq (stores : SavedStores) :
    ofText stores.toJson.write =
      match stores.globals.reread 126, stores.locals.reread 126 with
      | some globals, some locals => .ok ⟨globals, locals⟩
      | _, _ => .error .stateInvalid := by
  have covers : Json.Covers (.ofNames memberNames) stores.toJson :=
    Json.covers_ofNames fun _ inside => List.mem_map_of_mem (f := Prod.fst) inside
  rw [ofText, Json.readFor?_write covers, show Json.depthLimit = 126 + 1 from rfl, bind_reread]
  cases stores.globals.reread 126 <;> cases stores.locals.reread 126 <;> rfl

end SavedStores

end VisualNovel

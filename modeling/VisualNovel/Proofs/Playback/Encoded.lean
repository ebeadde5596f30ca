import VisualNovel.Playback.Operation
import VisualNovel.Proofs.Store.Encoded

namespace VisualNovel

theorem Phase.ofName?_name (phase : Phase) : ofName? phase.name = some phase := by
  cases phase <;> decide

theorem Json.Proper.ofField {value content : Json} {field : String → Option Json}
    (proper : value.Proper) (record : value.fieldsOf? names = some field)
    (found : field name = some content) : content.Proper := by
  cases value with
  | object members =>
    rw [fieldsOf?] at record
    split at record
    · cases record
      exact proper.member (Bindings.mem_of_find? found)
    · cases record
  | array items =>
    rw [fieldsOf?] at record
    split at record
    · cases record
      exact proper.item (List.of_mem_zip (Bindings.mem_of_find? found)).2
    · cases record
  | _ => cases record

namespace Snapshot

def Holds (s : Snapshot) (x : Float) : Prop := s.globals.Holds x ∨ s.locals.Holds x

def Finite (s : Snapshot) : Prop := s.globals.Finite ∧ s.locals.Finite

instance (s : Snapshot) : Decidable s.Finite :=
  inferInstanceAs (Decidable (s.globals.Finite ∧ s.locals.Finite))

variable {s : Snapshot}

theorem finite_iff : s.Finite ↔ ∀ x, s.Holds x → x.isFinite = true := by
  simp only [Finite, Holds, ValueMap.finite_iff, or_imp, forall_and]

theorem nat?_ofNat (fits : n < bound) : Json.nat? bound (.ofNat n) = some n := by
  simp [Json.nat?, Json.ofNat, fits]

theorem ofJson?_toJson_eq (fits : s.cursor < wordLimit) :
    ofJson? s.toJson = if s.Finite then some s else none := by
  have fields : s.toJson.fieldsOf? memberNames =
      some fun name => Bindings.find? name s.members := rfl
  have state : s.generatorState.toNat < stateLimit := s.generatorState.toNat_lt
  have stores : ofJson? s.toJson = (ValueMap.ofJson? s.globals.toJson).bind fun globals =>
      (ValueMap.ofJson? s.locals.toJson).bind fun locals => some { s with globals, locals } := by
    rw [ofJson?, fields, Option.bind_some, ofFields?]
    simp [members, Bindings.find?_cons, Json.string?, nat?_ofNat fits, nat?_ofNat state,
      phaseOfJson?, Phase.ofName?_name, Environment.ofJson?_toJson]
  rw [stores, ValueMap.ofJson?_toJson_eq, ValueMap.ofJson?_toJson_eq]
  by_cases globals : s.globals.Finite
  · by_cases locals : s.locals.Finite <;> simp [globals, locals, Finite]
  · simp [globals, Finite]

theorem ofFields?_eq_some {field : String → Option Json} (read : ofFields? field = some s) :
    s.cursor < wordLimit ∧
    (∃ json, field "globals" = some json ∧ ValueMap.ofJson? json = some s.globals) ∧
    ∃ json, field "variables" = some json ∧ ValueMap.ofJson? json = some s.locals := by
  simp only [ofFields?, Option.bind_eq_bind, Option.bind_eq_some_iff] at read
  obtain ⟨version, -, cursor, ⟨place, -, word⟩, phase, -, globals, readGlobals, locals, readLocals,
    environment, -, state, -, made⟩ := read
  cases made
  refine ⟨?_, readGlobals, readLocals⟩
  unfold Json.nat? at word
  split at word
  · split at word
    · rename_i within
      cases word
      exact within.2
    · cases word
  · cases word

theorem finite_of_ofJson? {value : Json} (proper : value.Proper)
    (read : ofJson? value = some s) : s.cursor < wordLimit ∧ s.Finite := by
  obtain ⟨field, record, made⟩ := Option.bind_eq_some_iff.1 read
  obtain ⟨fits, ⟨globals, foundGlobals, readGlobals⟩, locals, foundLocals, readLocals⟩ :=
    ofFields?_eq_some made
  exact ⟨fits, ValueMap.finite_of_ofJson? (proper.ofField record foundGlobals) readGlobals,
    ValueMap.finite_of_ofJson? (proper.ofField record foundLocals) readLocals⟩

theorem encoding_round_trips :
    (∀ s : Snapshot, s.cursor < wordLimit →
      ((∀ x, s.Holds x → x.isFinite = true) → ofJson? s.toJson = some s) ∧
      ∀ x, s.Holds x → x.isFinite = false → ofJson? s.toJson = none) ∧
    ∀ (value : Json) (s : Snapshot), value.Proper → ofJson? value = some s →
      ofJson? s.toJson = some s := by
  refine ⟨fun s fits => ⟨fun finite => ?_, fun x held infinite => ?_⟩,
    fun value s proper read => ?_⟩
  · rw [ofJson?_toJson_eq fits, if_pos (finite_iff.2 finite)]
  · have lost : ¬ s.Finite := fun finite =>
      Bool.false_ne_true (infinite.symm.trans (finite_iff.1 finite x held))
    rw [ofJson?_toJson_eq fits, if_neg lost]
  · obtain ⟨fits, finite⟩ := finite_of_ofJson? proper read
    rw [ofJson?_toJson_eq fits, if_pos finite]

-- Numbers two lists deep: the sign of zero is kept, and one that is none is lost with all the rest.
theorem encoding_round_trips_two_deep :
    let s : Snapshot := ⟨schema, 3, .choice,
      .ofList [("x", .list [.bool true, .list [.number 0.1, .number (-0.0)]])], .empty, .empty, 7⟩
    let t : Snapshot := { s with locals := .ofList [("y", .list [.list [.number (0 / 0)]])] }
    ofJson? s.toJson = some s ∧ ofJson? t.toJson = none := by
  intro s t
  have place : 3 < wordLimit := by decide
  have finite : s.Finite := by decide
  have held : t.Holds (0 / 0) :=
    .inr ⟨"y", _, rfl, .item (List.mem_singleton.2 rfl) (.item (List.mem_singleton.2 rfl) .number)⟩
  exact ⟨(encoding_round_trips.1 s place).1 (finite_iff.1 finite),
    (encoding_round_trips.1 t place).2 (0 / 0) held (by decide)⟩

end Snapshot

end VisualNovel

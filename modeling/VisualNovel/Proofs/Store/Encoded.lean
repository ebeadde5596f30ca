import VisualNovel.Store
import VisualNovel.Proofs.Decimal
import VisualNovel.Proofs.Listing

namespace VisualNovel

inductive Json.Holds (n : Number) : Json → Prop where
  | number : Holds n (.number n)
  | item (among : item ∈ items) (held : Holds n item) : Holds n (.array items)
  | member (among : (key, value) ∈ members) (held : Holds n value) : Holds n (.object members)

-- JSON has no number for NaN and the infinities.
def Json.Proper (value : Json) : Prop := ∀ x, value.Holds (.real x) → x.isFinite = true

theorem Json.Proper.item (proper : (Json.array items).Proper) (among : value ∈ items) :
    value.Proper := fun x held => proper x (.item among held)

theorem Json.Proper.member (proper : (Json.object members).Proper)
    (among : (key, value) ∈ members) : value.Proper := fun x held => proper x (.member among held)

theorem Json.Proper.isFinite_toFloat {n : Number} (proper : (Json.number n).Proper) :
    n.toFloat.isFinite = true := by
  cases n with
  | real x => exact proper x .number
  | whole n =>
    simp only [Number.toFloat]
    split
    · exact (Decimal.isFinite_toFloat n.natAbs).2
    · exact (Decimal.isFinite_toFloat n.natAbs).1

namespace Value

inductive Holds (x : Float) : Value → Prop where
  | number : Holds x (.number x)
  | item (among : item ∈ items) (held : Holds x item) : Holds x (.list items)

mutual

theorem isFinite_iff : (value : Value) →
    (value.isFinite = true ↔ ∀ x, value.Holds x → x.isFinite = true)
  | .bool b => ⟨fun _ => nofun, fun _ => rfl⟩
  | .text s => ⟨fun _ => nofun, fun _ => rfl⟩
  | .number x => by
    refine ⟨?_, fun all => all x .number⟩
    intro finite y held
    cases held
    exact finite
  | .list items => by
    rw [isFinite, allFinite_iff items]
    constructor
    · intro all x held
      cases held with
      | item among inside => exact all _ among x inside
    · intro all item among x inside
      exact all x (.item among inside)

theorem allFinite_iff : (items : List Value) →
    (allFinite items = true ↔ ∀ item ∈ items, ∀ x, item.Holds x → x.isFinite = true)
  | [] => ⟨fun _ => nofun, fun _ => rfl⟩
  | item :: rest => by
    rw [allFinite, Bool.and_eq_true, isFinite_iff item, allFinite_iff rest, List.forall_mem_cons]

end

mutual

theorem ofJson?_toJson_eq : (value : Value) →
    ofJson? value.toJson = if value.isFinite then some value else none
  | .bool b => rfl
  | .text s => rfl
  | .number x => by
    rw [toJson, Json.ofFloat, isFinite]
    split <;> rfl
  | .list items => by
    rw [toJson, ofJson?, itemsOfJson?_itemsToJson_eq items, isFinite]
    split <;> rfl

theorem itemsOfJson?_itemsToJson_eq : (items : List Value) →
    itemsOfJson? (itemsToJson items) = if allFinite items then some items else none
  | [] => rfl
  | item :: rest => by
    rw [itemsToJson, itemsOfJson?, ofJson?_toJson_eq item, itemsOfJson?_itemsToJson_eq rest, allFinite]
    cases item.isFinite <;> cases allFinite rest <;> rfl

end

theorem itemsOfJson?_eq_some_cons (decoded : itemsOfJson? (item :: rest) = some values) :
    ∃ first others, ofJson? item = some first ∧ itemsOfJson? rest = some others ∧
      values = first :: others := by
  rw [itemsOfJson?] at decoded
  split at decoded
  · rename_i first others here behind
    exact ⟨first, others, here, behind, (Option.some.inj decoded).symm⟩
  · cases decoded

mutual

theorem finite_of_ofJson? : (json : Json) → json.Proper → ofJson? json = some value →
    value.isFinite = true
  | .bool b, _, decoded => by cases decoded; rfl
  | .string s, _, decoded => by cases decoded; rfl
  | .number n, proper, decoded => by
    cases decoded
    exact proper.isFinite_toFloat
  | .array items, proper, decoded => by
    obtain ⟨values, read, rfl⟩ := Option.map_eq_some_iff.1 decoded
    exact finite_of_itemsOfJson? items (fun item among => proper.item among) read

theorem finite_of_itemsOfJson? : (items : List Json) → (∀ item ∈ items, item.Proper) →
    itemsOfJson? items = some values → allFinite values = true
  | [], _, decoded => by cases decoded; rfl
  | item :: rest, proper, decoded => by
    obtain ⟨first, others, here, behind, rfl⟩ := itemsOfJson?_eq_some_cons decoded
    obtain ⟨properItem, properRest⟩ := List.forall_mem_cons.1 proper
    rw [allFinite, finite_of_ofJson? item properItem here,
      finite_of_itemsOfJson? rest properRest behind]
    rfl

end

end Value

namespace Dict

theorem membersOfJson?_encoded {encode : α → Json} {decode : Json → Option α}
    {entries : List (String × α)}
    (back : ∀ binding ∈ entries, decode (encode binding.2) = some binding.2) :
    membersOfJson? decode (entries.map fun binding => (binding.1, encode binding.2)) =
      some entries := by
  induction entries with
  | nil => rfl
  | cons head rest ih =>
    obtain ⟨first, others⟩ := List.forall_mem_cons.1 back
    rw [List.map_cons, membersOfJson?, first, ih others]

theorem ofJson?_toJson {encode : α → Json} {decode : Json → Option α} {map : Dict α}
    (back : ∀ binding ∈ map.toList, decode (encode binding.2) = some binding.2) :
    ofJson? decode (toJson encode map) = some map := by
  simp [ofJson?, toJson, Json.object?, mapValues, membersOfJson?_encoded back, ofList_toList]

theorem membersOfJson?_eq_none {decode : Json → Option α} {members : List (String × Json)}
    (member : (key, json) ∈ members) (lost : decode json = none) :
    membersOfJson? decode members = none := by
  induction member with
  | head rest => rw [membersOfJson?, lost]
  | @tail head rest member ih =>
    obtain ⟨other, before⟩ := head
    rw [membersOfJson?, ih]
    cases decode before <;> rfl

theorem ofJson?_toJson_eq_none {encode : α → Json} {decode : Json → Option α} {map : Dict α}
    (member : binding ∈ map.toList) (lost : decode (encode binding.2) = none) :
    ofJson? decode (toJson encode map) = none := by
  have written : (binding.1, encode binding.2) ∈ map.mapValues encode :=
    List.mem_map.2 ⟨binding, member, rfl⟩
  rw [ofJson?, toJson, Json.object?, Option.bind_some, membersOfJson?_eq_none written lost]
  rfl

theorem mem_of_get?_insertAll {entries : List (String × α)} {map : Dict α}
    (found : (entries.foldl (fun map binding => map.insert binding.1 binding.2) map).get? key =
      some value) : (key, value) ∈ entries ∨ map.get? key = some value := by
  induction entries generalizing map with
  | nil => exact .inr found
  | cons head rest ih =>
    rcases ih found with inside | before
    · exact .inl (List.mem_cons_of_mem _ inside)
    · rw [get?_insert] at before
      split at before
      · rename_i same
        cases before
        exact .inl (List.mem_cons.2 (.inl (Prod.ext same rfl)))
      · exact .inr before

theorem mem_of_mem_ofList {entries : List (String × α)}
    (member : binding ∈ (ofList entries).toList) : binding ∈ entries := by
  rcases mem_of_get?_insertAll (mem_toList.1 member) with inside | before
  · exact inside
  · cases before

theorem mem_of_membersOfJson? {decode : Json → Option α} {members : List (String × Json)}
    (decoded : membersOfJson? decode members = some entries) (member : binding ∈ entries) :
    ∃ json, (binding.1, json) ∈ members ∧ decode json = some binding.2 := by
  induction members generalizing entries with
  | nil =>
    cases decoded
    cases member
  | cons head rest ih =>
    rw [membersOfJson?] at decoded
    split at decoded
    · rename_i value others here behind
      cases decoded
      rcases List.mem_cons.1 member with rfl | inside
      · exact ⟨_, List.mem_cons_self .., here⟩
      · obtain ⟨json, among, read⟩ := ih behind inside
        exact ⟨json, List.mem_cons_of_mem _ among, read⟩
    · cases decoded

end Dict

namespace ValueMap

def Finite (map : ValueMap) : Prop := ∀ binding ∈ map.toList, binding.2.isFinite = true

instance (map : ValueMap) : Decidable map.Finite :=
  inferInstanceAs (Decidable (∀ binding ∈ map.toList, binding.2.isFinite = true))

def Holds (map : ValueMap) (x : Float) : Prop :=
  ∃ key value, map.get? key = some value ∧ value.Holds x

variable {map : ValueMap}

theorem finite_iff : map.Finite ↔ ∀ x, map.Holds x → x.isFinite = true := by
  constructor
  · rintro finite x ⟨key, value, found, held⟩
    exact (Value.isFinite_iff value).1 (finite (key, value) (Dict.mem_toList.2 found)) x held
  · intro all binding member
    refine (Value.isFinite_iff binding.2).2 fun x held => ?_
    exact all x ⟨binding.1, binding.2, Dict.mem_toList.1 member, held⟩

theorem ofJson?_toJson_eq (map : ValueMap) :
    ValueMap.ofJson? map.toJson = if map.Finite then some map else none := by
  split
  · rename_i finite
    exact Dict.ofJson?_toJson fun binding member => by
      rw [Value.ofJson?_toJson_eq, if_pos (finite binding member)]
  · rename_i infinite
    obtain ⟨binding, lost⟩ := not_forall.1 infinite
    obtain ⟨member, lost⟩ := Classical.not_imp.1 lost
    exact Dict.ofJson?_toJson_eq_none member (by rw [Value.ofJson?_toJson_eq, if_neg lost])

theorem finite_of_ofJson? {json : Json} (proper : json.Proper)
    (decoded : ValueMap.ofJson? json = some map) : map.Finite := by
  obtain ⟨members, object, collected⟩ := Option.bind_eq_some_iff.1 decoded
  obtain ⟨entries, read, rfl⟩ := Option.map_eq_some_iff.1 collected
  cases json with
  | object own =>
    cases object
    intro binding member
    obtain ⟨value, among, back⟩ :=
      Dict.mem_of_membersOfJson? read (Dict.mem_of_mem_ofList member)
    exact Value.finite_of_ofJson? value (proper.member among) back
  | _ => cases object

end ValueMap

theorem Environment.ofJson?_toJson (flags : Environment) :
    Environment.ofJson? flags.toJson = some flags := Dict.ofJson?_toJson fun _ _ => rfl

end VisualNovel

import VisualNovel.Proofs.Json.RoundTrip
import VisualNovel.Proofs.Store.Encoded

namespace VisualNovel

namespace Value

mutual

-- Numbers that a text keeps, in a value.
def Faithful : Value → Prop
  | .number x => x.isFinite = true ∧ Json.Number.readsBack (.real x)
  | .list items => FaithfulItems items
  | .bool _ => True
  | .text _ => True

def FaithfulItems : List Value → Prop
  | [] => True
  | item :: rest => item.Faithful ∧ FaithfulItems rest

end

mutual

def decideFaithful : (value : Value) → Decidable value.Faithful
  | .bool _ => .isTrue trivial
  | .text _ => .isTrue trivial
  | .number x =>
    inferInstanceAs (Decidable (x.isFinite = true ∧ Json.Number.readsBack (.real x)))
  | .list items => decideFaithfulItems items

def decideFaithfulItems : (items : List Value) → Decidable (FaithfulItems items)
  | [] => .isTrue trivial
  | item :: rest =>
    match decideFaithful item, decideFaithfulItems rest with
    | .isTrue first, .isTrue others => .isTrue ⟨first, others⟩
    | .isFalse changed, _ => .isFalse fun all => changed all.1
    | _, .isFalse changed => .isFalse fun all => changed all.2

end

instance : DecidablePred Faithful := decideFaithful

mutual

theorem isFinite_of_faithful : (value : Value) → value.Faithful → value.isFinite = true
  | .bool _, _ => rfl
  | .text _, _ => rfl
  | .number _, faithful => faithful.1
  | .list items, faithful => allFinite_of_faithful items faithful

theorem allFinite_of_faithful : (items : List Value) → FaithfulItems items →
    allFinite items = true
  | [], _ => rfl
  | item :: rest, faithful => by
    rw [allFinite, isFinite_of_faithful item faithful.1, allFinite_of_faithful rest faithful.2]
    rfl

end

mutual

theorem exact_toJson : (value : Value) → value.Faithful → value.toJson.Exact
  | .bool b, _ => trivial
  | .text s, _ => trivial
  | .number x, faithful => by
    rw [toJson, Json.ofFloat, if_pos faithful.1]
    exact faithful.2
  | .list items, faithful => by
    rw [toJson]
    exact exact_itemsToJson items faithful

theorem exact_itemsToJson : (items : List Value) → FaithfulItems items →
    Json.ExactItems (itemsToJson items)
  | [], _ => trivial
  | item :: rest, faithful =>
    ⟨exact_toJson item faithful.1, exact_itemsToJson rest faithful.2⟩

end

end Value

namespace Dict

theorem exact_toJson {encode : α → Json} {map : Dict α}
    (each : ∀ binding ∈ map.toList, (encode binding.2).Exact) : (toJson encode map).Exact := by
  suffices all : ∀ entries : List (String × α),
      (∀ binding ∈ entries, (encode binding.2).Exact) →
      Json.ExactMembers (entries.map fun binding => (binding.1, encode binding.2)) by
    exact all map.toList each
  intro entries every
  induction entries with
  | nil => trivial
  | cons head rest ih =>
    obtain ⟨first, others⟩ := List.forall_mem_cons.1 every
    exact ⟨first, ih others⟩

end Dict

namespace ValueMap

def Faithful (map : ValueMap) : Prop := ∀ binding ∈ map.toList, binding.2.Faithful

instance (map : ValueMap) : Decidable map.Faithful :=
  inferInstanceAs (Decidable (∀ binding ∈ map.toList, binding.2.Faithful))

theorem Faithful.finite {map : ValueMap} (faithful : map.Faithful) : map.Finite :=
  fun binding member => Value.isFinite_of_faithful binding.2 (faithful binding member)

theorem exact_toJson {map : ValueMap} (faithful : map.Faithful) : map.toJson.Exact :=
  Dict.exact_toJson fun binding member => Value.exact_toJson _ (faithful binding member)

end ValueMap

theorem Environment.exact_toJson (flags : Environment) : flags.toJson.Exact :=
  Dict.exact_toJson fun _ _ => trivial

end VisualNovel

import VisualNovel.Proofs.Json.Finite
import VisualNovel.Proofs.Store.Values

namespace VisualNovel

namespace Json

def rereadReal? (x : Float) : Option Float := (rereadNumber? (.real x)).bind float?

theorem rereadReal?_infinite (infinite : x.isFinite = false) : rereadReal? x = none := by
  rw [rereadReal?, (readsAs_infinite infinite).rereadNumber?]
  rfl

theorem isSome_rereadReal? : (rereadReal? x).isSome = true ↔ x.isFinite = true := by
  cases finite : x.isFinite with
  | false => simp [rereadReal?_infinite finite]
  | true =>
    obtain ⟨value, alone, reads⟩ := readsAs_real finite
    have read := isSome_readNumber finite
    rw [alone, Option.isSome_map] at read
    rw [rereadReal?, reads.rereadNumber?]
    cases value with
    | none => cases read
    | some y => exact ⟨fun _ => rfl, fun _ => rfl⟩

theorem rereadNumber?_real (finite : x.isFinite = true) :
    rereadNumber? (.real x) = (rereadReal? x).map fun y => .number (.real y) := by
  obtain ⟨value, -, reads⟩ := readsAs_real finite
  rw [rereadReal?, reads.rereadNumber?]
  cases value <;> rfl

theorem rereadReal?_eq_self :
    rereadReal? x = some x ↔ x.isFinite = true ∧ Number.readsBack (.real x) := by
  constructor
  · intro back
    cases finite : x.isFinite with
    | false =>
      rw [rereadReal?_infinite finite] at back
      cases back
    | true =>
      refine ⟨rfl, ?_⟩
      obtain ⟨value, alone, reads⟩ := readsAs_real finite
      rw [rereadReal?, reads.rereadNumber?] at back
      rw [Number.readsBack, alone]
      cases value with
      | none => cases back
      | some y => rw [show y = x from Option.some.inj back]; rfl
  · rintro ⟨finite, back⟩
    rw [rereadReal?, rereadNumber?_exact back]
    rfl

end Json

namespace Value

mutual

def reread : Value → Nat → Option Value
  | .number x, _ => (Json.rereadReal? x).map .number
  | .list items, depth =>
    match depth with
    | 0 => none
    | depth + 1 => (rereadItems items depth).map .list
  | .bool b, _ => some (.bool b)
  | .text s, _ => some (.text s)

def rereadItems : List Value → Nat → Option (List Value)
  | [], _ => some []
  | item :: rest, depth =>
    match item.reread depth, rereadItems rest depth with
    | some value, some values => some (value :: values)
    | _, _ => none

end

mutual

theorem bind_reread (depth : Nat) : (value : Value) →
    (value.toJson.reread depth).bind ofJson? = value.reread depth
  | .bool b => rfl
  | .text s => rfl
  | .number x => by
    rw [toJson, Json.ofFloat, reread]
    cases finite : x.isFinite with
    | false =>
      rw [if_neg Bool.false_ne_true, Json.rereadReal?_infinite finite]
      rfl
    | true =>
      rw [if_pos rfl, Json.reread, Json.rereadNumber?_real finite]
      cases Json.rereadReal? x <;> rfl
  | .list items => by
    rw [toJson]
    cases depth with
    | zero => rfl
    | succ depth =>
      rw [Json.reread, reread, ← bind_rereadItems depth items]
      cases Json.rereadItems (itemsToJson items) depth <;> rfl

theorem bind_rereadItems (depth : Nat) : (items : List Value) →
    (Json.rereadItems (itemsToJson items) depth).bind itemsOfJson? = rereadItems items depth
  | [] => rfl
  | item :: rest => by
    rw [itemsToJson, Json.rereadItems, rereadItems, ← bind_reread depth item,
      ← bind_rereadItems depth rest]
    cases item.toJson.reread depth with
    | none => rfl
    | some first =>
      cases Json.rereadItems (itemsToJson rest) depth with
      | none => cases ofJson? first <;> simp [*]
      | some others => rfl

end

mutual

theorem isSome_reread (depth : Nat) : (value : Value) →
    ((value.reread depth).isSome = true ↔ value.toJson.nesting ≤ depth ∧ value.isFinite = true)
  | .bool b => by simp [reread, toJson, Json.nesting, isFinite]
  | .text s => by simp [reread, toJson, Json.nesting, isFinite]
  | .number x => by
    have flat : (Json.ofFloat x).nesting = 0 := by
      unfold Json.ofFloat
      split <;> rfl
    simp [reread, toJson, flat, isFinite, Json.isSome_rereadReal?]
  | .list items => by
    rw [toJson, Json.nesting, isFinite]
    cases depth with
    | zero => simp [reread]
    | succ depth =>
      have items_iff := isSome_rereadItems depth items
      simpa [reread] using items_iff

theorem isSome_rereadItems (depth : Nat) : (items : List Value) →
    ((rereadItems items depth).isSome = true ↔
      Json.itemsNesting (itemsToJson items) ≤ depth ∧ allFinite items = true)
  | [] => by simp [rereadItems, itemsToJson, Json.itemsNesting, allFinite]
  | item :: rest => by
    have first := isSome_reread depth item
    have others := isSome_rereadItems depth rest
    rw [itemsToJson, Json.itemsNesting, allFinite, Bool.and_eq_true, Nat.max_le, and_and_and_comm,
      ← first,
      ← others, rereadItems]
    cases item.reread depth <;> cases rereadItems rest depth <;> simp

end

mutual

theorem reread_eq_self (depth : Nat) : (value : Value) →
    (value.reread depth = some value ↔ value.toJson.nesting ≤ depth ∧ value.Faithful)
  | .bool b => by simp [reread, toJson, Json.nesting, Faithful]
  | .text s => by simp [reread, toJson, Json.nesting, Faithful]
  | .number x => by
    have flat : (Json.ofFloat x).nesting = 0 := by
      unfold Json.ofFloat
      split <;> rfl
    have same := Json.rereadReal?_eq_self (x := x)
    simp [reread, toJson, flat, Faithful, ← same]
  | .list items => by
    rw [toJson, Json.nesting, Faithful]
    cases depth with
    | zero => simp [reread]
    | succ depth =>
      have items_iff := rereadItems_eq_self depth items
      simpa [reread] using items_iff

theorem rereadItems_eq_self (depth : Nat) : (items : List Value) →
    (rereadItems items depth = some items ↔
      Json.itemsNesting (itemsToJson items) ≤ depth ∧ FaithfulItems items)
  | [] => by simp [rereadItems, itemsToJson, Json.itemsNesting, FaithfulItems]
  | item :: rest => by
    have first := reread_eq_self depth item
    have others := rereadItems_eq_self depth rest
    rw [itemsToJson, Json.itemsNesting, FaithfulItems, Nat.max_le, and_and_and_comm, ← first,
      ← others, rereadItems]
    cases item.reread depth <;> cases rereadItems rest depth <;> simp

end

end Value

namespace ValueMap

def rereadEntries : List (String × Value) → Nat → Option (List (String × Value))
  | [], _ => some []
  | (key, value) :: rest, depth =>
    match value.reread depth, rereadEntries rest depth with
    | some value, some others => some ((key, value) :: others)
    | _, _ => none

def reread (map : ValueMap) : Nat → Option ValueMap
  | 0 => none
  | depth + 1 => (rereadEntries map.toList depth).map Dict.ofList

variable {map : ValueMap}

theorem bind_rereadEntries (depth : Nat) (entries : List (String × Value)) :
    (Json.rereadMembers (entries.map fun binding => (binding.1, binding.2.toJson)) depth).bind
      (Dict.membersOfJson? Value.ofJson?) = rereadEntries entries depth := by
  induction entries with
  | nil => rfl
  | cons head rest ih =>
    obtain ⟨key, value⟩ := head
    rw [List.map_cons, Json.rereadMembers, rereadEntries, ← Value.bind_reread depth value, ← ih]
    cases value.toJson.reread depth with
    | none => rfl
    | some first =>
      cases Json.rereadMembers _ depth with
      | none => simp
      | some others =>
        simp only [Option.bind_some, Dict.membersOfJson?]
        cases Value.ofJson? first <;> cases Dict.membersOfJson? Value.ofJson? others <;> rfl

theorem bind_reread (map : ValueMap) (depth : Nat) :
    (map.toJson.reread depth).bind ValueMap.ofJson? = map.reread depth := by
  cases depth with
  | zero => rfl
  | succ depth =>
    rw [reread, ← bind_rereadEntries depth map.toList]
    change ((Json.rereadMembers (map.mapValues Value.toJson) depth).map Json.object).bind _ = _
    rw [Dict.mapValues]
    cases Json.rereadMembers _ depth <;> rfl

theorem isSome_rereadEntries (depth : Nat) (entries : List (String × Value)) :
    (rereadEntries entries depth).isSome = true ↔
      Json.membersNesting (entries.map fun binding => (binding.1, binding.2.toJson)) ≤ depth ∧
        ∀ binding ∈ entries, binding.2.isFinite = true := by
  induction entries with
  | nil => simp [rereadEntries, Json.membersNesting]
  | cons head rest ih =>
    obtain ⟨key, value⟩ := head
    rw [List.map_cons, Json.membersNesting, Nat.max_le, List.forall_mem_cons, and_and_and_comm,
      ← Value.isSome_reread depth value, ← ih, rereadEntries]
    cases value.reread depth <;> cases rereadEntries rest depth <;> simp

theorem isSome_reread (depth : Nat) :
    (map.reread depth).isSome = true ↔ map.toJson.nesting ≤ depth ∧ map.Finite := by
  change _ ↔ Json.membersNesting (map.mapValues Value.toJson) + 1 ≤ depth ∧ _
  cases depth with
  | zero => simp [reread]
  | succ depth =>
    rw [reread, Option.isSome_map, isSome_rereadEntries, Nat.add_le_add_iff_right]
    rfl

theorem keys_rereadEntries (reread : rereadEntries entries depth = some others) :
    others.map Prod.fst = entries.map Prod.fst := by
  induction entries generalizing others with
  | nil => cases reread; rfl
  | cons head rest ih =>
    obtain ⟨key, value⟩ := head
    rw [rereadEntries] at reread
    split at reread
    · rename_i back
      cases reread
      rw [List.map_cons, List.map_cons, ih back]
    · cases reread

theorem rereadEntries_eq_self (depth : Nat) (entries : List (String × Value)) :
    rereadEntries entries depth = some entries ↔
      Json.membersNesting (entries.map fun binding => (binding.1, binding.2.toJson)) ≤ depth ∧
        ∀ binding ∈ entries, binding.2.Faithful := by
  induction entries with
  | nil => simp [rereadEntries, Json.membersNesting]
  | cons head rest ih =>
    obtain ⟨key, value⟩ := head
    rw [List.map_cons, Json.membersNesting, Nat.max_le, List.forall_mem_cons, and_and_and_comm,
      ← Value.reread_eq_self depth value, ← ih, rereadEntries]
    cases value.reread depth <;> cases rereadEntries rest depth <;> simp

theorem increasing_of_keys {entries others : List (String × Value)}
    (sorted : Bindings.Increasing entries) (keys : others.map Prod.fst = entries.map Prod.fst) :
    Bindings.Increasing others := by
  have listed : (entries.map Prod.fst).Pairwise (· < ·) := List.pairwise_map.2 sorted
  rw [← keys] at listed
  exact List.pairwise_map.1 listed

theorem reread_eq_self (depth : Nat) :
    map.reread depth = some map ↔ map.toJson.nesting ≤ depth ∧ map.Faithful := by
  change _ ↔ Json.membersNesting (map.mapValues Value.toJson) + 1 ≤ depth ∧ _
  cases depth with
  | zero => simp [reread]
  | succ depth =>
    have entries := rereadEntries_eq_self depth map.toList
    rw [Nat.add_le_add_iff_right]
    refine Iff.trans ?_ entries
    rw [reread, Option.map_eq_some_iff]
    constructor
    · rintro ⟨others, back, same⟩
      have sorted := increasing_of_keys map.increasing (keys_rereadEntries back)
      rw [back, ← same, Dict.toList_ofList sorted]
    · exact fun back => ⟨_, back, Dict.ofList_toList map⟩

end ValueMap

end VisualNovel

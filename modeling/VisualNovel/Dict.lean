namespace VisualNovel

namespace Bindings

-- Plain lists of bindings. The order of the keys is only used by `put`.
abbrev find? (key : String) (bindings : List (String × α)) : Option α := bindings.lookup key

def put (key : String) (value : α) : List (String × α) → List (String × α)
  | [] => [(key, value)]
  | (k, old) :: rest =>
    if key < k then (key, value) :: (k, old) :: rest
    else if key = k then (key, value) :: rest
    else (k, old) :: put key value rest

def drop (key : String) (bindings : List (String × α)) : List (String × α) :=
  bindings.filter fun binding => binding.1 ≠ key

def Increasing (bindings : List (String × α)) : Prop :=
  bindings.Pairwise fun earlier later => earlier.1 < later.1

instance (bindings : List (String × α)) : Decidable (Increasing bindings) :=
  inferInstanceAs (Decidable (bindings.Pairwise _))

theorem lt_of_not_lt_of_ne {a b : String} (notBefore : ¬ a < b) (different : a ≠ b) : b < a :=
  Std.lt_of_le_of_ne (String.not_lt.1 notBefore) different.symm

theorem find?_cons (key : String) (head : String × α) (rest : List (String × α)) :
    find? key (head :: rest) = if head.1 = key then some head.2 else find? key rest := by
  rw [find?, List.lookup_cons]
  by_cases same : head.1 = key
  · simp [same]
  · simp [same, beq_eq_false_iff_ne.2 (Ne.symm same)]

theorem mem_put {binding : String × α} (member : binding ∈ put key value bindings) :
    binding = (key, value) ∨ binding ∈ bindings := by
  induction bindings with
  | nil => simpa [put] using member
  | cons head rest ih =>
    obtain ⟨k, old⟩ := head
    unfold put at member
    split at member
    · simpa using member
    · split at member
      · rcases List.mem_cons.1 member with same | inside
        · exact .inl same
        · exact .inr (List.mem_cons_of_mem _ inside)
      · rcases List.mem_cons.1 member with same | inside
        · exact .inr (by simp [same])
        · rcases ih inside with same | inside
          · exact .inl same
          · exact .inr (List.mem_cons_of_mem _ inside)

theorem increasing_put (sorted : Increasing bindings) : Increasing (put key value bindings) := by
  induction bindings with
  | nil => simp [put, Increasing]
  | cons head rest ih =>
    obtain ⟨k, old⟩ := head
    obtain ⟨before, tail⟩ := List.pairwise_cons.1 sorted
    unfold put
    split
    · rename_i first
      refine List.pairwise_cons.2 ⟨fun binding member => ?_, sorted⟩
      rcases List.mem_cons.1 member with same | inside
      · simpa [same] using first
      · exact String.lt_trans first (before binding inside)
    · split
      · rename_i same
        exact List.pairwise_cons.2 ⟨by simpa [same] using before, tail⟩
      · rename_i notFirst different
        refine List.pairwise_cons.2 ⟨fun binding member => ?_, ih tail⟩
        rcases mem_put member with same | inside
        · simpa [same] using lt_of_not_lt_of_ne notFirst different
        · exact before binding inside

theorem increasing_drop (sorted : Increasing bindings) : Increasing (drop key bindings) :=
  List.Pairwise.filter _ sorted

theorem find?_eq_none_of_lt {bindings : List (String × α)}
    (later : ∀ binding ∈ bindings, key < binding.1) : find? key bindings = none := by
  refine List.lookup_eq_none_iff.2 fun binding member => bne_iff_ne.2 fun same => ?_
  exact String.lt_irrefl key (by simpa [← same] using later binding member)

theorem find?_put (bindings : List (String × α)) (sought : String) :
    find? sought (put key value bindings) =
      if sought = key then some value else find? sought bindings := by
  induction bindings with
  | nil => simp [put, find?_cons, eq_comm]
  | cons head rest ih =>
    obtain ⟨k, old⟩ := head
    unfold put
    split
    · simp [find?_cons, eq_comm]
    · split
      · rename_i same
        subst same
        by_cases asked : sought = key
        · simp [asked]
        · simp [find?_cons, asked, Ne.symm asked]
      · rename_i different
        simp only [find?_cons, ih]
        by_cases asked : sought = key
        · simp [asked, Ne.symm different]
        · simp [asked]

theorem find?_filter (keep : String → Bool) (bindings : List (String × α)) (key : String) :
    find? key (bindings.filter fun binding => keep binding.1) =
      if keep key then find? key bindings else none := by
  induction bindings with
  | nil => simp
  | cons head rest ih =>
    rw [List.filter_cons, find?_cons]
    cases kept : keep head.1 with
    | true =>
      rw [if_pos rfl, find?_cons, ih]
      by_cases same : head.1 = key
      · rw [same] at kept
        simp [same, kept]
      · simp [same]
    | false =>
      rw [if_neg Bool.false_ne_true, ih]
      by_cases same : head.1 = key
      · rw [same] at kept
        simp [kept]
      · simp [same]

theorem find?_drop (bindings : List (String × α)) (sought : String) :
    find? sought (drop key bindings) = if sought = key then none else find? sought bindings := by
  rw [drop, find?_filter fun name => name ≠ key]
  by_cases same : sought = key <;> simp [same]

theorem not_lt_of_find?_eq {x y : String × α} (after : ∀ binding ∈ ys, y.1 < binding.1)
    (same : find? x.1 (x :: xs) = find? x.1 (y :: ys)) : ¬ x.1 < y.1 := by
  intro first
  have absent : find? x.1 (y :: ys) = none :=
    find?_eq_none_of_lt fun binding member => by
      rcases List.mem_cons.1 member with rfl | inside
      · exact first
      · exact String.lt_trans first (after binding inside)
  rw [absent] at same
  simp [find?_cons] at same

-- Two increasing lists with the same look-ups start alike, hence are equal.
theorem eq_of_find?_eq (left : Increasing xs) (right : Increasing ys)
    (same : ∀ key, find? key xs = find? key ys) : xs = ys := by
  induction xs generalizing ys with
  | nil =>
    cases ys with
    | nil => rfl
    | cons y ys => simpa [find?_cons] using same y.1
  | cons x xs ih =>
    cases ys with
    | nil => simpa [find?_cons] using same x.1
    | cons y ys =>
      obtain ⟨afterX, left⟩ := List.pairwise_cons.1 left
      obtain ⟨afterY, right⟩ := List.pairwise_cons.1 right
      have keys : x.1 = y.1 := Decidable.byContradiction fun different =>
        not_lt_of_find?_eq afterX (same y.1).symm
          (lt_of_not_lt_of_ne (not_lt_of_find?_eq afterY (same x.1)) different)
      have values : x.2 = y.2 := by simpa [find?_cons, keys] using same x.1
      have rests : xs = ys := ih left right fun key => by
        by_cases asked : key = x.1
        · subst asked
          rw [find?_eq_none_of_lt afterX, find?_eq_none_of_lt (by simpa [keys] using afterY)]
        · have := same key
          have other : y.1 ≠ key := fun equal => asked (keys ▸ equal).symm
          simpa [find?_cons, Ne.symm asked, other] using this
      rw [rests, Prod.ext keys values]

end Bindings

-- The order of the bindings is that of their keys, so maps with the same look-ups are one value.
structure Dict (α : Type) where
  bindings : List (String × α)
  increasing : Bindings.Increasing bindings

namespace Dict

def empty : Dict α := ⟨[], .nil⟩

instance : Inhabited (Dict α) := ⟨empty⟩
instance : EmptyCollection (Dict α) := ⟨empty⟩

instance [DecidableEq α] : DecidableEq (Dict α) := fun left right =>
  if same : left.bindings = right.bindings then
    isTrue (by cases left; cases right; simp_all)
  else isFalse fun equal => same (by rw [equal])

def get? (map : Dict α) (key : String) : Option α := Bindings.find? key map.bindings

def contains (map : Dict α) (key : String) : Bool := (map.get? key).isSome

def insert (map : Dict α) (key : String) (value : α) : Dict α :=
  ⟨Bindings.put key value map.bindings, Bindings.increasing_put map.increasing⟩

def erase (map : Dict α) (key : String) : Dict α :=
  ⟨Bindings.drop key map.bindings, Bindings.increasing_drop map.increasing⟩

def toList (map : Dict α) : List (String × α) := map.bindings

def keys (map : Dict α) : List String := map.bindings.map Prod.fst

def ofList (bindings : List (String × α)) : Dict α :=
  bindings.foldl (fun map binding => map.insert binding.1 binding.2) empty

theorem ext_get? {left right : Dict α} (same : ∀ key, left.get? key = right.get? key) :
    left = right := by
  have := Bindings.eq_of_find?_eq left.increasing right.increasing same
  cases left; cases right; simp_all

@[simp] theorem get?_empty (key : String) : (empty : Dict α).get? key = none := rfl

theorem get?_insert (map : Dict α) (key : String) (value : α) (sought : String) :
    (map.insert key value).get? sought = if sought = key then some value else map.get? sought :=
  Bindings.find?_put map.bindings sought

@[simp] theorem get?_insert_self (map : Dict α) (key : String) (value : α) :
    (map.insert key value).get? key = some value := by simp [get?_insert]

theorem get?_insert_of_ne (map : Dict α) (value : α) (different : sought ≠ key) :
    (map.insert key value).get? sought = map.get? sought := by simp [get?_insert, different]

theorem get?_erase (map : Dict α) (key sought : String) :
    (map.erase key).get? sought = if sought = key then none else map.get? sought :=
  Bindings.find?_drop map.bindings sought

end Dict

end VisualNovel

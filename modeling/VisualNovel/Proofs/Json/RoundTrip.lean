import VisualNovel.Proofs.Json.Numbers

namespace VisualNovel.Json

mutual

def nesting : Json → Nat
  | .array items => itemsNesting items + 1
  | .object members => membersNesting members + 1
  | .null => 0
  | .bool _ => 0
  | .number _ => 0
  | .string _ => 0

def itemsNesting : List Json → Nat
  | [] => 0
  | item :: rest => max item.nesting (itemsNesting rest)

def membersNesting : List (String × Json) → Nat
  | [] => 0
  | (_, value) :: rest => max value.nesting (membersNesting rest)

end

def Number.readsBack (n : Number) : Prop := readNumber (numberText n) = some (n, [])

instance (n : Number) : Decidable (Number.readsBack n) :=
  inferInstanceAs (Decidable (readNumber (numberText n) = some (n, [])))

mutual

def Exact : Json → Prop
  | .array items => ExactItems items
  | .object members => ExactMembers members
  | .number n => Number.readsBack n
  | .null => True
  | .bool _ => True
  | .string _ => True

def ExactItems : List Json → Prop
  | [] => True
  | item :: rest => item.Exact ∧ ExactItems rest

def ExactMembers : List (String × Json) → Prop
  | [] => True
  | (_, value) :: rest => value.Exact ∧ ExactMembers rest

end

mutual

-- What a reader that goes so deep makes of the text of a value: the value again, each number as it
-- is read alone; nothing if a number is not read or the value is nested deeper.
def reread : Json → Nat → Option Json
  | .array items, depth =>
    match depth with
    | 0 => none
    | depth + 1 => (rereadItems items depth).map .array
  | .object members, depth =>
    match depth with
    | 0 => none
    | depth + 1 => (rereadMembers members depth).map .object
  | .number n, _ => rereadNumber? n
  | .null, _ => some .null
  | .bool b, _ => some (.bool b)
  | .string text, _ => some (.string text)

def rereadItems : List Json → Nat → Option (List Json)
  | [], _ => some []
  | item :: rest, depth =>
    match item.reread depth, rereadItems rest depth with
    | some value, some values => some (value :: values)
    | _, _ => none

def rereadMembers : List (String × Json) → Nat → Option (List (String × Json))
  | [], _ => some []
  | (key, value) :: rest, depth =>
    match value.reread depth, rereadMembers rest depth with
    | some value, some members => some ((key, value) :: members)
    | _, _ => none

end

theorem chars_start (value : Json) : ∃ c text, value.chars = c :: text ∧ startsValue c := by
  cases value with
  | null => exact ⟨_, _, rfl, rfl, by decide, by decide⟩
  | bool b => cases b <;> exact ⟨_, _, rfl, rfl, by decide, by decide⟩
  | string text => exact ⟨_, _, by rw [chars, stringText], rfl, by decide, by decide⟩
  | array items => exact ⟨_, _, by rw [chars], rfl, by decide, by decide⟩
  | object members => exact ⟨_, _, by rw [chars], rfl, by decide, by decide⟩
  | number n =>
    rw [chars]
    exact startsValue_numberText n

theorem stringText_append (text : String) (rest : List Char) :
    stringText text ++ rest = '"' :: (text.toList.flatMap escapeChar ++ '"' :: rest) := by
  simp [stringText]

theorem readValue_string (fuel depth : Nat) (text : String) (rest : List Char) :
    readValue (fuel + 1) depth (stringText text ++ rest) = some (.string text, rest) := by
  rw [stringText_append, readValue, skipLayout_cons rfl]
  simp [readString_escaped]

theorem readValue_array (fuel depth : Nat) (start : startsValue c) (text : List Char) :
    readValue (fuel + 1) (depth + 1) ('[' :: c :: text) =
      (readItems fuel depth (c :: text)).map fun (items, rest) => (.array items, rest) := by
  rw [readValue, skipLayout_cons rfl]
  simp only [skipLayout_cons start.1]
  split
  · rename_i closed
    exact absurd (List.cons.inj closed).1 start.2.1
  · rfl

theorem readValue_object (fuel depth : Nat) (text : List Char) :
    readValue (fuel + 1) (depth + 1) ('\x7b' :: '"' :: text) =
      (readMembers fuel depth ('"' :: text)).map fun (members, rest) =>
        (.object members, rest) := by
  rw [readValue, skipLayout_cons rfl]
  simp only [skipLayout_cons (show isLayout '"' = false from rfl)]
  rfl

theorem readItems_last (item : readValue fuel depth text = some (value, ']' :: rest)) :
    readItems (fuel + 1) depth text = some ([value], rest) := by
  rw [readItems, item]
  simp only [skipLayout_cons (show isLayout ']' = false from rfl)]

theorem readItems_more (item : readValue fuel depth text = some (value, ',' :: more)) :
    readItems (fuel + 1) depth text =
      (readItems fuel depth more).map fun (items, rest) => (value :: items, rest) := by
  rw [readItems, item]
  simp only [skipLayout_cons (show isLayout ',' = false from rfl)]

theorem readMembers_last (member : readValue fuel depth text = some (value, '}' :: rest)) :
    readMembers (fuel + 1) depth (stringText key ++ ':' :: text) = some ([(key, value)], rest) := by
  rw [stringText_append, readMembers, skipLayout_cons rfl]
  simp only [readString_escaped, skipLayout_cons (show isLayout ':' = false from rfl), member,
    skipLayout_cons (show isLayout '}' = false from rfl), String.ofList_toList]

theorem readMembers_more (member : readValue fuel depth text = some (value, ',' :: more)) :
    readMembers (fuel + 1) depth (stringText key ++ ':' :: text) =
      (readMembers fuel depth more).map fun (members, rest) => ((key, value) :: members, rest) := by
  rw [stringText_append, readMembers, skipLayout_cons rfl]
  simp only [readString_escaped, skipLayout_cons (show isLayout ':' = false from rfl), member,
    skipLayout_cons (show isLayout ',' = false from rfl), String.ofList_toList]

theorem readMembers_none (member : readValue fuel depth text = none) :
    readMembers (fuel + 1) depth (stringText key ++ ':' :: text) = none := by
  rw [stringText_append, readMembers, skipLayout_cons rfl]
  simp only [readString_escaped, skipLayout_cons (show isLayout ':' = false from rfl), member]

theorem exists_succ_of_lt {n bound : Nat} (below : n < bound) : ∃ less, bound = less + 1 :=
  Nat.exists_eq_succ_of_ne_zero (Nat.ne_zero_of_lt below)

theorem exists_memberChars (member : String × Json) (members : List (String × Json)) :
    ∃ text, memberChars (member :: members) = '"' :: text := by
  obtain ⟨key, value⟩ := member
  cases members <;> exact ⟨_, by rw [memberChars, stringText, List.cons_append]⟩

-- Along the text as it was written. The text is longer than the calls that read it are deep.
mutual

theorem readValue_chars (fuel depth : Nat) (rest : List Char) (ends : endsValue rest = true) :
    (value : Json) → value.chars.length < fuel →
      readValue fuel depth (value.chars ++ rest) = (value.reread depth).map (·, rest)
  | .null, enough => by
    obtain ⟨fuel, rfl⟩ := exists_succ_of_lt enough
    rfl
  | .bool true, enough => by
    obtain ⟨fuel, rfl⟩ := exists_succ_of_lt enough
    rfl
  | .bool false, enough => by
    obtain ⟨fuel, rfl⟩ := exists_succ_of_lt enough
    rfl
  | .string text, enough => by
    obtain ⟨fuel, rfl⟩ := exists_succ_of_lt enough
    rw [chars]
    exact readValue_string fuel depth text rest
  | .number n, enough => by
    obtain ⟨fuel, rfl⟩ := exists_succ_of_lt enough
    rw [chars, reread]
    exact readValue_numberText n fuel depth ends
  | .array items, enough => by
    obtain ⟨fuel, rfl⟩ := exists_succ_of_lt enough
    cases depth with
    | zero => rfl
    | succ depth =>
    simp only [chars, List.length_cons, List.length_append, List.length_nil] at enough
    cases items with
    | nil => rfl
    | cons item items =>
      have read := readItems_chars fuel depth rest item items (by omega)
      -- The reader looks at one character to tell a first item from the end of the list.
      obtain ⟨c, text, written, start⟩ : ∃ c text, itemChars (item :: items) = c :: text ∧
          startsValue c := by
        obtain ⟨c, text, written, start⟩ := chars_start item
        cases items with
        | nil => exact ⟨c, text, by rw [itemChars, written], start⟩
        | cons next more => exact ⟨c, _, by rw [itemChars, written, List.cons_append], start⟩
      rw [written, List.cons_append] at read
      simp only [chars, written, List.cons_append, List.append_assoc, List.nil_append]
      rw [readValue_array fuel depth start, read, reread]
      cases rereadItems (item :: items) depth <;> rfl
  | .object members, enough => by
    obtain ⟨fuel, rfl⟩ := exists_succ_of_lt enough
    cases depth with
    | zero => rfl
    | succ depth =>
    simp only [chars, List.length_cons, List.length_append, List.length_nil] at enough
    cases members with
    | nil => rfl
    | cons member members =>
      have read := readMembers_chars fuel depth rest member members (by omega)
      obtain ⟨text, written⟩ := exists_memberChars member members
      rw [written, List.cons_append] at read
      simp only [chars, written, List.cons_append, List.append_assoc, List.nil_append]
      rw [readValue_object fuel depth, read, reread]
      cases rereadMembers (member :: members) depth <;> rfl

theorem readItems_chars (fuel depth : Nat) (rest : List Char) :
    (item : Json) → (items : List Json) → (itemChars (item :: items)).length + 1 < fuel →
      readItems fuel depth (itemChars (item :: items) ++ ']' :: rest) =
        (rereadItems (item :: items) depth).map (·, rest)
  | item, [], enough => by
    obtain ⟨fuel, rfl⟩ := exists_succ_of_lt enough
    simp only [itemChars] at enough ⊢
    have read := readValue_chars fuel depth (']' :: rest) rfl item (by omega)
    simp only [rereadItems]
    cases reread : item.reread depth with
    | none => rw [readItems, read, reread]; rfl
    | some value => exact readItems_last (by rw [read, reread]; rfl)
  | item, next :: more, enough => by
    obtain ⟨fuel, rfl⟩ := exists_succ_of_lt enough
    simp only [itemChars, List.length_append, List.length_cons] at enough
    rw [itemChars, List.append_assoc, List.cons_append, rereadItems]
    have read := readValue_chars fuel depth (',' :: (itemChars (next :: more) ++ ']' :: rest)) rfl
      item (by omega)
    have others := readItems_chars fuel depth rest next more (by omega)
    cases reread : item.reread depth with
    | none => rw [readItems, read, reread]; rfl
    | some value =>
      rw [readItems_more (by rw [read, reread]; rfl), others]
      cases rereadItems (next :: more) depth <;> rfl

theorem readMembers_chars (fuel depth : Nat) (rest : List Char) :
    (member : String × Json) → (members : List (String × Json)) →
      (memberChars (member :: members)).length + 1 < fuel →
      readMembers fuel depth (memberChars (member :: members) ++ '}' :: rest) =
        (rereadMembers (member :: members) depth).map (·, rest)
  | (key, value), [], enough => by
    obtain ⟨fuel, rfl⟩ := exists_succ_of_lt enough
    simp only [memberChars, List.length_append, List.length_cons] at enough
    rw [memberChars, List.append_assoc, List.cons_append, rereadMembers]
    have read := readValue_chars fuel depth ('}' :: rest) rfl value (by omega)
    cases reread : value.reread depth with
    | none => exact readMembers_none (by rw [read, reread]; rfl)
    | some value => exact readMembers_last (by rw [read, reread]; rfl)
  | (key, value), next :: more, enough => by
    obtain ⟨fuel, rfl⟩ := exists_succ_of_lt enough
    simp only [memberChars, List.length_append, List.length_cons] at enough
    rw [memberChars, List.append_assoc, List.cons_append, List.append_assoc, List.cons_append,
      rereadMembers]
    have read := readValue_chars fuel depth (',' :: (memberChars (next :: more) ++ '}' :: rest)) rfl
      value (by omega)
    have others := readMembers_chars fuel depth rest next more (by omega)
    cases reread : value.reread depth with
    | none => exact readMembers_none (by rw [read, reread]; rfl)
    | some value =>
      rw [readMembers_more (by rw [read, reread]; rfl), others]
      cases rereadMembers (next :: more) depth <;> rfl

end

theorem read?_write_eq (value : Json) : read? value.write = value.reread depthLimit := by
  have read := readValue_chars (value.chars.length + 1) depthLimit [] rfl value
    (Nat.lt_succ_self _)
  rw [List.append_nil] at read
  simp only [read?, write, ofChars?, String.toList_ofList, read]
  cases value.reread depthLimit <;> rfl

theorem rereadNumber?_exact (back : Number.readsBack n) : rereadNumber? n = some (.number n) := by
  obtain ⟨c, text, written⟩ : ∃ c text, numberText n = c :: text := by
    refine List.exists_cons_of_ne_nil fun empty => ?_
    rw [Number.readsBack, empty] at back
    cases back
  rw [Number.readsBack, written] at back
  rw [rereadNumber?, written, readValue_number (startsNumber_of_readNumber back), back]
  rfl

mutual

theorem reread_exact (depth : Nat) : (value : Json) → value.Exact → value.nesting ≤ depth →
    value.reread depth = some value
  | .null, _, _ => rfl
  | .bool _, _, _ => rfl
  | .string _, _, _ => rfl
  | .number _, faithful, _ => rereadNumber?_exact faithful
  | .array items, faithful, shallow => by
    obtain ⟨depth, rfl⟩ := exists_succ_of_lt shallow
    rw [reread, rereadItems_exact depth items faithful (Nat.le_of_succ_le_succ shallow)]
    rfl
  | .object members, faithful, shallow => by
    obtain ⟨depth, rfl⟩ := exists_succ_of_lt shallow
    rw [reread, rereadMembers_exact depth members faithful (Nat.le_of_succ_le_succ shallow)]
    rfl

theorem rereadItems_exact (depth : Nat) : (items : List Json) → ExactItems items →
    itemsNesting items ≤ depth → rereadItems items depth = some items
  | [], _, _ => rfl
  | item :: rest, faithful, shallow => by
    obtain ⟨first, others⟩ := Nat.max_le.1 shallow
    rw [rereadItems, reread_exact depth item faithful.1 first,
      rereadItems_exact depth rest faithful.2 others]

theorem rereadMembers_exact (depth : Nat) : (members : List (String × Json)) →
    ExactMembers members → membersNesting members ≤ depth →
    rereadMembers members depth = some members
  | [], _, _ => rfl
  | (key, value) :: rest, faithful, shallow => by
    obtain ⟨first, others⟩ := Nat.max_le.1 shallow
    rw [rereadMembers, reread_exact depth value faithful.1 first,
      rereadMembers_exact depth rest faithful.2 others]

end

theorem read?_write (faithful : Exact value) (shallow : value.nesting ≤ depthLimit) :
    read? value.write = some value := by
  rw [read?_write_eq, reread_exact depthLimit value faithful shallow]

end VisualNovel.Json

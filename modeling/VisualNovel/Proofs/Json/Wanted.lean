import VisualNovel.Proofs.Json.RoundTrip
import Mathlib.Data.List.Basic

namespace VisualNovel.Json

-- Everything in a value is asked for.
inductive Covers : Wanted → Json → Prop where
  | whole : Covers .whole value
  | object (named : List (String × Wanted)) (wantedOf : String → Wanted)
      (found : ∀ member ∈ members, Bindings.find? member.1 named = some (wantedOf member.1))
      (each : ∀ member ∈ members, Covers (wantedOf member.1) member.2) :
      Covers (.members named) (.object members)

-- For such a value it makes no difference that parts of it are asked for.
def ReadsLike (wanted : Wanted) (value : Json) : Prop :=
  ∀ fuel depth rest, endsValue rest = true → value.chars.length < fuel →
    readWanted fuel depth (value.chars ++ rest) wanted = (value.reread depth).map (·, rest)

variable {named : List (String × Wanted)} {rest : List Char}

theorem readNamedValue_found (found : Bindings.find? key named = some wanted)
    (read : readWanted fuel depth text wanted = some (value, behind)) :
    readNamedValue fuel depth key text (Bindings.find? key named) = some ([(key, value)], behind) := by
  rw [found, readNamedValue, read]
  rfl

theorem readNamed_last
    (member : readNamedValue fuel depth key text (Bindings.find? key named) =
      some ([(key, value)], '}' :: rest)) :
    readNamed (fuel + 1) depth (stringText key ++ ':' :: text) named =
      some ([(key, value)], rest) := by
  rw [stringText_append, readNamed, skipLayout_cons rfl]
  simp only [readString_escaped, skipLayout_cons (show isLayout ':' = false from rfl),
    String.ofList_toList, member, skipLayout_cons (show isLayout '}' = false from rfl)]

theorem readNamed_more
    (member : readNamedValue fuel depth key text (Bindings.find? key named) =
      some ([(key, value)], ',' :: more)) :
    readNamed (fuel + 1) depth (stringText key ++ ':' :: text) named =
      (readNamed fuel depth more named).map fun (members, rest) =>
        ((key, value) :: members, rest) := by
  rw [stringText_append, readNamed, skipLayout_cons rfl]
  simp only [readString_escaped, skipLayout_cons (show isLayout ':' = false from rfl),
    String.ofList_toList, member, skipLayout_cons (show isLayout ',' = false from rfl)]
  rfl

theorem readNamed_none
    (member : readNamedValue fuel depth key text (Bindings.find? key named) = none) :
    readNamed (fuel + 1) depth (stringText key ++ ':' :: text) named = none := by
  rw [stringText_append, readNamed, skipLayout_cons rfl]
  simp only [readString_escaped, skipLayout_cons (show isLayout ':' = false from rfl),
    String.ofList_toList, member]

theorem readNamed_chars (member : String × Json) (members : List (String × Json))
    (each : ∀ one ∈ member :: members, ∃ wanted, Bindings.find? one.1 named = some wanted ∧
      ReadsLike wanted one.2) (depth : Nat) (rest : List Char)
    (enough : (memberChars (member :: members)).length + 1 < fuel) :
    readNamed fuel depth (memberChars (member :: members) ++ '}' :: rest) named =
      (rereadMembers (member :: members) depth).map (·, rest) := by
  induction members generalizing member fuel with
  | nil =>
    obtain ⟨key, value⟩ := member
    obtain ⟨wanted, found, like⟩ := each (key, value) (List.mem_cons_self ..)
    replace like : ReadsLike wanted value := like
    obtain ⟨fuel, rfl⟩ := exists_succ_of_lt enough
    simp only [memberChars, List.length_append, List.length_cons] at enough
    rw [memberChars, List.append_assoc, List.cons_append, rereadMembers]
    have read := like fuel depth ('}' :: rest) rfl (by omega)
    cases reread : value.reread depth with
    | none =>
      refine readNamed_none ?_
      rw [found, readNamedValue, read, reread]
      rfl
    | some value => exact readNamed_last (readNamedValue_found found (by rw [read, reread]; rfl))
  | cons next more ih =>
    obtain ⟨key, value⟩ := member
    obtain ⟨first, others⟩ := List.forall_mem_cons.1 each
    obtain ⟨wanted, found, like⟩ := first
    replace like : ReadsLike wanted value := like
    obtain ⟨fuel, rfl⟩ := exists_succ_of_lt enough
    simp only [memberChars, List.length_append, List.length_cons] at enough
    rw [memberChars, List.append_assoc, List.cons_append, List.append_assoc, List.cons_append,
      rereadMembers]
    have read := like fuel depth (',' :: (memberChars (next :: more) ++ '}' :: rest)) rfl
      (by omega)
    have further := ih next others (by omega : (memberChars (next :: more)).length + 1 < fuel)
    cases reread : value.reread depth with
    | none =>
      refine readNamed_none ?_
      rw [found, readNamedValue, read, reread]
      rfl
    | some value =>
      rw [readNamed_more (readNamedValue_found found (by rw [read, reread]; rfl)), further]
      cases rereadMembers (next :: more) depth <;> rfl

theorem readWanted_shallow (fuel : Nat) (text : List Char) (named : List (String × Wanted)) :
    readWanted fuel 0 text (.members named) = readValue fuel 0 text := by
  rw [readWanted]
  · intro _ _ _ _ deep
    cases deep
  · intro _ _ _ _ deep
    cases deep

theorem readWanted_object (fuel depth : Nat) (text : List Char) (named : List (String × Wanted)) :
    readWanted (fuel + 1) (depth + 1) ('\x7b' :: '"' :: text) (.members named) =
      (readNamed fuel depth ('"' :: text) named).map fun (members, rest) =>
        (.object members, rest) := by
  rw [readWanted.eq_def]
  simp only [skipLayout_cons (show isLayout '\x7b' = false from rfl),
    skipLayout_cons (show isLayout '"' = false from rfl)]
  rfl

theorem readWanted_empty (fuel depth : Nat) (rest : List Char) (named : List (String × Wanted)) :
    readWanted (fuel + 1) (depth + 1) ('\x7b' :: '\x7d' :: rest) (.members named) =
      some (.object [], rest) := by
  rw [readWanted.eq_def]
  simp only [skipLayout_cons (show isLayout '\x7b' = false from rfl),
    skipLayout_cons (show isLayout '\x7d' = false from rfl)]

theorem Covers.readsLike (covers : Covers wanted value) : ReadsLike wanted value := by
  induction covers with
  | @whole value =>
    intro fuel depth rest ends enough
    rw [readWanted]
    exact readValue_chars fuel depth rest ends value enough
  | @object members named wantedOf found each ih =>
    intro fuel depth rest ends enough
    cases depth with
    | zero =>
      rw [readWanted_shallow]
      exact readValue_chars fuel 0 rest ends (.object members) enough
    | succ depth =>
    obtain ⟨fuel, rfl⟩ := exists_succ_of_lt enough
    simp only [chars, List.length_cons, List.length_append, List.length_nil] at enough
    cases members with
    | nil => exact readWanted_empty fuel depth rest named
    | cons member members =>
      have all : ∀ one ∈ member :: members, ∃ wanted,
          Bindings.find? one.1 named = some wanted ∧ ReadsLike wanted one.2 :=
        fun one inside => ⟨_, found one inside, ih one inside⟩
      have enough : (memberChars (member :: members)).length + 1 < fuel := by omega
      have read := readNamed_chars member members all depth rest enough
      obtain ⟨text, written⟩ := exists_memberChars member members
      rw [written, List.cons_append] at read
      simp only [chars, written, List.cons_append, List.append_assoc, List.nil_append]
      rw [readWanted_object, read, reread]
      cases rereadMembers (member :: members) depth <;> rfl

theorem readFor?_write (covers : Covers wanted value) :
    readFor? wanted value.write = value.reread depthLimit := by
  have read := covers.readsLike (value.chars.length + 1) depthLimit [] rfl (Nat.lt_succ_self _)
  rw [List.append_nil] at read
  unfold readFor?
  rw [read?_write_eq]
  simp only [write, String.toList_ofList, read]
  cases value.reread depthLimit <;> rfl

theorem covers_ofNames (known : ∀ member ∈ members, member.1 ∈ names) :
    Covers (.ofNames names) (.object members) :=
  .object _ (fun _ => .whole) (fun member inside => List.lookup_graph _ (known member inside))
    fun _ _ => .whole

end VisualNovel.Json

import VisualNovel.Files

namespace VisualNovel

theorem not_mem_of_mem_splitOn {mark : Char} {text piece : List Char}
    (member : piece ∈ text.splitOn mark) : mark ∉ piece := by
  induction text generalizing piece with
  | nil =>
    rw [List.splitOn_nil, List.mem_singleton] at member
    simp [member]
  | cons c rest ih =>
    rw [List.splitOn_cons_eq_if_modifyHead] at member
    split at member
    · rcases List.mem_cons.1 member with rfl | inside
      · exact List.not_mem_nil
      · exact ih inside
    · rename_i other
      obtain ⟨first, pieces, cut⟩ := List.exists_cons_of_ne_nil (List.splitOn_ne_nil mark rest)
      rw [cut, List.modifyHead_cons] at member
      rw [cut] at ih
      rcases List.mem_cons.1 member with rfl | inside
      · intro inPiece
        rcases List.mem_cons.1 inPiece with same | inFirst
        · exact other (beq_iff_eq.2 same.symm)
        · exact ih (List.mem_cons_self ..) inFirst
      · exact ih (List.mem_cons_of_mem _ inside)

namespace Path

theorem slash_not_mem_names (path : String) : ∀ name ∈ names path, '/' ∉ name.toList := by
  intro name member
  obtain ⟨piece, cut, rfl⟩ := List.mem_map.1 member
  rw [String.toList_ofList]
  exact not_mem_of_mem_splitOn cut

theorem names_intercalate {pieces : List String} (nonempty : pieces ≠ [])
    (absent : ∀ name ∈ pieces, '/' ∉ name.toList) : names ("/".intercalate pieces) = pieces := by
  have cut : (['/'].intercalate (pieces.map String.toList)).splitOn '/' =
      pieces.map String.toList :=
    List.splitOn_intercalate '/' (by simpa using absent) (by simpa using nonempty)
  rw [names, String.toList_intercalate, show "/".toList = ['/'] from rfl, cut]
  simp [Function.comp_def]

theorem filter_dropIdleEnd (pieces : List String) :
    (dropIdleEnd pieces).filter (fun name => !isIdle name) =
      pieces.filter fun name => !isIdle name := by
  have reversed : ∀ pieces : List String,
      (pieces.dropWhile isIdle).filter (fun name => !isIdle name) =
        pieces.filter fun name => !isIdle name := by
    intro pieces
    induction pieces with
    | nil => rfl
    | cons name rest ih =>
      by_cases idle : isIdle name = true <;> simp [idle, ih]
  rw [dropIdleEnd, List.filter_reverse, reversed, List.filter_reverse, List.reverse_reverse]

theorem mem_of_mem_dropIdleEnd (member : name ∈ dropIdleEnd pieces) : name ∈ pieces := by
  have inside := List.mem_reverse.1 member
  exact List.mem_reverse.1 ((List.dropWhile_suffix isIdle).mem inside)

theorem dropIdleEnd_append (solid : isIdle name = false) (front : List String) :
    dropIdleEnd (front ++ [name]) = front ++ [name] := by
  simp [dropIdleEnd, solid]

theorem isIdle_of_isName (named : isName name = true) : isIdle name = false := by
  simp only [isName, Bool.and_eq_true] at named
  simpa using named.1.1

-- The names up to the last lead where the steps of the parent lead.
theorem names_eq (named : isName (lastName path) = true) :
    ∃ front, names path = front ++ [lastName path] ∧
      steps (parent path) = front.filter fun name => !isIdle name := by
  have nonempty : names path ≠ [] := by simp [names]
  have solid := isIdle_of_isName named
  have last : lastName path = (names path).getLast nonempty := by
    rw [lastName, List.getLast?_eq_some_getLast nonempty, Option.getD_some]
  have split : names path = (names path).dropLast ++ [lastName path] := by
    rw [last, List.dropLast_concat_getLast]
  refine ⟨_, split, ?_⟩
  have folded : parent path = "/".intercalate (dropIdleEnd (names path).dropLast) := by
    have whole : dropIdleEnd (names path) = names path := by
      rw [split]
      exact dropIdleEnd_append solid _
    rw [parent, whole]
  rw [steps, folded]
  by_cases atTop : dropIdleEnd (names path).dropLast = []
  · rw [atTop, ← filter_dropIdleEnd (names path).dropLast, atTop]
    rfl
  · have absent : ∀ name ∈ dropIdleEnd (names path).dropLast, '/' ∉ name.toList :=
      fun name member => slash_not_mem_names path name
        (List.dropLast_subset _ (mem_of_mem_dropIdleEnd member))
    rw [names_intercalate atTop absent, filter_dropIdleEnd]

theorem names_join (plain : '/' ∉ name.toList) (base : String) :
    (∃ front, names base = front ++ [""] ∧ names (join base name) = front ++ [name]) ∨
      names (join base name) = names base ++ [name] := by
  have relative : isAbsolute name = false :=
    decide_eq_false fun starts => plain (List.mem_of_mem_head? starts)
  have alone : name.toList.splitOn '/' = [name.toList] := List.splitOn_eq_singleton plain
  simp only [join, relative, Bool.false_eq_true, if_false]
  by_cases start : base = ""
  · subst start
    exact .inl ⟨[], rfl, by simp [names, alone]⟩
  · by_cases closed : base.toList.getLast? = some '/'
    · obtain ⟨front, whole⟩ := List.getLast?_eq_some_iff.1 closed
      refine .inl ⟨(front.splitOn '/').map String.ofList, ?_, ?_⟩
      · simp [names, whole, List.splitOn_append_cons_self]
      · simp [names, start, whole, List.splitOn_append_cons_self, alone]
    · refine .inr ?_
      simp [names, start, closed, List.splitOn_append_cons_self, alone]

theorem lastName_join (plain : '/' ∉ name.toList) (base : String) :
    lastName (join base name) = name := by
  rcases names_join plain base with ⟨front, -, joined⟩ | joined <;> simp [lastName, joined]

theorem steps_join (plain : '/' ∉ name.toList) (solid : isIdle name = false) (base : String) :
    steps (join base name) = steps base ++ [name] := by
  rcases names_join plain base with ⟨front, own, joined⟩ | joined
  · have empty : isIdle "" = true := rfl
    simp [steps, own, joined, solid, empty]
  · simp [steps, joined, solid]

theorem isAbsolute_join (absolute : isAbsolute base = true) (path : String) :
    isAbsolute (join base path) = true := by
  have starts : base.toList.head? = some '/' := of_decide_eq_true absolute
  unfold join
  split
  · assumption
  · split <;> simp [isAbsolute, starts]

theorem isAbsolute_join_plain (plain : '/' ∉ name.toList) (named : base ≠ "") :
    isAbsolute (join base name) = isAbsolute base := by
  have relative : isAbsolute name = false :=
    decide_eq_false fun starts => plain (List.mem_of_mem_head? starts)
  obtain ⟨c, rest, whole⟩ : ∃ c rest, base.toList = c :: rest := by
    cases chars : base.toList with
    | nil => exact absurd (String.toList_eq_nil_iff.1 chars) named
    | cons c rest => exact ⟨c, rest, rfl⟩
  simp only [join, relative, Bool.false_eq_true, if_false]
  split <;> simp [isAbsolute, whole]

end Path

end VisualNovel

namespace VisualNovel.Template

-- The line up to the next `>`, and the text behind it.
def untilClose : List Char → Option (List Char × List Char)
  | [] => none
  | c :: rest =>
    if c = '>' then some ([], rest)
    else if c = '\n' then none
    else match untilClose rest with
      | some (key, behind) => some (c :: key, behind)
      | none => none

-- The key of a placeholder whose `<` has been read. It may begin with any character of the line.
def keyAfterOpen : List Char → Option (List Char × List Char)
  | [] => none
  | c :: rest =>
    if c = '\n' then none
    else match untilClose rest with
      | some (key, behind) => some (c :: key, behind)
      | none => none

theorem untilClose_length (found : untilClose text = some (key, behind)) :
    behind.length < text.length := by
  induction text generalizing key with
  | nil => simp [untilClose] at found
  | cons c rest ih =>
    unfold untilClose at found
    split at found
    · cases found; simp
    · split at found
      · cases found
      · split at found
        · rename_i inner further equal
          cases found
          exact Nat.lt_succ_of_lt (ih equal)
        · cases found

theorem keyAfterOpen_length (found : keyAfterOpen text = some (key, behind)) :
    behind.length < text.length := by
  cases text with
  | nil => simp [keyAfterOpen] at found
  | cons c rest =>
    simp only [keyAfterOpen] at found
    split at found
    · cases found
    · split at found
      · rename_i inner further equal
        cases found
        exact Nat.lt_succ_of_lt (untilClose_length equal)
      · cases found

def line (text : List Char) : List Char := text.takeWhile (· ≠ '\n')

def behindLine (text : List Char) : List Char := text.dropWhile (· ≠ '\n')

theorem behindLine_length (text : List Char) : (behindLine text).length ≤ text.length :=
  (List.dropWhile_sublist _).length_le

inductive Piece where
  | literal (c : Char)
  | placeholder (key : List Char)
deriving DecidableEq

def Piece.raw : Piece → List Char
  | .literal c => [c]
  | .placeholder key => '<' :: (key ++ ['>'])

def Piece.isPlaceholder : Piece → Bool
  | .literal _ => false
  | .placeholder _ => true

-- A `<` that opens no placeholder leaves none to be opened on its line.
def pieces (text : List Char) : List Piece :=
  match text with
  | [] => []
  | c :: rest =>
    if c = '<' then
      match _found : keyAfterOpen rest with
      | some (key, behind) => .placeholder key :: pieces behind
      | none => .literal c :: ((line rest).map .literal ++ pieces (behindLine rest))
    else .literal c :: pieces rest
termination_by text.length
decreasing_by
  · exact Nat.lt_succ_of_lt (keyAfterOpen_length _found)
  · exact Nat.lt_succ_of_le (behindLine_length rest)
  · exact Nat.lt_succ_self _

theorem untilClose_tail (notNewline : c ≠ '\n') (notFound : untilClose (c :: rest) = none) :
    untilClose rest = none := by
  unfold untilClose at notFound
  split at notFound
  · cases notFound
  · split at notFound
    · cases notFound
    · assumption

theorem keyAfterOpen_eq_none (notFound : untilClose text = none) : keyAfterOpen text = none := by
  cases text with
  | nil => rfl
  | cons c rest =>
    by_cases newline : c = '\n'
    · simp [keyAfterOpen, newline]
    · simp [keyAfterOpen, untilClose_tail newline notFound]

theorem pieces_cons (c : Char) (noKey : keyAfterOpen rest = none)
    (inLine : pieces rest = (line rest).map .literal ++ pieces (behindLine rest)) :
    pieces (c :: rest) = .literal c :: pieces rest := by
  rw [pieces]
  split
  · split
    · simp_all
    · rw [inLine]
  · rfl

theorem pieces_of_untilClose (notFound : untilClose text = none) :
    pieces text = (line text).map .literal ++ pieces (behindLine text) := by
  induction text with
  | nil => simp [line, behindLine]
  | cons c rest ih =>
    by_cases newline : c = '\n'
    · simp [line, behindLine, newline]
    · have notFound := untilClose_tail newline notFound
      rw [pieces_cons c (keyAfterOpen_eq_none notFound) (ih notFound), ih notFound]
      simp [line, behindLine, newline]

theorem pieces_open_of_no_key (noKey : keyAfterOpen rest = none) :
    pieces ('<' :: rest) = .literal '<' :: pieces rest := by
  apply pieces_cons '<' noKey
  cases rest with
  | nil => simp [line, behindLine]
  | cons c rest =>
    by_cases newline : c = '\n'
    · simp [line, behindLine, newline]
    · have notFound : untilClose rest = none := by
        simp only [keyAfterOpen, if_neg newline] at noKey
        split at noKey
        · cases noKey
        · assumption
      rw [pieces_cons c (keyAfterOpen_eq_none notFound) (pieces_of_untilClose notFound),
        pieces_of_untilClose notFound]
      simp [line, behindLine, newline]

theorem pieces_any_isPlaceholder_eq_false (noOpen : '<' ∉ text) :
    (pieces text).any Piece.isPlaceholder = false := by
  induction text with
  | nil => simp [pieces]
  | cons c rest ih =>
    have step : pieces (c :: rest) = .literal c :: pieces rest := by
      rw [pieces, if_neg (fun equal => noOpen (by simp [equal]))]
    rw [step, List.any_cons, ih fun found => noOpen (List.mem_cons_of_mem c found)]
    rfl

def Piece.fill (lookup : String → Option String) : Piece → String
  | .literal c => c.toString
  | .placeholder key =>
    (lookup (String.ofList key)).getD (String.ofList (Piece.placeholder key).raw)

def render (lookup : String → Option String) (template : String) : String :=
  String.join ((pieces template.toList).map (Piece.fill lookup))

-- A text is only taken apart if it has a `<` at all.
def hasPlaceholder (text : String) : Bool :=
  text.contains '<' && (pieces text.toList).any Piece.isPlaceholder

theorem hasPlaceholder_eq (text : String) :
    hasPlaceholder text = (pieces text.toList).any Piece.isPlaceholder := by
  by_cases found : '<' ∈ text.toList
  · simp [hasPlaceholder, String.contains_char_eq, found]
  · simp [hasPlaceholder, String.contains_char_eq, found, pieces_any_isPlaceholder_eq_false found]

end VisualNovel.Template

import VisualNovel.Proofs.Template.Leftmost
import VisualNovel.Store

namespace VisualNovel

namespace Template

-- A `<` that opens nothing, with no end of a line behind it.
def HangsOpen (own : List Piece) : Prop :=
  ∃ (earlier : List Piece) (inner : List Char),
    own = earlier ++ .literal '<' :: inner.map .literal ∧ '\n' ∉ inner

def LeavesOpen (text : String) : Prop := ∃ own, Cut text.toList own ∧ HangsOpen own

structure IsKey (key : String) : Prop where
  nonempty : key ≠ ""
  noOpen : '<' ∉ key.toList
  noClose : '>' ∉ key.toList
  oneLine : '\n' ∉ key.toList

variable {text rest key behind first inner : List Char} {later : List Piece} {c : Char}
  {lookup : String → Option String}

theorem untilClose_eq_some_iff : untilClose text = some (key, behind) ↔
    text = key ++ '>' :: behind ∧ '\n' ∉ key ∧ '>' ∉ key := by
  constructor
  · intro found
    obtain ⟨spelled, oneLine⟩ := untilClose_eq_some found
    refine ⟨spelled, oneLine, fun closes => ?_⟩
    obtain ⟨start, further, rfl⟩ := List.append_of_mem closes
    have shorter : '\n' ∉ start := fun member => oneLine (List.mem_append_left _ member)
    obtain ⟨other, _, others, least⟩ := exists_untilClose shorter (further ++ '>' :: behind)
    rw [spelled, List.append_assoc, List.cons_append, others] at found
    cases found
    simp only [List.length_append, List.length_cons] at least
    omega
  · rintro ⟨rfl, oneLine, noClose⟩
    induction key with
    | nil => simp [untilClose]
    | cons c key ih =>
      obtain ⟨inLine, oneLine⟩ := not_or.1 (mt List.mem_cons.2 oneLine)
      obtain ⟨notClose, noClose⟩ := not_or.1 (mt List.mem_cons.2 noClose)
      simp [untilClose, Ne.symm notClose, Ne.symm inLine, ih oneLine noClose]

theorem keyAfterOpen_eq_some_iff : keyAfterOpen text = some (key, behind) ↔
    text = key ++ '>' :: behind ∧ key ≠ [] ∧ '\n' ∉ key ∧ '>' ∉ key.tail := by
  cases text with
  | nil => simp [keyAfterOpen]
  | cons c rest =>
    cases key with
    | nil =>
      simp only [keyAfterOpen, ne_eq, not_true, false_and, and_false, iff_false]
      split
      · simp
      · split <;> simp
    | cons d key =>
      constructor
      · intro found
        obtain ⟨spelled, nonempty, oneLine⟩ := keyAfterOpen_eq_some found
        refine ⟨(List.cons.inj spelled).2, nonempty, oneLine, ?_⟩
        simp only [keyAfterOpen] at found
        split at found
        · cases found
        · split at found
          · rename_i closed
            cases found
            exact (untilClose_eq_some_iff.1 closed).2.2
          · cases found
      · rintro ⟨spelled, -, oneLine, noClose⟩
        obtain ⟨inLine, inKey⟩ := not_or.1 (mt List.mem_cons.2 oneLine)
        cases spelled
        have closed : untilClose (key ++ '>' :: behind) = some (key, behind) :=
          untilClose_eq_some_iff.2 ⟨rfl, inKey, noClose⟩
        simp [keyAfterOpen, Ne.symm inLine, closed]

theorem keyAfterOpen_append (found : keyAfterOpen text = some (key, behind))
    (more : List Char) : keyAfterOpen (text ++ more) = some (key, behind ++ more) := by
  obtain ⟨rfl, limits⟩ := keyAfterOpen_eq_some_iff.1 found
  exact keyAfterOpen_eq_some_iff.2 ⟨by simp, limits⟩

theorem keyAfterOpen_eq_none_of_append (notFound : keyAfterOpen (text ++ rest) = none) :
    keyAfterOpen text = none := by
  cases found : keyAfterOpen text with
  | none => rfl
  | some opened => cases notFound.symm.trans (keyAfterOpen_append found rest)

theorem keyAfterOpen_append_eq_none (notFound : keyAfterOpen text = none) (ends : '\n' ∈ text)
    (more : List Char) : keyAfterOpen (text ++ more) = none := by
  cases found : keyAfterOpen (text ++ more) with
  | none => rfl
  | some opened =>
    obtain ⟨key, behind⟩ := opened
    obtain ⟨spelled, nonempty, oneLine, noClose⟩ := keyAfterOpen_eq_some_iff.1 found
    obtain ⟨further, rfl, -⟩ | ⟨further, rfl, whole⟩ := List.append_eq_append_iff.1 spelled
    · exact absurd (List.mem_append_left _ ends) oneLine
    · cases further with
      | nil => exact absurd (by simpa using ends) oneLine
      | cons d further =>
        cases whole
        cases notFound.symm.trans (keyAfterOpen_eq_some_iff.2 ⟨rfl, nonempty, oneLine, noClose⟩)

theorem pieces_opened (found : keyAfterOpen text = some (key, behind)) :
    pieces ('<' :: text) = .placeholder key :: pieces behind :=
  pieces_of_opens (opens_of_keyAfterOpen found)

theorem pieces_plain (opensNone : c = '<' → keyAfterOpen rest = none) :
    pieces (c :: rest) = .literal c :: pieces rest := by
  by_cases bracket : c = '<'
  · subst bracket
    exact pieces_open_of_no_key (opensNone rfl)
  · rw [pieces, if_neg bracket]

-- A text is read one placeholder or one other character at a time.
@[elab_as_elim]
theorem scanning {motive : List Char → Prop} (nil : motive [])
    (opened : ∀ text key behind, keyAfterOpen text = some (key, behind) → motive behind →
      motive ('<' :: text))
    (plain : ∀ c rest, (c = '<' → keyAfterOpen rest = none) → motive rest → motive (c :: rest))
    (text : List Char) : motive text := by
  induction length : text.length using Nat.strongRecOn generalizing text with
  | ind n ih =>
    cases text with
    | nil => exact nil
    | cons c rest =>
      have shorter : rest.length < n := length ▸ Nat.lt_succ_self _
      by_cases bracket : c = '<'
      · subst bracket
        cases found : keyAfterOpen rest with
        | none => exact plain _ _ (fun _ => found) (ih _ shorter rest rfl)
        | some key =>
          have further := Nat.lt_trans (keyAfterOpen_length found) shorter
          exact opened _ _ _ found (ih _ further _ rfl)
      · exact plain _ _ (fun same => absurd same bracket) (ih _ shorter rest rfl)

theorem raw_pieces (text : List Char) : (pieces text).flatMap Piece.raw = text :=
  raw_of_cut (cut_pieces text)

theorem leavesOpen_iff {text : String} : LeavesOpen text ↔ HangsOpen (pieces text.toList) := by
  constructor
  · rintro ⟨own, cut, hangs⟩
    exact pieces_of_cut cut ▸ hangs
  · exact fun hangs => ⟨_, cut_pieces _, hangs⟩

theorem not_hangsOpen_nil : ¬ HangsOpen [] := by
  rintro ⟨earlier, inner, own, -⟩
  cases earlier <;> cases own

theorem hangsOpen_placeholder_cons :
    HangsOpen (.placeholder key :: later) ↔ HangsOpen later := by
  constructor
  · rintro ⟨earlier, inner, own, oneLine⟩
    cases earlier with
    | nil => cases own
    | cons head earlier => exact ⟨earlier, inner, (List.cons.inj own).2, oneLine⟩
  · rintro ⟨earlier, inner, rfl, oneLine⟩
    exact ⟨.placeholder key :: earlier, inner, rfl, oneLine⟩

-- In a line without key the closing bracket can only stand where a key would begin.
theorem noClose_of_keyAfterOpen_eq_none (notFound : keyAfterOpen text = none)
    (oneLine : '\n' ∉ text) : '>' ∉ text.tail := by
  intro closes
  cases text with
  | nil => cases closes
  | cons c rest =>
    obtain ⟨start, further, rfl⟩ := List.append_of_mem closes
    have inLine : '\n' ∉ c :: start := fun member => oneLine (List.mem_append_left _ member)
    have spells : Spells ('<' :: c :: (start ++ '>' :: further)) (c :: start) further :=
      ⟨rfl, List.cons_ne_nil _ _, inLine⟩
    obtain ⟨_, _, found, -⟩ := exists_keyAfterOpen spells
    cases notFound.symm.trans found

theorem pieces_of_noClose (noClose : '>' ∉ text.tail) : pieces text = text.map .literal := by
  induction text using scanning with
  | nil => simp [pieces]
  | opened text key behind found ih =>
    obtain ⟨rfl, -⟩ := keyAfterOpen_eq_some_iff.1 found
    exact absurd (by simp) noClose
  | plain c rest opensNone ih =>
    rw [pieces_plain opensNone, ih fun closes => noClose (List.mem_of_mem_tail closes)]
    rfl

theorem hangsOpen_cons_iff (opensNone : c = '<' → keyAfterOpen rest = none) :
    HangsOpen (pieces (c :: rest)) ↔ c = '<' ∧ '\n' ∉ rest ∨ HangsOpen (pieces rest) := by
  rw [pieces_plain opensNone]
  constructor
  · rintro ⟨earlier, inner, own, oneLine⟩
    cases earlier with
    | nil =>
      obtain ⟨bracket, behind⟩ := List.cons.inj own
      have same : rest = inner := by rw [← raw_pieces rest, behind, raw_literals]
      exact .inl ⟨Piece.literal.inj bracket, same ▸ oneLine⟩
    | cons head earlier => exact .inr ⟨earlier, inner, (List.cons.inj own).2, oneLine⟩
  · rintro (⟨rfl, oneLine⟩ | ⟨earlier, inner, own, oneLine⟩)
    · have noClose := noClose_of_keyAfterOpen_eq_none (opensNone rfl) oneLine
      exact ⟨[], rest, by rw [pieces_of_noClose noClose]; rfl, oneLine⟩
    · exact ⟨.literal c :: earlier, inner, by rw [own]; rfl, oneLine⟩

theorem pieces_append_placeholder (closed : ¬ HangsOpen (pieces text))
    (found : keyAfterOpen rest = some (key, behind)) :
    pieces (text ++ '<' :: rest) = pieces text ++ .placeholder key :: pieces behind := by
  induction text using scanning with
  | nil => rw [List.nil_append, pieces_opened found, pieces, List.nil_append]
  | opened text own further opens ih =>
    rw [pieces_opened opens, hangsOpen_placeholder_cons] at closed
    rw [List.cons_append, pieces_opened (keyAfterOpen_append opens _), ih closed,
      pieces_opened opens, List.cons_append]
  | plain c inner opensNone ih =>
    obtain ⟨ends, closed⟩ := not_or.1 (mt (hangsOpen_cons_iff opensNone).2 closed)
    have opensNone' : c = '<' → keyAfterOpen (inner ++ '<' :: rest) = none := by
      intro bracket
      have newline : '\n' ∈ inner := by
        by_contra oneLine
        exact ends ⟨bracket, oneLine⟩
      exact keyAfterOpen_append_eq_none (opensNone bracket) newline _
    rw [List.cons_append, pieces_plain opensNone', ih closed, pieces_plain opensNone,
      List.cons_append]

-- The first bracket that a text leaves open, behind `first`.
structure FirstHanging (text first inner : List Char) : Prop where
  own : pieces text = pieces first ++ .literal '<' :: inner.map .literal
  closed : ¬ HangsOpen (pieces first)
  oneLine : '\n' ∉ inner
  noClose : '>' ∉ inner.tail

theorem FirstHanging.split (hanging : FirstHanging text first inner) :
    text = first ++ '<' :: inner := by
  rw [← raw_pieces text, hanging.own, List.flatMap_append, List.flatMap_cons, raw_pieces,
    raw_literals]
  rfl

-- Either the first bracket of the text hangs, or one does behind the piece that it begins with.
theorem exists_firstHanging (hangs : HangsOpen (pieces text)) :
    ∃ first inner, FirstHanging text first inner := by
  induction text using scanning with
  | nil => exact absurd (by simpa [pieces] using hangs) not_hangsOpen_nil
  | opened text key behind found ih =>
    rw [pieces_opened found, hangsOpen_placeholder_cons] at hangs
    obtain ⟨first, inner, hanging⟩ := ih hangs
    obtain ⟨-, limits⟩ := keyAfterOpen_eq_some_iff.1 found
    have opened : pieces ('<' :: (key ++ '>' :: first)) = .placeholder key :: pieces first :=
      pieces_opened (keyAfterOpen_eq_some_iff.2 ⟨rfl, limits⟩)
    refine ⟨'<' :: (key ++ '>' :: first), inner, ?_, ?_, hanging.oneLine, hanging.noClose⟩
    · rw [pieces_opened found, hanging.own, opened, List.cons_append]
    · rw [opened, hangsOpen_placeholder_cons]
      exact hanging.closed
  | plain c rest opensNone ih =>
    by_cases here : c = '<' ∧ '\n' ∉ rest
    · obtain ⟨rfl, oneLine⟩ := here
      have noClose := noClose_of_keyAfterOpen_eq_none (opensNone rfl) oneLine
      refine ⟨[], rest, ?_, by simpa [pieces] using not_hangsOpen_nil, oneLine, noClose⟩
      rw [pieces_plain opensNone, pieces_of_noClose noClose, pieces, List.nil_append]
    · obtain ⟨first, inner, hanging⟩ :=
        ih (((hangsOpen_cons_iff opensNone).1 hangs).resolve_left here)
      have opensNone' : c = '<' → keyAfterOpen first = none := fun bracket =>
        keyAfterOpen_eq_none_of_append (hanging.split ▸ opensNone bracket)
      refine ⟨c :: first, inner, ?_, ?_, hanging.oneLine, hanging.noClose⟩
      · rw [pieces_plain opensNone, hanging.own, pieces_plain opensNone', List.cons_append]
      · rw [hangsOpen_cons_iff opensNone']
        rintro (⟨rfl, oneLine⟩ | further)
        · refine here ⟨rfl, fun newline => ?_⟩
          rw [hanging.split] at newline
          simp [oneLine, hanging.oneLine] at newline
        · exact hanging.closed further

theorem not_leavesOpen_line (text : String) : ¬ LeavesOpen (text ++ "\n") := by
  rw [leavesOpen_iff]
  rintro ⟨earlier, inner, own, oneLine⟩
  have raw := congrArg (List.flatMap Piece.raw) own
  rw [raw_pieces, List.flatMap_append, List.flatMap_cons, raw_literals, String.toList_append,
    ← List.append_assoc, show "\n".toList = ['\n'] from rfl] at raw
  obtain rfl | ⟨start, last, rfl⟩ := List.eq_nil_or_concat inner
  · rw [List.append_nil] at raw
    cases (List.append_inj' raw rfl).2
  · rw [List.concat_eq_append, ← List.append_assoc] at raw
    obtain ⟨-, same⟩ := List.append_inj' raw rfl
    exact oneLine (by rw [← (List.cons.inj same).1]; simp)

theorem render_literals (text : List Char) :
    String.join ((text.map Piece.literal).map (Piece.fill lookup)) = String.ofList text := by
  rw [List.map_map, ← List.flatMap_singleton' text]
  simp [← String.toList_inj, List.flatMap_map, Piece.fill]

theorem render_around {before key after : String} (closed : ¬ LeavesOpen before)
    (nonempty : key.toList ≠ []) (oneLine : '\n' ∉ key.toList)
    (noClose : '>' ∉ key.toList.tail) :
    render lookup (before ++ "<" ++ key ++ ">" ++ after) =
      render lookup before ++ (lookup key).getD ("<" ++ key ++ ">") ++ render lookup after := by
  have found : keyAfterOpen (key.toList ++ '>' :: after.toList) = some (key.toList, after.toList) :=
    keyAfterOpen_eq_some_iff.2 ⟨rfl, nonempty, oneLine, noClose⟩
  have cut := pieces_append_placeholder (mt leavesOpen_iff.2 closed) found
  have text : (before ++ "<" ++ key ++ ">" ++ after).toList =
      before.toList ++ '<' :: (key.toList ++ '>' :: after.toList) := by simp
  have raw : String.ofList (Piece.placeholder key.toList).raw = "<" ++ key ++ ">" := by
    simp [Piece.raw, ← String.toList_inj]
  have filled : (Piece.placeholder key.toList).fill lookup =
      (lookup key).getD ("<" ++ key ++ ">") := by
    rw [Piece.fill, String.ofList_toList, raw]
  rw [render, render, render, text, cut, List.map_append, List.map_cons, filled, String.join_append,
    String.append_assoc]
  simp [← String.toList_inj]

theorem render_hanging {before : String} (hanging : FirstHanging before.toList first inner) :
    render lookup before =
      render lookup (String.ofList first) ++ "<" ++ String.ofList inner := by
  rw [render, render, String.toList_ofList, hanging.own, List.map_append, String.join_append,
    List.map_cons, String.join_cons, render_literals, ← String.append_assoc]
  rfl

theorem FirstHanging.limits {key : String} (hanging : FirstHanging text first inner)
    (isKey : IsKey key) : '\n' ∉ (String.ofList inner ++ "<" ++ key).toList ∧
      '>' ∉ (String.ofList inner ++ "<" ++ key).toList.tail := by
  constructor
  · simp [hanging.oneLine, isKey.oneLine]
  · cases inner with
    | nil => simpa using isKey.noClose
    | cons c inner =>
      have noClose : '>' ∉ inner := hanging.noClose
      simp [noClose, isKey.noClose]

end Template

namespace Stores

open Template

-- A bracket that is left open takes along the key that begins behind it.
structure Captures (before first inner : String) : Prop where
  split : before = first ++ "<" ++ inner
  closed : ¬ LeavesOpen first
  shown (stores : Stores) :
    stores.renderText (some before) = stores.renderText (some first) ++ "<" ++ inner
  taken (stores : Stores) (key after : String) (isKey : IsKey key) :
    stores.renderText (some (before ++ "<" ++ key ++ ">" ++ after)) =
      stores.renderText (some first) ++
        ((stores.lookup (inner ++ "<" ++ key)).map Value.spoken).getD
          ("<" ++ (inner ++ "<" ++ key) ++ ">") ++
        stores.renderText (some after)

theorem exists_captures {before : String} (hangs : LeavesOpen before) :
    ∃ first inner, Captures before first inner := by
  obtain ⟨first, inner, hanging⟩ := exists_firstHanging (leavesOpen_iff.1 hangs)
  have closed : ¬ LeavesOpen (String.ofList first) := by
    rw [leavesOpen_iff, String.toList_ofList]
    exact hanging.closed
  refine ⟨String.ofList first, String.ofList inner, ?_, closed, ?_, ?_⟩
  · simp [← String.toList_inj, hanging.split]
  · exact fun stores => render_hanging hanging
  · intro stores key after isKey
    obtain ⟨oneLine, noClose⟩ := hanging.limits isKey
    have text : before ++ "<" ++ key ++ ">" ++ after =
        String.ofList first ++ "<" ++ (String.ofList inner ++ "<" ++ key) ++ ">" ++ after := by
      simp [← String.toList_inj, hanging.split]
    rw [text]
    exact render_around closed (by simp) oneLine noClose

theorem renderText_around {before key : String} (closed : ¬ LeavesOpen before) (isKey : IsKey key)
    (stores : Stores) (known : stores.lookup key = some value) (after : String) :
    stores.renderText (some (before ++ "<" ++ key ++ ">" ++ after)) =
      stores.renderText (some before) ++ value.spoken ++ stores.renderText (some after) := by
  have noClose : '>' ∉ key.toList.tail := fun closes => isKey.noClose (List.mem_of_mem_tail closes)
  have around : stores.renderText (some (before ++ "<" ++ key ++ ">" ++ after)) =
      stores.renderText (some before) ++
        ((stores.lookup key).map Value.spoken).getD ("<" ++ key ++ ">") ++
        stores.renderText (some after) :=
    render_around closed (by simpa using isKey.nonempty) isKey.oneLine noClose
  rwa [known] at around

theorem renderText_plain (stores : Stores) (text : String)
    (plain : (pieces text.toList).any Piece.isPlaceholder = false) :
    stores.renderText (some text) = text := by
  refine render_of_unknown fun key member => ?_
  cases List.any_eq_false.1 plain _ member rfl

def knowing (key : String) (value : Value) : Stores :=
  ⟨Dict.empty.insert key value, .empty, .standard⟩

theorem lookup_knowing (key : String) (value : Value) :
    (knowing key value).lookup key = some value := by
  rw [lookup, knowing, Dict.get?_insert_self]

theorem lookup_knowing_of_ne (different : other ≠ key) (value : Value) :
    (knowing key value).lookup other = none := by
  rw [lookup, knowing, Dict.get?_insert_of_ne _ _ different, Dict.get?_empty]
  simp [LocalStore.get?, LocalStore.empty, LocalStore.unlockedValue?]

theorem isKey_name : IsKey "name" := ⟨by decide, by decide, by decide, by decide⟩

theorem known_key_filled_iff (before : String) :
    ((∀ (stores : Stores) (key after : String) (value : Value), IsKey key →
        stores.lookup key = some value →
        stores.renderText (some (before ++ "<" ++ key ++ ">" ++ after)) =
          stores.renderText (some before) ++ value.spoken ++ stores.renderText (some after)) ↔
      ¬ LeavesOpen before) ∧
    (LeavesOpen before → ∃ first inner, Captures before first inner) := by
  refine ⟨⟨fun filled hangs => ?_, fun closed stores key after value isKey known => ?_⟩,
    exists_captures⟩
  · obtain ⟨first, inner, captures⟩ := exists_captures hangs
    have other : inner ++ "<" ++ "name" ≠ "name" := by
      intro same
      have longer := congrArg String.length same
      simp at longer
    have known := lookup_knowing "name" (.text "")
    have unknown := lookup_knowing_of_ne other (.text "")
    have lost := filled _ "name" "" _ isKey_name known
    rw [captures.taken _ _ _ isKey_name, captures.shown, unknown] at lost
    have longer := congrArg List.length (String.toList_inj.2 lost)
    simp [Value.spoken] at longer
    omega
  · exact renderText_around closed isKey stores known after

-- A bracket in the line before, and stray ones behind the key.
theorem known_key_filled_behind_line : ¬ LeavesOpen "1 < 2\n" ∧ IsKey "name" ∧
    (knowing "name" (.text "Ann")).lookup "name" = some (.text "Ann") ∧
    (knowing "name" (.text "Ann")).renderText (some ("1 < 2\n" ++ "<" ++ "name" ++ ">" ++ "> <")) =
      "1 < 2\nAnn> <" := by
  have closed : ¬ LeavesOpen "1 < 2\n" := not_leavesOpen_line "1 < 2"
  have known := lookup_knowing "name" (.text "Ann")
  have filled := (known_key_filled_iff "1 < 2\n").1.2 closed _ "name" "> <" _ isKey_name known
  rw [renderText_plain _ "1 < 2\n" (by decide +kernel),
    renderText_plain _ "> <" (by decide +kernel)] at filled
  exact ⟨closed, isKey_name, known, filled⟩

theorem known_key_lost_behind_bracket :
    ¬ ∀ (stores : Stores) (before key after : String) (value : Value), IsKey key →
      stores.lookup key = some value →
      stores.renderText (some (before ++ "<" ++ key ++ ">" ++ after)) =
        stores.renderText (some before) ++ value.spoken ++ stores.renderText (some after) := by
  intro filled
  have claimed := filled _ "1 < 2, " "name" "" _ isKey_name (lookup_knowing "name" (.text "Ann"))
  have shown : (knowing "name" (.text "Ann")).renderText (some "1 < 2, <name>") =
      "1 < 2, <name>" := by
    have own : pieces "1 < 2, <name>".toList =
        "1 ".toList.map .literal ++ [.placeholder " 2, <name".toList] := by cbv
    refine render_of_unknown fun key member => ?_
    rw [own] at member
    obtain rfl : key = " 2, <name".toList := by simpa using member
    rw [lookup_knowing_of_ne (by decide), Option.map_none]
  rw [renderText_plain _ "1 < 2, " (by decide +kernel),
    renderText_plain _ "" (by decide +kernel)] at claimed
  exact absurd (shown.symm.trans claimed) (by decide)

end Stores

end VisualNovel

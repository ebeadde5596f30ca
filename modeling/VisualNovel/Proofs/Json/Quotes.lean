import VisualNovel.Proofs.Json.RoundTrip
import Mathlib.Data.List.TakeWhile

namespace VisualNovel.Json

-- The text behind the quote that closes a string; what is escaped is passed over.
def behindQuote : List Char → Option (List Char)
  | [] => none
  | '"' :: rest => some rest
  | '\\' :: _ :: rest => behindQuote rest
  | _ :: rest => behindQuote rest

variable {text rest front back read label : List Char} {c : Char} {shown other : String}

theorem behindQuote_plain (noQuote : c ≠ '"') (noEscape : c ≠ '\\') (rest : List Char) :
    behindQuote (c :: rest) = behindQuote rest := by
  rw [behindQuote]
  · exact fun same => absurd same noQuote
  · exact fun _ _ same => absurd same noEscape

theorem plain_of_hexDigit? (digit : hexDigit? c = some n) : c ≠ '"' ∧ c ≠ '\\' := by
  constructor
  · rintro rfl
    cases digit
  · rintro rfl
    cases digit

theorem behindQuote_hexWord? (word : hexWord? a b c d = some unit) (rest : List Char) :
    behindQuote ('\\' :: 'u' :: a :: b :: c :: d :: rest) = behindQuote rest := by
  simp only [hexWord?, Option.bind_eq_bind, Option.bind_eq_some_iff] at word
  obtain ⟨_, first, _, second, _, third, _, fourth, -⟩ := word
  rw [behindQuote, behindQuote_plain (plain_of_hexDigit? first).1 (plain_of_hexDigit? first).2,
    behindQuote_plain (plain_of_hexDigit? second).1 (plain_of_hexDigit? second).2,
    behindQuote_plain (plain_of_hexDigit? third).1 (plain_of_hexDigit? third).2,
    behindQuote_plain (plain_of_hexDigit? fourth).1 (plain_of_hexDigit? fourth).2]

theorem keep_eq_some {result : Option (List Char × List Char)}
    (kept : keep c result = some (read, rest)) : ∃ further, result = some (further, rest) := by
  unfold keep at kept
  split at kept
  · rename_i further _
    cases kept
    exact ⟨further, rfl⟩
  · cases kept

-- One case for each way in which the reader goes on; in the others it has refused the string.
theorem behindQuote_of_readString (found : readString text = some (read, rest)) :
    behindQuote text = some rest := by
  fun_induction readString text generalizing read with
  | case2 => cases found; rfl
  | case5 a b c d e f g h behind _ first _ _ second _ ih =>
    obtain ⟨further, found⟩ := keep_eq_some found
    rw [behindQuote_hexWord? first, behindQuote_hexWord? second, ih found]
  | case8 a b c d e f g h behind _ first _ _ ih =>
    obtain ⟨further, found⟩ := keep_eq_some found
    rw [behindQuote_hexWord? first, ih found]
  | case11 a b c d behind _ _ first _ ih =>
    obtain ⟨further, found⟩ := keep_eq_some found
    rw [behindQuote_hexWord? first, ih found]
  | case13 c behind _ _ _ _ ih =>
    obtain ⟨further, found⟩ := keep_eq_some found
    rw [behindQuote, ih found]
  | case15 c behind noQuote _ _ _ visible ih =>
    obtain ⟨further, found⟩ := keep_eq_some found
    have noEscape : c ≠ '\\' := by simp_all
    rw [behindQuote_plain noQuote noEscape, ih found]
  | _ => cases found

-- A quote behind any other character than a backslash closes the string, if none has before it.
theorem suffix_of_behindQuote (noEscape : c ≠ '\\')
    (found : behindQuote (front ++ c :: '"' :: back) = some rest) : back <:+ rest := by
  induction front using behindQuote.induct generalizing rest with
  | case1 =>
    by_cases quote : c = '"'
    · subst quote
      cases found
      exact List.suffix_cons _ _
    · rw [List.nil_append, behindQuote_plain quote noEscape] at found
      cases found
      exact List.suffix_refl _
  | case2 more =>
    cases found
    exact (List.suffix_cons _ _).trans ((List.suffix_cons _ _).trans (List.suffix_append _ _))
  | case3 escaped more ih => exact ih found
  | case4 d more noQuote single ih =>
    by_cases escape : d = '\\'
    · cases more with
      | nil =>
        subst escape
        cases found
        exact List.suffix_refl _
      | cons e more => exact absurd rfl (single e more escape)
    · rw [List.cons_append, behindQuote_plain noQuote escape] at found
      exact ih found

theorem string_of_readValue (found : readValue fuel depth text = some (.string shown, rest)) :
    ∃ quoted, skipLayout text = '"' :: quoted ∧ readString quoted = some (shown.toList, rest) := by
  cases fuel with
  | zero => simp [readValue] at found
  | succ fuel =>
    rw [readValue] at found
    split at found
    case h_4 quoted opened =>
      obtain ⟨⟨read, behind⟩, scanned, same⟩ := Option.map_eq_some_iff.1 found
      cases same
      exact ⟨quoted, opened, by rw [scanned, String.toList_ofList]⟩
    case h_5 =>
      split at found
      · cases found
      · split at found
        · cases found
        · obtain ⟨_, -, same⟩ := Option.map_eq_some_iff.1 found
          cases same
    case h_6 =>
      split at found
      · cases found
      · split at found
        · cases found
        · obtain ⟨_, -, same⟩ := Option.map_eq_some_iff.1 found
          cases same
    case h_7 =>
      obtain ⟨_, -, same⟩ := Option.map_eq_some_iff.1 found
      cases same
    all_goals cases found

theorem string_of_ofChars? (found : ofChars? text = some (.string shown)) :
    ∃ quoted tail, skipLayout text = '"' :: quoted ∧ readString quoted = some (shown.toList, tail) ∧
      skipLayout tail = [] := by
  unfold ofChars? at found
  split at found
  · rename_i value tail read
    split at found
    · rename_i ended
      cases found
      obtain ⟨quoted, opened, scanned⟩ := string_of_readValue read
      exact ⟨quoted, tail, opened, scanned, ended⟩
    · cases found
  · cases found

theorem not_mem_of_skipLayout (ended : skipLayout text = []) (ordinary : isLayout c = false) :
    c ∉ text := by
  intro member
  have layout := List.dropWhile_eq_nil_iff.1 ended c member
  rw [ordinary] at layout
  cases layout

theorem bar_not_inside (written : shown.toList.flatMap escapeChar ++ ['"'] = front ++ '|' :: text) :
    ofChars? text ≠ some (.string other) := by
  intro found
  obtain ⟨quoted, tail, opened, scanned, -⟩ := string_of_ofChars? found
  obtain ⟨before, c, split, noEscape⟩ : ∃ before c,
      '|' :: text.takeWhile isLayout = before ++ [c] ∧ c ≠ '\\' := by
    rcases List.eq_nil_or_concat (text.takeWhile isLayout) with bare | ⟨layout, c, ending⟩
    · exact ⟨[], '|', by rw [bare, List.nil_append], by decide⟩
    · refine ⟨'|' :: layout, c, by rw [ending, List.concat_eq_append, List.cons_append], ?_⟩
      rintro rfl
      have member : '\\' ∈ text.takeWhile isLayout := by simp [ending]
      cases List.mem_takeWhile_imp member
  have text_eq : '|' :: text = before ++ c :: '"' :: quoted := by
    calc
      '|' :: text = '|' :: text.takeWhile isLayout ++ skipLayout text := by
        rw [List.cons_append, skipLayout, List.takeWhile_append_dropWhile]
      _ = before ++ c :: '"' :: quoted := by rw [split, opened]; simp
  have closed : behindQuote (shown.toList.flatMap escapeChar ++ ['"']) = some [] :=
    behindQuote_of_readString (readString_escaped shown.toList [])
  rw [written, text_eq, ← List.append_assoc] at closed
  have nothing := List.suffix_nil.1 (suffix_of_behindQuote noEscape closed)
  rw [nothing] at scanned
  simp [readString] at scanned

theorem bar_not_before (front : List Char) :
    ofChars? (front ++ '|' :: stringText shown) ≠ some (.string other) := by
  intro found
  obtain ⟨quoted, tail, opened, scanned, ended⟩ := string_of_ofChars? found
  obtain ⟨inside, inside_eq⟩ : ∃ inside, quoted = inside ++ '|' :: stringText shown := by
    rw [skipLayout, List.dropWhile_append] at opened
    split at opened
    · cases opened
    · cases kept : front.dropWhile isLayout with
      | nil => simp_all
      | cons c inside =>
        rw [kept] at opened
        cases opened
        exact ⟨inside, rfl⟩
  have behind := behindQuote_of_readString scanned
  rw [inside_eq, stringText] at behind
  have reaches := suffix_of_behindQuote (by decide) behind
  exact not_mem_of_skipLayout (c := '"') ended rfl (reaches.subset (by simp))

theorem ofChars?_stringText (shown : String) : ofChars? (stringText shown) = some (.string shown) := by
  have read := readValue_string (stringText shown).length depthLimit shown []
  rw [List.append_nil] at read
  simp [ofChars?, read, skipLayout]

-- So there is one bar behind which a string stands.
theorem split_at_bar (label text rest : List Char) (shown other : String) :
    (label ++ '|' :: stringText shown = text ++ '|' :: rest ∧ ofChars? rest = some (.string other)) ↔
      text = label ∧ rest = stringText shown ∧ other = shown := by
  constructor
  · rintro ⟨same, found⟩
    rcases List.append_eq_append_iff.1 same with ⟨mid, rfl, behind⟩ | ⟨mid, rfl, behind⟩
    · cases mid with
      | nil =>
        cases behind
        rw [ofChars?_stringText] at found
        cases found
        exact ⟨List.append_nil _, rfl, rfl⟩
      | cons c mid =>
        obtain ⟨-, inside⟩ := List.cons.inj behind
        cases mid with
        | nil => cases (List.cons.inj inside).1
        | cons d mid => exact absurd found (bar_not_inside (List.cons.inj inside).2)
    · cases mid with
      | nil =>
        cases behind
        rw [ofChars?_stringText] at found
        cases found
        exact ⟨(List.append_nil _).symm, rfl, rfl⟩
      | cons c mid =>
        obtain ⟨-, before⟩ := List.cons.inj behind
        rw [before] at found
        exact absurd found (bar_not_before mid)
  · rintro ⟨rfl, rfl, rfl⟩
    exact ⟨rfl, ofChars?_stringText other⟩

theorem newline_not_mem_digits (digits : AllDigits text) : '\n' ∉ text := by
  intro member
  cases digits '\n' member

theorem newline_not_mem_hexPair (n : Nat) : '\n' ∉ hexPair n := by
  have all : ∀ k < 16, Nat.digitChar k ≠ '\n' := by decide
  intro member
  rcases List.mem_cons.1 member with first | member
  · exact all _ (Nat.mod_lt _ (by decide)) first.symm
  · exact all _ (Nat.mod_lt _ (by decide)) (List.mem_singleton.1 member).symm

theorem newline_not_mem_escapeChar (c : Char) : '\n' ∉ escapeChar c := by
  unfold escapeChar
  iterate 7
    split
    · decide
  split
  · have pair := newline_not_mem_hexPair c.toNat
    simpa using pair
  · rename_i _ _ line _ _ _ _ _
    simpa using Ne.symm line

theorem newline_not_mem_stringText (text : String) : '\n' ∉ stringText text := by
  have escaped : '\n' ∉ text.toList.flatMap escapeChar := by
    intro member
    obtain ⟨c, -, inside⟩ := List.mem_flatMap.1 member
    exact newline_not_mem_escapeChar c inside
  simpa [stringText] using escaped

theorem Spelled.newline_not_mem (spelled : Spelled text) : '\n' ∉ text := by
  cases spelled with
  | point whole places scale =>
    have front := newline_not_mem_digits whole.digits
    have behind := newline_not_mem_digits places
    cases scale with
    | none => simp_all
    | exponent sign digits =>
      have exponent := newline_not_mem_digits digits
      rcases sign with rfl | rfl <;> simp_all
  | power whole sign digits =>
    have front := newline_not_mem_digits whole.digits
    have behind := newline_not_mem_digits digits
    rcases sign with rfl | rfl <;> simp_all

theorem newline_not_mem_numberText (n : Number) : '\n' ∉ numberText n := by
  cases n with
  | whole n =>
    have digits := newline_not_mem_digits (allDigits_toDigits n.natAbs)
    rw [numberText, wholeText]
    split
    · simpa using digits
    · exact digits
  | real x =>
    cases finite : x.isFinite with
    | false =>
      rw [numberText_infinite finite]
      decide
    | true =>
      have magnitude := (spelled_magnitude x).newline_not_mem
      rw [numberText_real finite]
      split
      · simpa using magnitude
      · exact magnitude

mutual

theorem newline_not_mem_chars (value : Json) : '\n' ∉ value.chars := by
  cases value with
  | null => decide
  | bool b => cases b <;> decide
  | number n => exact newline_not_mem_numberText n
  | string text => exact newline_not_mem_stringText text
  | array items =>
    have inside := newline_not_mem_itemChars items
    simpa [chars] using inside
  | object members =>
    have inside := newline_not_mem_memberChars members
    simpa [chars] using inside

theorem newline_not_mem_itemChars (items : List Json) : '\n' ∉ itemChars items := by
  match items with
  | [] => exact List.not_mem_nil
  | [item] => exact newline_not_mem_chars item
  | item :: next :: rest =>
    have first := newline_not_mem_chars item
    have others := newline_not_mem_itemChars (next :: rest)
    simpa [itemChars] using ⟨first, others⟩

theorem newline_not_mem_memberChars (members : List (String × Json)) :
    '\n' ∉ memberChars members := by
  match members with
  | [] => exact List.not_mem_nil
  | [(key, value)] =>
    have name := newline_not_mem_stringText key
    have first := newline_not_mem_chars value
    simpa [memberChars] using ⟨name, first⟩
  | (key, value) :: next :: rest =>
    have name := newline_not_mem_stringText key
    have first := newline_not_mem_chars value
    have others := newline_not_mem_memberChars (next :: rest)
    simpa [memberChars] using ⟨name, first, others⟩

end

end VisualNovel.Json

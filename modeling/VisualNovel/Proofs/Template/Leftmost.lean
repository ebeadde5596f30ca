import VisualNovel.Template
import Mathlib.Data.Nat.Find
import Mathlib.Data.List.Basic

namespace VisualNovel.Template

-- A key in brackets, directly before `behind`. It holds a character, and no end of a line.
structure Spells (text key behind : List Char) : Prop where
  spelled : text = '<' :: (key ++ '>' :: behind)
  nonempty : key ≠ []
  oneLine : '\n' ∉ key

structure Opens (text key behind : List Char) : Prop extends Spells text key behind where
  shortest : ∀ other further, Spells text other further → key.length ≤ other.length

-- A text that is cut at its placeholders, the leftmost first.
inductive Cut : List Char → List Piece → Prop where
  | plain (unopened : ∀ i key behind, ¬ Opens (text.drop i) key behind) :
      Cut text (text.map .literal)
  | next (leftmost : ∀ j < i, ∀ key behind, ¬ Opens (text.drop j) key behind)
      (opens : Opens (text.drop i) key behind) (further : Cut behind later) :
      Cut text ((text.take i).map .literal ++ .placeholder key :: later)

variable {text rest key behind other further : List Char} {c : Char}
  {lookup : String → Option String} {template : String}

theorem untilClose_eq_some (found : untilClose text = some (key, behind)) :
    text = key ++ '>' :: behind ∧ '\n' ∉ key := by
  induction text generalizing key with
  | nil => cases found
  | cons c rest ih =>
    unfold untilClose at found
    split at found
    · rename_i closes
      cases found
      exact ⟨by rw [closes, List.nil_append], List.not_mem_nil⟩
    · split at found
      · cases found
      · rename_i _ inLine
        split at found
        · rename_i inner _ equal
          cases found
          obtain ⟨spelled, oneLine⟩ := ih equal
          refine ⟨by rw [spelled, List.cons_append], ?_⟩
          exact List.not_mem_cons_of_ne_of_not_mem (Ne.symm inLine) oneLine
        · cases found

theorem exists_untilClose (oneLine : '\n' ∉ key) (behind : List Char) :
    ∃ first further, untilClose (key ++ '>' :: behind) = some (first, further) ∧
      first.length ≤ key.length := by
  induction key with
  | nil => exact ⟨[], behind, rfl, Nat.le_refl _⟩
  | cons c key ih =>
    obtain ⟨inLine, oneLine⟩ := not_or.1 (mt List.mem_cons.2 oneLine)
    by_cases closes : c = '>'
    · exact ⟨[], key ++ '>' :: behind, by simp [untilClose, closes], Nat.zero_le _⟩
    · obtain ⟨first, further, found, least⟩ := ih oneLine
      refine ⟨c :: first, further, ?_, Nat.succ_le_succ least⟩
      simp [untilClose, closes, Ne.symm inLine, found]

theorem keyAfterOpen_eq_some (found : keyAfterOpen text = some (key, behind)) :
    Spells ('<' :: text) key behind := by
  cases text with
  | nil => cases found
  | cons c rest =>
    simp only [keyAfterOpen] at found
    split at found
    · cases found
    · rename_i inLine
      split at found
      · rename_i inner _ equal
        cases found
        obtain ⟨spelled, oneLine⟩ := untilClose_eq_some equal
        refine ⟨by rw [spelled, List.cons_append], List.cons_ne_nil _ _, ?_⟩
        exact List.not_mem_cons_of_ne_of_not_mem (Ne.symm inLine) oneLine
      · cases found

theorem exists_keyAfterOpen (spells : Spells ('<' :: text) key behind) :
    ∃ first further, keyAfterOpen text = some (first, further) ∧ first.length ≤ key.length := by
  obtain ⟨spelled, nonempty, oneLine⟩ := spells
  cases key with
  | nil => exact absurd rfl nonempty
  | cons c key =>
    obtain ⟨inLine, oneLine⟩ := not_or.1 (mt List.mem_cons.2 oneLine)
    obtain ⟨first, further, found, least⟩ := exists_untilClose oneLine behind
    refine ⟨c :: first, further, ?_, Nat.succ_le_succ least⟩
    cases spelled
    simp [keyAfterOpen, Ne.symm inLine, found]

theorem opens_of_keyAfterOpen (found : keyAfterOpen text = some (key, behind)) :
    Opens ('<' :: text) key behind := by
  refine ⟨keyAfterOpen_eq_some found, ?_⟩
  intro other further spells
  obtain ⟨first, rest, own, least⟩ := exists_keyAfterOpen spells
  cases found.symm.trans own
  exact least

theorem Opens.unique (opens : Opens text key behind) (others : Opens text other further) :
    key = other ∧ behind = further := by
  have same : key.length = other.length :=
    Nat.le_antisymm (opens.shortest _ _ others.toSpells) (others.shortest _ _ opens.toSpells)
  have texts := opens.spelled.symm.trans others.spelled
  obtain ⟨keys, rests⟩ := List.append_inj (List.cons.inj texts).2 same
  exact ⟨keys, (List.cons.inj rests).2⟩

theorem opens_iff : Opens ('<' :: text) key behind ↔ keyAfterOpen text = some (key, behind) := by
  constructor
  · intro opens
    obtain ⟨first, further, found, -⟩ := exists_keyAfterOpen opens.toSpells
    obtain ⟨rfl, rfl⟩ := opens.unique (opens_of_keyAfterOpen found)
    exact found
  · exact opens_of_keyAfterOpen

theorem Opens.length_lt (opens : Opens text key behind) : behind.length < text.length := by
  rw [opens.spelled]
  simp only [List.length_cons, List.length_append]
  omega

theorem pieces_of_opens (opens : Opens text key behind) :
    pieces text = .placeholder key :: pieces behind := by
  have opened := opens
  rw [opens.spelled] at opened ⊢
  have found := opens_iff.1 opened
  rw [pieces, if_pos rfl]
  split
  · rename_i own further equal
    cases found.symm.trans equal
    rfl
  · rename_i notFound
    cases found.symm.trans notFound

theorem pieces_of_not_opens (unopened : ∀ key behind, ¬ Opens (c :: rest) key behind) :
    pieces (c :: rest) = .literal c :: pieces rest := by
  by_cases bracket : c = '<'
  · subst bracket
    apply pieces_open_of_no_key
    cases found : keyAfterOpen rest with
    | none => rfl
    | some opened => exact absurd (opens_of_keyAfterOpen found) (unopened _ _)
  · rw [pieces, if_neg bracket]

-- Up to the leftmost placeholder every character stands for itself.
theorem pieces_drop (i : Nat)
    (unopened : ∀ j < i, ∀ key behind, ¬ Opens (text.drop j) key behind) :
    pieces text = (text.take i).map .literal ++ pieces (text.drop i) := by
  induction i generalizing text with
  | zero => rfl
  | succ i ih =>
    cases text with
    | nil => simp [pieces]
    | cons c rest =>
      have first := unopened 0 (Nat.succ_pos i)
      have others : ∀ j < i, ∀ key behind, ¬ Opens (rest.drop j) key behind :=
        fun j within => unopened (j + 1) (Nat.succ_lt_succ within)
      rw [pieces_of_not_opens first, ih others]
      rfl

theorem pieces_of_cut (cut : Cut text own) : own = pieces text := by
  induction cut with
  | @plain text unopened =>
    rw [pieces_drop text.length fun j _ => unopened j]
    simp [pieces]
  | next leftmost opens further ih =>
    rw [pieces_drop _ leftmost, pieces_of_opens opens, ih]

theorem cut_pieces (text : List Char) : Cut text (pieces text) := by
  classical
  induction length : text.length using Nat.strongRecOn generalizing text with
  | ind n ih =>
    by_cases found : ∃ i key behind, Opens (text.drop i) key behind
    · obtain ⟨key, behind, opens⟩ := Nat.find_spec found
      have leftmost : ∀ j < Nat.find found, ∀ key behind, ¬ Opens (text.drop j) key behind :=
        fun j earlier key behind opens => Nat.find_min found earlier ⟨key, behind, opens⟩
      have shorter : behind.length < n :=
        length ▸ Nat.lt_of_lt_of_le opens.length_lt (List.drop_sublist ..).length_le
      rw [pieces_drop _ leftmost, pieces_of_opens opens]
      exact .next leftmost opens (ih _ shorter behind rfl)
    · have unopened : ∀ i key behind, ¬ Opens (text.drop i) key behind :=
        fun i key behind opens => found ⟨i, key, behind, opens⟩
      have plain := Cut.plain unopened
      rwa [pieces_of_cut plain] at plain

theorem cut_iff : Cut text own ↔ own = pieces text :=
  ⟨pieces_of_cut, fun same => same ▸ cut_pieces text⟩

theorem raw_literals (text : List Char) : (text.map .literal).flatMap Piece.raw = text := by
  simp [List.flatMap_map, Piece.raw]

theorem raw_of_cut (cut : Cut text own) : own.flatMap Piece.raw = text := by
  induction cut with
  | plain unopened => exact raw_literals _
  | @next i key behind later text leftmost opens further ih =>
    calc
      ((text.take i).map Piece.literal ++ Piece.placeholder key :: later).flatMap Piece.raw
          = text.take i ++ '<' :: (key ++ '>' :: behind) := by
        rw [List.flatMap_append, raw_literals, List.flatMap_cons, ih]
        simp [Piece.raw]
      _ = text := by rw [← opens.spelled, List.take_append_drop]

theorem mem_pieces_iff : (∃ key, .placeholder key ∈ pieces text) ↔
    ∃ i key behind, Opens (text.drop i) key behind := by
  have cut := cut_pieces text
  constructor
  · generalize pieces text = own at cut
    rintro ⟨key, member⟩
    cases cut with
    | plain unopened =>
      obtain ⟨c, -, literal⟩ := List.mem_map.1 member
      cases literal
    | next leftmost opens further => exact ⟨_, _, _, opens⟩
  · rintro ⟨i, key, behind, opens⟩
    generalize pieces text = own at cut
    cases cut with
    | plain unopened => exact absurd opens (unopened i key behind)
    | next leftmost opens further => exact ⟨_, List.mem_append_right _ List.mem_cons_self⟩

theorem hasPlaceholder_iff : hasPlaceholder template = true ↔
    ∃ i key behind, Opens (template.toList.drop i) key behind := by
  rw [← mem_pieces_iff, hasPlaceholder_eq, List.any_eq_true]
  constructor
  · rintro ⟨piece, member, placeholder⟩
    cases piece with
    | literal c => cases placeholder
    | placeholder key => exact ⟨key, member⟩
  · rintro ⟨key, member⟩
    exact ⟨_, member, rfl⟩

theorem fill_of_unknown {piece : Piece}
    (unknown : ∀ key, piece = .placeholder key → lookup (String.ofList key) = none) :
    piece.fill lookup = String.ofList piece.raw := by
  cases piece with
  | literal c => rfl
  | placeholder key => rw [Piece.fill, unknown key rfl, Option.getD_none]

theorem join_ofList (texts : List (List Char)) :
    String.join (texts.map String.ofList) = String.ofList texts.flatten := by
  simp [← String.toList_inj, List.flatMap_map]

theorem render_of_unknown (unknown : ∀ key, .placeholder key ∈ pieces template.toList →
    lookup (String.ofList key) = none) : render lookup template = template := by
  have filled : (pieces template.toList).map (Piece.fill lookup) =
      ((pieces template.toList).map Piece.raw).map String.ofList := by
    rw [List.map_map]
    refine List.map_congr_left fun piece member => fill_of_unknown ?_
    rintro key rfl
    exact unknown key member
  rw [render, filled, join_ofList, ← List.flatMap_def, raw_of_cut (cut_pieces _),
    String.ofList_toList]

theorem render_leftmost_lazy (template : String) :
    ∃ cut, (∀ other, Cut template.toList other ↔ other = cut) ∧
      cut.flatMap Piece.raw = template.toList ∧
      (∀ lookup, render lookup template = String.join (cut.map (Piece.fill lookup))) ∧
      (∀ lookup, (∀ key, lookup key = none) → render lookup template = template) ∧
      (hasPlaceholder template = true ↔
        ∃ i key behind, Opens (template.toList.drop i) key behind) ∧
      (hasPlaceholder template = false → ∀ lookup, render lookup template = template) := by
  refine ⟨pieces template.toList, fun _ => cut_iff, raw_of_cut (cut_pieces _), fun _ => rfl, ?_,
    hasPlaceholder_iff, ?_⟩
  · intro lookup unknown
    exact render_of_unknown fun key _ => unknown _
  · intro noPlaceholder lookup
    refine render_of_unknown fun key member => ?_
    have found := hasPlaceholder_iff.2 (mem_pieces_iff.1 ⟨key, member⟩)
    cases noPlaceholder.symm.trans found

-- Nothing opens in empty brackets, and a key that is not known is left as it is.
theorem render_leftmost_lazy_at_unknown_key :
    (hasPlaceholder "<>" = false ∧ ∀ lookup, render lookup "<>" = "<>") ∧
      (hasPlaceholder "<<>" = true ∧ render (fun _ => none) "<<>" = "<<>") := by
  obtain ⟨-, -, -, -, -, -, plain⟩ := render_leftmost_lazy "<>"
  obtain ⟨-, -, -, -, unknown, -, -⟩ := render_leftmost_lazy "<<>"
  have empty : hasPlaceholder "<>" = false := by cbv
  exact ⟨⟨empty, plain empty⟩, by cbv, unknown _ fun _ => rfl⟩

-- A key may hold an opening bracket, and what is filled in is not scanned again.
example : render (fun key => if key = "<" then some "<a>" else none) "<<>><\n><a>" =
    "<a>><\n><a>" := by cbv

end VisualNovel.Template

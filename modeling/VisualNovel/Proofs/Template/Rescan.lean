import VisualNovel.Proofs.Template.Capture
import VisualNovel.Playback.Machine

namespace VisualNovel

namespace Template

variable {text rest key behind : List Char} {c : Char} {lookup : String → Option String}
  {template : String}

def filled (lookup : String → Option String) (text : List Char) : List Char :=
  (pieces text).flatMap fun piece => (piece.fill lookup).toList

theorem toList_render : (render lookup template).toList = filled lookup template.toList := by
  simp [render, filled, List.flatMap_map]

theorem filled_opened (found : keyAfterOpen text = some (key, behind)) :
    filled lookup ('<' :: text) =
      ((Piece.placeholder key).fill lookup).toList ++ filled lookup behind := by
  rw [filled, pieces_opened found, List.flatMap_cons, filled]

theorem filled_plain (opensNone : c = '<' → keyAfterOpen rest = none) :
    filled lookup (c :: rest) = c :: filled lookup rest := by
  rw [filled, pieces_plain opensNone, List.flatMap_cons, filled]
  simp [Piece.fill]

theorem limits_of_mem_pieces (member : .placeholder key ∈ pieces text) :
    key ≠ [] ∧ '\n' ∉ key := by
  induction text using scanning with
  | nil => simp [pieces] at member
  | opened text own behind found ih =>
    rw [pieces_opened found] at member
    rcases List.mem_cons.1 member with same | further
    · cases same
      obtain ⟨-, nonempty, oneLine, -⟩ := keyAfterOpen_eq_some_iff.1 found
      exact ⟨nonempty, oneLine⟩
    · exact ih further
  | plain c rest opensNone ih =>
    rw [pieces_plain opensNone] at member
    rcases List.mem_cons.1 member with same | further
    · cases same
    · exact ih further

theorem hasPlaceholder_of_spells {i : Nat} (spells : Spells (template.toList.drop i) key behind) :
    hasPlaceholder template = true := by
  have opening := spells
  rw [spells.spelled] at opening
  obtain ⟨first, further, found, -⟩ := exists_keyAfterOpen opening
  have opens := opens_of_keyAfterOpen found
  rw [← spells.spelled] at opens
  exact hasPlaceholder_iff.2 ⟨i, first, further, opens⟩

theorem hasPlaceholder_render_of_unknown (member : .placeholder key ∈ pieces template.toList)
    (unknown : lookup (String.ofList key) = none) :
    hasPlaceholder (render lookup template) = true := by
  obtain ⟨nonempty, oneLine⟩ := limits_of_mem_pieces member
  obtain ⟨earlier, later, cut⟩ := List.append_of_mem member
  let before := earlier.flatMap fun piece => (piece.fill lookup).toList
  let behind := later.flatMap fun piece => (piece.fill lookup).toList
  have raw : ((Piece.placeholder key).fill lookup).toList = '<' :: (key ++ ['>']) := by
    rw [Piece.fill, unknown, Option.getD_none, String.toList_ofList, Piece.raw]
  have whole : (render lookup template).toList = before ++ '<' :: (key ++ '>' :: behind) := by
    rw [toList_render, filled, cut, List.flatMap_append, List.flatMap_cons, raw]
    simp [before, behind]
  have place : (render lookup template).toList.drop before.length =
      '<' :: (key ++ '>' :: behind) := by
    rw [whole, List.drop_left]
  exact hasPlaceholder_of_spells ⟨place, nonempty, oneLine⟩

theorem untilClose_eq_none_of_keyAfterOpen (notFound : keyAfterOpen (c :: rest) = none)
    (inLine : c ≠ '\n') : untilClose rest = none := by
  rw [keyAfterOpen, if_neg inLine] at notFound
  split at notFound
  · cases notFound
  · assumption

theorem untilClose_filled (notFound : untilClose text = none) :
    untilClose (filled lookup text) = none := by
  induction text with
  | nil => simp [filled, pieces, untilClose]
  | cons c rest ih =>
    by_cases newline : c = '\n'
    · subst newline
      rw [filled_plain fun bracket => absurd bracket (by decide)]
      rfl
    · have further := untilClose_tail newline notFound
      have notClose : c ≠ '>' := by
        rintro rfl
        cases notFound
      rw [filled_plain fun _ => keyAfterOpen_eq_none further, untilClose, if_neg notClose,
        if_neg newline, ih further]

theorem keyAfterOpen_filled (notFound : keyAfterOpen text = none) :
    keyAfterOpen (filled lookup text) = none := by
  cases text with
  | nil => simp [filled, pieces, keyAfterOpen]
  | cons c rest =>
    by_cases newline : c = '\n'
    · subst newline
      rw [filled_plain fun bracket => absurd bracket (by decide)]
      rfl
    · have further := untilClose_eq_none_of_keyAfterOpen notFound newline
      rw [filled_plain fun _ => keyAfterOpen_eq_none further, keyAfterOpen, if_neg newline,
        untilClose_filled further]

theorem pieces_append_of_noOpen (noOpen : '<' ∉ text) (rest : List Char) :
    pieces (text ++ rest) = text.map .literal ++ pieces rest := by
  induction text with
  | nil => rfl
  | cons c text ih =>
    obtain ⟨notOpen, noOpen⟩ := not_or.1 (mt List.mem_cons.2 noOpen)
    rw [List.cons_append, pieces_plain fun bracket => absurd bracket.symm notOpen, ih noOpen]
    rfl

theorem pieces_filled (known : ∀ key, .placeholder key ∈ pieces text →
    ∃ own, lookup (String.ofList key) = some own ∧ '<' ∉ own.toList) :
    pieces (filled lookup text) = (filled lookup text).map .literal := by
  induction text using scanning with
  | nil => simp [filled, pieces]
  | opened text key behind found ih =>
    rw [pieces_opened found] at known
    obtain ⟨own, value, noOpen⟩ := known key List.mem_cons_self
    have further := ih fun key member => known key (List.mem_cons_of_mem _ member)
    rw [filled_opened found, Piece.fill, value, Option.getD_some, pieces_append_of_noOpen noOpen,
      further, List.map_append]
  | plain c rest opensNone ih =>
    rw [pieces_plain opensNone] at known
    have further := ih fun key member => known key (List.mem_cons_of_mem _ member)
    rw [filled_plain opensNone, pieces_plain fun bracket => keyAfterOpen_filled (opensNone bracket),
      further, List.map_cons]

-- A bracket that opened nothing opens nothing in what the text has become.
theorem not_hasPlaceholder_render (known : ∀ key, .placeholder key ∈ pieces template.toList →
    ∃ own, lookup (String.ofList key) = some own ∧ '<' ∉ own.toList) :
    hasPlaceholder (render lookup template) = false := by
  rw [hasPlaceholder_eq, toList_render, pieces_filled known]
  simp [Piece.isPlaceholder]

end Template

namespace Stores

theorem lookup_eq_none_iff {stores : Stores} :
    stores.lookup key = none ↔ stores.globals.get? key = none ∧ stores.locals.get? key = none := by
  unfold lookup
  split <;> simp_all

end Stores

namespace Machine

open Template

variable {m : Machine} {placement : Placement} {dynamic : String}

def ShowsAt (m : Machine) (placement : Placement) (location : String) : Prop :=
  ∀ id, (m.execute ⟨id, .showSprite placement⟩).2 = [.event (.showSprite location placement)]

def PlacesStatically (m : Machine) (placement : Placement) : Prop :=
  ∀ location, m.ShowsAt { placement with location := location } (m.stores.renderText location)

def PlacesDynamically (m : Machine) (placement : Placement) (dynamic : String) : Prop :=
  placement.dynLocation = some dynamic ∧
    ∀ location, m.ShowsAt { placement with location := location }
      (m.stores.renderText (some dynamic))

theorem placesStatically_of_absent (absent : placement.dynLocation = none) :
    m.PlacesStatically placement := by
  intro location id
  simp only [execute, tell, Stores.spriteLocation, absent]

theorem placesStatically_of_empty (empty : placement.dynLocation = some "") :
    m.PlacesStatically placement := by
  intro location id
  simp only [execute, tell, Stores.spriteLocation, empty, if_true]

theorem placesStatically_of_hasPlaceholder (own : placement.dynLocation = some dynamic)
    (left : hasPlaceholder (m.stores.renderText (some dynamic)) = true) :
    m.PlacesStatically placement := by
  intro location id
  simp only [execute, tell, Stores.spriteLocation, own, left, if_true, ite_self]

theorem placesDynamically_of_not_hasPlaceholder (own : placement.dynLocation = some dynamic)
    (nonempty : dynamic ≠ "")
    (filled : hasPlaceholder (m.stores.renderText (some dynamic)) = false) :
    m.PlacesDynamically placement dynamic := by
  refine ⟨own, fun location id => ?_⟩
  simp only [execute, tell, Stores.spriteLocation, own, nonempty, filled, if_false,
    Bool.false_eq_true]

theorem ShowsAt.unique (shown : m.ShowsAt placement first) (again : m.ShowsAt placement second) :
    first = second := by
  have same := (shown none).symm.trans (again none)
  simpa using same

theorem not_placesStatically_of_dynamically (dynamically : m.PlacesDynamically placement dynamic) :
    ¬ m.PlacesStatically placement := by
  intro statically
  have absent := (statically none).unique (dynamically.2 none)
  have given := (statically (some "x")).unique (dynamically.2 (some "x"))
  have plain := m.stores.renderText_plain "x" (by decide +kernel)
  have same : "" = "x" := (absent.trans given.symm).trans plain
  exact absurd same (by decide)

theorem places_cases (m : Machine) (placement : Placement) :
    m.PlacesStatically placement ∨ ∃ dynamic ≠ "", m.PlacesDynamically placement dynamic := by
  cases own : placement.dynLocation with
  | none => exact .inl (placesStatically_of_absent own)
  | some dynamic =>
    by_cases empty : dynamic = ""
    · exact .inl (placesStatically_of_empty (empty ▸ own))
    · cases left : hasPlaceholder (m.stores.renderText (some dynamic)) with
      | true => exact .inl (placesStatically_of_hasPlaceholder own left)
      | false => exact .inr ⟨dynamic, empty, placesDynamically_of_not_hasPlaceholder own empty left⟩

theorem sprite_location_choice (m : Machine) (placement : Placement) :
    (m.PlacesStatically placement ∨ ∃ dynamic ≠ "", m.PlacesDynamically placement dynamic) ∧
    m.stores.renderText none = "" ∧
    (∀ dynamic cut, placement.dynLocation = some dynamic → dynamic ≠ "" →
      Cut dynamic.toList cut →
      ((∃ key, .placeholder key ∈ cut ∧ m.stores.globals.get? (String.ofList key) = none ∧
          m.stores.locals.get? (String.ofList key) = none) →
        m.PlacesStatically placement) ∧
      ((∀ key, .placeholder key ∈ cut → ∃ value, m.stores.lookup (String.ofList key) = some value ∧
          '<' ∉ value.spoken.toList) →
        m.PlacesDynamically placement dynamic)) ∧
    (∀ dynamic, m.PlacesDynamically placement dynamic → ¬ m.PlacesStatically placement ∧
      ∀ i key behind, ¬ Opens ((m.stores.renderText (some dynamic)).toList.drop i) key behind) := by
  refine ⟨places_cases m placement, rfl, ?_, ?_⟩
  · intro dynamic cut own nonempty cuts
    obtain rfl := pieces_of_cut cuts
    constructor
    · rintro ⟨key, member, unknown⟩
      have missing : (m.stores.lookup (String.ofList key)).map Value.spoken = none := by
        rw [Stores.lookup_eq_none_iff.2 unknown, Option.map_none]
      exact placesStatically_of_hasPlaceholder own (hasPlaceholder_render_of_unknown member missing)
    · intro known
      refine placesDynamically_of_not_hasPlaceholder own nonempty (not_hasPlaceholder_render ?_)
      intro key member
      obtain ⟨value, found, noOpen⟩ := known key member
      exact ⟨value.spoken, by rw [found, Option.map_some], noOpen⟩
  · intro dynamic dynamically
    refine ⟨not_placesStatically_of_dynamically dynamically, fun i key behind opens => ?_⟩
    have left := hasPlaceholder_iff.2 ⟨i, key, behind, opens⟩
    exact not_placesStatically_of_dynamically dynamically
      (placesStatically_of_hasPlaceholder dynamically.1 left)

def spriteAt (dynamic : String) : Placement :=
  ⟨"ann", some "plain.png", some dynamic, none, none, none, none, none, none⟩

-- An outfit that is known, before a stray bracket, and a mood that is not known.
theorem sprite_location_choice_at_outfit : ∃ m : Machine,
    m.stores = Stores.knowing "outfit" (.text "red") ∧
    m.PlacesDynamically (spriteAt "<outfit>/<") "<outfit>/<" ∧
    m.stores.renderText (some "<outfit>/<") = "red/<" ∧
    m.PlacesStatically (spriteAt "<outfit>/<mood>") := by
  let m : Machine :=
    { new none none none with stores := Stores.knowing "outfit" (.text "red") }
  obtain ⟨-, -, known, -⟩ := sprite_location_choice m (spriteAt "<outfit>/<")
  obtain ⟨-, -, unknown, -⟩ := sprite_location_choice m (spriteAt "<outfit>/<mood>")
  refine ⟨m, rfl, (known _ _ rfl (by decide) (cut_pieces _)).2 ?_, by decide +kernel,
    (unknown _ _ rfl (by decide) (cut_pieces _)).1 ?_⟩
  · have own : pieces "<outfit>/<".toList =
        [.placeholder "outfit".toList, .literal '/', .literal '<'] := by cbv
    rw [own]
    intro key member
    obtain rfl : key = "outfit".toList := by simpa using member
    exact ⟨.text "red", Stores.lookup_knowing _ _, by decide⟩
  · have own : pieces "<outfit>/<mood>".toList =
        [.placeholder "outfit".toList, .literal '/', .placeholder "mood".toList] := by cbv
    rw [own]
    exact ⟨"mood".toList, by simp, by decide, by decide⟩

end Machine

end VisualNovel

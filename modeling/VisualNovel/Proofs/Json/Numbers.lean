import VisualNovel.Proofs.Json.Scalars

namespace VisualNovel.Json

theorem isFinite_iff {x : Float} : x.isFinite = true ↔ x.isNaN = false ∧ x.isInf = false := by
  have same : x.isFinite = (!x.isNaN && !x.isInf) := by
    change x.toModel.unpack.isFinite = (!x.toModel.unpack.isNaN && !x.toModel.unpack.isInf)
    cases x.toModel.unpack <;> rfl
  rw [same, Bool.and_eq_true, Bool.not_eq_true', Bool.not_eq_true']

variable {rest : List Char}

theorem digitless_of_endsValue (ends : endsValue rest = true) : startsWithDigit rest = false := by
  cases rest with
  | nil => rfl
  | cons c more => exact (head_of_endsValue ends).1

def AllDigits (text : List Char) : Prop := ∀ c ∈ text, c.isDigit = true

theorem one_le_digit {c : Char} (digit : c.isDigit = true) (nonzero : c ≠ '0') :
    1 ≤ c.toNat - '0'.toNat := by
  simp [Char.isDigit, UInt32.le_iff_toNat_le] at digit
  have lower : 48 ≤ c.toNat := digit.1
  have other : c.toNat ≠ 48 := fun same => nonzero (Char.ext (UInt32.toNat_inj.1 same))
  change 1 ≤ c.toNat - 48
  omega

-- A scan of digits takes all of them, and its result does not depend on what stands behind them.
theorem ScansDigits.all {scan : σ → List Char → β × List Char} (scans : ScansDigits scan result next)
    (digits : AllDigits text) (s : σ) :
    ∃ value, ∀ rest, startsWithDigit rest = false → scan s (text ++ rest) = (value, rest) := by
  induction text generalizing s with
  | nil =>
    refine ⟨result s, fun rest digitless => ?_⟩
    cases rest with
    | nil => exact scans.nil s
    | cons c more =>
      have noDigit : digit? c = none := by
        simpa [digit?] using (show c.isDigit = false from digitless)
      exact scans.other s c more noDigit
  | cons c text ih =>
    obtain ⟨first, others⟩ := List.forall_mem_cons.1 digits
    have digit : digit? c = some (c.toNat - '0'.toNat) := by simp [digit?, first]
    obtain ⟨value, read⟩ := ih others (next s (c.toNat - '0'.toNat))
    refine ⟨value, fun rest digitless => ?_⟩
    rw [List.cons_append, scans.digit s c _ _ digit]
    exact read rest digitless

-- A text that a reader takes as a double or refuses, whatever stands behind it.
def ReadsReal (read : List Char → Option (Number × List Char)) (text : List Char) : Prop :=
  ∃ value : Option Float, ∀ rest, endsValue rest = true →
    read (text ++ rest) = value.map fun x => (.real x, rest)

-- The digits before a point: no zero in front of others.
structure Whole (first : Char) (more : List Char) : Prop where
  digits : AllDigits (first :: more)
  lead : first = '0' → more = []

inductive Scale : List Char → Prop where
  | none : Scale []
  | exponent (sign : c = '+' ∨ c = '-') (digits : AllDigits (d :: more)) :
      Scale ('e' :: c :: d :: more)

inductive Spelled : List Char → Prop where
  | point (whole : Whole first more) (places : AllDigits (d :: others)) (scale : Scale tail) :
      Spelled (first :: more ++ '.' :: (d :: others ++ tail))
  | power (whole : Whole first more) (sign : c = '+' ∨ c = '-') (digits : AllDigits (d :: others)) :
      Spelled (first :: more ++ 'e' :: c :: d :: others)

theorem withExponent_real (negative : Bool) (s : Scaled) (minus : Bool) (e : Nat) :
    ∃ value : Option Float, withExponent negative s minus e = value.map .real := by
  unfold withExponent
  split
  · split
    · exact ⟨some _, rfl⟩
    · exact ⟨none, rfl⟩
  · let scaled : Scaled := ⟨s.significand, if minus then s.exponent - e else s.exponent + e⟩
    refine ⟨scaled.magnitude?.map fun x => if negative then -x else x, ?_⟩
    rw [Option.map_map]
    rfl

theorem readsReal_exponentDigits (digits : AllDigits (d :: more)) (negative : Bool) (s : Scaled)
    (minus : Bool) : ReadsReal (exponentDigits negative s minus) (d :: more) := by
  obtain ⟨e, read⟩ := readNat_scans.all digits 0
  obtain ⟨value, known⟩ := withExponent_real negative s minus e
  refine ⟨value, fun rest ends => ?_⟩
  have scanned := read rest (digitless_of_endsValue ends)
  rw [List.cons_append] at scanned
  simp only [exponentDigits, List.cons_append, digits d (List.mem_cons_self ..), if_true, scanned,
    known, Option.map_map]
  rfl

theorem readsReal_exponent (sign : c = '+' ∨ c = '-') (digits : AllDigits (d :: more))
    (negative : Bool) (s : Scaled) :
    ReadsReal (readExponent negative s) (c :: d :: more) := by
  rcases sign with rfl | rfl
  · exact readsReal_exponentDigits digits negative s false
  · exact readsReal_exponentDigits digits negative s true

theorem Scale.read (scale : Scale tail) (negative : Bool) (s : Scaled) :
    ReadsReal (readScale negative s) tail := by
  cases scale with
  | none =>
    refine ⟨s.magnitude?.map fun x => if negative then -x else x, fun rest ends => ?_⟩
    have plain : readScale negative s rest = s.magnitude?.map fun x => (signed negative x, rest) := by
      cases rest with
      | nil => rfl
      | cons c more =>
        obtain ⟨-, -, noSmall, noLarge⟩ := head_of_endsValue ends
        exact readScale_plain noSmall noLarge more
    rw [List.nil_append, plain, Option.map_map]
    rfl
  | exponent sign digits => exact readsReal_exponent sign digits negative s

theorem Scale.digitless (scale : Scale tail) (ends : endsValue rest = true) :
    startsWithDigit (tail ++ rest) = false := by
  cases scale with
  | none => exact digitless_of_endsValue ends
  | exponent sign digits => rfl

theorem readMagnitude_whole (whole : Whole first more) (negative : Bool)
    (digitless : startsWithDigit rest = false) :
    readMagnitude negative (first :: more ++ rest) =
      afterWhole negative first (wholeDigits false ⟨0, 0⟩ (first :: more)).1 rest := by
  have digit := whole.digits first (List.mem_cons_self ..)
  by_cases zero : first = '0'
  · rw [whole.lead zero, List.cons_append, readMagnitude_cons digit, if_pos zero, zero]
    rfl
  · obtain ⟨s, read⟩ := wholeDigits_scans.all whole.digits (false, ⟨0, 0⟩)
    have alone : wholeDigits false ⟨0, 0⟩ (first :: more ++ []) = (s, []) := read [] rfl
    have scanned : wholeDigits false ⟨0, 0⟩ (first :: more ++ rest) = (s, rest) :=
      read rest digitless
    rw [List.append_nil] at alone
    rw [List.cons_append] at scanned ⊢
    rw [readMagnitude_cons digit, if_neg zero, scanned, alone]

theorem Spelled.read (spelled : Spelled text) (negative : Bool) :
    ReadsReal (readMagnitude negative) text := by
  cases spelled with
  | @point first more d others tail whole places scale =>
    obtain ⟨s, before⟩ : ∃ s, (wholeDigits false ⟨0, 0⟩ (first :: more)).1 = s := ⟨_, rfl⟩
    obtain ⟨scaled, behind⟩ := fractionDigits_scans.all places (false, s)
    obtain ⟨value, read⟩ := scale.read negative scaled
    refine ⟨value, fun rest ends => ?_⟩
    have scanned : fractionDigits false s (d :: others ++ (tail ++ rest)) = (scaled, tail ++ rest) :=
      behind _ (scale.digitless ends)
    have regrouped : (first :: more ++ '.' :: (d :: others ++ tail)) ++ rest =
        first :: more ++ '.' :: (d :: others ++ (tail ++ rest)) := by simp
    rw [regrouped, readMagnitude_whole whole negative rfl, before]
    rw [List.cons_append] at scanned ⊢
    simp only [afterWhole, places d (List.mem_cons_self ..), if_true, scanned]
    exact read rest ends
  | @power first more c d others whole sign digits =>
    obtain ⟨value, read⟩ := readsReal_exponent sign digits negative
      (wholeDigits false ⟨0, 0⟩ (first :: more)).1
    refine ⟨value, fun rest ends => ?_⟩
    have regrouped : (first :: more ++ 'e' :: c :: d :: others) ++ rest =
        first :: more ++ 'e' :: (c :: d :: others ++ rest) := by simp
    rw [regrouped, readMagnitude_whole whole negative rfl]
    exact read rest ends

theorem allDigits_append (front : AllDigits text) (back : AllDigits more) :
    AllDigits (text ++ more) := List.forall_mem_append.2 ⟨front, back⟩

theorem allDigits_zeros (n : Nat) : AllDigits (List.replicate n '0') := by
  intro c member
  rw [List.eq_of_mem_replicate member]
  rfl

theorem allDigits_toDigits (n : Nat) : AllDigits (Nat.toDigits 10 n) := fun _ member =>
  Nat.isDigit_of_mem_toDigits (by decide) (by decide) member

theorem whole_zero : Whole '0' [] := ⟨fun c member => by rw [List.mem_singleton.1 member]; rfl,
  fun _ => rfl⟩

theorem exists_whole (positive : 0 < n) :
    ∃ first more, Nat.toDigits 10 n = first :: more ∧ AllDigits (first :: more) ∧ first ≠ '0' := by
  cases written : Nat.toDigits 10 n with
  | nil => exact absurd written Nat.toDigits_ne_nil
  | cons first more =>
    refine ⟨first, more, rfl, written ▸ allDigits_toDigits n, ?_⟩
    have head := head?_toDigits positive
    simpa [written] using head

theorem Spelled.plain (whole : Whole first more) (places : AllDigits (d :: others)) :
    Spelled (first :: more ++ '.' :: d :: others) := by
  simpa using Spelled.point whole places .none

theorem positional_cases (digits : AllDigits (first :: more)) (lead : first ≠ '0') (point : Int) :
    ∃ start before d others,
      Decimal.positional true (first :: more) point = start :: before ++ '.' :: d :: others ∧
      Whole start before ∧ AllDigits (d :: others) ∧ before.length ≤ point.toNat - 1 := by
  unfold Decimal.positional
  split
  · have places := allDigits_append (allDigits_zeros point.natAbs) digits
    cases padded : List.replicate point.natAbs '0' ++ first :: more with
    | nil => simp at padded
    | cons d others =>
      rw [padded] at places
      exact ⟨'0', [], d, others, rfl, whole_zero, places, Nat.zero_le _⟩
  · obtain ⟨front, front_eq⟩ : ∃ front, point.toNat = front + 1 := ⟨point.toNat - 1, by omega⟩
    have others := (List.forall_mem_cons.1 digits).2
    have padded : AllDigits (first :: (more.take front ++
        List.replicate (front + 1 - (first :: more).length) '0')) :=
      List.forall_mem_cons.2 ⟨digits first (List.mem_cons_self ..),
        allDigits_append (fun c member => others c (List.mem_of_mem_take member))
          (allDigits_zeros _)⟩
    have whole : Whole first (more.take front ++
      List.replicate (front + 1 - (first :: more).length) '0') := ⟨padded, fun zero => absurd zero lead⟩
    have long : (more.take front ++
        List.replicate (front + 1 - (first :: more).length) '0').length ≤ front + 1 - 1 := by
      simp only [List.length_append, List.length_take, List.length_replicate, List.length_cons]
      omega
    simp only [front_eq, List.take_succ_cons, List.drop_succ_cons, if_true]
    cases left : more.drop front with
    | nil => exact ⟨first, _, '0', [], rfl, whole, whole_zero.digits, long⟩
    | cons d places =>
      refine ⟨first, _, d, places, rfl, whole, fun c member => others c ?_, long⟩
      exact List.mem_of_mem_drop (left ▸ member)

theorem spelled_positional (digits : AllDigits (first :: more)) (lead : first ≠ '0') (point : Int) :
    Spelled (Decimal.positional true (first :: more) point) := by
  obtain ⟨start, before, d, others, written, whole, places, -⟩ := positional_cases digits lead point
  rw [written]
  exact .plain whole places

theorem spelled_scientific (digits : AllDigits (first :: more)) (e : Int) :
    Spelled (Decimal.scientific true (first :: more) e) := by
  have single : Whole first [] :=
    ⟨fun c member => digits c (List.mem_cons.2 (.inl (List.mem_singleton.1 member))), fun _ => rfl⟩
  obtain ⟨c, sign, signed⟩ : ∃ c, (c = '+' ∨ c = '-') ∧
      (if e < 0 then ['-'] else ['+']) = [c] := by
    by_cases below : e < 0
    · exact ⟨'-', .inr rfl, by simp [below]⟩
    · exact ⟨'+', .inl rfl, by simp [below]⟩
  obtain ⟨d, places, written⟩ : ∃ d places, Decimal.digits e.natAbs = d :: places :=
    List.exists_cons_of_ne_nil Nat.toDigits_ne_nil
  have exponent : AllDigits (d :: places) := written ▸ allDigits_toDigits e.natAbs
  simp only [Decimal.scientific, if_true, written]
  rw [signed]
  cases more with
  | nil => exact .power single sign exponent
  | cons second others =>
    have behind := (List.forall_mem_cons.1 digits).2
    simpa using Spelled.point single behind (.exponent sign exponent)

theorem spelled_magnitude (x : Float) : Spelled (realLayout.magnitude x) := by
  unfold Decimal.Layout.magnitude
  dsimp only
  split
  · exact .plain whole_zero whole_zero.digits
  · rename_i nonzero
    obtain ⟨first, more, written, digits, lead⟩ := exists_whole (Nat.pos_of_ne_zero nonzero)
    rw [Decimal.digits, written]
    split
    · exact spelled_positional digits lead _
    · exact spelled_scientific digits _

theorem numberText_real (finite : x.isFinite = true) :
    numberText (.real x) =
      if Decimal.isNegative x then '-' :: realLayout.magnitude x else realLayout.magnitude x := by
  obtain ⟨number, bounded⟩ := isFinite_iff.1 finite
  simp only [numberText, Decimal.Layout.write, number, bounded, Bool.false_eq_true, if_false,
    String.toList_ofList]

theorem numberText_infinite (infinite : x.isFinite = false) :
    numberText (.real x) = ['n', 'u', 'l', 'l'] := by
  have special : realLayout.write x = "null" := by
    unfold Decimal.Layout.write
    by_cases number : x.isNaN = true
    · rw [if_pos number]
      rfl
    · have unbounded : x.isInf = true := by
        cases bounded : x.isInf with
        | true => rfl
        | false =>
          rw [isFinite_iff.2 ⟨by simpa using number, bounded⟩] at infinite
          cases infinite
      rw [if_neg number, if_pos unbounded]
      split <;> rfl
  rw [numberText, special]
  rfl

theorem Spelled.starts (spelled : Spelled text) :
    ∃ first more, text = first :: more ∧ first.isDigit = true := by
  cases spelled with
  | point whole places scale => exact ⟨_, _, rfl, whole.digits _ (List.mem_cons_self ..)⟩
  | power whole sign digits => exact ⟨_, _, rfl, whole.digits _ (List.mem_cons_self ..)⟩

theorem readsReal_real (finite : x.isFinite = true) : ReadsReal readNumber (numberText (.real x)) := by
  rw [numberText_real finite]
  have spelled := spelled_magnitude x
  split
  · exact spelled.read true
  · obtain ⟨value, read⟩ := spelled.read false
    obtain ⟨first, more, written, digit⟩ := spelled.starts
    refine ⟨value, fun rest ends => ?_⟩
    have noMinus : first ≠ '-' := by rintro rfl; cases digit
    rw [written] at read ⊢
    rw [List.cons_append, readNumber_unsigned noMinus]
    exact read rest ends

theorem afterWhole_ends (ends : endsValue rest = true) (negative : Bool) (first : Char)
    (s : Scaled) :
    afterWhole negative first s rest =
      if s.exponent = 0 then some (exactWhole negative s.significand, rest)
      else s.magnitude?.map fun x => (signed negative x, rest) := by
  have digitless := digitless_of_endsValue ends
  have whole : afterWhole negative first s rest = unscaled negative first s rest := by
    cases rest with
    | nil => rfl
    | cons c more =>
      obtain ⟨-, noPoint, noSmall, noLarge⟩ := head_of_endsValue ends
      exact afterWhole_unscaled noPoint noSmall noLarge more
  rw [whole, unscaled, digitless, Bool.and_false, if_neg Bool.false_ne_true]

-- The digits of a whole number, kept as far as they fit.
def scaledDigits (n : Nat) : Scaled := (wholeDigits false ⟨0, 0⟩ (Nat.toDigits 10 n)).1

theorem whole_toDigits (n : Nat) :
    ∃ first more, Nat.toDigits 10 n = first :: more ∧ Whole first more := by
  rcases Nat.eq_zero_or_pos n with rfl | positive
  · exact ⟨'0', [], rfl, whole_zero⟩
  · obtain ⟨first, more, written, digits, lead⟩ := exists_whole positive
    exact ⟨first, more, written, digits, fun zero => absurd zero lead⟩

theorem readMagnitude_toDigits (ends : endsValue rest = true) (negative : Bool) (n : Nat) :
    readMagnitude negative (Nat.toDigits 10 n ++ rest) =
      if (scaledDigits n).exponent = 0
      then some (exactWhole negative (scaledDigits n).significand, rest)
      else (scaledDigits n).magnitude?.map fun x => (signed negative x, rest) := by
  obtain ⟨first, more, written, whole⟩ := whole_toDigits n
  rw [scaledDigits, written, readMagnitude_whole whole negative (digitless_of_endsValue ends)]
  exact afterWhole_ends ends negative first _

theorem exponent_le_wholeDigits (text : List Char) (full : Bool) (s : Scaled) :
    s.exponent ≤ (wholeDigits full s text).1.exponent := by
  induction text generalizing full s with
  | nil => exact Int.le_refl _
  | cons c text ih =>
    rw [wholeDigits]
    split
    · exact Int.le_refl _
    · split
      · exact Int.le_trans (Int.le_add_of_nonneg_right (by decide)) (ih true _)
      · exact ih false _

theorem wholeDigits_large (digits : AllDigits text) (fits : n < wordBound)
    (large : wordBound ≤ Nat.ofDigitChars 10 text n) :
    0 < (wholeDigits false ⟨n, 0⟩ text).1.exponent := by
  induction text generalizing n with
  | nil => exact absurd large (Nat.not_le.2 fits)
  | cons c text ih =>
    obtain ⟨first, others⟩ := List.forall_mem_cons.1 digits
    have digit : digit? c = some (c.toNat - '0'.toNat) := by simp [digit?, first]
    rw [Nat.ofDigitChars_cons, Nat.mul_comm 10 n] at large
    simp only [wholeDigits, digit, Bool.false_or, decide_eq_true_eq]
    split
    · have kept := exponent_le_wholeDigits text true ⟨n, 0 + 1⟩
      exact Int.lt_of_lt_of_le (by decide : (0 : Int) < 0 + 1) kept
    · rename_i small
      exact ih others (Nat.not_le.1 small) large

theorem skipLayout_cons (ordinary : isLayout c = false) (rest : List Char) :
    skipLayout (c :: rest) = c :: rest := by simp [skipLayout, ordinary]

def startsValue (c : Char) : Prop := isLayout c = false ∧ c ≠ ']' ∧ c ≠ '\x7d'

theorem startsValue_number (start : c = '-' ∨ c.isDigit = true) : startsValue c := by
  rcases start with rfl | digit
  · exact ⟨rfl, by decide, by decide⟩
  · refine ⟨?_, ?_, ?_⟩
    · simp only [isLayout, Bool.or_eq_false_iff, decide_eq_false_iff_not]
      refine ⟨⟨⟨?_, ?_⟩, ?_⟩, ?_⟩ <;> (rintro rfl; cases digit)
    · rintro rfl; cases digit
    · rintro rfl; cases digit

theorem readValue_number (start : c = '-' ∨ c.isDigit = true) (fuel depth : Nat)
    (text : List Char) :
    readValue (fuel + 1) depth (c :: text) =
      (readNumber (c :: text)).map fun (n, rest) => (.number n, rest) := by
  rw [readValue, skipLayout_cons (startsValue_number start).1]
  split <;> simp_all

theorem starts_real (finite : x.isFinite = true) :
    ∃ c text, numberText (.real x) = c :: text ∧ (c = '-' ∨ c.isDigit = true) := by
  rw [numberText_real finite]
  split
  · exact ⟨_, _, rfl, .inl rfl⟩
  · obtain ⟨first, more, written, digit⟩ := (spelled_magnitude x).starts
    exact ⟨first, more, written, .inr digit⟩

theorem starts_whole (n : Int) :
    ∃ c text, numberText (.whole n) = c :: text ∧ (c = '-' ∨ c.isDigit = true) := by
  rw [numberText, wholeText]
  split
  · exact ⟨_, _, rfl, .inl rfl⟩
  · obtain ⟨first, more, written, whole⟩ := whole_toDigits n.natAbs
    exact ⟨first, more, written, .inr (whole.digits first (List.mem_cons_self ..))⟩

theorem readNumber_toDigits (n : Nat) (rest : List Char) :
    readNumber (Nat.toDigits 10 n ++ rest) = readMagnitude false (Nat.toDigits 10 n ++ rest) := by
  obtain ⟨first, more, written, whole⟩ := whole_toDigits n
  have digit := whole.digits first (List.mem_cons_self ..)
  have noMinus : first ≠ '-' := by rintro rfl; cases digit
  rw [written, List.cons_append, readNumber_unsigned noMinus]

theorem readNumber_whole (ends : endsValue rest = true) (n : Int) :
    readNumber (numberText (.whole n) ++ rest) =
      if (scaledDigits n.natAbs).exponent = 0
      then some (exactWhole (n < 0) (scaledDigits n.natAbs).significand, rest)
      else (scaledDigits n.natAbs).magnitude?.map fun x => (signed (n < 0) x, rest) := by
  rw [numberText, wholeText]
  by_cases negative : n < 0
  · rw [if_pos negative, decide_eq_true negative]
    exact readMagnitude_toDigits ends true n.natAbs
  · rw [if_neg negative, decide_eq_false negative, readNumber_toDigits]
    exact readMagnitude_toDigits ends false n.natAbs

def rereadNumber? (n : Number) : Option Json := (readValue 1 0 (numberText n)).map Prod.fst

-- A number whose text makes the same of every place that it stands in.
def ReadsAs (n : Number) (value : Option Json) : Prop :=
  ∀ fuel depth rest, endsValue rest = true →
    readValue (fuel + 1) depth (numberText n ++ rest) = value.map (·, rest)

theorem ReadsAs.rereadNumber? {n : Number} (reads : ReadsAs n value) : rereadNumber? n = value := by
  have alone := reads 0 0 [] rfl
  rw [List.append_nil] at alone
  rw [Json.rereadNumber?, alone]
  cases value <;> rfl

theorem readsAs_of_readNumber {n : Number} (value : Option Number)
    (starts : ∃ c text, numberText n = c :: text ∧ (c = '-' ∨ c.isDigit = true))
    (read : ∀ rest, endsValue rest = true → readNumber (numberText n ++ rest) = value.map (·, rest)) :
    ReadsAs n (value.map .number) := by
  intro fuel depth rest ends
  obtain ⟨c, text, written, start⟩ := starts
  have behind := read rest ends
  rw [written, List.cons_append] at behind ⊢
  rw [readValue_number start, behind]
  cases value <;> rfl

theorem readsAs_real (finite : x.isFinite = true) :
    ∃ value : Option Float, readNumber (numberText (.real x)) = value.map (.real ·, []) ∧
      ReadsAs (.real x) (value.map fun y => .number (.real y)) := by
  obtain ⟨value, read⟩ := readsReal_real finite
  have alone := read [] rfl
  rw [List.append_nil] at alone
  refine ⟨value, alone, ?_⟩
  have reads : ReadsAs (.real x) ((value.map Number.real).map .number) := by
    refine readsAs_of_readNumber _ (starts_real finite) fun rest ends => ?_
    rw [read rest ends, Option.map_map]
    rfl
  rwa [Option.map_map] at reads

theorem readsAs_infinite (infinite : x.isFinite = false) : ReadsAs (.real x) (some .null) := by
  intro fuel depth rest ends
  rw [numberText_infinite infinite]
  rfl

theorem readsAs_exact (n : Int) (inSmall : (scaledDigits n.natAbs).exponent = 0) :
    ∃ value, ReadsAs (.whole n) value := by
  let whole := exactWhole (n < 0) (scaledDigits n.natAbs).significand
  refine ⟨_, readsAs_of_readNumber (some whole) (starts_whole n) fun rest ends => ?_⟩
  rw [readNumber_whole ends, if_pos inSmall]
  rfl

theorem readsAs_scaled (n : Int) (scaled : (scaledDigits n.natAbs).exponent ≠ 0) :
    ∃ value : Option Float, ReadsAs (.whole n) (value.map fun x => .number (.real x)) := by
  let negative : Bool := n < 0
  refine ⟨(scaledDigits n.natAbs).magnitude?.map fun x => if negative then -x else x, ?_⟩
  have reads : ReadsAs (.whole n)
      (((scaledDigits n.natAbs).magnitude?.map (signed negative)).map .number) := by
    refine readsAs_of_readNumber _ (starts_whole n) fun rest ends => ?_
    rw [readNumber_whole ends, if_neg scaled, Option.map_map]
    rfl
  rw [Option.map_map] at reads ⊢
  exact reads

theorem rereadNumber?_large (large : wordBound ≤ n) :
    ∃ value : Option Float, rereadNumber? (.whole n) = value.map fun x => .number (.real x) := by
  have value : Nat.ofDigitChars 10 (Nat.toDigits 10 n) 0 = n := Nat.ofDigitChars_ten_toDigits
  have scaled : (scaledDigits n).exponent ≠ 0 :=
    Int.ne_of_gt (wholeDigits_large (allDigits_toDigits n) (by decide) (by rwa [value]))
  obtain ⟨value, reads⟩ := readsAs_scaled n scaled
  exact ⟨value, reads.rereadNumber?⟩

theorem readValue_numberText (n : Number) (fuel depth : Nat) (ends : endsValue rest = true) :
    readValue (fuel + 1) depth (numberText n ++ rest) = (rereadNumber? n).map (·, rest) := by
  obtain ⟨value, reads⟩ : ∃ value, ReadsAs n value := by
    cases n with
    | whole n =>
      by_cases inSmall : (scaledDigits n.natAbs).exponent = 0
      · exact readsAs_exact n inSmall
      · exact ⟨_, (readsAs_scaled n inSmall).choose_spec⟩
    | real x =>
      cases finite : x.isFinite with
      | true => exact ⟨_, (readsAs_real finite).choose_spec.2⟩
      | false => exact ⟨_, readsAs_infinite finite⟩
  rw [reads.rereadNumber?]
  exact reads fuel depth rest ends

theorem startsValue_numberText (n : Number) :
    ∃ c text, numberText n = c :: text ∧ startsValue c := by
  cases n with
  | whole n =>
    obtain ⟨c, text, written, start⟩ := starts_whole n
    exact ⟨c, text, written, startsValue_number start⟩
  | real x =>
    cases finite : x.isFinite with
    | true =>
      obtain ⟨c, text, written, start⟩ := starts_real finite
      exact ⟨c, text, written, startsValue_number start⟩
    | false => exact ⟨_, _, numberText_infinite finite, rfl, by decide, by decide⟩

end VisualNovel.Json

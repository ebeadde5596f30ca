import VisualNovel.Json.Selective
import VisualNovel.Json.Writer

namespace VisualNovel.Json

theorem readString_plain (visible : 0x20 ≤ c.toNat) (noQuote : c ≠ '"') (noEscape : c ≠ '\\')
    (rest : List Char) : readString (c :: rest) = keep c (readString rest) := by
  rw [readString]
  · have printed : ¬ (c.toNat < 0x20 || c = '\\') = true := by simp [noEscape]; omega
    rw [if_neg printed]
  all_goals simp_all

theorem readString_short (noUnit : c ≠ 'u') (escape : shortEscape? c = some plain)
    (rest : List Char) : readString ('\\' :: c :: rest) = keep plain (readString rest) := by
  rw [readString]
  · rw [escape]
  all_goals simp_all

theorem readString_unit (word : hexWord? a b c d = some unit) (plain : unit < 0xd800)
    (rest : List Char) :
    readString ('\\' :: 'u' :: a :: b :: c :: d :: rest) =
      keep (Char.ofNat unit) (readString rest) := by
  have notHigh : isHighSurrogate unit = false := by simp [isHighSurrogate]; omega
  have notLow : isLowSurrogate unit = false := by simp [isLowSurrogate]; omega
  generalize written : '\\' :: 'u' :: a :: b :: c :: d :: rest = text
  rw [readString.eq_def text]
  split <;> simp_all
  case h_5 other impossible =>
    exact absurd written.2.symm (impossible a b c d rest written.1.symm)
  case h_6 impossible => exact absurd written.2.symm (impossible _ _ written.1.symm)

theorem hexWord?_hexPair (control : n < 0x20) :
    hexWord? '0' '0' (Nat.digitChar (n / 16 % 16)) (Nat.digitChar (n % 16)) = some n := by
  have all : ∀ n < 0x20, hexWord? '0' '0' (Nat.digitChar (n / 16 % 16))
      (Nat.digitChar (n % 16)) = some n := by decide
  exact all n control

-- One case for each way in which a character is written.
theorem readString_escapeChar (c : Char) (rest : List Char) :
    readString (escapeChar c ++ rest) = keep c (readString rest) := by
  unfold escapeChar
  split
  · rename_i quote; subst quote; exact readString_short (by decide) rfl rest
  split
  · rename_i slash; subst slash; exact readString_short (by decide) rfl rest
  split
  · rename_i line; subst line; exact readString_short (by decide) rfl rest
  split
  · rename_i carriage; subst carriage; exact readString_short (by decide) rfl rest
  split
  · rename_i tab; subst tab; exact readString_short (by decide) rfl rest
  split
  · rename_i back; subst back; exact readString_short (by decide) rfl rest
  split
  · rename_i feed; subst feed; exact readString_short (by decide) rfl rest
  split
  · rename_i control
    have read := readString_unit (hexWord?_hexPair control) (by omega) rest
    rwa [Char.ofNat_toNat] at read
  · rename_i noQuote noEscape _ _ _ _ _ visible
    exact readString_plain (by omega) noQuote noEscape rest

theorem readString_escaped (text rest : List Char) :
    readString (text.flatMap escapeChar ++ '"' :: rest) = some (text, rest) := by
  induction text with
  | nil => simp [readString]
  | cons c text ih =>
    rw [List.flatMap_cons, List.append_assoc, readString_escapeChar, ih]
    rfl

-- A text behind a value: none, or what goes on with the list or object around it.
def endsValue : List Char → Bool
  | [] => true
  | c :: _ => c = ',' || c = ']' || c = '\x7d'

variable {rest : List Char}

-- A scan of digits goes on at a digit and stops at anything else, which it leaves.
structure ScansDigits (scan : σ → List Char → β × List Char) (result : σ → β)
    (next : σ → Nat → σ) : Prop where
  nil : ∀ s, scan s [] = (result s, [])
  digit : ∀ s c text d, digit? c = some d → scan s (c :: text) = scan (next s d) text
  other : ∀ s c text, digit? c = none → scan s (c :: text) = (result s, c :: text)

theorem wholeDigits_scans :
    ScansDigits (fun (s : Bool × Scaled) text => wholeDigits s.1 s.2 text) (fun s => s.2)
      fun s d => if s.1 || wordBound ≤ s.2.significand * 10 + d
        then (true, ⟨s.2.significand, s.2.exponent + 1⟩)
        else (false, ⟨s.2.significand * 10 + d, s.2.exponent⟩) where
  nil _ := rfl
  digit s c text d known := by
    simp only [wholeDigits, known]
    split <;> rfl
  other s c text known := by simp only [wholeDigits, known]

theorem fractionDigits_scans :
    ScansDigits (fun (s : Bool × Scaled) text => fractionDigits s.1 s.2 text) (fun s => s.2)
      fun s d => if s.1 || wordBound ≤ s.2.significand * 10 + d
        then (true, s.2)
        else (false, ⟨s.2.significand * 10 + d, s.2.exponent - 1⟩) where
  nil _ := rfl
  digit s c text d known := by
    simp only [fractionDigits, known]
    split <;> rfl
  other s c text known := by simp only [fractionDigits, known]

theorem readNat_scans : ScansDigits readNat id fun n d => n * 10 + d where
  nil _ := rfl
  digit s c text d known := by simp only [readNat, known]
  other s c text known := by simp only [readNat, known, id]

theorem head_of_endsValue (ends : endsValue (c :: more) = true) :
    c.isDigit = false ∧ c ≠ '.' ∧ c ≠ 'e' ∧ c ≠ 'E' := by
  simp only [endsValue, Bool.or_eq_true, decide_eq_true_eq, or_assoc] at ends
  rcases ends with rfl | rfl | rfl <;> decide

def exponentDigits (negative : Bool) (s : Scaled) (minus : Bool) (text : List Char) :
    Option (Number × List Char) :=
  match text with
  | [] => none
  | c :: _ =>
    if c.isDigit then
      let (e, rest) := readNat 0 text
      (withExponent negative s minus e).map (·, rest)
    else none

theorem readScale_plain (noSmall : c ≠ 'e') (noLarge : c ≠ 'E') (text : List Char) :
    readScale negative s (c :: text) =
      s.magnitude?.map fun x => (signed negative x, c :: text) := by
  unfold readScale
  split <;> simp_all

def unscaled (negative : Bool) (first : Char) (s : Scaled) (text : List Char) :
    Option (Number × List Char) :=
  if first = '0' && startsWithDigit text then none
  else if s.exponent = 0 then some (exactWhole negative s.significand, text)
  else s.magnitude?.map fun x => (signed negative x, text)

def afterWhole (negative : Bool) (first : Char) (s : Scaled) (text : List Char) :
    Option (Number × List Char) :=
  match text with
  | '.' :: d :: fraction =>
    if d.isDigit then
      let (s, rest) := fractionDigits false s (d :: fraction)
      readScale negative s rest
    else none
  | '.' :: [] => none
  | 'e' :: rest => readExponent negative s rest
  | 'E' :: rest => readExponent negative s rest
  | _ => unscaled negative first s text

theorem readMagnitude_cons (digit : first.isDigit = true) (text : List Char) :
    readMagnitude negative (first :: text) =
      let (s, rest) :=
        if first = '0' then (⟨0, 0⟩, text) else wholeDigits false ⟨0, 0⟩ (first :: text)
      afterWhole negative first s rest := by
  simp only [readMagnitude, digit, afterWhole]
  rfl

theorem afterWhole_unscaled (noPoint : c ≠ '.') (noSmall : c ≠ 'e') (noLarge : c ≠ 'E')
    (text : List Char) :
    afterWhole negative first s (c :: text) = unscaled negative first s (c :: text) := by
  unfold afterWhole
  split <;> simp_all

theorem readNumber_unsigned (noMinus : c ≠ '-') (text : List Char) :
    readNumber (c :: text) = readMagnitude false (c :: text) := by
  unfold readNumber
  split <;> simp_all

theorem startsNumber_of_readNumber (read : readNumber (c :: text) = some result) :
    c = '-' ∨ c.isDigit = true := by
  by_cases minus : c = '-'
  · exact .inl minus
  · rw [readNumber_unsigned minus] at read
    by_cases digit : c.isDigit = true
    · exact .inr digit
    · simp [readMagnitude, digit] at read

theorem le_ofDigitChars (digits : List Char) (n : Nat) : n ≤ Nat.ofDigitChars 10 digits n := by
  rw [Nat.ofDigitChars_eq_ofDigitChars_zero]
  have grown : 1 * n ≤ 10 ^ digits.length * n :=
    Nat.mul_le_mul_right n (Nat.one_le_pow _ _ (by decide))
  omega

theorem wholeDigits_digits (digits : ∀ c ∈ text, c.isDigit = true)
    (fits : Nat.ofDigitChars 10 text n < wordBound) :
    wholeDigits false ⟨n, 0⟩ text = (⟨Nat.ofDigitChars 10 text n, 0⟩, []) := by
  induction text generalizing n with
  | nil => simp [wholeDigits]
  | cons c text ih =>
    have digit : digit? c = some (c.toNat - '0'.toNat) := by
      simp [digit?, digits c (List.mem_cons_self ..)]
    rw [Nat.ofDigitChars_cons] at fits ⊢
    have small : n * 10 + (c.toNat - '0'.toNat) < wordBound := by
      have bound := le_ofDigitChars text (10 * n + (c.toNat - '0'.toNat))
      omega
    have others := fun d member => digits d (List.mem_cons_of_mem c member)
    rw [wholeDigits, digit]
    simp only [Bool.false_or, decide_eq_true_eq, if_neg (Nat.not_le.2 small)]
    rw [Nat.mul_comm n 10]
    exact ih others fits

theorem head?_toDigits (positive : 0 < n) : (Nat.toDigits 10 n).head? ≠ some '0' := by
  induction n using Nat.strongRecOn with
  | ind n ih =>
    by_cases small : n < 10
    · rw [Nat.toDigits_of_lt_base small]
      have all : ∀ n < 10, 0 < n → [Nat.digitChar n].head? ≠ some '0' := by decide
      exact all n small positive
    · have earlier := ih (n / 10) (by omega) (by omega)
      rw [Nat.toDigits_of_base_le (by decide) (by omega)]
      cases lead : Nat.toDigits 10 (n / 10) with
      | nil => exact absurd lead Nat.toDigits_ne_nil
      | cons c more => rwa [lead] at earlier

theorem readNumber_wholeText (fits : n < wordBound) :
    readNumber (wholeText n) = some (.whole n, []) := by
  have digits : ∀ c ∈ Nat.toDigits 10 n, c.isDigit = true := fun c member =>
    Nat.isDigit_of_mem_toDigits (by decide) (by decide) member
  have value : Nat.ofDigitChars 10 (Nat.toDigits 10 n) 0 = n := Nat.ofDigitChars_ten_toDigits
  have text : wholeText n = Nat.toDigits 10 n := by simp [wholeText]
  have read := wholeDigits_digits digits (by rwa [value])
  rw [text]
  rw [value] at read
  by_cases zero : n = 0
  · subst zero
    rfl
  · cases written : Nat.toDigits 10 n with
    | nil => exact absurd written Nat.toDigits_ne_nil
    | cons first more =>
      rw [written] at read
      have digit : first.isDigit = true := digits first (by simp [written])
      have noMinus : first ≠ '-' := by rintro rfl; cases digit
      have noZero : first ≠ '0' := by
        have head := head?_toDigits (Nat.pos_of_ne_zero zero)
        simpa [written] using head
      rw [readNumber_unsigned noMinus, readMagnitude_cons digit, if_neg noZero, read]
      simp [afterWhole, unscaled, noZero, exactWhole]

end VisualNovel.Json

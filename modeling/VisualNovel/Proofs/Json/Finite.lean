import VisualNovel.Proofs.Decimal
import VisualNovel.Proofs.Json.Numbers

namespace VisualNovel.Json

open Decimal

variable {s : Scaled} {text : List Char}

def Scaled.value (s : Scaled) : ℚ := s.significand * 10 ^ s.exponent

-- Far enough below the overflow for three roundings.
def Bounded (v : ℚ) : Prop := v * (1 + 1 / 2 ^ 52) ^ 2 < overflow

theorem Bounded.mono {v w : ℚ} (bounded : Bounded w) (below : v ≤ w) : Bounded v :=
  lt_of_le_of_lt (by gcongr) bounded

theorem overflow_lt : overflow < 10 ^ 309 := by
  calc overflow < 2 ^ 53 * 2 ^ 971 := by
        unfold overflow
        gcongr
        norm_num
    _ = (2 ^ 256) ^ 4 := by rw [← pow_add, ← pow_mul]
    _ ≤ (10 ^ 77 * (5 / 4)) ^ 4 := by
        gcongr
        norm_num
    _ ≤ (10 ^ 77) ^ 4 * 10 := by
        rw [mul_pow]
        gcongr
        norm_num
    _ = 10 ^ 309 := by rw [← pow_mul, ← pow_succ]

theorem Bounded.lt {v : ℚ} (bounded : Bounded v) (positive : 0 ≤ v) : v < 10 ^ 309 := by
  refine lt_trans (lt_of_le_of_lt ?_ bounded) overflow_lt
  have once : (1 : ℚ) ≤ (1 + 1 / 2 ^ 52) ^ 2 := by norm_num
  exact le_mul_of_one_le_right positive once

theorem Bounded.place_lt {c k : Nat} {q : Int} (bounded : Bounded (c * 10 ^ q))
    (large : 10 ^ k ≤ c) : k + q < 309 := by
  have large : (10 ^ k : ℚ) ≤ c := by exact_mod_cast large
  have power : (10 : ℚ) ^ (k + q) < 10 ^ (309 : Int) := by
    calc (10 : ℚ) ^ (k + q) = 10 ^ k * 10 ^ q := by rw [zpow_add₀ (by norm_num), zpow_natCast]
      _ ≤ c * 10 ^ q := by gcongr
      _ < 10 ^ (309 : Int) := bounded.lt (by positivity)
  exact (zpow_lt_zpow_iff_right₀ (by norm_num : (1 : ℚ) < 10)).1 power

theorem isSome_magnitude? (fits : s.significand < wordBound) (bounded : Bounded s.value) :
    s.magnitude?.isSome = true := by
  unfold Scaled.magnitude?
  dsimp only
  by_cases below : s.exponent < 0
  · rw [if_pos below]
    rfl
  obtain ⟨k, exponent⟩ := Int.eq_ofNat_of_zero_le (by omega : 0 ≤ s.exponent)
  rw [if_neg below, exponent, Int.toNat_natCast]
  by_cases beyond : 308 < k
  · have zero : s.significand = 0 := by
      by_contra positive
      have place := bounded.place_lt (k := 0) (Nat.one_le_iff_ne_zero.2 positive)
      omega
    rw [if_pos (by omega), zero]
    decide +kernel
  · rw [Scaled.value, exponent, zpow_natCast] at bounded
    rw [if_neg (by omega), isInf_scaled fits (by omega) bounded]
    rfl

theorem isSome_withExponent (negative minus : Bool) (e : Nat)
    (small : minus = true ∨ e < exponentBound) (fits : s.significand < wordBound)
    (bounded : Bounded (s.value * 10 ^ (if minus then -(e : Int) else e))) :
    (withExponent negative s minus e).isSome = true := by
  unfold withExponent
  split
  · rename_i large
    rcases small with rfl | small
    · simp
    · exact absurd large (Nat.not_le.2 small)
  · rw [Option.isSome_map]
    refine isSome_magnitude? fits ?_
    have same : Scaled.value ⟨s.significand, if minus then s.exponent - e else s.exponent + e⟩ =
        s.value * 10 ^ (if minus then -(e : Int) else e) := by
      rw [Scaled.value, Scaled.value, mul_assoc, ← zpow_add₀ (by norm_num)]
      cases minus <;> rfl
    rwa [← same] at bounded

theorem le_ofDigitChars_mul (digits : List Char) (n : Nat) :
    n * 10 ^ digits.length ≤ Nat.ofDigitChars 10 digits n := by
  rw [Nat.ofDigitChars_eq_ofDigitChars_zero, Nat.mul_comm]
  exact Nat.le_add_right _ _

theorem digit?_of_isDigit {c : Char} (digit : c.isDigit = true) :
    digit? c = some (c.toNat - '0'.toNat) := by simp [digit?, digit]

theorem value_le_ofDigitChars (s : Scaled) (text : List Char) :
    s.value ≤ Nat.ofDigitChars 10 text s.significand * 10 ^ (s.exponent - text.length) := by
  have grown : (s.significand * 10 ^ text.length : ℚ) ≤ Nat.ofDigitChars 10 text s.significand := by
    exact_mod_cast le_ofDigitChars_mul text s.significand
  have split : (10 : ℚ) ^ s.exponent = 10 ^ text.length * 10 ^ (s.exponent - text.length) := by
    rw [← zpow_natCast, ← zpow_add₀ (by norm_num), add_sub_cancel]
  rw [Scaled.value, split, ← mul_assoc]
  gcongr

theorem fractionDigits_full (digits : AllDigits text) (s : Scaled) :
    fractionDigits true s text = (s, []) := by
  induction text with
  | nil => rfl
  | cons c text ih =>
    obtain ⟨first, others⟩ := List.forall_mem_cons.1 digits
    simp only [fractionDigits, digit?_of_isDigit first, Bool.true_or, if_true]
    exact ih others

theorem fractionDigits_value (digits : AllDigits text) (s : Scaled) :
    ∃ t, fractionDigits false s text = (t, []) ∧
      t.value ≤ Nat.ofDigitChars 10 text s.significand * 10 ^ (s.exponent - text.length) ∧
      (s.significand < wordBound → t.significand < wordBound) := by
  induction text generalizing s with
  | nil => exact ⟨s, rfl, value_le_ofDigitChars s [], id⟩
  | cons c text ih =>
    obtain ⟨first, others⟩ := List.forall_mem_cons.1 digits
    simp only [fractionDigits, digit?_of_isDigit first, Bool.false_or, decide_eq_true_eq]
    split
    · exact ⟨s, fractionDigits_full others s, value_le_ofDigitChars s (c :: text), id⟩
    · rename_i room
      obtain ⟨t, read, value, fits⟩ := ih others
        ⟨s.significand * 10 + (c.toNat - '0'.toNat), s.exponent - 1⟩
      refine ⟨t, read, ?_, fun _ => fits (Nat.not_le.1 room)⟩
      have places : s.exponent - (c :: text).length = s.exponent - 1 - text.length := by
        rw [List.length_cons]
        omega
      rw [Nat.ofDigitChars_cons, Nat.mul_comm 10, places]
      exact value

theorem exponent_le_fractionDigits (text : List Char) (full : Bool) (s : Scaled) :
    (fractionDigits full s text).1.exponent ≤ s.exponent := by
  induction text generalizing full s with
  | nil => exact Int.le_refl _
  | cons c text ih =>
    rw [fractionDigits]
    split
    · exact Int.le_refl _
    · split
      · exact ih true s
      · exact Int.le_trans (ih false _) (Int.sub_le_self _ (by decide))

theorem ofDigitChars_lt (digits : AllDigits text) (n : Nat) :
    Nat.ofDigitChars 10 text n < (n + 1) * 10 ^ text.length := by
  induction text generalizing n with
  | nil => simp
  | cons c text ih =>
    obtain ⟨first, others⟩ := List.forall_mem_cons.1 digits
    have small : c.toNat - '0'.toNat < 10 := by
      simp [Char.isDigit, UInt32.le_iff_toNat_le] at first
      change c.toNat - 48 < 10
      have : c.toNat ≤ 57 := first.2
      omega
    rw [Nat.ofDigitChars_cons, List.length_cons, Nat.pow_succ', ← Nat.mul_assoc]
    exact Nat.lt_of_lt_of_le (ih others _) (Nat.mul_le_mul_right _ (by omega))

-- A number that is not too long before its point, and has no exponent, is never refused.
theorem isSome_point {first d : Char} {more others : List Char} (whole : Whole first more)
    (short : (first :: more).length ≤ 16) (places : AllDigits (d :: others)) (negative : Bool) :
    (readMagnitude negative (first :: more ++ '.' :: d :: others)).isSome = true := by
  have bound : Nat.ofDigitChars 10 (first :: more) 0 < 10 ^ 16 := by
    have lt := ofDigitChars_lt whole.digits 0
    rw [Nat.zero_add, Nat.one_mul] at lt
    exact Nat.lt_of_lt_of_le lt (Nat.pow_le_pow_right (by decide) short)
  obtain ⟨n, written⟩ : ∃ n, Nat.ofDigitChars 10 (first :: more) 0 = n := ⟨_, rfl⟩
  have read := wholeDigits_digits (n := 0) whole.digits
    (Nat.lt_trans bound (by decide))
  obtain ⟨digit, behind⟩ := List.forall_mem_cons.1 places
  rw [written] at bound read
  have room : n * 10 + (d.toNat - '0'.toNat) < wordBound := by
    have small : Nat.ofDigitChars 10 [d] n < (n + 1) * 10 ^ [d].length :=
      ofDigitChars_lt (List.forall_mem_singleton.2 digit) n
    rw [Nat.ofDigitChars_cons, Nat.ofDigitChars_nil] at small
    change _ < 2 ^ 64
    rw [List.length_singleton] at small
    omega
  obtain ⟨t, scanned, -, -⟩ := fractionDigits_value behind ⟨n * 10 + (d.toNat - '0'.toNat), 0 - 1⟩
  have below := exponent_le_fractionDigits others false ⟨n * 10 + (d.toNat - '0'.toNat), 0 - 1⟩
  rw [scanned] at below
  have down : t.exponent < 0 := Int.lt_of_le_of_lt below (show (0 - 1 : Int) < 0 by decide)
  rw [readMagnitude_whole whole negative rfl, read]
  simp only [afterWhole, digit, if_true, fractionDigits, digit?_of_isDigit digit, Bool.false_or,
    decide_eq_true_eq, if_neg (Nat.not_le.2 room), scanned]
  simp only [readScale, Option.isSome_map, Scaled.magnitude?, if_pos down]
  rfl

theorem readNat_digits (digits : AllDigits text) (n : Nat) :
    readNat n text = (Nat.ofDigitChars 10 text n, []) := by
  induction text generalizing n with
  | nil => rfl
  | cons c text ih =>
    obtain ⟨first, others⟩ := List.forall_mem_cons.1 digits
    simp only [readNat, digit?_of_isDigit first]
    rw [ih others, Nat.ofDigitChars_cons, Nat.mul_comm 10]

theorem exponentDigits_toDigits (negative minus : Bool) (s : Scaled) (n : Nat) :
    exponentDigits negative s minus (Nat.toDigits 10 n) =
      (withExponent negative s minus n).map (·, []) := by
  obtain ⟨first, more, written, whole⟩ := whole_toDigits n
  have read := readNat_digits (allDigits_toDigits n) 0
  rw [Nat.ofDigitChars_ten_toDigits] at read
  rw [written] at read ⊢
  simp only [exponentDigits, whole.digits first (List.mem_cons_self ..), if_true, read]

def exponentText (e : Int) : List Char :=
  (if e < 0 then ['-'] else ['+']) ++ Nat.toDigits 10 e.natAbs

theorem isSome_readExponent (negative : Bool) {e : Int} (small : e < exponentBound)
    (fits : s.significand < wordBound) (bounded : Bounded (s.value * 10 ^ e)) :
    (readExponent negative s (exponentText e)).isSome = true := by
  by_cases minus : e < 0
  · have same : -(e.natAbs : Int) = e := by omega
    have read : readExponent negative s (exponentText e) =
        exponentDigits negative s true (Nat.toDigits 10 e.natAbs) := by
      rw [exponentText, if_pos minus]
      rfl
    rw [read, exponentDigits_toDigits, Option.isSome_map]
    exact isSome_withExponent negative true _ (.inl rfl) fits
      (by rwa [if_pos rfl, same])
  · have same : (e.natAbs : Int) = e := by omega
    have read : readExponent negative s (exponentText e) =
        exponentDigits negative s false (Nat.toDigits 10 e.natAbs) := by
      rw [exponentText, if_neg minus]
      rfl
    rw [read, exponentDigits_toDigits, Option.isSome_map]
    refine isSome_withExponent negative false _ (.inr ?_) fits
      (by rwa [if_neg Bool.false_ne_true, same])
    have bound : (exponentBound : Int) = 2 ^ 31 := rfl
    have natural : exponentBound = 2 ^ 31 := rfl
    omega

theorem isSome_scientific {first : Char} {more : List Char} (digits : AllDigits (first :: more))
    {e : Int} (small : e < exponentBound) (negative : Bool)
    (bounded : Bounded (Nat.ofDigitChars 10 (first :: more) 0 * 10 ^ (e - more.length))) :
    (readMagnitude negative (scientific true (first :: more) e)).isSome = true := by
  obtain ⟨digit, behind⟩ := List.forall_mem_cons.1 digits
  have single : Whole first [] := ⟨List.forall_mem_singleton.2 digit, fun _ => rfl⟩
  obtain ⟨n, written⟩ : ∃ n, first.toNat - '0'.toNat = n := ⟨_, rfl⟩
  have few : n < 10 := by
    have lt := ofDigitChars_lt single.digits 0
    rw [Nat.ofDigitChars_cons, Nat.ofDigitChars_nil, written] at lt
    simpa using lt
  have value : Nat.ofDigitChars 10 [first] 0 = n := by
    rw [Nat.ofDigitChars_cons, Nat.ofDigitChars_nil, Nat.mul_zero, Nat.zero_add, written]
  have read := wholeDigits_digits (n := 0) single.digits
    (by rw [value]; exact Nat.lt_trans few (by decide))
  rw [value] at read
  rw [Nat.ofDigitChars_cons, Nat.mul_zero, Nat.zero_add, written] at bounded
  cases more with
  | nil =>
    have spelled : scientific true [first] e = [first] ++ 'e' :: exponentText e := by
      simp [scientific, exponentText, Decimal.digits]
    have whole : readMagnitude negative ([first] ++ 'e' :: exponentText e) = _ :=
      readMagnitude_whole single negative rfl
    rw [spelled, whole, read]
    refine isSome_readExponent negative small (Nat.lt_trans few (by decide)) ?_
    simpa [Scaled.value] using bounded
  | cons second others =>
    obtain ⟨t, scanned, value, fits⟩ := fractionDigits_value behind ⟨n, 0⟩
    have spelled : scientific true (first :: second :: others) e =
        [first] ++ '.' :: second :: (others ++ 'e' :: exponentText e) := by
      simp [scientific, exponentText, Decimal.digits]
    have whole : readMagnitude negative
        ([first] ++ '.' :: second :: (others ++ 'e' :: exponentText e)) = _ :=
      readMagnitude_whole single negative rfl
    obtain ⟨same, scan⟩ := fractionDigits_scans.all behind (false, ⟨n, 0⟩)
    have alone : fractionDigits false ⟨n, 0⟩ (second :: others ++ []) = (same, []) := scan [] rfl
    rw [List.append_nil, scanned, Prod.mk.injEq] at alone
    have inside : fractionDigits false ⟨n, 0⟩ (second :: (others ++ 'e' :: exponentText e)) =
        (same, 'e' :: exponentText e) := scan ('e' :: exponentText e) rfl
    rw [← alone.1] at inside
    have place := (List.forall_mem_cons.1 behind).1
    rw [spelled, whole, read]
    simp only [afterWhole, place, if_true, inside, readScale]
    -- The reader drops places, which only makes the number smaller.
    refine isSome_readExponent negative small (fits (Nat.lt_trans few (by decide)))
      (bounded.mono ?_)
    calc t.value * 10 ^ e
        ≤ Nat.ofDigitChars 10 (second :: others) n * 10 ^ (0 - ((second :: others).length : Int)) *
            10 ^ e := by gcongr
      _ = Nat.ofDigitChars 10 (second :: others) n * 10 ^ (e - (second :: others).length) := by
        rw [mul_assoc, ← zpow_add₀ (by norm_num), zero_sub, neg_add_eq_sub]

theorem isSome_readMagnitude {x : Float} (bounded : Bounded (Binary.ofFloat x).upper)
    (negative : Bool) : (readMagnitude negative (realLayout.magnitude x)).isSome = true := by
  have below := (Binary.ofFloat x).shortest_le realLayout.tie
  obtain ⟨d, digits⟩ : ∃ d, (Binary.ofFloat x).shortest realLayout.tie = d := ⟨_, rfl⟩
  unfold Layout.magnitude
  simp only [shortest, digits] at below ⊢
  split
  · exact isSome_point whole_zero (by decide) whole_zero.digits negative
  · rename_i nonzero
    obtain ⟨first, more, written, digit, lead⟩ := exists_whole (Nat.pos_of_ne_zero nonzero)
    have value : Nat.ofDigitChars 10 (first :: more) 0 = d.coefficient := by
      rw [← written, Nat.ofDigitChars_ten_toDigits]
    have length : (first :: more).length = more.length + 1 := rfl
    rw [Decimal.digits, written]
    split
    · rename_i reached
      simp only [realLayout, Reach.covers, Bool.and_eq_true, decide_eq_true_eq] at reached
      obtain ⟨start, before, c, others, positioned, whole, places, long⟩ := positional_cases digit lead
        (d.exponent + (first :: more).length - 1 + 1)
      have short : (start :: before).length ≤ 16 := by
        rw [List.length_cons]
        omega
      change (readMagnitude negative (positional true (first :: more) _)).isSome = true
      rw [positioned]
      exact isSome_point whole short places negative
    · have small := bounded.mono below
      have exponent : d.exponent + (first :: more).length - 1 - more.length = d.exponent := by
        rw [length]
        omega
      refine isSome_scientific digit ?_ negative ?_
      · have grown := le_ofDigitChars_mul more (first.toNat - '0'.toNat)
        rw [Nat.ofDigitChars_cons, Nat.mul_zero, Nat.zero_add] at value
        rw [value] at grown
        have one := one_le_digit (digit first (List.mem_cons_self ..)) lead
        have few := small.place_lt (Nat.le_trans (Nat.le_mul_of_pos_left _ one) grown)
        have bound : (exponentBound : Int) = 2 ^ 31 := rfl
        omega
      · rw [value, exponent]
        exact small

theorem biased_of_isFinite {x : Float} (finite : x.isFinite = true) :
    x.toBits.toNat / 2 ^ 52 % 2 ^ 11 ≠ 2047 := by
  intro special
  have exponent : @Float.Model.UnpackedFloat.unpackExponent .binary64 x.toBits.toBitVec = -1#11 := by
    apply BitVec.eq_of_toNat_eq
    change (x.toBits.toBitVec.toNat >>> 52) % 2 ^ 11 = 2047
    rw [Nat.shiftRight_eq_div_pow]
    exact special
  have unpacked : x.toModel.unpack.isFinite = true := finite
  unfold Float.Model.unpack Float.Model.UnpackedFloat.unpack at unpacked
  change @Float.Model.UnpackedFloat.unpackExponent .binary64 x.toModel.toBits.toBitVec = _
    at exponent
  simp only [if_pos exponent] at unpacked
  split at unpacked <;> cases unpacked

theorem bounded_upper {b : Binary} (mantissa : b.mantissa < 2 ^ 53) (exponent : b.exponent ≤ 971)
    (apart : b.exponent = 971 → b.mantissa < 2 ^ 53 - 5) : Bounded b.upper := by
  have least : Bounded ((2 ^ 55 - 22) * 2 ^ (969 : Int)) := by
    have unit : (0 : ℚ) < 2 ^ (969 : Int) := by positivity
    have top : overflow = (2 ^ 55 - 4) * 2 ^ (969 : Int) := by
      have split : (2 : ℚ) ^ 971 = 2 ^ (969 : Int) * 2 ^ 2 := by
        rw [zpow_ofNat, ← pow_add]
      rw [overflow, split]
      ring
    rw [Bounded, top, mul_right_comm]
    gcongr
    norm_num
  refine least.mono ?_
  rw [Binary.upper]
  by_cases same : b.exponent = 971
  · have bound : (b.mantissa + 6 : ℚ) ≤ 2 ^ 53 := by
      have below := apart same
      exact_mod_cast (by omega : b.mantissa + 6 ≤ 2 ^ 53)
    have unit : (971 : Int) - 2 = 969 := rfl
    rw [same, unit]
    gcongr
    linarith
  · have bound : (b.mantissa : ℚ) ≤ 2 ^ 53 := by exact_mod_cast mantissa.le
    have unit : (2 : ℚ) ^ (b.exponent - 2) ≤ 2 ^ (969 - 1 : Int) :=
      zpow_le_zpow_right₀ one_le_two (by omega)
    calc (4 * b.mantissa + 2 : ℚ) * 2 ^ (b.exponent - 2)
        ≤ (4 * 2 ^ 53 + 2) * 2 ^ (969 - 1 : Int) := by gcongr
      _ ≤ (2 ^ 55 - 22) * 2 ^ (969 : Int) := by
          rw [zpow_sub_one₀ two_ne_zero, mul_comm (2 ^ (969 : Int)), ← mul_assoc]
          gcongr
          norm_num

-- The five greatest doubles of either sign.
def greatest : List UInt64 :=
  [0x7feffffffffffffb, 0x7feffffffffffffc, 0x7feffffffffffffd, 0x7feffffffffffffe,
    0x7fefffffffffffff, 0xffeffffffffffffb, 0xffeffffffffffffc, 0xffeffffffffffffd,
    0xffeffffffffffffe, 0xffefffffffffffff]

theorem bounded_or_greatest {x : Float} (finite : x.isFinite = true) :
    Bounded (Binary.ofFloat x).upper ∨ x.toBits ∈ greatest := by
  have biased := biased_of_isFinite finite
  have word := x.toBits.toNat_lt
  by_cases top : x.toBits.toNat / 2 ^ 52 % 2 ^ 11 = 2046 ∧ 2 ^ 52 - 5 ≤ x.toBits.toNat % 2 ^ 52
  · right
    simp only [greatest, List.mem_cons, List.not_mem_nil, or_false, ← UInt64.toNat_inj]
    simp only [UInt64.reduceToNat]
    omega
  · left
    unfold Binary.ofFloat
    dsimp only
    split
    · apply bounded_upper <;> dsimp only <;> omega
    · apply bounded_upper <;> dsimp only <;> omega

theorem isSome_greatest : ∀ bits ∈ greatest, (Float.ofBits bits).toBits = bits ∧
    (readNumber (numberText (.real (.ofBits bits)))).isSome = true := by
  have each : greatest.all fun bits => (Float.ofBits bits).toBits = bits &&
      (readNumber (numberText (.real (.ofBits bits)))).isSome := by decide +kernel
  intro bits great
  have read := List.all_eq_true.1 each bits great
  rwa [Bool.and_eq_true, decide_eq_true_eq] at read

-- A finite double is read again, though not always as itself.
theorem isSome_readNumber {x : Float} (finite : x.isFinite = true) :
    (readNumber (numberText (.real x))).isSome = true := by
  rcases bounded_or_greatest finite with bounded | great
  · rw [numberText_real finite]
    split
    · exact isSome_readMagnitude bounded true
    · obtain ⟨first, more, written, digit⟩ := (spelled_magnitude x).starts
      have noMinus : first ≠ '-' := by rintro rfl; cases digit
      have read := isSome_readMagnitude bounded false
      rw [written] at read ⊢
      rwa [readNumber_unsigned noMinus]
  · obtain ⟨same, read⟩ := isSome_greatest x.toBits great
    rwa [Float.toBits_inj.1 same] at read

end VisualNovel.Json

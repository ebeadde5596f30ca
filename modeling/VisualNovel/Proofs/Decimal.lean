import VisualNovel.Decimal
import Mathlib.Algebra.Order.Field.Power
import Mathlib.Tactic.Linarith
import Mathlib.Tactic.NormNum
import Mathlib.Tactic.Positivity
import Mathlib.Tactic.Ring
import VisualNovel.Json.Reader
import Mathlib

namespace VisualNovel.Decimal

-- The upper end of the interval of reals that round to a double.
def Binary.upper (b : Binary) : ℚ := (4 * b.mantissa + 2) * 2 ^ (b.exponent - 2)

def Numeral.value (d : Numeral) : ℚ := d.coefficient * 10 ^ d.exponent

theorem zpow_toNat (base : ℚ) (i : Int) :
    base ^ i = base ^ i.toNat / base ^ (-i).toNat := by
  rcases Int.le_total 0 i with up | down
  · obtain ⟨n, rfl⟩ := Int.eq_ofNat_of_zero_le up
    simp
  · obtain ⟨n, rfl⟩ := Int.exists_eq_neg_ofNat down
    simp

-- A window is stated over a common denominator, without negative exponents.
theorem value_le_upper {b : Binary} {place : Int} {point : Nat}
    (below : point * (b.window place).grid ≤ (b.window place).high) :
    Numeral.value ⟨point, place⟩ ≤ b.upper := by
  have below : (point * (10 ^ place.toNat * 2 ^ (2 - b.exponent).toNat) : ℚ) ≤
      (4 * b.mantissa + 2) * (2 ^ (b.exponent - 2).toNat * 10 ^ (-place).toNat) := by
    exact_mod_cast below
  have turned : -(b.exponent - 2) = 2 - b.exponent := by omega
  rw [Numeral.value, Binary.upper, zpow_toNat 10 place, zpow_toNat 2, turned,
    ← mul_div_assoc, ← mul_div_assoc, div_le_div_iff₀ (by positivity) (by positivity)]
  linarith

theorem Window.le_high_of_admits {w : Window} {point : Nat} (admits : w.admits point = true) :
    point * w.grid ≤ w.high := by
  unfold Window.admits at admits
  split at admits
  · simp only [Bool.and_eq_true, decide_eq_true_eq] at admits
    exact admits.2
  · simp only [Bool.and_eq_true, decide_eq_true_eq] at admits
    exact admits.2.le

theorem Window.admits_of_choose {w : Window} {tie : Tie} {point : Nat}
    (chosen : w.choose tie = some point) : w.admits point = true := by
  unfold Window.choose at chosen
  dsimp only at chosen
  split at chosen
  · cases chosen
  · cases chosen; assumption
  · cases chosen; assumption
  · split at chosen
    · cases chosen; assumption
    · split at chosen
      · cases chosen; assumption
      · cases tie with
        | up => cases chosen; assumption
        | even =>
          cases chosen
          split <;> assumption

theorem Binary.search_le (b : Binary) (tie : Tie) (place : Int) (steps : Nat) :
    (b.search tie place steps).value ≤ b.upper := by
  induction steps generalizing place with
  | zero =>
    refine value_le_upper (le_trans (Nat.div_mul_le_self _ _) ?_)
    exact Nat.mul_le_mul_right _ (Nat.le_add_right _ 2)
  | succ steps ih =>
    rw [Binary.search]
    cases chosen : (b.window place).choose tie with
    | none => exact ih (place - 1)
    | some point => exact value_le_upper (Window.le_high_of_admits (Window.admits_of_choose chosen))

theorem Binary.shortest_le (b : Binary) (tie : Tie) : (b.shortest tie).value ≤ b.upper := by
  unfold Binary.shortest
  split
  · simp only [Numeral.value, Binary.upper]
    norm_num
    positivity
  · exact b.search_le tie _ _

open Float.Model Float.Model.UnpackedFloat

variable {m n : Nat} {e : Int}

theorem mantissa_shift (em : ExtendedMantissa) (k : Nat) :
    (em >>> k).mantissa = em.mantissa / 2 ^ k := by
  induction k with
  | zero => exact (Nat.div_one _).symm
  | succ k ih =>
    change (em >>> k).mantissa / 2 = _
    rw [ih, Nat.div_div_eq_div_mul, Nat.pow_succ]

theorem roundedMantissa_bounds (em : ExtendedMantissa) :
    em.mantissa ≤ em.roundedMantissa ∧ em.roundedMantissa ≤ em.mantissa + 1 := by
  obtain ⟨mantissa, roundBit, stickyBit⟩ := em
  cases roundBit <;> cases stickyBit <;>
    simp [ExtendedMantissa.roundedMantissa, ExtendedMantissa.accuracy,
      Accuracy.roundToNearestEven]
  omega

theorem targetExponent_eq (least : -1022 ≤ m.log2 + e) :
    Format.binary64.targetExponent (totalExponent m e) = m.log2 + e - 52 := by
  simp only [Format.targetExponent, totalExponent, Format.mantissaBits, Format.minExponent]
  norm_num
  omega

def leading (m : Nat) : Nat := m / 2 ^ (m.log2 - 52)

theorem leading_bounds (full : 52 ≤ m.log2) : 2 ^ 52 ≤ leading m ∧ leading m < 2 ^ 53 := by
  have nonzero : m ≠ 0 := by
    rintro rfl
    simp at full
  have split : 2 ^ 52 * 2 ^ (m.log2 - 52) = 2 ^ m.log2 := by
    rw [← Nat.pow_add, Nat.add_sub_cancel' full]
  constructor
  · rw [leading, Nat.le_div_iff_mul_le (Nat.two_pow_pos _), split]
    exact Nat.log2_self_le nonzero
  · rw [leading, Nat.div_lt_iff_lt_mul (Nat.two_pow_pos _)]
    have above : m < 2 ^ (m.log2 + 1) := Nat.lt_log2_self
    rw [Nat.pow_succ] at above
    omega

theorem shift_exact (full : 52 ≤ m.log2) (least : -1022 ≤ m.log2 + e) :
    shiftToTargetExponent .binary64 m e .exact =
      (ExtendedMantissa.mk m false false >>> (m.log2 - 52), e + (m.log2 - 52 : Nat)) := by
  have amount : (m.log2 + e - 52 - e).toNat = m.log2 - 52 := by omega
  rw [shiftToTargetExponent, targetExponent_eq least, shiftToExponent, amount]
  rfl

theorem shift_kept (full : m.log2 = 52) (least : -1074 ≤ e) :
    shiftToTargetExponent .binary64 m e .exact = (.mk m false false, e) := by
  have unshifted : m.log2 - 52 = 0 := by omega
  rw [shift_exact (by omega) (by omega), unshifted, Int.natCast_zero, Int.add_zero]
  rfl

-- A carry out of the 53 bits makes the double one longer, so that its exponent grows once more.
theorem round_full (full : 52 ≤ m.log2) (least : -1022 ≤ m.log2 + e) :
    ∃ r, ∃ positive : 0 < r, leading m ≤ r ∧ r ≤ leading m + 1 ∧
      roundWithAccuracy .binary64 .positive m e .exact =
        if r < 2 ^ 53 then .finite .positive r (e + (m.log2 - 52 : Nat)) positive
        else .finite .positive (2 ^ 52) (e + (m.log2 - 52 : Nat) + 1) (Nat.two_pow_pos 52) := by
  obtain ⟨em, shifted⟩ : ∃ em, ExtendedMantissa.mk m false false >>> (m.log2 - 52) = em :=
    ⟨_, rfl⟩
  have kept : em.mantissa = leading m := by
    rw [← shifted, mantissa_shift]
    rfl
  have bounds := roundedMantissa_bounds em
  have lead := leading_bounds full
  rw [kept] at bounds
  have positive : 0 < em.roundedMantissa := by omega
  refine ⟨em.roundedMantissa, positive, bounds.1, bounds.2, ?_⟩
  rw [roundWithAccuracy, shift_exact full least, shifted]
  dsimp only
  by_cases small : em.roundedMantissa < 2 ^ 53
  · have log : em.roundedMantissa.log2 = 52 :=
      (Nat.log2_eq_iff positive.ne').2 ⟨by omega, small⟩
    rw [if_pos small, shift_kept log (by omega)]
    exact dif_neg positive.ne'
  · have carried : em.roundedMantissa = 2 ^ 53 := by omega
    rw [if_neg small, carried, shift_exact (by decide) (by rw [Nat.log2_two_pow]; omega),
      Nat.log2_two_pow]
    rfl

-- A positive double of full precision, of at most this value.
def AtMost (f : UnpackedFloat) (bound : ℚ) : Prop :=
  ∃ m e positive, f = .finite .positive m e positive ∧ m.log2 = 52 ∧ -500 ≤ e ∧
    (m : ℚ) * 2 ^ e ≤ bound

theorem leading_le (m : Nat) (e : Int) :
    (leading m : ℚ) * 2 ^ (e + (m.log2 - 52 : Nat)) ≤ m * 2 ^ e := by
  have floor : leading m * 2 ^ (m.log2 - 52) ≤ m := Nat.div_mul_le_self _ _
  have floor : (leading m : ℚ) * 2 ^ (m.log2 - 52) ≤ m := by exact_mod_cast floor
  have positive : (0 : ℚ) < 2 ^ e := by positivity
  calc (leading m : ℚ) * 2 ^ (e + (m.log2 - 52 : Nat))
      = leading m * 2 ^ (m.log2 - 52) * 2 ^ e := by
        rw [zpow_add₀ two_ne_zero, zpow_natCast]
        ring
    _ ≤ m * 2 ^ e := by gcongr

theorem atMost_round (full : 52 ≤ m.log2) (least : -500 ≤ e) :
    AtMost (roundWithAccuracy .binary64 .positive m e .exact)
      (m * 2 ^ e * (1 + 1 / 2 ^ 52)) := by
  obtain ⟨r, positive, below, above, rounded⟩ := round_full full
    (show -1022 ≤ m.log2 + e by omega)
  have lead := leading_bounds full
  have value : (r : ℚ) * 2 ^ (e + (m.log2 - 52 : Nat)) ≤ m * 2 ^ e * (1 + 1 / 2 ^ 52) := by
    have large : (2 ^ 52 : ℚ) ≤ leading m := by exact_mod_cast lead.1
    have next : (r : ℚ) ≤ leading m + 1 := by exact_mod_cast above
    have unit : (0 : ℚ) < 2 ^ (e + (m.log2 - 52 : Nat)) := by positivity
    have floor := leading_le m e
    calc (r : ℚ) * 2 ^ (e + (m.log2 - 52 : Nat))
        ≤ leading m * (1 + 1 / 2 ^ 52) * 2 ^ (e + (m.log2 - 52 : Nat)) := by
          gcongr
          linarith
      _ = leading m * 2 ^ (e + (m.log2 - 52 : Nat)) * (1 + 1 / 2 ^ 52) := by ring
      _ ≤ m * 2 ^ e * (1 + 1 / 2 ^ 52) := by gcongr
  by_cases small : r < 2 ^ 53
  · rw [if_pos small] at rounded
    exact ⟨r, _, positive, rounded, (Nat.log2_eq_iff positive.ne').2 ⟨by omega, small⟩, by omega,
      value⟩
  · have carried : r = 2 ^ 53 := by omega
    rw [if_neg small] at rounded
    refine ⟨2 ^ 52, _, _, rounded, Nat.log2_two_pow, by omega, ?_⟩
    rw [carried] at value
    calc ((2 ^ 52 : Nat) : ℚ) * 2 ^ (e + (m.log2 - 52 : Nat) + 1)
        = (2 ^ 53 : Nat) * 2 ^ (e + (m.log2 - 52 : Nat)) := by
          rw [zpow_add₀ two_ne_zero]
          push_cast
          ring
      _ ≤ _ := value

theorem implicit_bit (lower : 2 ^ 52 ≤ m) (upper : m < 2 ^ 53) :
    (1#1 ++ BitVec.ofNat 52 m).toNat = m := by
  rw [BitVec.toNat_append, BitVec.toNat_ofNat, Nat.shiftLeft_eq]
  change 2 ^ 52 ||| m % 2 ^ 52 = m
  rw [Nat.or_comm, Nat.or_two_pow_eq_add_of_lt (Nat.mod_lt m (Nat.two_pow_pos 52))]
  omega

theorem toNat_field (fits : n < 2048) : (BitVec.ofNat 11 n).toNat = n := by
  rw [BitVec.toNat_ofNat]
  omega

theorem field_ne (fits : n < 2048) (code : BitVec 11) (other : n ≠ code.toNat) :
    BitVec.ofNat 11 n ≠ code := fun same => other (by rw [← same, toNat_field fits])

theorem pack_normal {biased : Nat} (full : m.log2 = 52) (fits : biased < 2047) (positive : 0 < m)
    (sign : Sign) : UnpackedFloat.pack .binary64 (.finite sign m (biased - 1075) positive) =
      packComponents .binary64 sign (.ofNat 11 biased) (.ofNat 52 m) := by
  have code : ((biased : Int) - 1075 + Format.binary64.exponentBias +
      Format.binary64.mantissaBitsWithoutImplicit).toNat = biased := by
    change ((biased : Int) - 1075 + 1023 + 52).toNat = biased
    omega
  have bounded : ¬ 2 ^ Format.binary64.exponentBits ≤ biased + 1 := by
    change ¬ 2048 ≤ biased + 1
    omega
  rw [UnpackedFloat.pack]
  dsimp only
  rw [code, if_neg bounded, full]
  exact if_pos rfl

theorem unpack_pack (full : m.log2 = 52) (least : -1074 ≤ e) (greatest : e ≤ 971)
    (positive : 0 < m) (sign : Sign) :
    (Float.Model.pack (.finite sign m e positive)).unpack = .finite sign m e positive := by
  obtain ⟨lower, upper⟩ := (Nat.log2_eq_iff positive.ne').1 full
  obtain ⟨biased, rfl⟩ : ∃ biased : Nat, e = biased - 1075 := ⟨(e + 1075).toNat, by omega⟩
  have finite := field_ne (n := biased) (by omega) (-1#11) (by change biased ≠ 2047; omega)
  have normal := field_ne (n := biased) (by omega) 0#11 (by change biased ≠ 0; omega)
  change UnpackedFloat.unpack .binary64 (UnpackedFloat.pack .binary64 _) = _
  rw [pack_normal full (by omega)]
  simp only [UnpackedFloat.unpack, unpackExponent_packComponents, unpackMantissa_packComponents,
    unpackSign_packComponents, Sign.ofBitVec_toBitVec, if_neg finite, if_neg normal,
    implicit_bit lower upper, toNat_field (show biased < 2048 by omega)]
  congr 1

theorem exponent_le {bound : ℚ} (full : m.log2 = 52) (positive : 0 < m)
    (value : (m : ℚ) * 2 ^ e ≤ bound) (small : bound < 2 ^ 1024) : e ≤ 971 := by
  have lower : (2 ^ 52 : ℚ) ≤ m := by
    exact_mod_cast ((Nat.log2_eq_iff positive.ne').1 full).1
  have unit : (0 : ℚ) < 2 ^ e := by positivity
  have power : (2 : ℚ) ^ (52 + e) < 2 ^ (1024 : Int) := by
    calc (2 : ℚ) ^ (52 + e) = 2 ^ 52 * 2 ^ e := by
          rw [zpow_add₀ two_ne_zero]
          rfl
      _ ≤ m * 2 ^ e := by gcongr
      _ ≤ bound := value
      _ < 2 ^ (1024 : Int) := small
  have exponents := (zpow_lt_zpow_iff_right₀ (one_lt_two (α := ℚ))).1 power
  omega

theorem AtMost.packed {f : UnpackedFloat} {bound : ℚ} (atMost : AtMost f bound)
    (small : bound < 2 ^ 1024) : AtMost (Float.Model.pack f).unpack bound := by
  obtain ⟨m, e, positive, rfl, full, least, value⟩ := atMost
  rw [unpack_pack full (by omega) (exponent_le full positive value small)]
  exact ⟨m, e, positive, rfl, full, least, value⟩

theorem log2_mul_two_pow (positive : 0 < n) (k : Nat) : (n * 2 ^ k).log2 = n.log2 + k := by
  have lower := Nat.log2_self_le positive.ne'
  have upper := Nat.lt_log2_self (n := n)
  rw [Nat.log2_eq_iff (by positivity), Nat.pow_add, Nat.add_right_comm, Nat.pow_add]
  constructor <;> gcongr

-- A number of fewer bits is widened before it is rounded.
theorem round_widened (n : Nat) : UnpackedFloat.round .binary64 .positive n 0 =
    roundWithAccuracy .binary64 .positive (n * 2 ^ (52 - n.log2)) (-(52 - n.log2 : Nat)) .exact := by
  have target := targetExponent_eq (m := n) (e := 0) (by omega)
  have amount : (0 - ((n.log2 : Int) + 0 - 52)).toNat = 52 - n.log2 := by omega
  rw [UnpackedFloat.round, target, decreaseExponent]
  dsimp only
  rw [amount, Nat.shiftLeft_eq, Int.zero_sub]

theorem ofUInt64_eq (positive : 0 < n) (fits : n < 2 ^ 64) :
    UnpackedFloat.ofUInt64 .binary64 n.toUInt64 = UnpackedFloat.round .binary64 .positive n 0 := by
  have kept : n.toUInt64.toNat = n := by simpa using fits
  rw [UnpackedFloat.ofUInt64, kept, UnpackedFloat.ofNat, UnpackedFloat.ofInt,
    UnpackedFloat.normalize, Int.compare_eq_gt.2 (show (0 : Int) < n by omega)]
  rfl

theorem word_lt (fits : n < 2 ^ 64) : (n : ℚ) * (1 + 1 / 2 ^ 52) < 2 ^ 1024 := by
  have small : (n : ℚ) < 2 ^ 64 := by exact_mod_cast fits
  calc (n : ℚ) * (1 + 1 / 2 ^ 52) ≤ 2 ^ 64 * (1 + 1 / 2 ^ 52) := by gcongr
    _ < 2 ^ 65 := by norm_num
    _ ≤ 2 ^ 1024 := pow_le_pow_right₀ one_le_two (by decide)

theorem atMost_toFloat (positive : 0 < n) (fits : n < 2 ^ 64) :
    AtMost n.toUInt64.toFloat.toModel.unpack (n * (1 + 1 / 2 ^ 52)) := by
  have log := log2_mul_two_pow positive (52 - n.log2)
  have rounds := atMost_round (m := n * 2 ^ (52 - n.log2)) (e := -(52 - n.log2 : Nat))
    (by omega) (by omega)
  have value : ((n * 2 ^ (52 - n.log2) : Nat) : ℚ) * 2 ^ (-(52 - n.log2 : Nat) : Int) = n := by
    rw [zpow_neg, zpow_natCast]
    push_cast
    exact mul_inv_cancel_right₀ (by positivity) _
  rw [value, ← round_widened, ← ofUInt64_eq positive fits] at rounds
  exact rounds.packed (word_lt fits)

theorem AtMost.isFinite {x : Float} {bound : ℚ} (atMost : AtMost x.toModel.unpack bound) :
    x.isFinite = true := by
  obtain ⟨m, e, positive, unpacked, -⟩ := atMost
  change x.toModel.unpack.isFinite = true
  rw [unpacked]
  rfl

theorem AtMost.isFinite_neg {x : Float} {bound : ℚ} (atMost : AtMost x.toModel.unpack bound)
    (small : bound < 2 ^ 1024) : (-x).isFinite = true := by
  obtain ⟨m, e, positive, unpacked, full, least, value⟩ := atMost
  have kept := unpack_pack full (by omega) (exponent_le full positive value small) positive .negative
  change (Float.Model.pack x.toModel.unpack.neg).unpack.isFinite = true
  rw [unpacked]
  exact congrArg UnpackedFloat.isFinite kept

theorem isFinite_toFloat (n : Nat) :
    n.toUInt64.toFloat.isFinite = true ∧ (-n.toUInt64.toFloat).isFinite = true := by
  have word : n.toUInt64 = (n % 2 ^ 64).toUInt64 := UInt64.toNat_inj.1 (by simp)
  have fits : n % 2 ^ 64 < 2 ^ 64 := Nat.mod_lt n (by decide)
  rw [word]
  rcases Nat.eq_zero_or_pos (n % 2 ^ 64) with zero | positive
  · rw [zero]
    decide
  · have atMost := atMost_toFloat positive fits
    exact ⟨atMost.isFinite, atMost.isFinite_neg (word_lt fits)⟩

theorem le_log2_mul {m₁ m₂ : Nat} (first : m₁.log2 = 52) (second : m₂.log2 = 52)
    (positive₁ : 0 < m₁) (positive₂ : 0 < m₂) : 104 ≤ (m₁ * m₂).log2 := by
  have lower₁ := ((Nat.log2_eq_iff positive₁.ne').1 first).1
  have lower₂ := ((Nat.log2_eq_iff positive₂.ne').1 second).1
  have product : 2 ^ 52 * 2 ^ 52 ≤ m₁ * m₂ := Nat.mul_le_mul lower₁ lower₂
  exact (Nat.le_log2 (Nat.mul_pos positive₁ positive₂).ne').2 product

-- What a product has to stay below. The next number above it may be rounded to an infinity.
def overflow : ℚ := (2 ^ 53 - 1) * 2 ^ 971

theorem lt_of_scaled {a b : ℚ} {i j : Int} (large : b ≤ a) (positive : 0 < b)
    (scaled : a * 2 ^ i < b * 2 ^ j) : i < j := by
  have unit : (0 : ℚ) < 2 ^ i := by positivity
  have below : b * 2 ^ i < b * 2 ^ j := lt_of_le_of_lt (by gcongr) scaled
  exact (zpow_lt_zpow_iff_right₀ one_lt_two).1 (lt_of_mul_lt_mul_left below positive.le)

theorem round_bounded (full : 52 ≤ m.log2) (least : -1022 ≤ m.log2 + e)
    (small : (m : ℚ) * 2 ^ e < overflow) :
    (Float.Model.pack (roundWithAccuracy .binary64 .positive m e .exact)).isInf = false := by
  obtain ⟨r, positive, below, above, rounded⟩ := round_full full least
  have lead := leading_bounds full
  have lower : (2 ^ 52 : ℚ) ≤ leading m := by exact_mod_cast lead.1
  have scaled : (leading m : ℚ) * 2 ^ (e + (m.log2 - 52 : Nat)) < (2 ^ 53 - 1) * 2 ^ (971 : Int) :=
    lt_of_le_of_lt (leading_le m e) small
  rw [Float.Model.isInf, rounded]
  by_cases carries : r < 2 ^ 53
  · have fits : e + (m.log2 - 52 : Nat) < 971 + 1 := by
      refine lt_of_scaled lower (by positivity) (lt_trans scaled ?_)
      rw [zpow_add_one₀ two_ne_zero, mul_left_comm, mul_comm]
      gcongr
      norm_num
    rw [if_pos carries, unpack_pack ((Nat.log2_eq_iff positive.ne').2 ⟨by omega, carries⟩)
      (by omega) (by omega)]
    rfl
  · have large : (2 ^ 53 - 1 : ℚ) ≤ leading m := by
      have next : (2 ^ 53 : ℚ) ≤ leading m + 1 := by exact_mod_cast (by omega : 2 ^ 53 ≤ leading m + 1)
      linarith
    have fits : e + (m.log2 - 52 : Nat) < 971 := lt_of_scaled large (by norm_num) scaled
    rw [if_neg carries, unpack_pack Nat.log2_two_pow (by omega) (by omega)]
    rfl

theorem AtMost.mul {f g : Float} {a b : ℚ} (first : AtMost f.toModel.unpack a)
    (second : AtMost g.toModel.unpack b) (small : a * b < overflow) : (f * g).isInf = false := by
  obtain ⟨m₁, e₁, positive₁, unpacked₁, full₁, least₁, value₁⟩ := first
  obtain ⟨m₂, e₂, positive₂, unpacked₂, full₂, least₂, value₂⟩ := second
  have product : (f * g).isInf = (Float.Model.pack
      (UnpackedFloat.mul .binary64 f.toModel.unpack g.toModel.unpack)).isInf := rfl
  have full := le_log2_mul full₁ full₂ positive₁ positive₂
  rw [product, unpacked₁, unpacked₂]
  refine round_bounded (m := m₁ * m₂) (e := e₁ + e₂) (by omega) (by omega) (lt_of_le_of_lt ?_ small)
  have unit₁ : (0 : ℚ) < 2 ^ e₁ := by positivity
  have unit₂ : (0 : ℚ) < 2 ^ e₂ := by positivity
  calc ((m₁ * m₂ : Nat) : ℚ) * 2 ^ (e₁ + e₂) = m₁ * 2 ^ e₁ * (m₂ * 2 ^ e₂) := by
        rw [zpow_add₀ two_ne_zero]
        push_cast
        ring
    _ ≤ a * b := mul_le_mul value₁ value₂ (by positivity) (le_trans (by positivity) value₁)

theorem powerOfTen_eq (k : Nat) : Json.powerOfTen k = .ofModel (.ofScientific 1 k) := by
  by_cases tabled : k < 23
  · have table : ∀ k < 23, Json.powerOfTen k = .ofModel (.ofScientific 1 k) := by decide +kernel
    exact table k tabled
  · rw [Json.powerOfTen, Float.ofScientific, dif_neg (by omega)]
    rfl

theorem ofScientific_eq {k : Nat} (small : k ≤ 308) : UnpackedFloat.ofScientific .binary64 1 k =
    roundWithAccuracy .binary64 .positive (2 ^ 53 * 10 ^ k) (-53) .exact := by
  have below : ¬ (k : Int) > 2 ^ Format.binary64.exponentBits := by
    change ¬ (k : Int) > 2048
    omega
  have above : ¬ (k : Int) < -((2 ^ Format.binary64.exponentBits : Int) + (1 : Nat).log2) := by
    change ¬ (k : Int) < -2048
    omega
  rw [UnpackedFloat.ofScientific, dif_neg one_ne_zero, if_neg below, if_neg above,
    if_pos (Int.natCast_nonneg k)]
  rfl

theorem atMost_powerOfTen {k : Nat} (small : k ≤ 308) :
    AtMost (Json.powerOfTen k).toModel.unpack (10 ^ k * (1 + 1 / 2 ^ 52)) := by
  have full : 52 ≤ (2 ^ 53 * 10 ^ k).log2 := by
    rw [Nat.le_log2 (by positivity)]
    exact le_trans (by decide) (Nat.le_mul_of_pos_right (2 ^ 53) (by positivity))
  have rounds := atMost_round full (show -500 ≤ -53 by decide)
  have value : ((2 ^ 53 * 10 ^ k : Nat) : ℚ) * 2 ^ (-53 : Int) = 10 ^ k := by
    have unit : (2 : ℚ) ^ (-53 : Int) = (2 ^ 53)⁻¹ := rfl
    rw [unit, Nat.cast_mul, mul_right_comm]
    norm_num
  rw [value, ← ofScientific_eq small] at rounds
  rw [powerOfTen_eq]
  refine rounds.packed ?_
  have once : (1 : ℚ) ≤ 1 + 1 / 2 ^ 52 := by norm_num
  calc (10 : ℚ) ^ k * (1 + 1 / 2 ^ 52) ≤ 10 ^ (77 * 4) * (1 + 1 / 2 ^ 52) ^ 4 := by
        gcongr
        · norm_num
        · exact le_self_pow₀ once (by decide)
    _ = (10 ^ 77 * (1 + 1 / 2 ^ 52)) ^ 4 := by rw [mul_pow, pow_mul]
    _ < (2 ^ 256) ^ 4 := by
        gcongr
        norm_num
    _ = 2 ^ 1024 := by rw [← pow_mul]

theorem isInf_scaled {n k : Nat} (fits : n < 2 ^ 64) (small : k ≤ 308)
    (bounded : (n : ℚ) * 10 ^ k * (1 + 1 / 2 ^ 52) ^ 2 < overflow) :
    (n.toUInt64.toFloat * Json.powerOfTen k).isInf = false := by
  have power := atMost_powerOfTen small
  rcases Nat.eq_zero_or_pos n with rfl | positive
  · obtain ⟨m, e, positive, unpacked, -⟩ := power
    have product : ((0 : Nat).toUInt64.toFloat * Json.powerOfTen k).isInf = (Float.Model.pack
        (UnpackedFloat.mul .binary64 (.zero .positive) (Json.powerOfTen k).toModel.unpack)).isInf :=
      rfl
    rw [product, unpacked]
    change (Float.Model.pack (.zero .positive)).isInf = false
    decide
  · refine (atMost_toFloat positive fits).mul power (lt_of_eq_of_lt ?_ bounded)
    ring

end VisualNovel.Decimal

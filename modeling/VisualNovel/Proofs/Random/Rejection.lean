import VisualNovel.Playback.Machine
import Mathlib.Logic.Function.Iterate

namespace VisualNovel.Generator

-- The loop of so many draws, all rejected but the last.
inductive Draws (draw : σ → UInt32 × σ) (bound : Nat) : Nat → σ → Nat → σ → Prop where
  | accepted (below : (draw source).1.toNat < threshold bound) :
      Draws draw bound 1 source ((draw source).1.toNat % bound) (draw source).2
  | rejected (beyond : threshold bound ≤ (draw source).1.toNat)
      (further : Draws draw bound draws (draw source).2 index later) :
      Draws draw bound (draws + 1) source index later

section

variable {draw : σ → UInt32 × σ} {source later : σ}

theorem Draws.drawBelow? (drawn : Draws draw bound draws source index later)
    (enough : draws ≤ tries) : drawBelow? draw bound tries source = some (index, later) := by
  induction drawn generalizing tries with
  | accepted below =>
    obtain ⟨more, rfl⟩ := Nat.exists_eq_succ_of_ne_zero (Nat.ne_zero_of_lt enough)
    simp only [Generator.drawBelow?, if_pos below]
  | rejected beyond further ih =>
    obtain ⟨more, rfl⟩ := Nat.exists_eq_succ_of_ne_zero (Nat.ne_zero_of_lt enough)
    simp only [Generator.drawBelow?, if_neg (Nat.not_lt.2 beyond)]
    exact ih (Nat.le_of_succ_le_succ enough)

theorem drawBelow?_eq_some_iff : drawBelow? draw bound tries source = some (index, later) ↔
    ∃ draws ≤ tries, Draws draw bound draws source index later := by
  constructor
  · intro found
    induction tries generalizing source with
    | zero => cases found
    | succ tries ih =>
      simp only [drawBelow?] at found
      split at found
      · rename_i below
        cases Option.some.inj found
        exact ⟨1, Nat.succ_pos tries, .accepted below⟩
      · rename_i above
        obtain ⟨draws, enough, further⟩ := ih found
        exact ⟨draws + 1, Nat.succ_le_succ enough, .rejected (Nat.not_lt.1 above) further⟩
  · rintro ⟨draws, enough, drawn⟩
    exact drawn.drawBelow? enough

theorem exists_draws (n : Nat)
    (below : (draw ((fun source => (draw source).2)^[n] source)).1.toNat < threshold bound) :
    ∃ draws ≤ n + 1, ∃ index later, Draws draw bound draws source index later := by
  induction n generalizing source with
  | zero => exact ⟨1, Nat.le_refl 1, _, _, .accepted below⟩
  | succ n ih =>
    by_cases first : (draw source).1.toNat < threshold bound
    · exact ⟨1, Nat.succ_pos _, _, _, .accepted first⟩
    · obtain ⟨draws, enough, index, later, further⟩ := ih below
      exact ⟨draws + 1, Nat.succ_le_succ enough, index, later,
        .rejected (Nat.not_lt.1 first) further⟩

theorem Draws.index_lt (drawn : Draws draw bound draws source index later)
    (positive : 0 < bound) : index < bound := by
  induction drawn with
  | accepted below => exact Nat.mod_lt _ positive
  | rejected beyond further ih => exact ih

end

def advance (g : Generator) : Generator := (next g).2

theorem state_advance (g : Generator) (n : Nat) :
    (advance^[n] g).state = stride * UInt32.ofNat n + g.state := by
  induction n with
  | zero => simp
  | succ n ih =>
    rw [Function.iterate_succ_apply']
    change stride + (advance^[n] g).state = _
    rw [ih, UInt32.ofNat_add]
    grind

-- What undoes the stride, as it is odd.
def strideInverse : UInt32 := 0xdc58aa5d

theorem stride_mul_strideInverse : stride * strideInverse = 1 := by decide

theorem exists_reaches (g : Generator) (target : UInt32) :
    ∃ n < wordCount, (advance^[n + 1] g).state = target := by
  let steps : UInt32 := strideInverse * (target - g.state) - 1
  refine ⟨steps.toNat, steps.toNat_lt, ?_⟩
  rw [state_advance, UInt32.ofNat_add, UInt32.ofNat_toNat]
  have unit := stride_mul_strideInverse
  grind

theorem threshold_le (bound : Nat) : threshold bound ≤ wordCount := Nat.div_mul_le_self ..

theorem le_threshold (positive : 0 < bound) (fits : bound ≤ wordCount) :
    bound ≤ threshold bound := by
  have runs : 1 ≤ wordCount / bound := (Nat.one_le_div_iff positive).2 fits
  exact Nat.le_mul_of_pos_left bound runs

theorem scramble_zero : scramble 0 = 0 := by decide

-- State 0 lies ahead of every state, and its draw is accepted.
theorem exists_accepted (g : Generator) (positive : 0 < bound) (fits : bound ≤ wordCount) :
    ∃ draws ≤ wordCount, ∃ index later, Draws next bound draws g index later := by
  obtain ⟨n, within, reached⟩ := exists_reaches g 0
  have drawn : (next (advance^[n] g)).1 = 0 := by
    rw [Function.iterate_succ_apply'] at reached
    change scramble (advance (advance^[n] g)).state = 0
    rw [reached, scramble_zero]
  have below : (next (advance^[n] g)).1.toNat < threshold bound := by
    rw [drawn]
    exact Nat.lt_of_lt_of_le positive (le_threshold positive fits)
  obtain ⟨draws, enough, ended⟩ := exists_draws n below
  exact ⟨draws, Nat.le_trans enough within, ended⟩

def bound (count : Nat) : Nat := min count (wordCount - 1)

theorem bound_pos (positive : 0 < count) : 0 < bound count := Nat.lt_min.2 ⟨positive, by decide⟩

theorem bound_le (count : Nat) : bound count ≤ count := Nat.min_le_left ..

theorem bound_lt (count : Nat) : bound count < wordCount :=
  Nat.lt_of_le_of_lt (Nat.min_le_right ..) (by decide)

theorem exists_pick (g : Generator) (positive : 0 < count) :
    ∃ draws ≤ wordCount, ∃ index later, Draws next (bound count) draws g index later ∧
      g.pick? count = some (index, later) ∧ index < count := by
  obtain ⟨draws, enough, index, later, drawn⟩ :=
    exists_accepted g (bound_pos positive) (Nat.le_of_lt (bound_lt count))
  have inside : index < bound count := drawn.index_lt (bound_pos positive)
  exact ⟨draws, enough, index, later, drawn, drawn.drawBelow? enough,
    Nat.lt_of_lt_of_le inside (bound_le count)⟩

-- The bound and the threshold as they are computed, in words of 32 and 64 bits.
def boundWord (count : Nat) : UInt32 := UInt32.ofNat (bound count)

def thresholdWord (bound : UInt32) : UInt64 :=
  ((-1 : UInt32).toUInt64 + 1) / bound.toUInt64 * bound.toUInt64

theorem toNat_boundWord (count : Nat) : (boundWord count).toNat = bound count :=
  UInt32.toNat_ofNat_of_lt' (bound_lt count)

theorem toNat_thresholdWord (bound : UInt32) :
    (thresholdWord bound).toNat = threshold bound.toNat := by
  have words : ((-1 : UInt32).toUInt64 + 1).toNat = wordCount := by decide
  have fits : threshold bound.toNat < 2 ^ 64 :=
    Nat.lt_of_le_of_lt (threshold_le _) (by decide)
  rw [thresholdWord, UInt64.toNat_mul, UInt64.toNat_div, words, UInt32.toNat_toUInt64]
  exact Nat.mod_eq_of_lt fits

theorem boundWord_ne_zero (positive : 0 < count) : (boundWord count).toUInt64 ≠ 0 := by
  intro zero
  have wrapped : (boundWord count).toUInt64.toNat = 0 := by rw [zero]; rfl
  rw [UInt32.toNat_toUInt64, toNat_boundWord] at wrapped
  exact Nat.ne_of_gt (bound_pos positive) wrapped

theorem pick_ends (g : Generator) (count : Nat) (positive : 0 < count) :
    (boundWord count).toUInt64 ≠ 0 ∧
    (thresholdWord (boundWord count)).toNat = threshold (bound count) ∧
    ∃ draws ≤ wordCount, ∃ index later, Draws next (bound count) draws g index later ∧
      g.pick? count = some (index, later) ∧ index < count := by
  refine ⟨boundWord_ne_zero positive, ?_, exists_pick g positive⟩
  rw [toNat_thresholdWord, toNat_boundWord]

-- A bound of which hardly one run of residues fits, so that about half of the draws are rejected.
theorem pick_ends_beyond_half : 0 < 2 ^ 31 + 1 ∧
    (boundWord (2 ^ 31 + 1)).toUInt64 ≠ 0 ∧
    (thresholdWord (boundWord (2 ^ 31 + 1))).toNat = 2 ^ 31 + 1 ∧
    ∃ draws ≤ wordCount, ∃ index later, Draws next (2 ^ 31 + 1) draws ⟨1⟩ index later ∧
      pick? ⟨1⟩ (2 ^ 31 + 1) = some (index, later) ∧ index < 2 ^ 31 + 1 := by
  have positive : 0 < 2 ^ 31 + 1 := by decide
  exact ⟨positive, pick_ends ⟨1⟩ (2 ^ 31 + 1) positive⟩

end VisualNovel.Generator

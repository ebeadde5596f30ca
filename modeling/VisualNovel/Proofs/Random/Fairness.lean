import VisualNovel.Proofs.Random.Rejection
import Mathlib.Data.Int.CardIntervalMod
import Mathlib.Data.Set.Card

namespace VisualNovel.Generator

variable {bound : Nat}

def accepting (bound residue : Nat) : Set UInt32 :=
  {word | word.toNat < threshold bound ∧ word.toNat % bound = residue}

def rejecting (bound : Nat) : Set UInt32 := {word | threshold bound ≤ word.toNat}

theorem threshold_isGreatest (positive : 0 < bound) :
    IsGreatest {multiple | bound ∣ multiple ∧ multiple ≤ wordCount} (threshold bound) := by
  refine ⟨⟨Nat.dvd_mul_left bound _, threshold_le bound⟩, ?_⟩
  rintro multiple ⟨⟨runs, rfl⟩, fits⟩
  have complete : runs ≤ wordCount / bound :=
    (Nat.le_div_iff_mul_le positive).2 (by rwa [Nat.mul_comm])
  calc bound * runs ≤ bound * (wordCount / bound) := Nat.mul_le_mul_left bound complete
    _ = threshold bound := Nat.mul_comm ..

-- Words are counted like the numbers that they stand for.
theorem ncard_words {p : Nat → Prop} [DecidablePred p] (fits : ∀ n, p n → n < limit)
    (words : limit ≤ wordCount) : {word : UInt32 | p word.toNat}.ncard = Nat.count p limit := by
  have image : UInt32.toNat '' {word | p word.toNat} = ((Finset.range limit).filter p : Set Nat) := by
    ext n
    simp only [Set.mem_image, Set.mem_ofPred_eq, Finset.coe_filter, Finset.mem_range]
    constructor
    · rintro ⟨word, holds, rfl⟩
      exact ⟨fits _ holds, holds⟩
    · rintro ⟨small, holds⟩
      have back : (UInt32.ofNat n).toNat = n :=
        UInt32.toNat_ofNat_of_lt' (Nat.lt_of_lt_of_le small words)
      exact ⟨UInt32.ofNat n, back.symm ▸ holds, back⟩
  have injective : Function.Injective UInt32.toNat := fun _ _ => UInt32.toNat_inj.1
  rw [← Set.ncard_image_of_injective _ injective, image, Set.ncard_coe_finset,
    Nat.count_eq_card_filter_range]

theorem ncard_accepting (inside : residue < bound) :
    (accepting bound residue).ncard = wordCount / bound := by
  have positive : 0 < bound := Nat.zero_lt_of_lt inside
  have counted : (accepting bound residue).ncard =
      Nat.count (fun n => n < threshold bound ∧ n % bound = residue) (threshold bound) :=
    ncard_words (p := fun n => n < threshold bound ∧ n % bound = residue) (fun _ => And.left)
      (threshold_le bound)
  have congruent : Nat.count (fun n => n < threshold bound ∧ n % bound = residue)
      (threshold bound) = Nat.count (· ≡ residue [MOD bound]) (threshold bound) := by
    rw [Nat.count_eq_card_filter_range, Nat.count_eq_card_filter_range]
    refine congrArg Finset.card (Finset.filter_congr fun n member => ?_)
    simp [Finset.mem_range.1 member, Nat.ModEq, Nat.mod_eq_of_lt inside]
  -- No run is left incomplete below the threshold.
  have complete : threshold bound % bound = 0 := Nat.mul_mod_left ..
  rw [counted, congruent, Nat.count_modEq_card _ positive, complete, if_neg (Nat.not_lt_zero _)]
  exact Nat.mul_div_left _ positive

theorem ncard_rejecting (bound : Nat) : (rejecting bound).ncard = wordCount - threshold bound := by
  have counted : (rejecting bound).ncard =
      Nat.count (fun n => threshold bound ≤ n ∧ n < wordCount) wordCount := by
    rw [← ncard_words (fun _ => And.right) (Nat.le_refl _)]
    refine congrArg Set.ncard (Set.ext fun word => ?_)
    simp only [rejecting, Set.mem_ofPred_eq]
    exact (and_iff_left word.toNat_lt).symm
  have interval : (Finset.range wordCount).filter (fun n => threshold bound ≤ n ∧ n < wordCount) =
      Finset.Ico (threshold bound) wordCount := by
    ext n
    simp only [Finset.mem_filter, Finset.mem_range, Finset.mem_Ico]
    exact ⟨And.right, fun within => ⟨within.2, within⟩⟩
  rw [counted, Nat.count_eq_card_filter_range, interval, Nat.card_Ico]

theorem ncard_rejecting_lt (positive : 0 < bound) (fits : bound ≤ wordCount) :
    2 * (rejecting bound).ncard < wordCount := by
  have beyond : wordCount < threshold bound + bound := Nat.lt_div_mul_add positive
  have below := le_threshold positive fits
  have within := threshold_le bound
  rw [ncard_rejecting]
  omega

section

variable {draw : σ → UInt32 × σ} {source later : σ}

def behind (draw : σ → UInt32 × σ) (source : σ) (draws : Nat) : σ :=
  (fun source => (draw source).2)^[draws] source

def drawAt (draw : σ → UInt32 × σ) (source : σ) (index : Nat) : UInt32 :=
  (draw (behind draw source index)).1

structure FirstBelow (draw : σ → UInt32 × σ) (bound : Nat) (source : σ) (n : Nat) : Prop where
  below : (drawAt draw source n).toNat < threshold bound
  earlier : ∀ i < n, threshold bound ≤ (drawAt draw source i).toNat

theorem FirstBelow.tail (first : FirstBelow draw bound source (n + 1)) :
    FirstBelow draw bound (draw source).2 n :=
  ⟨first.below, fun i early => first.earlier (i + 1) (Nat.succ_lt_succ early)⟩

theorem FirstBelow.cons (beyond : threshold bound ≤ (draw source).1.toNat)
    (first : FirstBelow draw bound (draw source).2 n) : FirstBelow draw bound source (n + 1) := by
  refine ⟨first.below, fun i early => ?_⟩
  cases i with
  | zero => exact beyond
  | succ i => exact first.earlier i (Nat.lt_of_succ_lt_succ early)

theorem FirstBelow.draws (first : FirstBelow draw bound source n) :
    Draws draw bound (n + 1) source ((drawAt draw source n).toNat % bound)
      (behind draw source (n + 1)) := by
  induction n generalizing source with
  | zero => exact .accepted first.below
  | succ n ih => exact .rejected (first.earlier 0 (Nat.succ_pos n)) (ih first.tail)

theorem draws_iff : Draws draw bound draws source index later ↔
    ∃ n, draws = n + 1 ∧ FirstBelow draw bound source n ∧
      index = (drawAt draw source n).toNat % bound ∧ later = behind draw source (n + 1) := by
  constructor
  · intro drawn
    induction drawn with
    | accepted below => exact ⟨0, rfl, ⟨below, nofun⟩, rfl, rfl⟩
    | rejected beyond further ih =>
      obtain ⟨n, rfl, first, rfl, rfl⟩ := ih
      exact ⟨n + 1, rfl, first.cons beyond, rfl, rfl⟩
  · rintro ⟨n, rfl, first, rfl, rfl⟩
    exact first.draws

theorem drawBelow?_eq_some_iff_first : drawBelow? draw bound tries source = some (index, later) ↔
    ∃ n < tries, FirstBelow draw bound source n ∧
      index = (drawAt draw source n).toNat % bound ∧ later = behind draw source (n + 1) := by
  rw [drawBelow?_eq_some_iff]
  constructor
  · rintro ⟨draws, enough, drawn⟩
    obtain ⟨n, rfl, first, residue, rest⟩ := draws_iff.1 drawn
    exact ⟨n, enough, first, residue, rest⟩
  · rintro ⟨n, enough, first, residue, rest⟩
    exact ⟨n + 1, enough, draws_iff.2 ⟨n, rfl, first, residue, rest⟩⟩

end

theorem rejection_is_fair (draw : σ → UInt32 × σ) (bound : Nat) (positive : 0 < bound)
    (fits : bound < wordCount) :
    (thresholdWord (UInt32.ofNat bound)).toNat = threshold bound ∧
    IsGreatest {multiple | bound ∣ multiple ∧ multiple ≤ wordCount} (threshold bound) ∧
    2 * (rejecting bound).ncard < wordCount ∧
    (∀ residue < bound, (accepting bound residue).ncard = wordCount / bound) ∧
    ∀ tries source index later, drawBelow? draw bound tries source = some (index, later) ↔
      ∃ n < tries, FirstBelow draw bound source n ∧
        index = (drawAt draw source n).toNat % bound ∧ later = behind draw source (n + 1) := by
  have word : (UInt32.ofNat bound).toNat = bound := UInt32.toNat_ofNat_of_lt' fits
  refine ⟨?_, threshold_isGreatest positive, ncard_rejecting_lt positive (Nat.le_of_lt fits),
    fun residue inside => ncard_accepting inside, fun tries source index later => ?_⟩
  · rw [toNat_thresholdWord, word]
  · exact drawBelow?_eq_some_iff_first

-- Ten residues: the greatest word lies beyond the threshold, the draw after it is taken.
theorem rejection_is_fair_for_ten : 0 < 10 ∧ 10 < wordCount ∧
    (accepting 10 9).ncard = 429496729 ∧
    drawBelow? (fun n : Nat => (if n = 0 then -1 else 42, n + 1)) 10 5 0 = some (2, 2) := by
  have positive : 0 < 10 := by decide
  have fits : 10 < wordCount := by decide
  obtain ⟨-, -, -, equally, first⟩ :=
    rejection_is_fair (fun n : Nat => (if n = 0 then -1 else 42, n + 1)) 10 positive fits
  refine ⟨positive, fits, equally 9 (by decide), (first 5 0 2 2).2 ⟨1, by decide, ⟨?_, ?_⟩, ?_, ?_⟩⟩
  · decide
  · intro i early
    cases Nat.lt_one_iff.1 early
    decide
  · decide
  · decide

end VisualNovel.Generator

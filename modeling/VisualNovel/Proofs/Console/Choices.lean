import VisualNovel.Console.Player
import VisualNovel.Proofs.Json.Numbers

namespace VisualNovel

-- The decimal digits of a number, with zeros and at most one plus before them.
def SpellsNumber (typed : String) (n : Nat) : Prop :=
  ∃ sign zeros, (sign = [] ∨ sign = ['+']) ∧
    typed.toList = sign ++ (List.replicate zeros '0' ++ Nat.toDigits 10 n)

-- What a line picks: the option at the place that it spells, or else the label that it is.
inductive Picks (options : List ChoiceOption) (typed : String) : String → Prop where
  | place (spelled : SpellsNumber typed (index + 1)) (small : index + 1 < countLimit)
      (there : options[index]? = some option) : Picks options typed option.label
  | label (word : ∀ n < countLimit, ¬ SpellsNumber typed n) (member : option ∈ options)
      (own : option.label = typed) : Picks options typed typed

variable {options : List ChoiceOption} {typed : String} {text : List Char}

theorem value_lt_of_isDigit {c : Char} (digit : c.isDigit = true) : c.toNat - '0'.toNat < 10 :=
  Nat.lt_of_le_of_lt (Nat.sub_le_sub_right (Char.isDigit_iff_toNat.1 digit).2 _) (by decide)

theorem digitChar_of_isDigit {c : Char} (digit : c.isDigit = true) :
    Nat.digitChar (c.toNat - '0'.toNat) = c := by
  have named : ∀ d < 10, Nat.digitChar d = Char.ofNat ('0'.toNat + d) := by decide
  have low : '0'.toNat ≤ c.toNat := (Char.isDigit_iff_toNat.1 digit).1
  rw [named _ (value_lt_of_isDigit digit), Nat.add_sub_cancel' low, Char.ofNat_toNat]

theorem toDigits_ofDigitChars (digits : Json.AllDigits text) (positive : 0 < n) :
    Nat.toDigits 10 (Nat.ofDigitChars 10 text n) = Nat.toDigits 10 n ++ text := by
  induction text generalizing n with
  | nil => simp [Nat.ofDigitChars_nil]
  | cons c text ih =>
    obtain ⟨digit, others⟩ := List.forall_mem_cons.1 digits
    have small := value_lt_of_isDigit digit
    have longer : Nat.toDigits 10 (10 * n + (c.toNat - '0'.toNat)) = Nat.toDigits 10 n ++ [c] := by
      rw [← Nat.toDigits_append_toDigits (by decide) positive small, Nat.toDigits_of_lt_base small,
        digitChar_of_isDigit digit]
    rw [Nat.ofDigitChars_cons, ih others (by omega), longer, List.append_assoc,
      List.singleton_append]

theorem digits_spelled (digits : Json.AllDigits text) (nonempty : text ≠ []) :
    ∃ zeros, text = List.replicate zeros '0' ++ Nat.toDigits 10 (Nat.ofDigitChars 10 text 0) := by
  induction text with
  | nil => exact absurd rfl nonempty
  | cons c text ih =>
    obtain ⟨digit, others⟩ := List.forall_mem_cons.1 digits
    by_cases zero : c = '0'
    · subst zero
      cases text with
      | nil => exact ⟨0, rfl⟩
      | cons d more =>
        obtain ⟨zeros, spelled⟩ := ih others (List.cons_ne_nil d more)
        refine ⟨zeros + 1, ?_⟩
        rw [List.replicate_succ, List.cons_append, Nat.ofDigitChars_cons]
        exact congrArg (List.cons '0') spelled
    · have positive : 0 < c.toNat - '0'.toNat := Json.one_le_digit digit zero
      have small : c.toNat - '0'.toNat < 10 := value_lt_of_isDigit digit
      refine ⟨0, ?_⟩
      rw [Nat.ofDigitChars_cons, Nat.mul_zero, Nat.zero_add, toDigits_ofDigitChars others positive,
        Nat.toDigits_of_lt_base small, digitChar_of_isDigit digit]
      rfl

theorem allDigits_spelled (zeros n : Nat) :
    Json.AllDigits (List.replicate zeros '0' ++ Nat.toDigits 10 n) :=
  Json.allDigits_append (Json.allDigits_zeros zeros) (Json.allDigits_toDigits n)

theorem ofDigitChars_spelled (zeros n : Nat) :
    Nat.ofDigitChars 10 (List.replicate zeros '0' ++ Nat.toDigits 10 n) 0 = n := by
  rw [Nat.ofDigitChars_append, Nat.ofDigitChars_replicate_zero, Nat.mul_zero,
    Nat.ofDigitChars_ten_toDigits]

theorem naturalOf?_digits (digits : Json.AllDigits text) (nonempty : text ≠ []) :
    naturalOf? text = some (Nat.ofDigitChars 10 text 0) ∧
      naturalOf? ('+' :: text) = some (Nat.ofDigitChars 10 text 0) := by
  have all : text.all Char.isDigit = true := List.all_eq_true.2 digits
  refine ⟨?_, by simp [naturalOf?, nonempty, all]⟩
  cases text with
  | nil => exact absurd rfl nonempty
  | cons c more =>
    have noPlus : c ≠ '+' := by
      rintro rfl
      exact absurd (digits '+' (List.mem_cons_self ..)) (by decide)
    simp [naturalOf?, noPlus, all]

theorem digits_of_naturalOf? (read : naturalOf? text = some n) :
    ∃ sign digits, (sign = [] ∨ sign = ['+']) ∧ text = sign ++ digits ∧ Json.AllDigits digits ∧
      digits ≠ [] ∧ Nat.ofDigitChars 10 digits 0 = n := by
  unfold naturalOf? at read
  dsimp only at read
  split at read
  · rename_i digits
    refine ⟨['+'], digits, .inr rfl, rfl, ?_⟩
    simpa [Json.AllDigits, and_assoc, and_left_comm] using read
  · refine ⟨[], text, .inl rfl, rfl, ?_⟩
    simpa [Json.AllDigits, and_assoc, and_left_comm] using read

theorem naturalOf?_eq_some_iff : naturalOf? typed.toList = some n ↔ SpellsNumber typed n := by
  constructor
  · intro read
    obtain ⟨sign, digits, plus, cut, all, nonempty, value⟩ := digits_of_naturalOf? read
    obtain ⟨zeros, spelled⟩ := digits_spelled all nonempty
    rw [value] at spelled
    exact ⟨sign, zeros, plus, by rw [cut, spelled]⟩
  · rintro ⟨sign, zeros, plus, spelled⟩
    have nonempty : List.replicate zeros '0' ++ Nat.toDigits 10 n ≠ [] := by simp
    obtain ⟨bare, signed⟩ := naturalOf?_digits (allDigits_spelled zeros n) nonempty
    rw [ofDigitChars_spelled] at bare signed
    rw [spelled]
    rcases plus with rfl | rfl
    · exact bare
    · exact signed

theorem SpellsNumber.unique (spelled : SpellsNumber typed n) (other : SpellsNumber typed k) :
    n = k :=
  Option.some.inj ((naturalOf?_eq_some_iff.2 spelled).symm.trans (naturalOf?_eq_some_iff.2 other))

theorem SpellsNumber.beyond (spelled : SpellsNumber typed n) (beyond : options.length < n) :
    ∀ index < options.length, ¬ SpellsNumber typed (index + 1) := by
  intro index inside place
  have same := spelled.unique place
  omega

theorem spellsNumber_toString (n : Nat) : SpellsNumber (toString n) n :=
  ⟨[], 0, .inl rfl, by simp [Nat.toString_eq_repr, Nat.toList_repr]⟩

theorem resolveChoice_of_spelled (spelled : SpellsNumber typed n) (small : n < countLimit) :
    resolveChoice typed options =
      match n with
      | 0 => none
      | index + 1 => options[index]?.map ChoiceOption.label := by
  have read : (naturalOf? typed.toList).filter (· < countLimit) = some n := by
    simp [naturalOf?_eq_some_iff.2 spelled, small]
  rw [resolveChoice, read]
  cases n <;> rfl

theorem resolveChoice_of_word (word : ∀ n < countLimit, ¬ SpellsNumber typed n) :
    resolveChoice typed options =
      (options.find? fun option => option.label = typed).map ChoiceOption.label := by
  have unread : (naturalOf? typed.toList).filter (· < countLimit) = none := by
    refine Option.filter_eq_none_iff.2 fun n read small => ?_
    exact word n (of_decide_eq_true small) (naturalOf?_eq_some_iff.1 read)
  rw [resolveChoice, unread]

theorem resolveChoice_eq_some_iff :
    resolveChoice typed options = some label ↔ Picks options typed label := by
  by_cases number : ∃ n < countLimit, SpellsNumber typed n
  · obtain ⟨n, small, spelled⟩ := number
    rw [resolveChoice_of_spelled spelled small]
    constructor
    · intro picked
      cases n with
      | zero => cases picked
      | succ index =>
        obtain ⟨option, there, rfl⟩ := Option.map_eq_some_iff.1 picked
        exact .place spelled small there
    · intro picks
      cases picks with
      | place again below there =>
        cases spelled.unique again
        exact Option.map_eq_some_iff.2 ⟨_, there, rfl⟩
      | label word member own => exact absurd spelled (word n small)
  · have word : ∀ n < countLimit, ¬ SpellsNumber typed n :=
      fun n small spelled => number ⟨n, small, spelled⟩
    rw [resolveChoice_of_word word]
    constructor
    · intro picked
      obtain ⟨option, found, rfl⟩ := Option.map_eq_some_iff.1 picked
      have own : option.label = typed := by simpa using List.find?_some found
      rw [own]
      exact .label word (List.mem_of_find?_eq_some found) own
    · intro picks
      cases picks with
      | place spelled small there => exact absurd spelled (word _ small)
      | label _ member own =>
        have labelled : (options.find? fun option => option.label = typed).isSome = true :=
          List.find?_isSome.2 ⟨_, member, decide_eq_true own⟩
        obtain ⟨first, found⟩ := Option.isSome_iff_exists.1 labelled
        have same : first.label = typed := by simpa using List.find?_some found
        rw [found, Option.map_some, same]

theorem Picks.member (picks : Picks options typed picked) :
    ∃ option ∈ options, option.label = picked := by
  cases picks with
  | place spelled small there => exact ⟨_, List.mem_of_getElem? there, rfl⟩
  | label word member own => exact ⟨_, member, own⟩

theorem resolveChoice_eq_none (other : ∀ index < options.length, ¬ SpellsNumber typed (index + 1))
    (small : n < countLimit) (spelled : SpellsNumber typed n) :
    resolveChoice typed options = none := by
  refine Option.eq_none_iff_forall_ne_some.2 fun label picked => ?_
  cases resolveChoice_eq_some_iff.1 picked with
  | place number below there => exact other _ (List.getElem?_eq_some_iff.1 there).1 number
  | label word member own => exact word n small spelled

-- Only labels are picked, each option by its place. A label that is not the number of an option is
-- picked by being typed exactly if it spells no number at all that fits a word; otherwise nothing is.
theorem option_picked_by_place_or_label (options : List ChoiceOption)
    (few : options.length < countLimit) :
    (∀ typed label, resolveChoice typed options = some label →
      ∃ option ∈ options, option.label = label) ∧
    (∀ index (inside : index < options.length),
      resolveChoice (toString (index + 1)) options = some options[index].label) ∧
    ∀ option ∈ options, (∀ index < options.length, ¬ SpellsNumber option.label (index + 1)) →
      ((∀ n < countLimit, ¬ SpellsNumber option.label n) →
        resolveChoice option.label options = some option.label) ∧
      ((∃ n < countLimit, SpellsNumber option.label n) →
        resolveChoice option.label options = none) := by
  refine ⟨fun typed label picked => ?_, fun index inside => ?_,
    fun option member other => ⟨fun word => ?_, ?_⟩⟩
  · exact (resolveChoice_eq_some_iff.1 picked).member
  · have small : index + 1 < countLimit := Nat.lt_of_le_of_lt inside few
    have there : options[index]? = some options[index] := List.getElem?_eq_getElem inside
    exact resolveChoice_eq_some_iff.2 (.place (spellsNumber_toString _) small there)
  · exact resolveChoice_eq_some_iff.2 (.label word member rfl)
  · rintro ⟨n, small, spelled⟩
    exact resolveChoice_eq_none other small spelled

-- The second of two options is picked by its place, and not by its label, which reads like the
-- place of a tenth.
theorem option_picked_by_place_or_label_at_number :
    let options : List ChoiceOption := [⟨"Coffee", "coffee"⟩, ⟨"Ten", "10"⟩]
    options.length < countLimit ∧ resolveChoice "2" options = some "10" ∧
      resolveChoice "coffee" options = some "coffee" ∧ resolveChoice "10" options = none := by
  intro options
  have few : options.length < countLimit := by decide
  obtain ⟨-, places, labels⟩ := option_picked_by_place_or_label options few
  have word (n : Nat) : ¬ SpellsNumber "coffee" n := fun spelled => by
    cases naturalOf?_eq_some_iff.2 spelled
  have ten : SpellsNumber "10" 10 := spellsNumber_toString 10
  have notPlace := ten.beyond (show options.length < 10 by decide)
  refine ⟨few, places 1 (by decide), ?_, ?_⟩
  · exact (labels ⟨"Coffee", "coffee"⟩ (by simp [options]) fun _ _ => word _).1 fun n _ => word n
  · exact (labels ⟨"Ten", "10"⟩ (by simp [options]) notPlace).2 ⟨10, by decide, ten⟩

-- The only option has the label `10`, which is not its number; typing the label picks nothing.
theorem label_hidden_by_number :
    let options : List ChoiceOption := [⟨"Ten", "10"⟩]
    ¬ ((∀ index < options.length, ¬ SpellsNumber "10" (index + 1)) →
      (∃ option ∈ options, option.label = "10") → resolveChoice "10" options = some "10") := by
  intro options resolves
  have ten : SpellsNumber "10" 10 := spellsNumber_toString 10
  have picked := resolves (ten.beyond (by decide)) ⟨⟨"Ten", "10"⟩, by simp [options], rfl⟩
  exact absurd picked (by decide)

end VisualNovel

import VisualNovel.Script.Decode
import VisualNovel.Proofs.Listing
import Mathlib.Data.List.Forall2

namespace VisualNovel

namespace Json

inductive ReadsText : Json → String → Prop where
  | text : ReadsText (.string s) s

inductive ReadsNumber : Json → Float → Prop where
  | number : ReadsNumber (.number n) n.toFloat

inductive ReadsValue : Json → Value → Prop where
  | bool : ReadsValue (.bool b) (.bool b)
  | number : ReadsValue (.number n) (.number n.toFloat)
  | text : ReadsValue (.string s) (.text s)
  | list (each : List.Forall₂ ReadsValue items values) : ReadsValue (.array items) (.list values)

inductive ReadsId : Json → StepId → Prop where
  | text : ReadsId (.string s) (.text s)
  | number (low : -2 ^ 63 ≤ n) (high : n < 2 ^ 63) : ReadsId (.number (.whole n)) (.number n)

-- By itself, or as the only key of an object that says nothing more.
inductive ReadsWord : Json → String → Prop where
  | text : ReadsWord (.string s) s
  | null : ReadsWord (.object [(s, .null)]) s
  | empty : ReadsWord (.object [(s, .object [])]) s

inductive ReadsOptional (reads : Json → α → Prop) : Json → Option α → Prop where
  | null : ReadsOptional reads .null none
  | given (here : reads value x) : ReadsOptional reads value (some x)

inductive ReadsList (reads : Json → α → Prop) : Json → List α → Prop where
  | list (each : List.Forall₂ reads items xs) : ReadsList reads (.array items) xs

end Json

open Json

-- A field that may be missing, and then has its default.
inductive Reading (reads : Json → α → Prop) (default : α) : Option Json → α → Prop where
  | missing : Reading reads default none default
  | given (here : reads value x) : Reading reads default (some value) x

theorem Reading.admitted {reads : Json → α → Prop} {default x : α} {found : Option Json}
    (reading : Reading reads default found x) (value : Json) (there : found = some value) :
    ∃ x, reads value x := by
  cases reading with
  | missing => cases there
  | given here =>
    cases there
    exact ⟨_, here⟩

-- What a word is listed for; every word that is not listed stands for the rest.
inductive Means (listed : List (String × α)) (rest : α) (word : String) : α → Prop where
  | listed (member : (word, x) ∈ listed) : Means listed rest word x
  | rest (strange : ∀ x, (word, x) ∉ listed) : Means listed rest word rest

def Json.ReadsMeaning (listed : List (String × α)) (rest : α) (value : Json) (x : α) : Prop :=
  ∃ word, value.ReadsWord word ∧ Means listed rest word x

theorem Reading.spelled {default x : α} {found : Option Json}
    (reading : Reading (ReadsMeaning listed rest) default found x) (value : Json)
    (there : found = some value) : ∃ word, value.ReadsWord word := by
  obtain ⟨x, word, spelled, -⟩ := reading.admitted value there
  exact ⟨word, spelled⟩

-- An option by its names, of which no other matter, or by its places.
inductive Json.ReadsOption : Json → ChoiceOption → Prop where
  | object
      (texts : ∀ member ∈ members, member.1 = "display" ∨ member.1 = "label" →
        ∃ s, member.2.ReadsText s)
      (display : Reading ReadsText "" (Bindings.find? "display" members) shown)
      (label : Reading ReadsText "" (Bindings.find? "label" members) target) :
      ReadsOption (.object members) ⟨shown, target⟩
  | array (few : items.length ≤ 2) (texts : ∀ item ∈ items, ∃ s, item.ReadsText s)
      (display : Reading ReadsText "" items[0]? shown)
      (label : Reading ReadsText "" items[1]? target) :
      ReadsOption (.array items) ⟨shown, target⟩

def Shape.Admits : Shape → Json → Prop
  | .text, value => ∃ s, value.ReadsText s
  | .optionalText, value => ∃ s, value.ReadsOptional ReadsText s
  | .optionalNumber, value => ∃ x, value.ReadsOptional ReadsNumber x
  | .word, value => ∃ s, value.ReadsWord s
  | .options, value => ∃ options, value.ReadsList ReadsOption options
  | .texts, value => ∃ texts, value.ReadsList ReadsText texts
  | .optionalValue, value => ∃ x, value.ReadsOptional ReadsValue x
  | .optionalId, value => ∃ id, value.ReadsOptional ReadsId id

-- A value is read as something exactly if it passes the check and decodes to it.
def Realizes (check : Json → Option Mismatch) (decode : Json → α) (reads : Json → α → Prop) :
    Prop :=
  ∀ value x, reads value x ↔ check value = none ∧ decode value = x

theorem findSome?_filter {check : α → Option β} {keep : α → Bool}
    (passes : ∀ item, keep item = false → check item = none) (items : List α) :
    (items.filter keep).findSome? check = items.findSome? check := by
  rw [← List.head?_filterMap, ← List.head?_filterMap, List.filterMap_filter]
  congr 1
  refine List.filterMap_congr fun item _ => ?_
  cases kept : keep item with
  | true => rfl
  | false => exact (passes item kept).symm

namespace Realizes

variable {check : Json → Option Mismatch} {decode : Json → α} {reads : Json → α → Prop}

theorem exists_iff (realizes : Realizes check decode reads) (value : Json) :
    (∃ x, reads value x) ↔ check value = none :=
  ⟨fun ⟨x, here⟩ => ((realizes value x).1 here).1,
    fun passes => ⟨decode value, (realizes value _).2 ⟨passes, rfl⟩⟩⟩

theorem reading_iff (realizes : Realizes check decode reads) {found : Option Json} {default x : α}
    (passes : ∀ value, found = some value → check value = none) :
    Reading reads default found x ↔ found.elim default decode = x := by
  cases found with
  | none =>
    constructor
    · rintro ⟨⟩
      rfl
    · rintro rfl
      exact .missing
  | some value =>
    constructor
    · rintro ⟨⟩
      rename_i here
      exact ((realizes value x).1 here).2
    · intro decoded
      exact .given ((realizes value x).2 ⟨passes value rfl, decoded⟩)

theorem forall₂_iff (realizes : Realizes check decode reads) {items : List Json} {xs : List α} :
    List.Forall₂ reads items xs ↔ (∀ item ∈ items, check item = none) ∧ items.map decode = xs := by
  induction items generalizing xs with
  | nil => simp [eq_comm]
  | cons item rest ih =>
    cases xs with
    | nil => simp
    | cons x xs =>
      rw [List.forall₂_cons, ih, realizes item x, List.forall_mem_cons, List.map_cons,
        List.cons.injEq, and_and_and_comm]

theorem list (realizes : Realizes check decode reads) :
    Realizes (listMismatch? check) (fun value => (value.array?.getD []).map decode)
      (ReadsList reads) := by
  intro value xs
  cases value with
  | array items =>
    rw [listMismatch?, List.findSome?_eq_none_iff]
    constructor
    · rintro ⟨each⟩
      exact realizes.forall₂_iff.1 each
    · intro fits
      exact .list (realizes.forall₂_iff.2 fits)
  | _ => exact ⟨nofun, nofun⟩

end Realizes

-- The decoder says by itself what passes.
structure Decodes (check : Json → Option Mismatch) (decode : Json → Option α)
    (reads : Json → α → Prop) : Prop where
  reads_iff : ∀ value x, reads value x ↔ decode value = some x
  passes_iff : ∀ value, check value = none ↔ (decode value).isSome = true

namespace Decodes

variable {check : Json → Option Mismatch} {decode : Json → Option α} {reads : Json → α → Prop}

theorem passes (decodes : Decodes check decode reads) (decoded : decode value = some x) :
    check value = none :=
  (decodes.passes_iff value).2 (by rw [decoded]; rfl)

theorem realizes (decodes : Decodes check decode reads) (default : α) :
    Realizes check (fun value => (decode value).getD default) reads := by
  intro value x
  rw [decodes.reads_iff]
  constructor
  · intro decoded
    exact ⟨decodes.passes decoded, by simp [decoded]⟩
  · rintro ⟨passes, rfl⟩
    obtain ⟨y, decoded⟩ := Option.isSome_iff_exists.1 ((decodes.passes_iff value).1 passes)
    simp [decoded]

-- `null` decodes to nothing, but an optional field takes it.
theorem optional (decodes : Decodes check decode reads) (nothing : decode .null = none) :
    Realizes (optionalMismatch? check) decode (ReadsOptional reads) := by
  intro value x
  by_cases null : value = .null
  · subst null
    constructor
    · intro reading
      cases reading with
      | null => exact ⟨rfl, nothing⟩
      | given here =>
        rw [decodes.reads_iff, nothing] at here
        cases here
    · rintro ⟨-, rfl⟩
      rw [nothing]
      exact .null
  · have same : optionalMismatch? check value = check value := by
      unfold optionalMismatch?
      split
      · exact absurd rfl null
      · rfl
    rw [same]
    constructor
    · intro reading
      cases reading with
      | null => exact absurd rfl null
      | given here =>
        have decoded := (decodes.reads_iff _ _).1 here
        exact ⟨decodes.passes decoded, decoded⟩
    · rintro ⟨passes, rfl⟩
      obtain ⟨y, decoded⟩ := Option.isSome_iff_exists.1 ((decodes.passes_iff value).1 passes)
      rw [decoded]
      exact .given ((decodes.reads_iff _ _).2 decoded)

end Decodes

theorem decodes_text : Decodes textMismatch? string? ReadsText where
  reads_iff value s := by
    constructor
    · rintro ⟨⟩
      rfl
    · intro decoded
      cases value with
      | string text =>
        cases decoded
        exact .text
      | _ => cases decoded
  passes_iff value := by cases value <;> simp [textMismatch?, string?]

theorem decodes_number : Decodes numberMismatch? float? ReadsNumber where
  reads_iff value x := by
    constructor
    · rintro ⟨⟩
      rfl
    · intro decoded
      cases value with
      | number n =>
        cases decoded
        exact .number
      | _ => cases decoded
  passes_iff value := by cases value <;> simp [numberMismatch?, float?]

mutual

theorem readsValue_iff : (value : Json) → ∀ {x}, value.ReadsValue x ↔ Value.ofJson? value = some x
  | .null => ⟨nofun, nofun⟩
  | .object _ => ⟨nofun, nofun⟩
  | .bool b => ⟨fun | .bool => rfl, by rintro ⟨⟩; exact .bool⟩
  | .number n => ⟨fun | .number => rfl, by rintro ⟨⟩; exact .number⟩
  | .string s => ⟨fun | .text => rfl, by rintro ⟨⟩; exact .text⟩
  | .array items => by
    rw [Value.ofJson?, Option.map_eq_some_iff]
    constructor
    · intro reading
      cases reading with
      | list each => exact ⟨_, (readsValues_iff items).1 each, rfl⟩
    · rintro ⟨values, decoded, rfl⟩
      exact .list ((readsValues_iff items).2 decoded)

theorem readsValues_iff : (items : List Json) → ∀ {values},
    List.Forall₂ ReadsValue items values ↔ Value.itemsOfJson? items = some values
  | [] => by simp [Value.itemsOfJson?, eq_comm]
  | item :: rest => by
    rw [Value.itemsOfJson?]
    constructor
    · rintro (_ | ⟨first, others⟩)
      rw [(readsValue_iff item).1 first, (readsValues_iff rest).1 others]
    · intro decoded
      split at decoded
      · rename_i first others
        cases decoded
        exact .cons ((readsValue_iff item).2 first) ((readsValues_iff rest).2 others)
      · cases decoded

end

theorem decodes_value : Decodes valueMismatch? Value.ofJson? ReadsValue where
  reads_iff value _ := readsValue_iff value
  passes_iff value := by simp [valueMismatch?, Option.isSome_iff_ne_none]

theorem decodes_id : Decodes idMismatch? StepId.ofJson? ReadsId where
  reads_iff value id := by
    constructor
    · intro reading
      cases reading with
      | text => rfl
      | number low high =>
        simp only [StepId.ofJson?, int64?, low, high, and_self, if_true, Option.map]
    · intro decoded
      unfold StepId.ofJson? at decoded
      split at decoded
      · cases decoded
        exact .text
      · obtain ⟨n, whole, rfl⟩ := Option.map_eq_some_iff.1 decoded
        unfold int64? at whole
        split at whole
        · split at whole
          · rename_i range
            cases whole
            exact .number range.1 range.2
          · cases whole
        · cases whole
  passes_iff value := by simp [idMismatch?, Option.isSome_iff_ne_none]

theorem wordMismatch?_eq_none_iff {value : Json} :
    wordMismatch? value = none ↔ ∃ s, value.ReadsWord s := by
  constructor
  · intro fits
    unfold wordMismatch? at fits
    split at fits
    · exact ⟨_, .text⟩
    · exact ⟨_, .null⟩
    · exact ⟨_, .empty⟩
    all_goals cases fits
  · rintro ⟨s, word⟩
    cases word <;> rfl

def Json.word? (value : Json) : Option String := Fields.word? (fun _ => some value) ""

theorem means_iff {meaning : String → α} (known : ∀ pair ∈ listed, meaning pair.1 = pair.2)
    (others : ∀ word, (∀ x, (word, x) ∉ listed) → meaning word = rest) (word : String) (x : α) :
    Means listed rest word x ↔ meaning word = x := by
  constructor
  · intro means
    cases means with
    | listed member => exact known _ member
    | rest strange => exact others word strange
  · rintro rfl
    by_cases among : ∃ x, (word, x) ∈ listed
    · obtain ⟨x, member⟩ := among
      rw [known _ member]
      exact .listed member
    · have strange := not_exists.1 among
      rw [others word strange]
      exact .rest strange

theorem realizes_meaning {meaning : Option String → α}
    (means : ∀ word x, Means listed rest word x ↔ meaning (some word) = x) :
    Realizes wordMismatch? (fun value => meaning value.word?) (ReadsMeaning listed rest) := by
  intro value x
  have spelled {s : String} (word : value.ReadsWord s) : value.word? = some s := by
    cases word <;> rfl
  constructor
  · rintro ⟨s, word, stands⟩
    refine ⟨wordMismatch?_eq_none_iff.2 ⟨s, word⟩, ?_⟩
    simpa only [spelled word] using (means s x).1 stands
  · rintro ⟨passes, rfl⟩
    obtain ⟨s, word⟩ := wordMismatch?_eq_none_iff.1 passes
    exact ⟨s, word, (means s _).2 (by simp only [spelled word])⟩

theorem Fields.text_eq (fields : Fields) (name : String) :
    fields.text name = (fields name).elim "" fun value => value.string?.getD "" := by
  unfold Fields.text
  cases fields name <;> rfl

theorem Fields.reads_option_iff {fields : Fields} {option : ChoiceOption}
    (passes : ∀ name value, name = "display" ∨ name = "label" → fields name = some value →
      textMismatch? value = none) :
    (Reading ReadsText "" (fields "display") option.display ∧
      Reading ReadsText "" (fields "label") option.label) ↔
    ⟨fields.text "display", fields.text "label"⟩ = option := by
  have text := decodes_text.realizes ""
  rw [text.reading_iff fun value => passes "display" value (.inl rfl),
    text.reading_iff fun value => passes "label" value (.inr rfl),
    ← fields.text_eq, ← fields.text_eq]
  cases option
  simp

theorem optionMismatch?_object {members : List (String × Json)} :
    optionMismatch? (.object members) = none ↔
      ∀ member ∈ members, member.1 = "display" ∨ member.1 = "label" →
        textMismatch? member.2 = none := by
  rw [optionMismatch?, List.findSome?_eq_none_iff]
  simp [ChoiceOption.fields]

theorem optionMismatch?_array {items : List Json} :
    optionMismatch? (.array items) = none ↔
      items.length ≤ 2 ∧ ∀ item ∈ items, textMismatch? item = none := by
  rw [optionMismatch?, ← List.findSome?_eq_none_iff]
  by_cases few : items.length ≤ 2
  · rw [List.take_of_length_le few, if_neg (Nat.not_lt.2 few)]
    cases items.findSome? textMismatch? <;> simp [few]
  · rw [if_pos (Nat.lt_of_not_le few)]
    cases (items.take 2).findSome? textMismatch? <;> simp [few]

theorem readsOption_object_iff {members : List (String × Json)} {option : ChoiceOption} :
    ReadsOption (.object members) option ↔
      optionMismatch? (.object members) = none ∧ ChoiceOption.ofJson (.object members) = option := by
  have text := decodes_text.realizes ""
  let fields : Fields := fun name => Bindings.find? name members
  have passes (checked : optionMismatch? (.object members) = none) (name : String) (value : Json)
      (named : name = "display" ∨ name = "label") (found : fields name = some value) :
      textMismatch? value = none :=
    optionMismatch?_object.1 checked _ (Bindings.mem_of_find? found) named
  constructor
  · intro reading
    cases reading with
    | object texts display label =>
      have checked := optionMismatch?_object.2 fun member among named =>
        (text.exists_iff _).1 (texts member among named)
      exact ⟨checked, (Fields.reads_option_iff (passes checked)).1 ⟨display, label⟩⟩
  · rintro ⟨checked, decoded⟩
    obtain ⟨display, label⟩ := (Fields.reads_option_iff (passes checked)).2 decoded
    refine .object (fun member among named => ?_) display label
    exact (text.exists_iff _).2 (optionMismatch?_object.1 checked member among named)

theorem readsOption_array_iff {items : List Json} {option : ChoiceOption} :
    ReadsOption (.array items) option ↔
      optionMismatch? (.array items) = none ∧ ChoiceOption.ofJson (.array items) = option := by
  have text := decodes_text.realizes ""
  let fields : Fields := fun name => Bindings.find? name (ChoiceOption.fields.zip items)
  have places : fields "display" = items[0]? ∧ fields "label" = items[1]? := by
    rcases items with _ | ⟨first, _ | ⟨second, rest⟩⟩ <;> exact ⟨rfl, rfl⟩
  have passes (checked : optionMismatch? (.array items) = none) (name : String) (value : Json)
      (named : name = "display" ∨ name = "label") (found : fields name = some value) :
      textMismatch? value = none := by
    refine (optionMismatch?_array.1 checked).2 value ?_
    rcases named with rfl | rfl
    · exact List.mem_of_getElem? (places.1.symm.trans found)
    · exact List.mem_of_getElem? (places.2.symm.trans found)
  constructor
  · intro reading
    cases reading with
    | array few texts display label =>
      have checked := optionMismatch?_array.2
        ⟨few, fun item among => (text.exists_iff item).1 (texts item among)⟩
      rw [← places.1] at display
      rw [← places.2] at label
      exact ⟨checked, (Fields.reads_option_iff (passes checked)).1 ⟨display, label⟩⟩
  · rintro ⟨checked, decoded⟩
    obtain ⟨display, label⟩ := (Fields.reads_option_iff (passes checked)).2 decoded
    rw [places.1] at display
    rw [places.2] at label
    obtain ⟨few, each⟩ := optionMismatch?_array.1 checked
    exact .array few (fun item among => (text.exists_iff item).2 (each item among)) display label

theorem realizes_option : Realizes optionMismatch? ChoiceOption.ofJson ReadsOption := by
  intro value option
  cases value with
  | object members => exact readsOption_object_iff
  | array items => exact readsOption_array_iff
  | _ => exact ⟨nofun, nofun⟩

theorem Shape.mismatch?_eq_none_iff (shape : Shape) (value : Json) :
    shape.mismatch? value = none ↔ shape.Admits value := by
  have text := decodes_text.realizes ""
  cases shape with
  | text => exact (text.exists_iff value).symm
  | optionalText => exact ((decodes_text.optional rfl).exists_iff value).symm
  | optionalNumber => exact ((decodes_number.optional rfl).exists_iff value).symm
  | word => exact wordMismatch?_eq_none_iff
  | options => exact (realizes_option.list.exists_iff value).symm
  | texts => exact (text.list.exists_iff value).symm
  | optionalValue => exact ((decodes_value.optional rfl).exists_iff value).symm
  | optionalId => exact ((decodes_id.optional rfl).exists_iff value).symm

end VisualNovel

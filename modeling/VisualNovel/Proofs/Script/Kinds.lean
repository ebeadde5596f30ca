import VisualNovel.Proofs.Script.Readings

namespace VisualNovel

open Json

def creationWords : List (String × CreationAction) :=
  [("create_var", .createVar), ("create_global", .createGlobal)]

def mutationWords : List (String × MutationAction) :=
  [("modify_var", .modify), ("increment_var", .increment), ("subtract_var", .subtract)]

def comparisonWords : List (String × Comparison) :=
  [("equal", .equal), ("not_equal", .notEqual), ("greater_than", .greaterThan),
    ("less_than", .lessThan)]

-- What the fields of a step are read as, each with its default.
structure ReadsCreation (fields : Fields) (what : Creation) : Prop where
  action : Reading (ReadsMeaning creationWords .other) .other (fields "action") what.action
  var : Reading ReadsText "" (fields "var") what.var
  init : Reading (ReadsOptional ReadsValue) none ((fields "init").or (fields "value")) what.init
  single : fields "init" = none ∨ fields "value" = none

structure ReadsMutation (fields : Fields) (mutation : Mutation) : Prop where
  action : Reading (ReadsMeaning mutationWords .other) .other (fields "action") mutation.action
  var : Reading ReadsText "" (fields "var") mutation.var
  value : Reading (ReadsOptional ReadsValue) none (fields "value") mutation.value

structure ReadsCondition (fields : Fields) (condition : Condition) : Prop where
  var : Reading ReadsText "" (fields "var") condition.var
  comparison : Reading (ReadsMeaning comparisonWords .unknown) .unknown (fields "condition")
    condition.comparison
  value : Reading (ReadsOptional ReadsValue) none (fields "value") condition.value
  fallback : Reading (ReadsOptional ReadsId) none (fields "end") condition.fallback

structure ReadsPlacement (fields : Fields) (placement : Placement) : Prop where
  sprite : Reading ReadsText "" (fields "sprite") placement.sprite
  location : Reading (ReadsOptional ReadsText) none (fields "location") placement.location
  dynLocation :
    Reading (ReadsOptional ReadsText) none (fields "dyn_location") placement.dynLocation
  column : Reading (ReadsOptional ReadsNumber) none (fields "column") placement.column
  row : Reading (ReadsOptional ReadsNumber) none (fields "row") placement.row
  wRatio : Reading (ReadsOptional ReadsNumber) none (fields "wRatio") placement.wRatio
  hRatio : Reading (ReadsOptional ReadsNumber) none (fields "hRatio") placement.hRatio
  wFrameRatio :
    Reading (ReadsOptional ReadsNumber) none (fields "wFrameRatio") placement.wFrameRatio
  hFrameRatio :
    Reading (ReadsOptional ReadsNumber) none (fields "hFrameRatio") placement.hFrameRatio

inductive ReadsKind (fields : Fields) : StepType → StepKind → Prop where
  | label (name : Reading ReadsText "" (fields "label") label) :
      ReadsKind fields .label (.label label)
  | start : ReadsKind fields .start .start
  | command : ReadsKind fields .command .command
  | creation (reads : ReadsCreation fields what) : ReadsKind fields .creation (.creation what)
  | transition (target : Reading ReadsText "" (fields "label") label) :
      ReadsKind fields .transition (.transition label)
  | next (target : Reading ReadsText "" (fields "label") label) :
      ReadsKind fields .next (.next label)
  | dialogue (speaker : Reading (ReadsOptional ReadsText) none (fields "label") label)
      (text : Reading (ReadsOptional ReadsText) none (fields "content") content) :
      ReadsKind fields .dialogue (.dialogue label content)
  | choice (each : Reading (ReadsList ReadsOption) [] (fields "choice") options) :
      ReadsKind fields .choice (.choice options)
  | showSprite (reads : ReadsPlacement fields placement) :
      ReadsKind fields .showSprite (.showSprite placement)
  | removeSprite (name : Reading ReadsText "" (fields "sprite") sprite) :
      ReadsKind fields .removeSprite (.removeSprite sprite)
  | modifyBackground (name : Reading ReadsText "" (fields "background") background) :
      ReadsKind fields .modifyBackground (.modifyBackground background)
  | modifyVariable (reads : ReadsMutation fields mutation) :
      ReadsKind fields .modifyVariable (.modifyVariable mutation)
  | modifyGlobal (reads : ReadsMutation fields mutation) :
      ReadsKind fields .modifyGlobal (.modifyGlobal mutation)
  | unlockDialogues (each : Reading (ReadsList ReadsText) [] (fields "events") labels) :
      ReadsKind fields .unlockDialogues (.unlockDialogues labels)
  | idleChat : ReadsKind fields .idleChat .idleChat
  | conditional (reads : ReadsCondition fields condition) :
      ReadsKind fields .conditional (.conditional condition)
  | conditionalGlobal (reads : ReadsCondition fields condition) :
      ReadsKind fields .conditionalGlobal (.conditionalGlobal condition)
  | finishDialogue : ReadsKind fields .finishDialogue .finishDialogue

theorem means_creation : ∀ word action,
    Means creationWords .other word action ↔ CreationAction.ofWord (some word) = action := by
  refine means_iff (by decide) fun word strange => ?_
  unfold CreationAction.ofWord
  split <;> simp_all [creationWords]

theorem means_mutation : ∀ word action,
    Means mutationWords .other word action ↔ MutationAction.ofWord (some word) = action := by
  refine means_iff (by decide) fun word strange => ?_
  unfold MutationAction.ofWord
  split <;> simp_all [mutationWords]

theorem means_comparison : ∀ word comparison,
    Means comparisonWords .unknown word comparison ↔ Comparison.ofWord (some word) = comparison := by
  refine means_iff (by decide) fun word strange => ?_
  unfold Comparison.ofWord
  split <;> simp_all [comparisonWords]

def Fields.Fit (fields : Fields) (declared : List (String × Shape)) : Prop :=
  ∀ field ∈ declared, ∀ value, fields field.1 = some value → field.2.mismatch? value = none

namespace Fields.Fit

variable {fields : Fields} {declared : List (String × Shape)} {name : String}

theorem text (fit : fields.Fit declared) (member : (name, .text) ∈ declared) {s : String} :
    fields.text name = s ↔ Reading ReadsText "" (fields name) s := by
  rw [fields.text_eq, (decodes_text.realizes "").reading_iff (fit _ member)]

theorem optional {check : Json → Option Mismatch} {decode : Json → Option α}
    {reads : Json → α → Prop} (decodes : Decodes check decode reads) (nothing : decode .null = none)
    (passes : ∀ value, fields name = some value → optionalMismatch? check value = none)
    {x : Option α} :
    (fields name).bind decode = x ↔ Reading (ReadsOptional reads) none (fields name) x := by
  rw [(decodes.optional nothing).reading_iff passes]
  cases fields name <;> rfl

theorem text? (fit : fields.Fit declared) (member : (name, .optionalText) ∈ declared)
    {s : Option String} :
    fields.text? name = s ↔ Reading (ReadsOptional ReadsText) none (fields name) s :=
  optional decodes_text rfl (fit _ member)

theorem float? (fit : fields.Fit declared) (member : (name, .optionalNumber) ∈ declared)
    {x : Option Float} :
    fields.float? name = x ↔ Reading (ReadsOptional ReadsNumber) none (fields name) x :=
  optional decodes_number rfl (fit _ member)

theorem value? (fit : fields.Fit declared) (member : (name, .optionalValue) ∈ declared)
    {x : Option Value} :
    fields.value? name = x ↔ Reading (ReadsOptional ReadsValue) none (fields name) x :=
  optional decodes_value rfl (fit _ member)

theorem id? (fit : fields.Fit declared) (member : (name, .optionalId) ∈ declared)
    {id : Option StepId} :
    fields.id? name = id ↔ Reading (ReadsOptional ReadsId) none (fields name) id :=
  optional decodes_id rfl (fit _ member)

theorem meaning (fit : fields.Fit declared) (member : (name, .word) ∈ declared)
    {meaning : Option String → α}
    (means : ∀ word x, Means listed rest word x ↔ meaning (some word) = x)
    (absent : meaning none = rest) {x : α} :
    meaning (fields.word? name) = x ↔ Reading (ReadsMeaning listed rest) rest (fields name) x := by
  have spelled : fields.word? name = (fields name).bind Json.word? := by
    unfold Fields.word? Json.word?
    cases fields name <;> rfl
  rw [(realizes_meaning means).reading_iff (fit _ member), spelled]
  cases fields name with
  | none => rw [← absent]; rfl
  | some value => rfl

theorem items {check : Json → Option Mismatch} {decode : Json → α} {reads : Json → α → Prop}
    (realizes : Realizes check decode reads)
    (passes : ∀ value, fields name = some value → listMismatch? check value = none)
    {xs : List α} :
    (fields.items name).map decode = xs ↔ Reading (ReadsList reads) [] (fields name) xs := by
  rw [realizes.list.reading_iff passes]
  unfold Fields.items
  cases fields name <;> rfl

theorem mutation (fit : fields.Fit StepType.modifyVariable.declared) {mutation : Mutation} :
    fields.mutation = mutation ↔ ReadsMutation fields mutation := by
  constructor
  · rintro rfl
    exact ⟨(fit.meaning (by decide) means_mutation rfl).1 rfl, (fit.text (by decide)).1 rfl,
      (fit.value? (by decide)).1 rfl⟩
  · intro reads
    rw [Fields.mutation, (fit.meaning (by decide) means_mutation rfl).2 reads.action,
      (fit.text (by decide)).2 reads.var, (fit.value? (by decide)).2 reads.value]

theorem condition (fit : fields.Fit StepType.conditional.declared) {condition : Condition} :
    fields.condition = condition ↔ ReadsCondition fields condition := by
  constructor
  · rintro rfl
    exact ⟨(fit.text (by decide)).1 rfl, (fit.meaning (by decide) means_comparison rfl).1 rfl,
      (fit.value? (by decide)).1 rfl, (fit.id? (by decide)).1 rfl⟩
  · intro reads
    rw [Fields.condition, (fit.text (by decide)).2 reads.var,
      (fit.meaning (by decide) means_comparison rfl).2 reads.comparison,
      (fit.value? (by decide)).2 reads.value, (fit.id? (by decide)).2 reads.fallback]

theorem placement (fit : fields.Fit StepType.showSprite.declared) {placement : Placement} :
    fields.placement = placement ↔ ReadsPlacement fields placement := by
  constructor
  · rintro rfl
    exact ⟨(fit.text (by decide)).1 rfl, (fit.text? (by decide)).1 rfl,
      (fit.text? (by decide)).1 rfl, (fit.float? (by decide)).1 rfl,
      (fit.float? (by decide)).1 rfl, (fit.float? (by decide)).1 rfl,
      (fit.float? (by decide)).1 rfl, (fit.float? (by decide)).1 rfl,
      (fit.float? (by decide)).1 rfl⟩
  · intro reads
    rw [Fields.placement, (fit.text (by decide)).2 reads.sprite,
      (fit.text? (by decide)).2 reads.location, (fit.text? (by decide)).2 reads.dynLocation,
      (fit.float? (by decide)).2 reads.column, (fit.float? (by decide)).2 reads.row,
      (fit.float? (by decide)).2 reads.wRatio, (fit.float? (by decide)).2 reads.hRatio,
      (fit.float? (by decide)).2 reads.wFrameRatio, (fit.float? (by decide)).2 reads.hFrameRatio]

theorem options (fit : fields.Fit StepType.choice.declared) {options : List ChoiceOption} :
    (fields.items "choice").map ChoiceOption.ofJson = options ↔
      Reading (ReadsList ReadsOption) [] (fields "choice") options :=
  items realizes_option (fit ("choice", .options) (by decide))

theorem labels (fit : fields.Fit StepType.unlockDialogues.declared) {labels : List String} :
    ((fields.items "events").map fun item => item.string?.getD "") = labels ↔
      Reading (ReadsList ReadsText) [] (fields "events") labels :=
  items (decodes_text.realizes "") (fit ("events", .texts) (by decide))

-- Only a `meta` step has a field with two names, which is looked up under both.
theorem reads {type : StepType} (fit : fields.Fit type.declared) (plain : type ≠ .creation) :
    ReadsKind fields type (fields.kind type) := by
  cases type with
  | label => exact .label ((fit.text (by decide)).1 rfl)
  | start => exact .start
  | command => exact .command
  | creation => exact absurd rfl plain
  | transition => exact .transition ((fit.text (by decide)).1 rfl)
  | next => exact .next ((fit.text (by decide)).1 rfl)
  | dialogue => exact .dialogue ((fit.text? (by decide)).1 rfl) ((fit.text? (by decide)).1 rfl)
  | choice => exact .choice (fit.options.1 rfl)
  | showSprite => exact .showSprite (fit.placement.1 rfl)
  | removeSprite => exact .removeSprite ((fit.text (by decide)).1 rfl)
  | modifyBackground => exact .modifyBackground ((fit.text (by decide)).1 rfl)
  | modifyVariable => exact .modifyVariable (fit.mutation.1 rfl)
  | modifyGlobal => exact .modifyGlobal (fit.mutation.1 rfl)
  | unlockDialogues => exact .unlockDialogues (fit.labels.1 rfl)
  | idleChat => exact .idleChat
  | conditional => exact .conditional (fit.condition.1 rfl)
  | conditionalGlobal => exact .conditionalGlobal (fit.condition.1 rfl)
  | finishDialogue => exact .finishDialogue

theorem eq_of_reads {type : StepType} {kind : StepKind} (fit : fields.Fit type.declared)
    (plain : type ≠ .creation) (reads : ReadsKind fields type kind) : fields.kind type = kind := by
  cases reads with
  | label name => rw [Fields.kind, (fit.text (by decide)).2 name]
  | start => rfl
  | command => rfl
  | creation reads => exact absurd rfl plain
  | transition target => rw [Fields.kind, (fit.text (by decide)).2 target]
  | next target => rw [Fields.kind, (fit.text (by decide)).2 target]
  | dialogue speaker text =>
    rw [Fields.kind, (fit.text? (by decide)).2 speaker, (fit.text? (by decide)).2 text]
  | choice each => rw [Fields.kind, fit.options.2 each]
  | showSprite reads => rw [Fields.kind, fit.placement.2 reads]
  | removeSprite name => rw [Fields.kind, (fit.text (by decide)).2 name]
  | modifyBackground name => rw [Fields.kind, (fit.text (by decide)).2 name]
  | modifyVariable reads => rw [Fields.kind, fit.mutation.2 reads]
  | modifyGlobal reads => rw [Fields.kind, fit.mutation.2 reads]
  | unlockDialogues each => rw [Fields.kind, fit.labels.2 each]
  | idleChat => rfl
  | conditional reads => rw [Fields.kind, fit.condition.2 reads]
  | conditionalGlobal reads => rw [Fields.kind, fit.condition.2 reads]
  | finishDialogue => rfl

end Fields.Fit

end VisualNovel

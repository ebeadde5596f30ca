import VisualNovel.Proofs.Script.Kinds

namespace VisualNovel

open Json

namespace StepType

def Declares (type : StepType) (name : String) : Prop :=
  name ∈ type.declared.map Prod.fst ∨ (type = .creation ∧ name = "value")

-- Each field that is there is admitted, and a `meta` step uses one name of its value.
structure Fits (type : StepType) (o : Dict Json) : Prop where
  declared : ∀ field ∈ type.declared, ∀ value, o.get? field.1 = some value → field.2.Admits value
  renamed : type = .creation → ∀ value, o.get? "value" = some value →
    Shape.optionalValue.Admits value
  single : type = .creation → o.get? "init" = none ∨ o.get? "value" = none

variable {type : StepType} {o : Dict Json} {name : String} {field : String × Shape}

theorem field?_of_mem (member : field ∈ type.declared) : type.field? field.1 = some field := by
  have each : ∀ field ∈ type.declared, type.field? field.1 = some field := by
    cases type <;> decide
  exact each field member

theorem field?_cases (found : type.field? name = some field) :
    (field.1 = name ∧ field ∈ type.declared) ∨
      (type = .creation ∧ name = "value" ∧ field = ("init", .optionalValue)) := by
  unfold field? at found
  split at found
  · rename_i renamed
    simp only [Bool.and_eq_true, decide_eq_true_eq] at renamed
    exact .inr ⟨renamed.1, renamed.2, (Option.some.inj found).symm⟩
  · exact .inl ⟨by simpa using List.find?_some found, List.mem_of_find?_eq_some found⟩

theorem declares_of_field? (found : type.field? name = some field) : type.Declares name := by
  rcases field?_cases found with ⟨rfl, member⟩ | ⟨creation, renamed, -⟩
  · exact .inl (List.mem_map_of_mem member)
  · exact .inr ⟨creation, renamed⟩

theorem memberMismatch?_undeclared (foreign : type.field? name = none) (value : Json) :
    type.memberMismatch? o (name, value) = none := by
  simp [memberMismatch?, foreign]

theorem memberMismatch?_declared (member : field ∈ type.declared) (value : Json) :
    type.memberMismatch? o (field.1, value) = field.2.mismatch? value := by
  simp [memberMismatch?, field?_of_mem member]

theorem memberMismatch?_renamed (value : Json) :
    StepType.creation.memberMismatch? o ("value", value) =
      if o.contains "init" then some (.duplicateField "init")
      else Shape.optionalValue.mismatch? value := by
  simp [memberMismatch?, field?]

theorem fits_iff : o.toList.findSome? (type.memberMismatch? o) = none ↔ type.Fits o := by
  rw [List.findSome?_eq_none_iff]
  constructor
  · intro passes
    have renamed (creation : type = .creation) (value : Json)
        (found : o.get? "value" = some value) :
        o.get? "init" = none ∧ Shape.optionalValue.Admits value := by
      subst creation
      have passed := passes ("value", value) (Dict.mem_toList.2 found)
      rw [memberMismatch?_renamed] at passed
      split at passed
      · cases passed
      · rename_i alone
        exact ⟨by simpa [Dict.contains] using alone, (Shape.mismatch?_eq_none_iff _ _).1 passed⟩
    refine ⟨fun field member value found => ?_, fun creation value found =>
      (renamed creation value found).2, fun creation => ?_⟩
    · rw [← Shape.mismatch?_eq_none_iff, ← memberMismatch?_declared member value]
      exact passes _ (Dict.mem_toList.2 found)
    · cases found : o.get? "value" with
      | none => exact .inr rfl
      | some value => exact .inl (renamed creation value found).1
  · rintro fits ⟨name, value⟩ among
    have found := Dict.mem_toList.1 among
    cases known : type.field? name with
    | none => exact memberMismatch?_undeclared known value
    | some field =>
      rcases field?_cases known with ⟨rfl, member⟩ | ⟨rfl, rfl, -⟩
      · rw [memberMismatch?_declared member, Shape.mismatch?_eq_none_iff]
        exact fits.declared field member value found
      · have alone : o.get? "init" = none := by simpa [found] using fits.single rfl
        rw [memberMismatch?_renamed, if_neg (by simp [Dict.contains, alone]),
          Shape.mismatch?_eq_none_iff]
        exact fits.renamed rfl value found

theorem fieldsOfObject_eq (plain : type ≠ .creation ∨ name ≠ "init") :
    type.fieldsOfObject o name = o.get? name := by
  unfold fieldsOfObject
  split
  · rename_i value found
    exact found.symm
  · rename_i missing
    rcases plain with other | other <;> simp [other, missing]

theorem fieldsOfObject_init (o : Dict Json) :
    StepType.creation.fieldsOfObject o "init" = (o.get? "init").or (o.get? "value") := by
  unfold fieldsOfObject
  cases o.get? "init" <;> rfl

theorem Fits.fit (fits : type.Fits o) : (type.fieldsOfObject o).Fit type.declared := by
  intro field member value found
  rw [Shape.mismatch?_eq_none_iff]
  unfold fieldsOfObject at found
  split at found
  · rename_i given
    exact fits.declared field member value (found ▸ given)
  · split at found
    · rename_i renamed
      simp only [Bool.and_eq_true, decide_eq_true_eq] at renamed
      obtain ⟨rfl, named⟩ := renamed
      have same : field = ("init", .optionalValue) := by
        have known := field?_of_mem member
        rw [named] at known
        exact (Option.some.inj known).symm
      rw [same]
      exact fits.renamed rfl value found
    · cases found

theorem Fits.creation_iff (fits : StepType.creation.Fits o) {what : Creation} :
    (StepType.creation.fieldsOfObject o).kind .creation = .creation what ↔
      ReadsCreation o.get? what := by
  have fit := fits.fit
  have action : StepType.creation.fieldsOfObject o "action" = o.get? "action" :=
    fieldsOfObject_eq (.inr (by decide))
  have var : StepType.creation.fieldsOfObject o "var" = o.get? "var" :=
    fieldsOfObject_eq (.inr (by decide))
  rw [Fields.kind, StepKind.creation.injEq]
  constructor
  · rintro rfl
    constructor
    · rw [← action]
      exact (fit.meaning (by decide) means_creation rfl).1 rfl
    · rw [← var]
      exact (fit.text (by decide)).1 rfl
    · rw [← fieldsOfObject_init]
      exact (fit.value? (by decide)).1 rfl
    · exact fits.single rfl
  · rintro ⟨readsAction, readsVar, readsInit, -⟩
    rw [← action] at readsAction
    rw [← var] at readsVar
    rw [← fieldsOfObject_init] at readsInit
    rw [(fit.meaning (by decide) means_creation rfl).2 readsAction,
      (fit.text (by decide)).2 readsVar, (fit.value? (by decide)).2 readsInit]

theorem Fits.of_declared (plain : type ≠ .creation)
    (declared : ∀ field ∈ type.declared, ∀ value, o.get? field.1 = some value →
      field.2.Admits value) : type.Fits o :=
  ⟨declared, fun creation => absurd creation plain, fun creation => absurd creation plain⟩

theorem fits_of_reads {kind : StepKind} (reads : ReadsKind o.get? type kind) : type.Fits o := by
  have texts {name s} (reading : Reading ReadsText "" (o.get? name) s) :
      ∀ field ∈ [(name, Shape.text)], ∀ value, o.get? field.1 = some value →
        field.2.Admits value := List.forall_mem_cons.2 ⟨reading.admitted, nofun⟩
  have mutations {mutation} (reads : ReadsMutation o.get? mutation) :
      ∀ field ∈ modifyVariable.declared, ∀ value, o.get? field.1 = some value →
        field.2.Admits value := by
    simp only [declared, List.forall_mem_cons]
    exact ⟨reads.action.spelled, reads.var.admitted, reads.value.admitted, nofun⟩
  have conditions {condition} (reads : ReadsCondition o.get? condition) :
      ∀ field ∈ conditional.declared, ∀ value, o.get? field.1 = some value →
        field.2.Admits value := by
    simp only [declared, List.forall_mem_cons]
    exact ⟨reads.var.admitted, reads.comparison.spelled, reads.value.admitted,
      reads.fallback.admitted, nofun⟩
  cases reads with
  | label name => exact .of_declared nofun (texts name)
  | start => exact .of_declared nofun nofun
  | command => exact .of_declared nofun nofun
  | creation reads =>
    have init := reads.init.admitted
    refine ⟨?_, fun _ value found => init value ?_, fun _ => reads.single⟩
    · simp only [declared, List.forall_mem_cons]
      refine ⟨reads.action.spelled, reads.var.admitted, fun value found => init value ?_, nofun⟩
      rw [found, Option.some_or]
    · rcases reads.single with absent | absent
      · rw [absent, Option.none_or, found]
      · rw [absent] at found
        cases found
  | transition target => exact .of_declared nofun (texts target)
  | next target => exact .of_declared nofun (texts target)
  | dialogue speaker text =>
    exact .of_declared nofun (List.forall_mem_cons.2
      ⟨speaker.admitted, List.forall_mem_cons.2 ⟨text.admitted, nofun⟩⟩)
  | choice each => exact .of_declared nofun (List.forall_mem_cons.2 ⟨each.admitted, nofun⟩)
  | showSprite reads =>
    refine .of_declared nofun ?_
    simp only [declared, List.forall_mem_cons]
    exact ⟨reads.sprite.admitted, reads.location.admitted, reads.dynLocation.admitted,
      reads.column.admitted, reads.row.admitted, reads.wRatio.admitted, reads.hRatio.admitted,
      reads.wFrameRatio.admitted, reads.hFrameRatio.admitted, nofun⟩
  | removeSprite name => exact .of_declared nofun (texts name)
  | modifyBackground name => exact .of_declared nofun (texts name)
  | modifyVariable reads => exact .of_declared nofun (mutations reads)
  | modifyGlobal reads => exact .of_declared nofun (mutations reads)
  | unlockDialogues each => exact .of_declared nofun (List.forall_mem_cons.2 ⟨each.admitted, nofun⟩)
  | idleChat => exact .of_declared nofun nofun
  | conditional reads => exact .of_declared nofun (conditions reads)
  | conditionalGlobal reads => exact .of_declared nofun (conditions reads)
  | finishDialogue => exact .of_declared nofun nofun

theorem Fits.kind_iff (fits : type.Fits o) {kind : StepKind} :
    (type.fieldsOfObject o).kind type = kind ↔ ReadsKind o.get? type kind := by
  by_cases plain : type = .creation
  · subst plain
    constructor
    · rintro rfl
      exact .creation (fits.creation_iff.1 rfl)
    · intro reads
      cases reads with
      | creation reads => exact fits.creation_iff.2 reads
  · have same : type.fieldsOfObject o = o.get? :=
      funext fun name => fieldsOfObject_eq (.inl plain)
    have fit := fits.fit
    rw [same] at fit ⊢
    exact ⟨fun decoded => decoded ▸ fit.reads plain, fit.eq_of_reads plain⟩

theorem kindOfObject_of_fits (fits : type.Fits o) :
    type.kindOfObject o = .ok ((type.fieldsOfObject o).kind type) := by
  rw [kindOfObject, fits_iff.2 fits]

theorem kindOfObject_of_not_fits (misfit : ¬ type.Fits o) :
    ∃ mismatch, type.kindOfObject o = .error mismatch := by
  rw [kindOfObject]
  cases found : o.toList.findSome? (type.memberMismatch? o) with
  | none => exact absurd (fits_iff.1 found) misfit
  | some mismatch => exact ⟨mismatch, rfl⟩

theorem isUnknown_kind (type : StepType) (fields : Fields) :
    (fields.kind type).isUnknown = false := by
  cases type <;> rfl

theorem ofName?_eq_some_iff : ofName? name = some type ↔ name = type.name := by
  constructor
  · intro found
    simpa [eq_comm] using List.find?_some found
  · rintro rfl
    cases type <;> rfl

theorem ofTag_eq_ok_iff {tag : Json} : ofTag tag = .ok type ↔ tag = .string type.name := by
  constructor
  · intro tagged
    unfold ofTag at tagged
    split at tagged
    · split at tagged
      · rename_i found
        cases tagged
        rw [ofName?_eq_some_iff.1 found]
      · cases tagged
    · cases tagged
  · rintro rfl
    simp only [ofTag, ofName?_eq_some_iff.2 rfl]

theorem kind_congr {fields others : Fields}
    (same : ∀ field ∈ type.declared, others field.1 = fields field.1) :
    others.kind type = fields.kind type := by
  cases type <;>
    simp_all [declared, Fields.kind, Fields.text, Fields.text?, Fields.items, Fields.word?,
      Fields.value?, Fields.mutation, Fields.condition, Fields.placement, Fields.float?, Fields.id?]

def SameFields (type : StepType) (o others : Dict Json) : Prop :=
  ∀ name, type.Declares name → others.get? name = o.get? name

section

variable {others : Dict Json}

theorem SameFields.memberMismatch? (same : type.SameFields o others) :
    type.memberMismatch? others = type.memberMismatch? o := by
  funext ⟨name, value⟩
  cases found : type.field? name with
  | none => rw [memberMismatch?_undeclared found, memberMismatch?_undeclared found]
  | some field =>
    have known : type.Declares field.1 := by
      rcases field?_cases found with ⟨-, member⟩ | ⟨rfl, -, rfl⟩
      · exact .inl (List.mem_map_of_mem member)
      · exact .inl (by decide)
    have also : others.contains field.1 = o.contains field.1 := by
      rw [Dict.contains, Dict.contains, same field.1 known]
    unfold StepType.memberMismatch?
    rw [found]
    dsimp only
    rw [also]

theorem SameFields.findSome?_eq (same : type.SameFields o others) :
    others.toList.findSome? (type.memberMismatch? others) =
      o.toList.findSome? (type.memberMismatch? o) := by
  let keep (name : String) : Bool := (type.field? name).isSome
  have kept : others.toList.filter (fun member => keep member.1) =
      o.toList.filter fun member => keep member.1 := by
    refine Bindings.eq_of_find?_eq (others.increasing.filter _) (o.increasing.filter _)
      fun key => ?_
    rw [Dict.toList, Dict.toList, Bindings.find?_filter, Bindings.find?_filter]
    split
    · rename_i known
      obtain ⟨field, found⟩ := Option.isSome_iff_exists.1 known
      exact same key (declares_of_field? found)
    · rfl
  have passes (member : String × Json) (foreign : keep member.1 = false) :
      type.memberMismatch? o member = none :=
    memberMismatch?_undeclared (by simpa [keep] using foreign) member.2
  rw [same.memberMismatch?, ← findSome?_filter passes others.toList, kept,
    findSome?_filter passes]

theorem SameFields.fieldsOfObject_eq (same : type.SameFields o others)
    (member : field ∈ type.declared) :
    type.fieldsOfObject others field.1 = type.fieldsOfObject o field.1 := by
  unfold fieldsOfObject
  rw [same field.1 (.inl (List.mem_map_of_mem member))]
  by_cases plain : type = .creation
  · rw [same "value" (.inr ⟨plain, rfl⟩)]
  · simp [plain]

theorem SameFields.kindOfObject_eq (same : type.SameFields o others) :
    type.kindOfObject others = type.kindOfObject o := by
  rw [kindOfObject, kindOfObject, same.findSome?_eq,
    kind_congr fun field member => same.fieldsOfObject_eq member]

end

end StepType

namespace Step

variable {o others : Dict Json} {type : StepType}

def Names (o : Dict Json) (type : StepType) : Prop := o.get? "type" = some (.string type.name)

theorem ofObject_of_names (names : Names o type) :
    StepKind.ofObject o = type.kindOfObject o := by
  rw [StepKind.ofObject, names]
  simp only [StepType.ofTag_eq_ok_iff.2 rfl]

theorem ofObject_of_not_names (nameless : ∀ type, ¬ Names o type)
    (same : others.get? "type" = o.get? "type") :
    ∃ mismatch, StepKind.ofObject o = .error mismatch ∧
      StepKind.ofObject others = .error mismatch := by
  unfold StepKind.ofObject
  rw [same]
  cases found : o.get? "type" with
  | none => exact ⟨_, rfl, rfl⟩
  | some tag =>
    cases tagged : StepType.ofTag tag with
    | error mismatch => exact ⟨mismatch, by simp only [tagged], by simp only [tagged]⟩
    | ok type =>
      have names : Names o type := by rw [Names, found, StepType.ofTag_eq_ok_iff.1 tagged]
      exact absurd names (nameless type)

def typeText (o : Dict Json) : String := ((o.get? "type").bind string?).getD ""

theorem kind_ofObject (o : Dict Json) :
    (ofObject o).kind = .orUnknown (typeText o) (StepKind.ofObject o) := rfl

theorem kind_of_fits (names : Names o type) (fits : type.Fits o) :
    (ofObject o).kind = (type.fieldsOfObject o).kind type := by
  rw [kind_ofObject, ofObject_of_names names, StepType.kindOfObject_of_fits fits]
  rfl

theorem kind_of_misfit (misfit : ∀ type, Names o type → ¬ type.Fits o) :
    ∃ reason, (ofObject o).kind = .unknown (typeText o) reason := by
  rw [kind_ofObject]
  by_cases named : ∃ type, Names o type
  · obtain ⟨type, names⟩ := named
    obtain ⟨mismatch, refused⟩ := StepType.kindOfObject_of_not_fits (misfit type names)
    rw [ofObject_of_names names, refused]
    exact ⟨mismatch.message, rfl⟩
  · obtain ⟨mismatch, refused, -⟩ :=
      ofObject_of_not_names (not_exists.1 named) (Eq.refl (o.get? "type"))
    rw [refused]
    exact ⟨mismatch.message, rfl⟩

theorem known_iff :
    (ofObject o).kind.isUnknown = false ↔ ∃ type, Names o type ∧ type.Fits o := by
  constructor
  · intro known
    by_contra none
    have misfit (type : StepType) (names : Names o type) (fits : type.Fits o) : False :=
      none ⟨type, names, fits⟩
    obtain ⟨reason, kind⟩ := kind_of_misfit misfit
    rw [kind] at known
    cases known
  · rintro ⟨type, names, fits⟩
    rw [kind_of_fits names fits]
    exact StepType.isUnknown_kind type _

theorem kind_ofObject_congr (tag : others.get? "type" = o.get? "type")
    (same : ∀ type, Names o type → type.SameFields o others) :
    (ofObject others).kind = (ofObject o).kind := by
  rw [kind_ofObject, kind_ofObject, typeText, typeText, tag]
  by_cases named : ∃ type, Names o type
  · obtain ⟨type, names⟩ := named
    have also : Names others type := tag.trans names
    rw [ofObject_of_names names, ofObject_of_names also, (same type names).kindOfObject_eq]
  · obtain ⟨mismatch, refused, also⟩ := ofObject_of_not_names (not_exists.1 named) tag
    rw [refused, also]

theorem id_ofObject_eq_some_iff {id : StepId} :
    (ofObject o).id = some id ↔ ∃ value, o.get? "id" = some value ∧ ReadsId value id := by
  simp only [ofObject, Option.bind_eq_some_iff, decodes_id.reads_iff]

-- An object is a known step exactly if it names a type and fits it, and then it is the kind whose
-- fields are read from it; else it is unknown under the text that it has as its type. What the type
-- does not declare, the id among it, makes no difference to the kind, and the id of the step is
-- what the object's id is read as.
theorem decoding_exact (members : List (String × Json)) :
    let o := Dict.ofList members
    let step := Step.ofJson (.object members)
    (step.kind.isUnknown = false ↔ ∃ type, Names o type ∧ type.Fits o) ∧
    (∀ type, Names o type →
      ∀ kind, ReadsKind o.get? type kind ↔ type.Fits o ∧ step.kind = kind) ∧
    (step.kind.isUnknown = true → ∃ reason, step.kind = .unknown (typeText o) reason) ∧
    (∀ others : List (String × Json), (Dict.ofList others).get? "type" = o.get? "type" →
      (∀ type, Names o type → type.SameFields o (Dict.ofList others)) →
        (Step.ofJson (.object others)).kind = step.kind) ∧
    (∀ others : List (String × Json),
      (∀ name, name ≠ "id" → (Dict.ofList others).get? name = o.get? name) →
        (Step.ofJson (.object others)).kind = step.kind) ∧
    ∀ id, step.id = some id ↔ ∃ value, o.get? "id" = some value ∧ ReadsId value id := by
  intro o step
  refine ⟨known_iff, fun type names kind => ?_, fun unknown => ?_,
    fun others tag same => kind_ofObject_congr tag same, fun others same => ?_,
    fun id => id_ofObject_eq_some_iff⟩
  · have decoded (fits : type.Fits o) : step.kind = (type.fieldsOfObject o).kind type :=
      kind_of_fits names fits
    constructor
    · intro reads
      have fits := StepType.fits_of_reads reads
      exact ⟨fits, (decoded fits).trans (fits.kind_iff.2 reads)⟩
    · rintro ⟨fits, rfl⟩
      exact fits.kind_iff.1 (decoded fits).symm
  · refine kind_of_misfit fun type names fits => ?_
    have known : step.kind.isUnknown = false := known_iff.2 ⟨type, names, fits⟩
    rw [known] at unknown
    cases unknown
  · refine kind_ofObject_congr (same "type" (by decide)) fun type names name declared => ?_
    refine same name ?_
    rintro rfl
    rcases declared with listed | ⟨-, other⟩
    · cases type <;> revert listed <;> decide
    · exact absurd other (by decide)

def renamedMembers : List (String × Json) :=
  [("type", .string "meta"), ("id", .string "m"), ("mood", .null),
    ("action", .object [("create_global", .null)]), ("value", .array [.bool true])]

-- The second name of a field, an action as the key of an object, and a field that is not declared.
theorem decoding_exact_at_renamed_value :
    (Step.ofJson (.object renamedMembers)).kind =
      .creation ⟨.createGlobal, "", some (.list [.bool true])⟩ ∧
    (Step.ofJson (.object renamedMembers)).id = some (.text "m") ∧
    (Step.ofJson (.object (("init", .null) :: renamedMembers))).kind.isUnknown = true := by
  obtain ⟨-, reads, -, -, -, id⟩ := decoding_exact renamedMembers
  obtain ⟨known, -⟩ := decoding_exact (("init", .null) :: renamedMembers)
  have read : ReadsKind (Dict.ofList renamedMembers).get? .creation
      (.creation ⟨.createGlobal, "", some (.list [.bool true])⟩) := by
    refine .creation ⟨?_, .missing, ?_, .inl rfl⟩
    · exact .given ⟨"create_global", .null, .listed (by decide)⟩
    · exact .given (.given (.list (.cons .bool .nil)))
  refine ⟨((reads .creation rfl _).1 read).2, (id _).2 ⟨_, rfl, .text⟩, ?_⟩
  rw [← Bool.not_eq_false, known]
  rintro ⟨type, names, fits⟩
  have named : "meta" = type.name := Json.string.inj (Option.some.inj names)
  obtain rfl : .creation = type := Option.some.inj (StepType.ofName?_eq_some_iff.2 named)
  rcases fits.single rfl with absent | absent <;> cases absent

end Step

end VisualNovel

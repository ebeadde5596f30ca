import VisualNovel.Script.Step
import VisualNovel.Text

namespace VisualNovel

inductive Found where
  | null
  | bool (b : Bool)
  | whole (n : Int)
  | real (x : Float)
  | text (s : String)
  | sequence
  | map
deriving DecidableEq

inductive Mismatch where
  | missingField (name : String)
  | unknownVariant (name : String) (known : List String)
  | duplicateField (name : String)
  | wrongType (found : Found) (expected : String)
  | notOneKey
  | noVariant (union : String)
  | wrongLength (found expected : Nat)
deriving DecidableEq

def Found.of : Json → Found
  | .null => .null
  | .bool b => .bool b
  | .number (.whole n) => .whole n
  | .number (.real x) => .real x
  | .string s => .text s
  | .array _ => .sequence
  | .object _ => .map

def Found.describe : Found → String
  | .null => "null"
  | .bool true => "boolean `true`"
  | .bool false => "boolean `false`"
  | .whole n => "integer `" ++ String.ofList (Json.wholeText n) ++ "`"
  | .real x => "floating point `" ++ Json.realLayout.write x ++ "`"
  | .text s => "string " ++ Text.quoted s
  | .sequence => "sequence"
  | .map => "map"

def elementCount (n : Nat) : String :=
  if n = 1 then "1 element in sequence" else toString n ++ " elements in sequence"

def Mismatch.message : Mismatch → String
  | .missingField name => "missing field `" ++ name ++ "`"
  | .unknownVariant name known =>
    "unknown variant `" ++ name ++ "`, expected one of " ++
      ", ".intercalate (known.map fun k => "`" ++ k ++ "`")
  | .duplicateField name => "duplicate field `" ++ name ++ "`"
  | .wrongType found expected => "invalid type: " ++ found.describe ++ ", expected " ++ expected
  | .notOneKey => "invalid value: map, expected map with a single key"
  | .noVariant union => "data did not match any variant of untagged enum " ++ union
  | .wrongLength found expected =>
    "invalid length " ++ toString found ++ ", expected " ++ elementCount expected

inductive StepType where
  | label
  | start
  | command
  | creation
  | transition
  | next
  | dialogue
  | choice
  | showSprite
  | removeSprite
  | modifyBackground
  | modifyVariable
  | modifyGlobal
  | unlockDialogues
  | idleChat
  | conditional
  | conditionalGlobal
  | finishDialogue
deriving DecidableEq

-- What a field has to hold. Only for the optional shapes does `null` count as absent.
inductive Shape where
  | text
  | optionalText
  | optionalNumber
  | word
  | options
  | texts
  | optionalValue
  | optionalId
deriving DecidableEq

def StepId.ofJson? : Json → Option StepId
  | .string s => some (.text s)
  | value => value.int64?.map .number

namespace StepType

def all : List StepType :=
  [.label, .start, .command, .creation, .transition, .next, .dialogue, .choice, .showSprite,
    .removeSprite, .modifyBackground, .modifyVariable, .modifyGlobal, .unlockDialogues, .idleChat,
    .conditional, .conditionalGlobal, .finishDialogue]

def name : StepType → String
  | .label => "label"
  | .start => "start"
  | .command => "command"
  | .creation => "meta"
  | .transition => "transition"
  | .next => "next"
  | .dialogue => "dialogue"
  | .choice => "choice"
  | .showSprite => "show_sprite"
  | .removeSprite => "remove_sprite"
  | .modifyBackground => "modify_background"
  | .modifyVariable => "modify_variable"
  | .modifyGlobal => "modify_global"
  | .unlockDialogues => "unlock_dialogues"
  | .idleChat => "idle_chat"
  | .conditional => "conditional"
  | .conditionalGlobal => "conditional_global"
  | .finishDialogue => "finish_dialogue"

def ofName? (name : String) : Option StepType := all.find? fun type => type.name = name

-- The fields of each type, in the order in which an array lists them.
def declared : StepType → List (String × Shape)
  | .label => [("label", .text)]
  | .start => []
  | .command => []
  | .creation => [("action", .word), ("var", .text), ("init", .optionalValue)]
  | .transition => [("label", .text)]
  | .next => [("label", .text)]
  | .dialogue => [("label", .optionalText), ("content", .optionalText)]
  | .choice => [("choice", .options)]
  | .showSprite =>
    [("sprite", .text), ("location", .optionalText), ("dyn_location", .optionalText),
      ("column", .optionalNumber), ("row", .optionalNumber), ("wRatio", .optionalNumber),
      ("hRatio", .optionalNumber), ("wFrameRatio", .optionalNumber),
      ("hFrameRatio", .optionalNumber)]
  | .removeSprite => [("sprite", .text)]
  | .modifyBackground => [("background", .text)]
  | .modifyVariable => [("action", .word), ("var", .text), ("value", .optionalValue)]
  | .modifyGlobal => [("action", .word), ("var", .text), ("value", .optionalValue)]
  | .unlockDialogues => [("events", .texts)]
  | .idleChat => []
  | .conditional =>
    [("var", .text), ("condition", .word), ("value", .optionalValue), ("end", .optionalId)]
  | .conditionalGlobal =>
    [("var", .text), ("condition", .word), ("value", .optionalValue), ("end", .optionalId)]
  | .finishDialogue => []

-- A `meta` step may write `value` for `init`.
def field? (type : StepType) (name : String) : Option (String × Shape) :=
  if type = .creation && name = "value" then some ("init", .optionalValue)
  else type.declared.find? fun field => field.1 = name

end StepType

def textMismatch? : Json → Option Mismatch
  | .string _ => none
  | value => some (.wrongType (.of value) "a string")

def wordMismatch? : Json → Option Mismatch
  | .string _ => none
  | .object [(_, .null)] => none
  | .object [(_, .object [])] => none
  | .object [(_, value)] => some (.wrongType (.of value) "unit")
  | .object _ => some .notOneKey
  | value => some (.wrongType (.of value) "string or map")

def ChoiceOption.fields : List String := ["display", "label"]

def optionMismatch? : Json → Option Mismatch
  | .object members =>
    members.findSome? fun member =>
      if member.1 ∈ ChoiceOption.fields then textMismatch? member.2 else none
  | .array items =>
    match (items.take 2).findSome? textMismatch? with
    | some mismatch => some mismatch
    | none => if 2 < items.length then some (.wrongLength items.length 2) else none
  | value => some (.wrongType (.of value) "struct ChoiceOption")

def listMismatch? (check : Json → Option Mismatch) : Json → Option Mismatch
  | .array items => items.findSome? check
  | value => some (.wrongType (.of value) "a sequence")

def optionalMismatch? (check : Json → Option Mismatch) : Json → Option Mismatch
  | .null => none
  | value => check value

def numberMismatch? : Json → Option Mismatch
  | .number _ => none
  | value => some (.wrongType (.of value) "f64")

def valueMismatch? (value : Json) : Option Mismatch :=
  if (Value.ofJson? value).isSome then none else some (.noVariant "VnValue")

def idMismatch? (value : Json) : Option Mismatch :=
  if (StepId.ofJson? value).isSome then none else some (.noVariant "StepId")

def Shape.mismatch? : Shape → Json → Option Mismatch
  | .text => textMismatch?
  | .optionalText => optionalMismatch? textMismatch?
  | .optionalNumber => optionalMismatch? numberMismatch?
  | .word => wordMismatch?
  | .options => listMismatch? optionMismatch?
  | .texts => listMismatch? textMismatch?
  | .optionalValue => optionalMismatch? valueMismatch?
  | .optionalId => optionalMismatch? idMismatch?

-- Fields that fit their shapes, as a look-up by the declared name.
abbrev Fields := String → Option Json

namespace Fields

def text (fields : Fields) (name : String) : String := ((fields name).bind Json.string?).getD ""

def text? (fields : Fields) (name : String) : Option String := (fields name).bind Json.string?

def float? (fields : Fields) (name : String) : Option Float := (fields name).bind Json.float?

def value? (fields : Fields) (name : String) : Option Value := (fields name).bind Value.ofJson?

def id? (fields : Fields) (name : String) : Option StepId := (fields name).bind StepId.ofJson?

def items (fields : Fields) (name : String) : List Json := ((fields name).bind Json.array?).getD []

def word? (fields : Fields) (name : String) : Option String :=
  match fields name with
  | some (.string s) => some s
  | some (.object [(key, _)]) => some key
  | _ => none

end Fields

def ChoiceOption.ofJson : Json → ChoiceOption
  | .object members =>
    let fields : Fields := fun name => Bindings.find? name members
    ⟨fields.text "display", fields.text "label"⟩
  | .array items =>
    let fields : Fields := fun name => Bindings.find? name (ChoiceOption.fields.zip items)
    ⟨fields.text "display", fields.text "label"⟩
  | _ => ⟨"", ""⟩

def CreationAction.ofWord : Option String → CreationAction
  | some "create_var" => .createVar
  | some "create_global" => .createGlobal
  | _ => .other

def MutationAction.ofWord : Option String → MutationAction
  | some "modify_var" => .modify
  | some "increment_var" => .increment
  | some "subtract_var" => .subtract
  | _ => .other

def Comparison.ofWord : Option String → Comparison
  | some "equal" => .equal
  | some "not_equal" => .notEqual
  | some "greater_than" => .greaterThan
  | some "less_than" => .lessThan
  | _ => .unknown

namespace Fields

def placement (fields : Fields) : Placement :=
  { sprite := fields.text "sprite"
    location := fields.text? "location"
    dynLocation := fields.text? "dyn_location"
    column := fields.float? "column"
    row := fields.float? "row"
    wRatio := fields.float? "wRatio"
    hRatio := fields.float? "hRatio"
    wFrameRatio := fields.float? "wFrameRatio"
    hFrameRatio := fields.float? "hFrameRatio" }

def mutation (fields : Fields) : Mutation :=
  ⟨.ofWord (fields.word? "action"), fields.text "var", fields.value? "value"⟩

def condition (fields : Fields) : Condition :=
  ⟨fields.text "var", .ofWord (fields.word? "condition"), fields.value? "value", fields.id? "end"⟩

-- The kind whose fields these are, with the default for every field that is absent.
def kind (fields : Fields) : StepType → StepKind
  | .label => .label (fields.text "label")
  | .start => .start
  | .command => .command
  | .creation =>
    .creation ⟨.ofWord (fields.word? "action"), fields.text "var", fields.value? "init"⟩
  | .transition => .transition (fields.text "label")
  | .next => .next (fields.text "label")
  | .dialogue => .dialogue (fields.text? "label") (fields.text? "content")
  | .choice => .choice ((fields.items "choice").map ChoiceOption.ofJson)
  | .showSprite => .showSprite fields.placement
  | .removeSprite => .removeSprite (fields.text "sprite")
  | .modifyBackground => .modifyBackground (fields.text "background")
  | .modifyVariable => .modifyVariable fields.mutation
  | .modifyGlobal => .modifyGlobal fields.mutation
  | .unlockDialogues =>
    .unlockDialogues ((fields.items "events").map fun item => item.string?.getD "")
  | .idleChat => .idleChat
  | .conditional => .conditional fields.condition
  | .conditionalGlobal => .conditionalGlobal fields.condition
  | .finishDialogue => .finishDialogue

end Fields

namespace StepType

def ofTag : Json → Except Mismatch StepType
  | .string name =>
    match ofName? name with
    | some type => .ok type
    | none => .error (.unknownVariant name (all.map StepType.name))
  | value => .error (.wrongType (.of value) "variant identifier")

-- Of the two names of one field only one may be used; `init` comes first in key order.
def memberMismatch? (type : StepType) (fields : Dict Json) (member : String × Json) :
    Option Mismatch :=
  match type.field? member.1 with
  | none => none
  | some (name, shape) =>
    if name ≠ member.1 && fields.contains name then some (.duplicateField name)
    else shape.mismatch? member.2

def fieldsOfObject (type : StepType) (fields : Dict Json) : Fields := fun name =>
  match fields.get? name with
  | some value => some value
  | none => if type = .creation && name = "init" then fields.get? "value" else none

-- Members are looked at in key order.
def kindOfObject (type : StepType) (fields : Dict Json) : Except Mismatch StepKind :=
  match fields.toList.findSome? (type.memberMismatch? fields) with
  | some mismatch => .error mismatch
  | none => .ok ((type.fieldsOfObject fields).kind type)

-- Elements are looked at in the order of declaration.
def kindOfArray (type : StepType) (items : List Json) : Except Mismatch StepKind :=
  let pairs := type.declared.zip items
  match pairs.findSome? fun pair => pair.1.2.mismatch? pair.2 with
  | some mismatch => .error mismatch
  | none =>
    let expected := type.declared.length
    if expected < items.length then .error (.wrongLength items.length expected)
    else
      let fields : Fields := fun name => (pairs.find? fun pair => pair.1.1 = name).map Prod.snd
      .ok (fields.kind type)

end StepType

namespace StepKind

def ofObject (fields : Dict Json) : Except Mismatch StepKind :=
  match fields.get? "type" with
  | none => .error (.missingField "type")
  | some tag =>
    match StepType.ofTag tag with
    | .error mismatch => .error mismatch
    | .ok type => type.kindOfObject fields

def ofArray : List Json → Except Mismatch StepKind
  | [] => .error (.missingField "type")
  | tag :: items =>
    match StepType.ofTag tag with
    | .error mismatch => .error mismatch
    | .ok type => type.kindOfArray items

def orUnknown (typeName : String) : Except Mismatch StepKind → StepKind
  | .ok kind => kind
  | .error mismatch => .unknown typeName mismatch.message

end StepKind

namespace Step

-- What is neither a whole number of 64 bits nor a text is no id, and never harms the step.
def ofObject (fields : Dict Json) : Step :=
  { id := (fields.get? "id").bind StepId.ofJson?
    kind :=
      .orUnknown (((fields.get? "type").bind Json.string?).getD "") (StepKind.ofObject fields) }

def ofJson : Json → Step
  | .object members => ofObject (Dict.ofList members)
  | .array items => ⟨none, .orUnknown "" (StepKind.ofArray items)⟩
  | value =>
    ⟨none, .orUnknown "" (.error (.wrongType (.of value) "internally tagged enum StepKind"))⟩

end Step

-- A placement on its own is read like the fields of a step that shows a sprite.
def Placement.ofJson? (value : Json) : Option Placement :=
  let kind := match value with
    | .object members => StepType.showSprite.kindOfObject (Dict.ofList members)
    | .array items => StepType.showSprite.kindOfArray items
    | _ => .error (.missingField "sprite")
  match kind with
  | .ok (.showSprite placement) => some placement
  | _ => none

end VisualNovel

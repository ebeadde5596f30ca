import VisualNovel.Value

namespace VisualNovel

structure Placement where
  sprite : String
  location : Option String
  dynLocation : Option String
  column : Option Float
  row : Option Float
  wRatio : Option Float
  hRatio : Option Float
  wFrameRatio : Option Float
  hFrameRatio : Option Float
deriving DecidableEq

structure StageRect where
  left : Float
  top : Float
  width : Float
  height : Float
deriving DecidableEq

namespace Placement

-- The start and extent of a span of cells along one axis.
def span (first cells ratio : Float) : Float × Float :=
  ((first - 1) / ratio * 100, cells / ratio * 100)

-- A grid without columns or rows has no cells.
def gridRect (p : Placement) : Option StageRect :=
  match p.wRatio, p.hRatio, p.column, p.row, p.wFrameRatio, p.hFrameRatio with
  | some wRatio, some hRatio, some column, some row, some wFrame, some hFrame =>
    if wRatio == 0 || hRatio == 0 then none
    else
      let (left, width) := span column wFrame wRatio
      let (top, height) := span row hFrame hRatio
      some ⟨left, top, width, height⟩
  | _, _, _, _, _, _ => none

def member (name : String) (encode : α → Json) : Option α → List (String × Json)
  | none => []
  | some value => [(name, encode value)]

-- Absent fields are left out.
def members (number : Float → Json) (p : Placement) : List (String × Json) :=
  ("sprite", .string p.sprite) ::
    (member "location" .string p.location ++ member "dyn_location" .string p.dynLocation ++
      member "column" number p.column ++ member "row" number p.row ++
      member "wRatio" number p.wRatio ++ member "hRatio" number p.hRatio ++
      member "wFrameRatio" number p.wFrameRatio ++ member "hFrameRatio" number p.hFrameRatio)

def toJson (p : Placement) : Json := .object (p.members .ofFloat)

end Placement

-- Ids are matched strictly: the number 1 and the text "1" are different.
inductive StepId where
  | number (n : Int)
  | text (s : String)
deriving DecidableEq

def StepId.show : StepId → String
  | .number n => String.ofList (Json.wholeText n)
  | .text s => s

structure ChoiceOption where
  display : String
  label : String
deriving DecidableEq

inductive CreationAction where
  | createVar
  | createGlobal
  | other
deriving DecidableEq

structure Creation where
  action : CreationAction
  var : String
  init : Option Value
deriving DecidableEq

inductive MutationAction where
  | modify
  | increment
  | subtract
  | other
deriving DecidableEq

structure Mutation where
  action : MutationAction
  var : String
  value : Option Value
deriving DecidableEq

inductive Comparison where
  | equal
  | notEqual
  | greaterThan
  | lessThan
  | unknown
deriving DecidableEq

-- A failed condition goes on at the step with the id `end`.
structure Condition where
  var : String
  comparison : Comparison
  value : Option Value
  fallback : Option StepId
deriving DecidableEq

inductive StepKind where
  | label (name : String)
  | start
  | command
  | creation (what : Creation)
  | transition (label : String)
  | next (label : String)
  | dialogue (label content : Option String)
  | choice (options : List ChoiceOption)
  | showSprite (placement : Placement)
  | removeSprite (sprite : String)
  | modifyBackground (background : String)
  | modifyVariable (mutation : Mutation)
  | modifyGlobal (mutation : Mutation)
  | unlockDialogues (events : List String)
  | idleChat
  | conditional (condition : Condition)
  | conditionalGlobal (condition : Condition)
  | finishDialogue
  | unknown (typeName reason : String)
deriving DecidableEq

structure Step where
  id : Option StepId
  kind : StepKind
deriving DecidableEq

abbrev Script := List Step

namespace StepKind

def typeName : StepKind → String
  | .label _ => "label"
  | .start => "start"
  | .command => "command"
  | .creation _ => "meta"
  | .transition _ => "transition"
  | .next _ => "next"
  | .dialogue _ _ => "dialogue"
  | .choice _ => "choice"
  | .showSprite _ => "show_sprite"
  | .removeSprite _ => "remove_sprite"
  | .modifyBackground _ => "modify_background"
  | .modifyVariable _ => "modify_variable"
  | .modifyGlobal _ => "modify_global"
  | .unlockDialogues _ => "unlock_dialogues"
  | .idleChat => "idle_chat"
  | .conditional _ => "conditional"
  | .conditionalGlobal _ => "conditional_global"
  | .finishDialogue => "finish_dialogue"
  | .unknown typeName _ => typeName

def isUnknown : StepKind → Bool
  | .unknown _ _ => true
  | _ => false

def isDialogue : StepKind → Bool
  | .dialogue _ _ => true
  | _ => false

def isChoice : StepKind → Bool
  | .choice _ => true
  | _ => false

def labelName? : StepKind → Option String
  | .label name => some name
  | _ => none

end StepKind

namespace Script

-- Jumps go to the first step that fits.
def labelIndex? (script : Script) (label : String) : Option Nat :=
  script.findIdx? fun step => step.kind.labelName? = some label

def idIndex? (script : Script) (id : StepId) : Option Nat :=
  script.findIdx? fun step => step.id = some id

end Script

end VisualNovel

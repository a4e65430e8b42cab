import PolicyDiagram.Data.Shape
import PolicyDiagram.Diagram.Index

/-!
Counts that describe one run: what was loaded, what the merged document declares, and how many actions
the index holds.
-/

namespace PolicyDiagram

open Data (Shape Fields)

structure Statistics where
  fragmentCount : Nat
  usedDefaultPolicy : Bool
  resourceTypeCount : Nat
  unionCount : Nat
  actionCount : Nat
  bindingCount : Nat
  directActionCount : Nat
  relatedActionCount : Nat
deriving DecidableEq, Repr, Inhabited

namespace Statistics

def zero : Statistics := ⟨0, false, 0, 0, 0, 0, 0, 0⟩

def shape : Shape Statistics :=
  .record "PipelineStatistics" zero
    (.field "fragment_count" [] .required .natural fragmentCount
        (fun fragmentCount s => { s with fragmentCount }) <|
      .field "used_default_policy" [] .required .boolean usedDefaultPolicy
        (fun usedDefaultPolicy s => { s with usedDefaultPolicy }) <|
      .field "resource_type_count" [] .required .natural resourceTypeCount
        (fun resourceTypeCount s => { s with resourceTypeCount }) <|
      .field "union_count" [] .required .natural unionCount
        (fun unionCount s => { s with unionCount }) <|
      .field "action_count" [] .required .natural actionCount
        (fun actionCount s => { s with actionCount }) <|
      .field "action_binding_count" [] .required .natural bindingCount
        (fun bindingCount s => { s with bindingCount }) <|
      .field "direct_action_count" [] .required .natural directActionCount
        (fun directActionCount s => { s with directActionCount }) <|
      .field "related_action_count" [] .required .natural relatedActionCount
        (fun relatedActionCount s => { s with relatedActionCount }) <|
      .done)

def collect (fragmentCount : Nat) (document : Document) (index : ActionIndex) : Statistics where
  fragmentCount
  usedDefaultPolicy := fragmentCount == 0
  resourceTypeCount := document.resourceTypes.length
  unionCount := document.unions.length
  actionCount := document.actions.length
  bindingCount := document.bindings.length
  directActionCount := index.direct.entryCount
  relatedActionCount := index.related.entryCount

def entityCount (s : Statistics) : Nat := (s.resourceTypeCount + s.unionCount) % Data.countRange

def origin (s : Statistics) : String :=
  if s.usedDefaultPolicy then "built-in default policy" else toString s.fragmentCount ++ " fragment(s)"

def summaryLines (s : Statistics) : List String :=
  ["Source: " ++ s.origin,
   "Resource types: " ++ toString s.resourceTypeCount,
   "Unions: " ++ toString s.unionCount,
   "Actions: " ++ toString s.actionCount,
   "Action bindings: " ++ toString s.bindingCount,
   "Direct action entries: " ++ toString s.directActionCount,
   "Relation action entries: " ++ toString s.relatedActionCount]

def summary (s : Statistics) : String := "\n".intercalate s.summaryLines

def display (s : Statistics) : String :=
  toString s.entityCount ++ " entities, " ++ toString s.bindingCount ++ " bindings, " ++
    toString s.directActionCount ++ " direct and " ++ toString s.relatedActionCount ++
    " relation action entries"

end Statistics

end PolicyDiagram

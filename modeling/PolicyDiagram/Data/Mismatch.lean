import PolicyDiagram.Text.Quoted

/-!
The ways in which data can fail to have the shape that is asked for, whatever format it is written in,
and what is said about each.
-/

namespace PolicyDiagram.Data

inductive Found where
  | boolean (value : Bool)
  | integer (value : Int)
  | described (description : String)
  | text (value : String)
  | sequence
  | map
deriving DecidableEq, Repr

def Found.real (digits : String) : Found := .described ("floating point `" ++ digits ++ "`")

def Found.describe : Found → String
  | boolean value => "boolean `" ++ (if value then "true" else "false") ++ "`"
  | integer value => "integer `" ++ toString value ++ "`"
  | described description => description
  | text value => "string " ++ Text.quoted value
  | sequence => "sequence"
  | map => "map"

inductive Mismatch where
  | invalidType (found : Found) (expected : String)
  | invalidValue (found : Found) (expected : String)
  | invalidLength (length : Nat) (expected : String)
  | duplicateField (name : String)
  | missingField (name : String)
  | unknownVariant (found : String) (variants : List String)
deriving DecidableEq, Repr

namespace Mismatch

def ticked (name : String) : String := "`" ++ name ++ "`"

def choices : List String → String
  | [] => "there are no variants"
  | [only] => "expected " ++ ticked only
  | [first, second] => "expected " ++ ticked first ++ " or " ++ ticked second
  | names => "expected one of " ++ ", ".intercalate (names.map ticked)

def message : Mismatch → String
  | invalidType found expected => "invalid type: " ++ found.describe ++ ", expected " ++ expected
  | invalidValue found expected => "invalid value: " ++ found.describe ++ ", expected " ++ expected
  | invalidLength length expected =>
    "invalid length " ++ toString length ++ ", expected " ++ expected
  | duplicateField name => "duplicate field " ++ ticked name
  | missingField name => "missing field " ++ ticked name
  | unknownVariant found variants =>
    "unknown variant " ++ ticked found ++ ", " ++ choices variants

end Mismatch

end PolicyDiagram.Data

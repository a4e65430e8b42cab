import PolicyDiagram.Policy.Fragment

/-!
What a run can end in, other than a diagram.
-/

namespace PolicyDiagram

inductive RunError where
  | unopened (fragment : Path) (fault : IoFault)
  | undecoded (fragment : Path) (error : DecodeError)
  | unrendered
  | unwritten (fault : IoFault)
  | misconfigured (message : String)
deriving DecidableEq, Repr

namespace RunError

def category : RunError → String
  | unopened .. => "Fragment Open"
  | undecoded .. => "Fragment Decode"
  | unrendered => "Render"
  | unwritten _ => "Output"
  | misconfigured _ => "Configuration"

def message : RunError → String
  | unopened fragment _ => "failed to open policy document file " ++ fragment.spelling
  | undecoded fragment _ => "failed to decode policy document file " ++ fragment.spelling
  | unrendered => "failed to render mermaid chart for policy"
  | unwritten _ => "failed to write diagram output"
  | misconfigured message => "Configuration error: " ++ message

def fragment? : RunError → Option Path
  | unopened fragment _ | undecoded fragment _ => some fragment
  | _ => none

def causes : RunError → List String
  | unopened _ fault | unwritten fault => [fault.message]
  | undecoded _ error => [error.message, error.cause]
  | unrendered => ["an error occurred when formatting an argument"]
  | misconfigured _ => []

end RunError

end PolicyDiagram

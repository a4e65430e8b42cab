import PolicyDiagram.Config.Basic
import PolicyDiagram.Files.FileSystem

/-!
What a configuration must satisfy before a run may use it: every fragment has a path, and the output is not
one of the fragments, however the two are spelled.
-/

namespace PolicyDiagram.Config

inductive Problem where
  | emptyFragmentPath (position : Nat)
  | outputIsFragment (output : Path)
deriving DecidableEq, Repr

def Problem.message : Problem → String
  | emptyFragmentPath position => "Fragment path at position " ++ toString position ++ " is empty"
  | outputIsFragment output =>
    "Output path " ++ output.spelling ++ " is also listed as a policy fragment"

/-- Whether two paths have the same components, or lead to the same file. -/
def clash (fs : FileSystem) (first second : Path) : Bool :=
  first.sameComponents second || fs.sameFile first second

def validate (fs : FileSystem) (config : Config) : Except Problem Unit :=
  match config.files.findIdx? (·.spelling.isEmpty) with
  | some position => .error (.emptyFragmentPath position)
  | none =>
    match config.output with
    | some output =>
      if config.files.any (clash fs · output) then .error (.outputIsFragment output) else .ok ()
    | none => .ok ()

end PolicyDiagram.Config

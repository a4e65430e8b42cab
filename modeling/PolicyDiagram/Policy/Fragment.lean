import PolicyDiagram.Files.Path
import PolicyDiagram.Json.Read
import PolicyDiagram.Policy.Shapes
import PolicyDiagram.Yaml.Read

/-!
Fragments: the files that a policy is spread over. A fragment is a YAML document unless its path has the
extension of JSON, in letters of either case.
-/

namespace PolicyDiagram

inductive FragmentFormat where
  | yaml
  | json
deriving DecidableEq, Repr

namespace FragmentFormat

def title : FragmentFormat → String
  | yaml => "YAML"
  | json => "JSON"

def ofPath (path : Path) : FragmentFormat :=
  match path.extension with
  | some extension => if extension.toLower = "json" then json else yaml
  | none => yaml

end FragmentFormat

inductive DecodeError where
  | yaml (error : Yaml.Error)
  | json (error : Json.Error)
deriving DecidableEq, Repr

namespace DecodeError

def message : DecodeError → String
  | yaml _ => "invalid YAML"
  | json _ => "invalid JSON"

def cause : DecodeError → String
  | yaml error => error.message
  | json error => error.message

def unreadable (format : FragmentFormat) (fault : IoFault) : DecodeError :=
  match format with
  | .yaml => yaml (.unreadable fault)
  | .json => json (.unreadable fault)

end DecodeError

def Document.decode (format : FragmentFormat) (bytes : ByteArray) : Except DecodeError Document :=
  match format with
  | .yaml => (Yaml.decode shape bytes).mapError .yaml
  | .json => (Json.decode .streamed shape bytes).mapError .json

end PolicyDiagram

import PolicyDiagram.Log.Filter
import PolicyDiagram.Text.Quoted

/-!
How a run logs: which lines pass, in which style they are written, and whether a file keeps them too.
-/

namespace PolicyDiagram.Log

inductive Style where
  | ansi
  | plain
  | json
deriving DecidableEq, Repr

def Style.name : Style → String
  | ansi => "ansi"
  | plain => "plain"
  | json => "json"

structure Line where
  style : Style
  level : Level
  text : String
deriving DecidableEq, Repr

structure Settings where
  level : Level
  jsonFormat : Bool
  directory : Option String
  filePrefix : String
  spanEvents : Bool
  ansi : Bool
  filter : Option String
deriving DecidableEq, Repr

namespace Settings

def default : Settings where
  level := .warn
  jsonFormat := false
  directory := none
  filePrefix := "policy-mermaid"
  spanEvents := false
  ansi := true
  filter := none

def style (settings : Settings) : Style :=
  if settings.jsonFormat then .json else if settings.ansi then .ansi else .plain

def filter? (settings : Settings) : Except FilterError Filter :=
  Filter.parse (settings.filter.getD ("policy_mermaid=" ++ settings.level.name))

def flag (value : Bool) : String := if value then "true" else "false"

def optional : Option String → String
  | none => "None"
  | some value => "Some(" ++ Text.quoted value ++ ")"

def describe (settings : Settings) : String :=
  "LoggingConfig \x7b level: Level(" ++ settings.level.title ++ "), json_format: " ++
    flag settings.jsonFormat ++ ", log_directory: " ++ optional settings.directory ++
    ", log_file_prefix: " ++ Text.quoted settings.filePrefix ++ ", enable_span_events: " ++
    flag settings.spanEvents ++ ", enable_ansi: " ++ flag settings.ansi ++ ", env_filter: " ++
    optional settings.filter ++ " \x7d"

end Settings

def setupTarget : String := "policy_mermaid::pipeline::logging"

def mergeTarget : String := "policy_mermaid::policy::merger"

def programTarget : String := "policy_mermaid"

def hexPair (n : Nat) : List Char := [n / 16, n % 16].map Nat.digitChar

/-- Control characters that a terminal might act upon are spelled out. -/
def shielded (c : Char) : List Char :=
  if [0x07, 0x08, 0x0C, 0x1B, 0x7F].contains c.toNat then ['\\', 'x'] ++ hexPair c.toNat
  else if 0x80 ≤ c.toNat ∧ c.toNat ≤ 0x9F then ['\\', 'u', '\x7b'] ++ hexPair c.toNat ++ ['\x7d']
  else [c]

def Line.ofMessage (style : Style) (level : Level) (target message : String) : Line :=
  let message :=
    if style = .json then message else String.ofList (message.toList.flatMap shielded)
  ⟨style, level, target ++ ": " ++ message⟩

def message (settings : Settings) (filter : Filter) (level : Level) (target text : String) : List Line :=
  if filter.passes level target ["message"] then [.ofMessage settings.style level target text] else []

def setupLines (settings : Settings) (filter : Filter) : List Line :=
  message settings filter .info setupTarget
    ("Logging initialized with configuration: " ++ settings.describe)

def defaultPolicyLines (settings : Settings) (filter : Filter) : List Line :=
  message settings filter .info mergeTarget
    "No policy fragments supplied, using built-in default policy document"

end PolicyDiagram.Log

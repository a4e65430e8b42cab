import PolicyDiagram.Config.Arguments
import PolicyDiagram.Config.Basic
import PolicyDiagram.Files.FileSystem
import PolicyDiagram.Json.Read
import PolicyDiagram.Yaml.Read

/-!
Where a configuration comes from: a configuration file in the format that its extension names, and the
arguments of the command line, which win over the file.
-/

namespace PolicyDiagram

inductive ConfigError where
  | notFound (path : Path)
  | unreadable (fault : IoFault)
  | json (error : Json.Error)
  | yaml (error : Yaml.Error)
  | unsupported (extension : Option String)
deriving DecidableEq, Repr

namespace ConfigError

def message : ConfigError → String
  | notFound path => "Configuration file not found: " ++ path.spelling
  | unreadable _ => "Failed to read configuration file"
  | json _ => "Failed to parse JSON configuration"
  | yaml _ => "Failed to parse YAML configuration"
  | unsupported extension =>
    "Unsupported configuration file format: " ++ extension.getD "no extension" ++
      " (supported: .json, .yaml, .yml)"

def causes : ConfigError → List String
  | unreadable fault => [fault.message]
  | json error => [error.message]
  | yaml error => [error.message]
  | notFound _ | unsupported _ => []

end ConfigError

def ConfigFile.decode (extension : Option String) (text : String) : Except ConfigError ConfigFile :=
  match extension with
  | some "json" => (Json.decode .held shape text.toUTF8).mapError .json
  | some "yaml" | some "yml" => (Yaml.decode shape text.toUTF8).mapError .yaml
  | _ => .error (.unsupported extension)

namespace Config

def load (fs : FileSystem) (path : Path) : Except ConfigError Config :=
  if fs.holds path then do
    let text ← (fs.readText path).mapError .unreadable
    return ofFile (← ConfigFile.decode path.extension text)
  else .error (.notFound path)

def override (config : Config) (arguments : Arguments) : Config where
  files := if arguments.files.isEmpty then config.files else arguments.files
  outputFormat := if arguments.markdown then .markdown else config.outputFormat
  output := arguments.output.or config.output

def ofArguments (fs : FileSystem) (arguments : Arguments) : Except ConfigError Config := do
  match arguments.config with
  | some path => return (← load fs ⟨path⟩).override arguments
  | none => return default.override arguments

end Config

end PolicyDiagram

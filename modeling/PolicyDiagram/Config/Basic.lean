import PolicyDiagram.Data.Shape
import PolicyDiagram.Diagram.Buffer
import PolicyDiagram.Json.Print

/-!
The configuration of a run: which fragments are merged, how the diagram is wrapped and where it goes. A
configuration file may give any part of it; what it leaves out keeps its default.
-/

namespace PolicyDiagram

open Data (Shape Fields)

def OutputFormat.shape : Shape OutputFormat :=
  .choice [("raw", .raw), ("markdown", .markdown)] fun
    | .raw => "raw"
    | .markdown => "markdown"

/-- Without an output path the diagram goes to standard output. -/
structure Config where
  files : List Path
  outputFormat : OutputFormat
  output : Option Path
deriving DecidableEq, Repr, Inhabited

structure ConfigFile where
  files : Option (List Path)
  outputFormat : Option OutputFormat
  output : Option Path
deriving DecidableEq, Repr, Inhabited

def ConfigFile.shape : Shape ConfigFile :=
  .record "ConfigFile" ⟨none, none, none⟩
    (.field "files" [] .optional (.optional (.list .path)) ConfigFile.files
        (fun files c => { c with files }) <|
      .field "output_format" [] .optional (.optional OutputFormat.shape) ConfigFile.outputFormat
        (fun outputFormat c => { c with outputFormat }) <|
      .field "output" [] .optional (.optional .path) ConfigFile.output
        (fun output c => { c with output }) <|
      .done)

namespace Config

def default : Config := ⟨[], .raw, none⟩

def shape : Shape Config :=
  .record "DiagramConfig" default
    (.field "files" [] .required (.list .path) Config.files (fun files c => { c with files }) <|
      .field "output_format" [] .required OutputFormat.shape Config.outputFormat
        (fun outputFormat c => { c with outputFormat }) <|
      .field "output" [] .optional (.optional .path) Config.output
        (fun output c => { c with output }) <|
      .done)

def ofFile (file : ConfigFile) : Config where
  files := file.files.getD default.files
  outputFormat := file.outputFormat.getD default.outputFormat
  output := file.output.or default.output

def print (config : Config) : String := Json.indented (shape.write config)

def usesDefaultPolicy (config : Config) : Bool := config.files.isEmpty

end Config

end PolicyDiagram

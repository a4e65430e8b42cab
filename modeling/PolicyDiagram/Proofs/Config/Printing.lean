import PolicyDiagram.Proofs.Files.Follow
import PolicyDiagram.Proofs.Json.Parsing
import PolicyDiagram.Proofs.Run.Inputs
import PolicyDiagram.Proofs.Run.Stages

/-! A printed configuration, read again. A configuration is printed by its own layout and read by that of a
configuration file, in which every field may be missing. The two write the same data, a printed configuration
leaves no field out, and so no default takes the place of what was printed. -/

namespace PolicyDiagram

open Data (Shape Fields isElided)
open Text (fromUTF8?_toUTF8)

theorem OutputFormat.shape_recovers (format : OutputFormat) : shape.Recovers format := by
  cases format <;> rfl

theorem OutputFormat.write_ne_null (format : OutputFormat) : shape.write format ≠ .null := by
  simp [shape, Shape.write]

/-- The file that says all of a configuration. -/
def ConfigFile.ofConfig (config : Config) : ConfigFile where
  files := some config.files
  outputFormat := some config.outputFormat
  output := config.output

namespace Config

theorem ofFile_ofConfig (config : Config) : ofFile (.ofConfig config) = config := by
  obtain ⟨files, format, output⟩ := config
  cases output <;> rfl

theorem shape_recovers (config : Config) : shape.Recovers config := by
  simp [shape, Fields.Distinct, isElided, OutputFormat.shape_recovers, Shape.write]

theorem shape_verbal : shape.Verbal := by
  simp only [shape, OutputFormat.shape, Shape.Verbal, Fields.Verbal]
  decide

theorem print_lays (config : Config) : Json.Lays (shape.write config) config.print.toList :=
  Json.indented_lays 0 _ (shape.write_verbal shape_verbal config)

end Config

theorem ConfigFile.shape_recovers (config : Config) : shape.Recovers (ofConfig config) := by
  simp [shape, ofConfig, Fields.Distinct, isElided, OutputFormat.shape_recovers,
    OutputFormat.write_ne_null, Shape.write]

theorem ConfigFile.write_ofConfig (config : Config) :
    shape.write (ofConfig config) = Config.shape.write config := by
  simp [shape, ofConfig, Config.shape, Shape.write, Fields.write]

theorem ConfigFile.decode_print (config : Config) :
    decode (some "json") config.print = .ok (ofConfig config) := by
  have lays : Json.Lays (shape.write (ofConfig config)) config.print.toList := by
    rw [write_ofConfig]
    exact config.print_lays
  have read := Json.decode_of_lays .held shape (shape_recovers config) lays
  rw [decode, read]
  rfl

namespace Config

theorem load_of_read {fs : FileSystem} {path : Path} {config : Config}
    (json : path.extension = some "json") (stored : fs.read path = .ok config.print.toUTF8) :
    load fs path = .ok config := by
  have read : fs.readText path = .ok config.print := by
    rw [FileSystem.readText, stored]
    simp only [bind, Except.bind, fromUTF8?_toUTF8]
  rw [load, if_pos (FileSystem.holds_of_readText read), read, json]
  dsimp only [Except.mapError, bind, Except.bind]
  rw [ConfigFile.decode_print]
  dsimp only [pure, Except.pure]
  rw [ofFile_ofConfig]

/-- A command line that gives a configuration file and nothing else. -/
def onlyFrom (path : Path) : Arguments := { Arguments.none with config := some path.spelling }

theorem long_config (reading : Arguments.Reading) (value : String) :
    reading.long ('c' :: 'o' :: 'n' :: 'f' :: 'i' :: 'g' :: '=' :: value.toList) =
      reading.assign .config value := by
  have found : Arguments.longNames.lookup "config" = some (.setting .config) := by decide
  simp [Arguments.Reading.long, found]

theorem parse_onlyFrom (path : Path) :
    Arguments.parse ["--config=" ++ path.spelling] = .ok (onlyFrom path) := by
  have word : ("--config=" ++ path.spelling).toList =
      '-' :: '-' :: 'c' :: 'o' :: 'n' :: 'f' :: 'i' :: 'g' :: '=' :: path.spelling.toList := by simp
  simp only [Arguments.parse, Arguments.Reading.words, word, long_config]
  rfl

theorem ofArguments_onlyFrom {fs : FileSystem} {path : Path} {config : Config}
    (loaded : load fs path = .ok config) : ofArguments fs (onlyFrom path) = .ok config := by
  rw [ofArguments_of_config rfl, loaded]
  rfl

/-- A configuration comes back unchanged from its printed text: decoded by its own layout, loaded as a
configuration file, and asked for by a command line that gives that file only. So it does from a file that has
just been written. -/
theorem print_is_faithful (config : Config) :
    (∀ source, Json.decode source shape config.print.toUTF8 = .ok config) ∧
    (∀ (fs : FileSystem) (path : Path), path.extension = some "json" →
      fs.read path = .ok config.print.toUTF8 →
        load fs path = .ok config ∧ ofArguments fs (onlyFrom path) = .ok config) ∧
    (∀ (fs : FileSystem) (path : Path) (place : Location), path.extension = some "json" →
      fs.newPlace path = .ok place →
        load (fs.put place (.file config.print.toUTF8)) path = .ok config ∧
          ofArguments (fs.put place (.file config.print.toUTF8)) (onlyFrom path) = .ok config) ∧
    ∀ path : Path, Arguments.parse ["--config=" ++ path.spelling] = .ok (onlyFrom path) := by
  have reloads : ∀ (fs : FileSystem) (path : Path), path.extension = some "json" →
      fs.read path = .ok config.print.toUTF8 →
        load fs path = .ok config ∧ ofArguments fs (onlyFrom path) = .ok config := by
    intro fs path json stored
    have loaded := load_of_read json stored
    exact ⟨loaded, ofArguments_onlyFrom loaded⟩
  refine ⟨?_, reloads, ?_, parse_onlyFrom⟩
  · intro source
    exact Json.decode_of_lays source shape config.shape_recovers config.print_lays
  · intro fs path place json asked
    exact reloads _ path json (FileSystem.read_written asked _)

/-- Paths that need escapes, one that is empty, and one that looks like the end of the text. -/
def awkward : Config := ⟨[⟨"tab\t\"quoted\"\\.yaml"⟩, ⟨""⟩, ⟨"]\x7d\n"⟩], .markdown, none⟩

theorem awkward_is_reloaded :
    ∃ place, Run.desk.files.newPlace ⟨"nested/../saved.json"⟩ = .ok place ∧
      load (Run.desk.files.put place (.file awkward.print.toUTF8)) ⟨"nested/../saved.json"⟩ =
        .ok awkward := by
  have asked : Run.desk.files.newPlace ⟨"nested/../saved.json"⟩ = .ok ["saved.json", "desk"] := by
    decide +kernel
  have json : Path.extension ⟨"nested/../saved.json"⟩ = some "json" := by decide +kernel
  obtain ⟨_, _, written, _⟩ := print_is_faithful awkward
  exact ⟨_, asked, (written _ _ _ json asked).1⟩

end Config

end PolicyDiagram

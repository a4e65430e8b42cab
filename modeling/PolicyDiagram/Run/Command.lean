import PolicyDiagram.Config.File
import PolicyDiagram.Log.Settings
import PolicyDiagram.Run.Pipeline
import PolicyDiagram.Yaml.Print

/-!
The program as a whole: from the words of a command line, and the files that there are, to an exit code, to
what is printed and logged, and to the files that there are afterwards.
-/

namespace PolicyDiagram.Command

inductive Failure where
  | unconfigured (error : ConfigError)
  | invalid (problem : Config.Problem)
  | failed (error : RunError)
deriving DecidableEq, Repr

def Failure.messages : Failure → List String
  | unconfigured error => "Failed to load configuration" :: error.message :: error.causes
  | invalid problem => ["Configuration validation failed", problem.message]
  | failed error => error.message :: error.causes

structure Outcome where
  exitCode : Nat
  /-- Lines on the error stream that are not log lines. -/
  notes : List String
  errors : List Log.Line
deriving DecidableEq, Repr

def Outcome.done : Outcome := ⟨0, [], []⟩

def Outcome.exit (code : Nat) : Outcome := ⟨code, [], []⟩

def abortCode : Nat := 101

def logSettings (arguments : Arguments) : Log.Settings where
  level := if arguments.debug then .debug else if arguments.verbose then .info else .warn
  jsonFormat := arguments.jsonLogs
  directory := arguments.logDirectory
  filePrefix := Log.Settings.default.filePrefix
  spanEvents := arguments.debug
  ansi := true
  filter := none

def configure (files : FileSystem) (arguments : Arguments) : Except Failure Config := do
  let config ← (Config.ofArguments files arguments).mapError .unconfigured
  (config.validate files).mapError .invalid
  (Run.accept files config).mapError .failed

def dryRunNotes (statistics : Statistics) : List String :=
  ["Policy loaded successfully!", "Dry run mode - diagram will not be rendered."] ++
    statistics.summaryLines

def execute (arguments : Arguments) (world : World) : Except Failure (List String) × World :=
  match configure world.files arguments with
  | .error failure => (.error failure, world)
  | .ok config =>
    if arguments.dryRun then
      match Run.prepare world.files config with
      | .error error => (.error (.failed error), world)
      | .ok prepared => (.ok (dryRunNotes prepared.statistics), world)
    else
      match Run.deliver world config with
      | (.error error, world) => (.error (.failed error), world)
      | (.ok _, world) => (.ok [], world)

def failureLine (settings : Log.Settings) (failure : Failure) : Log.Line :=
  .ofMessage settings.style .error Log.programTarget (": ".intercalate failure.messages)

def prepareLog (settings : Log.Settings) (files : FileSystem) : Except IoFault FileSystem :=
  match settings.directory with
  | some directory => files.makeDirectories ⟨directory⟩
  | none => .ok files

/-- A way to set up the log, which may change files if there is a directory for them. -/
structure LogSetup where
  files : Log.Settings → FileSystem → Except IoFault FileSystem
  unlogged : ∀ settings fs, settings.directory = none → files settings fs = .ok fs

/-- The file in the directory, which is named after the day, is left out. -/
def LogSetup.directoryOnly : LogSetup where
  files := prepareLog
  unlogged settings fs none := by simp [prepareLog, none]

/-- Printing comes first, and needs neither log nor configuration. -/
def performWith (log : LogSetup) (arguments : Arguments) (world : World) : Outcome × World :=
  if arguments.printConfig then (.done, world.print (Config.default.print ++ "\n"))
  else if arguments.printDefaultPolicy then
    (.done, world.print (Yaml.print (Document.shape.write .builtIn)))
  else
    let settings := logSettings arguments
    match log.files settings world.files with
    | .error _ => (.exit abortCode, world)
    | .ok files =>
      match execute arguments { world with files } with
      | (.ok notes, world) => (⟨0, notes, []⟩, world)
      | (.error failure, world) => (⟨1, [], [failureLine settings failure]⟩, world)

def perform : Arguments → World → Outcome × World := performWith .directoryOnly

def run (line : List String) (world : World) : Outcome × World :=
  match Arguments.parse line with
  | .error stop => (.exit stop.exitCode, world)
  | .ok arguments => perform arguments world

end PolicyDiagram.Command

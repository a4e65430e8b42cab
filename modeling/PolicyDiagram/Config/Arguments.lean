import PolicyDiagram.Files.Path

/-!
The arguments of the command line. An option stands alone, in a bundle of letters, or with its value behind
an equals sign; everything else names a fragment, and so does everything behind a double dash.

A value is taken in only when the next option starts or the command line ends, so a problem of the value is
reported before any problem of that option, unless the option does not exist.
-/

namespace PolicyDiagram

structure Arguments where
  files : List Path
  config : Option String
  markdown : Bool
  output : Option Path
  verbose : Bool
  debug : Bool
  jsonLogs : Bool
  logDirectory : Option String
  dryRun : Bool
  printConfig : Bool
  printDefaultPolicy : Bool
deriving DecidableEq, Repr

inductive UsageStop where
  | unknownArgument
  | invalidValue
  | tooManyValues
  | argumentConflict
  | displayHelp
  | displayVersion
deriving DecidableEq, Repr

def UsageStop.exitCode : UsageStop → Nat
  | displayHelp | displayVersion => 0
  | _ => 2

namespace Arguments

def none : Arguments where
  files := []
  config := .none
  markdown := false
  output := .none
  verbose := false
  debug := false
  jsonLogs := false
  logDirectory := .none
  dryRun := false
  printConfig := false
  printDefaultPolicy := false

inductive Switch where
  | markdown
  | verbose
  | debug
  | jsonLogs
  | dryRun
  | printConfig
  | printDefaultPolicy
deriving DecidableEq, Repr

inductive Setting where
  | config
  | output
  | logDirectory
deriving DecidableEq, Repr

inductive Choice where
  | switch (switch : Switch)
  | setting (setting : Setting)
  | help
  | version
deriving DecidableEq, Repr

def longNames : List (String × Choice) :=
  [("config", .setting .config), ("markdown", .switch .markdown), ("output", .setting .output),
   ("verbose", .switch .verbose), ("debug", .switch .debug), ("json-logs", .switch .jsonLogs),
   ("log-dir", .setting .logDirectory), ("dry-run", .switch .dryRun),
   ("print-config", .switch .printConfig), ("print-default-policy", .switch .printDefaultPolicy),
   ("help", .help), ("version", .version)]

def letters : List (Char × Choice) :=
  [('c', .setting .config), ('m', .switch .markdown), ('o', .setting .output),
   ('v', .switch .verbose), ('d', .switch .debug), ('h', .help), ('V', .version)]

def isOn (arguments : Arguments) : Switch → Bool
  | .markdown => arguments.markdown
  | .verbose => arguments.verbose
  | .debug => arguments.debug
  | .jsonLogs => arguments.jsonLogs
  | .dryRun => arguments.dryRun
  | .printConfig => arguments.printConfig
  | .printDefaultPolicy => arguments.printDefaultPolicy

def turnOn (arguments : Arguments) : Switch → Arguments
  | .markdown => { arguments with markdown := true }
  | .verbose => { arguments with verbose := true }
  | .debug => { arguments with debug := true }
  | .jsonLogs => { arguments with jsonLogs := true }
  | .dryRun => { arguments with dryRun := true }
  | .printConfig => { arguments with printConfig := true }
  | .printDefaultPolicy => { arguments with printDefaultPolicy := true }

def isSet (arguments : Arguments) : Setting → Bool
  | .config => arguments.config.isSome
  | .output => arguments.output.isSome
  | .logDirectory => arguments.logDirectory.isSome

def set (arguments : Arguments) (setting : Setting) (value : String) : Except UsageStop Arguments :=
  if arguments.isSet setting then .error .argumentConflict
  else
    match setting with
    | .config => .ok { arguments with config := some value }
    | .logDirectory => .ok { arguments with logDirectory := some value }
    | .output =>
      if value.isEmpty then .error .invalidValue
      else .ok { arguments with output := some ⟨value⟩ }

def addFiles (arguments : Arguments) (names : List String) : Except UsageStop Arguments :=
  if names.contains "" then .error .invalidValue
  else .ok { arguments with files := arguments.files ++ names.map Path.mk }

inductive Pending where
  | nothing
  | setting (setting : Setting) (value : Option String)
  | files (names : List String)
deriving DecidableEq, Repr

structure Reading where
  taken : Arguments
  pending : Pending
deriving DecidableEq, Repr

namespace Reading

def settle (reading : Reading) : Except UsageStop Arguments :=
  match reading.pending with
  | .nothing => .ok reading.taken
  | .setting _ .none => .error .invalidValue
  | .setting setting (some value) => reading.taken.set setting value
  | .files names => reading.taken.addFiles names

def choose (reading : Reading) (choice : Choice) : Except UsageStop Reading := do
  let taken ← reading.settle
  match choice with
  | .switch switch =>
    if taken.isOn switch then .error .argumentConflict else .ok ⟨taken.turnOn switch, .nothing⟩
  | .setting setting => .ok ⟨taken, .setting setting .none⟩
  | .help => .error .displayHelp
  | .version => .error .displayVersion

def assign (reading : Reading) (setting : Setting) (value : String) : Except UsageStop Reading := do
  .ok ⟨← (← reading.settle).set setting value, .nothing⟩

def long (reading : Reading) (word : List Char) : Except UsageStop Reading :=
  let name := String.ofList (word.takeWhile (· != '='))
  match longNames.lookup name, word.dropWhile (· != '=') with
  | .none, _ => .error .unknownArgument
  | some choice, [] => reading.choose choice
  | some (.setting setting), _ :: value => reading.assign setting (String.ofList value)
  | some _, _ :: _ => .error .tooManyValues

/-- An option with a value takes the rest of the bundle, less an equals sign. -/
def bundle (reading : Reading) : List Char → Except UsageStop Reading
  | [] => .ok reading
  | letter :: rest =>
    match letters.lookup letter, rest with
    | .none, _ => .error .unknownArgument
    | some (.setting setting), '=' :: value => reading.assign setting (String.ofList value)
    | some (.setting setting), _ :: _ => reading.assign setting (String.ofList rest)
    | some choice, _ => do (← reading.choose choice).bundle rest

def word (reading : Reading) (name : String) : Except UsageStop Reading :=
  match reading.pending with
  | .files names => .ok { reading with pending := .files (names ++ [name]) }
  | _ => do .ok ⟨← reading.settle, .files [name]⟩

def trailing (reading : Reading) : List String → Except UsageStop Reading
  | [] => .ok reading
  | name :: rest => do (← reading.word name).trailing rest

def words (reading : Reading) : List String → Except UsageStop Reading
  | [] => .ok reading
  | name :: rest =>
    match name.toList with
    | ['-', '-'] => reading.trailing rest
    | '-' :: '-' :: option => do (← reading.long option).words rest
    | '-' :: letter :: more => do (← reading.bundle (letter :: more)).words rest
    | _ =>
      match reading.pending with
      | .setting setting .none =>
        { reading with pending := .setting setting (some name) }.words rest
      | _ => do (← reading.word name).words rest

end Reading

def parse (line : List String) : Except UsageStop Arguments := do
  (← Reading.words ⟨none, .nothing⟩ line).settle

end Arguments

end PolicyDiagram

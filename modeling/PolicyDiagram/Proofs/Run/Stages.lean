import Mathlib.Data.List.Forall2
import PolicyDiagram.Proofs.Outcome
import PolicyDiagram.Run.Command

/-! What the stages of a run come to. A run that succeeds has loaded every one of its fragments; all else is
computed from these, and only the delivery of the text can still fail. A command takes one of six courses. -/

namespace PolicyDiagram

theorem Document.loadAll_eq_ok {fs : FileSystem} {paths : List Path} {fragments : List Document} :
    loadAll fs paths = .ok fragments ↔
      List.Forall₂ (fun path fragment => load fs path = .ok fragment) paths fragments := by
  unfold loadAll
  induction paths generalizing fragments with
  | nil =>
    rw [List.forall₂_nil_left_iff]
    constructor
    · intro done
      exact (Except.ok.inj done).symm
    · rintro rfl
      rfl
  | cons path rest ih =>
    rw [List.mapM_cons, bind_eq_ok, List.forall₂_cons_left_iff]
    constructor
    · rintro ⟨fragment, first, more⟩
      obtain ⟨others, loaded, same⟩ := bind_eq_ok.mp more
      exact ⟨fragment, others, first, ih.mp loaded, (Except.ok.inj same).symm⟩
    · rintro ⟨fragment, others, first, loaded, rfl⟩
      exact ⟨fragment, first, bind_eq_ok.mpr ⟨others, ih.mpr loaded, rfl⟩⟩

theorem Document.load_of_loadAll {fs : FileSystem} {paths : List Path} {fragments : List Document}
    (loaded : loadAll fs paths = .ok fragments) {path : Path} (listed : path ∈ paths) :
    ∃ fragment, load fs path = .ok fragment := by
  have each := loadAll_eq_ok.mp loaded
  clear loaded
  induction each with
  | nil => contradiction
  | cons first _ ih =>
    rcases List.mem_cons.mp listed with rfl | behind
    · exact ⟨_, first⟩
    · exact ih behind

/-- What is prepared from loaded fragments. -/
def Prepared.ofFragments (fragments : List Document) : Prepared :=
  let document := Document.merge fragments
  let index := ActionIndex.build document.bindings
  ⟨document, index, .collect fragments.length document index⟩

namespace Run

theorem prepare_eq (fs : FileSystem) (config : Config) :
    prepare fs config = (Document.loadAll fs config.files).map Prepared.ofFragments := by
  unfold prepare
  cases Document.loadAll fs config.files <;> rfl

theorem text_eq (fs : FileSystem) (config : Config) :
    text fs config = (prepare fs config).map fun prepared =>
      config.outputFormat.wrap prepared.diagram := by
  unfold text
  cases prepare fs config <;> rfl

/-- The text of a run on loaded fragments. -/
def textOf (config : Config) (fragments : List Document) : String :=
  config.outputFormat.wrap (Prepared.ofFragments fragments).diagram

theorem prepare_of_loadAll {fs : FileSystem} {config : Config} {fragments : List Document}
    (loaded : Document.loadAll fs config.files = .ok fragments) :
    prepare fs config = .ok (.ofFragments fragments) := by
  rw [prepare_eq, loaded]
  rfl

theorem text_of_loadAll {fs : FileSystem} {config : Config} {fragments : List Document}
    (loaded : Document.loadAll fs config.files = .ok fragments) :
    text fs config = .ok (textOf config fragments) := by
  rw [text_eq, prepare_of_loadAll loaded]
  rfl

theorem loadAll_of_prepare {fs : FileSystem} {config : Config} {prepared : Prepared}
    (done : prepare fs config = .ok prepared) :
    ∃ fragments, Document.loadAll fs config.files = .ok fragments ∧ prepared = .ofFragments fragments := by
  rw [prepare_eq] at done
  cases loaded : Document.loadAll fs config.files with
  | error error =>
    rw [loaded] at done
    contradiction
  | ok fragments =>
    rw [loaded] at done
    exact ⟨fragments, rfl, (Except.ok.inj done).symm⟩

theorem loadAll_of_text {fs : FileSystem} {config : Config} {output : String}
    (done : text fs config = .ok output) :
    ∃ fragments, Document.loadAll fs config.files = .ok fragments ∧
      output = textOf config fragments := by
  rw [text_eq] at done
  cases prepared : prepare fs config with
  | error error =>
    rw [prepared] at done
    contradiction
  | ok policy =>
    obtain ⟨fragments, loaded, rfl⟩ := loadAll_of_prepare prepared
    rw [prepared] at done
    exact ⟨fragments, loaded, (Except.ok.inj done).symm⟩

section Delivery

variable {world : World} {config : Config}

theorem deliver_unloaded {error : RunError}
    (failed : Document.loadAll world.files config.files = .error error) :
    deliver world config = (.error error, world) := by
  simp only [deliver, deliverOn, prepare_eq, failed, Except.map]

variable {fragments : List Document}

theorem deliver_printed (loaded : Document.loadAll world.files config.files = .ok fragments)
    (unnamed : config.output = none) :
    deliver world config =
      (.ok (Prepared.ofFragments fragments).statistics, world.print (textOf config fragments)) := by
  simp only [deliver, deliverOn, prepare_eq, loaded, Except.map, unnamed]
  rfl

variable {output : Path}

theorem deliver_refused (loaded : Document.loadAll world.files config.files = .ok fragments)
    (named : config.output = some output) {fault : IoFault}
    (refused : world.files.newPlace output = .error fault) :
    deliver world config = (.error (.unwritten fault), world) := by
  simp only [deliver, deliverOn, prepare_eq, loaded, Except.map, named, FileSystem.create, refused]

theorem deliver_written (loaded : Document.loadAll world.files config.files = .ok fragments)
    (named : config.output = some output) {place : Location}
    (asked : world.files.newPlace output = .ok place) :
    deliver world config = (.ok (Prepared.ofFragments fragments).statistics,
      { world with files := world.files.put place (.file (textOf config fragments).toUTF8) }) := by
  simp only [deliver, deliverOn, prepare_eq, loaded, Except.map, named, FileSystem.create, asked, Medium.whole,
    FileSystem.put_put]
  rfl

end Delivery

end Run

theorem FileSystem.readText_eq_ok {fs : FileSystem} {path : Path} {text : String} :
    fs.readText path = .ok text ↔ ∃ place bytes, fs.locate path = .ok place ∧
      fs.content place = .ok bytes ∧ String.fromUTF8? bytes = some text := by
  unfold readText
  rw [bind_eq_ok]
  constructor
  · rintro ⟨bytes, opened, decoded⟩
    obtain ⟨place, located, found⟩ := bind_eq_ok.mp opened
    refine ⟨place, bytes, located, found, ?_⟩
    split at decoded
    · rename_i valid
      rw [valid, Except.ok.inj decoded]
    · contradiction
  · rintro ⟨place, bytes, located, found, decoded⟩
    exact ⟨bytes, bind_eq_ok.mpr ⟨place, located, found⟩, by rw [decoded]⟩

theorem FileSystem.holds_of_readText {fs : FileSystem} {path : Path} {text : String}
    (read : fs.readText path = .ok text) : fs.holds path = true := by
  obtain ⟨_, _, located, _⟩ := readText_eq_ok.mp read
  rw [holds, located]
  rfl

namespace Config

/-- The ways in which the reading of a configuration file can end. -/
inductive Reading (fs : FileSystem) (path : Path) : Except ConfigError Config → Prop where
  | missing (absent : fs.holds path = false) : Reading fs path (.error (.notFound path))
  | unreadable {fault : IoFault} (unread : fs.readText path = .error fault) :
      Reading fs path (.error (.unreadable fault))
  | undecodable {text : String} {error : ConfigError} (read : fs.readText path = .ok text)
      (failed : ConfigFile.decode path.extension text = .error error) :
      Reading fs path (.error error)
  | decoded {text : String} {file : ConfigFile} (read : fs.readText path = .ok text)
      (decoded : ConfigFile.decode path.extension text = .ok file) :
      Reading fs path (.ok (ofFile file))

theorem reading_load (fs : FileSystem) (path : Path) : Reading fs path (load fs path) := by
  unfold load
  cases present : fs.holds path with
  | false => exact .missing present
  | true =>
    rw [if_pos rfl]
    cases read : fs.readText path with
    | error fault => exact .unreadable read
    | ok text =>
      dsimp only [Except.mapError, bind, Except.bind]
      cases decoded : ConfigFile.decode path.extension text with
      | error error => exact .undecodable read decoded
      | ok file => exact .decoded read decoded

theorem ofArguments_of_config {arguments : Arguments} {path : String}
    (given : arguments.config = some path) (files : FileSystem) :
    ofArguments files arguments = (load files ⟨path⟩).map (·.override arguments) := by
  rw [ofArguments, given]
  dsimp only
  cases load files ⟨path⟩ <;> rfl

theorem read_of_ofArguments {files : FileSystem} {arguments : Arguments} {config : Config}
    (resolved : ofArguments files arguments = .ok config) {path : String}
    (given : arguments.config = some path) : ∃ text file, files.readText ⟨path⟩ = .ok text ∧
      ConfigFile.decode (Path.extension ⟨path⟩) text = .ok file := by
  rw [ofArguments_of_config given] at resolved
  have reading := reading_load files ⟨path⟩
  generalize load files ⟨path⟩ = loaded at resolved reading
  cases reading with
  | missing => contradiction
  | unreadable => contradiction
  | undecodable => contradiction
  | decoded read decoded => exact ⟨_, _, read, decoded⟩

theorem ofArguments_error {files : FileSystem} {arguments : Arguments} {error : ConfigError}
    (failed : ofArguments files arguments = .error error) :
    ∃ path, arguments.config = some path ∧ Reading files ⟨path⟩ (.error error) := by
  cases given : arguments.config with
  | none =>
    rw [ofArguments, given] at failed
    contradiction
  | some path =>
    refine ⟨path, rfl, ?_⟩
    rw [ofArguments_of_config given] at failed
    have reading := reading_load files ⟨path⟩
    cases loaded : load files ⟨path⟩ with
    | error problem =>
      rw [loaded] at failed reading
      cases failed
      exact reading
    | ok config =>
      rw [loaded] at failed
      contradiction

end Config

/-- Whether a command line asks for a template or the built-in document instead of a run. -/
def Arguments.onlyPrints (arguments : Arguments) : Bool :=
  arguments.printConfig || arguments.printDefaultPolicy

namespace Command

theorem configure_eq_ok {files : FileSystem} {arguments : Arguments} {config : Config} :
    configure files arguments = .ok config ↔
      Config.ofArguments files arguments = .ok config ∧ config.validate files = .ok () := by
  unfold configure
  cases resolved : Config.ofArguments files arguments with
  | error error => simp [Except.mapError, bind, Except.bind]
  | ok found =>
    cases valid : found.validate files with
    | error problem =>
      simp only [Except.mapError, bind, Except.bind, valid, reduceCtorEq, Except.ok.injEq, false_iff]
      rintro ⟨rfl, impossible⟩
      rw [valid] at impossible
      contradiction
    | ok token =>
      simp only [Except.mapError, bind, Except.bind, valid, Run.accept, Except.ok.injEq]
      constructor
      · rintro rfl
        exact ⟨rfl, valid⟩
      · rintro ⟨rfl, _⟩
        rfl

/-- The courses that a command can take. -/
inductive Course (arguments : Arguments) (world : World) :
    Except Failure (List String) × World → Prop where
  | unconfigured {failure : Failure} (configured : configure world.files arguments = .error failure) :
      Course arguments world (.error failure, world)
  | unloaded {config : Config} {error : RunError}
      (configured : configure world.files arguments = .ok config)
      (failed : Document.loadAll world.files config.files = .error error) :
      Course arguments world (.error (.failed error), world)
  | rehearsed {config : Config} {fragments : List Document}
      (configured : configure world.files arguments = .ok config)
      (loaded : Document.loadAll world.files config.files = .ok fragments)
      (dry : arguments.dryRun = true) :
      Course arguments world
        (.ok (dryRunNotes (Prepared.ofFragments fragments).statistics), world)
  | printed {config : Config} {fragments : List Document}
      (configured : configure world.files arguments = .ok config)
      (loaded : Document.loadAll world.files config.files = .ok fragments)
      (wet : arguments.dryRun = false) (unnamed : config.output = none) :
      Course arguments world (.ok [], world.print (Run.textOf config fragments))
  | refused {config : Config} {fragments : List Document} {output : Path} {fault : IoFault}
      (configured : configure world.files arguments = .ok config)
      (loaded : Document.loadAll world.files config.files = .ok fragments)
      (wet : arguments.dryRun = false) (named : config.output = some output)
      (refused : world.files.newPlace output = .error fault) :
      Course arguments world (.error (.failed (.unwritten fault)), world)
  | written {config : Config} {fragments : List Document} {output : Path} {place : Location}
      (configured : configure world.files arguments = .ok config)
      (loaded : Document.loadAll world.files config.files = .ok fragments)
      (wet : arguments.dryRun = false) (named : config.output = some output)
      (asked : world.files.newPlace output = .ok place) :
      Course arguments world (.ok [],
        { world with
          files := world.files.put place (.file (Run.textOf config fragments).toUTF8) })

theorem course_execute (arguments : Arguments) (world : World) :
    Course arguments world (execute arguments world) := by
  unfold execute
  cases configured : configure world.files arguments with
  | error failure => exact .unconfigured configured
  | ok config =>
    dsimp only
    cases loaded : Document.loadAll world.files config.files with
    | error error =>
      rw [Run.prepare_eq, loaded, Run.deliver_unloaded loaded]
      split <;> exact .unloaded configured loaded
    | ok fragments =>
      -- From here on only a delivery to a file can fail.
      cases dry : arguments.dryRun with
      | true =>
        rw [if_pos rfl, Run.prepare_of_loadAll loaded]
        exact .rehearsed configured loaded dry
      | false =>
        rw [if_neg Bool.false_ne_true]
        cases named : config.output with
        | none =>
          rw [Run.deliver_printed loaded named]
          exact .printed configured loaded dry named
        | some output =>
          cases asked : world.files.newPlace output with
          | error fault =>
            rw [Run.deliver_refused loaded named asked]
            exact .refused configured loaded dry named asked
          | ok place =>
            rw [Run.deliver_written loaded named asked]
            exact .written configured loaded dry named asked

theorem execute_written (world : World) {arguments : Arguments} {config : Config}
    {fragments : List Document} {output : Path} {place : Location}
    (configured : configure world.files arguments = .ok config)
    (loaded : Document.loadAll world.files config.files = .ok fragments)
    (wet : arguments.dryRun = false) (named : config.output = some output)
    (asked : world.files.newPlace output = .ok place) :
    execute arguments world = (.ok [],
      { world with
        files := world.files.put place (.file (Run.textOf config fragments).toUTF8) }) := by
  rw [execute, configured]
  dsimp only
  rw [if_neg (Bool.eq_false_iff.mp wet), Run.deliver_written loaded named asked]

/-- How the end of a command is reported. -/
def report (settings : Log.Settings) : Except Failure (List String) × World → Outcome × World
  | (.ok notes, world) => (⟨0, notes, []⟩, world)
  | (.error failure, world) => (⟨1, [], [failureLine settings failure]⟩, world)

@[simp] theorem snd_report (settings : Log.Settings)
    (ended : Except Failure (List String) × World) : (report settings ended).2 = ended.2 := by
  obtain ⟨result, after⟩ := ended
  cases result <;> rfl

/-- The text that is printed in place of a run. The template comes before the built-in document. -/
def askedText (arguments : Arguments) : String :=
  if arguments.printConfig then Config.default.print ++ "\n" else Yaml.print (Document.shape.write .builtIn)

/-- A command line that asks for a text prints it, and there is no run. -/
theorem perform_printing {arguments : Arguments} (asked : arguments.onlyPrints = true) (world : World) :
    perform arguments world = (.done, world.print (askedText arguments)) := by
  unfold perform performWith askedText
  cases template : arguments.printConfig with
  | true => rfl
  | false =>
    have document : arguments.printDefaultPolicy = true := by
      simpa [Arguments.onlyPrints, template] using asked
    rw [document]
    rfl

theorem performWith_running {log : LogSetup} {arguments : Arguments} (asked : arguments.onlyPrints = false)
    {files : FileSystem} {world : World} (logged : log.files (logSettings arguments) world.files = .ok files) :
    performWith log arguments world =
      report (logSettings arguments) (execute arguments { world with files }) := by
  obtain ⟨template, document⟩ := Bool.or_eq_false_iff.mp asked
  simp only [performWith, template, document, logged]
  cases ended : execute arguments { world with files } with
  | mk result after => cases result <;> rfl

/-- Without a log directory nothing happens before the run. -/
theorem perform_unlogged {arguments : Arguments} (unlogged : arguments.logDirectory = none)
    (asked : arguments.onlyPrints = false) (world : World) :
    perform arguments world = report (logSettings arguments) (execute arguments world) :=
  performWith_running asked (LogSetup.directoryOnly.unlogged (logSettings arguments) world.files unlogged)

end Command

end PolicyDiagram

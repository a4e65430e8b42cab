import PolicyDiagram.Proofs.Run.Inputs
import PolicyDiagram.Proofs.Run.Stages

/-! A command that succeeded does the same again. Its diagram is written where none of its fragments is, so a
second run reads what the first one read and asks for a file at the same place. Only the configuration file is
not kept apart from the output: a run that writes over it does not find it again. -/

namespace PolicyDiagram

/-- A path leads to something, and not to the place where a file is written. -/
def FileSystem.LeadsElsewhere (fs : FileSystem) (written : Location) (path : Path) : Prop :=
  ∃ place, fs.locate path = .ok place ∧ place ≠ written

section Elsewhere

variable {fs : FileSystem} {written : Location} (writable : fs.Writable written)
  (content : ByteArray) {path : Path} (elsewhere : fs.LeadsElsewhere written path)
include writable elsewhere

theorem FileSystem.locate_put_elsewhere :
    (fs.put written (.file content)).locate path = fs.locate path := by
  obtain ⟨place, located, apart⟩ := elsewhere
  rw [locate_put writable _ located apart, located]

theorem FileSystem.read_put_elsewhere :
    (fs.put written (.file content)).read path = fs.read path := by
  obtain ⟨place, located, apart⟩ := elsewhere
  rw [read_of_locate (locate_put writable _ located apart), read_of_locate located,
    content_put_of_ne _ apart]

theorem Config.load_put_elsewhere :
    load (fs.put written (.file content)) path = load fs path := by
  rw [load, load, FileSystem.holds, FileSystem.holds, FileSystem.readText, FileSystem.readText,
    FileSystem.locate_put_elsewhere writable content elsewhere,
    FileSystem.read_put_elsewhere writable content elsewhere]

theorem Document.load_put_elsewhere :
    load (fs.put written (.file content)) path = load fs path := by
  obtain ⟨place, located, apart⟩ := elsewhere
  rw [load, load, FileSystem.locate_put writable _ located apart, located]
  dsimp only [Except.mapError, bind, Except.bind]
  rw [FileSystem.content_put_of_ne _ apart]

end Elsewhere

theorem Document.loadAll_put {fs : FileSystem} {written : Location} (writable : fs.Writable written)
    (content : ByteArray) {paths : List Path}
    (elsewhere : ∀ path ∈ paths, fs.LeadsElsewhere written path) :
    loadAll (fs.put written (.file content)) paths = loadAll fs paths := by
  unfold loadAll
  induction paths with
  | nil => rfl
  | cons path rest ih =>
    rw [List.mapM_cons, List.mapM_cons, ih fun other listed => elsewhere other (.tail path listed),
      load_put_elsewhere writable content (elsewhere path List.mem_cons_self)]

theorem Config.ofArguments_put {fs : FileSystem} {written : Location} (writable : fs.Writable written)
    (content : ByteArray) {arguments : Arguments}
    (elsewhere : ∀ path, arguments.config = some path → fs.LeadsElsewhere written ⟨path⟩) :
    ofArguments (fs.put written (.file content)) arguments = ofArguments fs arguments := by
  cases given : arguments.config with
  | none => rw [ofArguments, ofArguments, given]
  | some path =>
    rw [ofArguments_of_config given, ofArguments_of_config given,
      load_put_elsewhere writable content (elsewhere path given)]

theorem Config.validate_put {fs : FileSystem} {config : Config} {output : Path} {written : Location}
    (valid : config.validate fs = .ok ()) (named : config.output = some output)
    (asked : fs.newPlace output = .ok written) (content : ByteArray)
    (elsewhere : ∀ path ∈ config.files, fs.LeadsElsewhere written path) :
    config.validate (fs.put written (.file content)) = .ok () := by
  have writable := FileSystem.writable_of_newPlace asked
  have apart : config.files.any (clash (fs.put written (.file content)) · output) = false := by
    rw [List.any_eq_false]
    intro path listed
    -- The spellings differ as before. The output exists now, so the places count as well.
    have spelled := not_clash_of_validate valid named listed
    obtain ⟨place, located, not_written⟩ := elsewhere path listed
    simp only [clash, Bool.or_eq_false_iff] at spelled
    simp [clash, spelled.1, FileSystem.sameFile, FileSystem.locate_written asked,
      FileSystem.locate_put writable _ located not_written, not_written]
  unfold validate at valid ⊢
  split at valid
  · contradiction
  · rw [named]
    dsimp only
    rw [apart]
    rfl

theorem Document.locate_of_load {fs : FileSystem} {path : Path} {fragment : Document}
    (loaded : load fs path = .ok fragment) :
    ∃ place, fs.locate path = .ok place ∧ (fs.node place).isSome := by
  unfold load at loaded
  cases located : fs.locate path with
  | error fault => simp [located, Except.mapError, bind, Except.bind] at loaded
  | ok place =>
    refine ⟨place, rfl, ?_⟩
    cases found : fs.content place with
    | error fault => simp [located, found, Except.mapError, bind, Except.bind] at loaded
    | ok bytes => exact FileSystem.isSome_of_content found

namespace Command

/-- A run that would write its diagram over the configuration file that it comes from. -/
def OverwritesConfiguration (files : FileSystem) (arguments : Arguments) : Prop :=
  arguments.onlyPrints = false ∧ arguments.dryRun = false ∧
    ∃ path config output, arguments.config = some path ∧
      Config.ofArguments files arguments = .ok config ∧ config.output = some output ∧
      files.sameFile ⟨path⟩ output = true

/-- The paths that a command reads. -/
def Reads (files : FileSystem) (arguments : Arguments) (path : Path) : Prop :=
  arguments.config = some path.spelling ∨
    ∃ config, Config.ofArguments files arguments = .ok config ∧ path ∈ config.files

/-- All that a run reads lies elsewhere than what it writes. -/
theorem reads_elsewhere {arguments : Arguments} {files : FileSystem} {config : Config}
    {fragments : List Document} {output : Path} {written : Location}
    (configured : configure files arguments = .ok config)
    (loaded : Document.loadAll files config.files = .ok fragments)
    (named : config.output = some output) (asked : files.newPlace output = .ok written)
    (apart : ∀ path, arguments.config = some path → files.sameFile ⟨path⟩ output = false)
    {path : Path} (reads : Reads files arguments path) : files.LeadsElsewhere written path := by
  obtain ⟨resolved, valid⟩ := configure_eq_ok.mp configured
  rcases reads with given | ⟨same, resolved', listed⟩
  · obtain ⟨_, _, read, _⟩ := Config.read_of_ofArguments resolved given
    obtain ⟨place, bytes, located, found, _⟩ := FileSystem.readText_eq_ok.mp read
    refine ⟨place, located, ?_⟩
    rintro rfl
    -- Were the file the place to be written, the output would lead to it now, as the file exists.
    have led := FileSystem.locate_of_newPlace asked (FileSystem.isSome_of_content found)
    have differs := apart _ given
    simp [FileSystem.sameFile, located, led] at differs
  · cases resolved.symm.trans resolved'
    obtain ⟨_, found⟩ := Document.load_of_loadAll loaded listed
    obtain ⟨place, located, present⟩ := Document.locate_of_load found
    exact ⟨place, located, Run.fragment_ne_output valid named asked listed located present⟩

theorem configure_put {arguments : Arguments} {files : FileSystem} {config : Config} {output : Path}
    {written : Location} (configured : configure files arguments = .ok config)
    (named : config.output = some output) (asked : files.newPlace output = .ok written)
    (content : ByteArray)
    (elsewhere : ∀ path, Reads files arguments path → files.LeadsElsewhere written path) :
    configure (files.put written (.file content)) arguments = .ok config := by
  obtain ⟨resolved, valid⟩ := configure_eq_ok.mp configured
  rw [configure_eq_ok]
  constructor
  · rw [Config.ofArguments_put (FileSystem.writable_of_newPlace asked) content, resolved]
    intro path given
    exact elsewhere ⟨path⟩ (.inl given)
  · apply Config.validate_put valid named asked content
    intro path listed
    exact elsewhere path (.inr ⟨config, resolved, listed⟩)

/-- What a run leaves is for the next run what it was for this one. -/
theorem execute_again {arguments : Arguments} {world after : World} {notes : List String}
    (asked : arguments.onlyPrints = false) (done : execute arguments world = (.ok notes, after))
    (apart : ¬ OverwritesConfiguration world.files arguments) :
    execute arguments { world with files := after.files } = (.ok notes, after) ∧
      ∀ path, Reads world.files arguments path → after.files.read path = world.files.read path := by
  have course := course_execute arguments world
  rw [done] at course
  cases course with
  | rehearsed => exact ⟨done, fun _ _ => rfl⟩
  | printed => exact ⟨done, fun _ _ => rfl⟩
  | @written config fragments output place configured loaded wet named created =>
    have writable := FileSystem.writable_of_newPlace created
    have differs : ∀ path, arguments.config = some path →
        world.files.sameFile ⟨path⟩ output = false := by
      intro path given
      rw [Bool.eq_false_iff]
      intro same
      exact apart ⟨asked, wet, path, config, output, given, (configure_eq_ok.mp configured).1, named,
        same⟩
    have elsewhere : ∀ path, Reads world.files arguments path →
        world.files.LeadsElsewhere place path := fun path reads =>
      reads_elsewhere configured loaded named created differs reads
    constructor
    · have resolved := (configure_eq_ok.mp configured).1
      let bytes := (Run.textOf config fragments).toUTF8
      have loaded' : Document.loadAll (world.files.put place (.file bytes)) config.files =
          .ok fragments := by
        rw [Document.loadAll_put writable bytes fun path listed =>
          elsewhere path (.inr ⟨config, resolved, listed⟩), loaded]
      have again := execute_written { world with files := world.files.put place (.file bytes) }
        (configure_put configured named created bytes elsewhere) loaded' wet named
        (FileSystem.newPlace_put writable bytes created)
      -- The second run writes the same bytes to the same place.
      rw [FileSystem.put_put] at again
      exact again
    · intro path reads
      exact FileSystem.read_put_elsewhere writable _ (elsewhere path reads)

/-- A command that succeeded, and did not write over its configuration file, succeeds again on the files that
it left: it prints and reports the same and leaves the same files, and all that it reads is as it was. -/
theorem success_is_repeated {arguments : Arguments} (unlogged : arguments.logDirectory = none)
    {world : World} (done : (perform arguments world).1.exitCode = 0)
    (apart : ¬ OverwritesConfiguration world.files arguments) :
    perform arguments { world with files := (perform arguments world).2.files } =
        perform arguments world ∧
      ∀ path, Reads world.files arguments path →
        (perform arguments world).2.files.read path = world.files.read path := by
  cases asked : arguments.onlyPrints with
  | true =>
    rw [perform_printing asked world, perform_printing asked]
    exact ⟨rfl, fun _ _ => rfl⟩
  | false =>
    rw [perform_unlogged unlogged asked] at done
    rw [perform_unlogged unlogged asked, perform_unlogged unlogged asked, snd_report]
    cases ended : execute arguments world with
    | mk result after =>
      cases result with
      | error failure =>
        rw [ended] at done
        contradiction
      | ok notes =>
        obtain ⟨again, kept⟩ := execute_again asked ended apart
        rw [again]
        exact ⟨rfl, kept⟩

/-- A configuration file, and the fragment that it names; there is no diagram yet. -/
def configuredDesk : World where
  files :=
    { node := fun
        | [] | ["desk"] => some .directory
        | ["policy.yaml", "desk"] => some (.file "unions: []".toUTF8)
        | ["diagram.json", "desk"] => some (.file
            "\x7b\"files\": [\"policy.yaml\"], \"output\": \"diagram.md\"\x7d".toUTF8)
        | _ => none
      workingDirectory := ["desk"] }
  printed := ""

/-- Takes everything from the configuration file. -/
def configuredRun : Arguments := { Arguments.none with config := some "diagram.json" }

theorem configured_desk_repeats :
    perform configuredRun
        { configuredDesk with files := (perform configuredRun configuredDesk).2.files } =
      perform configuredRun configuredDesk := by
  have done : (perform configuredRun configuredDesk).1.exitCode = 0 := by decide +kernel
  have resolved : Config.ofArguments configuredDesk.files configuredRun =
      .ok ⟨[⟨"policy.yaml"⟩], .raw, some ⟨"diagram.md"⟩⟩ := by decide +kernel
  have apart : ¬ OverwritesConfiguration configuredDesk.files configuredRun := by
    rintro ⟨_, _, path, config, output, given, same, named, led⟩
    cases given
    cases resolved.symm.trans same
    cases named
    have differs : configuredDesk.files.sameFile ⟨"diagram.json"⟩ ⟨"diagram.md"⟩ = false := by
      decide +kernel
    exact Bool.false_ne_true (differs.symm.trans led)
  exact (success_is_repeated rfl done apart).1

/-- The configuration file names itself as the output. -/
def overwrittenDesk : World where
  files := configuredDesk.files.put ["diagram.json", "desk"] (.file
    "\x7b\"files\": [\"policy.yaml\"], \"output\": \"diagram.json\"\x7d".toUTF8)
  printed := ""

theorem overwritten_configuration_fails :
    configuredRun.logDirectory = none ∧ (perform configuredRun overwrittenDesk).1.exitCode = 0 ∧
      (perform configuredRun { overwrittenDesk with
        files := (perform configuredRun overwrittenDesk).2.files }).1.exitCode = 1 := by
  decide +kernel

end Command

end PolicyDiagram

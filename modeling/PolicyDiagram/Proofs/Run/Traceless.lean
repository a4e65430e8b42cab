import PolicyDiagram.Proofs.Run.Loading

/-! A command that fails has changed nothing: all that can fail comes before the only write. The stages are
told one by one, each from the files and the command line alone, and not in the order in which a run comes to
them. A dry run changes nothing either. What is printed in place of a run is no part of this. -/

namespace PolicyDiagram

namespace Command

/-- What can stand in the way of a run. -/
inductive Blocked (files : FileSystem) (arguments : Arguments) : Prop where
  | missing {path : String} (given : arguments.config = some path)
      (absent : files.holds ⟨path⟩ = false)
  | unreadable {path : String} {fault : IoFault} (given : arguments.config = some path)
      (unread : files.readText ⟨path⟩ = .error fault)
  /-- The format is not supported, or the text is not of that format. -/
  | undecodable {path text : String} {error : ConfigError} (given : arguments.config = some path)
      (read : files.readText ⟨path⟩ = .ok text)
      (failed : ConfigFile.decode (Path.extension ⟨path⟩) text = .error error)
  | invalid {config : Config} {problem : Config.Problem}
      (resolved : Config.ofArguments files arguments = .ok config)
      (refused : config.validate files = .error problem)
  /-- One fragment is enough, wherever it stands among the others. -/
  | fragment {config : Config} {path : Path} {error : RunError}
      (resolved : Config.ofArguments files arguments = .ok config) (listed : path ∈ config.files)
      (failed : Document.load files path = .error error)
  | output {config : Config} {path : Path} {fault : IoFault}
      (resolved : Config.ofArguments files arguments = .ok config) (wet : arguments.dryRun = false)
      (named : config.output = some path) (refused : files.newPlace path = .error fault)

theorem blocked_of_configure {files : FileSystem} {arguments : Arguments} {failure : Failure}
    (failed : configure files arguments = .error failure) : Blocked files arguments := by
  cases resolved : Config.ofArguments files arguments with
  | error error =>
    obtain ⟨path, given, reading⟩ := Config.ofArguments_error resolved
    cases reading with
    | missing absent => exact .missing given absent
    | unreadable unread => exact .unreadable given unread
    | undecodable read undecoded => exact .undecodable given read undecoded
  | ok config =>
    cases valid : config.validate files with
    | error problem => exact .invalid resolved valid
    | ok token =>
      rw [configure_eq_ok.mpr ⟨resolved, valid⟩] at failed
      contradiction

/-- A command that was configured, and whose fragments are loaded, can be blocked at its output only. -/
theorem output_of_blocked {files : FileSystem} {arguments : Arguments} (blocked : Blocked files arguments)
    {config : Config} (configured : configure files arguments = .ok config)
    {fragments : List Document} (loaded : Document.loadAll files config.files = .ok fragments) :
    arguments.dryRun = false ∧ ∃ path fault, config.output = some path ∧
      files.newPlace path = .error fault := by
  obtain ⟨resolved, valid⟩ := configure_eq_ok.mp configured
  -- What was resolved, accepted and loaded leaves no other stage to be in the way.
  cases blocked with
  | missing given absent =>
    obtain ⟨_, _, read, _⟩ := Config.read_of_ofArguments resolved given
    rw [FileSystem.holds_of_readText read] at absent
    contradiction
  | unreadable given unread =>
    obtain ⟨_, _, read, _⟩ := Config.read_of_ofArguments resolved given
    rw [unread] at read
    contradiction
  | undecodable given read failed =>
    obtain ⟨_, _, again, decoded⟩ := Config.read_of_ofArguments resolved given
    cases read.symm.trans again
    rw [failed] at decoded
    contradiction
  | invalid same refused =>
    cases resolved.symm.trans same
    rw [refused] at valid
    contradiction
  | fragment same listed failed =>
    cases resolved.symm.trans same
    obtain ⟨_, found⟩ := Document.load_of_loadAll loaded listed
    rw [failed] at found
    contradiction
  | output same wet named refused =>
    cases resolved.symm.trans same
    exact ⟨wet, _, _, named, refused⟩

theorem blocked_of_execute {arguments : Arguments} {world after : World} {failure : Failure}
    (failed : execute arguments world = (.error failure, after)) :
    Blocked world.files arguments ∧ after = world := by
  have course := course_execute arguments world
  rw [failed] at course
  cases course with
  | unconfigured configured => exact ⟨blocked_of_configure configured, rfl⟩
  | unloaded configured stopped =>
    obtain ⟨path, listed, found⟩ := Document.load_error_of_loadAll stopped
    exact ⟨.fragment (configure_eq_ok.mp configured).1 listed found, rfl⟩
  | refused configured _ wet named refused =>
    exact ⟨.output (configure_eq_ok.mp configured).1 wet named refused, rfl⟩

theorem execute_of_blocked {arguments : Arguments} {world : World}
    (blocked : Blocked world.files arguments) :
    ∃ failure, execute arguments world = (.error failure, world) := by
  have course := course_execute arguments world
  generalize execute arguments world = ended at course
  cases course with
  | unconfigured => exact ⟨_, rfl⟩
  | unloaded => exact ⟨_, rfl⟩
  | refused => exact ⟨_, rfl⟩
  | rehearsed configured loaded dry =>
    have wet := (output_of_blocked blocked configured loaded).1
    rw [dry] at wet
    contradiction
  | printed configured loaded _ unnamed =>
    obtain ⟨_, _, _, named, _⟩ := output_of_blocked blocked configured loaded
    rw [unnamed] at named
    contradiction
  | written configured loaded _ named asked =>
    obtain ⟨_, _, _, same, refused⟩ := output_of_blocked blocked configured loaded
    cases named.symm.trans same
    rw [asked] at refused
    contradiction

theorem execute_dry {arguments : Arguments} (dry : arguments.dryRun = true) (world : World) :
    (execute arguments world).2 = world := by
  have course := course_execute arguments world
  generalize execute arguments world = ended at course
  cases course with
  | unconfigured => rfl
  | unloaded => rfl
  | rehearsed => rfl
  | refused => rfl
  | printed _ _ wet => exact absurd dry (Bool.eq_false_iff.mp wet)
  | written _ _ wet => exact absurd dry (Bool.eq_false_iff.mp wet)

section Unlogged

variable {arguments : Arguments} (unlogged : arguments.logDirectory = none) (world : World)
include unlogged

theorem perform_blocked (asked : arguments.onlyPrints = false)
    (blocked : Blocked world.files arguments) :
    (perform arguments world).1.exitCode = 1 ∧ (perform arguments world).2 = world := by
  obtain ⟨failure, failed⟩ := execute_of_blocked blocked
  rw [perform_unlogged unlogged asked, failed]
  exact ⟨rfl, rfl⟩

theorem blocked_of_perform (failed : (perform arguments world).1.exitCode ≠ 0) :
    arguments.onlyPrints = false ∧ Blocked world.files arguments := by
  cases asked : arguments.onlyPrints with
  | true =>
    rw [perform_printing asked world] at failed
    exact absurd rfl failed
  | false =>
    rw [perform_unlogged unlogged asked] at failed
    cases ended : execute arguments world with
    | mk result after =>
      cases result with
      | ok notes =>
        rw [ended] at failed
        exact absurd rfl failed
      | error failure => exact ⟨rfl, (blocked_of_execute ended).1⟩

/-- A command fails exactly where a run is asked for and something stands in its way; it then exits with one
code and leaves the files and what was printed as they were. So does every dry run. A command line that asks
for the template of a configuration gets it printed, and one that asks for the built-in document gets that, be
it marked as a dry run or not; nothing else happens then. -/
theorem failure_leaves_no_trace :
    ((perform arguments world).1.exitCode ≠ 0 ↔
      arguments.onlyPrints = false ∧ Blocked world.files arguments) ∧
    ((perform arguments world).1.exitCode ≠ 0 →
      (perform arguments world).1.exitCode = 1 ∧ (perform arguments world).2 = world) ∧
    (arguments.dryRun = true → arguments.onlyPrints = false →
      (perform arguments world).2 = world) ∧
    (arguments.onlyPrints = true → perform arguments world = (⟨0, [], []⟩,
      { world with
        printed := world.printed ++ if arguments.printConfig then Config.default.print ++ "\n"
          else Yaml.print (Document.shape.write .builtIn) })) := by
  refine ⟨⟨blocked_of_perform unlogged world, ?_⟩, ?_, ?_, ?_⟩
  · rintro ⟨asked, blocked⟩
    rw [(perform_blocked unlogged world asked blocked).1]
    exact Nat.one_ne_zero
  · intro failed
    obtain ⟨asked, blocked⟩ := blocked_of_perform unlogged world failed
    exact perform_blocked unlogged world asked blocked
  · intro dry asked
    rw [perform_unlogged unlogged asked, snd_report]
    exact execute_dry dry world
  · intro asked
    exact perform_printing asked world

end Unlogged

/-- A diagram is there already; the second of three fragments is none. -/
def brokenDesk : World where
  files :=
    { node := fun
        | [] | ["desk"] => some .directory
        | ["unions.yaml", "desk"] => some (.file "unions: []".toUTF8)
        | ["broken.json", "desk"] => some (.file "[".toUTF8)
        | ["diagram.md", "desk"] => some (.file "erDiagram\n".toUTF8)
        | _ => none
      workingDirectory := ["desk"] }
  printed := ""

def threeFragments : Arguments :=
  { Arguments.none with
    files := [⟨"unions.yaml"⟩, ⟨"broken.json"⟩, ⟨"unions.yaml"⟩]
    output := some ⟨"diagram.md"⟩ }

theorem broken_desk_stays :
    (perform threeFragments brokenDesk).1.exitCode = 1 ∧
      (perform threeFragments brokenDesk).2 = brokenDesk := by
  have unlogged : threeFragments.logDirectory = none := rfl
  have broken : Document.load brokenDesk.files ⟨"broken.json"⟩ =
      .error (.undecoded ⟨"broken.json"⟩ (.json (.at .endInList 1 1))) := by decide +kernel
  have blocked : Blocked brokenDesk.files threeFragments :=
    .fragment rfl (List.mem_cons_of_mem _ List.mem_cons_self) broken
  obtain ⟨fails, traceless, _⟩ := failure_leaves_no_trace unlogged brokenDesk
  exact traceless (fails.mpr ⟨rfl, blocked⟩)

/-- Asks for a dry run and for the template of a configuration. -/
def rehearsedTemplate : Arguments := { Arguments.none with dryRun := true, printConfig := true }

/-- A dry run is no reason not to print a template that is asked for as well. -/
theorem dry_run_prints_template :
    rehearsedTemplate.logDirectory = none ∧ rehearsedTemplate.dryRun = true ∧
      brokenDesk.printed = "" ∧ (perform rehearsedTemplate brokenDesk).2.printed =
        "\x7b\n  \"files\": [],\n  \"output_format\": \"raw\",\n  \"output\": null\n\x7d\n" := by
  decide +kernel

end Command

end PolicyDiagram

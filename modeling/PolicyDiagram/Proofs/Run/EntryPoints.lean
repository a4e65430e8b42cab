import PolicyDiagram.Diagram.Sink
import PolicyDiagram.Proofs.Run.Inputs
import PolicyDiagram.Proofs.Run.Stages

/-! Four ways lead through the stages of a run: to a text, to standard output, to a file, and, as a dry run, to
a summary. They agree with one another on every configuration and every state of the files, in what they
give, in how they fail and in what they change. -/

namespace PolicyDiagram

/-- A text that takes every piece at its end. -/
def Sink.growing : Sink String where
  write text piece := (true, text ++ piece)

theorem Sink.writeAll_growing (text : String) (pieces : List String) :
    Sink.growing.writeAll text pieces = (true, text ++ String.join pieces) := by
  induction pieces generalizing text with
  | nil => simp [Sink.writeAll]
  | cons piece rest ih =>
    rw [Sink.writeAll, String.join_cons, ← String.append_assoc]
    exact ih (text ++ piece)

/-- Rendering into a text is refused nothing, and gives the text of the diagram. -/
theorem Diagram.renderTo_growing (index : ActionIndex) (resources : List ResourceType)
    (unions : List UnionType) :
    renderTo .growing "" index resources unions = (true, render index resources unions) := by
  rw [renderTo, Sink.writeAll_growing, String.empty_append]
  rfl

namespace Command

/-- A command line asks for a dry run with a configuration, in the world that setting up its log leaves. -/
structure Rehearses (log : LogSetup) (arguments : Arguments) (before world : World) (config : Config) : Prop where
  dry : arguments.dryRun = true
  asked : arguments.onlyPrints = false
  logged : log.files (logSettings arguments) before.files = .ok world.files
  printed : before.printed = world.printed
  resolved : Config.ofArguments world.files arguments = .ok config

/-- How the ways through a run agree. A dry run is told with any way of keeping a log; of the files nothing is
said where there is one. -/
structure Agreement (world : World) (config : Config) : Prop where
  loading : ∀ error, Document.loadAll world.files config.files = .error error →
    Run.prepare world.files config = .error error ∧ Run.text world.files config = .error error ∧
      Run.deliver world config = (.error error, world)
  rendering : ∀ index resources unions,
    Diagram.renderTo .growing "" index resources unions = (true, Diagram.render index resources unions)
  loaded : ∀ fragments, Document.loadAll world.files config.files = .ok fragments →
    ∃ prepared, Run.prepare world.files config = .ok prepared ∧
      Run.text world.files config = .ok (config.outputFormat.wrap prepared.diagram)
  printing : ∀ output, Run.text world.files config = .ok output → config.output = none →
    ∃ prepared, Run.prepare world.files config = .ok prepared ∧
      Run.deliver world config = (.ok prepared.statistics, world.print output)
  writing : ∀ output path place, Run.text world.files config = .ok output →
    config.output = some path → world.files.newPlace path = .ok place →
    ∃ prepared after, Run.prepare world.files config = .ok prepared ∧
      Run.deliver world config = (.ok prepared.statistics, { world with files := after }) ∧
      after.read path = .ok output.toUTF8 ∧ after.node place = some (.file output.toUTF8) ∧
      ∀ other, other ≠ place → after.node other = world.files.node other
  refusal : ∀ output path fault, Run.text world.files config = .ok output →
    config.output = some path → world.files.newPlace path = .error fault →
    ∃ error, Run.deliver world config = (.error error, world) ∧ error.category = "Output"
  rehearsal : ∀ log arguments before, Rehearses log arguments before world config →
    ((performWith log arguments before).1.exitCode = 0 ↔
      ∃ output, Run.text world.files config = .ok output) ∧
    ∀ document index s, Run.prepare world.files config = .ok ⟨document, index, s⟩ →
      (performWith log arguments before).1 = ⟨0,
        ["Policy loaded successfully!",
          "Dry run mode - diagram will not be rendered.",
          "Source: " ++ (if s.usedDefaultPolicy then "built-in default policy"
            else toString s.fragmentCount ++ " fragment(s)"),
          "Resource types: " ++ toString s.resourceTypeCount,
          "Unions: " ++ toString s.unionCount,
          "Actions: " ++ toString s.actionCount,
          "Action bindings: " ++ toString s.bindingCount,
          "Direct action entries: " ++ toString s.directActionCount,
          "Relation action entries: " ++ toString s.relatedActionCount], []⟩ ∧
      (performWith log arguments before).2.printed = before.printed ∧
      (arguments.logDirectory = none → (performWith log arguments before).2 = before)

section Rehearsal

variable {log : LogSetup} {arguments : Arguments} {before world : World} {config : Config}
  (rehearses : Rehearses log arguments before world config)
include rehearses

theorem Rehearses.perform_eq :
    performWith log arguments before = report (logSettings arguments) (execute arguments world) := by
  rw [performWith_running rehearses.asked rehearses.logged, rehearses.printed]

theorem Rehearses.world_eq (unlogged : arguments.logDirectory = none) : world = before := by
  have kept := log.unlogged (logSettings arguments) before.files unlogged
  obtain ⟨files, printed⟩ := world
  obtain rfl : before.files = files := Except.ok.inj (kept.symm.trans rehearses.logged)
  obtain rfl : before.printed = printed := rehearses.printed
  rfl

theorem Rehearses.execute_eq (valid : config.validate world.files = .ok ()) :
    execute arguments world = match Run.prepare world.files config with
      | .error error => (.error (.failed error), world)
      | .ok prepared => (.ok (dryRunNotes prepared.statistics), world) := by
  have configured := configure_eq_ok.mpr ⟨rehearses.resolved, valid⟩
  cases prepared : Run.prepare world.files config <;>
    simp [execute, configured, rehearses.dry, prepared]

end Rehearsal

theorem entry_points_agree {world : World} {config accepted : Config}
    (ok : Run.accept world.files config = .ok accepted) : Agreement world accepted := by
  obtain ⟨rfl, valid⟩ := Run.accept_ok ok
  constructor
  case loading =>
    intro error failed
    have unprepared : Run.prepare world.files accepted = .error error := by
      rw [Run.prepare_eq, failed]
      rfl
    refine ⟨unprepared, ?_, Run.deliver_unloaded failed⟩
    rw [Run.text_eq, unprepared]
    rfl
  case rendering => exact Diagram.renderTo_growing
  case loaded =>
    intro fragments loaded
    exact ⟨_, Run.prepare_of_loadAll loaded, Run.text_of_loadAll loaded⟩
  case printing =>
    intro output done unnamed
    obtain ⟨fragments, loaded, rfl⟩ := Run.loadAll_of_text done
    exact ⟨_, Run.prepare_of_loadAll loaded, Run.deliver_printed loaded unnamed⟩
  case writing =>
    intro output path place done named asked
    obtain ⟨fragments, loaded, rfl⟩ := Run.loadAll_of_text done
    refine ⟨_, _, Run.prepare_of_loadAll loaded, Run.deliver_written loaded named asked, ?_, ?_, ?_⟩
    · exact FileSystem.read_written asked _
    · exact FileSystem.node_put_self _ _ _
    · intro other elsewhere
      exact FileSystem.node_put_of_ne _ _ elsewhere
  case refusal =>
    intro output path fault done named refused
    obtain ⟨fragments, loaded, _⟩ := Run.loadAll_of_text done
    exact ⟨_, Run.deliver_refused loaded named refused, rfl⟩
  case rehearsal =>
    intro log arguments before rehearses
    -- Both the rehearsal and the text fail exactly where preparing fails.
    rw [rehearses.perform_eq, rehearses.execute_eq valid, Run.text_eq]
    cases Run.prepare world.files accepted with
    | error error => simp [report, Except.map]
    | ok prepared =>
      refine ⟨⟨fun _ => ⟨_, rfl⟩, fun _ => rfl⟩, ?_⟩
      rintro document index statistics ⟨⟩
      exact ⟨rfl, rehearses.printed.symm, fun unlogged => rehearses.world_eq unlogged⟩

/-- What the desk is asked to turn into a diagram. -/
def deskConfig : Config := ⟨[⟨"nested/..//policy.yaml"⟩], .markdown, some ⟨"latest"⟩⟩

/-- Asks for a rehearsal of that. -/
def deskRehearsal : Arguments :=
  { Arguments.none with
    files := deskConfig.files
    markdown := true
    output := deskConfig.output
    dryRun := true }

theorem desk_agrees :
    Agreement Run.desk deskConfig ∧
      (Run.deliver Run.desk deskConfig).2.files.read ⟨"latest"⟩ =
        .ok "```mermaid\nerDiagram\n```\n".toUTF8 ∧
      perform deskRehearsal Run.desk = (⟨0,
        ["Policy loaded successfully!", "Dry run mode - diagram will not be rendered.",
          "Source: 1 fragment(s)", "Resource types: 0", "Unions: 0", "Actions: 0", "Action bindings: 0",
          "Direct action entries: 0", "Relation action entries: 0"], []⟩, Run.desk) := by
  have ok : Run.accept Run.desk.files deskConfig = .ok deskConfig := by decide +kernel
  have done : Run.text Run.desk.files deskConfig = .ok "```mermaid\nerDiagram\n```\n" := by
    decide +kernel
  have asked : Run.desk.files.newPlace ⟨"latest"⟩ = .ok ["diagram.md", "nested", "desk"] := by
    decide +kernel
  have counted : (Run.prepare Run.desk.files deskConfig).map Prepared.statistics =
      .ok ⟨1, false, 0, 0, 0, 0, 0, 0⟩ := by decide +kernel
  have rehearses : Rehearses .directoryOnly deskRehearsal Run.desk Run.desk deskConfig :=
    ⟨rfl, rfl, rfl, rfl, rfl⟩
  have agreement := entry_points_agree ok
  refine ⟨agreement, ?_, ?_⟩
  · obtain ⟨_, _, _, delivered, read, _⟩ := agreement.writing _ _ _ done rfl asked
    rw [delivered]
    exact read
  · cases found : Run.prepare Run.desk.files deskConfig with
    | error error =>
      rw [found] at counted
      contradiction
    | ok prepared =>
      obtain ⟨document, index, statistics⟩ := prepared
      rw [found] at counted
      cases counted
      obtain ⟨said, -, unchanged⟩ := (agreement.rehearsal _ _ _ rehearses).2 document index _ found
      exact Prod.ext said (unchanged rfl)

end Command

end PolicyDiagram

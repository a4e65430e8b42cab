import PolicyDiagram.Config.Validation
import PolicyDiagram.Diagram.Buffer
import PolicyDiagram.Diagram.Render
import PolicyDiagram.Policy.Merge
import PolicyDiagram.Run.Error
import PolicyDiagram.Run.Statistics

/-!
One run from fragments to a diagram. Fragments are read before anything is written, and the first one that
fails ends the run.
-/

namespace PolicyDiagram

structure World where
  files : FileSystem
  printed : String

def World.print (world : World) (text : String) : World :=
  { world with printed := world.printed ++ text }

def Document.load (fs : FileSystem) (path : Path) : Except RunError Document := do
  let format := FragmentFormat.ofPath path
  let place ← (fs.locate path).mapError (.unopened path)
  let bytes ← (fs.content place).mapError fun fault => .undecoded path (.unreadable format fault)
  (Document.decode format bytes).mapError (.undecoded path)

def Document.loadAll (fs : FileSystem) (paths : List Path) : Except RunError (List Document) :=
  paths.mapM (Document.load fs)

structure Prepared where
  document : Document
  index : ActionIndex
  statistics : Statistics

def Prepared.diagram (prepared : Prepared) : String :=
  Diagram.render prepared.index prepared.document.resourceTypes prepared.document.unions

namespace Run

def accept (fs : FileSystem) (config : Config) : Except RunError Config :=
  match config.validate fs with
  | .ok () => .ok config
  | .error problem => .error (.misconfigured problem.message)

def prepare (fs : FileSystem) (config : Config) : Except RunError Prepared := do
  let fragments ← Document.loadAll fs config.files
  let document := Document.merge fragments
  let index := ActionIndex.build document.bindings
  return ⟨document, index, .collect fragments.length document index⟩

def text (fs : FileSystem) (config : Config) : Except RunError String := do
  let prepared ← prepare fs config
  return config.outputFormat.wrap prepared.diagram

/-- A file is made empty first, and holds what the medium took of the text even if that was not all of it. -/
def deliverOn (medium : Medium) (world : World) (config : Config) : Except RunError Statistics × World :=
  match prepare world.files config with
  | .error error => (.error error, world)
  | .ok prepared =>
    let text := config.outputFormat.wrap prepared.diagram
    match config.output with
    | none => (.ok prepared.statistics, world.print text)
    | some path =>
      match world.files.create path with
      | (.error fault, files) => (.error (.unwritten fault), { world with files })
      | (.ok place, files) =>
        let (result, taken) := medium text.toUTF8
        let world := { world with files := files.put place (.file taken) }
        match result with
        | .error fault => (.error (.unwritten fault), world)
        | .ok () => (.ok prepared.statistics, world)

def deliver : World → Config → Except RunError Statistics × World := deliverOn .whole

end Run

end PolicyDiagram

import PolicyDiagram.Files.Fault
import PolicyDiagram.Files.Path

/-!
A file system of regular files, directories and symbolic links: how a path is followed, name by name, and
what can be done at the place that it leads to. A path that cannot be followed changes nothing.
-/

namespace PolicyDiagram

/-- The names that lead to a file or directory, the outermost last. -/
abbrev Location := List String

inductive FileNode where
  | file (content : ByteArray)
  | directory
  /-- The target is seen from the directory around the link. -/
  | link (target : Path)

structure FileSystem where
  node : Location → Option FileNode
  workingDirectory : Location

namespace FileSystem

def bare (workingDirectory : Location) : FileSystem where
  node location := if location.isSuffixOf workingDirectory then some .directory else none
  workingDirectory

/-! ## Following paths -/

def nameLimit : Nat := 255

def pathLimit : Nat := 4096

def enter (fs : FileSystem) (place : Location) : Except IoFault Unit :=
  match fs.node place with
  | some .directory => .ok ()
  | some _ => .error .notADirectory
  | none => .error .notFound

def destination (place : Location) : String → Except IoFault (Location × Bool)
  | "" | "." => .ok (place, false)
  | ".." => .ok (place.tail, false)
  | name => if nameLimit < name.utf8ByteSize then .error .nameTooLong else .ok (name :: place, true)

def linkLimit : Nat := 40

def startAt (place : Location) (path : Path) : Location := if path.isAbsolute then [] else place

def start (fs : FileSystem) (path : Path) : Location := startAt fs.workingDirectory path

/-- Segments have been followed to their end, or to a link in a directory, with those left behind the link. -/
inductive Progress where
  | arrived (place : Location)
  | linked (place : Location) (target : Path) (rest : List String)

def advance (fs : FileSystem) (place : Location) : List String → Except IoFault Progress
  | [] => .ok (.arrived place)
  | segment :: rest => do
    fs.enter place
    let (next, _) ← destination place segment
    match fs.node next with
    | none => .error .notFound
    | some (.link target) => .ok (.linked place target rest)
    | some _ => fs.advance next rest

def follow (advance : Location → List String → Except IoFault Progress) :
    Nat → Location → List String → Except IoFault Location
  | links, place, segments => do
    match ← advance place segments with
    | .arrived place => .ok place
    | .linked place target rest =>
      match links with
      | 0 => .error .tooManyLinks
      | links + 1 => follow advance links (startAt place target) (target.segments ++ rest)

/-- The locations that are passed on the way along a path, by its spelling alone. -/
def route (fs : FileSystem) (path : Path) : List Location :=
  path.segments.scanl (fun place segment =>
    match segment with
    | "" | "." => place
    | ".." => place.tail
    | name => name :: place) (fs.start path)

def checkSpelling (path : Path) : Except IoFault Unit :=
  if path.spelling.toList.contains '\x00' then .error .nulInName
  else if path.spelling.isEmpty then .error .notFound
  else if pathLimit ≤ path.spelling.utf8ByteSize then .error .nameTooLong
  else .ok ()

def locate (fs : FileSystem) (path : Path) : Except IoFault Location := do
  checkSpelling path
  follow fs.advance linkLimit (fs.start path) path.segments

def holds (fs : FileSystem) (path : Path) : Bool := (fs.locate path).isOk

def sameFile (fs : FileSystem) (first second : Path) : Bool :=
  match fs.locate first, fs.locate second with
  | .ok place, .ok other => place == other
  | _, _ => false

/-! ## Reading -/

/-- A directory can be opened, but not read; a link cannot be opened. -/
def content (fs : FileSystem) (place : Location) : Except IoFault ByteArray :=
  match fs.node place with
  | some (.file content) => .ok content
  | some .directory => .error .isADirectory
  | some (.link _) => .error .tooManyLinks
  | none => .error .notFound

def read (fs : FileSystem) (path : Path) : Except IoFault ByteArray := do
  fs.content (← fs.locate path)

def readText (fs : FileSystem) (path : Path) : Except IoFault String := do
  match String.fromUTF8? (← fs.read path) with
  | some text => .ok text
  | none => .error .notUtf8

/-! ## Writing -/

def put (fs : FileSystem) (place : Location) (node : FileNode) : FileSystem :=
  { fs with node := fun other => if other = place then some node else fs.node other }

@[simp] theorem node_put_self (fs : FileSystem) (place : Location) (node : FileNode) :
    (fs.put place node).node place = some node := by
  simp [put]

theorem node_put_of_ne (fs : FileSystem) {place other : Location} (node : FileNode)
    (h : other ≠ place) : (fs.put place node).node other = fs.node other := by
  simp [put, h]

theorem put_put (fs : FileSystem) (place : Location) (first second : FileNode) :
    (fs.put place first).put place second = fs.put place second := by
  simp only [put, FileSystem.mk.injEq, and_true]
  funext other
  split <;> rfl

/-- As `advance`, where the last name may be missing: it then is the place of a new file. A last name with a
slash behind it, and one that is a directory, is refused. -/
def advanceNew (fs : FileSystem) (place : Location) : List String → Except IoFault Progress
  | [] => .error .isADirectory
  | segment :: rest => do
    fs.enter place
    let (next, named) ← destination place segment
    if rest.all (·.isEmpty) then
      match fs.node next with
      | some .directory => .error .isADirectory
      | found =>
        if ¬named ∨ ¬rest.isEmpty then .error .isADirectory
        else
          match found with
          | some (.link target) => .ok (.linked place target [])
          | _ => .ok (.arrived next)
    else
      match fs.node next with
      | none => .error .notFound
      | some (.link target) => .ok (.linked place target rest)
      | some _ => fs.advanceNew next rest

def newPlace (fs : FileSystem) (path : Path) : Except IoFault Location := do
  checkSpelling path
  follow fs.advanceNew linkLimit (fs.start path) path.segments

def create (fs : FileSystem) (path : Path) : Except IoFault Location × FileSystem :=
  match fs.newPlace path with
  | .ok place => (.ok place, fs.put place (.file .empty))
  | .error fault => (.error fault, fs)

def stepMaking (state : Location × FileSystem) (segment : String) :
    Except IoFault (Location × FileSystem) := do
  let (place, fs) := state
  fs.enter place
  let (next, _) ← destination place segment
  match fs.node next with
  | none => .ok (next, fs.put next .directory)
  | some (.link _) => .ok (← follow fs.advance linkLimit place [segment], fs)
  | some _ => .ok (next, fs)

/-- No path at all stands for the working directory. -/
def makeDirectories (fs : FileSystem) (path : Path) : Except IoFault FileSystem :=
  if path.spelling.isEmpty then .ok fs
  else do
    checkSpelling path
    let (place, made) ← path.segments.foldlM stepMaking (fs.start path, fs)
    made.enter place
    .ok made

end FileSystem

end PolicyDiagram

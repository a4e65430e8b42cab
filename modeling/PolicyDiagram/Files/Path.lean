/-!
Paths as they are spelled, and what can be told from the spelling alone: the components, whether two
spellings have the same components, and the extension of the last name.
-/

namespace PolicyDiagram

structure Path where
  spelling : String
deriving DecidableEq, Repr, Inhabited

namespace Path

/-- A single dot counts only at the start of a relative path. -/
inductive Component where
  | root
  | here
  | parent
  | name (text : String)
deriving DecidableEq, Repr

def segments (path : Path) : List String :=
  (path.spelling.toList.splitOn '/').map String.ofList

def isAbsolute (path : Path) : Bool :=
  match path.segments with
  | "" :: _ :: _ => true
  | _ => false

def Component.ofSegment : String → Option Component
  | "" => none
  | "." => none
  | ".." => some .parent
  | text => some (.name text)

/-- Doubled and trailing slashes and inner dots do not count. -/
def components (path : Path) : List Component :=
  let inner := path.segments.filterMap Component.ofSegment
  if path.isAbsolute then .root :: inner
  else if path.segments.head? = some "." then .here :: inner
  else inner

def sameComponents (first second : Path) : Bool := first.components == second.components

def fileName (path : Path) : Option String :=
  match path.components.getLast? with
  | some (.name text) => some text
  | _ => none

/-- What is behind the last dot; a name has no extension if its only dot comes first. -/
def extensionOf (name : String) : Option String :=
  let reversed := name.toList.reverse
  let tail := reversed.takeWhile (· != '.')
  let rest := reversed.dropWhile (· != '.')
  if rest.length ≤ 1 then none else some (String.ofList tail.reverse)

def extension (path : Path) : Option String := path.fileName.bind extensionOf

end Path

end PolicyDiagram

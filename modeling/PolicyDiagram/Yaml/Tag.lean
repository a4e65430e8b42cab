/-!
Tags of YAML nodes. A percent sign in a tag can spell any byte, so a tag is a sequence of bytes and need not
be a text. A zero byte ends each part that a tag is put together from.
-/

namespace PolicyDiagram.Yaml

structure Tag where
  bytes : List UInt8
deriving DecidableEq, Repr, Inhabited

namespace Tag

def ofText (text : String) : Tag := ⟨text.toUTF8.toList⟩

def part (bytes : List UInt8) : Tag := ⟨bytes.takeWhile (· != 0)⟩

def append (first second : Tag) : Tag := ⟨first.bytes ++ second.bytes⟩

def text? (tag : Tag) : Option String := String.fromUTF8? ⟨tag.bytes.toArray⟩

def bare : Tag := .ofText "!"

def isLocal (tag : Tag) : Bool := tag.bytes.head? == some 0x21

/-- What follows the exclamation mark, or the mark itself if nothing does. -/
def name? (tag : Tag) : Option String :=
  if tag.isLocal then (if tag = bare then tag else ⟨tag.bytes.drop 1⟩).text? else none

def null : Tag := .ofText "tag:yaml.org,2002:null"

def boolean : Tag := .ofText "tag:yaml.org,2002:bool"

def integer : Tag := .ofText "tag:yaml.org,2002:int"

def real : Tag := .ofText "tag:yaml.org,2002:float"

end Tag

end PolicyDiagram.Yaml

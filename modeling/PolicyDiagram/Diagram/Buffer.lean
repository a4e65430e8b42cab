import PolicyDiagram.Files.Fault

/-!
Where a diagram is put: its text, as it is or inside a fenced block of a Markdown document, and the medium that
takes the bytes of the text, all of them or not.
-/

namespace PolicyDiagram

inductive OutputFormat where
  | raw
  | markdown
deriving DecidableEq, Repr, Inhabited

namespace OutputFormat

def title : OutputFormat → String
  | raw => "Raw"
  | markdown => "Markdown"

def ofEmbed (embed : Bool) : OutputFormat := if embed then markdown else raw

def fenceTag : String := "mermaid"

def wrap : OutputFormat → String → String
  | raw, diagram => diagram ++ "\n"
  | markdown, diagram => "```" ++ fenceTag ++ "\n" ++ diagram ++ "\n```\n"

end OutputFormat

abbrev Medium := ByteArray → Except IoFault Unit × ByteArray

namespace Medium

def whole : Medium := fun bytes => (.ok (), bytes)

def ofSize (capacity : Nat) : Medium := fun bytes =>
  if bytes.size ≤ capacity then (.ok (), bytes) else (.error .noRoom, bytes.extract 0 capacity)

end Medium

def Diagram.fill (capacity : Nat) (text : String) : Except IoFault Unit × ByteArray :=
  Medium.ofSize capacity text.toUTF8

end PolicyDiagram

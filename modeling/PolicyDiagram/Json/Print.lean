import PolicyDiagram.Data.Tree

/-!
JSON texts of data trees: a compact one without any blank, and an indented one with an entry per line.
-/

namespace PolicyDiagram.Json

open Data (Tree)

/-- Only quotes, backslashes and control characters of the first column are escaped. -/
def escape (c : Char) : List Char :=
  match c with
  | '"' => ['\\', '"']
  | '\\' => ['\\', '\\']
  | '\n' => ['\\', 'n']
  | '\r' => ['\\', 'r']
  | '\t' => ['\\', 't']
  | _ =>
    if c.toNat = 8 then ['\\', 'b']
    else if c.toNat = 12 then ['\\', 'f']
    else if c.toNat < 32 then
      ['\\', 'u', '0', '0', Nat.digitChar (c.toNat / 16), Nat.digitChar (c.toNat % 16)]
    else [c]

def quoted (text : String) : String :=
  "\"" ++ String.ofList (text.toList.flatMap escape) ++ "\""

mutual

def compact : Tree → String
  | .null => "null"
  | .boolean value => if value then "true" else "false"
  | .natural value => toString value
  | .text value => quoted value
  | .list items => "[" ++ ",".intercalate (compactItems items) ++ "]"
  | .record entries => "\x7b" ++ ",".intercalate (compactEntries entries) ++ "\x7d"

def compactItems : List Tree → List String
  | [] => []
  | item :: rest => compact item :: compactItems rest

def compactEntries : List (String × Tree) → List String
  | [] => []
  | (name, value) :: rest => (quoted name ++ ":" ++ compact value) :: compactEntries rest

end

def newline (depth : Nat) : String := "\n" ++ String.ofList (List.replicate (2 * depth) ' ')

def enclose (left right : String) (depth : Nat) (items : List String) : String :=
  if items.isEmpty then left ++ right
  else
    left ++ newline (depth + 1) ++ ("," ++ newline (depth + 1)).intercalate items ++ newline depth ++
      right

mutual

def indentedAt (depth : Nat) : Tree → String
  | .null => "null"
  | .boolean value => if value then "true" else "false"
  | .natural value => toString value
  | .text value => quoted value
  | .list items => enclose "[" "]" depth (indentedItems (depth + 1) items)
  | .record entries => enclose "\x7b" "\x7d" depth (indentedEntries (depth + 1) entries)

def indentedItems (depth : Nat) : List Tree → List String
  | [] => []
  | item :: rest => indentedAt depth item :: indentedItems depth rest

def indentedEntries (depth : Nat) : List (String × Tree) → List String
  | [] => []
  | (name, value) :: rest =>
    (quoted name ++ ": " ++ indentedAt depth value) :: indentedEntries depth rest

end

def indented (tree : Tree) : String := indentedAt 0 tree

end PolicyDiagram.Json

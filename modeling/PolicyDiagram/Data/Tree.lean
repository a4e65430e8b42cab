/-!
Data trees: what a value looks like once it is written, before a format gives it a text.
-/

namespace PolicyDiagram.Data

inductive Tree where
  | null
  | boolean (value : Bool)
  | natural (value : Nat)
  | text (value : String)
  | list (items : List Tree)
  | record (entries : List (String × Tree))
deriving Repr, Inhabited

namespace Tree

def isNull : Tree → Bool
  | null => true
  | _ => false

end Tree

end PolicyDiagram.Data

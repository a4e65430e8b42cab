import PolicyDiagram.Diagram.Render

/-!
Writing a diagram to a sink that may refuse a piece. Writing stops at the first refusal, so a sink never
sees a piece after one that it refused.
-/

namespace PolicyDiagram

/-- Answers for each piece whether it took it, and with its next state. -/
structure Sink (σ : Type) where
  write : σ → String → Bool × σ

namespace Sink

def writeAll {σ : Type} (sink : Sink σ) : σ → List String → Bool × σ
  | state, [] => (true, state)
  | state, piece :: rest =>
    match sink.write state piece with
    | (true, next) => sink.writeAll next rest
    | (false, next) => (false, next)

/-- Has room for so many bytes, and refuses a piece that does not fit whole. -/
def budget : Sink Nat where
  write room piece :=
    if piece.utf8ByteSize ≤ room then (true, room - piece.utf8ByteSize) else (false, room)

end Sink

def Diagram.renderTo {σ : Type} (sink : Sink σ) (state : σ) (index : ActionIndex)
    (resources : List ResourceType) (unions : List UnionType) : Bool × σ :=
  sink.writeAll state (pieces index resources unions)

end PolicyDiagram

import PolicyDiagram.Diagram.Sink

/-! Writing a diagram to a sink that takes a piece whole or refuses it. Every call is watched: the calls up to a
refusal are those for the first pieces of the diagram, and there is none behind it. The diagram is written by
loops within loops, and a refusal leaves all of them. -/

namespace PolicyDiagram

namespace Sink

variable {σ : Type} {sink : Sink σ} {received : σ → String}

theorem writeAll_cons_taken {state next : σ} {piece : String} (answer : sink.write state piece = (true, next))
    (rest : List String) : sink.writeAll state (piece :: rest) = sink.writeAll next rest := by
  simp [writeAll, answer]

theorem writeAll_cons_refused {state next : σ} {piece : String}
    (answer : sink.write state piece = (false, next)) (rest : List String) :
    sink.writeAll state (piece :: rest) = (false, next) := by
  simp [writeAll, answer]

/-- A call of a sink: the piece that was offered, and whether it was taken. -/
structure Call where
  piece : String
  taken : Bool
deriving DecidableEq, Repr

/-- The same sink, with a list of the calls that were made. -/
def watched (sink : Sink σ) : Sink (σ × List Call) where
  write state piece :=
    let answer := sink.write state.1 piece
    (answer.1, answer.2, state.2 ++ [⟨piece, answer.1⟩])

/-- The text that a sink has received grows by the pieces that it takes, and by nothing else. -/
structure Whole (sink : Sink σ) (received : σ → String) : Prop where
  taken : ∀ state piece next, sink.write state piece = (true, next) →
    received next = received state ++ piece
  refused : ∀ state piece next, sink.write state piece = (false, next) → received next = received state

/-- How writing pieces can go: all of them are taken, or those before one that is refused. -/
inductive Attempt (received : σ → String) (state : σ) (pieces : List String) : Bool × σ → List Call → Prop where
  | done {final : σ} (text : received final = received state ++ String.join pieces) :
      Attempt received state pieces (true, final) (pieces.map (⟨·, true⟩))
  | stopped {final : σ} {before after : List String} {piece : String} (parts : pieces = before ++ piece :: after)
      (text : received final = received state ++ String.join before) :
      Attempt received state pieces (false, final) (before.map (⟨·, true⟩) ++ [⟨piece, false⟩])

theorem Attempt.cons {state next : σ} {piece : String} {rest : List String} {outcome : Bool × σ}
    {calls : List Call} (grown : received next = received state ++ piece)
    (attempt : Attempt received next rest outcome calls) :
    Attempt received state (piece :: rest) outcome (⟨piece, true⟩ :: calls) := by
  cases attempt with
  | done text =>
    apply Attempt.done
    rw [text, grown, String.join_cons, String.append_assoc]
  | @stopped _ before after refused parts text =>
    have parts' : piece :: rest = (piece :: before) ++ refused :: after := by
      rw [parts, List.cons_append]
    apply Attempt.stopped parts'
    rw [text, grown, String.join_cons, String.append_assoc]

/-- Watching a sink changes neither what it takes nor its state, and shows how the attempt went. -/
theorem Whole.attempt (whole : sink.Whole received) (state : σ) (pieces : List String) (earlier : List Call) :
    ∃ calls, sink.watched.writeAll (state, earlier) pieces =
        ((sink.writeAll state pieces).1, (sink.writeAll state pieces).2, earlier ++ calls) ∧
      Attempt received state pieces (sink.writeAll state pieces) calls := by
  induction pieces generalizing state earlier with
  | nil => exact ⟨[], by simp [writeAll], .done (by simp)⟩
  | cons piece rest ih =>
    -- The watched sink answers as the sink does, and keeps the call.
    rcases answer : sink.write state piece with ⟨taken, next⟩
    have watching : sink.watched.write (state, earlier) piece =
        (taken, next, earlier ++ [⟨piece, taken⟩]) := by
      simp [watched, answer]
    cases taken with
    | true =>
      obtain ⟨calls, written, attempt⟩ := ih next (earlier ++ [⟨piece, true⟩])
      refine ⟨⟨piece, true⟩ :: calls, ?_, ?_⟩
      · rw [writeAll_cons_taken watching, writeAll_cons_taken answer, written, List.append_assoc,
          List.singleton_append]
      · rw [writeAll_cons_taken answer]
        exact attempt.cons (whole.taken state piece next answer)
    | false =>
      refine ⟨[⟨piece, false⟩], ?_, ?_⟩
      · rw [writeAll_cons_refused watching, writeAll_cons_refused answer]
      · rw [writeAll_cons_refused answer]
        have parts : piece :: rest = [] ++ piece :: rest := rfl
        apply Attempt.stopped parts
        simpa using whole.refused state piece next answer

/-- Room for some bytes is room for pieces if and only if it is for their text, and shrinks by its length. -/
theorem writeAll_budget (room : Nat) (pieces : List String) :
    ((budget.writeAll room pieces).1 = true ↔ (String.join pieces).utf8ByteSize ≤ room) ∧
      ((budget.writeAll room pieces).1 = true →
        (budget.writeAll room pieces).2 = room - (String.join pieces).utf8ByteSize) := by
  induction pieces generalizing room with
  | nil => simp [writeAll]
  | cons piece rest ih =>
    rw [String.join_cons, String.utf8ByteSize_append]
    by_cases fits : piece.utf8ByteSize ≤ room
    · have answer : budget.write room piece = (true, room - piece.utf8ByteSize) := if_pos fits
      obtain ⟨taken, left⟩ := ih (room - piece.utf8ByteSize)
      rw [writeAll_cons_taken answer, taken]
      constructor
      · omega
      · intro enough
        rw [left (taken.mpr enough)]
        omega
    · have answer : budget.write room piece = (false, room) := if_neg fits
      rw [writeAll_cons_refused answer]
      constructor
      · simp only [Bool.false_eq_true, false_iff]
        omega
      · intro impossible
        cases impossible

/-! ## Loops -/

/-- A step of writing: it changes the sink, and a refusal ends everything that it is part of. -/
abbrev Writing (σ : Type) := EStateM Unit σ

def put (sink : Sink σ) (piece : String) : Writing σ Unit := fun state =>
  match sink.write state piece with
  | (true, next) => .ok () next
  | (false, next) => .error () next

/-- Whether a step gets to its end, and the state that it leaves. -/
def outcome (step : Writing σ Unit) (state : σ) : Bool × σ :=
  match step state with
  | .ok () next => (true, next)
  | .error () next => (false, next)

theorem outcome_put (sink : Sink σ) (piece : String) (state : σ) :
    outcome (sink.put piece) state = sink.write state piece := by
  rcases answer : sink.write state piece with ⟨taken, next⟩
  cases taken <;> simp [outcome, put, answer]

theorem outcome_bind (first second : Writing σ Unit) (state : σ) :
    outcome (do first; second) state =
      match outcome first state with
      | (true, next) => outcome second next
      | (false, next) => (false, next) := by
  cases answer : first state <;> simp [outcome, bind, EStateM.bind, answer]

theorem outcome_forM_put (sink : Sink σ) (state : σ) (pieces : List String) :
    outcome (forM pieces sink.put) state = sink.writeAll state pieces := by
  induction pieces generalizing state with
  | nil => rfl
  | cons piece rest ih =>
    rw [List.forM_cons, outcome_bind, outcome_put, writeAll]
    rcases sink.write state piece with ⟨taken, next⟩
    cases taken with
    | true => exact ih next
    | false => rfl

theorem forM_flatMap {α β : Type} (items : List α) (parts : α → List β) (step : β → Writing σ Unit) :
    forM (items.flatMap parts) step = forM items fun item => forM (parts item) step := by
  induction items with
  | nil => rfl
  | cons item rest ih => rw [List.flatMap_cons, List.forM_append, List.forM_cons, ih]

end Sink

namespace Diagram

variable {σ : Type} (sink : Sink σ)

def writeAttributes (index : ActionIndex) (typeName : String) : Sink.Writing σ Unit := do
  forM (index.direct.actionsFor typeName) fun action =>
    forM (directLine action) sink.put
  if let some table := index.related.groupsFor typeName then
    forM table.groups fun group =>
      forM group.2 fun action =>
        forM (relatedLine group.1 action) sink.put

def writeResource (index : ActionIndex) (resource : ResourceType) : Sink.Writing σ Unit := do
  forM (opening resource.name) sink.put
  forM (prefixLine resource.idPrefix) sink.put
  writeAttributes sink index resource.name
  forM closing sink.put
  forM resource.relationships fun relationship =>
    forM relationship.targets fun target =>
      forM (edgeLine resource.name relationshipArrow target relationship.relation) sink.put

def writeUnion (index : ActionIndex) (union : UnionType) : Sink.Writing σ Unit := do
  forM (opening union.name) sink.put
  writeAttributes sink index union.name
  forM closing sink.put
  forM union.members fun member =>
    forM (edgeLine union.name aliasArrow member aliasLabel) sink.put

/-- Writes a diagram, loop by loop. -/
def writeDiagram (index : ActionIndex) (resources : List ResourceType) (unions : List UnionType) :
    Sink.Writing σ Unit := do
  sink.put header
  forM resources (writeResource sink index)
  forM unions (writeUnion sink index)

theorem writeAttributes_eq (index : ActionIndex) (typeName : String) :
    writeAttributes sink index typeName = forM (attributes index typeName) sink.put := by
  unfold writeAttributes attributes
  rw [List.forM_append, Sink.forM_flatMap]
  cases index.related.groupsFor typeName with
  | none => rfl
  | some table => simp only [Sink.forM_flatMap]

theorem writeResource_eq (index : ActionIndex) (resource : ResourceType) :
    writeResource sink index resource = forM (resourcePieces index resource) sink.put := by
  simp only [writeResource, resourcePieces, relationshipEdges, List.forM_append, Sink.forM_flatMap,
    writeAttributes_eq, bind_assoc]

theorem writeUnion_eq (index : ActionIndex) (union : UnionType) :
    writeUnion sink index union = forM (unionPieces index union) sink.put := by
  simp only [writeUnion, unionPieces, memberEdges, List.forM_append, Sink.forM_flatMap,
    writeAttributes_eq, bind_assoc]

/-- Leaving the loops at the first refusal is stopping in the list of pieces. -/
theorem outcome_writeDiagram (state : σ) (index : ActionIndex) (resources : List ResourceType)
    (unions : List UnionType) :
    Sink.outcome (writeDiagram sink index resources unions) state =
      renderTo sink state index resources unions := by
  have loops : writeDiagram sink index resources unions = forM (pieces index resources unions) sink.put := by
    have resourceLoop : writeResource sink index = fun resource =>
        forM (resourcePieces index resource) sink.put := funext (writeResource_eq sink index)
    have unionLoop : writeUnion sink index = fun union =>
        forM (unionPieces index union) sink.put := funext (writeUnion_eq sink index)
    rw [writeDiagram, pieces, List.forM_cons, List.forM_append, Sink.forM_flatMap, Sink.forM_flatMap,
      resourceLoop, unionLoop]
  rw [loops, Sink.outcome_forM_put, renderTo]

/-! ## Refusals -/

open Sink (Call Attempt)

/-- How rendering into a sink goes that gives an answer, as seen from the calls that it makes. -/
structure Reported (received : σ → String) (state : σ) (index : ActionIndex) (resources : List ResourceType)
    (unions : List UnionType) (answer : Bool × σ) (calls : List Call) : Prop where
  loops : Sink.outcome (writeDiagram sink index resources unions) state = answer
  watched : renderTo sink.watched (state, []) index resources unions = (answer.1, answer.2, calls)
  offered : calls.map Call.piece <+: pieces index resources unions
  succeeds : answer.1 = true ↔ ∀ call ∈ calls, call.taken = true
  whole : answer.1 = true → received answer.2 = received state ++ render index resources unions
  stops : answer.1 = false →
    ∃ before piece, calls = before ++ [⟨piece, false⟩] ∧ ∀ call ∈ before, call.taken = true
  part : ∃ got rest, received answer.2 = received state ++ got ∧ got ++ rest = render index resources unions

theorem reported_of_attempt {sink : Sink σ} {received : σ → String} {state : σ} {index : ActionIndex}
    {resources : List ResourceType} {unions : List UnionType} {answer : Bool × σ} {calls : List Call}
    (loops : Sink.outcome (writeDiagram sink index resources unions) state = answer)
    (watched : renderTo sink.watched (state, []) index resources unions = (answer.1, answer.2, calls))
    (attempt : Attempt received state (pieces index resources unions) answer calls) :
    Reported sink received state index resources unions answer calls := by
  cases attempt with
  | done text =>
    constructor
    case loops => exact loops
    case watched => exact watched
    case offered => simp [Function.comp_def]
    case succeeds => simp
    case whole => exact fun _ => text
    case stops => rintro ⟨⟩
    case part => exact ⟨_, "", text, String.append_empty⟩
  | @stopped _ before after piece parts text =>
    constructor
    case loops => exact loops
    case watched => exact watched
    case offered => exact ⟨after, by simp [parts, Function.comp_def]⟩
    case succeeds => simp
    case whole => rintro ⟨⟩
    case stops => exact fun _ => ⟨_, piece, rfl, by simp⟩
    case part =>
      refine ⟨_, String.join (piece :: after), text, ?_⟩
      rw [← String.join_append, ← parts, render]

/-- Rendering succeeds if no call is refused, and the sink then has received the whole diagram. Otherwise it fails
with the first refusal, makes no call behind it, and leaves the sink with the beginning of the diagram. A sink with
room for so many bytes takes a diagram of at most that size, and what is left of its room is the difference. -/
theorem renderTo_stops_at_refusal {sink : Sink σ} {received : σ → String} (whole : sink.Whole received)
    (state : σ) (index : ActionIndex) (resources : List ResourceType) (unions : List UnionType) :
    (∃ calls, Reported sink received state index resources unions
        (renderTo sink state index resources unions) calls) ∧
      ∀ room, ((renderTo .budget room index resources unions).1 = true ↔
          (render index resources unions).utf8ByteSize ≤ room) ∧
        ((renderTo .budget room index resources unions).1 = true →
          (renderTo .budget room index resources unions).2 =
            room - (render index resources unions).utf8ByteSize) := by
  constructor
  · obtain ⟨calls, watched, attempt⟩ := whole.attempt state (pieces index resources unions) []
    have loops := outcome_writeDiagram sink state index resources unions
    exact ⟨calls, reported_of_attempt loops watched attempt⟩
  · intro room
    exact Sink.writeAll_budget room (pieces index resources unions)

/-- A page with room for so many bytes. -/
def page (size : Nat) : Sink String where
  write text piece :=
    if text.utf8ByteSize + piece.utf8ByteSize ≤ size then (true, text ++ piece) else (false, text)

theorem page_whole (size : Nat) : (page size).Whole id := by
  constructor <;> intro text piece next answer <;> simp only [page] at answer <;> split at answer <;>
    simp_all

/-- A page that the identifier prefix of a type no longer fits on. -/
theorem page_breaks_off :
    (page 20).Whole id ∧
      (∃ calls, Reported (page 20) id "" .empty [⟨"rôle", "permrol", []⟩] []
        (false, "erDiagram\n\trôle \x7b") calls) ∧
      renderTo .budget 41 .empty [⟨"rôle", "permrol", []⟩] [] = (true, 0) := by
  have breaks : renderTo (page 20) "" .empty [⟨"rôle", "permrol", []⟩] [] =
      (false, "erDiagram\n\trôle \x7b") := by
    decide +kernel
  obtain ⟨reported, _⟩ := renderTo_stops_at_refusal (page_whole 20) "" .empty [⟨"rôle", "permrol", []⟩] []
  rw [breaks] at reported
  exact ⟨page_whole 20, reported, by decide +kernel⟩

end Diagram

end PolicyDiagram

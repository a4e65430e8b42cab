import PolicyDiagram.Yaml.Event

/-!
The tree of the first document of a YAML stream, up to the first fault. Aliases stay in the tree; what they
stand for is looked up when they are read.
-/

namespace PolicyDiagram.Yaml

inductive Node where
  | scalar (mark : Mark) (scalar : Scalar)
  | alias (anchor : Nat)
  | sequence (mark : Mark) (tag : Option Tag) (items : List Node) (whole : Bool)
  | mapping (mark : Mark) (tag : Option Tag) (entries : List (Node × Node)) (whole : Bool)
  | nothing (mark : Mark)
  | cut
deriving Inhabited

inductive Break where
  | malformed
  | unknownAnchor (mark : Mark)
deriving DecidableEq, Repr

structure Content where
  root : Node
  anchors : List (Nat × Node)
  events : Nat
  fault : Option Break
  followed : Bool

/-- The parts are in reverse order; `ordinal` numbers the event that started it, if it has an anchor. -/
inductive Frame where
  | sequence (mark : Mark) (tag : Option Tag) (ordinal : Option Nat) (items : List Node)
  | mapping (mark : Mark) (tag : Option Tag) (ordinal : Option Nat) (entries : List (Node × Node))
      (key : Option Node)

def Frame.broken (last : Node) : Frame → Node
  | .sequence mark tag _ items => .sequence mark tag (last :: items).reverse false
  | .mapping mark tag _ entries none => .mapping mark tag ((last, .cut) :: entries).reverse false
  | .mapping mark tag _ entries (some key) =>
    .mapping mark tag ((key, last) :: entries).reverse false

def Frame.ordinal : Frame → Option Nat
  | .sequence _ _ ordinal _ => ordinal
  | .mapping _ _ ordinal _ _ => ordinal

structure Composer where
  frames : List Frame
  root : Option Node
  names : List (String × Nat)
  places : List (Nat × Nat)
  finished : List (Nat × Node)
  events : Nat

namespace Composer

def start : Composer := ⟨[], none, [], [], [], 0⟩

def count (s : Composer) : Composer := { s with events := s.events + 1 }

/-- The number of an anchor is the count of names so far, so a name given again may share its number with a
later one, which then takes its place. -/
def note (s : Composer) : Option String → Composer
  | none => s
  | some name =>
    let number := s.names.length
    { s with
      names := (name, number) :: s.names.filter (·.1 != name)
      places := (number, s.events) :: s.places }

def keep (s : Composer) (ordinal : Option Nat) (node : Node) : Composer :=
  match ordinal with
  | some ordinal => { s with finished := (ordinal, node) :: s.finished }
  | none => s

def give (s : Composer) (node : Node) : Composer :=
  match s.frames with
  | [] => { s with root := s.root.or (some node) }
  | .sequence mark tag ordinal items :: rest =>
    { s with frames := .sequence mark tag ordinal (node :: items) :: rest }
  | .mapping mark tag ordinal entries none :: rest =>
    { s with frames := .mapping mark tag ordinal entries (some node) :: rest }
  | .mapping mark tag ordinal entries (some key) :: rest =>
    { s with frames := .mapping mark tag ordinal ((key, node) :: entries) none :: rest }

def close (s : Composer) : Composer :=
  match s.frames with
  | [] => s
  | .sequence mark tag ordinal items :: rest =>
    let node := .sequence mark tag items.reverse true
    ({ s with frames := rest }.keep ordinal node).give node
  | .mapping mark tag ordinal entries _ :: rest =>
    let node := .mapping mark tag entries.reverse true
    ({ s with frames := rest }.keep ordinal node).give node

def breakOff (s : Composer) (last : Node) : List Frame → Composer
  | [] => { s with frames := [], root := s.root.or (some last) }
  | frame :: rest =>
    let node := frame.broken last
    (s.keep frame.ordinal node).breakOff node rest

def anchors (s : Composer) : List (Nat × Node) :=
  s.places.filterMap fun (number, place) => (s.finished.lookup place).map (number, ·)

def content (s : Composer) (fault : Option Break) (followed : Bool) : Content :=
  let s := if fault.isSome then s.breakOff .cut s.frames else s
  { root := s.root.getD .cut, anchors := s.anchors, events := s.events, fault, followed }

end Composer

def compose (s : Composer) : List Event → Content
  | [] => s.content (some .malformed) false
  | event :: rest =>
    match event.kind with
    | .documentStart => compose s rest
    | .streamEnd => { s.content none false with root := .nothing event.mark, events := 1 }
    | .documentEnd => s.content none (rest.head?.all fun next => next.kind != .streamEnd)
    | .alias name =>
      match s.names.lookup name with
      | some number => compose (s.give (.alias number)).count rest
      | none => s.content (some (.unknownAnchor event.mark)) false
    | .scalar anchor scalar =>
      let node := .scalar event.mark scalar
      compose (((s.note anchor).keep (anchor.map fun _ => s.events) node).give node).count rest
    | .sequenceStart anchor tag =>
      let frame := .sequence event.mark tag (anchor.map fun _ => s.events) []
      let s := s.note anchor
      compose { s with frames := frame :: s.frames }.count rest
    | .mappingStart anchor tag =>
      let frame := .mapping event.mark tag (anchor.map fun _ => s.events) [] none
      let s := s.note anchor
      compose { s with frames := frame :: s.frames }.count rest
    | .sequenceEnd | .mappingEnd => compose s.close.count rest

def Content.ofBytes (bytes : ByteArray) : Content := compose .start (Event.ofBytes bytes)

end PolicyDiagram.Yaml

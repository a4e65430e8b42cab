import PolicyDiagram.Json.Read
import PolicyDiagram.Proofs.Data.Faithful

/-! Reading gives back what was written: a node that spells the data of a value is read as the value. -/

namespace PolicyDiagram.Json

open Data (Tree Shape Fields Slot Presence)

mutual

/-- A node is a faithful copy of a tree, without a fault. -/
def Spells : Tree → Node → Prop
  | .null, node => node.content = .name .null none
  | .boolean value, node => node.content = .name (if value then .true else .false) none
  | .natural value, node => node.content = .number (.ok (.natural value))
  | .text value, node => node.content = .text (.ok value)
  | .list items, node => ∃ nodes bracket,
    node.content = .list nodes (.closed bracket) ∧ SpellItems items nodes
  | .record entries, node => ∃ members bracket,
    node.content = .record members (.closed bracket) ∧ SpellMembers entries members

def SpellItems : List Tree → List Node → Prop
  | [], nodes => nodes = []
  | item :: items, nodes => ∃ node rest, nodes = node :: rest ∧ Spells item node ∧ SpellItems items rest

def SpellMembers : List (String × Tree) → List Member → Prop
  | [], members => members = []
  | (name, value) :: entries, members => ∃ afterKey resumed node next rest,
    members = .mk (.ok name) afterKey resumed (.ok node) next :: rest ∧ Spells value node ∧
      SpellMembers entries rest

end

theorem isNull_of_spells {tree : Tree} {node : Node} (spells : Spells tree node)
    (present : tree ≠ .null) : node.isNull = .ok false := by
  cases tree with
  | null => contradiction
  | boolean value => cases value <;> simp_all [Spells, Node.isNull]
  | natural value => simp_all [Spells, Node.isNull]
  | text value => simp_all [Spells, Node.isNull]
  | list items =>
    obtain ⟨nodes, bracket, content, -⟩ := spells
    simp [Node.isNull, content]
  | record entries =>
    obtain ⟨members, bracket, content, -⟩ := spells
    simp [Node.isNull, content]

theorem mapM_of_spells {α : Type} {write : α → Tree} {read : Node → Except Fault α} (values : List α)
    (recovers : ∀ value ∈ values, ∀ node, Spells (write value) node → read node = .ok value)
    {nodes : List Node} (spells : SpellItems (values.map write) nodes) :
    nodes.mapM read = .ok values := by
  induction values generalizing nodes with
  | nil =>
    simp only [List.map_nil, SpellItems] at spells
    subst spells
    rfl
  | cons value values ih =>
    simp only [List.map_cons, SpellItems] at spells
    obtain ⟨node, rest, rfl, first, others⟩ := spells
    have head := recovers value (by simp) node first
    have tail := ih (fun v member => recovers v (by simp [member])) others
    simp [List.mapM_cons, head, tail, bind, Except.bind, pure, Except.pure]

theorem readMember_of_answers {ρ : Type} {earlier later : List (Slot (Store ρ))} {slot : Slot (Store ρ)}
    {given : List String} (apart : ∀ other ∈ earlier, other.answers slot.name = false)
    (fresh : slot.name ∉ given) (state : ρ) (afterKey : Nat) (resumed : Spot) (node : Node)
    (next : Nat) {result : ρ} (stored : slot.store node state = .ok result) :
    readMember (earlier ++ slot :: later) ⟨state, given⟩
      (.mk (.ok slot.name) afterKey resumed (.ok node) next) = .ok ⟨result, slot.name :: given⟩ := by
  simp [readMember, Member.key, Member.value, Slot.find?_name later apart, fresh, stored, bind,
    Except.bind]

abbrev Returns (bytes : Bytes) {α : Type} (shape : Shape α) : Prop := shape.ReadBy Spells (read bytes shape)

abbrev Fills (bytes : Bytes) {ρ : Type} (fields : Fields ρ) : Prop :=
  fields.FilledBy SpellMembers readMember (slots bytes fields)

theorem returns_list {bytes : Bytes} {α : Type} {element : Shape α}
    (each : Returns bytes element) : Returns bytes (.list element) := by
  intro values node recovers spells
  obtain ⟨nodes, bracket, content, items⟩ := by simpa only [Shape.write, Spells] using spells
  have mapped : nodes.mapM (read bytes element) = .ok values :=
    mapM_of_spells values (fun value member part => each value part (recovers value member)) items
  simp [read, readList, content, mapped, Ending.listFault, bind, Except.bind, pure, Except.pure]

theorem returns_optional {bytes : Bytes} {α : Type} {content : Shape α}
    (inner : Returns bytes content) : Returns bytes (.optional content) := by
  intro value node recovers spells
  rw [read]
  refine inner.optional (fun node null => ?_) (fun _ _ => isNull_of_spells) value node recovers spells
  simp only [Spells] at null
  simp [Node.isNull, null, pure, Except.pure]

theorem returns_record {bytes : Bytes} {ρ : Type} {name : String} {empty : ρ} {fields : Fields ρ}
    (parts : Fills bytes fields) : Returns bytes (.record name empty fields) := by
  intro value node recovers spells
  obtain ⟨members, bracket, content, entries⟩ := by simpa only [Shape.write, Spells] using spells
  obtain ⟨named, folded, whole⟩ := parts.record recovers entries
  simp [read, readRecord, content, readMembers, folded, Ending.recordFault, whole, bind, Except.bind,
    pure, Except.pure]

theorem fills_field {bytes : Bytes} {ρ α : Type} {name : String} {others : List String}
    {presence : Presence} {shape : Shape α} {get : ρ → α} {set : α → ρ → ρ} {rest : Fields ρ}
    (part : Returns bytes shape) (remaining : Fills bytes rest) :
    Fills bytes (.field name others presence shape get set rest) := by
  refine remaining.field fun value state members earlier given recovered apart fresh spells => ?_
  obtain ⟨afterKey, resumed, node, next, tail, rfl, spelled, behind⟩ := spells
  refine ⟨_, tail, rfl, behind, readMember_of_answers apart fresh state afterKey resumed node next ?_⟩
  simp [part (get value) node recovered spelled, Except.map, pure, Except.pure]

mutual

theorem read_of_spells (bytes : Bytes) {α : Type} : (shape : Shape α) → Returns bytes shape
  | .text => fun value node _ spells => by
    simp_all [read, Shape.write, Spells, Node.readText, pure, Except.pure]
  | .path => fun value node _ spells => by
    simp_all [read, Shape.write, Spells, Node.readText, Except.map, pure, Except.pure]
  | .natural => fun value node _ spells => by
    simp_all [read, Shape.write, Spells, Node.readNatural, pure, Except.pure]
  | .boolean => fun value node _ spells => by
    cases value <;> simp_all [read, Shape.write, Spells, Node.readBoolean, pure, Except.pure]
  | .choice variants nameOf => fun value node recovers spells => by
    simp_all [read, Shape.write, Spells, Node.readChoice, Shape.Recovers, select, bind, Except.bind,
      pure, Except.pure]
  | .list element => returns_list (read_of_spells bytes element)
  | .optional content => returns_optional (read_of_spells bytes content)
  | .record _ _ fields => returns_record (readMembers_of_spells bytes fields)
  | .via shape ofWritten toWritten => (read_of_spells bytes shape).via ofWritten toWritten

theorem readMembers_of_spells (bytes : Bytes) {ρ : Type} : (fields : Fields ρ) → Fills bytes fields
  | .done => fun value state members earlier given _ _ spells => by
    simp only [Fields.write, SpellMembers] at spells
    subst spells
    exact ⟨given, rfl, fun _ member => member, by simp [slots]⟩
  | .field _ _ _ shape _ _ rest =>
    fills_field (read_of_spells bytes shape) (readMembers_of_spells bytes rest)

end

end PolicyDiagram.Json

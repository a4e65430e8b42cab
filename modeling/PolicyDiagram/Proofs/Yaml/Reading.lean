import PolicyDiagram.Yaml.Read
import PolicyDiagram.Proofs.Data.Faithful

/-! Reading gives back what was written: a node that spells the data of a value is read as the value, and
no alias is followed on the way. -/

namespace PolicyDiagram.Yaml

open Data (Tree Shape Fields Slot Presence)

mutual

/-- A node is a faithful copy of a tree of records, lists and texts. A text that could be taken for nothing
is not written plain. -/
def Spells : Tree → Node → Prop
  | .null, node => ∃ mark, node = .scalar mark ⟨"null", .plain, none⟩
  | .boolean _, _ | .natural _, _ => False
  | .text value, node => ∃ mark style,
    node = .scalar mark ⟨value, style, none⟩ ∧
      (style = .plain → value.isEmpty = false ∧ isNullWord value = false)
  | .list items, node => ∃ mark nodes,
    node = .sequence mark none nodes true ∧ SpellItems items nodes
  | .record entries, node => ∃ mark nodes,
    node = .mapping mark none nodes true ∧ SpellEntries entries nodes

def SpellItems : List Tree → List Node → Prop
  | [], nodes => nodes = []
  | item :: items, nodes => ∃ node rest, nodes = node :: rest ∧ Spells item node ∧ SpellItems items rest

def SpellEntries : List (String × Tree) → List (Node × Node) → Prop
  | [], nodes => nodes = []
  | (name, value) :: entries, nodes => ∃ mark node rest,
    nodes = (.scalar mark ⟨name, .plain, none⟩, node) :: rest ∧ Spells value node ∧
      SpellEntries entries rest

end

/-- What a tree is spelled by stands for itself, and it is nothing only if the tree is. -/
theorem resolve_of_spells {content : Content} {tree : Tree} {node : Node} (spells : Spells tree node) :
    resolve content node = pure node := by
  cases tree <;> simp only [Spells] at spells
  case null => obtain ⟨mark, rfl⟩ := spells; rfl
  case text => obtain ⟨mark, style, rfl, -⟩ := spells; rfl
  case list => obtain ⟨mark, nodes, rfl, -⟩ := spells; rfl
  case record => obtain ⟨mark, nodes, rfl, -⟩ := spells; rfl

theorem readAbsent_of_spells {content : Content} {tree : Tree} {node : Node}
    (spells : Spells tree node) (present : tree ≠ .null) :
    readAbsent content node = pure false := by
  cases tree <;> simp only [Spells] at spells
  case null => contradiction
  case text =>
    obtain ⟨mark, style, rfl, shown⟩ := spells
    by_cases plain : style = .plain
    · simp [readAbsent, Scalar.isAbsent, plain, shown plain]
    · simp [readAbsent, Scalar.isAbsent, plain]
  case list => obtain ⟨mark, nodes, rfl, -⟩ := spells; rfl
  case record => obtain ⟨mark, nodes, rfl, -⟩ := spells; rfl

theorem locate_pure {α : Type} (mark : Mark) (trail : Trail) (value : α) :
    locate mark trail (pure value) = pure value := by
  funext count
  rfl

theorem readItems_of_spells {α : Type} {write : α → Tree} {read : Trail → Node → Reading α}
    (values : List α)
    (each : ∀ value ∈ values, ∀ node trail, Spells (write value) node →
      read trail node = pure value)
    {nodes : List Node} (spells : SpellItems (values.map write) nodes) (trail : Trail)
    (position : Nat) : readItems read trail nodes position = pure values := by
  induction values generalizing nodes position with
  | nil =>
    simp only [List.map_nil, SpellItems] at spells
    subst spells
    rfl
  | cons value values ih =>
    simp only [List.map_cons, SpellItems] at spells
    obtain ⟨node, rest, rfl, first, others⟩ := spells
    have head := each value (by simp) node (.index position :: trail) first
    have tail := ih (fun v member => each v (by simp [member])) others (position + 1)
    simp [readItems, head, tail]

theorem readEntry_of_answers {ρ : Type} {content : Content} {trail : Trail}
    {earlier later : List (Slot (Store ρ))} {slot : Slot (Store ρ)} {given : List String}
    (apart : ∀ other ∈ earlier, other.answers slot.name = false) (fresh : slot.name ∉ given)
    (state : ρ) (mark : Mark) (node : Node) {result : ρ}
    (stored : slot.store (.key slot.name :: trail) node state = pure result) :
    readEntry content trail (earlier ++ slot :: later) ⟨state, given⟩
      (.scalar mark ⟨slot.name, .plain, none⟩, node) = pure ⟨result, slot.name :: given⟩ := by
  have found := Slot.find?_name later apart
  simp [-List.find?_append, readEntry, readText, resolve, found, fresh, stored, stepOf]

def Returns (content : Content) {α : Type} (shape : Shape α) : Prop :=
  ∀ trail, shape.ReadBy Spells (read content shape trail)

def Fills (content : Content) {ρ : Type} (fields : Fields ρ) : Prop :=
  ∀ trail, fields.FilledBy SpellEntries (readEntry content trail) (slots content fields)

theorem returns_list {content : Content} {α : Type} {element : Shape α}
    (each : Returns content element) : Returns content (.list element) := by
  intro trail values node recovers spells
  obtain ⟨mark, nodes, rfl, items⟩ := by simpa only [Shape.write, Spells] using spells
  have elements := readItems_of_spells values
    (fun value member part trail => each trail value part (recovers value member)) items trail 0
  simp [read, readList, resolve, elements, locate_pure]

theorem returns_optional {content : Content} {α : Type} {inner : Shape α}
    (part : Returns content inner) : Returns content (.optional inner) := by
  intro trail value node recovers spells
  rw [read, resolve_of_spells spells, pure_bind]
  refine (part trail).optional (fun node null => ?_) (fun _ _ => readAbsent_of_spells) value node recovers spells
  obtain ⟨mark, rfl⟩ := by simpa only [Spells] using null
  rfl

theorem returns_record {content : Content} {ρ : Type} {name : String} {empty : ρ}
    {fields : Fields ρ} (parts : Fills content fields) :
    Returns content (.record name empty fields) := by
  intro trail value node recovers spells
  obtain ⟨mark, nodes, rfl, entries⟩ := by simpa only [Shape.write, Spells] using spells
  obtain ⟨named, folded, whole⟩ := (parts trail).record recovers entries
  simp [read, readRecord, resolve, readEntries, folded, whole, locate_pure]

theorem fills_field {content : Content} {ρ α : Type} {name : String} {others : List String}
    {presence : Presence} {shape : Shape α} {get : ρ → α} {set : α → ρ → ρ} {rest : Fields ρ}
    (part : Returns content shape) (remaining : Fills content rest) :
    Fills content (.field name others presence shape get set rest) := by
  intro trail
  refine (remaining trail).field fun value state nodes earlier given recovered apart fresh spells => ?_
  obtain ⟨mark, node, tail, rfl, spelled, behind⟩ := spells
  refine ⟨_, tail, rfl, behind, readEntry_of_answers apart fresh state mark node ?_⟩
  simp [part _ (get value) node recovered spelled]

mutual

theorem read_of_spells (content : Content) {α : Type} : (shape : Shape α) → Returns content shape
  | .text => fun trail value node _ spells => by
    obtain ⟨mark, style, rfl, -⟩ := by simpa only [Shape.write, Spells] using spells
    rfl
  | .path => fun trail value node _ spells => by
    obtain ⟨mark, style, rfl, -⟩ := by simpa only [Shape.write, Spells] using spells
    rfl
  | .natural => fun trail value node _ spells => by
    simp only [Shape.write, Spells] at spells
  | .boolean => fun trail value node _ spells => by
    simp only [Shape.write, Spells] at spells
  | .choice variants nameOf => fun trail value node recovers spells => by
    obtain ⟨mark, style, rfl, -⟩ := by simpa only [Shape.write, Spells] using spells
    simp only [Shape.Recovers] at recovers
    simp [read, readChoice, resolve, select, recovers, locate_pure]
  | .list element => returns_list (read_of_spells content element)
  | .optional inner => returns_optional (read_of_spells content inner)
  | .record _ _ fields => returns_record (readEntries_of_spells content fields)
  | .via shape ofWritten toWritten => fun trail =>
    (read_of_spells content shape trail).via ofWritten toWritten

theorem readEntries_of_spells (content : Content) {ρ : Type} :
    (fields : Fields ρ) → Fills content fields
  | .done => fun trail value state nodes earlier given _ _ spells => by
    simp only [Fields.write, SpellEntries] at spells
    subst spells
    exact ⟨given, rfl, fun _ member => member, by simp [slots]⟩
  | .field _ _ _ shape _ _ rest =>
    fills_field (read_of_spells content shape) (readEntries_of_spells content rest)

end

/-- A value that its data determines is decoded from every stream whose only document spells the data. -/
theorem decode_of_spells {α : Type} (shape : Shape α) {value : α} (recovers : shape.Recovers value)
    {bytes : ByteArray} (spells : Spells (shape.write value) (Content.ofBytes bytes).root)
    (sound : (Content.ofBytes bytes).fault = none) (only : (Content.ofBytes bytes).followed = false) :
    decode shape bytes = .ok value := by
  have given : (read (Content.ofBytes bytes) shape [] (Content.ofBytes bytes).root).run 0 = .ok (value, 0) := by
    rw [read_of_spells (Content.ofBytes bytes) shape [] value _ recovers spells]
    rfl
  simp [decode, given, sound, only, bind, Except.bind, pure, Except.pure]

end PolicyDiagram.Yaml

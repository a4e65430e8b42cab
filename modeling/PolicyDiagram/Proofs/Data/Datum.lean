import Mathlib.Logic.Relation
import PolicyDiagram.Data.Slot

/-! Data without its text. A datum is what a text of any format holds; it reads as a value of a shape, or as
none. Records are read by their fields: each takes its part from the entry that spells it. -/

namespace PolicyDiagram.Data

/-- A scalar, by what a reader may ask of it. -/
structure Leaf where
  /-- The text that it is read as. -/
  text? : Option String
  /-- Whether it is nothing where a value is optional; a scalar can be wrong there, whatever is asked for. -/
  absent? : Option Bool
  /-- Whether it is taken for a list or a record without entries. -/
  bare : Bool
deriving DecidableEq, Repr

inductive Datum where
  | scalar (leaf : Leaf)
  | list (items : List Datum)
  | map (entries : List (String × Datum))

abbrev Entries := List (String × Datum)

namespace Datum

def isScalar : Datum → Bool
  | scalar _ => true
  | _ => false

def isList : Datum → Bool
  | list _ => true
  | _ => false

def text? : Datum → Option String
  | scalar leaf => leaf.text?
  | _ => none

def absent? : Datum → Option Bool
  | scalar leaf => leaf.absent?
  | _ => some false

def items? : Datum → Option (List Datum)
  | list items => some items
  | scalar leaf => if leaf.bare then some [] else none
  | map _ => none

def entries? : Datum → Option Entries
  | map entries => some entries
  | scalar leaf => if leaf.bare then some [] else none
  | list _ => none

def items (datum : Datum) : List Datum := datum.items?.getD []

def entries (datum : Datum) : Entries := datum.entries?.getD []

@[simp] theorem items?_list (items : List Datum) : (list items).items? = some items := rfl

@[simp] theorem entries?_map (entries : Entries) : (map entries).entries? = some entries := rfl

mutual

/-- Whether two data are the same. -/
def same : Datum → Datum → Bool
  | scalar first, scalar second => first == second
  | list first, list second => sameItems first second
  | map first, map second => sameEntries first second
  | _, _ => false

def sameItems : List Datum → List Datum → Bool
  | [], [] => true
  | first :: firsts, second :: seconds => same first second && sameItems firsts seconds
  | _, _ => false

def sameEntries : Entries → Entries → Bool
  | [], [] => true
  | (key, first) :: firsts, (other, second) :: seconds =>
    key == other && same first second && sameEntries firsts seconds
  | _, _ => false

end

mutual

theorem same_iff : (first second : Datum) → (same first second = true ↔ first = second)
  | scalar first, second => by cases second <;> simp [same]
  | list first, second => by cases second <;> simp [same, sameItems_iff first]
  | map first, second => by cases second <;> simp [same, sameEntries_iff first]

theorem sameItems_iff : (first second : List Datum) → (sameItems first second = true ↔ first = second)
  | [], second => by cases second <;> simp [sameItems]
  | first :: firsts, second => by
    cases second <;> simp [sameItems, same_iff first, sameItems_iff firsts]

theorem sameEntries_iff : (first second : Entries) → (sameEntries first second = true ↔ first = second)
  | [], second => by cases second <;> simp [sameEntries]
  | (key, first) :: firsts, second => by
    cases second <;> simp [sameEntries, same_iff first, sameEntries_iff firsts, Prod.ext_iff, and_assoc]

end

instance : DecidableEq Datum := fun first second => decidable_of_iff _ (same_iff first second)

end Datum

/-- One field of a record type. -/
structure RecordField (ρ : Type) : Type 1 where
  {Part : Type}
  name : String
  others : List String
  presence : Presence
  shape : Shape Part
  set : Part → ρ → ρ

def RecordField.keys {ρ : Type} (field : RecordField ρ) : List String := field.name :: field.others

def Fields.toList {ρ : Type} : Fields ρ → List (RecordField ρ)
  | .done => []
  | .field name others presence shape _ set rest => ⟨name, others, presence, shape, set⟩ :: rest.toList

/-- The values that the entries of a record give under some keys. -/
def readings (keys : List String) (entries : Entries) : List Datum :=
  (entries.filter fun entry => keys.contains entry.1).map Prod.snd

/-- Whether a datum holds nothing of a shape: the empty text, the empty list, or null for what is optional. -/
def Shape.isEmpty {α : Type} : Shape α → Datum → Bool
  | .text, datum => datum.text? == some ""
  | .list _, datum => datum.items? == some []
  | .optional content, datum => datum.absent?.any fun absent => absent || content.isEmpty datum
  | .via shape _ _, datum => shape.isEmpty datum
  | .path, _ | .natural, _ | .boolean, _ | .choice _ _, _ | .record _ _ _, _ => false

/-- Puts the one part that is there into a record. -/
def settle {ρ α : Type} (set : α → ρ → ρ) (value : ρ) : List (Option α) → Option ρ
  | [] => some value
  | [part] => part.map (set · value)
  | _ => none

mutual

/-- The value that a datum reads as. A lenient reading overlooks empty parts of records. Numbers, truth
values and named values are not told apart in data. -/
def Shape.value? {α : Type} (lenient : Bool) : Shape α → Datum → Option α
  | .text, datum => datum.text?
  | .path, datum => datum.text?.map Path.mk
  | .natural, _ | .boolean, _ | .choice _ _, _ => none
  | .list element, datum => datum.items?.bind fun items => items.mapM fun item => element.value? lenient item
  | .optional content, datum =>
    datum.absent?.bind fun absent => if absent then some none else (content.value? lenient datum).map some
  | .record _ empty fields, datum => datum.entries?.bind fun entries => fields.fill? lenient entries empty
  | .via shape ofWritten _, datum => (shape.value? lenient datum).map ofWritten

/-- Fills the fields of a record in from its entries, each from the only one that spells it. -/
def Fields.fill? {ρ : Type} (lenient : Bool) : Fields ρ → Entries → ρ → Option ρ
  | .done, _, value => some value
  | .field name others _ shape _ set rest, entries, value =>
    let given := (readings (name :: others) entries).filter fun part => !(lenient && shape.isEmpty part)
    (settle set value (given.map fun part => shape.value? lenient part)).bind (rest.fill? lenient entries)

end

mutual

/-- Whether a property holds wherever a record is due. -/
def Shape.every {α : Type} (p : {ρ : Type} → Fields ρ → Datum → Bool) : Shape α → Datum → Bool
  | .list element, datum => datum.items.all fun item => element.every p item
  | .optional content, datum => datum.absent? == some true || content.every p datum
  | .record _ _ fields, datum => p fields datum && fields.every p datum.entries
  | .via shape _ _, datum => shape.every p datum
  | .text, _ | .path, _ | .natural, _ | .boolean, _ | .choice _ _, _ => true

def Fields.every {ρ : Type} (p : {ρ : Type} → Fields ρ → Datum → Bool) : Fields ρ → Entries → Bool
  | .done, _ => true
  | .field name others _ shape _ _ rest, entries =>
    ((readings (name :: others) entries).all fun part => shape.every p part) && rest.every p entries

end

/-- No record is given as the list of its fields. -/
def Shape.mapForm {α : Type} (shape : Shape α) (datum : Datum) : Bool :=
  shape.every (fun _ datum => !datum.isList) datum

/-- No record names a field twice. -/
def Shape.namesOnce {α : Type} (shape : Shape α) (datum : Datum) : Bool :=
  shape.every (fun fields datum =>
    fields.toList.all fun field => (readings field.keys datum.entries).length ≤ 1) datum

theorem mem_readings {keys : List String} {entries : Entries} {part : Datum} :
    part ∈ readings keys entries ↔ ∃ key ∈ keys, (key, part) ∈ entries := by
  simp [readings, and_comm]

theorem Fields.every_iff {ρ : Type} {p : {ρ : Type} → Fields ρ → Datum → Bool} {entries : Entries} :
    (fields : Fields ρ) → (fields.every p entries = true ↔
      ∀ field ∈ fields.toList, ∀ part ∈ readings field.keys entries, field.shape.every p part = true)
  | .done => by simp [Fields.every, Fields.toList]
  | .field name others _ _ _ _ rest => by
    simp [Fields.every, Fields.toList, RecordField.keys, Fields.every_iff rest]

theorem Shape.every_list {α : Type} {p : {ρ : Type} → Fields ρ → Datum → Bool} {datum : Datum}
    {element : Shape α} :
    (Shape.list element).every p datum = true ↔ ∀ item ∈ datum.items, element.every p item = true :=
  List.all_eq_true

theorem Shape.every_optional {α : Type} {p : {ρ : Type} → Fields ρ → Datum → Bool} {datum : Datum}
    {content : Shape α} :
    (Shape.optional content).every p datum = true ↔
      datum.absent? = some true ∨ content.every p datum = true := by
  simp [Shape.every]

theorem Shape.every_record {ρ : Type} {p : {ρ : Type} → Fields ρ → Datum → Bool} {datum : Datum}
    {name : String} {empty : ρ} {fields : Fields ρ} :
    (Shape.record name empty fields).every p datum = true ↔ p fields datum = true ∧
      ∀ field ∈ fields.toList, ∀ part ∈ readings field.keys datum.entries,
        field.shape.every p part = true := by
  rw [Shape.every, Bool.and_eq_true, Fields.every_iff]

/-- One change of a datum that is no change of what it says. An entry is put in front; the entries of a
record may then be put in any order. -/
inductive Shape.Edit : {α : Type} → Shape α → Datum → Datum → Prop
  /-- A key is replaced by another spelling of its field. -/
  | respell {ρ : Type} {name : String} {empty : ρ} {fields : Fields ρ} {field : RecordField ρ}
      {key other : String} {value : Datum} {before behind : Entries} (known : field ∈ fields.toList)
      (spelled : key ∈ field.keys) (respelled : other ∈ field.keys) :
    Edit (.record name empty fields) (.map (before ++ (key, value) :: behind))
      (.map (before ++ (other, value) :: behind))
  | permute {ρ : Type} {name : String} {empty : ρ} {fields : Fields ρ} {entries ordered : Entries}
      (order : entries.Perm ordered) : Edit (.record name empty fields) (.map entries) (.map ordered)
  | addUnknown {ρ : Type} {name : String} {empty : ρ} {fields : Fields ρ} {key : String} {value : Datum}
      {entries : Entries} (unknown : ∀ field ∈ fields.toList, key ∉ field.keys) :
    Edit (.record name empty fields) (.map entries) (.map ((key, value) :: entries))
  | addEmpty {ρ : Type} {name : String} {empty : ρ} {fields : Fields ρ} {field : RecordField ρ} {key : String}
      {value : Datum} {entries : Entries} (known : field ∈ fields.toList)
      (spelled : key ∈ field.keys) (nothing : field.shape.isEmpty value = true) :
    Edit (.record name empty fields) (.map entries) (.map ((key, value) :: entries))
  | part {ρ : Type} {name : String} {empty : ρ} {fields : Fields ρ} {field : RecordField ρ} {key : String}
      {value changed : Datum} {before behind : Entries} (known : field ∈ fields.toList)
      (spelled : key ∈ field.keys) (edit : Edit field.shape value changed) :
    Edit (.record name empty fields) (.map (before ++ (key, value) :: behind))
      (.map (before ++ (key, changed) :: behind))
  | item {α : Type} {element : Shape α} {value changed : Datum} {before behind : List Datum}
      (edit : Edit element value changed) :
    Edit (.list element) (.list (before ++ value :: behind)) (.list (before ++ changed :: behind))
  | content {α : Type} {content : Shape α} {value changed : Datum} (edit : Edit content value changed) :
    Edit (.optional content) value changed
  | via {α β : Type} {shape : Shape α} {ofWritten : α → β} {toWritten : β → α} {value changed : Datum}
      (edit : Edit shape value changed) : Edit (.via shape ofWritten toWritten) value changed

/-- Two data that any number of edits, made or undone, lead from one to the other. -/
def Shape.Respelled {α : Type} (shape : Shape α) : Datum → Datum → Prop := Relation.EqvGen shape.Edit

end PolicyDiagram.Data

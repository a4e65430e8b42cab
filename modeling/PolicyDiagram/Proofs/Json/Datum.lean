import PolicyDiagram.Json.Read
import PolicyDiagram.Proofs.Data.Filling
import PolicyDiagram.Proofs.Outcome

/-! The data of a JSON text. A sound text has data, and its value depends on nothing else. -/

namespace PolicyDiagram.Json

open Data (Datum Entries Leaf Shape Fields RecordField Partial)

/-- A scalar that is neither a text nor null. -/
def other : Leaf := ⟨none, some false, false⟩

mutual

/-- The data of a node that can be passed over. -/
def Node.datum? : Node → Option Datum
  | .mk _ _ (.ok _) content => content.datum?
  | .mk _ _ (.error _) _ => none

def Content.datum? : Content → Option Datum
  | .absent _ => none
  | .name .null none => some (.scalar { other with absent? := some true })
  | .name _ none => some (.scalar other)
  | .name _ (some _) => none
  | .number _ => some (.scalar other)
  | .text value => some (.scalar { other with text? := value.toOption })
  | .list items (.closed _) => (itemData? items).map .list
  | .list _ _ => none
  | .record members (.closed _) => (memberData? members).map .map
  | .record _ _ => none

def itemData? : List Node → Option (List Datum)
  | [] => some []
  | node :: rest => node.datum?.bind fun datum => (itemData? rest).map (datum :: ·)

def memberData? : List Member → Option Entries
  | [] => some []
  | .mk (.ok key) _ _ (.ok node) _ :: rest =>
    node.datum?.bind fun datum => (memberData? rest).map ((key, datum) :: ·)
  | _ :: _ => none

end

/-- The data of a text that holds one value and nothing else. -/
def Bytes.datum? (bytes : Bytes) : Option Datum :=
  match bytes.parse.passing with
  | .error _ => none
  | .ok stop => if bytes.skipBlank stop < bytes.size then none else bytes.parse.datum?

/-- What a value is that has data. -/
inductive Content.Holds : Content → Datum → Prop
  | null : Holds (.name .null none) (.scalar { other with absent? := some true })
  | name {name : Name} (solid : name ≠ .null) : Holds (.name name none) (.scalar other)
  | number {value : Except Fault Number} : Holds (.number value) (.scalar other)
  | text {value : Except Fault String} : Holds (.text value) (.scalar { other with text? := value.toOption })
  | list {nodes : List Node} {bracket : Nat} {items : List Datum} (each : itemData? nodes = some items) :
    Holds (.list nodes (.closed bracket)) (.list items)
  | record {members : List Member} {bracket : Nat} {entries : Entries}
      (each : memberData? members = some entries) :
    Holds (.record members (.closed bracket)) (.map entries)

theorem Content.holds_of_datum? {content : Content} {datum : Datum} (holds : content.datum? = some datum) :
    content.Holds datum := by
  cases content with
  | absent problem => cases holds
  | name name fault =>
    cases fault with
    | some fault => cases name <;> cases holds
    | none =>
      cases name with
      | null => cases holds; exact .null
      | true | false => cases holds; exact .name (by simp)
  | number value => cases holds; exact .number
  | text value => cases holds; exact .text
  | list nodes ending =>
    cases ending with
    | closed bracket =>
      obtain ⟨items, each, rfl⟩ := Option.map_eq_some_iff.mp holds
      exact .list each
    | trailingComma | noComma | cut | cutAfterComma | noKey | leadingComma | broken => cases holds
  | record members ending =>
    cases ending with
    | closed bracket =>
      obtain ⟨entries, each, rfl⟩ := Option.map_eq_some_iff.mp holds
      exact .record each
    | trailingComma | noComma | cut | cutAfterComma | noKey | leadingComma | broken => cases holds

theorem Node.passing_of_datum? {node : Node} {datum : Datum} (holds : node.datum? = some datum) :
    ∃ stop, node.passing = .ok stop := by
  obtain ⟨ahead, spot, passing, content⟩ := node
  cases passing with
  | error fault => cases holds
  | ok stop => exact ⟨stop, rfl⟩

theorem Node.holds_of_datum? {node : Node} {datum : Datum} (holds : node.datum? = some datum) :
    node.content.Holds datum := by
  obtain ⟨ahead, spot, passing, content⟩ := node
  cases passing with
  | error fault => cases holds
  | ok stop => exact Content.holds_of_datum? holds

theorem Node.toOption_refuse {α : Type} (node : Node) (expected : String) :
    (node.refuse expected : Except Fault α).toOption = none := by
  unfold Node.refuse
  cases node.found <;> rfl

theorem Node.toOption_readText {node : Node} {datum : Datum} (holds : node.content.Holds datum)
    (expected : String) : (node.readText expected).toOption = datum.text? := by
  unfold Node.readText
  generalize node.content = content at holds
  cases holds with
  | text => rfl
  | null | name | number | list | record => exact node.toOption_refuse expected

theorem Node.toOption_isNull {node : Node} {datum : Datum} (holds : node.content.Holds datum) :
    node.isNull.toOption = datum.absent? := by
  unfold Node.isNull
  generalize node.content = content at holds
  cases holds with
  | @name name solid => cases name <;> first | rfl | contradiction
  | null | number | text | list | record => rfl

theorem toOption_mapM {α : Type} {read : Node → Except Fault α} {value? : Datum → Option α}
    {nodes : List Node} {items : List Datum} (holds : itemData? nodes = some items)
    (each : ∀ node, ∀ item ∈ items, node.datum? = some item → (read node).toOption = value? item) :
    (nodes.mapM read).toOption = items.mapM value? := by
  induction nodes generalizing items with
  | nil =>
    cases holds
    rfl
  | cons node rest ih =>
    obtain ⟨item, first, holds⟩ := Option.bind_eq_some_iff.mp holds
    obtain ⟨others, remaining, rfl⟩ := Option.map_eq_some_iff.mp holds
    have head := each node item List.mem_cons_self first
    have tail := ih remaining fun node item member => each node item (List.mem_cons_of_mem _ member)
    rw [List.mapM_cons, List.mapM_cons, toOption_bind, head]
    apply Option.bind_congr
    intro value _
    rw [toOption_bind, tail]
    rfl

theorem toOption_readList {bytes : Bytes} {α : Type} {read : Node → Except Fault α}
    {value? : Datum → Option α} {node : Node} {datum : Datum} (holds : node.content.Holds datum)
    (each : ∀ node, ∀ item ∈ datum.items, node.datum? = some item → (read node).toOption = value? item) :
    (readList bytes read node).toOption = datum.items?.bind (·.mapM value?) := by
  unfold readList
  generalize node.content = content at holds
  cases holds with
  | list nodes =>
    have items := toOption_mapM nodes each
    simpa [Ending.listFault] using items
  | null | name | number | text | record => exact node.toOption_refuse "a sequence"

def storeOf {ρ : Type} (bytes : Bytes) (field : RecordField ρ) : Store ρ := fun node value =>
  (read bytes field.shape node).map fun part => field.set part value

theorem slots_eq (bytes : Bytes) {ρ : Type} (fields : Fields ρ) :
    slots bytes fields = fields.toList.map fun field => field.slot (storeOf bytes field) := by
  apply Fields.slots_eq_map
  · rfl
  · intros
    rfl

/-- The value of a shape is read from the data of a node. -/
def ReadsData (bytes : Bytes) {α : Type} (shape : Shape α) : Prop :=
  ∀ node datum, node.datum? = some datum → shape.mapForm datum = true →
    (read bytes shape node).toOption = shape.value? false datum

theorem toOption_readMember {bytes : Bytes} {ρ : Type} {fields : Fields ρ} {key : String} {node : Node}
    {part : Datum} (holds : node.datum? = some part)
    (reads : ∀ field, fields.find? key = some field →
      (read bytes field.shape node).toOption = field.shape.value? false part)
    (afterKey : Nat) (resumed : Spot) (next : Nat) (state : Partial ρ) :
    (readMember (slots bytes fields) state (.mk (.ok key) afterKey resumed (.ok node) next)).toOption =
      fields.enter? state (key, part) := by
  obtain ⟨stop, passing⟩ := Node.passing_of_datum? holds
  unfold readMember Fields.enter?
  rw [slots_eq]
  simp only [Member.key, Member.value, toOption_bind, toOption_ok, Option.bind_some, Fields.find?_slots]
  cases found : fields.find? key with
  | none => simp [passing]
  | some field =>
    have part' := reads field found
    by_cases again : field.name ∈ state.given
    · simp [RecordField.slot, again]
    · simp only [Option.map_some, RecordField.slot, List.contains_eq_mem, again, decide_false,
        Bool.false_eq_true, if_false, storeOf, toOption_bind, toOption_ok, Option.bind_some, toOption_map, part']
      cases field.shape.value? false part <;> rfl

theorem toOption_foldlM {bytes : Bytes} {ρ : Type} {fields : Fields ρ} {members : List Member}
    {entries : Entries} (holds : memberData? members = some entries)
    (reads : ∀ entry ∈ entries, ∀ field, fields.find? entry.1 = some field →
      ∀ node : Node, node.datum? = some entry.2 →
        (read bytes field.shape node).toOption = field.shape.value? false entry.2)
    (state : Partial ρ) : (members.foldlM (readMember (slots bytes fields)) state).toOption =
      entries.foldlM fields.enter? state := by
  -- The state differs from member to member, so the induction is for every state.
  induction members generalizing entries state with
  | nil =>
    cases holds
    rfl
  | cons member rest ih =>
    obtain ⟨key, afterKey, resumed, value, next⟩ := member
    cases key with
    | error fault => cases holds
    | ok key =>
      cases value with
      | error fault => cases holds
      | ok node =>
        obtain ⟨part, first, holds⟩ := Option.bind_eq_some_iff.mp holds
        obtain ⟨others, remaining, rfl⟩ := Option.map_eq_some_iff.mp holds
        have step := toOption_readMember first
          (fun field found => reads (key, part) List.mem_cons_self field found node first)
          afterKey resumed next state
        rw [List.foldlM_cons, List.foldlM_cons, toOption_bind, step]
        apply Option.bind_congr
        intro state _
        exact ih remaining (fun entry member => reads entry (List.mem_cons_of_mem _ member)) state

theorem toOption_readRecord {bytes : Bytes} {ρ : Type} {name : String} {empty : ρ} {fields : Fields ρ}
    (independent : fields.Independent empty) {node : Node} {datum : Datum} (holds : node.content.Holds datum)
    (mapForm : datum.isList = false)
    (reads : ∀ entry ∈ datum.entries, ∀ field, fields.find? entry.1 = some field →
      ∀ node : Node, node.datum? = some entry.2 →
        (read bytes field.shape node).toOption = field.shape.value? false entry.2) :
    (readRecord bytes name empty (slots bytes fields) node).toOption =
      datum.entries?.bind fun entries => fields.fill? false entries empty := by
  unfold readRecord
  generalize node.content = content at holds
  cases holds with
  | record members =>
    have folded := toOption_foldlM members reads ⟨empty, []⟩
    have complete : ∀ given, Data.Slot.missing (slots bytes fields) given = none := by
      rw [slots_eq]
      exact independent.missing_slots (storeOf bytes)
    unfold readMembers
    simp only [toOption_bind, folded, Ending.recordFault, complete, toOption_ok, Datum.entries?_map,
      Option.bind_some, ← independent.fill?_eq_foldlM, Option.map_eq_bind]
    rfl
  | list => cases mapForm
  | null | name | number | text => exact node.toOption_refuse ("struct " ++ name)

/-- A value of a regular shape depends on nothing but the data. -/
theorem inherited_readsData (bytes : Bytes) : Shape.Inherited (ReadsData bytes) where
  text node datum holds _ := Node.toOption_readText (Node.holds_of_datum? holds) "a string"
  path node datum holds _ := by
    simp only [read, toOption_map, Node.toOption_readText (Node.holds_of_datum? holds)]
    rfl
  list element ih node datum holds mapForm := by
    apply toOption_readList (Node.holds_of_datum? holds)
    intro node item member holds
    exact ih node item holds (Shape.every_list.mp mapForm item member)
  optional content ih node datum holds mapForm := by
    simp only [read, toOption_bind, Node.toOption_isNull (Node.holds_of_datum? holds), Shape.value?]
    apply Option.bind_congr
    intro absent known
    cases absent with
    | true => rfl
    | false =>
      have present := (Shape.every_optional.mp mapForm).resolve_left (by simp [known])
      simp [ih node datum holds present]
  record name empty fields independent ih node datum holds mapForm := by
    obtain ⟨own, parts⟩ := Shape.every_record.mp mapForm
    apply toOption_readRecord independent (Node.holds_of_datum? holds) (by simpa using own)
    intro entry member field found node holds
    obtain ⟨known, spelled⟩ := independent.find?_eq_some.mp found
    exact ih field known node entry.2 holds
      (parts field known entry.2 (Data.mem_readings.mpr ⟨entry.1, spelled, member⟩))
  via shape ofWritten toWritten ih node datum holds mapForm := by
    simp only [read, toOption_map, ih node datum holds mapForm]
    rfl

/-- A text with data decodes as what its data reads as. -/
theorem toOption_decode {α : Type} {shape : Shape α} (regular : shape.Regular) (source : Source)
    {bytes : Bytes} {datum : Datum} (holds : bytes.datum? = some datum) (mapForm : shape.mapForm datum = true) :
    (decode source shape bytes).toOption = shape.value? false datum := by
  unfold Bytes.datum? at holds
  cases passing : bytes.parse.passing with
  | error fault => simp [passing] at holds
  | ok stop =>
    by_cases followed : bytes.skipBlank stop < bytes.size
    · simp [passing, followed] at holds
    · simp only [passing, followed, if_false] at holds
      have value := (inherited_readsData bytes).holds shape regular bytes.parse datum holds mapForm
      simp [decode, readAll, value, passing, followed]

end PolicyDiagram.Json

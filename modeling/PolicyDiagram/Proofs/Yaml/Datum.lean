import PolicyDiagram.Yaml.Read
import PolicyDiagram.Proofs.Data.Filling
import PolicyDiagram.Proofs.Outcome

/-! The data of a YAML stream. A stream without aliases has data, and its value depends on nothing else. -/

namespace PolicyDiagram.Yaml

open Data (Datum Entries Leaf Shape Fields RecordField Partial)

def Scalar.leaf (scalar : Scalar) : Leaf where
  text? := some scalar.text
  absent? := scalar.isAbsent.toOption
  bare := scalar.isBare

mutual

/-- The data of a node. An alias has none, and neither has what the document breaks off in. -/
def Node.datum? : Node → Option Datum
  | .scalar _ scalar => some (.scalar scalar.leaf)
  | .sequence _ _ items true => (itemData? items).map .list
  | .sequence _ _ _ false => none
  | .mapping _ _ entries true => (entryData? entries).map .map
  | .mapping _ _ _ false => none
  | .alias _ | .nothing _ | .cut => none

def itemData? : List Node → Option (List Datum)
  | [] => some []
  | node :: rest => node.datum?.bind fun datum => (itemData? rest).map (datum :: ·)

def entryData? : List (Node × Node) → Option Entries
  | [] => some []
  | (.scalar _ key, node) :: rest =>
    node.datum?.bind fun datum => (entryData? rest).map ((key.text, datum) :: ·)
  | _ :: _ => none

end

/-- The data of a stream of one sound document. -/
def datum? (bytes : ByteArray) : Option Datum :=
  let content := Content.ofBytes bytes
  if content.fault.isSome || content.followed then none else content.root.datum?

/-- What a node is that has data. -/
inductive Node.Holds : Node → Datum → Prop
  | scalar {mark : Mark} {scalar : Scalar} : Holds (.scalar mark scalar) (.scalar scalar.leaf)
  | sequence {mark : Mark} {tag : Option Tag} {nodes : List Node} {items : List Datum}
      (each : itemData? nodes = some items) : Holds (.sequence mark tag nodes true) (.list items)
  | mapping {mark : Mark} {tag : Option Tag} {nodes : List (Node × Node)} {entries : Entries}
      (each : entryData? nodes = some entries) : Holds (.mapping mark tag nodes true) (.map entries)

theorem Node.holds_of_datum? {node : Node} {datum : Datum} (holds : node.datum? = some datum) :
    node.Holds datum := by
  cases node with
  | scalar mark scalar => cases holds; exact .scalar
  | sequence mark tag nodes whole =>
    cases whole with
    | false => cases holds
    | true =>
      obtain ⟨items, each, rfl⟩ := Option.map_eq_some_iff.mp holds
      exact .sequence each
  | mapping mark tag nodes whole =>
    cases whole with
    | false => cases holds
    | true =>
      obtain ⟨entries, each, rfl⟩ := Option.map_eq_some_iff.mp holds
      exact .mapping each
  | «alias» | nothing | cut => cases holds

/-- A reading gives an answer, or fails if there is none, and follows no alias. -/
def Gives {α : Type} (reading : Reading α) (answer : Option α) : Prop :=
  ∀ count, (reading count).toOption = answer.map (·, count)

theorem gives_pure {α : Type} (a : α) : Gives (pure a) (some a) := fun _ => rfl

theorem gives_fail {α : Type} (problem : Data.Mismatch) : Gives (fail problem : Reading α) none :=
  fun _ => rfl

theorem Gives.bind {α β : Type} {first : Reading α} {answer : Option α} (gives : Gives first answer)
    {rest : α → Reading β} {answers : α → Option β}
    (next : ∀ a, answer = some a → Gives (rest a) (answers a)) :
    Gives (first >>= rest) (answer.bind answers) := by
  intro count
  have step : ((first >>= rest) count).toOption =
      (first count).toOption.bind fun result => (rest result.1 result.2).toOption :=
    toOption_bind (first count) fun result => rest result.1 result.2
  rw [step, gives count]
  cases answer with
  | none => rfl
  | some a => exact next a rfl count

theorem Gives.map {α β : Type} {reading : Reading α} {answer : Option α} (gives : Gives reading answer)
    (f : α → β) : Gives (f <$> reading) (answer.map f) := by
  rw [map_eq_pure_bind, Option.map_eq_bind]
  exact gives.bind fun a _ => gives_pure (f a)

theorem Gives.locate {α : Type} {reading : Reading α} {answer : Option α} (gives : Gives reading answer)
    (mark : Mark) (trail : Trail) : Gives (locate mark trail reading) answer := by
  intro count
  rw [Yaml.locate, toOption_mapError]
  exact gives count

theorem Node.Holds.resolve {node : Node} {datum : Datum} (holds : node.Holds datum) (content : Content) :
    resolve content node = pure node := by
  cases holds <;> rfl

theorem gives_refuse {α : Type} {node : Node} {datum : Datum} (holds : node.Holds datum) (content : Content)
    (trail : Trail) (expected : String) : Gives (refuse content trail expected node : Reading α) none := by
  cases holds with
  | @scalar mark scalar =>
    unfold refuse
    apply Gives.locate
    cases scalar.found with
    | ok found => exact gives_fail _
    | error problem => exact gives_fail problem
  | sequence | mapping => exact (gives_fail _).locate _ trail

theorem gives_readText {node : Node} {datum : Datum} (holds : node.Holds datum) (content : Content)
    (trail : Trail) (expected : String) : Gives (readText content trail expected node) datum.text? := by
  have refused := gives_refuse (α := String) holds content trail expected
  cases holds with
  | scalar => exact gives_pure _
  | sequence | mapping => exact refused

theorem gives_readAbsent {node : Node} {datum : Datum} (holds : node.Holds datum) (content : Content) :
    Gives (readAbsent content node) datum.absent? := by
  cases holds with
  | @scalar mark scalar =>
    unfold readAbsent
    cases absent : scalar.isAbsent with
    | ok value => simpa [Datum.absent?, Scalar.leaf, absent] using gives_pure value
    | error problem => simpa [Datum.absent?, Scalar.leaf, absent] using gives_fail problem
  | sequence | mapping => exact gives_pure false

theorem gives_pass {node : Node} {datum : Datum} (holds : node.Holds datum) (content : Content) :
    Gives (pass content node) (some ()) := by
  cases holds <;> exact gives_pure ()

theorem gives_readItems {α : Type} {element : Trail → Node → Reading α} {value? : Datum → Option α}
    (each : ∀ node item trail, node.datum? = some item → Gives (element trail node) (value? item))
    {nodes : List Node} {items : List Datum} (holds : itemData? nodes = some items) (trail : Trail)
    (position : Nat) : Gives (readItems element trail nodes position) (items.mapM value?) := by
  induction nodes generalizing items position with
  | nil =>
    cases holds
    exact gives_pure []
  | cons node rest ih =>
    obtain ⟨item, first, holds⟩ := Option.bind_eq_some_iff.mp holds
    obtain ⟨others, remaining, rfl⟩ := Option.map_eq_some_iff.mp holds
    rw [List.mapM_cons]
    apply (each node item (.index position :: trail) first).bind
    intro value _
    apply (ih remaining (position + 1)).bind
    intro values _
    exact gives_pure (value :: values)

theorem gives_readList {α : Type} {element : Trail → Node → Reading α} {value? : Datum → Option α}
    (each : ∀ node item trail, node.datum? = some item → Gives (element trail node) (value? item))
    {node : Node} {datum : Datum} (holds : node.Holds datum) (content : Content) (trail : Trail) :
    Gives (readList content trail element node) (datum.items?.bind (·.mapM value?)) := by
  have refused := gives_refuse (α := List α) holds content trail "a sequence"
  unfold readList
  rw [holds.resolve, pure_bind]
  cases holds with
  | @scalar mark scalar =>
    cases bare : scalar.isBare with
    | true => simpa [Datum.items?, Scalar.leaf, bare] using gives_pure []
    | false => simpa [Datum.items?, Scalar.leaf, bare] using refused
  | sequence nodes => exact (gives_readItems each nodes trail 0).locate _ trail
  | mapping => exact refused

def storeOf {ρ : Type} (content : Content) (field : RecordField ρ) : Store ρ := fun trail node value =>
  (fun part => field.set part value) <$> read content field.shape trail node

theorem slots_eq (content : Content) {ρ : Type} (fields : Fields ρ) :
    slots content fields = fields.toList.map fun field => field.slot (storeOf content field) := by
  apply Fields.slots_eq_map
  · rfl
  · intros
    rfl

/-- The value of a shape is read from the data of a node. -/
def ReadsData (content : Content) {α : Type} (shape : Shape α) : Prop :=
  ∀ node datum trail, node.datum? = some datum →
    Gives (read content shape trail node) (shape.value? false datum)

theorem gives_readEntry {content : Content} {ρ : Type} {fields : Fields ρ}
    (reads : ∀ field ∈ fields.toList, ReadsData content field.shape)
    {node : Node} {part : Datum} (holds : node.datum? = some part) (mark : Mark) (key : Scalar)
    (trail : Trail) (state : Partial ρ) :
    Gives (readEntry content trail (slots content fields) state (.scalar mark key, node))
      (fields.enter? state (key.text, part)) := by
  unfold readEntry Fields.enter?
  rw [slots_eq]
  simp only [readText, resolve, pure_bind, Fields.find?_slots]
  cases found : fields.find? key.text with
  | none =>
    have passed := (gives_pass (Node.holds_of_datum? holds) content).bind fun _ _ => gives_pure state
    exact passed
  | some field =>
    by_cases again : field.name ∈ state.given
    · simpa [RecordField.slot, again] using gives_fail _
    · have known := List.mem_of_find?_eq_some found
      have value := reads field known node part (stepOf (.scalar mark key) :: trail) holds
      have stored := value.map fun part =>
        Partial.mk (field.set part state.value) (field.name :: state.given)
      simpa [RecordField.slot, storeOf, again] using stored

theorem gives_foldlM {content : Content} {ρ : Type} {fields : Fields ρ}
    (reads : ∀ field ∈ fields.toList, ReadsData content field.shape) {nodes : List (Node × Node)}
    {entries : Entries} (holds : entryData? nodes = some entries) (trail : Trail)
    (state : Partial ρ) : Gives (nodes.foldlM (readEntry content trail (slots content fields)) state)
      (entries.foldlM fields.enter? state) := by
  induction nodes generalizing entries state with
  | nil =>
    cases holds
    exact gives_pure state
  | cons entry rest ih =>
    obtain ⟨key, node⟩ := entry
    cases key with
    | scalar mark key =>
      obtain ⟨part, first, holds⟩ := Option.bind_eq_some_iff.mp holds
      obtain ⟨others, remaining, rfl⟩ := Option.map_eq_some_iff.mp holds
      rw [List.foldlM_cons, List.foldlM_cons]
      apply (gives_readEntry reads first mark key trail state).bind
      exact fun state _ => ih remaining state
    | sequence | mapping | «alias» | nothing | cut => cases holds

theorem gives_readEntries {content : Content} {ρ : Type} {fields : Fields ρ} {empty : ρ}
    (independent : fields.Independent empty) (reads : ∀ field ∈ fields.toList, ReadsData content field.shape)
    {nodes : List (Node × Node)} {entries : Entries} (holds : entryData? nodes = some entries)
    (trail : Trail) : Gives (readEntries content trail empty (slots content fields) nodes)
      (fields.fill? false entries empty) := by
  have complete : ∀ given, Data.Slot.missing (slots content fields) given = none := by
    rw [slots_eq]
    exact independent.missing_slots (storeOf content)
  rw [← independent.fill?_eq_foldlM, Option.map_eq_bind]
  unfold readEntries
  apply (gives_foldlM reads holds trail ⟨empty, []⟩).bind
  intro state _
  rw [complete]
  exact gives_pure state.value

theorem gives_readRecord {content : Content} {ρ : Type} {name : String} {empty : ρ} {fields : Fields ρ}
    (independent : fields.Independent empty) (reads : ∀ field ∈ fields.toList, ReadsData content field.shape)
    {node : Node} {datum : Datum} (holds : node.Holds datum) (trail : Trail) :
    Gives (readRecord content trail name empty (slots content fields) node)
      (datum.entries?.bind fun entries => fields.fill? false entries empty) := by
  have refused := gives_refuse (α := ρ) holds content trail ("struct " ++ name)
  unfold readRecord
  rw [holds.resolve, pure_bind]
  cases holds with
  | @scalar mark scalar =>
    cases bare : scalar.isBare with
    | true =>
      have nothing : Gives (readEntries content trail empty (slots content fields) []) _ :=
        gives_readEntries independent reads rfl trail
      simpa [Datum.entries?, Scalar.leaf, bare] using nothing.locate mark trail
    | false => simpa [Datum.entries?, Scalar.leaf, bare] using refused
  | sequence => exact refused
  | mapping nodes => exact (gives_readEntries independent reads nodes trail).locate _ trail

/-- A value of a regular shape depends on nothing but the data. -/
theorem inherited_readsData (content : Content) : Data.Shape.Inherited (ReadsData content) where
  text node datum trail holds := gives_readText (Node.holds_of_datum? holds) content trail "a string"
  path node datum trail holds :=
    (gives_readText (Node.holds_of_datum? holds) content trail "path string").map Path.mk
  list element ih node datum trail holds :=
    gives_readList (fun node item trail => ih node item trail) (Node.holds_of_datum? holds) content trail
  optional inner ih node datum trail holds := by
    have same := Node.holds_of_datum? holds
    unfold read
    rw [same.resolve, pure_bind]
    apply (gives_readAbsent same content).bind
    intro absent _
    cases absent with
    | true => exact gives_pure none
    | false => exact (ih node datum trail holds).map some
  record name empty fields independent ih node datum trail holds :=
    gives_readRecord independent ih (Node.holds_of_datum? holds) trail
  via shape ofWritten toWritten ih node datum trail holds := (ih node datum trail holds).map ofWritten

/-- A stream with data decodes as what its data reads as. -/
theorem toOption_decode {α : Type} {shape : Shape α} (regular : shape.Regular) {bytes : ByteArray}
    {datum : Datum} (holds : datum? bytes = some datum) :
    (decode shape bytes).toOption = shape.value? false datum := by
  unfold datum? at holds
  by_cases unsound : (Content.ofBytes bytes).fault.isSome = true ∨ (Content.ofBytes bytes).followed = true
  · simp [unsound] at holds
  · simp only [Bool.or_eq_true, unsound, if_false] at holds
    obtain ⟨sound, only⟩ := not_or.mp unsound
    have value := (inherited_readsData (Content.ofBytes bytes)).holds shape regular _ datum [] holds 0
    unfold decode
    simp only [toOption_bind, StateT.run, value, sound, only, if_false, Bool.false_eq_true]
    cases shape.value? false datum <;> rfl

end PolicyDiagram.Yaml

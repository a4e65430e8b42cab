import PolicyDiagram.Data.Slot

/-! Shapes that lose nothing. Writers leave fields out and readers accept more than one spelling, so a
shape recovers a value only if what is written determines it and no field answers to the name of another. What
reads a value back is told for any monad, entry by entry, so every format has to tell only how it takes one entry
in. -/

namespace PolicyDiagram.Data

/-- The names of the fields, each with its other spellings. -/
@[simp]
def Fields.spellings {ρ : Type} : Fields ρ → List (String × List String)
  | .done => []
  | .field name others _ _ _ _ rest => (name, others) :: rest.spellings

/-- No field is spelled like a later one. -/
def Fields.Distinct {ρ : Type} (fields : Fields ρ) : Prop :=
  fields.spellings.Pairwise fun earlier later => earlier.1 ≠ later.1 ∧ later.1 ∉ earlier.2

/-- Whether a field is left out of the data of a record. -/
def isElided {α : Type} (presence : Presence) (shape : Shape α) (part : α) : Bool :=
  presence == .elided && (shape.write part).isNull

/-- Puts those fields of a value that are written into another value. -/
@[simp]
def Fields.restore {ρ : Type} : Fields ρ → ρ → ρ → ρ
  | .done, _, state => state
  | .field _ _ presence shape get set rest, value, state =>
    rest.restore value (if isElided presence shape (get value) then state else set (get value) state)

mutual

/-- What is written for a value determines it. -/
@[simp]
def Shape.Recovers {α : Type} : Shape α → α → Prop
  | .text, _ | .path, _ | .natural, _ | .boolean, _ => True
  | .choice variants nameOf, value => variants.lookup (nameOf value) = some value
  | .list element, values => ∀ value ∈ values, element.Recovers value
  | .optional content, value => ∀ part ∈ value, content.Recovers part ∧ content.write part ≠ .null
  | .record _ empty fields, value =>
    fields.Distinct ∧ fields.Recovers value ∧ fields.restore value empty = value
  | .via shape ofWritten toWritten, value =>
    shape.Recovers (toWritten value) ∧ ofWritten (toWritten value) = value

/-- What is written for the fields of a value determines them. -/
@[simp]
def Fields.Recovers {ρ : Type} : Fields ρ → ρ → Prop
  | .done, _ => True
  | .field _ _ _ shape get _ rest, value => shape.Recovers (get value) ∧ rest.Recovers value

end

theorem Fields.write_field {ρ α : Type} (name : String) (others : List String) (presence : Presence)
    (shape : Shape α) (get : ρ → α) (set : α → ρ → ρ) (rest : Fields ρ) (value : ρ) :
    (Fields.field name others presence shape get set rest).write value =
      if isElided presence shape (get value) then rest.write value
      else (name, shape.write (get value)) :: rest.write value := by
  simp [Fields.write, isElided]

theorem Fields.distinct_field {ρ α : Type} {name : String} {others : List String}
    {presence : Presence} {shape : Shape α} {get : ρ → α} {set : α → ρ → ρ} {rest : Fields ρ} :
    (Fields.field name others presence shape get set rest).Distinct ↔
      (∀ later ∈ rest.spellings, name ≠ later.1 ∧ later.1 ∉ others) ∧ rest.Distinct := by
  simp [Fields.Distinct, Fields.spellings]

namespace Slot

theorem answers_name {σ : Type} (slot : Slot σ) : slot.answers slot.name = true := by
  simp [answers]

theorem find?_name {σ : Type} {earlier : List (Slot σ)} {slot : Slot σ} (later : List (Slot σ))
    (apart : ∀ other ∈ earlier, other.answers slot.name = false) :
    (earlier ++ slot :: later).find? (·.answers slot.name) = some slot := by
  have none_before : earlier.find? (·.answers slot.name) = none := by simpa using apart
  simp [List.find?_append, none_before, answers_name]

theorem missing_eq_none {σ : Type} {slots : List (Slot σ)} {given : List String}
    (filled : ∀ slot ∈ slots, slot.presence = .required → slot.name ∈ given) :
    missing slots given = none := by
  simpa [missing] using filled

end Slot

/-- Fields that are still to be read: no slot before them answers to their names, and none of them has been
given. -/
structure Fields.Awaited {ρ σ : Type} (fields : Fields ρ) (earlier : List (Slot σ)) (given : List String) :
    Prop where
  distinct : fields.Distinct
  apart : ∀ slot ∈ earlier, ∀ field ∈ fields.spellings, slot.answers field.1 = false
  fresh : ∀ field ∈ fields.spellings, field.1 ∉ given

theorem Fields.Awaited.of_given {ρ σ : Type} {fields : Fields ρ} {earlier : List (Slot σ)} {name : String}
    {given : List String} (awaited : fields.Awaited earlier (name :: given)) : fields.Awaited earlier given :=
  ⟨awaited.distinct, awaited.apart,
    fun field member listed => awaited.fresh field member (List.mem_cons_of_mem name listed)⟩

section Field

variable {ρ σ α : Type} {name : String} {others : List String} {presence : Presence} {shape : Shape α}
  {get : ρ → α} {set : α → ρ → ρ} {rest : Fields ρ} {earlier : List (Slot σ)} {given : List String}

theorem Fields.Awaited.name_apart
    (awaited : (Fields.field name others presence shape get set rest).Awaited earlier given) :
    (∀ slot ∈ earlier, slot.answers name = false) ∧ name ∉ given :=
  ⟨fun slot member => awaited.apart slot member (name, others) (by simp),
    awaited.fresh (name, others) (by simp)⟩

theorem Fields.Awaited.behind
    (awaited : (Fields.field name others presence shape get set rest).Awaited earlier given) (store : σ) :
    rest.Awaited (earlier ++ [⟨name, others, presence, store⟩]) (name :: given) := by
  obtain ⟨own, distinct⟩ := Fields.distinct_field.mp awaited.distinct
  refine ⟨distinct, fun slot member field later => ?_, fun field later => ?_⟩
  · rcases List.mem_append.mp member with before | this
    · exact awaited.apart slot before field (by simp [later])
    · obtain rfl := List.mem_singleton.mp this
      simp [Slot.answers, own field later]
  · have apart := (own field later).1
    simp only [List.mem_cons, not_or]
    exact ⟨apart.symm, awaited.fresh field (by simp [later])⟩

theorem not_required_of_elided {part : α} (elided : isElided presence shape part = true) :
    presence ≠ .required := by
  rintro rfl
  simp [isElided] at elided

end Field

section Reading

variable {m : Type → Type} [Monad m]

/-- Every node that spells a value of the shape is read as that value. -/
def Shape.ReadBy {ν α : Type} (spells : Tree → ν → Prop) (read : ν → m α) (shape : Shape α) : Prop :=
  ∀ value node, shape.Recovers value → spells (shape.write value) node → read node = pure value

/-- Entries that spell a value fill its fields in, one after the other. -/
def Fields.FilledBy {ρ β σ : Type} (spells : List (String × Tree) → List β → Prop)
    (enter : List (Slot σ) → Partial ρ → β → m (Partial ρ)) (slots : List (Slot σ)) (fields : Fields ρ) : Prop :=
  ∀ (value state : ρ) entries earlier given, fields.Recovers value → fields.Awaited earlier given →
    spells (fields.write value) entries →
    ∃ named, entries.foldlM (enter (earlier ++ slots)) ⟨state, given⟩ =
        pure ⟨fields.restore value state, named⟩ ∧
      (∀ name ∈ given, name ∈ named) ∧
      ∀ slot ∈ slots, slot.presence = .required → slot.name ∈ named

variable {ρ β σ : Type} {spells : List (String × Tree) → List β → Prop}
  {enter : List (Slot σ) → Partial ρ → β → m (Partial ρ)} {slots : List (Slot σ)}

theorem Fields.FilledBy.record {name : String} {empty value : ρ} {fields : Fields ρ} {entries : List β}
    (filled : fields.FilledBy spells enter slots) (recovers : (Shape.record name empty fields).Recovers value)
    (spelled : spells (fields.write value) entries) :
    ∃ named, entries.foldlM (enter slots) ⟨empty, []⟩ = pure ⟨value, named⟩ ∧
      Slot.missing slots named = none := by
  obtain ⟨distinct, recovered, restored⟩ := recovers
  obtain ⟨named, folded, -, whole⟩ :=
    filled value empty entries [] [] recovered ⟨distinct, by simp, by simp⟩ spelled
  rw [List.nil_append, restored] at folded
  exact ⟨named, folded, Slot.missing_eq_none whole⟩

variable [LawfulMonad m]

theorem Shape.ReadBy.via {ν α β : Type} {spells : Tree → ν → Prop} {read : ν → m α} {shape : Shape α}
    (inner : shape.ReadBy spells read) (ofWritten : α → β) (toWritten : β → α) :
    (Shape.via shape ofWritten toWritten).ReadBy spells fun node => ofWritten <$> read node := by
  intro value node recovers spelled
  obtain ⟨recovered, back⟩ := recovers
  simp [inner (toWritten value) node recovered spelled, back]

theorem Shape.ReadBy.optional {ν α : Type} {spells : Tree → ν → Prop} {read : ν → m α} {shape : Shape α}
    (inner : shape.ReadBy spells read) {isNull : ν → m Bool}
    (null : ∀ node, spells .null node → isNull node = pure true)
    (present : ∀ tree node, spells tree node → tree ≠ .null → isNull node = pure false) :
    (Shape.optional shape).ReadBy spells
      (fun node => do if ← isNull node then pure none else some <$> read node) := by
  intro value node recovers spelled
  cases value with
  | none => simp [null node spelled]
  | some part =>
    obtain ⟨recovered, shown⟩ := recovers part rfl
    simp [present _ node spelled shown, inner part node recovered spelled]

/-- What spells a field and the ones behind it has to begin with an entry that the slot of the field takes in. -/
theorem Fields.FilledBy.field {α : Type} {name : String} {others : List String} {presence : Presence}
    {shape : Shape α} {get : ρ → α} {set : α → ρ → ρ} {rest : Fields ρ} {store : σ}
    (remaining : rest.FilledBy spells enter slots)
    (taken : ∀ value state entries earlier given, shape.Recovers (get value) →
      (∀ slot ∈ earlier, slot.answers name = false) → name ∉ given →
      spells ((name, shape.write (get value)) :: rest.write value) entries →
      ∃ entry tail, entries = entry :: tail ∧ spells (rest.write value) tail ∧
        enter (earlier ++ ⟨name, others, presence, store⟩ :: slots) ⟨state, given⟩ entry =
          pure ⟨set (get value) state, name :: given⟩) :
    (Fields.field name others presence shape get set rest).FilledBy spells enter
      (⟨name, others, presence, store⟩ :: slots) := by
  intro value state entries earlier given recovers awaited spelled
  let slot : Slot σ := ⟨name, others, presence, store⟩
  have joined : earlier ++ [slot] ++ slots = earlier ++ slot :: slots := by simp
  have behind := awaited.behind store
  rw [Fields.write_field] at spelled
  -- A field that is left out is none that the record needs, and its slot is passed over.
  by_cases elided : isElided presence shape (get value) = true
  · rw [if_pos elided] at spelled
    obtain ⟨named, folded, kept, filled⟩ :=
      remaining value state entries (earlier ++ [slot]) given recovers.2 behind.of_given spelled
    rw [joined] at folded
    refine ⟨named, by simpa [Fields.restore, elided] using folded, kept, ?_⟩
    intro other member required
    rcases List.mem_cons.mp member with rfl | later
    · exact absurd required (not_required_of_elided elided)
    · exact filled other later required
  · rw [if_neg elided] at spelled
    obtain ⟨entry, tail, rfl, others', first⟩ := taken value state entries earlier given recovers.1
      awaited.name_apart.1 awaited.name_apart.2 spelled
    obtain ⟨named, folded, kept, filled⟩ := remaining value (set (get value) state) tail
      (earlier ++ [slot]) (name :: given) recovers.2 behind others'
    refine ⟨named, ?_, fun n member => kept n (by simp [member]), ?_⟩
    · rw [joined] at folded
      rw [List.foldlM_cons, first]
      simpa [Fields.restore, elided] using folded
    · intro other member required
      rcases List.mem_cons.mp member with rfl | later
      · exact kept name (by simp)
      · exact filled other later required

end Reading

end PolicyDiagram.Data

import PolicyDiagram.Proofs.Data.Faithful
import PolicyDiagram.Proofs.Data.Regular

/-! Entry by entry or field by field. A reader that takes the entries of a record in as they come, and refuses
a field that it has been given, fills each field in from the only entry that spells it. -/

namespace PolicyDiagram.Data

variable {ρ : Type} {fields : Fields ρ} {empty : ρ}

/-- What the entries of a record give for a field. -/
def RecordField.parts (lenient : Bool) (entries : Entries) (field : RecordField ρ) : List (Option field.Part) :=
  ((readings field.keys entries).filter fun part => !(lenient && field.shape.isEmpty part)).map fun part =>
    field.shape.value? lenient part

def RecordField.fill? (lenient : Bool) (entries : Entries) (value : ρ) (field : RecordField ρ) : Option ρ :=
  settle field.set value (field.parts lenient entries)

theorem Fields.fill?_eq (lenient : Bool) (entries : Entries) : (fields : Fields ρ) → ∀ value,
    fields.fill? lenient entries value = fields.toList.foldlM (RecordField.fill? lenient entries) value
  | .done, value => rfl
  | .field name others presence shape get set rest, value => by
    simp only [Fields.fill?, Fields.toList, List.foldlM_cons, Option.bind_eq_bind]
    apply Option.bind_congr
    intro filled _
    exact rest.fill?_eq lenient entries filled

theorem foldlM_congr {α : Type 1} {β : Type} {l : List α} {f g : β → α → Option β}
    (same : ∀ a ∈ l, ∀ b, f b a = g b a) (b : β) : l.foldlM f b = l.foldlM g b := by
  induction l generalizing b with
  | nil => rfl
  | cons a rest ih =>
    rw [List.foldlM_cons, List.foldlM_cons, same a List.mem_cons_self]
    apply Option.bind_congr
    intro next _
    exact ih (fun other member => same other (List.mem_cons_of_mem a member)) next

theorem mapM_congr {α β : Type} {l : List α} {f g : α → Option β} (same : ∀ a ∈ l, f a = g a) :
    l.mapM f = l.mapM g := by
  induction l with
  | nil => rfl
  | cons a rest ih =>
    rw [List.mapM_cons, List.mapM_cons, same a List.mem_cons_self,
      ih fun other member => same other (List.mem_cons_of_mem a member)]

theorem readings_cons (keys : List String) (key : String) (part : Datum) (entries : Entries) :
    readings keys ((key, part) :: entries) =
      if key ∈ keys then part :: readings keys entries else readings keys entries := by
  unfold readings
  by_cases spelled : key ∈ keys <;> simp [spelled]

theorem Fields.Independent.unique (independent : fields.Independent empty) {first second : RecordField ρ}
    (known : first ∈ fields.toList) (other : second ∈ fields.toList) {key : String}
    (spelled : key ∈ first.keys) (also : key ∈ second.keys) : first = second := by
  have : Std.Symm fun first second : RecordField ρ => ∀ key ∈ first.keys, key ∉ second.keys :=
    ⟨fun _ _ apart key there here => apart key here there⟩
  apply Classical.byContradiction
  intro different
  exact independent.apart.forall known other different key spelled also

theorem readings_eq_nil {keys : List String} {entries : Entries} :
    readings keys entries = [] ↔ ∀ entry ∈ entries, entry.1 ∉ keys := by
  simp [readings]

theorem RecordField.fill?_cons_of_notMem {field : RecordField ρ} {key : String} (foreign : key ∉ field.keys)
    (lenient : Bool) (part : Datum) (entries : Entries) (value : ρ) :
    field.fill? lenient ((key, part) :: entries) value = field.fill? lenient entries value := by
  unfold RecordField.fill? RecordField.parts
  rw [readings_cons, if_neg foreign]

theorem Fields.fill?_cons_of_unknown {key : String} (unknown : ∀ field ∈ fields.toList, key ∉ field.keys)
    (lenient : Bool) (part : Datum) (entries : Entries) (value : ρ) :
    fields.fill? lenient ((key, part) :: entries) value = fields.fill? lenient entries value := by
  rw [Fields.fill?_eq, Fields.fill?_eq]
  apply foldlM_congr
  intro field known value
  exact RecordField.fill?_cons_of_notMem (unknown field known) lenient part entries value

theorem Fields.fill?_nil (lenient : Bool) (fields : Fields ρ) (value : ρ) :
    fields.fill? lenient [] value = some value := by
  rw [Fields.fill?_eq]
  induction fields.toList with
  | nil => rfl
  | cons field rest ih => rw [List.foldlM_cons]; exact ih

/-- What does not touch a field may be done after the field is stored. -/
theorem settle_of_commute {α : Type} {set : α → ρ → ρ} {change : ρ → ρ}
    (commute : ∀ part value, set part (change value) = change (set part value)) (value : ρ)
    (parts : List (Option α)) : settle set (change value) parts = (settle set value parts).map change := by
  cases parts with
  | nil => rfl
  | cons part rest =>
    cases rest with
    | nil => cases part <;> simp [settle, commute]
    | cons _ _ => rfl

theorem foldlM_of_commute {others : List (RecordField ρ)} {change : ρ → ρ}
    (commute : ∀ other ∈ others, ∀ part value, other.set part (change value) = change (other.set part value))
    (lenient : Bool) (entries : Entries) (value : ρ) :
    others.foldlM (RecordField.fill? lenient entries) (change value) =
      (others.foldlM (RecordField.fill? lenient entries) value).map change := by
  induction others generalizing value with
  | nil => rfl
  | cons other rest ih =>
    have stored : other.fill? lenient entries (change value) =
        (other.fill? lenient entries value).map change :=
      settle_of_commute (commute other List.mem_cons_self) value (other.parts lenient entries)
    rw [List.foldlM_cons, List.foldlM_cons, stored]
    cases other.fill? lenient entries value with
    | none => rfl
    | some next => exact ih (fun other member => commute other (List.mem_cons_of_mem _ member)) next

/-- The first entry of a record is taken in at once, unless its field comes again. -/
theorem Fields.Independent.fill?_cons_of_mem (independent : fields.Independent empty) {field : RecordField ρ}
    (known : field ∈ fields.toList) {key : String} (spelled : key ∈ field.keys) (part : Datum)
    (entries : Entries) (value : ρ) :
    fields.fill? false ((key, part) :: entries) value =
      if readings field.keys entries = [] then
        (field.shape.value? false part).bind fun taken => fields.fill? false entries (field.set taken value)
      else none := by
  -- The fields on both sides of this one pass the entry over, and those before it commute with storing it.
  obtain ⟨before, behind, split⟩ := List.append_of_mem known
  have apart := independent.apart
  have commute := independent.commute
  rw [split, List.pairwise_append, List.pairwise_cons] at apart commute
  have earlier : ∀ value, before.foldlM (RecordField.fill? false ((key, part) :: entries)) value =
      before.foldlM (RecordField.fill? false entries) value := by
    apply foldlM_congr
    intro other member value
    apply RecordField.fill?_cons_of_notMem
    intro there
    exact apart.2.2 other member field List.mem_cons_self key there spelled
  have later : ∀ value, behind.foldlM (RecordField.fill? false ((key, part) :: entries)) value =
      behind.foldlM (RecordField.fill? false entries) value := by
    apply foldlM_congr
    intro other member value
    apply RecordField.fill?_cons_of_notMem
    exact apart.2.1.1 other member key spelled
  have moved : ∀ taken value, before.foldlM (RecordField.fill? false entries) (field.set taken value) =
      (before.foldlM (RecordField.fill? false entries) value).map (field.set taken) := by
    intro taken value
    apply foldlM_of_commute
    intro other member part value
    exact commute.2.2 other member field List.mem_cons_self part taken value
  simp only [Fields.fill?_eq, split, List.foldlM_append, List.foldlM_cons, earlier, later, moved,
    Option.bind_eq_bind]
  by_cases once : readings field.keys entries = []
  · cases read : field.shape.value? false part <;>
      cases before.foldlM (RecordField.fill? false entries) value <;>
        simp [RecordField.fill?, RecordField.parts, readings_cons, spelled, once, settle, read]
  · obtain ⟨again, rest, more⟩ := List.exists_cons_of_ne_nil once
    cases before.foldlM (RecordField.fill? false entries) value <;>
      simp [RecordField.fill?, RecordField.parts, readings_cons, spelled, more, settle]

def Fields.find? (fields : Fields ρ) (key : String) : Option (RecordField ρ) :=
  fields.toList.find? (·.keys.contains key)

/-- Takes an entry in, as the readers of all formats do. -/
def Fields.enter? (fields : Fields ρ) (state : Partial ρ) (entry : String × Datum) : Option (Partial ρ) :=
  match fields.find? entry.1 with
  | some known =>
    if state.given.contains known.name then none
    else
      (known.shape.value? false entry.2).map fun part =>
        ⟨known.set part state.value, known.name :: state.given⟩
  | none => some state

/-- Whether entries spell a field that has been given. -/
def Fields.repeats (fields : Fields ρ) (given : List String) (entries : Entries) : Bool :=
  entries.any fun entry => (fields.find? entry.1).any fun field => given.contains field.name

theorem Fields.find?_eq_none {key : String} :
    fields.find? key = none ↔ ∀ field ∈ fields.toList, key ∉ field.keys := by
  simp [Fields.find?]

theorem Fields.Independent.find?_eq_some (independent : fields.Independent empty) {field : RecordField ρ}
    {key : String} : fields.find? key = some field ↔ field ∈ fields.toList ∧ key ∈ field.keys := by
  have found : ∀ field, fields.find? key = some field → field ∈ fields.toList ∧ key ∈ field.keys := by
    intro field found
    have spelled := List.find?_some found
    exact ⟨List.mem_of_find?_eq_some found, by simpa using spelled⟩
  constructor
  · exact found field
  · rintro ⟨known, spelled⟩
    cases other : fields.find? key with
    | none => exact absurd spelled (Fields.find?_eq_none.mp other field known)
    | some first =>
      obtain ⟨member, also⟩ := found first other
      rw [independent.unique member known also spelled]

theorem Fields.Independent.name_eq_iff (independent : fields.Independent empty) {field other : RecordField ρ}
    (known : field ∈ fields.toList) {key : String} (found : fields.find? key = some other) :
    other.name = field.name ↔ key ∈ field.keys := by
  obtain ⟨member, spelled⟩ := independent.find?_eq_some.mp found
  constructor
  · intro named
    have own : other.name ∈ other.keys := List.mem_cons_self
    have also : other.name ∈ field.keys := by rw [named]; exact List.mem_cons_self
    rwa [← independent.unique member known own also]
  · intro also
    rw [independent.unique member known spelled also]

theorem Fields.Independent.repeats_cons (independent : fields.Independent empty) {field : RecordField ρ}
    (known : field ∈ fields.toList) (given : List String) (entries : Entries) :
    fields.repeats (field.name :: given) entries = true ↔
      fields.repeats given entries = true ∨ readings field.keys entries ≠ [] := by
  have each : ∀ entry : String × Datum,
      (fields.find? entry.1).any (fun other => (field.name :: given).contains other.name) = true ↔
        (fields.find? entry.1).any (fun other => given.contains other.name) = true ∨
          entry.1 ∈ field.keys := by
    intro entry
    cases found : fields.find? entry.1 with
    | none => simpa using Fields.find?_eq_none.mp found field known
    | some other => simp [independent.name_eq_iff known found, or_comm]
  simp only [Fields.repeats, List.any_eq_true, each, ne_eq, readings_eq_nil]
  constructor
  · rintro ⟨entry, member, before | now⟩
    · exact .inl ⟨entry, member, before⟩
    · exact .inr fun none => none entry member now
  · rintro (⟨entry, member, before⟩ | again)
    · exact ⟨entry, member, .inl before⟩
    · simp only [not_forall, not_not] at again
      obtain ⟨entry, member, now⟩ := again
      exact ⟨entry, member, .inr now⟩

/-- The entries that are left fill the record in, unless a field comes again. -/
theorem Fields.Independent.foldlM_enter? (independent : fields.Independent empty)
    (entries : Entries) (value : ρ) (given : List String) :
    (entries.foldlM fields.enter? ⟨value, given⟩).map Partial.value =
      if fields.repeats given entries then none else fields.fill? false entries value := by
  -- Taking an entry in changes which fields may come again, so the fields given so far vary in the induction.
  induction entries generalizing value given with
  | nil => rw [Fields.fill?_nil]; rfl
  | cons entry rest ih =>
    obtain ⟨key, part⟩ := entry
    rw [List.foldlM_cons]
    cases found : fields.find? key with
    | none =>
      have unknown := Fields.find?_eq_none.mp found
      have same : fields.repeats given ((key, part) :: rest) = fields.repeats given rest := by
        simp [Fields.repeats, found]
      simp only [Fields.enter?, found, same, Fields.fill?_cons_of_unknown unknown, Option.bind_eq_bind,
        Option.bind_some]
      exact ih value given
    | some field =>
      obtain ⟨known, spelled⟩ := independent.find?_eq_some.mp found
      by_cases fresh : field.name ∈ given
      · simp [Fields.enter?, found, fresh, Fields.repeats]
      · have now : fields.repeats given ((key, part) :: rest) = fields.repeats given rest := by
          simp [Fields.repeats, found, fresh]
        have later := independent.repeats_cons known given rest
        rw [now, independent.fill?_cons_of_mem known spelled]
        simp only [Fields.enter?, found]
        cases read : field.shape.value? false part with
        | none => simp [fresh]
        | some taken =>
          have step := ih (field.set taken value) (field.name :: given)
          simp only [List.contains_eq_mem, fresh, decide_false, Bool.false_eq_true, if_false, Option.map_some,
            Option.bind_eq_bind, Option.bind_some, step]
          by_cases before : fields.repeats given rest = true
          · rw [if_pos (later.mpr (.inl before)), if_pos before]
          · by_cases once : readings field.keys rest = []
            · rw [if_neg (by rw [later]; simp [before, once]), if_neg before, if_pos once]
            · rw [if_pos (later.mpr (.inr once)), if_neg before, if_neg once]

/-- Taking the entries of a record in one by one is filling in its fields one by one. -/
theorem Fields.Independent.fill?_eq_foldlM (independent : fields.Independent empty)
    (entries : Entries) :
    (entries.foldlM fields.enter? ⟨empty, []⟩).map Partial.value = fields.fill? false entries empty := by
  have nothing : fields.repeats [] entries = false := by simp [Fields.repeats]
  rw [independent.foldlM_enter?, nothing]
  rfl

def RecordField.slot {σ : Type} (field : RecordField ρ) (store : σ) : Slot σ where
  name := field.name
  others := field.others
  presence := field.presence
  store := store

/-- What goes through the fields of a record and takes each as a slot is a map over them. -/
theorem Fields.slots_eq_map {σ : Type} {slots : Fields ρ → List (Slot σ)} (store : RecordField ρ → σ)
    (done : slots .done = [])
    (field : ∀ {α : Type} (name : String) (others : List String) (presence : Presence) (shape : Shape α)
      (get : ρ → α) (set : α → ρ → ρ) (rest : Fields ρ),
      slots (.field name others presence shape get set rest) =
        (RecordField.mk name others presence shape set).slot (store ⟨name, others, presence, shape, set⟩) ::
          slots rest) :
    (fields : Fields ρ) → slots fields = fields.toList.map fun field => field.slot (store field)
  | .done => done
  | .field name others presence shape get set rest => by
    rw [field, Fields.slots_eq_map store done field rest]
    rfl

theorem Fields.find?_slots {σ : Type} (store : RecordField ρ → σ) (key : String) :
    (fields.toList.map fun field => field.slot (store field)).find? (·.answers key) =
      (fields.find? key).map fun field => field.slot (store field) := by
  have answers : ((·.answers key) ∘ fun field : RecordField ρ => field.slot (store field)) =
      (·.keys.contains key) := by
    funext field
    simp only [Function.comp_apply, RecordField.slot, Slot.answers, RecordField.keys, List.contains_cons,
      BEq.comm (a := key)]
  rw [List.find?_map, answers]
  rfl

theorem Fields.Independent.missing_slots {σ : Type} (independent : fields.Independent empty)
    (store : RecordField ρ → σ) (given : List String) :
    Slot.missing (fields.toList.map fun field => field.slot (store field)) given = none := by
  apply Slot.missing_eq_none
  intro slot member required
  obtain ⟨field, known, rfl⟩ := List.mem_map.mp member
  exact absurd required (independent.elective field known)

end PolicyDiagram.Data

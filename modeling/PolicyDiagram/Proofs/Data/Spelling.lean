import PolicyDiagram.Proofs.Data.Filling

/-! Spelling does not matter. A lenient reading is blind to all edits, and where no field is named twice it is
the reading of the formats. -/

namespace PolicyDiagram.Data

variable {ρ α : Type} {fields : Fields ρ} {empty : ρ} {shape : Shape α} {datum changed : Datum}

theorem Datum.absent?_of_not_isScalar (compound : datum.isScalar = false) : datum.absent? = some false := by
  cases datum with
  | scalar leaf => cases compound
  | list items => rfl
  | map entries => rfl

theorem Shape.Edit.isScalar (edit : shape.Edit datum changed) :
    datum.isScalar = false ∧ changed.isScalar = false := by
  induction edit with
  | respell | permute | addUnknown | addEmpty | part | item => exact ⟨rfl, rfl⟩
  | content _ ih | via _ ih => exact ih

theorem Shape.Edit.isEmpty (edit : shape.Edit datum changed) :
    shape.isEmpty datum = false ∧ shape.isEmpty changed = false := by
  induction edit with
  | respell | permute | addUnknown | addEmpty | part => exact ⟨rfl, rfl⟩
  | item => simp [Shape.isEmpty]
  | content edit ih =>
    obtain ⟨compound, compound'⟩ := edit.isScalar
    simpa [Shape.isEmpty, Datum.absent?_of_not_isScalar compound,
      Datum.absent?_of_not_isScalar compound'] using ih
  | via _ ih => exact ih

theorem settle_perm {set : α → ρ → ρ} (value : ρ) {parts ordered : List (Option α)}
    (order : parts.Perm ordered) : settle set value parts = settle set value ordered := by
  cases parts with
  | nil => rw [order.nil_eq]
  | cons first rest =>
    cases rest with
    | nil => rw [List.singleton_perm.mp order]
    | cons second rest =>
      have long := order.length_eq
      cases ordered with
      | nil => simp at long
      | cons _ others =>
        cases others with
        | nil => simp at long
        | cons _ _ => rfl

theorem Fields.fill?_congr {lenient : Bool} {entries others : Entries}
    (same : ∀ field ∈ fields.toList, (field.parts lenient entries).Perm (field.parts lenient others)) (value : ρ) :
    fields.fill? lenient entries value = fields.fill? lenient others value := by
  rw [Fields.fill?_eq, Fields.fill?_eq]
  apply foldlM_congr
  intro field known value
  exact settle_perm value (same field known)

theorem readings_append (keys : List String) (before behind : Entries) :
    readings keys (before ++ behind) = readings keys before ++ readings keys behind := by
  simp [readings]

theorem readings_perm (keys : List String) {entries ordered : Entries}
    (order : entries.Perm ordered) : (readings keys entries).Perm (readings keys ordered) :=
  (order.filter _).map _

theorem Fields.Independent.readings_respell (independent : fields.Independent empty)
    {field other : RecordField ρ} (known : field ∈ fields.toList) (known' : other ∈ fields.toList) {key respelled : String}
    (spelled : key ∈ field.keys) (spelled' : respelled ∈ field.keys) (part : Datum)
    (before behind : Entries) :
    readings other.keys (before ++ (key, part) :: behind) =
      readings other.keys (before ++ (respelled, part) :: behind) := by
  have both : key ∈ other.keys ↔ respelled ∈ other.keys := by
    constructor
    · intro there
      rwa [← independent.unique known known' spelled there]
    · intro there
      rwa [← independent.unique known known' spelled' there]
  simp only [readings_append, readings_cons, both]

/-- A lenient reading does not see an edit: every field is given the same parts, up to their order. -/
theorem Shape.Edit.value?_eq (edit : shape.Edit datum changed) (regular : shape.Regular) :
    shape.value? true datum = shape.value? true changed := by
  induction edit with
  | respell known spelled respelled =>
    simp only [Shape.value?]
    apply Fields.fill?_congr
    intro other member
    unfold RecordField.parts
    rw [regular.1.readings_respell known member spelled respelled]
  | permute order =>
    simp only [Shape.value?]
    apply Fields.fill?_congr
    intro field _
    exact ((readings_perm field.keys order).filter _).map _
  | addUnknown unknown =>
    simp only [Shape.value?, Datum.entries?_map, Option.bind_some, Fields.fill?_cons_of_unknown unknown]
  | @addEmpty ρ name empty fields field key value entries known spelled nothing =>
    simp only [Shape.value?]
    apply Fields.fill?_congr
    intro other member
    unfold RecordField.parts
    rw [readings_cons]
    -- The entry belongs to one field at most, and a lenient reading drops its empty part there.
    by_cases there : key ∈ other.keys
    · obtain rfl := regular.1.unique known member spelled there
      simp [there, nothing]
    · rw [if_neg there]
  | @part ρ name empty fields field key value changed before behind known spelled edit ih =>
    simp only [Shape.value?]
    apply Fields.fill?_congr
    intro other member
    unfold RecordField.parts
    rw [readings_append, readings_append, readings_cons, readings_cons]
    by_cases there : key ∈ other.keys
    · obtain rfl := regular.1.unique known member spelled there
      obtain ⟨kept, kept'⟩ := edit.isEmpty
      simp [there, kept, kept', ih ((Fields.regular_iff fields).mp regular.2 field known)]
    · rw [if_neg there, if_neg there]
  | item edit ih => simp [Shape.value?, List.mapM_append, List.mapM_cons, ih regular]
  | content edit ih =>
    obtain ⟨compound, compound'⟩ := edit.isScalar
    simp [Shape.value?, Datum.absent?_of_not_isScalar compound, Datum.absent?_of_not_isScalar compound',
      ih regular]
  | via edit ih => simp only [Shape.value?, ih regular]

theorem Shape.value?_of_isEmpty {α : Type} : (shape : Shape α) → shape.isEmpty datum = true →
    ∃ part ∈ shape.empties, ∀ lenient, shape.value? lenient datum = some part
  | .text, nothing => by
    refine ⟨"", List.mem_cons_self, fun lenient => ?_⟩
    simpa [Shape.isEmpty, Shape.value?] using nothing
  | .list element, nothing => by
    refine ⟨[], List.mem_cons_self, fun lenient => ?_⟩
    have none : datum.items? = some [] := by simpa [Shape.isEmpty] using nothing
    simp [Shape.value?, none]
  | .optional content, nothing => by
    cases absent : datum.absent? with
    | none => simp [Shape.isEmpty, absent] at nothing
    | some absent' =>
      cases absent' with
      | true => exact ⟨none, List.mem_cons_self, by simp [Shape.value?, absent]⟩
      | false =>
        obtain ⟨part, member, read⟩ :=
          content.value?_of_isEmpty (by simpa [Shape.isEmpty, absent] using nothing)
        exact ⟨some part, by simp [Shape.empties, member], by simp [Shape.value?, absent, read]⟩
  | .via shape ofWritten _, nothing => by
    obtain ⟨part, member, read⟩ := shape.value?_of_isEmpty (by simpa [Shape.isEmpty] using nothing)
    exact ⟨ofWritten part, List.mem_map_of_mem member, by simp [Shape.value?, read]⟩
  | .path, nothing | .natural, nothing | .boolean, nothing | .choice _ _, nothing
  | .record _ _ _, nothing => by cases nothing

/-- A field that is given once, and at rest as long as it is not given, may be given as empty. -/
theorem RecordField.fill?_lenient {field : RecordField ρ} {entries : Entries} {value : ρ}
    (once : (readings field.keys entries).length ≤ 1)
    (same : ∀ part ∈ readings field.keys entries,
      field.shape.value? false part = field.shape.value? true part)
    (atRest : ∀ part ∈ field.shape.empties, field.set part value = value) :
    field.fill? false entries value = field.fill? true entries value := by
  unfold RecordField.fill? RecordField.parts
  cases found : readings field.keys entries with
  | nil => rfl
  | cons part rest =>
    obtain rfl : rest = [] := by
      rw [found, List.length_cons] at once
      exact List.eq_nil_of_length_eq_zero (by omega)
    have read := same part (by simp [found])
    cases nothing : field.shape.isEmpty part with
    | false => simp [nothing, read]
    | true =>
      obtain ⟨empty, member, reads⟩ := field.shape.value?_of_isEmpty nothing
      simp [nothing, reads, settle, atRest empty member]

/-- A field is at rest in what another one leaves behind. -/
theorem RecordField.fill?_atRest {field other : RecordField ρ} {lenient : Bool} {entries : Entries}
    {value filled : ρ} (done : field.fill? lenient entries value = some filled) {part : other.Part}
    (commute : ∀ taken value, field.set taken (other.set part value) = other.set part (field.set taken value))
    (atRest : other.set part value = value) : other.set part filled = filled := by
  have moved := settle_of_commute commute value (field.parts lenient entries)
  rw [atRest, ← RecordField.fill?, done] at moved
  exact (Option.some.inj moved).symm

theorem foldlM_lenient {others : List (RecordField ρ)} {entries : Entries}
    (commute : others.Pairwise fun first second =>
      ∀ part other value, first.set part (second.set other value) = second.set other (first.set part value))
    (once : ∀ field ∈ others, (readings field.keys entries).length ≤ 1)
    (same : ∀ field ∈ others, ∀ part ∈ readings field.keys entries,
      field.shape.value? false part = field.shape.value? true part)
    {value : ρ} (atRest : ∀ field ∈ others, ∀ part ∈ field.shape.empties, field.set part value = value) :
    others.foldlM (RecordField.fill? false entries) value =
      others.foldlM (RecordField.fill? true entries) value := by
  induction others generalizing value with
  | nil => rfl
  | cons field rest ih =>
    rw [List.pairwise_cons] at commute
    have first := RecordField.fill?_lenient (once field List.mem_cons_self) (same field List.mem_cons_self)
      (atRest field List.mem_cons_self)
    rw [List.foldlM_cons, List.foldlM_cons, first]
    apply Option.bind_congr
    intro filled done
    apply ih commute.2
    · exact fun other member => once other (List.mem_cons_of_mem field member)
    · exact fun other member => same other (List.mem_cons_of_mem field member)
    · intro other member part empty
      apply RecordField.fill?_atRest done
      · exact fun taken value => commute.1 other member taken part value
      · exact atRest other (List.mem_cons_of_mem field member) part empty

/-- Where no field is named twice, the lenient reading is the strict one. -/
theorem Shape.inherited_lenient : Shape.Inherited fun shape => ∀ datum, shape.namesOnce datum = true →
    shape.value? false datum = shape.value? true datum where
  text _ _ := rfl
  path _ _ := rfl
  list element ih datum once := by
    have each := Shape.every_list.mp once
    cases found : datum.items? with
    | none => simp [Shape.value?, found]
    | some items =>
      simp only [Datum.items, found, Option.getD_some] at each
      simp only [Shape.value?, found, Option.bind_some]
      apply mapM_congr
      exact fun item member => ih item (each item member)
  optional content ih datum once := by
    rcases Shape.every_optional.mp once with absent | once
    · simp [Shape.value?, absent]
    · simp [Shape.value?, ih datum once]
  record name empty fields independent ih datum once := by
    obtain ⟨own, parts⟩ := Shape.every_record.mp once
    cases found : datum.entries? with
    | none => simp [Shape.value?, found]
    | some entries =>
      simp only [Datum.entries, found, Option.getD_some, List.all_eq_true, decide_eq_true_eq] at own parts
      simp only [Shape.value?, found, Option.bind_some, Fields.fill?_eq]
      -- A field that is named once with an empty part is a field at rest.
      apply foldlM_lenient independent.commute own _ independent.atRest
      exact fun field known part member => ih field known part (parts field known part member)
  via shape ofWritten toWritten ih datum once := by simp [Shape.value?, ih datum once]

theorem RecordField.fill?_eq_some {field : RecordField ρ} {entries : Entries} {value filled : ρ}
    (done : field.fill? false entries value = some filled) :
    (readings field.keys entries).length ≤ 1 ∧
      ∀ part ∈ readings field.keys entries, ∃ taken, field.shape.value? false part = some taken := by
  unfold RecordField.fill? RecordField.parts at done
  cases found : readings field.keys entries with
  | nil => simp
  | cons part rest =>
    rw [found] at done
    cases rest with
    | nil =>
      cases read : field.shape.value? false part with
      | none => simp [settle, read] at done
      | some taken => simp [read]
    | cons _ _ => simp [settle] at done

/-- A record that is filled in has each field at most once, and each part of it can be read. -/
theorem Fields.fill?_eq_some {entries : Entries} {value filled : ρ}
    (done : fields.fill? false entries value = some filled) {field : RecordField ρ}
    (known : field ∈ fields.toList) :
    (readings field.keys entries).length ≤ 1 ∧
      ∀ part ∈ readings field.keys entries, ∃ taken, field.shape.value? false part = some taken := by
  rw [Fields.fill?_eq] at done
  generalize fields.toList = all at done known
  induction all generalizing value with
  | nil => cases known
  | cons first rest ih =>
    rw [List.foldlM_cons] at done
    obtain ⟨next, stored, done⟩ := Option.bind_eq_some_iff.mp done
    rcases List.mem_cons.mp known with rfl | later
    · exact RecordField.fill?_eq_some stored
    · exact ih done later

theorem exists_of_mapM_eq_some {α β : Type} {l : List α} {f : α → Option β} {results : List β}
    (done : l.mapM f = some results) {a : α} (member : a ∈ l) : ∃ b, f a = some b := by
  induction l generalizing results with
  | nil => cases member
  | cons first rest ih =>
    rw [List.mapM_cons] at done
    obtain ⟨b, head, done⟩ := Option.bind_eq_some_iff.mp done
    obtain ⟨others, tail, -⟩ := Option.bind_eq_some_iff.mp done
    rcases List.mem_cons.mp member with rfl | later
    · exact ⟨b, head⟩
    · exact ih tail later

/-- What every record that can be read is like, all records in a datum that can be read are like. -/
theorem Shape.inherited_every {p : {ρ : Type} → Fields ρ → Datum → Bool}
    (each : ∀ {ρ : Type} (fields : Fields ρ) (datum : Datum) (entries : Entries),
      datum.entries? = some entries → (∀ field ∈ fields.toList, (readings field.keys entries).length ≤ 1) →
      p fields datum = true) :
    Shape.Inherited fun shape => ∀ datum value, shape.value? false datum = some value →
      shape.every p datum = true where
  text _ _ _ := rfl
  path _ _ _ := rfl
  list element ih datum values read := by
    apply Shape.every_list.mpr
    obtain ⟨items, found, read⟩ := Option.bind_eq_some_iff.mp read
    rw [Datum.items, found, Option.getD_some]
    intro item member
    obtain ⟨value, part⟩ := exists_of_mapM_eq_some read member
    exact ih item value part
  optional content ih datum value read := by
    apply Shape.every_optional.mpr
    obtain ⟨absent, known, read⟩ := Option.bind_eq_some_iff.mp read
    cases absent with
    | true => exact .inl known
    | false =>
      obtain ⟨part, read, -⟩ := Option.map_eq_some_iff.mp read
      exact .inr (ih datum part read)
  record name empty fields independent ih datum value read := by
    apply Shape.every_record.mpr
    obtain ⟨entries, found, read⟩ := Option.bind_eq_some_iff.mp read
    rw [Datum.entries, found, Option.getD_some]
    constructor
    · exact each fields datum entries found fun field known => (Fields.fill?_eq_some read known).1
    · intro field known part member
      obtain ⟨taken, part'⟩ := (Fields.fill?_eq_some read known).2 part member
      exact ih field known part taken part'
  via shape ofWritten toWritten ih datum value read := by
    obtain ⟨part, read, -⟩ := Option.map_eq_some_iff.mp read
    exact ih datum part read

theorem Shape.mapForm_of_value? (regular : shape.Regular) {value : α}
    (read : shape.value? false datum = some value) : shape.mapForm datum = true := by
  apply (Shape.inherited_every _).holds shape regular datum value read
  intro ρ fields datum entries found _
  cases datum with
  | scalar | map => rfl
  | list items => cases found

theorem Shape.namesOnce_of_value? (regular : shape.Regular) {value : α}
    (read : shape.value? false datum = some value) : shape.namesOnce datum = true := by
  apply (Shape.inherited_every _).holds shape regular datum value read
  intro ρ fields datum entries found once
  simpa [Datum.entries, found] using once

theorem Shape.Respelled.value?_eq (respelled : shape.Respelled datum changed) (regular : shape.Regular) :
    shape.value? true datum = shape.value? true changed := by
  induction respelled with
  | rel _ _ edit => exact edit.value?_eq regular
  | refl _ => rfl
  | symm _ _ _ ih => exact ih.symm
  | trans _ _ _ _ _ first second => exact first.trans second

theorem Shape.Respelled.value?_eq_of_namesOnce (respelled : shape.Respelled datum changed)
    (regular : shape.Regular) (once : shape.namesOnce datum = true) (once' : shape.namesOnce changed = true) :
    shape.value? false datum = shape.value? false changed := by
  have lenient := Shape.inherited_lenient.holds shape regular
  calc shape.value? false datum = shape.value? true datum := lenient datum once
    _ = shape.value? true changed := respelled.value?_eq regular
    _ = shape.value? false changed := (lenient changed once').symm

end PolicyDiagram.Data

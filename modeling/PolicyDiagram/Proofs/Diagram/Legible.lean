import PolicyDiagram.Proofs.Diagram.Picture

/-! Reading a diagram back. If no string that is shown has a space, a tab or a newline in it, the text has one
reading only: its lines can be told apart, every kind of line from every other whatever the strings in it are,
and from the lines the blocks, the groups and the edges can be recovered. -/

namespace PolicyDiagram.Diagram

/-! ## Lines -/

/-- A string that is one word of a line. It may be empty. -/
def IsWord (text : String) : Prop := ' ' ∉ text.toList ∧ '\t' ∉ text.toList ∧ '\n' ∉ text.toList

instance (text : String) : Decidable (IsWord text) := inferInstanceAs (Decidable (_ ∧ _ ∧ _))

namespace Line

/-- The strings of the document that a line shows. -/
def strings : Line → List String
  | opening name => [name]
  | idPrefix text => [text]
  | direct action => [action]
  | related relation action => [relation, action]
  | closing => []
  | relationship source target relation => [source, target, relation]
  | membership union member => [union, member]

def Legible (line : Line) : Prop := ∀ text ∈ line.strings, IsWord text

instance (line : Line) : Decidable line.Legible := inferInstanceAs (Decidable (∀ _ ∈ _, _))

/-- The parts of a line between its spaces. The tabs belong to the first one. -/
def columns : Line → List (List Char)
  | opening name => ['\t' :: name.toList, "\x7b".toList]
  | idPrefix text => ['\t' :: '\t' :: "id_prefix".toList, text.toList]
  | direct action => ['\t' :: '\t' :: "action".toList, action.toList]
  | related relation action =>
    ['\t' :: '\t' :: (relation.toList ++ "_action".toList), action.toList]
  | closing => ['\t' :: "\x7d".toList]
  | relationship source target relation =>
    ['\t' :: source.toList, "\x7do--o\x7b".toList, target.toList, ":".toList, relation.toList]
  | membership union member =>
    ['\t' :: union.toList, "||--||".toList, member.toList, ":".toList, "alias".toList]

theorem toList_text (line : Line) : line.text.toList = [' '].intercalate line.columns := by
  cases line <;> simp [text, columns, List.intercalate_cons_cons]

/-- The line with given columns. -/
def ofColumns? : List (List Char) → Option Line
  | [_] => some .closing
  | ['\t' :: '\t' :: word, text] =>
    if word = "id_prefix".toList then some (.idPrefix (.ofList text))
    else if word = "action".toList then some (.direct (.ofList text))
    else some (.related (.ofList (word.take (word.length - 7))) (.ofList text))
  | ['\t' :: name, _] => some (.opening (.ofList name))
  | ['\t' :: source, arrow, target, _, label] =>
    if arrow = "||--||".toList then some (.membership (.ofList source) (.ofList target))
    else some (.relationship (.ofList source) (.ofList target) (.ofList label))
  | _ => none

/-- A relation-scoped action never reads as a prefix or as a direct action: its word ends in the same seven
characters, whatever the relation is. -/
theorem ofColumns?_related (relation action : String) :
    ofColumns? (related relation action).columns = some (related relation action) := by
  have lengths : (relation.toList ++ "_action".toList).length = relation.toList.length + 7 := by
    simp
  have not_prefix : relation.toList ++ "_action".toList ≠ "id_prefix".toList := by
    intro same
    have ends := congrArg List.getLast? same
    simp at ends
  have not_direct : relation.toList ++ "_action".toList ≠ "action".toList := by
    intro same
    have size := congrArg List.length same
    rw [lengths] at size
    simp at size
  simp only [columns, ofColumns?, if_neg not_prefix, if_neg not_direct, lengths]
  simp

theorem ofColumns?_columns {line : Line} (legible : line.Legible) :
    ofColumns? line.columns = some line := by
  cases line with
  | opening name =>
    have word : IsWord name := legible name (by simp [strings])
    have no_tab : ∀ rest, name.toList ≠ '\t' :: rest := by
      intro rest same
      exact word.2.1 (same ▸ List.mem_cons_self)
    have reading : ∀ chars : List Char, (∀ rest, chars ≠ '\t' :: rest) →
        ofColumns? ['\t' :: chars, "\x7b".toList] = some (.opening (.ofList chars)) := by
      intro chars free
      unfold ofColumns?
      split <;> simp_all
    rw [columns, reading name.toList no_tab, String.ofList_toList]
  | idPrefix text => simp [columns, ofColumns?]
  | direct action => simp [columns, ofColumns?]
  | related relation action => exact ofColumns?_related relation action
  | closing => rfl
  | relationship source target relation => simp [columns, ofColumns?]
  | membership union member => simp [columns, ofColumns?]

theorem columns_clean {line : Line} (legible : line.Legible) :
    ∀ column ∈ line.columns, ' ' ∉ column ∧ '\n' ∉ column := by
  cases line <;> simp_all [Legible, strings, columns, IsWord]

/-- The line with a given text. -/
def ofText? (text : List Char) : Option Line := ofColumns? (text.splitOn ' ')

theorem ofText?_text {line : Line} (legible : line.Legible) : ofText? line.text.toList = some line := by
  have some_column : line.columns ≠ [] := by
    cases line <;> simp [columns]
  rw [ofText?, toList_text, List.splitOn_intercalate ' ' _ some_column, ofColumns?_columns legible]
  exact fun column member => (columns_clean legible column member).1

theorem newline_not_mem_text {line : Line} (legible : line.Legible) : '\n' ∉ line.text.toList := by
  cases line <;> simp_all [Legible, strings, text, IsWord]

end Line

def Picture.Legible (picture : Picture) : Prop := ∀ line ∈ picture.lines, line.Legible

instance (picture : Picture) : Decidable picture.Legible := inferInstanceAs (Decidable (∀ _ ∈ _, _))

/-- The lines of a text behind its header. -/
def readLines (text : String) : List (Option Line) :=
  (text.toList.splitOn '\n').tail.map Line.ofText?

theorem readLines_text {picture : Picture} (legible : picture.Legible) :
    readLines picture.text = picture.lines.map some := by
  have joined : picture.text.toList =
      ['\n'].intercalate ("erDiagram".toList :: picture.lines.map (·.text.toList)) := by
    rw [Picture.text, String.toList_intercalate]
    simp [List.map_map, Function.comp_def]
  have clean : ∀ part ∈ "erDiagram".toList :: picture.lines.map (·.text.toList), '\n' ∉ part := by
    intro part member
    rcases List.mem_cons.mp member with rfl | member
    · decide
    · obtain ⟨line, inside, rfl⟩ := List.mem_map.mp member
      exact Line.newline_not_mem_text (legible line inside)
  rw [readLines, joined, List.splitOn_intercalate '\n' clean (List.cons_ne_nil _ _), List.tail_cons,
    List.map_map]
  apply List.map_congr_left
  intro line inside
  exact Line.ofText?_text (legible line inside)

theorem Picture.lines_eq_of_text_eq {first second : Picture} (legible : first.Legible)
    (legible' : second.Legible) (same : first.text = second.text) : first.lines = second.lines := by
  have read : first.lines.map some = second.lines.map some := by
    rw [← readLines_text legible, ← readLines_text legible', same]
  exact (List.map_inj_right fun _ _ => Option.some.inj).mp read

/-! ## Blocks -/

/-- A list is cut in one way only into members of a class and a rest that does not start with one. -/
theorem append_cut_unique {α : Type} {p : α → Prop} {xs xs' ys ys' : List α}
    (inside : ∀ a ∈ xs, p a) (inside' : ∀ a ∈ xs', p a) (outside : ∀ a ∈ ys.head?, ¬p a)
    (outside' : ∀ a ∈ ys'.head?, ¬p a) (same : xs ++ ys = xs' ++ ys') : xs = xs' ∧ ys = ys' := by
  induction xs generalizing xs' with
  | nil =>
    cases xs' with
    | nil => exact ⟨rfl, same⟩
    | cons a rest =>
      rw [List.nil_append] at same
      have first : ys.head? = some a := by rw [same]; rfl
      exact absurd (inside' a List.mem_cons_self) (outside a first)
  | cons a rest ih =>
    cases xs' with
    | nil =>
      rw [List.nil_append] at same
      have first : ys'.head? = some a := by rw [← same]; rfl
      exact absurd (inside a List.mem_cons_self) (outside' a first)
    | cons b rest' =>
      obtain ⟨head, tail⟩ := List.cons.inj same
      obtain ⟨runs, rests⟩ := ih (fun c m => inside c (List.mem_cons_of_mem a m))
        (fun c m => inside' c (List.mem_cons_of_mem b m)) tail
      exact ⟨by rw [head, runs], rests⟩

/-- Groups as gathering makes them: no relation comes twice, and none without an action. -/
structure Gathered (groups : List (String × List String)) : Prop where
  distinct : (groups.map Prod.fst).Nodup
  filled : ∀ group ∈ groups, group.2 ≠ []

theorem gathered_gather (pairs : List (String × String)) : Gathered (gather pairs) := by
  have sound := RelationGroups.wellFormed_ofPairs pairs
  rw [← RelationGroups.groups_ofPairs]
  exact ⟨sound.nodup_relations, sound.filled⟩

/-- The lines of groups. -/
def groupLines (groups : List (String × List String)) : List Line :=
  groups.flatMap fun group => group.2.map (.related group.1)

theorem mem_groupLines {groups : List (String × List String)} {line : Line} :
    line ∈ groupLines groups ↔ ∃ group ∈ groups, ∃ action ∈ group.2, .related group.1 action = line := by
  simp [groupLines]

theorem Gathered.tail {group : String × List String} {rest : List (String × List String)}
    (gathered : Gathered (group :: rest)) : Gathered rest :=
  ⟨(List.nodup_cons.mp gathered.distinct).2,
    fun other member => gathered.filled other (List.mem_cons_of_mem group member)⟩

theorem Gathered.lines_ne_nil {group : String × List String} {rest : List (String × List String)}
    (gathered : Gathered (group :: rest)) : groupLines (group :: rest) ≠ [] := by
  intro nothing
  have empty := List.flatMap_eq_nil_iff.mp nothing group List.mem_cons_self
  exact gathered.filled group List.mem_cons_self (List.map_eq_nil_iff.mp empty)

/-- Groups that follow others start with another relation, so a change of relation is a change of group. -/
theorem Gathered.apart {relation : String} {actions : List String} {rest : List (String × List String)}
    (gathered : Gathered ((relation, actions) :: rest)) :
    ∀ line ∈ (groupLines rest).head?, ¬∃ action, line = .related relation action := by
  rintro line first ⟨action, rfl⟩
  obtain ⟨group, member, other, -, equal⟩ := mem_groupLines.mp (List.mem_of_mem_head? first)
  have named : group.1 = relation := (Line.related.inj equal).1
  exact (List.nodup_cons.mp gathered.distinct).1 (List.mem_map.mpr ⟨group, member, named⟩)

theorem related_of_mem {relation : String} {actions : List String} :
    ∀ line ∈ actions.map (Line.related relation), ∃ action, line = .related relation action := by
  intro line member
  obtain ⟨action, _, rfl⟩ := List.mem_map.mp member
  exact ⟨action, rfl⟩

theorem groupLines_injective {groups groups' : List (String × List String)}
    (gathered : Gathered groups) (gathered' : Gathered groups')
    (same : groupLines groups = groupLines groups') : groups = groups' := by
  induction groups generalizing groups' with
  | nil =>
    cases groups' with
    | nil => rfl
    | cons group rest => exact absurd same.symm gathered'.lines_ne_nil
  | cons group rest ih =>
    cases groups' with
    | nil => exact absurd same gathered.lines_ne_nil
    | cons group' rest' =>
      obtain ⟨relation, actions⟩ := group
      obtain ⟨relation', actions'⟩ := group'
      have cut : actions.map (Line.related relation) ++ groupLines rest =
          actions'.map (Line.related relation') ++ groupLines rest' := by
        simpa only [groupLines, List.flatMap_cons] using same
      -- No group is empty, so the first lines name the relations of the first groups.
      have named : relation = relation' := by
        obtain ⟨a, as, rfl⟩ := List.exists_cons_of_ne_nil (gathered.filled _ List.mem_cons_self)
        obtain ⟨b, bs, rfl⟩ := List.exists_cons_of_ne_nil (gathered'.filled _ List.mem_cons_self)
        exact (Line.related.inj (List.cons.inj cut).1).1
      subst named
      obtain ⟨heads, tails⟩ :=
        append_cut_unique related_of_mem related_of_mem gathered.apart gathered'.apart cut
      have actions_eq := (List.map_inj_right fun _ _ h => (Line.related.inj h).2).mp heads
      rw [actions_eq, ih gathered.tail gathered'.tail tails]

def Line.IsEdge : Line → Prop
  | relationship .. | membership .. => True
  | _ => False

theorem isEdge_membership {union : String} {members : List String} :
    ∀ line ∈ members.map (Line.membership union), line.IsEdge := by
  intro line inside
  obtain ⟨member, _, rfl⟩ := List.mem_map.mp inside
  exact trivial

theorem isEdge_relationship {source : String} {edges : List (String × String)} :
    ∀ line ∈ edges.map (fun edge => Line.relationship source edge.2 edge.1), line.IsEdge := by
  intro line inside
  obtain ⟨edge, _, rfl⟩ := List.mem_map.mp inside
  exact trivial

/-- Lines that are at their end, or at the start of a block. -/
def AtBlock (lines : List Line) : Prop := ∀ line ∈ lines.head?, ∃ name, line = .opening name

theorem AtBlock.not_edge {lines : List Line} (start : AtBlock lines) :
    ∀ line ∈ lines.head?, ¬line.IsEdge := by
  intro line first
  obtain ⟨name, rfl⟩ := start line first
  exact id

theorem direct_of_mem {actions : List String} :
    ∀ line ∈ actions.map Line.direct, ∃ action, line = .direct action := by
  intro line member
  obtain ⟨action, _, rfl⟩ := List.mem_map.mp member
  exact ⟨action, rfl⟩

/-- Behind the direct actions of a block stand its relation-scoped ones, and then its closing line. -/
theorem not_direct_groupLines (groups : List (String × List String)) (more : List Line) :
    ∀ line ∈ (groupLines groups ++ .closing :: more).head?, ¬∃ action, line = .direct action := by
  rintro line first ⟨action, rfl⟩
  cases lines : groupLines groups with
  | nil => simp [lines] at first
  | cons line rest =>
    have member : line ∈ groupLines groups := by simp [lines]
    obtain ⟨group, -, other, -, rfl⟩ := mem_groupLines.mp member
    simp [lines] at first

/-- The action lines of a block, its closing line and its edges can be told apart, and what follows the edges
is the next block. -/
theorem block_cut_unique {direct direct' : List String} {groups groups' : List (String × List String)}
    {edges edges' rest rest' : List Line} (gathered : Gathered groups) (gathered' : Gathered groups')
    (are_edges : ∀ line ∈ edges, line.IsEdge) (are_edges' : ∀ line ∈ edges', line.IsEdge)
    (start : AtBlock rest) (start' : AtBlock rest')
    (same : attributeLines direct groups ++ .closing :: (edges ++ rest) =
      attributeLines direct' groups' ++ .closing :: (edges' ++ rest')) :
    direct = direct' ∧ groups = groups' ∧ edges = edges' ∧ rest = rest' := by
  have not_closing {groups : List (String × List String)} (line : Line) (member : line ∈ groupLines groups) :
      line ≠ .closing := by
    obtain ⟨group, -, action, -, rfl⟩ := mem_groupLines.mp member
    exact Line.noConfusion
  have cut : direct.map Line.direct ++ (groupLines groups ++ .closing :: (edges ++ rest)) =
      direct'.map Line.direct ++ (groupLines groups' ++ .closing :: (edges' ++ rest')) := by
    simpa only [attributeLines, groupLines, List.append_assoc] using same
  obtain ⟨directs, same⟩ := append_cut_unique direct_of_mem direct_of_mem (not_direct_groupLines groups _)
    (not_direct_groupLines groups' _) cut
  obtain ⟨relateds, same⟩ := append_cut_unique not_closing not_closing (by simp) (by simp) same
  obtain ⟨runs, rests⟩ := append_cut_unique are_edges are_edges' start.not_edge start'.not_edge
    (List.cons.inj same).2
  exact ⟨(List.map_inj_right fun _ _ => Line.direct.inj).mp directs,
    groupLines_injective gathered gathered' relateds, runs, rests⟩

/-! ## Pictures -/

/-- A picture whose entities have gathered groups, as those of documents have. -/
structure Picture.Gathered (picture : Picture) : Prop where
  resources : ∀ resource ∈ picture.resources, Diagram.Gathered resource.groups
  unions : ∀ union ∈ picture.unions, Diagram.Gathered union.groups

theorem gathered_picture (document : Document) : (picture document).Gathered := by
  constructor
  · intro resource member
    obtain ⟨declared, _, rfl⟩ := List.mem_map.mp member
    exact gathered_gather _
  · intro union member
    obtain ⟨declared, _, rfl⟩ := List.mem_map.mp member
    exact gathered_gather _

theorem atBlock_unions (unions : List UnionPicture) : AtBlock (unions.flatMap UnionPicture.lines) := by
  intro line first
  cases unions with
  | nil => simp at first
  | cons union rest => exact ⟨union.name, by simpa [UnionPicture.lines] using first.symm⟩

theorem atBlock_resources (resources : List ResourcePicture) {rest : List Line}
    (start : AtBlock rest) : AtBlock (resources.flatMap ResourcePicture.lines ++ rest) := by
  intro line first
  cases resources with
  | nil => exact start line first
  | cons resource others => exact ⟨resource.name, by simpa [ResourcePicture.lines] using first.symm⟩

theorem unionLines_injective {unions unions' : List UnionPicture}
    (gathered : ∀ union ∈ unions, Gathered union.groups)
    (gathered' : ∀ union ∈ unions', Gathered union.groups)
    (same : unions.flatMap UnionPicture.lines = unions'.flatMap UnionPicture.lines) :
    unions = unions' := by
  induction unions generalizing unions' with
  | nil =>
    cases unions' with
    | nil => rfl
    | cons union' rest' => simp [UnionPicture.lines] at same
  | cons union rest ih =>
    cases unions' with
    | nil => simp [UnionPicture.lines] at same
    | cons union' rest' =>
      obtain ⟨name, direct, groups, members⟩ := union
      obtain ⟨name', direct', groups', members'⟩ := union'
      simp only [List.flatMap_cons, UnionPicture.lines, List.append_assoc, List.singleton_append] at same
      obtain ⟨openings, blocks⟩ := List.cons.inj same
      have here : Gathered groups := gathered _ List.mem_cons_self
      have here' : Gathered groups' := gathered' _ List.mem_cons_self
      -- The first blocks are cut off at the same line, and the induction goes on behind them.
      obtain ⟨directs, groupss, edges, rests⟩ := block_cut_unique here here' isEdge_membership
        isEdge_membership (atBlock_unions rest) (atBlock_unions rest') blocks
      have names : name = name' := Line.opening.inj openings
      subst names
      have memberss := (List.map_inj_right fun _ _ h => (Line.membership.inj h).2).mp edges
      rw [directs, groupss, memberss,
        ih (fun u m => gathered u (List.mem_cons_of_mem _ m))
          (fun u m => gathered' u (List.mem_cons_of_mem _ m)) rests]

/-- No union is taken for a resource type, since a prefix line comes first in the block of a resource type
and in no other. -/
theorem unionLines_ne_resourceLines (resource : ResourcePicture) (unions : List UnionPicture)
    (rest : List Line) : unions.flatMap UnionPicture.lines ≠ resource.lines ++ rest := by
  intro same
  cases unions with
  | nil => simp [ResourcePicture.lines] at same
  | cons union others =>
    rw [List.flatMap_cons] at same
    simp only [UnionPicture.lines, ResourcePicture.lines, List.append_assoc, List.cons_append,
      List.nil_append] at same
    have second := (List.cons.inj same).2
    cases lines : attributeLines union.direct union.groups with
    | nil => simp [lines] at second
    | cons line more =>
      have line_eq : line = .idPrefix resource.idPrefix := by
        rw [lines, List.cons_append] at second
        exact (List.cons.inj second).1
      have member : line ∈ attributeLines union.direct union.groups := by
        rw [lines]
        exact List.mem_cons_self
      simp [line_eq, attributeLines] at member

theorem resourceLines_injective {resources resources' : List ResourcePicture}
    {unions unions' : List UnionPicture}
    (gathered : ∀ resource ∈ resources, Gathered resource.groups)
    (gathered' : ∀ resource ∈ resources', Gathered resource.groups)
    (same : resources.flatMap ResourcePicture.lines ++ unions.flatMap UnionPicture.lines =
      resources'.flatMap ResourcePicture.lines ++ unions'.flatMap UnionPicture.lines) :
    resources = resources' ∧
      unions.flatMap UnionPicture.lines = unions'.flatMap UnionPicture.lines := by
  -- Behind the last resource type the lists go on with unions, none of which looks like a resource type.
  induction resources generalizing resources' with
  | nil =>
    cases resources' with
    | nil => exact ⟨rfl, same⟩
    | cons resource' rest' =>
      rw [List.flatMap_cons, List.append_assoc] at same
      exact absurd same (unionLines_ne_resourceLines resource' unions _)
  | cons resource rest ih =>
    cases resources' with
    | nil =>
      rw [List.flatMap_cons, List.append_assoc] at same
      exact absurd same.symm (unionLines_ne_resourceLines resource unions' _)
    | cons resource' rest' =>
      obtain ⟨name, idPrefix, direct, groups, edges⟩ := resource
      obtain ⟨name', idPrefix', direct', groups', edges'⟩ := resource'
      simp only [List.flatMap_cons, ResourcePicture.lines, List.append_assoc, List.cons_append,
        List.nil_append] at same
      obtain ⟨openings, same⟩ := List.cons.inj same
      obtain ⟨prefixes, blocks⟩ := List.cons.inj same
      have here : Gathered groups := gathered _ List.mem_cons_self
      have here' : Gathered groups' := gathered' _ List.mem_cons_self
      obtain ⟨directs, groupss, runs, rests⟩ := block_cut_unique here here' isEdge_relationship
        isEdge_relationship (atBlock_resources rest (atBlock_unions unions))
        (atBlock_resources rest' (atBlock_unions unions')) blocks
      have names : name = name' := Line.opening.inj openings
      subst names
      have edgess := (List.map_inj_right fun a b h =>
        Prod.ext (Line.relationship.inj h).2.2 (Line.relationship.inj h).2.1).mp runs
      obtain ⟨resourcess, unionss⟩ := ih (fun r m => gathered r (List.mem_cons_of_mem _ m))
        (fun r m => gathered' r (List.mem_cons_of_mem _ m)) rests
      exact ⟨by rw [Line.idPrefix.inj prefixes, directs, groupss, edgess, resourcess], unionss⟩

theorem Picture.eq_of_lines_eq {first second : Picture} (gathered : first.Gathered)
    (gathered' : second.Gathered) (same : first.lines = second.lines) : first = second := by
  obtain ⟨resources, lines⟩ :=
    resourceLines_injective gathered.resources gathered'.resources same
  have unions := unionLines_injective gathered.unions gathered'.unions lines
  cases first
  cases second
  rw [Picture.mk.injEq]
  exact ⟨resources, unions⟩

/-- Two documents whose shown strings are words have the same diagram just if they have the same picture. -/
theorem ofDocument_eq_iff_picture_eq (first second : Document) (legible : (picture first).Legible)
    (legible' : (picture second).Legible) :
    ofDocument first = ofDocument second ↔ picture first = picture second := by
  have drawn : ∀ document : Document, ofDocument document = (picture document).text :=
    fun document => render_of_answers (ActionIndex.answers_build document.bindings)
  rw [drawn first, drawn second]
  constructor
  · intro same
    exact Picture.eq_of_lines_eq (gathered_picture first) (gathered_picture second)
      (Picture.lines_eq_of_text_eq legible legible' same)
  · intro same
    rw [same]

/-- A relation without a name does not make its action a direct one, even on an entity named like a bracket. -/
theorem ofDocument_ne_of_unnamed_relation :
    ofDocument ⟨[⟨"\x7d", "\x7b", []⟩], [], [], [⟨"\x7d", "x", [.relationshipAction ⟨"", "x"⟩]⟩]⟩ ≠
      ofDocument ⟨[⟨"\x7d", "\x7b", []⟩], [], [], [⟨"\x7d", "x", [.roleBinding ⟨⟩]⟩]⟩ := by
  rw [ne_eq, ofDocument_eq_iff_picture_eq _ _ (by decide +kernel) (by decide +kernel)]
  decide +kernel

end PolicyDiagram.Diagram

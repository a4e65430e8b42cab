import Mathlib.Data.List.Flatten
import PolicyDiagram.Proofs.Diagram.Lines
import PolicyDiagram.Proofs.Run.Splitting

/-! One more fragment only adds to a diagram. What it declares comes up in many places, behind the old resource
types, behind the unions, behind the actions of a block and behind those of a relation; but what was shown
before is still shown, as it was and in the same order. -/

namespace PolicyDiagram

/-- The second list starts with what has become of the members of the first one, and may go on. -/
inductive Extended {α : Type} (grown : α → α → Prop) : List α → List α → Prop where
  | new (more : List α) : Extended grown [] more
  | keep {before after : α} {old now : List α} (part : grown before after)
      (rest : Extended grown old now) : Extended grown (before :: old) (after :: now)

namespace Extended

variable {α β : Type} {grown : α → α → Prop}

theorem trans {first second third : List α} (early : Extended grown first second)
    (late : Extended grown second third) (step : ∀ a b c, grown a b → grown b c → grown a c) :
    Extended grown first third := by
  induction early generalizing third with
  | new more => exact .new third
  | keep part rest ih =>
    cases late with
    | keep part' rest' => exact .keep (step _ _ _ part part') (ih rest')

theorem of_map (before after : β → α) (each : ∀ b, grown (before b) (after b)) (old : List β)
    (more : List α) : Extended grown (old.map before) (old.map after ++ more) := by
  induction old with
  | nil => exact .new more
  | cons b rest ih => exact .keep (each b) ih

theorem refl (still : ∀ a, grown a a) (members : List α) : Extended grown members members := by
  simpa using of_map id id still members []

theorem flatMap_sublist {first second : List α} (extended : Extended grown first second)
    {lines : α → List β} (each : ∀ a b, grown a b → (lines a).Sublist (lines b)) :
    (first.flatMap lines).Sublist (second.flatMap lines) := by
  induction extended with
  | new more => exact List.nil_sublist _
  | keep part rest ih =>
    rw [List.flatMap_cons, List.flatMap_cons]
    exact (each _ _ part).append ih

end Extended

/-! ## Groups -/

/-- A group of the same relation with more actions behind its own. -/
structure GroupGrown (before after : String × List String) : Prop where
  relation : before.1 = after.1
  actions : before.2 <+: after.2

theorem groupGrown_refl (group : String × List String) : GroupGrown group group :=
  ⟨rfl, List.prefix_refl _⟩

theorem GroupGrown.trans {a b c : String × List String} (early : GroupGrown a b)
    (late : GroupGrown b c) : GroupGrown a c :=
  ⟨early.relation.trans late.relation, early.actions.trans late.actions⟩

theorem groupGrown_extendGroup (relation action : String) (group : String × List String) :
    GroupGrown group (extendGroup relation action group) := by
  unfold extendGroup
  split
  · exact ⟨rfl, List.prefix_append _ _⟩
  · exact groupGrown_refl group

theorem gather_concat_extended (pairs : List (String × String)) (pair : String × String) :
    Extended GroupGrown (gather pairs) (gather (pairs ++ [pair])) := by
  rw [gather_concat]
  split
  · simpa using Extended.of_map id _ (groupGrown_extendGroup pair.1 pair.2) (gather pairs) []
  · simpa using Extended.of_map id id groupGrown_refl (gather pairs) [(pair.1, [pair.2])]

/-- More pairs change groups at their ends only, and open new groups behind the others. -/
theorem gather_append_extended (pairs more : List (String × String)) :
    Extended GroupGrown (gather pairs) (gather (pairs ++ more)) := by
  induction more generalizing pairs with
  | nil =>
    rw [List.append_nil]
    exact .refl groupGrown_refl _
  | cons pair rest ih =>
    have later := ih (pairs ++ [pair])
    rw [List.append_assoc, List.singleton_append] at later
    exact (gather_concat_extended pairs pair).trans later fun _ _ _ => GroupGrown.trans

/-! ## Pictures -/

namespace Diagram

/-- The same block with the same edges, and more actions behind those of before. -/
structure ResourcePicture.Grown (before after : ResourcePicture) : Prop where
  name : before.name = after.name
  idPrefix : before.idPrefix = after.idPrefix
  direct : before.direct <+: after.direct
  groups : Extended GroupGrown before.groups after.groups
  edges : before.edges = after.edges

structure UnionPicture.Grown (before after : UnionPicture) : Prop where
  name : before.name = after.name
  direct : before.direct <+: after.direct
  groups : Extended GroupGrown before.groups after.groups
  members : before.members = after.members

structure Picture.Grown (before after : Picture) : Prop where
  resources : Extended ResourcePicture.Grown before.resources after.resources
  unions : Extended UnionPicture.Grown before.unions after.unions

theorem picture_append (first second : Document) : (picture first).Grown (picture (first ++ second)) := by
  have direct : ∀ name, directActions first.bindings name <+:
      directActions (first ++ second).bindings name := by
    intro name
    rw [Document.bindings_append, directActions_append]
    exact List.prefix_append _ _
  have groups : ∀ name, Extended GroupGrown (gather (relatedActions first.bindings name))
      (gather (relatedActions (first ++ second).bindings name)) := by
    intro name
    rw [Document.bindings_append, relatedActions_append]
    exact gather_append_extended _ _
  constructor
  · rw [picture, picture, Document.resourceTypes_append, List.map_append]
    apply Extended.of_map
    intro resource
    exact ⟨rfl, rfl, direct resource.name, groups resource.name, rfl⟩
  · rw [picture, picture, Document.unions_append, List.map_append]
    apply Extended.of_map
    intro union
    exact ⟨rfl, direct union.name, groups union.name, rfl⟩

theorem attributeLines_sublist {direct direct' : List String}
    {groups groups' : List (String × List String)} (longer : direct <+: direct')
    (extended : Extended GroupGrown groups groups') :
    (attributeLines direct groups).Sublist (attributeLines direct' groups') := by
  unfold attributeLines
  apply List.Sublist.append
  · exact longer.sublist.map _
  · apply extended.flatMap_sublist
    rintro ⟨relation, actions⟩ ⟨relation', actions'⟩ ⟨same, more⟩
    obtain rfl : relation = relation' := same
    exact more.sublist.map _

theorem ResourcePicture.Grown.lines {before after : ResourcePicture} (grown : before.Grown after) :
    before.lines.Sublist after.lines := by
  unfold ResourcePicture.lines
  rw [grown.name, grown.idPrefix, grown.edges]
  have attributes := attributeLines_sublist grown.direct grown.groups
  exact ((attributes.append_left _).append_right _).append_right _

theorem UnionPicture.Grown.lines {before after : UnionPicture} (grown : before.Grown after) :
    before.lines.Sublist after.lines := by
  unfold UnionPicture.lines
  rw [grown.name, grown.members]
  have attributes := attributeLines_sublist grown.direct grown.groups
  exact ((attributes.append_left _).append_right _).append_right _

theorem Picture.Grown.lines {before after : Picture} (grown : before.Grown after) :
    before.lines.Sublist after.lines := by
  unfold Picture.lines
  apply List.Sublist.append
  · exact grown.resources.flatMap_sublist fun _ _ => ResourcePicture.Grown.lines
  · exact grown.unions.flatMap_sublist fun _ _ => UnionPicture.Grown.lines

theorem linesOf_ofDocument_sublist {before after : Document}
    (grown : (picture before).Grown (picture after)) :
    (linesOf (ofDocument before)).Sublist (linesOf (ofDocument after)) := by
  rw [linesOf_ofDocument, linesOf_ofDocument]
  exact (grown.lines.flatMap _).cons_cons _

/-- With one more fragment at the end every block of the diagram is still there, at the same place among those of
its kind and with the same edges, its actions may have become more, and no line of the text is lost. -/
theorem fragment_only_adds (fragments : List Document) (fragment : Document) (some_before : fragments ≠ []) :
    (picture (.merge fragments)).Grown (picture (.merge (fragments ++ [fragment]))) ∧
      (linesOf (ofDocument (.merge fragments))).Sublist
        (linesOf (ofDocument (.merge (fragments ++ [fragment])))) := by
  have merged : Document.merge (fragments ++ [fragment]) = Document.merge fragments ++ fragment := by
    rw [Document.merge_of_ne_nil (List.append_ne_nil_of_left_ne_nil some_before _),
      Document.merge_of_ne_nil some_before, Document.concat_append, Document.concat_cons,
      Document.concat_nil, Document.append_empty]
  rw [merged]
  have grown := picture_append (Document.merge fragments) fragment
  exact ⟨grown, linesOf_ofDocument_sublist grown⟩

/-- A role that can be got, directly and through its parent. -/
def gotRole : Document :=
  ⟨[⟨"role", "permrol", [⟨"parent", ["role"]⟩]⟩], [⟨"subject", ["role"]⟩], [],
    [⟨"role", "get", [.roleBinding ⟨⟩, .relationshipAction ⟨"parent", "get"⟩]⟩]⟩

/-- Users, and more ways to set a role. -/
def setRole : Document :=
  ⟨[⟨"user", "idntusr", []⟩], [], [], [⟨"role", "set",
    [.roleBinding ⟨⟩, .relationshipAction ⟨"parent", "set"⟩, .relationshipAction ⟨"owner", "set"⟩]⟩]⟩

/-- The second fragment adds to the block of the role, to its group of the parent and behind that group, and its
type comes before the union. -/
theorem role_gains_actions :
    [gotRole] ≠ [] ∧
      (picture (.merge [gotRole])).lines.Sublist
        [.opening "role", .idPrefix "permrol", .direct "get", .direct "set", .related "parent" "get",
          .related "parent" "set", .related "owner" "set", .closing, .relationship "role" "role" "parent",
          .opening "user", .idPrefix "idntusr", .closing, .opening "subject", .closing,
          .membership "subject" "role"] ∧
      (linesOf (ofDocument (.merge [gotRole]))).Sublist
        (linesOf (ofDocument (.merge [gotRole, setRole]))) := by
  have some_before : [gotRole] ≠ [] := by decide
  obtain ⟨grown, lines⟩ := fragment_only_adds [gotRole] setRole some_before
  exact ⟨some_before, grown.lines, lines⟩

end Diagram

end PolicyDiagram

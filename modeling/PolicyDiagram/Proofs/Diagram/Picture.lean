import PolicyDiagram.Diagram.Render
import PolicyDiagram.Proofs.Index.Lookup

/-! The picture of a document: what its diagram shows, read off the declarations and bindings by scanning
them, without an index. The text of a picture is one line for each thing shown. The main statement is that
the diagram drawn through the index is the text of the picture. -/

namespace PolicyDiagram.Diagram

/-- A line of a diagram below the header. -/
inductive Line where
  | opening (name : String)
  | idPrefix (text : String)
  | direct (action : String)
  | related (relation action : String)
  | closing
  | relationship (source target relation : String)
  | membership (union member : String)
deriving DecidableEq, Repr

@[simp]
def Line.text : Line → String
  | opening name => "\t" ++ name ++ " \x7b"
  | idPrefix text => "\t\tid_prefix " ++ text
  | direct action => "\t\taction " ++ action
  | related relation action => "\t\t" ++ relation ++ "_action " ++ action
  | closing => "\t\x7d"
  | relationship source target relation =>
    "\t" ++ source ++ " \x7do--o\x7b " ++ target ++ " : " ++ relation
  | membership union member => "\t" ++ union ++ " ||--|| " ++ member ++ " : alias"

/-- What is shown of a resource type. An edge is a relation and a target. -/
structure ResourcePicture where
  name : String
  idPrefix : String
  direct : List String
  groups : List (String × List String)
  edges : List (String × String)
deriving DecidableEq, Repr

/-- What is shown of a union. -/
structure UnionPicture where
  name : String
  direct : List String
  groups : List (String × List String)
  members : List String
deriving DecidableEq, Repr

structure Picture where
  resources : List ResourcePicture
  unions : List UnionPicture
deriving DecidableEq, Repr

/-- The action lines of an entity. -/
def attributeLines (direct : List String) (groups : List (String × List String)) : List Line :=
  direct.map .direct ++ groups.flatMap fun group => group.2.map (.related group.1)

def ResourcePicture.lines (resource : ResourcePicture) : List Line :=
  [.opening resource.name, .idPrefix resource.idPrefix] ++
    attributeLines resource.direct resource.groups ++ [.closing] ++
    resource.edges.map fun edge => .relationship resource.name edge.2 edge.1

def UnionPicture.lines (union : UnionPicture) : List Line :=
  [.opening union.name] ++ attributeLines union.direct union.groups ++ [.closing] ++
    union.members.map (.membership union.name)

def Picture.lines (picture : Picture) : List Line :=
  picture.resources.flatMap ResourcePicture.lines ++ picture.unions.flatMap UnionPicture.lines

/-- The header and the lines, with a newline before every line but the header. -/
def Picture.text (picture : Picture) : String :=
  "\n".intercalate ("erDiagram" :: picture.lines.map Line.text)

/-- A resource type among bindings. Its edges are one for each target of each relationship. -/
def pictureResource (bindings : List ActionBinding) (resource : ResourceType) : ResourcePicture where
  name := resource.name
  idPrefix := resource.idPrefix
  direct := directActions bindings resource.name
  groups := gather (relatedActions bindings resource.name)
  edges := resource.relationships.flatMap fun relationship =>
    relationship.targets.map (relationship.relation, ·)

/-- A union among bindings. -/
def pictureUnion (bindings : List ActionBinding) (union : UnionType) : UnionPicture where
  name := union.name
  direct := directActions bindings union.name
  groups := gather (relatedActions bindings union.name)
  members := union.members

/-- The picture of a document. -/
def picture (document : Document) : Picture where
  resources := document.resourceTypes.map (pictureResource document.bindings)
  unions := document.unions.map (pictureUnion document.bindings)

/-! ## The diagram and its picture -/

/-- The text of lines, each with the newline before it. -/
def below (lines : List Line) : String := String.join (lines.map fun line => "\n" ++ line.text)

theorem below_append (first second : List Line) :
    below (first ++ second) = below first ++ below second := by
  simp only [below, List.map_append, String.join_append]

theorem below_singleton (line : Line) : below [line] = "\n" ++ line.text := by
  simp [below, String.join_cons]

theorem Picture.text_eq (picture : Picture) : picture.text = header ++ below picture.lines := by
  have general : ∀ (first : String) (lines : List Line),
      "\n".intercalate (first :: lines.map Line.text) = first ++ below lines := by
    intro first lines
    induction lines generalizing first with
    | nil => simp [below]
    | cons line rest ih =>
      rw [List.map_cons, String.intercalate_cons_cons, ih]
      simp only [below, List.map_cons, String.join_cons, String.append_assoc]
  exact general header picture.lines

/-- Pieces that make up lines part by part make up the lines of all parts. -/
theorem join_flatMap {α : Type} (parts : List α) (pieces : α → List String) (lines : α → List Line)
    (part : ∀ a ∈ parts, String.join (pieces a) = below (lines a)) :
    String.join (parts.flatMap pieces) = below (parts.flatMap lines) := by
  induction parts with
  | nil => rfl
  | cons a rest ih =>
    rw [List.flatMap_cons, List.flatMap_cons, String.join_append, below_append,
      part a List.mem_cons_self, ih fun b member => part b (List.mem_cons_of_mem a member)]

/-- As `join_flatMap`, where every part is one line. -/
theorem join_flatMap_line {α : Type} (parts : List α) (pieces : α → List String) (line : α → Line)
    (part : ∀ a, String.join (pieces a) = "\n" ++ (line a).text) :
    String.join (parts.flatMap pieces) = below (parts.map line) := by
  rw [List.map_eq_flatMap]
  apply join_flatMap
  intro a _
  rw [part, below_singleton]

theorem join_opening (name : String) :
    String.join (opening name) = "\n" ++ (Line.opening name).text := by
  simp [opening, Line.text, String.join_cons, ← String.append_assoc]

theorem join_prefixLine (text : String) :
    String.join (prefixLine text) = "\n" ++ (Line.idPrefix text).text := by
  simp [prefixLine, Line.text, String.join_cons, ← String.append_assoc]

theorem join_directLine (action : String) :
    String.join (directLine action) = "\n" ++ (Line.direct action).text := by
  simp [directLine, Line.text, String.join_cons, ← String.append_assoc]

theorem join_relatedLine (relation action : String) :
    String.join (relatedLine relation action) = "\n" ++ (Line.related relation action).text := by
  simp [relatedLine, Line.text, String.join_cons, ← String.append_assoc]

theorem join_closing : String.join closing = "\n" ++ Line.closing.text := by
  simp [closing, Line.text, String.join_cons]

theorem join_relationshipEdge (source target relation : String) :
    String.join (edgeLine source relationshipArrow target relation) =
      "\n" ++ (Line.relationship source target relation).text := by
  simp [edgeLine, relationshipArrow, Line.text, String.join_cons, ← String.append_assoc]

theorem join_memberEdge (union member : String) :
    String.join (edgeLine union aliasArrow member aliasLabel) =
      "\n" ++ (Line.membership union member).text := by
  simp [edgeLine, aliasArrow, aliasLabel, Line.text, String.join_cons, ← String.append_assoc]

theorem join_attributes {index : ActionIndex} {bindings : List ActionBinding}
    (answers : index.Answers (clauses bindings)) (name : String) :
    String.join (attributes index name) =
      below (attributeLines (directActions bindings name) (gather (relatedActions bindings name))) := by
  have direct : String.join ((index.direct.actionsFor name).flatMap directLine) =
      below ((directActions bindings name).map .direct) := by
    rw [answers.direct name]
    exact join_flatMap_line _ _ _ join_directLine
  have related : ∀ groups : List (String × List String),
      String.join (groups.flatMap fun group => group.2.flatMap (relatedLine group.1)) =
        below (groups.flatMap fun group => group.2.map (.related group.1)) := by
    intro groups
    apply join_flatMap
    intro group _
    exact join_flatMap_line _ _ _ (join_relatedLine group.1)
  unfold attributes
  rw [String.join_append, direct, attributeLines, below_append]
  congr 1
  split
  · rename_i table found
    rw [answers.related name] at found
    rw [related, RelationGroups.groups_of_ofPairs? found]
    rfl
  · rename_i found
    rw [answers.related name] at found
    have nothing : relatedActions bindings name = [] := RelationGroups.ofPairs?_eq_none.mp found
    rw [nothing]
    rfl

theorem join_resourcePieces {index : ActionIndex} {bindings : List ActionBinding}
    (answers : index.Answers (clauses bindings)) (resource : ResourceType) :
    String.join (resourcePieces index resource) = below (pictureResource bindings resource).lines := by
  have edges : String.join (relationshipEdges resource) =
      below ((resource.relationships.flatMap fun relationship =>
        relationship.targets.map (relationship.relation, ·)).map fun edge =>
          .relationship resource.name edge.2 edge.1) := by
    rw [List.map_flatMap]
    apply join_flatMap
    intro relationship _
    rw [List.map_map]
    apply join_flatMap_line
    intro target
    exact join_relationshipEdge resource.name target relationship.relation
  have head : below [.opening resource.name, .idPrefix resource.idPrefix] =
      below [.opening resource.name] ++ below [.idPrefix resource.idPrefix] :=
    below_append [_] [_]
  simp only [resourcePieces, ResourcePicture.lines, pictureResource, String.join_append, below_append]
  rw [edges, join_attributes answers, head, join_opening, join_prefixLine, join_closing]
  simp only [below_singleton]

theorem join_unionPieces {index : ActionIndex} {bindings : List ActionBinding}
    (answers : index.Answers (clauses bindings)) (union : UnionType) :
    String.join (unionPieces index union) = below (pictureUnion bindings union).lines := by
  have edges : String.join (memberEdges union) =
      below (union.members.map (.membership union.name)) :=
    join_flatMap_line _ _ _ (join_memberEdge union.name)
  simp only [unionPieces, UnionPicture.lines, pictureUnion, String.join_append, below_append]
  rw [edges, join_attributes answers, join_opening, join_closing]
  simp only [below_singleton]

/-- Any index that answers as a scan of the bindings does draws the picture. -/
theorem render_of_answers {index : ActionIndex} {document : Document}
    (answers : index.Answers (clauses document.bindings)) :
    render index document.resourceTypes document.unions = (picture document).text := by
  have resources : String.join (document.resourceTypes.flatMap (resourcePieces index)) =
      below ((picture document).resources.flatMap ResourcePicture.lines) := by
    rw [picture, List.flatMap_map]
    exact join_flatMap _ _ _ fun resource _ => join_resourcePieces answers resource
  have unions : String.join (document.unions.flatMap (unionPieces index)) =
      below ((picture document).unions.flatMap UnionPicture.lines) := by
    rw [picture, List.flatMap_map]
    exact join_flatMap _ _ _ fun union _ => join_unionPieces answers union
  rw [render, pieces, String.join_cons, String.join_append, resources, unions, Picture.text_eq,
    Picture.lines, below_append]

/-- The diagram that is drawn through the index of the bindings is the text of the picture, which no index
takes part in. -/
theorem render_build_eq_text (document : Document) :
    render (.build document.bindings) document.resourceTypes document.unions =
      (picture document).text :=
  render_of_answers (ActionIndex.answers_build document.bindings)

end PolicyDiagram.Diagram

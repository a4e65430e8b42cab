import PolicyDiagram.Diagram.Index

/-!
The entity-relationship diagram of a policy: a block for each resource type and each union, followed by its
edges. The text is a list of pieces, so that a sink which can fail sees it piece by piece.
-/

namespace PolicyDiagram.Diagram

def header : String := "erDiagram"

def relationshipArrow : String := "\x7do--o\x7b"

def aliasArrow : String := "||--||"

def aliasLabel : String := "alias"

def opening (name : String) : List String := ["\n\t", name, " \x7b"]

def closing : List String := ["\n\t\x7d"]

def prefixLine (idPrefix : String) : List String := ["\n\t\tid_prefix ", idPrefix]

def directLine (action : String) : List String := ["\n\t\taction ", action]

def relatedLine (relation action : String) : List String := ["\n\t\t", relation, "_action ", action]

def edgeLine (source arrow target label : String) : List String :=
  ["\n\t", source, " ", arrow, " ", target, " : ", label]

def attributes (index : ActionIndex) (typeName : String) : List String :=
  (index.direct.actionsFor typeName).flatMap directLine ++
    match index.related.groupsFor typeName with
    | some table => table.groups.flatMap fun group => group.2.flatMap (relatedLine group.1)
    | none => []

def relationshipEdges (resource : ResourceType) : List String :=
  resource.relationships.flatMap fun relationship =>
    relationship.targets.flatMap fun target =>
      edgeLine resource.name relationshipArrow target relationship.relation

def memberEdges (union : UnionType) : List String :=
  union.members.flatMap fun member => edgeLine union.name aliasArrow member aliasLabel

def resourcePieces (index : ActionIndex) (resource : ResourceType) : List String :=
  opening resource.name ++ prefixLine resource.idPrefix ++ attributes index resource.name ++
    closing ++ relationshipEdges resource

def unionPieces (index : ActionIndex) (union : UnionType) : List String :=
  opening union.name ++ attributes index union.name ++ closing ++ memberEdges union

def pieces (index : ActionIndex) (resources : List ResourceType) (unions : List UnionType) :
    List String :=
  header :: (resources.flatMap (resourcePieces index) ++ unions.flatMap (unionPieces index))

def render (index : ActionIndex) (resources : List ResourceType) (unions : List UnionType) : String :=
  String.join (pieces index resources unions)

def ofDocument (document : Document) : String :=
  render (.build document.bindings) document.resourceTypes document.unions

end PolicyDiagram.Diagram

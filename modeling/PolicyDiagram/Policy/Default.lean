import PolicyDiagram.Policy.Document

/-!
The built-in policy document, which stands in when a run is given no fragment at all.
-/

namespace PolicyDiagram.Document

def grants : List (String × String × String) :=
  [("loadbalancer_create", "resourceowner", "parent"),
   ("loadbalancer_get", "loadbalancer", "owner"),
   ("loadbalancer_list", "resourceowner", "parent"),
   ("loadbalancer_update", "loadbalancer", "owner"),
   ("loadbalancer_delete", "loadbalancer", "owner")]

def builtIn : Document where
  resourceTypes :=
    [⟨"role", "permrol", [⟨"subject", ["subject"]⟩]⟩,
     ⟨"user", "idntusr", []⟩,
     ⟨"client", "idntclt", []⟩,
     ⟨"tenant", "tnntten", [⟨"parent", ["tenant"]⟩]⟩,
     ⟨"loadbalancer", "loadbal", [⟨"owner", ["resourceowner"]⟩]⟩]
  unions := [⟨"subject", ["user", "client"]⟩, ⟨"resourceowner", ["tenant"]⟩]
  actions := grants.map fun (action, _, _) => ⟨action⟩
  bindings := grants.map fun (action, typeName, relation) =>
    ⟨typeName, action, [.roleBinding ⟨⟩, .relationshipAction ⟨relation, action⟩]⟩

end PolicyDiagram.Document

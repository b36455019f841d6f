import ResourceGraph.Rule.Basic

/-!
# Rule tables

A table holds rules in the order of their registration, and every search gives the first rule that fits, so
rules added at the end never change an answer that was found before.
-/

namespace ResourceGraph

/-- Rules in the order of their registration. -/
structure RuleTable where
  rules : List Rule := []
deriving DecidableEq

/-- A relationship for which a table has no rule. -/
structure UnknownRelationship where
  relationship : Relationship
deriving DecidableEq

def UnknownRelationship.message (error : UnknownRelationship) : String :=
  "rule not found for relationship type: " ++ error.relationship.name

namespace RuleTable

/-- The first rule of a relationship. -/
def ruleFor (table : RuleTable) (relationship : Relationship) : Except UnknownRelationship Rule :=
  match table.rules.find? (·.relationship = relationship) with
  | some rule => .ok rule
  | none => .error { relationship }

/-- The first rule that connects two kinds. -/
def firstConnecting? (table : RuleTable) (a b : String) : Option Rule :=
  table.rules.find? (·.connects a b)

/-- A rule with one criterion, a comparison by `exactMatch`. -/
def occurrence (kindA kindB relationship fieldA fieldB : String) : Rule where
  kindA
  kindB
  relationship := ⟨relationship⟩
  criteria := [{ fieldA, fieldB, comparison := .exactMatch }]

/-- A rule with one criterion, a comparison by `containsAll`. -/
def selection (kindA kindB relationship fieldA fieldB : String) : Rule where
  kindA
  kindB
  relationship := ⟨relationship⟩
  criteria := [{ fieldA, fieldB, comparison := .containsAll }]

/-- A rule that finds the owner of a resource by the names in its owner references. -/
def ownership (owned owner relationship : String) : Rule :=
  occurrence owned owner relationship "$.metadata.ownerReferences[].name" "$.metadata.name"

/-- The relationships between the standard kinds of a cluster. -/
def builtin : RuleTable where
  rules := [
    ownership "replicasets" "deployments" "DEPLOYMENT_OWN_REPLICASET",
    ownership "pods" "replicasets" "REPLICASET_OWN_POD",
    ownership "pods" "statefulsets" "STATEFULSET_OWN_POD",
    ownership "pods" "daemonsets" "DAEMONSET_OWN_POD",
    ownership "pods" "jobs" "JOB_OWN_POD",
    selection "pods" "services" "SERVICE_EXPOSE_POD" "$.metadata.labels" "$.spec.selector",
    occurrence "ingresses" "services" "INGRESS_ROUTE_SERVICE"
      "$.spec.rules[].http.paths[].backend.service.name" "$.metadata.name",
    occurrence "pods" "configmaps" "POD_USE_CONFIGMAP" "$.spec.volumes[].configMap.name" "$.metadata.name",
    occurrence "pods" "secrets" "POD_USE_SECRET" "$.spec.volumes[].secret.secretName" "$.metadata.name",
    occurrence "pods" "persistentvolumeclaims" "POD_USE_PVC"
      "$.spec.volumes[].persistentVolumeClaim.claimName" "$.metadata.name",
    occurrence "persistentvolumeclaims" "persistentvolumes" "PVC_BOUND_PV" "$.spec.volumeName" "$.metadata.name",
    occurrence "horizontalpodautoscalers" "deployments" "HPA_SCALE_DEPLOYMENT"
      "$.spec.scaleTargetRef.name" "$.metadata.name",
    selection "networkpolicies" "pods" "NETWORKPOLICY_APPLY_POD"
      "$.metadata.labels" "$.spec.podSelector.matchLabels"]

end RuleTable

end ResourceGraph

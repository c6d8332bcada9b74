import Knaic.Kube.Api

open Go Effects

namespace Admin

open Kube

def groupName : Str :=
  str "rbac.authorization.k8s.io"

structure PolicyRule where
  apiGroups : List Str
  resources : List Str
  verbs     : List Str
deriving DecidableEq

structure Role where
  id    : Str
  name  : Str
  ns    : Str
  kind  : Str
  rules : List PolicyRule
deriving DecidableEq

structure RoleRef where
  kind : Str
  name : Str
deriving DecidableEq

structure Subject where
  kind : Str
  name : Str
deriving DecidableEq

structure RoleBinding where
  id       : Str
  name     : Str
  ns       : Str
  roleRef  : RoleRef
  subjects : List Subject
deriving DecidableEq

-- The service, with a client for the cluster or without.
structure Service where
  typed : Bool

def toPolicyRules (rules : List PolicyRule) : List Kube.PolicyRule :=
  rules.map fun r => {
    verbs           := r.verbs
    apiGroups       := r.apiGroups
    resources       := r.resources
    resourceNames   := []
    nonResourceURLs := []
  }

def fromPolicyRules (rules : List Kube.PolicyRule) : List PolicyRule :=
  rules.map fun r => ⟨r.apiGroups, r.resources, r.verbs⟩

def toSubjects (subjects : List Subject) : List Kube.Subject :=
  subjects.map fun s => {
    kind     := s.kind
    apiGroup := groupName
    name     := s.name
    ns       := []
  }

def fromSubjects (subjects : List Kube.Subject) : List Subject :=
  subjects.map fun s => ⟨s.kind, s.name⟩

def fromK8sRole (r : Object .role) : Role where
  id    := r.metadata.ns ++ str "/Role/" ++ r.metadata.name
  name  := r.metadata.name
  ns    := r.metadata.ns
  kind  := str "Role"
  rules := fromPolicyRules r.body.rules

def fromK8sClusterRole (r : Object .clusterRole) : Role where
  id    := str "cluster/ClusterRole/" ++ r.metadata.name
  name  := r.metadata.name
  ns    := []
  kind  := str "ClusterRole"
  rules := fromPolicyRules r.body.rules

def fromK8sRoleBinding (b : Object .roleBinding) : RoleBinding where
  id       := b.metadata.ns ++ str "/" ++ b.metadata.name
  name     := b.metadata.name
  ns       := b.metadata.ns
  roleRef  := ⟨b.body.roleRef.kind, b.body.roleRef.name⟩
  subjects := fromSubjects b.body.subjects

def objectMeta (name ns : Str) : ObjectMeta where
  name              := name
  ns                := ns
  labels            := ∅
  annotations       := ∅
  creationTimestamp := Time.zero
  resourceVersion   := 0

-- Creates the object, or replaces the one of its name.
def upsert (k : Kind) (obj : Object k) : Call (Object k) := do
  let existing ← attempt (get k obj.key)
  match existing with
  | .error err => if errNotFound.is err then create k obj else throw err
  | .ok old    => update k (obj.replacing old.metadata.resourceVersion)

def requireClient (s : Service) : Call Unit :=
  if s.typed then return else throw (.new "kubernetes client unavailable")

def upsertRole (s : Service) (ns : Str) (role : Role) : Call Role := do
  requireClient s
  if role.name = [] then
    throw (.new "name is required")
  else
    let kind := if role.kind = [] then str "Role" else role.kind
    if kind = str "Role" then
      let obj ← upsert .role ⟨objectMeta role.name ns, ⟨toPolicyRules role.rules⟩⟩
      return fromK8sRole obj
    else if kind = str "ClusterRole" then
      let obj ← upsert .clusterRole ⟨objectMeta role.name [], ⟨toPolicyRules role.rules, none⟩⟩
      return fromK8sClusterRole obj
    else
      throw (.errorf "unknown role kind %q" [kind])

def upsertRoleBinding (s : Service) (ns : Str) (binding : RoleBinding) : Call RoleBinding := do
  requireClient s
  if binding.name = [] ∨ binding.roleRef.name = [] then
    throw (.new "name and roleRef.name are required")
  else
    let kind := if binding.roleRef.kind = [] then str "Role" else binding.roleRef.kind
    let obj ← upsert .roleBinding {
      metadata := objectMeta binding.name ns
      body     := {
        subjects := toSubjects binding.subjects
        roleRef  := ⟨groupName, kind, binding.roleRef.name⟩
      }
    }
    return fromK8sRoleBinding obj

end Admin

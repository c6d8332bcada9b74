import Mathlib.Logic.Function.Basic
import Knaic.Go.Map
import Knaic.Go.Time

open Go

namespace Kube

-- Lower-case letters, digits and dashes inside, at most 63 of them.
def IsDNS1123Label (name : Str) : Bool :=
  name ≠ [] && name.length ≤ 63 && name.head? ≠ some 45 && name.getLast? ≠ some 45 &&
    name.all fun b => 97 ≤ b && b ≤ 122 || 48 ≤ b && b ≤ 57 || b == 45

structure ObjectMeta where
  name              : Str
  ns                : Str
  labels            : Go.Map Str
  annotations       : Go.Map Str
  creationTimestamp : Time
  resourceVersion   : Nat

-- A quantity is what `String` prints of it.
structure Quantity where
  text : Str
deriving DecidableEq

structure EnvVar where
  name  : Str
  value : Str
deriving DecidableEq

structure VolumeMount where
  name      : Str
  mountPath : Str
  subPath   : Str
deriving DecidableEq

structure Container where
  name            : Str
  image           : Str
  imagePullPolicy : Str
  command         : List Str
  args            : List Str
  env             : List EnvVar
  ports           : List (Str × Nat)
  requests        : Go.Map Quantity
  limits          : Go.Map Quantity
  volumeMounts    : List VolumeMount
  readinessPath   : Option Str

-- A volume that is a claim on a PVC.
structure Volume where
  name      : Str
  claimName : Str
deriving DecidableEq

structure DeploymentBody where
  replicas         : Option Int
  selector         : Go.Map Str
  podLabels        : Go.Map Str
  podAnnotations   : Go.Map Str
  imagePullSecrets : List Str
  containers       : List Container
  volumes          : List Volume
  readyReplicas    : Int
  conditions       : List (Str × Str)

structure ServicePort where
  name       : Str
  port       : Nat
  targetPort : Nat
deriving DecidableEq

structure ServiceBody where
  selector : Go.Map Str
  ports    : List ServicePort

structure PVCBody where
  accessModes      : List Str
  requests         : Go.Map Quantity
  storageClassName : Option Str

structure PolicyRule where
  verbs           : List Str
  apiGroups       : List Str
  resources       : List Str
  resourceNames   : List Str
  nonResourceURLs : List Str
deriving DecidableEq

structure LabelSelector where
  matchLabels      : Go.Map Str
  matchExpressions : List (Str × Str × List Str)

structure RoleBody where
  rules : List PolicyRule
deriving DecidableEq

structure ClusterRoleBody where
  rules           : List PolicyRule
  aggregationRule : Option (List LabelSelector)

structure Subject where
  kind     : Str
  apiGroup : Str
  name     : Str
  ns       : Str
deriving DecidableEq

structure RoleRef where
  apiGroup : Str
  kind     : Str
  name     : Str
deriving DecidableEq

structure RoleBindingBody where
  subjects : List Subject
  roleRef  : RoleRef
deriving DecidableEq

-- The secrets of a ServiceAccount by their names.
structure ServiceAccountBody where
  secrets : List Str

-- What is sent as `stringData` is stored as data.
structure SecretBody where
  type : Str
  data : Go.Map Str

inductive Kind
  | deployment
  | service
  | pvc
  | role
  | clusterRole
  | roleBinding
  | secret
  | serviceAccount
deriving DecidableEq

abbrev Body : Kind → Type
  | .deployment     => DeploymentBody
  | .service        => ServiceBody
  | .pvc            => PVCBody
  | .role           => RoleBody
  | .clusterRole    => ClusterRoleBody
  | .roleBinding    => RoleBindingBody
  | .secret         => SecretBody
  | .serviceAccount => ServiceAccountBody

structure Object (k : Kind) where
  metadata : ObjectMeta
  body     : Body k

abbrev Deployment := Object .deployment
abbrev Service    := Object .service
abbrev PVC        := Object .pvc

abbrev Secret         := Object .secret
abbrev ServiceAccount := Object .serviceAccount

-- A namespace and a name.
abbrev Key :=
  Str × Str

-- Only cluster roles are outside all namespaces.
def ObjectMeta.key (m : ObjectMeta) : Kind → Key
  | .clusterRole => ([], m.name)
  | _            => (m.ns, m.name)

def Object.key (o : Object k) : Key :=
  o.metadata.key k

-- The fields that the API server fills in.
def Object.stamp (o : Object k) (created : Time) (version : Nat) : Object k where
  metadata := { o.metadata with creationTimestamp := created, resourceVersion := version }
  body     := o.body

-- The object as it is sent to replace one of the given version.
def Object.replacing (o : Object k) (version : Nat) : Object k where
  metadata := { o.metadata with resourceVersion := version }
  body     := o.body

abbrev Cluster :=
  (k : Kind) → Finmap fun _ : Key => Object k

namespace Cluster

def put (c : Cluster) (key : Key) (o : Object k) : Cluster :=
  Function.update c k ((c k).insert key o)

def drop (c : Cluster) (k : Kind) (key : Key) : Cluster :=
  Function.update c k ((c k).erase key)

-- A property of all objects of a cluster, each with the key that it is stored under.
def Everywhere (φ : (k : Kind) → Key → Object k → Prop) (c : Cluster) : Prop :=
  ∀ k key o, (c k).lookup key = some o → φ k key o

-- Every object is stored under its own name.
def Filed (c : Cluster) : Prop :=
  c.Everywhere fun _ key o => o.key = key

variable {c : Cluster} {k k' : Kind} {key key' : Key} {o : Object k} {o' : Object k'}
variable {φ : (k : Kind) → Key → Object k → Prop}

theorem lookup_put (c : Cluster) (key : Key) (o : Object k) :
    (c.put key o k).lookup key = some o := by
  rw [put, Function.update_self, Finmap.lookup_insert]

namespace Everywhere

theorem put (h : Everywhere φ c) (ho : φ k key o) : Everywhere φ (c.put key o) := by
  intro k' key' o' hl
  by_cases hk : k' = k
  case neg => exact h k' key' o' (by rwa [Cluster.put, Function.update_of_ne hk] at hl)
  case pos =>
    subst hk
    rw [Cluster.put, Function.update_self] at hl
    by_cases he : key' = key
    case pos =>
      subst he
      cases (Finmap.lookup_insert _).symm.trans hl
      exact ho
    case neg => exact h k' key' o' (by rwa [Finmap.lookup_insert_of_ne _ he] at hl)

theorem drop (h : Everywhere φ c) : Everywhere φ (c.drop k key) := by
  intro k' key' o' hl
  by_cases hk : k' = k
  case neg => exact h k' key' o' (by rwa [Cluster.drop, Function.update_of_ne hk] at hl)
  case pos =>
    subst hk
    rw [Cluster.drop, Function.update_self] at hl
    by_cases he : key' = key
    case pos => subst he; cases (Finmap.lookup_erase _ _).symm.trans hl
    case neg => exact h k' key' o' (by rwa [Finmap.lookup_erase_ne he] at hl)

end Everywhere

theorem Filed.found (hc : c.Filed) (hl : (c k).lookup key = some o) : (c k).lookup o.key = some o := by
  rw [hc k key o hl]
  exact hl

end Cluster
end Kube

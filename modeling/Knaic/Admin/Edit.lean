import Knaic.Admin.Rbac

open Go Effects

namespace Admin

open Kube

inductive Resource
  | role
  | clusterRole
  | roleBinding

abbrev Resource.kind : Resource → Kind
  | .role        => .role
  | .clusterRole => .clusterRole
  | .roleBinding => .roleBinding

-- The console saves its own view of an object unchanged.
def save (s : Service) : (r : Resource) → Object r.kind → Call Unit
  | .role, o        => (upsertRole s o.metadata.ns (fromK8sRole o)).void
  | .clusterRole, o => (upsertRole s o.metadata.ns (fromK8sClusterRole o)).void
  | .roleBinding, o => (upsertRoleBinding s o.metadata.ns (fromK8sRoleBinding o)).void

-- What is left of an object in the console's view of it.
def written : (r : Resource) → Object r.kind → Object r.kind
  | .role, o        =>
    ⟨objectMeta o.metadata.name o.metadata.ns, ⟨toPolicyRules (fromPolicyRules o.body.rules)⟩⟩
  | .clusterRole, o =>
    ⟨objectMeta o.metadata.name [], ⟨toPolicyRules (fromPolicyRules o.body.rules), none⟩⟩
  | .roleBinding, o =>
    ⟨objectMeta o.metadata.name o.metadata.ns, {
      subjects := toSubjects (fromSubjects o.body.subjects)
      roleRef  := {
        apiGroup := groupName
        kind     := if o.body.roleRef.kind = [] then str "Role" else o.body.roleRef.kind
        name     := o.body.roleRef.name
      }
    }⟩

def Unnamed : (r : Resource) → Object r.kind → Prop
  | .role, o | .clusterRole, o => o.metadata.name = []
  | .roleBinding, o            => o.metadata.name = [] ∨ o.body.roleRef.name = []

instance : (r : Resource) → (o : Object r.kind) → Decidable (Unnamed r o)
  | .role, o        => inferInstanceAs (Decidable (o.metadata.name = []))
  | .clusterRole, o => inferInstanceAs (Decidable (o.metadata.name = []))
  | .roleBinding, o => inferInstanceAs (Decidable (o.metadata.name = [] ∨ o.body.roleRef.name = []))

def PlainRules (rules : List Kube.PolicyRule) : Prop :=
  ∀ rule ∈ rules, rule.resourceNames = [] ∧ rule.nonResourceURLs = []

def PlainSubjects (subjects : List Kube.Subject) : Prop :=
  ∀ s ∈ subjects, s.apiGroup = groupName ∧ s.ns = []

-- The object has nothing that the console's view leaves out.
def Plain : (r : Resource) → Object r.kind → Prop
  | .role, o        => PlainRules o.body.rules
  | .clusterRole, o => PlainRules o.body.rules ∧ o.body.aggregationRule = none
  | .roleBinding, o =>
    PlainSubjects o.body.subjects ∧ o.body.roleRef.apiGroup = groupName ∧ o.body.roleRef.kind ≠ []

-- The service or the API server turns the console's version of the object down.
def Refused (a : Admission) (r : Resource) (o : Object r.kind) : Prop :=
  Unnamed r o ∨ ¬a.update r.kind o ((written r o).replacing o.metadata.resourceVersion)

-- The rules, the aggregation, the role and the subjects of the object are still there.
def Kept (o : Object k) (c : Cluster) : Prop :=
  ((c k).lookup o.key).map Object.body = some o.body

-- The API server with its validation.
def server (a : Admission) (op : ops.Op) (d : Draw) (c : Cluster) : ops.Res op × Cluster :=
  answer op (validated a op c d) c

theorem toPolicyRules_from (rules : List Kube.PolicyRule) :
    toPolicyRules (fromPolicyRules rules) = rules ↔ PlainRules rules := by
  induction rules
  case nil            => simp [toPolicyRules, fromPolicyRules, PlainRules]
  case cons r rest hi =>
    have hr : (⟨r.verbs, r.apiGroups, r.resources, [], []⟩ : Kube.PolicyRule) = r ↔
        r.resourceNames = [] ∧ r.nonResourceURLs = [] := by
      cases r
      simp [eq_comm]
    simp only [toPolicyRules, fromPolicyRules, PlainRules, List.map_cons, List.cons.injEq,
      List.forall_mem_cons] at hi ⊢
    rw [hr, hi]

theorem toSubjects_from (subjects : List Kube.Subject) :
    toSubjects (fromSubjects subjects) = subjects ↔ PlainSubjects subjects := by
  induction subjects
  case nil            => simp [toSubjects, fromSubjects, PlainSubjects]
  case cons s rest hi =>
    have hs : (⟨s.kind, groupName, s.name, []⟩ : Kube.Subject) = s ↔
        s.apiGroup = groupName ∧ s.ns = [] := by
      cases s
      simp [eq_comm]
    simp only [toSubjects, fromSubjects, PlainSubjects, List.map_cons, List.cons.injEq,
      List.forall_mem_cons] at hi ⊢
    rw [hs, hi]

theorem written_body (r : Resource) (o : Object r.kind) :
    (written r o).body = o.body ↔ Plain r o := by
  obtain ⟨m, body⟩ := o
  cases r
  case role =>
    cases body
    simp [written, Plain, toPolicyRules_from]
  case clusterRole =>
    cases body
    simp only [written, Plain, ClusterRoleBody.mk.injEq, toPolicyRules_from]
    rw [eq_comm (a := none)]
  case roleBinding =>
    obtain ⟨subjects, ⟨apiGroup, kind, name⟩⟩ := body
    have hk : (if kind = [] then str "Role" else kind) = kind ↔ kind ≠ [] := by
      by_cases hk : kind = []
      case pos => subst hk; decide
      case neg => simp [hk]
    simp only [written, Plain, RoleBindingBody.mk.injEq, Kube.RoleRef.mk.injEq, toSubjects_from, hk,
      and_true]
    rw [eq_comm (a := groupName)]

section Upsert

variable {a : Admission} {k : Kind} {o obj : Object k} {c : Cluster} {d : Draw}

theorem server_get (h : (c k).lookup obj.key = some o) :
    server a (.get k obj.key) d c = (d.failure.elim (.ok o) .error, c) := by
  cases hd : d.failure <;> simp [server, validated, answer, hd, h]

-- The name is taken.
theorem server_create (h : (c k).lookup obj.key = some o) :
    (server a (.create k obj) d c).2 = c := by
  cases hd : d.failure <;> cases ha : a.create k obj <;> simp [server, validated, answer, hd, ha, h]

theorem server_update (h : (c k).lookup obj.key = some o)
    (hv : obj.metadata.resourceVersion = o.metadata.resourceVersion) :
    (server a (.update k obj) d c).2 =
    if d.failure = none ∧ a.update k o obj then
      c.put obj.key (obj.stamp o.metadata.creationTimestamp (o.metadata.resourceVersion + 1))
    else c := by
  cases hd : d.failure <;> cases ha : a.update k o obj <;>
    simp [server, validated, answer, hd, ha, h, hv]

theorem kept_put : Kept o (c.put o.key o) := by
  simp [Kept, Cluster.lookup_put]

-- Replacing an object keeps it only if nothing changes or the replacement is turned down.
theorem kept_update (hk : obj.key = o.key)
    (hv : obj.metadata.resourceVersion = o.metadata.resourceVersion) :
    Kept o (server a (.update k obj) d (c.put o.key o)).2 ↔
    (d.failure = none ∧ a.update k o obj → obj.body = o.body) := by
  have hl : ((c.put o.key o) k).lookup obj.key = some o := by rw [hk, Cluster.lookup_put]
  rw [server_update hl hv]
  split
  case isTrue h =>
    rw [Kept, hk, Cluster.lookup_put]
    simp [h, Object.stamp]
  case isFalse h => simp [kept_put, h]

theorem upsert_iff (hk : obj.key = o.key) :
    (∀ c : Cluster, Prog.Always (server a) (fun _ c => Kept o c) (upsert k obj) (c.put o.key o)) ↔
    obj.body = o.body ∨ ¬a.update k o (obj.replacing o.metadata.resourceVersion) := by
  have hl (c : Cluster) : ((c.put o.key o) k).lookup obj.key = some o := by
    rw [hk, Cluster.lookup_put]
  have hr : (obj.replacing o.metadata.resourceVersion).key = o.key := hk
  constructor
  case mp =>
    intro h
    have hc := h (fun _ => ∅) ⟨Time.zero, [], none⟩
    rw [server_get (hl _)] at hc
    have hu := (kept_update hr rfl).mp (hc ⟨Time.zero, [], none⟩)
    by_cases ha : a.update k o (obj.replacing o.metadata.resourceVersion)
    case pos => exact .inl (hu ⟨rfl, ha⟩)
    case neg => exact .inr ha
  case mpr =>
    intro h c d
    rw [server_get (hl _)]
    cases hd : d.failure
    case none   =>
      exact fun d' => (kept_update hr rfl).mpr fun hu => h.resolve_right (not_not.mpr hu.right)
    case some e =>
      -- The object is there, whatever the failed request says.
      change Prog.Always (server a) (fun _ c => Kept o c)
        (if errNotFound.is e then create k obj else throw e : Call (Object k)) _
      split
      case isFalse => exact kept_put
      case isTrue  =>
        intro d'
        change Kept o (server a (.create k obj) d' _).2
        rw [server_create (hl _)]
        exact kept_put

end Upsert

theorem written_key (r : Resource) (o : Object r.kind) : (written r o).key = o.key := by
  cases r <;> rfl

-- The service turns down a view without a name.
theorem save_unnamed {r : Resource} {o : Object r.kind} (h : Unnamed r o) :
    ∃ e, save ⟨true⟩ r o = throw e := by
  cases r
  case role =>
    have hs : upsertRole ⟨true⟩ o.metadata.ns (fromK8sRole o) = throw (.new "name is required") :=
      if_pos h
    exact ⟨_, by rw [save, hs, Call.void_throw]⟩
  case clusterRole =>
    have hs : upsertRole ⟨true⟩ o.metadata.ns (fromK8sClusterRole o) =
        throw (.new "name is required") := if_pos h
    exact ⟨_, by rw [save, hs, Call.void_throw]⟩
  case roleBinding =>
    have hs : upsertRoleBinding ⟨true⟩ o.metadata.ns (fromK8sRoleBinding o) =
        throw (.new "name and roleRef.name are required") := if_pos h
    exact ⟨_, by rw [save, hs, Call.void_throw]⟩

-- Otherwise it upserts what is left of the object in the view.
theorem save_named {r : Resource} {o : Object r.kind} (h : ¬Unnamed r o) :
    save ⟨true⟩ r o = (upsert r.kind (written r o)).void := by
  cases r
  case role =>
    have hs : upsertRole ⟨true⟩ o.metadata.ns (fromK8sRole o) =
        upsert .role (written .role o) >>= fun obj => pure (fromK8sRole obj) := if_neg h
    rw [save, hs, Call.void_map]
  case clusterRole =>
    have hs : upsertRole ⟨true⟩ o.metadata.ns (fromK8sClusterRole o) =
        upsert .clusterRole (written .clusterRole o) >>= fun obj => pure (fromK8sClusterRole obj) :=
      if_neg h
    rw [save, hs, Call.void_map]
  case roleBinding =>
    have hs : upsertRoleBinding ⟨true⟩ o.metadata.ns (fromK8sRoleBinding o) =
        upsert .roleBinding (written .roleBinding o) >>= fun obj => pure (fromK8sRoleBinding obj) :=
      if_neg h
    rw [save, hs, Call.void_map]

theorem edit_lossless_iff (a : Admission) (r : Resource) (o : Object r.kind) :
    (∀ c : Cluster,
      Prog.Always (server a) (fun _ c => Kept o c) (save ⟨true⟩ r o) (c.put o.key o)) ↔
    Plain r o ∨ Refused a r o := by
  by_cases hu : Unnamed r o
  case pos =>
    have ⟨e, he⟩ := save_unnamed hu
    simp only [he, Refused, hu, true_or, or_true, iff_true]
    exact fun c => kept_put
  case neg =>
    simp only [save_named hu, Call.always_void, Refused, hu, false_or]
    rw [upsert_iff (written_key r o), written_body]

-- A role for one secret loses its resource names.
section OneSecret

def everything : Admission where
  create _ _   := true
  update _ _ _ := true

def oneSecret : Object .role where
  metadata := objectMeta (str "read-registry") (str "team-ai")
  body     := ⟨[{
    verbs           := [str "get"]
    apiGroups       := [[]]
    resources       := [str "secrets"]
    resourceNames   := [str "registry"]
    nonResourceURLs := []
  }]⟩

theorem one_secret_widened :
    ¬∀ (r : Resource) (o : Object r.kind) (c : Cluster),
      Prog.Always (server everything) (fun _ c => Kept o c) (save ⟨true⟩ r o) (c.put o.key o) := by
  intro h
  have hs : save ⟨true⟩ .role oneSecret = (upsert .role (written .role oneSecret)).void :=
    save_named (by decide)
  have hu := (upsert_iff (a := everything) (written_key .role oneSecret)).mp fun c =>
    Call.always_void.mp (hs ▸ h .role oneSecret c)
  cases hu
  case inl hb => exact absurd ((written_body .role oneSecret).mp hb _ (.head _)).left (by decide)
  case inr ha => exact ha rfl

end OneSecret
end Admin

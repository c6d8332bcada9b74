import Knaic.Effects.Prog
import Knaic.Kube.Unstructured

open Go Effects

namespace Kube

namespace Fields

variable {o m : Fields} {k v : Str}

def getResourceVersion (o : Fields) : Str :=
  (o.nestedString [str "metadata", str "resourceVersion"]).getD []

def removeResourceVersion (o : Fields) : Fields :=
  match o.get (str "metadata") with
  | some (.obj m) => o.set (str "metadata") (.obj (Entries.erase m (str "resourceVersion")))
  | _             => o

def setResourceVersion (o : Fields) (v : Str) : Fields :=
  if v = [] then o.removeResourceVersion
  else (o.setNestedField (.string v) [str "metadata", str "resourceVersion"]).getD o

theorem get_removeResourceVersion (o : Fields) (h : k ≠ str "metadata") :
    o.removeResourceVersion.get k = o.get k := by
  simp only [removeResourceVersion]
  split
  case h_1 => exact Entries.get_set_ne _ _ h
  case h_2 => rfl

theorem get_setResourceVersion (o : Fields) (v : Str) (h : k ≠ str "metadata") :
    (o.setResourceVersion v).get k = o.get k := by
  simp only [setResourceVersion, setNestedField]
  split
  case isTrue  => exact get_removeResourceVersion o h
  case isFalse =>
    cases o.get (str "metadata") with
    | none   => simp [Entries.get_set, h]
    | some w => cases w <;> simp [Entries.get_set, h]

theorem nestedField_setResourceVersion (o : Fields) (v : Str) (ks : List Str)
    (h : k ≠ str "metadata") :
    (o.setResourceVersion v).nestedField (k :: ks) = o.nestedField (k :: ks) := by
  cases ks <;> simp [get_setResourceVersion o v h]

-- The rest of the metadata is left alone.
theorem meta_setResourceVersion (o : Fields) (v : Str) (h : k ≠ str "resourceVersion") :
    (o.setResourceVersion v).nestedField [str "metadata", k] =
    o.nestedField [str "metadata", k] := by
  simp only [setResourceVersion, removeResourceVersion, setNestedField, nestedField_cons_cons,
    nestedField_one]
  split
  all_goals
    cases hm : o.get (str "metadata") with
    | none   => simp [hm, Entries.get_set, h]
    | some w => cases w <;> simp [hm, Entries.get_set, Entries.get_erase, h]

@[simp]
theorem getName_setResourceVersion (o : Fields) (v : Str) :
    (o.setResourceVersion v).getName = o.getName := by
  simp only [getName, nestedString]
  rw [meta_setResourceVersion o v (by simp)]

@[simp]
theorem getNamespace_setResourceVersion (o : Fields) (v : Str) :
    (o.setResourceVersion v).getNamespace = o.getNamespace := by
  simp only [getNamespace, nestedString]
  rw [meta_setResourceVersion o v (by simp)]

theorem getResourceVersion_set (h : o.get (str "metadata") = some (.obj m)) (hv : v ≠ []) :
    (o.setResourceVersion v).getResourceVersion = v := by
  simp [getResourceVersion, nestedString, setResourceVersion, setNestedField, h, hv]

theorem metadata_of_getName (h : o.getName ≠ []) : ∃ m, o.get (str "metadata") = some (.obj m) := by
  simp only [getName, nestedString, nestedField_cons_cons] at h
  cases hm : o.get (str "metadata") with
  | none   => simp [hm] at h
  | some w =>
    cases w
    case obj m => exact ⟨m, rfl⟩
    all_goals simp [hm, Value.obj?] at h

-- An object as it is written down in a program: maps in order, and no resource version.
structure Literal (o : Fields) : Prop where
  sorted   : o.Sorted
  metadata : ∀ m : Fields, o.get (str "metadata") = some (.obj m) →
               m.Sorted ∧ m.get (str "resourceVersion") = none

theorem Literal.remove (h : Literal o) : o.removeResourceVersion = o := by
  simp only [removeResourceVersion]
  split
  case h_2     => rfl
  case h_1 m hm =>
    have ⟨hs, hn⟩ := h.metadata m hm
    have he : Entries.erase m (str "resourceVersion") = m := by
      apply (hs.erase _).ext hs
      intro k
      by_cases hk : k = str "resourceVersion" <;> simp [Entries.get_erase, hk, hn]
    apply (h.sorted.set _ _).ext h.sorted
    intro k
    by_cases hk : k = str "metadata" <;> simp [Entries.get_set, hk, he, hm]

-- The version that an update carries is all that it adds.
theorem Literal.remove_set (h : Literal o) (hm : o.get (str "metadata") = some (.obj m)) (v : Str) :
    (o.setResourceVersion v).removeResourceVersion = o := by
  by_cases hv : v = []
  case pos => simp [setResourceVersion, hv, h.remove]
  case neg =>
    have ⟨hs, hn⟩ := h.metadata m hm
    have he : (m.set (str "resourceVersion") (.string v)).erase (str "resourceVersion") = m := by
      apply ((hs.set _ _).erase _).ext hs
      intro k
      by_cases hk : k = str "resourceVersion" <;> simp [Entries.get_erase, Entries.get_set, hk, hn]
    have ho : o.setResourceVersion v =
        o.set (str "metadata") (.obj (m.set (str "resourceVersion") (.string v))) := by
      simp [setResourceVersion, setNestedField, hm, hv]
    rw [ho, removeResourceVersion, Entries.get_set_self]
    apply ((h.sorted.set _ _).set _ _).ext h.sorted
    intro k
    by_cases hk : k = str "metadata" <;> simp [Entries.get_set, hk, he, hm]

theorem Literal.version_set (h : Literal o) (hm : o.get (str "metadata") = some (.obj m)) (v : Str) :
    (o.setResourceVersion v).getResourceVersion = v := by
  by_cases hv : v = []
  case pos =>
    have ⟨_, hn⟩ := h.metadata m hm
    simp [setResourceVersion, hv, h.remove, getResourceVersion, nestedString, hm, hn]
  case neg => exact getResourceVersion_set hm hv

end Fields

namespace Dynamic

structure GVR where
  group    : Str
  version  : Str
  resource : Str
deriving DecidableEq

structure Key where
  gvr  : GVR
  ns   : Str
  name : Str
deriving DecidableEq

-- An object is kept apart from its resource version.
structure Stored where
  content : Fields
  version : Nat

def Stored.view (s : Stored) : Fields :=
  s.content.setResourceVersion (decimal s.version)

section View

variable (s : Stored) {k : Str}

theorem Stored.view_get (h : k ≠ str "metadata") : s.view.get k = s.content.get k :=
  Fields.get_setResourceVersion _ _ h

theorem Stored.view_meta (h : k ≠ str "resourceVersion") :
    s.view.nestedField [str "metadata", k] = s.content.nestedField [str "metadata", k] :=
  Fields.meta_setResourceVersion _ _ h

theorem Stored.view_nested (ks : List Str) (h : k ≠ str "metadata") :
    s.view.nestedField (k :: ks) = s.content.nestedField (k :: ks) :=
  Fields.nestedField_setResourceVersion _ _ _ h

@[simp]
theorem Stored.view_name : s.view.getName = s.content.getName :=
  Fields.getName_setResourceVersion ..

@[simp]
theorem Stored.view_namespace : s.view.getNamespace = s.content.getNamespace :=
  Fields.getNamespace_setResourceVersion ..

end View

-- An object that is no object in its metadata has no version to show either.
theorem Stored.view_version (s : Stored) :
    s.view.getResourceVersion = [] ∨ s.view.getResourceVersion = decimal s.version := by
  simp only [Stored.view, Fields.getResourceVersion, Fields.setResourceVersion, decimal_ne_nil,
    if_false, Fields.nestedString, Fields.nestedField_cons_cons, Fields.setNestedField]
  cases hm : s.content.get (str "metadata") with
  | none   => simp
  | some w => cases w <;> simp [hm, Value.obj?]

structure Cluster where
  objects  : GVR → Dict (Dict Stored)
  revision : Nat

namespace Cluster

def empty : Cluster where
  objects _ := .empty
  revision  := 0

def get (c : Cluster) (key : Key) : Option Stored :=
  ((c.objects key.gvr).get key.ns).bind fun names => names.get key.name

-- Every change of the cluster has a revision of its own, which the object takes for its version.
def put (c : Cluster) (key : Key) (o : Fields) : Cluster where
  objects  :=
    let namespaces := c.objects key.gvr
    let names := (namespaces.get key.ns).getD .empty
    Function.update c.objects key.gvr
      (namespaces.set key.ns (names.set key.name ⟨o, c.revision + 1⟩))
  revision := c.revision + 1

def list (c : Cluster) (gvr : GVR) : List Fields :=
  (c.objects gvr).entries.flatMap fun ns => ns.2.entries.map fun e => e.2.view

def content (c : Cluster) (key : Key) : Option Fields :=
  (c.get key).map Stored.content

variable {c : Cluster} {key : Key} {o : Fields}

theorem get_put (c : Cluster) (key : Key) (o : Fields) (key' : Key) :
    (c.put key o).get key' = if key' = key then some ⟨o, c.revision + 1⟩ else c.get key' := by
  by_cases hg : key'.gvr = key.gvr
  case neg =>
    have hk : key' ≠ key := fun h => hg (h ▸ rfl)
    simp [get, put, hk, Function.update_of_ne hg]
  case pos =>
    simp only [get, put, hg, Function.update_self, Dict.get_set]
    by_cases hn : key'.ns = key.ns
    case neg =>
      have hk : key' ≠ key := fun h => hn (h ▸ rfl)
      simp [hn, hk]
    case pos =>
      simp only [hn, if_true, Option.bind_some, Dict.get_set]
      by_cases hm : key'.name = key.name
      case pos =>
        have hk : key' = key := by cases key; cases key'; simp_all
        simp [hk]
      case neg =>
        have hk : key' ≠ key := fun h => hm (h ▸ rfl)
        simp only [hm, hk, if_false]
        cases (c.objects key.gvr).get key.ns <;> simp

theorem content_put (c : Cluster) (key : Key) (o : Fields) (key' : Key) :
    (c.put key o).content key' = if key' = key then some o else c.content key' := by
  rw [content, get_put]
  split <;> rfl

theorem mem_list : o ∈ c.list gvr ↔ ∃ ns name s, c.get ⟨gvr, ns, name⟩ = some s ∧ o = s.view := by
  simp only [list, List.mem_flatMap, List.mem_map]
  constructor
  case mp =>
    rintro ⟨⟨ns, names⟩, hn, ⟨name, s⟩, hs, rfl⟩
    refine ⟨ns, name, s, ?_, rfl⟩
    have hn := (c.objects gvr).sorted.get_of_mem hn
    have hs := names.sorted.get_of_mem hs
    simp [get, Dict.get, hn, hs]
  case mpr =>
    rintro ⟨ns, name, s, hg, rfl⟩
    obtain ⟨names, hn, hs⟩ := Option.bind_eq_some_iff.mp hg
    exact ⟨(ns, names), Entries.mem_of_get hn, (name, s), Entries.mem_of_get hs, rfl⟩

end Cluster

def errNotFound : Error :=
  .sentinel "kubernetes" "NotFound"

def errAlreadyExists : Error :=
  .sentinel "kubernetes" "AlreadyExists"

def errConflict : Error :=
  .sentinel "kubernetes" "Conflict"

def errBadRequest : Error :=
  .sentinel "kubernetes" "BadRequest"

-- The requests of the dynamic client.
inductive Op
  | get (key : Key)
  | list (gvr : GVR)
  | create (gvr : GVR) (ns : Str) (o : Fields)
  | update (gvr : GVR) (ns : Str) (o : Fields)

abbrev ops : Signature where
  Op := Op
  Res
    | .get _                         => Except Error Fields
    | .list _                        => Except Error (List Fields)
    | .create _ _ _ | .update _ _ _  => Except Error Fields

abbrev Call :=
  Effects.Call ops Error

def perform (op : Op) : Prog ops (ops.Res op) :=
  @Prog.perform ops op

def get (key : Key) : Call Fields :=
  perform (.get key)

def list (gvr : GVR) : Call (List Fields) :=
  perform (.list gvr)

def create (gvr : GVR) (ns : Str) (o : Fields) : Call Fields :=
  perform (.create gvr ns o)

def update (gvr : GVR) (ns : Str) (o : Fields) : Call Fields :=
  perform (.update gvr ns o)

-- A call whose failure the caller looks at.
def attempt (p : Call α) : Call (Except Error α) :=
  ExceptT.lift (p : Prog ops (Except Error α))

-- What the API server does not let the caller store: objects of a type that it does not serve, that
-- the caller may not write, or that do not pass its checks.
abbrev Refusal :=
  GVR → Fields → Option Error

def acceptsAll : Refusal :=
  fun _ _ => none

-- What a request finds: whether the API server fails to answer it when it is to read, and what is
-- refused.
structure Draw where
  read   : Option Error
  refuse : Refusal

-- The key that an object is stored under. The namespace is that of the request.
def keyOf (gvr : GVR) (ns : Str) (o : Fields) : Except Error Key :=
  if o.getName = [] || 47 ∈ o.getName || o.getNamespace ≠ ns then .error errBadRequest
  else .ok ⟨gvr, ns, o.getName⟩

def store (key : Key) (o : Fields) (c : Cluster) : Except Error Fields × Cluster :=
  let new := o.removeResourceVersion
  let c := c.put key new
  (.ok (Stored.view ⟨new, c.revision⟩), c)

def answer (op : ops.Op) (d : Draw) (c : Cluster) : ops.Res op × Cluster :=
  match op with
  | .get key =>
    match d.read, c.get key with
    | some e, _      => (.error e, c)
    | none, none     => (.error errNotFound, c)
    | none, some old => (.ok old.view, c)
  | .list gvr =>
    match d.read with
    | some e => (.error e, c)
    | none   => (.ok (c.list gvr), c)
  | .create gvr ns o =>
    match keyOf gvr ns o, d.refuse gvr o.removeResourceVersion with
    | .error e, _     => (.error e, c)
    | .ok _, some e   => (.error e, c)
    | .ok key, none   =>
      match c.get key with
      | some _ => (.error errAlreadyExists, c)
      | none   => store key o c
  | .update gvr ns o =>
    match keyOf gvr ns o, d.refuse gvr o.removeResourceVersion with
    | .error e, _     => (.error e, c)
    | .ok _, some e   => (.error e, c)
    | .ok key, none   =>
      match c.get key with
      | none     => (.error errNotFound, c)
      | some old =>
        if o.getResourceVersion ≠ [] && o.getResourceVersion ≠ decimal old.version then
          (.error errConflict, c)
        else store key o c

theorem answer_get_cases (key : Key) (d : Draw) (c : Cluster) :
    (∃ e, answer (.get key) d c = (.error e, c)) ∨
    ∃ s, c.get key = some s ∧ answer (.get key) d c = (.ok s.view, c) := by
  simp only [answer]
  split
  case h_1          => exact .inl ⟨_, rfl⟩
  case h_2          => exact .inl ⟨_, rfl⟩
  case h_3 old _ hs => exact .inr ⟨old, hs, rfl⟩

-- An update goes through only over an object whose version it carries, if it carries any.
theorem answer_update_cases (gvr : GVR) (ns : Str) (o : Fields) (d : Draw) (c : Cluster) :
    (∃ e, answer (.update gvr ns o) d c = (.error e, c)) ∨
    o.getName ≠ [] ∧ ∃ old, c.get ⟨gvr, ns, o.getName⟩ = some old ∧
      (o.getResourceVersion = [] ∨ o.getResourceVersion = decimal old.version) ∧
      answer (.update gvr ns o) d c = store ⟨gvr, ns, o.getName⟩ o c := by
  simp only [answer, keyOf]
  split
  case h_1           => exact .inl ⟨_, rfl⟩
  case h_2           => exact .inl ⟨_, rfl⟩
  case h_3 key hk hr =>
    split at hk
    case isTrue    => cases hk
    case isFalse h =>
      cases hk
      split
      case h_1        => exact .inl ⟨_, rfl⟩
      case h_2 old hs =>
        split
        case isTrue     => exact .inl ⟨_, rfl⟩
        case isFalse hv =>
          refine .inr ⟨by simp_all, old, hs, ?_, rfl⟩
          simpa [imp_iff_not_or] using hv

-- The API server at the time of one call that has it for itself.
def serve (refuse : Refusal) (op : ops.Op) (c : Cluster) : ops.Res op × Cluster :=
  answer op ⟨none, refuse⟩ c

end Dynamic
end Kube

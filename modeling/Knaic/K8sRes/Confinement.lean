import Knaic.Effects.Transcript
import Knaic.K8sRes.Service

open Go Effects Kube.Dynamic
open Kube (Fields Value)

namespace K8sRes

-- Returns the object that the projection is made of.
def create (k : Kind) (ns : Str) (obj : Option Fields) : Call Fields := do
  let u ← (ExceptT.mk (pure (normaliseObject k ns [] obj)) : Call Fields)
  Kube.Dynamic.create k.gvr (k.key ns []).ns u

-- What a write of the resource API sends to the API server.
namespace Confinement

-- The namespace and the name in the URL. There is no name where an object is created.
structure Place where
  ns   : Str
  name : Option Str

-- The handlers of `POST` and of `PUT` and `PATCH`, with what `yaml.Unmarshal` makes of a body.
def write (unmarshal : Str → Except Error (Option Fields)) (k : Kind) (place : Place)
    (body : Except Error Str) : Call Fields := do
  let body ← (ExceptT.mk (pure body) : Call Str)
  let obj ← (ExceptT.mk (pure (unmarshal body)) : Call (Option Fields))
  match place.name with
  | none      => create k place.ns obj
  | some name => update k place.ns name obj

def isWrite : Op → Bool
  | .get _ | .list _               => false
  | .create _ _ _ | .update _ _ _  => true

abbrev Log :=
  Transcript ops

def writes (log : Log) : List Op :=
  (log.map Sigma.fst).filter isWrite

-- The object is in the namespace of the URL, or in none if its kind has none, and it has the name in
-- the URL.
structure Confined (k : Kind) (place : Place) (o : Fields) : Prop where
  ns   : o.nestedField [str "metadata", str "namespace"] = if k.namespaced then some (.string place.ns) else none
  name : ∀ name ∈ place.name, o.nestedField [str "metadata", str "name"] = some (.string name)

-- The request with which the object is sent.
def request (k : Kind) (place : Place) (o : Fields) : Op :=
  match place.name with
  | none   => .create k.gvr (if k.namespaced then place.ns else []) o
  | some _ => .update k.gvr (if k.namespaced then place.ns else []) o

-- Either nothing is written and an error is returned, or one object that is where it should be.
def Kept (k : Kind) (place : Place) (res : Except Error Fields) (log : Log) : Prop :=
  (writes log = [] ∧ ∃ err, res = .error err) ∨ ∃ o, writes log = [request k place o] ∧ Confined k place o

section Sent

variable {k : Kind} {ns name : Str} {obj : Option Fields} {u : Fields}

theorem created_confined (h : normaliseObject k ns [] obj = .ok u) : Confined k ⟨ns, none⟩ u where
  ns := by
    have ⟨m, m₁, m₂, h₁, h₂, hm⟩ := normaliseObject_steps h
    simp [hm, normaliseNamespace_namespace h₂]
  name _ hn := by cases hn

theorem updated_confined (h : normaliseObject k ns name obj = .ok u) (hn : name ≠ []) :
    Confined k ⟨ns, some name⟩ u := by
  have ⟨m, m₁, m₂, h₁, h₂, hm⟩ := normaliseObject_steps h
  constructor
  case ns   => simp [hm, normaliseNamespace_namespace h₂]
  case name =>
    rintro _ ⟨⟩
    simp [hm, normaliseNamespace_get h₂, normaliseName_get h₁ hn]

-- A resource version says nothing about the place.
theorem Confined.versioned {place : Place} (h : Confined k place u) (v : Str) :
    Confined k place (u.setResourceVersion v) where
  ns          := by rw [Fields.meta_setResourceVersion _ _ (by simp), h.ns]
  name n hn := by rw [Fields.meta_setResourceVersion _ _ (by simp), h.name n hn]

end Sent

section Calls

open Transcript (record)

variable {k : Kind} {ns name : Str} {obj : Option Fields}

theorem create_kept : Prog.Always record (Kept k ⟨ns, none⟩) (create k ns obj) [] := by
  unfold create
  cases h : normaliseObject k ns [] obj
  case error err => exact .inl ⟨rfl, err, rfl⟩
  case ok u      => exact fun _ => .inr ⟨u, rfl, created_confined h⟩

theorem update_kept : Prog.Always record (Kept k ⟨ns, some name⟩) (update k ns name obj) [] := by
  by_cases hr : name = [] ∨ ∃ err, normaliseObject k ns name obj = .error err
  case pos =>
    have ⟨err, he⟩ := update_refused hr
    rw [he]
    exact .inl ⟨rfl, err, rfl⟩
  case neg =>
    obtain ⟨hn, hu⟩ := not_or.mp hr
    cases h : normaliseObject k ns name obj
    case error err => exact absurd ⟨err, h⟩ hu
    case ok u      =>
      have hc := updated_confined h hn
      rw [update_eq h hn]
      split
      case isFalse => exact fun _ => .inr ⟨u, rfl, hc⟩
      case isTrue  =>
        intro d
        -- What is there lends its version.
        cases hg : d (.get (k.key ns name))
        case error err =>
          simp only [record, hg]
          exact .inl ⟨rfl, err, rfl⟩
        case ok old    =>
          simp only [record, hg]
          exact fun _ => .inr ⟨_, rfl, hc.versioned _⟩

-- Whatever the body and the answers of the API server are, the object that is sent is where the URL
-- has it, or an error is returned and nothing is written.
theorem write_kept (unmarshal : Str → Except Error (Option Fields)) (k : Kind) (place : Place)
    (body : Except Error Str) (answers : Nat → (op : ops.Op) → ops.Res op) :
    let run := Prog.play record (write unmarshal k place body) answers []
    Kept k place run.1 run.2 := by
  have failed (err : Error) : Kept k place (.error err) [] := .inl ⟨rfl, err, rfl⟩
  refine Prog.Always.play (Q := Kept k place) ?_ answers
  cases body
  case error err => exact failed err
  case ok body   =>
    rw [write, Call.ok_seq]
    cases unmarshal body
    case error err => exact failed err
    case ok obj    =>
      rw [Call.ok_seq]
      obtain ⟨ns, name⟩ := place
      cases name
      case none      => exact create_kept
      case some name => exact update_kept

end Calls

end Confinement
end K8sRes

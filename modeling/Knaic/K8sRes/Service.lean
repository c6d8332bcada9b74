import Knaic.Kube.Dynamic

open Go Kube.Dynamic Effects
open Kube (Fields Value)

namespace K8sRes

structure Kind where
  slug       : Str
  gvr        : GVR
  namespaced : Bool

def Kind.key (k : Kind) (ns name : Str) : Key where
  gvr  := k.gvr
  ns   := if k.namespaced then ns else []
  name := name

-- A field that is missing or null counts as an empty object.
def metadataOf (obj : Fields) : Except Error Fields :=
  match obj.get (str "metadata") with
  | none | some .null => .ok []
  | some (.obj m)     => .ok m
  | some _            => .error (.new "metadata must be an object")

def stringIn (m : Fields) (k : String) : Str :=
  ((m.get (str k)).bind Value.string?).getD []

def normaliseName (name : Str) (m : Fields) : Except Error Fields :=
  let bodyName := stringIn m "name"
  if name = [] then
    if bodyName = [] then .error (.new "metadata.name is required") else .ok m
  else if bodyName = [] then .ok (Entries.set m (str "name") (.string name))
  else if bodyName ≠ name then
    .error (.errorf "metadata.name %q does not match URL name %q" [bodyName, name])
  else .ok m

def normaliseNamespace (k : Kind) (ns : Str) (m : Fields) : Except Error Fields :=
  let bodyNS := stringIn m "namespace"
  if k.namespaced then
    if ns = [] then .error (.errorf "namespace required for %s" [k.slug])
    else if bodyNS ≠ [] && bodyNS ≠ ns then
      .error (.errorf "metadata.namespace %q does not match URL namespace %q" [bodyNS, ns])
    else .ok (Entries.set m (str "namespace") (.string ns))
  else .ok (Entries.erase m (str "namespace"))

def normaliseObject (k : Kind) (ns name : Str) (obj : Option Fields) : Except Error Fields := do
  match obj with
  | none     => throw (.new "object body is required")
  | some obj =>
    let m ← metadataOf obj
    let m ← normaliseName name m
    let m ← normaliseNamespace k ns m
    return Entries.set obj (str "metadata") (.obj m)

def stripServerFields (o : Fields) : Fields :=
  match o.get (str "metadata") with
  | some (.obj m) =>
    let m := ["managedFields", "resourceVersion", "generation", "selfLink"].foldl
      (fun m k => Entries.erase m (str k)) m
    Entries.set o (str "metadata") (.obj m)
  | _ => o

def fetch (k : Kind) (ns name : Str) : Call Fields :=
  get (k.key ns name)

-- The text is that of the object that is returned here.
def yaml (k : Kind) (ns name : Str) : Call Fields := do
  let o ← fetch k ns name
  return stripServerFields o

-- Returns the object that the projection is made of.
def update (k : Kind) (ns name : Str) (obj : Option Fields) : Call Fields := do
  if name = [] then
    throw (.new "name is required")
  let u ← (ExceptT.mk (pure (normaliseObject k ns name obj)) : Call Fields)
  if u.getResourceVersion = [] then
    let existing ← fetch k ns name
    Kube.Dynamic.update k.gvr (k.key ns name).ns (u.setResourceVersion existing.getResourceVersion)
  else
    Kube.Dynamic.update k.gvr (k.key ns name).ns u

section Normalise

variable {k : Kind} {ns name : Str} {obj : Option Fields} {u : Fields}

theorem get_of_stringIn {m : Fields} {f : String} {s : Str} (h : stringIn m f = s) (hs : s ≠ []) :
    m.get (str f) = some (.string s) := by
  simp only [stringIn] at h
  cases hg : m.get (str f) with
  | none   => simp [hg, hs.symm] at h
  | some v =>
    cases v
    case string t => simpa [hg] using h
    all_goals simp [hg, Value.string?, hs.symm] at h

theorem normaliseName_get {m m' : Fields} (h : normaliseName name m = .ok m') (hn : name ≠ []) :
    m'.get (str "name") = some (.string name) := by
  simp only [normaliseName, hn, if_false] at h
  split at h
  case isTrue  => cases h; exact Entries.get_set_self ..
  case isFalse =>
    split at h
    case isTrue     => cases h
    case isFalse he =>
      cases h
      exact get_of_stringIn (not_not.mp he) hn

theorem normaliseNamespace_get {m m' : Fields} (h : normaliseNamespace k ns m = .ok m') :
    m'.get (str "name") = m.get (str "name") := by
  simp only [normaliseNamespace] at h
  split at h
  case isFalse => cases h; simp [Entries.get_erase]
  case isTrue  =>
    split at h
    case isTrue  => cases h
    case isFalse =>
      split at h
      case isTrue  => cases h
      case isFalse => cases h; simp [Entries.get_set]

theorem normaliseNamespace_namespace {m m' : Fields} (h : normaliseNamespace k ns m = .ok m') :
    m'.get (str "namespace") = if k.namespaced then some (.string ns) else none := by
  simp only [normaliseNamespace] at h
  split at h
  case isFalse hk => cases h; simp [Entries.get_erase, hk]
  case isTrue hk  =>
    split at h
    case isTrue  => cases h
    case isFalse =>
      split at h
      case isTrue  => cases h
      case isFalse => cases h; simp [hk]

-- What is sent has the metadata that the two checks made.
theorem normaliseObject_steps (h : normaliseObject k ns name obj = .ok u) :
    ∃ m m₁ m₂, normaliseName name m = .ok m₁ ∧ normaliseNamespace k ns m₁ = .ok m₂ ∧
      u.get (str "metadata") = some (.obj m₂) := by
  cases obj
  case none => cases h
  case some o =>
    simp only [normaliseObject] at h
    cases h₁ : metadataOf o
    case error => simp [h₁, bind, Except.bind] at h
    case ok m =>
      cases h₂ : normaliseName name m
      case error => simp [h₁, h₂, bind, Except.bind] at h
      case ok m₁ =>
        cases h₃ : normaliseNamespace k ns m₁
        case error => simp [h₁, h₂, h₃, bind, Except.bind] at h
        case ok m₂ =>
          have hu : Entries.set o (str "metadata") (.obj m₂) = u := by
            simpa [h₁, h₂, h₃, bind, Except.bind, pure, Except.pure] using h
          exact ⟨m, m₁, m₂, h₂, h₃, hu ▸ Entries.get_set_self ..⟩

-- What is sent has the name of the request, and metadata.
theorem normaliseObject_ok (h : normaliseObject k ns name obj = .ok u) (hn : name ≠ []) :
    u.getName = name ∧ ∃ m, u.get (str "metadata") = some (.obj m) := by
  have ⟨m, m₁, m₂, h₁, h₂, hm⟩ := normaliseObject_steps h
  refine ⟨?_, m₂, hm⟩
  simp [Fields.getName, Fields.nestedString, hm, normaliseNamespace_get h₂, normaliseName_get h₁ hn]

theorem update_eq (h : normaliseObject k ns name obj = .ok u) (hn : name ≠ []) :
    K8sRes.update k ns name obj =
      if u.getResourceVersion = [] then
        @Prog.call ops _ (.get (k.key ns name)) fun r : Except Error Fields =>
          match r with
          | .error e     => .ret (.error e)
          | .ok existing => Kube.Dynamic.update k.gvr (k.key ns name).ns
              (u.setResourceVersion existing.getResourceVersion)
      else Kube.Dynamic.update k.gvr (k.key ns name).ns u := by
  simp only [K8sRes.update, hn, if_false, h]
  refine (Call.ok_seq u _).trans ?_
  by_cases hv : u.getResourceVersion = []
  case neg => simp only [hv, if_false]
  case pos =>
    simp only [hv, if_true]
    refine congrArg (@Prog.call ops _ (.get (k.key ns name))) ?_
    funext r
    cases r <;> rfl

theorem update_refused (h : name = [] ∨ ∃ e, normaliseObject k ns name obj = .error e) :
    ∃ e, K8sRes.update k ns name obj = .ret (.error e) := by
  by_cases hn : name = []
  case pos => exact ⟨_, by simp only [K8sRes.update, hn, if_true]; rfl⟩
  case neg =>
    have ⟨e, he⟩ := h.resolve_left hn
    exact ⟨e, by simp only [K8sRes.update, hn, if_false, he]; rfl⟩

end Normalise
end K8sRes

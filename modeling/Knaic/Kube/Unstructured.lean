import Knaic.Go.Dict
import Knaic.Go.Float64

open Go

namespace Kube

-- What JSON decodes to. A number is an integer of 64 bits or a floating point number.
inductive Value
  | null
  | bool (b : Bool)
  | int (n : Int)
  | float (f : Float64)
  | string (s : Str)
  | list (l : List Value)
  | obj (fields : List (Str × Value))

-- The content of an `unstructured.Unstructured`.
abbrev Fields :=
  Entries Value

namespace Value

def string? : Value → Option Str
  | string s => some s
  | _        => none

def int? : Value → Option Int
  | int n => some n
  | _     => none

def bool? : Value → Option Bool
  | bool b => some b
  | _      => none

def list? : Value → Option (List Value)
  | list l => some l
  | _      => none

def obj? : Value → Option Fields
  | obj m => some m
  | _     => none

@[simp] theorem string?_string (s : Str) : (string s).string? = some s := rfl
@[simp] theorem int?_int (n : Int) : (int n).int? = some n := rfl
@[simp] theorem bool?_bool (b : Bool) : (bool b).bool? = some b := rfl
@[simp] theorem list?_list (l : List Value) : (list l).list? = some l := rfl
@[simp] theorem obj?_obj (m : Fields) : (obj m).obj? = some m := rfl

end Value

-- A map literal, and a list of strings.
def mapOf (l : List (String × Value)) : Fields :=
  l.foldl (fun o e => Entries.set o (str e.1) e.2) []

theorem mapOf_sorted (l : List (String × Value)) : Entries.Sorted (mapOf l) := by
  have h : ∀ o : Fields, o.Sorted → Entries.Sorted (l.foldl (fun o e => Entries.set o (str e.1) e.2) o) := by
    induction l
    case nil         => exact fun o ho => ho
    case cons e l hi => exact fun o ho => hi _ (ho.set _ _)
  exact h [] .nil

def toAnySlice (l : List Str) : List Value :=
  l.map .string

theorem mapM_toAnySlice (l : List Str) : (toAnySlice l).mapM Value.string? = some l := by
  induction l
  case nil         => rfl
  case cons s l hi =>
    simp only [toAnySlice, List.map_cons, List.mapM_cons] at hi ⊢
    simp [hi]

theorem filterMap_toAnySlice (l : List Str) : (toAnySlice l).filterMap Value.string? = l := by
  simp [toAnySlice, List.filterMap_map, Function.comp_def]

-- A map of strings.
def strings (m : Entries Str) : Fields :=
  m.map fun e => (e.1, .string e.2)

theorem set_strings (m : Entries Str) (k s : Str) :
    Entries.set (strings m) k (.string s) = strings (m.set k s) :=
  (Entries.map_set Value.string m k s).symm

namespace Fields

-- The value at a path of fields. A field on the way that holds no object counts as missing.
def nestedField (o : Fields) : List Str → Option Value
  | []      => some (.obj o)
  | [k]     => o.get k
  | k :: ks => (o.get k).bind fun v => v.obj?.bind fun m => nestedField m ks

def nestedString (o : Fields) (path : List Str) : Option Str :=
  (o.nestedField path).bind Value.string?

def nestedInt64 (o : Fields) (path : List Str) : Option Int :=
  (o.nestedField path).bind Value.int?

def nestedSlice (o : Fields) (path : List Str) : Option (List Value) :=
  (o.nestedField path).bind Value.list?

def nestedMap (o : Fields) (path : List Str) : Option Fields :=
  (o.nestedField path).bind Value.obj?

-- A list that holds anything but strings counts as missing, and so does a map.
def nestedStringSlice (o : Fields) (path : List Str) : Option (List Str) :=
  (o.nestedSlice path).bind fun l => l.mapM Value.string?

def nestedStringMap (o : Fields) (path : List Str) : Option (Entries Str) :=
  (o.nestedMap path).bind fun m => m.mapM fun e => e.2.string?.map (e.1, ·)

-- A path that leads through anything but objects is left alone.
def setNestedField (o : Fields) (v : Value) : List Str → Option Fields
  | []      => none
  | [k]     => some (o.set k v)
  | k :: ks =>
    match o.get k with
    | none          => (setNestedField [] v ks).map fun m => o.set k (.obj m)
    | some (.obj m) => (setNestedField m v ks).map fun m => o.set k (.obj m)
    | some _        => none

def setNestedStringMap (o : Fields) (m : Entries Str) (path : List Str) : Option Fields :=
  o.setNestedField (.obj (strings m)) path

def getKind (o : Fields) : Str :=
  (o.nestedString [str "kind"]).getD []

def getName (o : Fields) : Str :=
  (o.nestedString [str "metadata", str "name"]).getD []

def getNamespace (o : Fields) : Str :=
  (o.nestedString [str "metadata", str "namespace"]).getD []

def getLabels (o : Fields) : Entries Str :=
  (o.nestedStringMap [str "metadata", str "labels"]).getD []

def getAnnotations (o : Fields) : Entries Str :=
  (o.nestedStringMap [str "metadata", str "annotations"]).getD []

def setLabels (o : Fields) (labels : Entries Str) : Fields :=
  (o.setNestedStringMap labels [str "metadata", str "labels"]).getD o

def setAnnotations (o : Fields) (annotations : Entries Str) : Fields :=
  (o.setNestedStringMap annotations [str "metadata", str "annotations"]).getD o

section Nested

variable {o m : Fields} {k k' : Str} {ks : List Str} {v : Value}

@[simp]
theorem nestedField_one (o : Fields) (k : Str) : o.nestedField [k] = o.get k :=
  rfl

theorem nestedField_cons (o : Fields) (k : Str) (hk : ks ≠ []) :
    o.nestedField (k :: ks) = (o.get k).bind fun v => v.obj?.bind fun m => m.nestedField ks := by
  cases ks
  case nil => contradiction
  case cons => rfl

@[simp]
theorem nestedField_cons_cons (o : Fields) (k k' : Str) (ks : List Str) :
    o.nestedField (k :: k' :: ks) =
      (o.get k).bind fun v => v.obj?.bind fun m => m.nestedField (k' :: ks) :=
  rfl

-- The last field of a path belongs to the object at the path before.
theorem nestedField_append (o : Fields) (path : List Str) (k : Str) :
    o.nestedField (path ++ [k]) = ((o.nestedMap path).getD []).get k := by
  induction path generalizing o
  case nil             => simp [nestedMap, nestedField]
  case cons k' path hi =>
    rw [List.cons_append, nestedField_cons o k' (by simp)]
    cases hv : o.get k'
    case none =>
      cases path <;> simp [nestedMap, hv]
    case some v =>
      cases hm : v.obj?
      case none   => cases path <;> simp [nestedMap, hv, hm]
      case some m =>
        simp only [Option.bind_some, hm, hi]
        cases path
        case nil        => simp [nestedMap, nestedField, hv, hm]
        case cons k _   => simp [nestedMap, hv, hm]

theorem nestedStringSlice_of_slice {path : List Str} {l : List Str}
    (h : (o.nestedSlice path).getD [] = toAnySlice l) : (o.nestedStringSlice path).getD [] = l := by
  cases hs : o.nestedSlice path
  case none =>
    rw [hs] at h
    cases l
    case nil  => simp [nestedStringSlice, hs]
    case cons => cases h
  case some vs =>
    rw [hs] at h
    have hv : vs = toAnySlice l := h
    simp [nestedStringSlice, hs, hv, mapM_toAnySlice]

theorem nestedStringMap_strings {m : Entries Str} {path : List Str}
    (h : o.nestedMap path = some (strings m)) : o.nestedStringMap path = some m := by
  have hm : (strings m).mapM (fun e => e.2.string?.map (e.1, ·)) = some m := by
    clear h
    induction m
    case nil         => rfl
    case cons e m hi =>
      simp only [strings, List.map_cons, List.mapM_cons] at hi ⊢
      simp [hi]
  simp [nestedStringMap, h, hm]

end Nested
end Fields

-- A field with its new value, or without one.
def Fields.put (o : Fields) (k : Str) : Option Value → Fields
  | none   => Entries.erase o k
  | some v => Entries.set o k v

-- What a JSON merge patch puts in the place of a value. Null stands for a field that is to go.
mutual

def Value.merge : Value → Option Value → Option Value
  | .null, _           => none
  | .obj patch, target => some (.obj (mergeFields patch ((target.bind Value.obj?).getD [])))
  | .bool b, _         => some (.bool b)
  | .int n, _          => some (.int n)
  | .float f, _        => some (.float f)
  | .string s, _       => some (.string s)
  | .list l, _         => some (.list l)

def mergeFields : List (Str × Value) → Fields → Fields
  | [], o              => o
  | (k, v) :: patch, o => mergeFields patch (Fields.put o k (v.merge (Entries.get o k)))

end

-- A patch of one place.
def patchAt (k : Str) : List Str → Value → Fields
  | [], v       => [(k, v)]
  | k' :: ks, v => [(k, .obj (patchAt k' ks v))]

section Patch

variable {o : Fields} {k k' : Str} {ks path : List Str} {v : Value}

theorem mergeFields_one : mergeFields [(k, v)] o = o.put k (v.merge (o.get k)) := by
  rw [mergeFields, mergeFields]

theorem get_put_ne (h : k' ≠ k) (v : Option Value) : (o.put k v).get k' = o.get k' := by
  cases v
  case none   => simp [Fields.put, Entries.get_erase, h]
  case some w => exact Entries.get_set_ne _ _ h

theorem get_patchAt_ne (h : k' ≠ k) : Entries.get (mergeFields (patchAt k ks v) o) k' = o.get k' := by
  cases ks <;> rw [patchAt, mergeFields_one, get_put_ne h]

theorem get_patchAt_cons : Entries.get (mergeFields (patchAt k (k' :: ks) v) o) k =
    some (.obj (mergeFields (patchAt k' ks v) (((o.get k).bind Value.obj?).getD []))) := by
  rw [patchAt, mergeFields_one, Value.merge]
  exact Entries.get_set_self ..

theorem nestedField_cons_getD (k : Str) (h : path ≠ []) :
    o.nestedField (k :: path) = (((o.get k).bind Value.obj?).getD []).nestedField path := by
  rw [Fields.nestedField_cons o k h]
  have hn : Fields.nestedField [] path = none := by
    cases path
    case nil          => contradiction
    case cons _ path => cases path <;> rfl
  cases o.get k
  case none   => exact hn.symm
  case some w =>
    cases hw : w.obj?
    case none   => simp [hw, hn]
    case some m => simp [hw]

-- A patch of a place leaves those alone that are neither on the way to it nor under it.
theorem nestedField_patchAt (hp : ¬k :: ks <+: path) (hq : ¬path <+: k :: ks) :
    Fields.nestedField (mergeFields (patchAt k ks v) o) path = o.nestedField path := by
  induction ks generalizing k o path
  all_goals
    obtain ⟨k', path, rfl⟩ : ∃ k' path', path = k' :: path' := by
      cases path
      case nil  => exact absurd List.nil_prefix hq
      case cons => exact ⟨_, _, rfl⟩
  case nil =>
    have hk : k' ≠ k := by
      rintro rfl
      exact hp (List.cons_prefix_cons.mpr ⟨rfl, List.nil_prefix⟩)
    cases path <;> simp only [Fields.nestedField_one, Fields.nestedField_cons_cons, get_patchAt_ne hk]
  case cons k₁ ks hi =>
    by_cases hk : k' = k
    case neg => cases path <;> simp only [Fields.nestedField_one, Fields.nestedField_cons_cons, get_patchAt_ne hk]
    case pos =>
      subst hk
      have hn : path ≠ [] := by
        rintro rfl
        exact hq (List.cons_prefix_cons.mpr ⟨rfl, List.nil_prefix⟩)
      rw [nestedField_cons_getD k' hn, nestedField_cons_getD k' hn, get_patchAt_cons]
      exact hi (fun h => hp (List.cons_prefix_cons.mpr ⟨rfl, h⟩)) fun h => hq (List.cons_prefix_cons.mpr ⟨rfl, h⟩)

end Patch

end Kube

namespace Kube

-- A place in a value: fields of objects and positions in lists.
inductive Seg
  | key (k : Str)
  | index (n : Nat)
deriving DecidableEq

abbrev Path :=
  List Seg

def Value.follow : Value → Path → Option Value
  | v, []                     => some v
  | .obj m, .key k :: path    => (Entries.get m k).bind fun v => v.follow path
  | .list l, .index n :: path => l[n]?.bind fun v => v.follow path
  | _, _ :: _                 => none

namespace Path

-- A place that is neither on the way to one of the paths nor under one of them.
def Outside (paths : List Path) (p : Path) : Prop :=
  ∀ q ∈ paths, ¬q <+: p ∧ ¬p <+: q

instance : Decidable (Outside paths p) :=
  inferInstanceAs (Decidable (∀ q ∈ paths, ¬q <+: p ∧ ¬p <+: q))

-- A value that stands at a place and has nothing outside the paths.
def Within (paths : List Path) (place : Path) (v : Value) : Prop :=
  ∀ p, Outside paths (place ++ p) → v.follow p = none

def WithinFields (paths : List Path) (place : Path) (o : Fields) : Prop :=
  ∀ k v, o.get k = some v → Within paths (place ++ [.key k]) v

namespace Within

variable {paths : List Path} {place q : Path} {v : Value}

theorem leaf (h : place ∈ paths) : Within paths place v :=
  fun p ho => ((ho place h).left (List.prefix_append place p)).elim

theorem not_outside (h : place ++ q ∈ paths) : ¬Outside paths (place ++ []) := by
  intro ho
  apply (ho _ h).right
  simp

theorem obj {m : Fields} (hq : place ++ q ∈ paths) (h : WithinFields paths place m) :
    Within paths place (.obj m) := by
  intro p ho
  cases p
  case nil => exact (not_outside hq ho).elim
  case cons s p =>
    cases s
    case index => rfl
    case key k =>
      cases hg : m.get k
      case none   => simp [Value.follow, hg]
      case some w => simpa [Value.follow, hg] using h k w hg p (by simpa using ho)

theorem list {l : List Value} (hq : place ++ q ∈ paths)
    (h : ∀ n w, l[n]? = some w → Within paths (place ++ [.index n]) w) :
    Within paths place (.list l) := by
  intro p ho
  cases p
  case nil => exact (not_outside hq ho).elim
  case cons s p =>
    cases s
    case key     => rfl
    case index n =>
      cases hg : l[n]?
      case none   => simp [Value.follow, hg]
      case some w => simpa [Value.follow, hg] using h n w hg p (by simpa using ho)

end Within

namespace WithinFields

variable {paths : List Path} {place : Path} {o : Fields}

theorem nil : WithinFields paths place [] := by
  intro k v h
  cases h

theorem set {k : Str} {v : Value} (h : WithinFields paths place o)
    (hv : Within paths (place ++ [.key k]) v) : WithinFields paths place (o.set k v) := by
  intro k' v' hg
  rw [Entries.get_set] at hg
  split at hg
  case isTrue hk => cases hg; exact hk ▸ hv
  case isFalse   => exact h k' v' hg

theorem mapOf {l : List (String × Value)}
    (h : ∀ e ∈ l, Within paths (place ++ [.key (str e.1)]) e.2) :
    WithinFields paths place (mapOf l) := by
  have hf : ∀ o : Fields, WithinFields paths place o →
      WithinFields paths place (l.foldl (fun o e => Entries.set o (str e.1) e.2) o) := by
    induction l
    case nil         => exact fun o ho => ho
    case cons e l hi =>
      intro o ho
      exact hi (fun e he => h e (.tail _ he)) _ (ho.set (h e (.head _)))
  exact hf [] nil

end WithinFields
end Path
end Kube

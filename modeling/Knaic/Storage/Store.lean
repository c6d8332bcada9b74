import Knaic.Effects.Machine
import Knaic.Go.Sort

open Go Effects

namespace Storage

-- The strings that stand for a kind, and any other.
inductive Kind
  | kindS3
  | kindOCI
  | kindPVC
  | other (kind : Str)
deriving DecidableEq

structure Target where
  id         : Str
  name       : Str
  kind       : Kind
  endpoint   : Str
  bucket     : Str
  pathPrefix : Str
  builtin    : Bool
  createdAt  : Str
deriving DecidableEq

structure CreateInput where
  name       : Str
  kind       : Kind
  endpoint   : Str
  bucket     : Str
  pathPrefix : Str

structure PatchInput where
  name       : Option Str
  endpoint   : Option Str
  bucket     : Option Str
  pathPrefix : Option Str

def errNotFound : Error :=
  .sentinel "storage" "storage target not found"

def errBuiltinLocked : Error :=
  .sentinel "storage" "built-in storage targets cannot be modified"

def errAlreadyExists : Error :=
  .sentinel "storage" "storage target already exists"

structure Store where
  targets : Go.Map Target
  nextID  : Nat

def idFor (n : Nat) : Str :=
  str "st-" ++ decimal n

def validateCreate (input : CreateInput) : Except Error Unit :=
  if input.name = [] then .error (.new "name is required")
  else
    match input.kind with
    | .kindS3  =>
      if input.endpoint = [] ∨ input.bucket = [] then .error (.new "s3 targets require endpoint and bucket")
      else .ok ()
    | .kindOCI => if input.endpoint = [] then .error (.new "oci targets require endpoint") else .ok ()
    | .kindPVC => .ok ()
    | .other _ => .error (.new "kind must be one of \"s3\", \"oci\", \"pvc\"")

namespace Store

def add (s : Store) (t : Target) : Target × Store :=
  let t := { t with id := idFor (s.nextID + 1) }
  (t, ⟨s.targets.insert t.id t, s.nextID + 1⟩)

def builtins (registryEndpoint now : Str) : List Target := [
  {
    id         := []
    name       := str "Built-in object store"
    kind       := .kindS3
    endpoint   := str "minio.knaic-system.svc.cluster.local:9000"
    bucket     := str "knaic-models"
    pathPrefix := []
    builtin    := true
    createdAt  := now
  },
  {
    id         := []
    name       := str "Built-in OCI registry"
    kind       := .kindOCI
    endpoint   := registryEndpoint
    bucket     := []
    pathPrefix := str "models"
    builtin    := true
    createdAt  := now
  }]

def new (registryEndpoint now : Str) : Store :=
  (builtins registryEndpoint now).foldl (fun s t => (s.add t).2) ⟨∅, 0⟩

def less (a b : Target) : Bool :=
  if a.builtin ≠ b.builtin then a.builtin else a.id < b.id

def list (s : Store) : List Target :=
  s.targets.sorted (fun _ => true) less

def get (s : Store) (id : Str) : Except Error Target :=
  match s.targets.lookup id with
  | none   => .error errNotFound
  | some t => .ok t

def create (s : Store) (input : CreateInput) (now : Str) : Except Error (Target × Store) :=
  match validateCreate input with
  | .error e => .error e
  | .ok ()   =>
    if s.targets.exists? (·.name = input.name) then .error errAlreadyExists
    else .ok <| s.add {
      id         := []
      name       := input.name
      kind       := input.kind
      endpoint   := input.endpoint
      bucket     := input.bucket
      pathPrefix := input.pathPrefix
      builtin    := false
      createdAt  := now
    }

end Store

def PatchInput.apply (p : PatchInput) (t : Target) : Target :=
  { t with
    name       := p.name.getD t.name
    endpoint   := p.endpoint.getD t.endpoint
    bucket     := p.bucket.getD t.bucket
    pathPrefix := p.pathPrefix.getD t.pathPrefix }

namespace Store

def patch (s : Store) (id : Str) (p : PatchInput) : Except Error (Target × Store) :=
  match s.targets.lookup id with
  | none   => .error errNotFound
  | some t =>
    if t.builtin then .error errBuiltinLocked
    else .ok (p.apply t, { s with targets := s.targets.insert id (p.apply t) })

def delete (s : Store) (id : Str) : Except Error (Unit × Store) :=
  match s.targets.lookup id with
  | none   => .error errNotFound
  | some t =>
    if t.builtin then .error errBuiltinLocked
    else .ok ((), { s with targets := s.targets.erase id })

end Store

inductive Op
  | list
  | get (id : Str)
  | create (input : CreateInput)
  | patch (id : Str) (p : PatchInput)
  | delete (id : Str)

abbrev ops : Signature where
  Op  := Op
  Res
    | .list                            => List Target
    | .get _ | .create _ | .patch _ _ => Except Error Target
    | .delete _                        => Except Error Unit

-- The store with what its clock shows.
def machine : Machine ops Str Store where
  answer
    | .list, _, s         => (s.list, s)
    | .get id, _, s       => (s.get id, s)
    | .create input, now, s => commit s (s.create input now)
    | .patch id p, _, s   => commit s (s.patch id p)
    | .delete id, _, s    => commit s (s.delete id)

namespace Store

variable {s s' : Store} {t u : Target} {input : CreateInput} {p : PatchInput} {id now : Str}

-- The input passes, and its name is free.
structure Accepts (s : Store) (input : CreateInput) : Prop where
  valid : validateCreate input = .ok ()
  fresh : ∀ id t, s.targets.lookup id = some t → t.name ≠ input.name

-- The target that is made of an input.
def made (s : Store) (input : CreateInput) (now : Str) : Target where
  id         := idFor (s.nextID + 1)
  name       := input.name
  kind       := input.kind
  endpoint   := input.endpoint
  bucket     := input.bucket
  pathPrefix := input.pathPrefix
  builtin    := false
  createdAt  := now

theorem exists_name : s.targets.exists? (·.name = input.name) ↔ ∃ id t, s.targets.lookup id = some t ∧ t.name = input.name := by
  simp [Map.exists_iff]

theorem create_ok (h : s.Accepts input) :
    s.create input now = .ok (s.made input now, ⟨s.targets.insert (idFor (s.nextID + 1)) (s.made input now), s.nextID + 1⟩) := by
  have hn : ¬s.targets.exists? (·.name = input.name) := by
    rw [exists_name]
    rintro ⟨id, t, hl, he⟩
    exact h.fresh id t hl he
  rw [create, h.valid]
  simp only [hn]
  rfl

theorem create_error (h : ¬s.Accepts input) (now : Str) : ∃ e, s.create input now = .error e := by
  unfold create
  cases hv : validateCreate input
  case error e => exact ⟨e, rfl⟩
  case ok      =>
    have hn : s.targets.exists? (·.name = input.name) := by
      rw [exists_name]
      by_contra hc
      exact h ⟨hv, fun id t hl he => hc ⟨id, t, hl, he⟩⟩
    exact ⟨_, if_pos hn⟩

-- A target that may be changed.
def Open (s : Store) (id : Str) (t : Target) : Prop :=
  s.targets.lookup id = some t ∧ t.builtin = false

theorem patch_ok (h : s.Open id t) :
    s.patch id p = .ok (p.apply t, { s with targets := s.targets.insert id (p.apply t) }) := by
  simp [patch, h.left, h.right]

theorem patch_error (h : ∀ t, ¬s.Open id t) : ∃ e, s.patch id p = .error e := by
  unfold patch
  cases hl : s.targets.lookup id
  case none   => exact ⟨_, rfl⟩
  case some t => exact ⟨errBuiltinLocked, if_pos (by simpa [Open, hl] using h t)⟩

theorem delete_ok (h : s.Open id t) : s.delete id = .ok ((), { s with targets := s.targets.erase id }) := by
  simp [delete, h.left, h.right]

theorem delete_error (h : ∀ t, ¬s.Open id t) : ∃ e, s.delete id = .error e := by
  unfold delete
  cases hl : s.targets.lookup id
  case none   => exact ⟨_, rfl⟩
  case some t => exact ⟨errBuiltinLocked, if_pos (by simpa [Open, hl] using h t)⟩

-- Every target is filed under its own number.
def Numbered (s : Store) : Prop :=
  ∀ id t, s.targets.lookup id = some t → t.id = id ∧ ∃ n, n ≤ s.nextID ∧ id = idFor n

theorem idFor_inj {m n : Nat} : idFor m = idFor n ↔ m = n := by
  rw [idFor, idFor, List.append_cancel_left_eq, decimal_inj]

theorem Numbered.fresh (h : s.Numbered) : s.targets.lookup (idFor (s.nextID + 1)) = none := by
  cases hl : s.targets.lookup (idFor (s.nextID + 1))
  case none   => rfl
  case some t =>
    obtain ⟨-, n, hn, he⟩ := h _ _ hl
    have := idFor_inj.mp he
    omega

-- What a step comes to.
inductive Outcome (s : Store) (now : Str) : (op : Op) → ops.Res op × Store → Prop
  | list : Outcome s now .list (s.list, s)
  | get {id : Str} : Outcome s now (.get id) (s.get id, s)
  | created {input : CreateInput} : s.Accepts input → Outcome s now (.create input)
    (.ok (s.made input now), ⟨s.targets.insert (idFor (s.nextID + 1)) (s.made input now), s.nextID + 1⟩)
  | refused {input : CreateInput} {e : Error} : ¬s.Accepts input → Outcome s now (.create input) (.error e, s)
  | patched {id : Str} {p : PatchInput} {t : Target} : s.Open id t → Outcome s now (.patch id p)
    (.ok (p.apply t), { s with targets := s.targets.insert id (p.apply t) })
  | unpatched {id : Str} {p : PatchInput} {e : Error} : (∀ t, ¬s.Open id t) → Outcome s now (.patch id p) (.error e, s)
  | deleted {id : Str} {t : Target} : s.Open id t → Outcome s now (.delete id)
    (.ok (), { s with targets := s.targets.erase id })
  | undeleted {id : Str} {e : Error} : (∀ t, ¬s.Open id t) → Outcome s now (.delete id) (.error e, s)

theorem outcome (s : Store) (op : Op) (now : Str) : Outcome s now op (machine.answer op now s) := by
  cases op
  case list         => exact .list
  case get          => exact .get
  case create input =>
    by_cases ha : s.Accepts input
    case pos =>
      simp only [machine, create_ok ha, commit]
      exact .created ha
    case neg =>
      obtain ⟨e, he⟩ := create_error ha now
      simp only [machine, he, commit]
      exact .refused ha
  case patch id p   =>
    by_cases ho : ∃ t, s.Open id t
    case pos =>
      obtain ⟨t, ht⟩ := ho
      simp only [machine, patch_ok ht, commit]
      exact .patched ht
    case neg =>
      obtain ⟨e, he⟩ := patch_error (p := p) (not_exists.mp ho)
      simp only [machine, he, commit]
      exact .unpatched (not_exists.mp ho)
  case delete id    =>
    by_cases ho : ∃ t, s.Open id t
    case pos =>
      obtain ⟨t, ht⟩ := ho
      simp only [machine, delete_ok ht, commit]
      exact .deleted ht
    case neg =>
      obtain ⟨e, he⟩ := delete_error (not_exists.mp ho)
      simp only [machine, he, commit]
      exact .undeleted (not_exists.mp ho)

-- What is kept by the three changes is kept by all steps.
theorem answer_keeps {op : Op} {I : Store → Prop} (hi : I s)
    (hc : ∀ input, s.Accepts input →
      I ⟨s.targets.insert (idFor (s.nextID + 1)) (s.made input now), s.nextID + 1⟩)
    (hp : ∀ id (p : PatchInput) t, s.Open id t → I { s with targets := s.targets.insert id (p.apply t) })
    (hd : ∀ id t, s.Open id t → I { s with targets := s.targets.erase id }) :
    I (machine.answer op now s).2 := by
  have ho := outcome s op now
  generalize machine.answer op now s = r at ho ⊢
  cases ho
  case created ha => exact hc _ ha
  case patched ht => exact hp _ _ _ ht
  case deleted ht => exact hd _ _ ht
  all_goals exact hi

section Numbers

theorem Numbered.answer (h : s.Numbered) (op : Op) (now : Str) : Numbered (machine.answer op now s).2 := by
  refine answer_keeps h (fun input _ id t hl => ?_) (fun id p t ho id' t' hl => ?_) fun id t _ id' t' hl => ?_
  case refine_1 =>
    obtain ⟨rfl, rfl⟩ | hl := Map.lookup_insert_some hl
    case inl => exact ⟨rfl, s.nextID + 1, Nat.le_refl _, rfl⟩
    case inr =>
      obtain ⟨hi, n, hn, he⟩ := h id t hl
      exact ⟨hi, n, Nat.le_succ_of_le hn, he⟩
  case refine_2 =>
    obtain ⟨rfl, rfl⟩ | hl := Map.lookup_insert_some hl
    case inl => exact h _ t ho.left
    case inr => exact h id' t' hl
  case refine_3 => exact h id' t' (Map.lookup_erase_some hl)

theorem new_numbered (registryEndpoint now : Str) : (new registryEndpoint now).Numbered := by
  intro id t hl
  obtain ⟨rfl, rfl⟩ | hl := Map.lookup_insert_some hl
  case inl => exact ⟨rfl, 2, Nat.le_refl _, rfl⟩
  case inr =>
    obtain ⟨rfl, rfl⟩ | hl := Map.lookup_insert_some hl
    case inl => exact ⟨rfl, 1, Nat.le_succ _, rfl⟩
    case inr => cases hl

-- The targets that are built in are those of `init`.
def BuiltinsOf (init s : Store) : Prop :=
  ∀ id, (s.targets.lookup id).filter (·.builtin) = (init.targets.lookup id).filter (·.builtin)

theorem BuiltinsOf.lookup {init : Store} (h : BuiltinsOf init s) (ht : t.builtin) :
    s.targets.lookup id = some t ↔ init.targets.lookup id = some t := by
  have hf := h id
  constructor
  case mp  =>
    intro hl
    rw [hl, Option.filter_some, if_pos ht] at hf
    exact (Option.filter_eq_some_iff.mp hf.symm).left
  case mpr =>
    intro hl
    rw [hl, Option.filter_some, if_pos ht] at hf
    exact (Option.filter_eq_some_iff.mp hf).left

theorem BuiltinsOf.insert {init : Store} {n : Nat} (h : BuiltinsOf init s)
    (hn : (s.targets.lookup id).filter (·.builtin) = none) (hb : t.builtin = false) :
    BuiltinsOf init ⟨s.targets.insert id t, n⟩ := by
  intro id'
  rw [← h id']
  by_cases he : id' = id
  case pos =>
    rw [he, hn, Finmap.lookup_insert, Option.filter_some, hb]
    rfl
  case neg => rw [Finmap.lookup_insert_of_ne _ he]

theorem Open.filter (h : s.Open id t) : (s.targets.lookup id).filter (·.builtin) = none := by
  simp [h.left, h.right]

theorem BuiltinsOf.erase {init : Store} {n : Nat} (h : BuiltinsOf init s) (ho : s.Open id t) :
    BuiltinsOf init ⟨s.targets.erase id, n⟩ := by
  intro id'
  rw [← h id']
  by_cases he : id' = id
  case pos => rw [he, ho.filter, Finmap.lookup_erase, Option.filter_none]
  case neg => rw [Finmap.lookup_erase_ne he]

theorem BuiltinsOf.answer {init : Store} (h : s.Numbered) (hb : BuiltinsOf init s) (op : Op) (now : Str) :
    BuiltinsOf init (machine.answer op now s).2 := by
  refine answer_keeps hb (fun input _ => ?_) (fun id p t ho => ?_) fun id t ho => ?_
  case refine_1 => exact hb.insert (by simp [h.fresh]) rfl
  case refine_2 => exact hb.insert ho.filter ho.right
  case refine_3 => exact hb.erase ho

end Numbers
end Store
end Storage

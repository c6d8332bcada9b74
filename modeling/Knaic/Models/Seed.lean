import Knaic.Effects.Prog
import Knaic.Models.Interchange
import Knaic.Models.Service

open Go Effects Sql

-- The seed list, and the runs that put it into an empty catalogue.
namespace Models.Seed

structure SeedCollection where
  id          : Str
  name        : Str
  description : Str
  iconColor   : Str

structure SeedFile where
  collections : List SeedCollection
  models      : List Model

structure SeedBundle where
  collections : List SeedCollection
  models      : List Model

-- The list in the binary, those on the disk, and how they are read.
structure Files where
  defaultSeedYAML : Str
  readFile        : Str → Except Error Str
  unmarshal       : Str → Except Error SeedFile

inductive Op
  | count (scope : Scope)
  | create (m : Model)
  | readFile (path : Str)
  | seedCollection (c : SeedCollection)
  | newID (pre : Str)

abbrev ops : Signature where
  Op := Op
  Res
    | .count _          => Except Error Nat
    | .create _         => Except Error Model
    | .readFile _       => Except Error Str
    | .seedCollection _ => Except Error Unit
    | .newID _          => Str

abbrev Call :=
  Effects.Call ops Error

def perform (op : Op) : Prog ops (ops.Res op) :=
  @Prog.perform ops op

def count (scope : Scope) : Call Nat :=
  perform (.count scope)

-- The error of a creation is looked at, and does not end the call by itself.
def create (m : Model) : Call (Except Error Model) :=
  ExceptT.lift (perform (.create m))

def readFile (path : Str) : Call Str :=
  perform (.readFile path)

def seedCollection (c : SeedCollection) : Call Unit :=
  perform (.seedCollection c)

def newID (pre : Str) : Call Str :=
  ExceptT.lift (perform (.newID pre))

def publish (m : Model) : Model :=
  { m with
    scope     := .scopePublic
    scheme    := if m.scheme = .unknown [] unknown_nil then .hf else m.scheme
    sourceURL := if m.sourceURL = [] then publicSourceURL m.uri else m.sourceURL }

def unmarshalSeed (files : Files) (data : Str) : Except Error SeedBundle :=
  match files.unmarshal data with
  | .error err => .error (.wrap "parse public-models seed" err)
  | .ok f      => .ok { collections := f.collections, models := f.models.map publish }

-- What the file at the path has to say, if it can be read.
def Files.bundle (files : Files) (path : Str) : Except Error SeedBundle := do
  unmarshalSeed files (← if path ≠ [] then files.readFile path else pure files.defaultSeedYAML)

def seedData (files : Files) (path : Str) : Call Str :=
  if path ≠ [] then
    (readFile path).mapError (.wrap "read public-models seed")
  else
    pure files.defaultSeedYAML

def loadPublicSeed (files : Files) (path : Str) : Call SeedBundle := do
  let data ← seedData files path
  match unmarshalSeed files data with
  | .error err => throw err
  | .ok bundle => return bundle

def seedCollections : List SeedCollection → Call Unit
  | []      => pure ()
  | c :: cs => do
    seedCollection c
    seedCollections cs

def idOf (m : Model) : Call Str :=
  if m.id = [] then newID (str "m") else pure m.id

def createModels : List Model → Call Unit
  | []      => pure ()
  | m :: ms => do
    let id ← idOf m
    match ← create { m with id := id } with
    | .error err => if err ≠ errConflict then throw err else createModels ms
    | .ok _      => createModels ms

-- `hook` is whether there is a seeder for the collections.
def applyCollections (hook : Bool) (cs : List SeedCollection) : Call Unit :=
  if hook then seedCollections cs else pure ()

def seedBundle (hook : Bool) (bundle : SeedBundle) : Call Unit := do
  applyCollections hook bundle.collections
  createModels bundle.models

def seed (files : Files) (path : Str) (hook : Bool) : Call Unit := do
  let n ← count .scopePublic
  if n > 0 then
    return
  else
    let bundle ← loadPublicSeed files path
    seedBundle hook bundle

-- What a creation may change of a model: its times, and what a column makes of its numbers.
def Copy (m e : Model) : Prop :=
  e = { m with
    id        := e.id
    sizeGB    := e.sizeGB
    downloads := e.downloads
    createdAt := e.createdAt
    updatedAt := e.updatedAt }

-- No two models of the catalogue have the same place.
def place (m : Model) : Scope × Str × Str :=
  (m.scope, m.ns, m.name)

-- Every model is under its identifier.
def Keyed (s : Go.Map Model) : Prop :=
  ∀ k, ∀ m ∈ s.lookup k, m.id = k

-- A store of models, by itself: it counts what it has, and what it does not create it leaves as it is.
structure Backend where
  machine : Machine store Time (Go.Map Model)
  counts {s scope now n} : (machine.answer (.count scope) now s).1 = .ok n → n = MemoryStore.count s scope
  reads {s scope now}    : (machine.answer (.count scope) now s).2 = s
  creates {s m m' now}   : Keyed s → (machine.answer (.create m) now s).1 = .ok m' → ¬MemoryStore.clashes s m ∧
                           ∃ e, Copy m e ∧ e.id = m.id ∧ (machine.answer (.create m) now s).2 = s.insert m.id e
  refuses {s m e now}    : Keyed s → (machine.answer (.create m) now s).1 = .error e →
                           (machine.answer (.create m) now s).2 = s ∧
                           (e = errConflict → MemoryStore.clashes s m ∨ (s.lookup m.id).isSome)

-- A failure of the store, the disk or the hook that is not about the model. A write may have been made.
structure Fault where
  err  : Error
  ne   : err ≠ errConflict
  done : Bool

structure Draw where
  now    : Time
  random : Vector UInt8 4
  fault  : Option Fault

def Draw.check (d : Draw) (a : Except Error α) : Except Error α :=
  match d.fault with
  | some f => .error f.err
  | none   => a

def Draw.newID (d : Draw) (pre : Str) : Str :=
  pre ++ str "-" ++ hex d.random.toList

def answer (B : Backend) (files : Files) (op : ops.Op) (d : Draw) (s : Go.Map Model) :
    ops.Res op × Go.Map Model :=
  match op with
  | .count scope      => (d.check (B.machine.answer (.count scope) d.now s).1, s)
  | .create m         =>
    (d.check (B.machine.answer (.create m) d.now s).1,
      if d.fault.all Fault.done then (B.machine.answer (.create m) d.now s).2 else s)
  | .readFile path    => (d.check (files.readFile path), s)
  | .seedCollection _ => (d.check (.ok ()), s)
  | .newID pre        => (d.newID pre, s)

-- Every model of the list is there once, and nothing else is.
structure Seeded (ms : List Model) (s : Go.Map Model) : Prop where
  once : ∀ m ∈ ms, ∃! k, ∃ e ∈ s.lookup k, place e = place m
  only : ∀ k, ∀ e ∈ s.lookup k, ∃ m ∈ ms, Copy m e

-- Entries of a list have an identifier in common only if they are about one model.
def Consistent (ms : List Model) : Prop :=
  ∀ m ∈ ms, ∀ m' ∈ ms, m.id ≠ [] → m.id = m'.id → place m = place m'

instance (ms : List Model) : Decidable (Consistent ms) :=
  inferInstanceAs (Decidable (∀ m ∈ ms, ∀ m' ∈ ms, _))

-- A generated identifier is new to the store and to the list.
def Fresh (ms : List Model) : ops.Op → Draw → Go.Map Model → Prop
  | .newID pre, d, s => s.lookup (d.newID pre) = none ∧ d.newID pre ∉ ms.map Model.id
  | _, _, _          => True

abbrev boots : Signature where
  Op    := Unit
  Res _ := Except Error Unit

-- One run after the other, each from what the ones before it have left.
def boot (B : Backend) (files : Files) (path : Str) (hook : Bool) :
    Machine boots (Nat → Draw) (Go.Map Model) where
  answer _ d s := Prog.play (answer B files) (seed files path hook) d s

-- All identifiers that a run generates are new.
def FreshRun (B : Backend) (files : Files) (path : Str) (hook : Bool) (ms : List Model) :
    boots.Op → (Nat → Draw) → Go.Map Model → Prop :=
  fun _ d s => Prog.Meets (answer B files) (Fresh ms) (seed files path hook) d s

section Run

variable {B : Backend} {files : Files} {path : Str} {hook : Bool} {ms rest : List Model} {m : Model}
  {s s' : Go.Map Model} {d : Draw}

def There (m : Model) (s : Go.Map Model) : Prop :=
  ∃ k, ∃ e ∈ s.lookup k, place e = place m

-- What a run has made so far: copies of entries of the list, each with a place of its own.
structure Sound (ms : List Model) (s : Go.Map Model) : Prop where
  keyed : Keyed s
  once  : ∀ k k', ∀ e ∈ s.lookup k, ∀ e' ∈ s.lookup k', place e = place e' → k = k'
  only  : ∀ k, ∀ e ∈ s.lookup k, ∃ m ∈ ms, Copy m e ∧ (k = m.id ∨ m.id = [] ∧ k ∉ ms.map Model.id)

theorem Copy.place {e : Model} (h : Copy m e) : place e = place m := by
  rw [h]
  rfl

theorem Copy.trans {m' e : Model} (h : Copy m m') (h' : Copy m' e) : Copy m e := by
  rw [Copy, h', h]

theorem clashes_iff_there : MemoryStore.clashes s m ↔ There m s := by
  simp only [MemoryStore.clashes_iff, There, place, Prod.mk.injEq, Option.mem_def]

-- The identifier that an entry is created under: its own, or a new one.
def Names (ms : List Model) (s : Go.Map Model) (m : Model) (id : Str) : Prop :=
  m.id ≠ [] ∧ id = m.id ∨ m.id = [] ∧ s.lookup id = none ∧ id ∉ ms.map Model.id

-- An identifier that is taken is taken by a copy of the same model.
theorem Names.taken {id : Str} (hn : Names ms s m id) (hs : Sound ms s) (hc : Consistent ms) (hm : m ∈ ms)
    (h : (s.lookup id).isSome) : There m s := by
  obtain ⟨e, he⟩ := Option.isSome_iff_exists.mp h
  obtain ⟨hne, rfl⟩ | ⟨_, hf, _⟩ := hn
  case inr => cases hf.symm.trans he
  case inl =>
    obtain ⟨m', hm', hcopy, hid | ⟨_, hid⟩⟩ := hs.only _ e he
    case inl => exact ⟨_, e, he, hcopy.place.trans (hc m hm m' hm' hne hid).symm⟩
    case inr => exact absurd (List.mem_map_of_mem hm) hid

theorem Sound.insert {id : Str} {e : Model} (hs : Sound ms s) (hm : m ∈ ms) (hn : Names ms s m id)
    (ht : ¬There m s) (hf : s.lookup id = none) (hcopy : Copy m e) (hid : e.id = id) :
    Sound ms (s.insert id e) where
  keyed k e' he' := by
    obtain ⟨rfl, rfl⟩ | hl := Map.lookup_insert_some he'
    case inl => exact hid
    case inr => exact hs.keyed k e' hl
  once k k' a ha a' ha' he := by
    obtain ⟨rfl, rfl⟩ | hl := Map.lookup_insert_some ha
    all_goals obtain ⟨rfl, rfl⟩ | hl' := Map.lookup_insert_some ha'
    case inl.inl => rfl
    case inl.inr => exact absurd ⟨k', a', hl', he.symm.trans hcopy.place⟩ ht
    case inr.inl => exact absurd ⟨k, a, hl, he.trans hcopy.place⟩ ht
    case inr.inr => exact hs.once k k' a hl a' hl' he
  only k a ha := by
    obtain ⟨rfl, rfl⟩ | hl := Map.lookup_insert_some ha
    case inr => exact hs.only k a hl
    case inl =>
      refine ⟨m, hm, hcopy, ?_⟩
      obtain ⟨_, rfl⟩ | ⟨hi, _, hg⟩ := hn
      case inl => exact .inl rfl
      case inr => exact .inr ⟨hi, hg⟩

-- A creation, whether or not its answer arrives.
theorem create_sound {id : Str} (now : Time) (hs : Sound ms s) (hc : Consistent ms) (hm : m ∈ ms)
    (hn : Names ms s m id) :
    let a := B.machine.answer (.create { m with id := id }) now s
    Sound ms a.2 ∧ (∀ m', There m' s → There m' a.2) ∧
    (∀ e, a.1 = .error e → e = errConflict → There m a.2) ∧ ∀ m', a.1 = .ok m' → There m a.2 := by
  intro a
  cases ha : a.1
  case error e =>
    obtain ⟨he, hcf⟩ := B.refuses hs.keyed ha
    have hsame : a.2 = s := he
    rw [hsame]
    refine ⟨hs, fun _ h => h, fun e' he' hec => ?_, fun m' hm' => by cases hm'⟩
    cases he'
    obtain h | h := hcf hec
    case inl => exact clashes_iff_there.mp h
    case inr => exact hn.taken hs hc hm h
  case ok m' =>
    obtain ⟨hcl, e, hcopy, hid, he⟩ := B.creates hs.keyed ha
    have ht : ¬There m s := fun h => hcl (clashes_iff_there.mpr h)
    have hf : s.lookup id = none := by
      by_contra h
      exact ht (hn.taken hs hc hm (Option.isSome_iff_ne_none.mpr h))
    have hins : a.2 = s.insert id e := he
    have hc' : Copy m e := hcopy
    rw [hins]
    refine ⟨hs.insert hm hn ht hf hc' hid, fun m' h => ?_, fun _ h _ => (by cases h), fun _ _ => ?_⟩
    case refine_1 =>
      obtain ⟨k, e', hl, hp⟩ := h
      exact ⟨k, e', Map.lookup_insert_fresh hf hl, hp⟩
    case refine_2 => exact ⟨id, e, Finmap.lookup_insert s, hc'.place⟩

-- How the creation of a list goes on.
def goOn (rest : List Model) : Except Error Model → Call Unit
  | .error err => if err ≠ errConflict then throw err else createModels rest
  | .ok _      => createModels rest

theorem createModels_cons (m : Model) (rest : List Model) : createModels (m :: rest) =
    (idOf m >>= fun id => (create { m with id := id } >>= goOn rest : Call Unit) : Call Unit) := by
  rfl

-- What the models of a list that are still to be created leave behind.
def Leaves (ms rest : List Model) (s : Go.Map Model) (r : Except Error Unit) (s' : Go.Map Model) : Prop :=
  Sound ms s' ∧ (∀ m, There m s → There m s') ∧ (r = .ok () → ∀ m ∈ rest, There m s')

theorem create_leaves {id : Str} (hc : Consistent ms) (hm : m ∈ ms) (hs : Sound ms s) (hn : Names ms s m id)
    (hi : ∀ s, Sound ms s → Prog.AlwaysUnder (answer B files) (Fresh ms) (Leaves ms rest s) (createModels rest) s) :
    Prog.AlwaysUnder (answer B files) (Fresh ms) (Leaves ms (m :: rest) s)
      (create { m with id := id } >>= goOn rest : Call Unit) s := by
  intro d _
  have ⟨hs', hk, he, ho⟩ := create_sound (B := B) d.now hs hc hm hn
  have ended {err : Error} {s' : Go.Map Model} (h : Sound ms s') (hk : ∀ m', There m' s → There m' s') :
      Leaves ms (m :: rest) s (.error err) s' :=
    ⟨h, hk, fun h => by cases h⟩
  show Prog.AlwaysUnder (answer B files) (Fresh ms) (Leaves ms (m :: rest) s)
    (goOn rest (answer B files (.create { m with id := id }) d s).1)
    (answer B files (.create { m with id := id }) d s).2
  -- The entry is there, and the others follow.
  have next (ht : There m (B.machine.answer (.create { m with id := id }) d.now s).2) :
      Prog.AlwaysUnder (answer B files) (Fresh ms) (Leaves ms (m :: rest) s) (createModels rest)
        (B.machine.answer (.create { m with id := id }) d.now s).2 := by
    refine (hi _ hs').mono fun r s₁ hl => ⟨hl.left, fun m' h => hl.right.left m' (hk m' h), fun hr m' hm' => ?_⟩
    obtain rfl | hm' := List.mem_cons.mp hm'
    case inl => exact hl.right.left _ ht
    case inr => exact hl.right.right hr m' hm'
  cases hf : d.fault
  case some f =>
    simp only [answer, Draw.check, hf, goOn, if_pos f.ne]
    split
    case isTrue  => exact ended hs' hk
    case isFalse => exact ended hs fun _ h => h
  case none =>
    simp only [answer, Draw.check, hf, Option.all_none, if_true]
    cases ha : (B.machine.answer (.create { m with id := id }) d.now s).1
    case ok m'     => exact next (ho m' ha)
    case error err =>
      by_cases hec : err = errConflict
      case pos =>
        rw [goOn, if_neg (not_not.mpr hec)]
        exact next (he err ha hec)
      case neg =>
        rw [goOn, if_pos hec]
        exact ended hs' hk

theorem createModels_leaves (hc : Consistent ms) (hr : ∀ m ∈ rest, m ∈ ms) (hs : Sound ms s) :
    Prog.AlwaysUnder (answer B files) (Fresh ms) (Leaves ms rest s) (createModels rest) s := by
  induction rest generalizing s
  case nil            => exact ⟨hs, fun _ h => h, fun _ _ h => absurd h List.not_mem_nil⟩
  case cons m rest hi =>
    have hm : m ∈ ms := hr m List.mem_cons_self
    have hi' (s : Go.Map Model) (h : Sound ms s) := hi (fun m hm => hr m (List.mem_cons_of_mem _ hm)) h
    rw [createModels_cons, idOf]
    split
    case isFalse h => exact create_leaves hc hm hs (.inl ⟨h, rfl⟩) hi'
    case isTrue h  =>
      intro d hd
      exact create_leaves hc hm hs (.inr ⟨h, hd⟩) hi'

-- What a run does before it creates models.
def Quiet : ops.Op → Prop
  | .readFile _ | .seedCollection _ => True
  | _                               => False

theorem answer_quiet (op : ops.Op) (d : Draw) (s : Go.Map Model) (h : Quiet op) :
    (answer B files op d s).2 = s := by
  cases op <;> trivial

theorem seedCollections_quiet (cs : List SeedCollection) : Prog.Only Quiet (seedCollections cs) := by
  induction cs
  case nil          => trivial
  case cons c cs hi => exact Call.only_seq (Prog.Only.perform trivial) fun _ => hi

variable {b : SeedBundle} {P : ops.Op → Draw → Go.Map Model → Prop}

theorem loadPublicSeed_under (hb : files.bundle path = .ok b) :
    Prog.AlwaysUnder (answer B files) P (fun r s' => s' = s ∧ ∀ b', r = .ok b' → b' = b)
      (loadPublicSeed files path) s := by
  have parsed {data : Str} (h : unmarshalSeed files data = .ok b) :
      Prog.AlwaysUnder (answer B files) P (fun r s' => s' = s ∧ ∀ b', r = .ok b' → b' = b)
        (match unmarshalSeed files data with
          | .error err => throw err
          | .ok bundle => return bundle : Call SeedBundle) s := by
    rw [h]
    exact ⟨rfl, fun b' h => (Except.ok.inj h).symm⟩
  simp only [Files.bundle] at hb
  rw [loadPublicSeed, seedData]
  split
  case isFalse h =>
    rw [if_neg h] at hb
    exact parsed hb
  case isTrue h =>
    rw [if_pos h] at hb
    intro d _
    simp only [answer, Draw.check]
    cases d.fault
    case some f => exact ⟨rfl, fun _ h => by cases h⟩
    case none   =>
      cases hd : files.readFile path
      case error e => exact ⟨rfl, fun _ h => by cases h⟩
      case ok data =>
        rw [hd] at hb
        exact parsed hb

theorem count_pos_iff {scope : Scope} :
    MemoryStore.count s scope > 0 ↔ ∃ k, ∃ e ∈ s.lookup k, e.scope = scope := by
  simp only [MemoryStore.count, gt_iff_lt, List.length_pos_iff_exists_mem, List.mem_filter, beq_iff_eq,
    Map.mem_values, Option.mem_def]
  constructor
  case mp  => rintro ⟨e, ⟨k, hl⟩, hs⟩; exact ⟨k, e, hl, hs⟩
  case mpr => rintro ⟨k, e, hl, hs⟩; exact ⟨e, ⟨k, hl⟩, hs⟩

-- A run, by what becomes of the models when there are none.
theorem seed_under {Q : Except Error Unit → Go.Map Model → Prop} (hb : files.bundle path = .ok b)
    (he : ∀ e, Q (.error e) s) (hp : MemoryStore.count s .scopePublic > 0 → Q (.ok ()) s)
    (hm : ¬MemoryStore.count s .scopePublic > 0 →
      Prog.AlwaysUnder (answer B files) P Q (createModels b.models) s) :
    Prog.AlwaysUnder (answer B files) P Q (seed files path hook) s := by
  intro d _
  simp only [answer, Draw.check]
  cases d.fault
  case some f => exact he _
  case none   =>
    cases hn : (B.machine.answer (.count .scopePublic) d.now s).1
    case error e => exact he _
    case ok n    =>
      show Prog.AlwaysUnder (answer B files) P Q (if n > 0 then _ else _ : Call Unit) s
      have hc := B.counts hn
      split
      case isTrue h  => exact hp (hc ▸ h)
      case isFalse h =>
        refine Call.under_seq.mpr ((loadPublicSeed_under hb).mono ?_)
        rintro r _ ⟨rfl, hr⟩
        cases r
        case error e => exact he _
        case ok b'   =>
          cases hr b' rfl
          have hk : Prog.Only Quiet (applyCollections hook b.collections) := by
            unfold applyCollections
            split
            case isTrue  => exact seedCollections_quiet _
            case isFalse => trivial
          show Prog.AlwaysUnder (answer B files) P Q (seedBundle hook b) _
          rw [seedBundle, Call.under_seq]
          refine (hk.still answer_quiet).mono ?_
          rintro r _ rfl
          cases r
          case error e => exact he _
          case ok      => exact hm (hc ▸ h)

end Run

section History

variable {B : Backend} {files : Files} {path : Str} {hook : Bool} {b : SeedBundle} {s : Go.Map Model}
  {d : Nat → Draw} {runs : List (Unit × (Nat → Draw))}

theorem bundle_public (hb : files.bundle path = .ok b) {m : Model} (hm : m ∈ b.models) : m.scope = .scopePublic := by
  have parsed {data : Str} (h : unmarshalSeed files data = .ok b) : m.scope = .scopePublic := by
    unfold unmarshalSeed at h
    split at h
    case h_1 => cases h
    case h_2 =>
      cases h
      obtain ⟨m', _, rfl⟩ := List.mem_map.mp hm
      rfl
  simp only [Files.bundle] at hb
  split at hb
  case isFalse => exact parsed hb
  case isTrue  =>
    cases hd : files.readFile path <;> rw [hd] at hb
    case error   => cases hb
    case ok data => exact parsed hb

theorem count_empty (scope : Scope) : ¬MemoryStore.count (∅ : Go.Map Model) scope > 0 := by
  rw [count_pos_iff]
  rintro ⟨k, e, he, _⟩
  cases he

-- What a run finds in a public catalogue it leaves as it is.
theorem boot_public (hb : files.bundle path = .ok b) (hs : MemoryStore.count s .scopePublic > 0) :
    ((boot B files path hook).answer () d s).2 = s :=
  (seed_under (Q := fun _ s' => s' = s) hb (fun _ => rfl) (fun _ => rfl) (fun h => absurd hs h)).play
    (Prog.meets_any _ d s)

theorem boot_empty (hb : files.bundle path = .ok b) (hc : Consistent b.models)
    (hf : FreshRun B files path hook b.models () d ∅) :
    Leaves b.models b.models ∅ ((boot B files path hook).answer () d ∅).1 ((boot B files path hook).answer () d ∅).2 := by
  have he : Sound b.models ∅ :=
    ⟨fun _ _ h => (by cases h), fun _ _ _ h => (by cases h), fun _ _ h => (by cases h)⟩
  refine (seed_under hb (fun _ => ⟨he, fun _ h => h, fun h => by cases h⟩) (fun h => ?_) fun _ => ?_).play hf
  case refine_1 => exact absurd h (count_empty _)
  case refine_2 => exact createModels_leaves hc (fun _ h => h) he

theorem Sound.seeded (h : Sound b.models s) (ht : ∀ m ∈ b.models, There m s) : Seeded b.models s where
  once m hm := by
    obtain ⟨k, e, he, hp⟩ := ht m hm
    refine ⟨k, ⟨e, he, hp⟩, ?_⟩
    rintro k' ⟨e', he', hp'⟩
    exact h.once k' k e' he' e he (hp'.trans hp.symm)
  only k e he := by
    obtain ⟨m, hm, hcopy, _⟩ := h.only k e he
    exact ⟨m, hm, hcopy⟩

-- Copies of entries are public.
theorem public_of_copies (hb : files.bundle path = .ok b) (h : ∀ k, ∀ e ∈ s.lookup k, ∃ m ∈ b.models, Copy m e) :
    s = ∅ ∨ MemoryStore.count s .scopePublic > 0 := by
  by_cases he : ∃ k, ∃ e ∈ s.lookup k, True
  case pos =>
    obtain ⟨k, e, he, _⟩ := he
    obtain ⟨m, hm, hcopy⟩ := h k e he
    have hs : e.scope = m.scope := congrArg Prod.fst hcopy.place
    exact .inr (count_pos_iff.mpr ⟨k, e, he, hs.trans (bundle_public hb hm)⟩)
  case neg =>
    refine .inl (Finmap.ext_lookup fun k => ?_)
    rw [Finmap.lookup_empty]
    by_contra hl
    obtain ⟨e, he'⟩ := Option.ne_none_iff_exists'.mp hl
    exact he ⟨k, e, he', trivial⟩

theorem boot_seeded (hb : files.bundle path = .ok b) (hs : Seeded b.models s) :
    ((boot B files path hook).answer () d s).2 = s := by
  obtain rfl | h := public_of_copies hb hs.only
  case inr => exact boot_public hb h
  case inl =>
    -- Nothing is there, so there is nothing to create.
    have hn : b.models = [] := by
      refine List.eq_nil_iff_forall_not_mem.mpr fun m hm => ?_
      obtain ⟨k, ⟨e, he, _⟩, _⟩ := hs.once m hm
      cases he
    refine (seed_under (Q := fun _ s' => s' = ∅) hb (fun _ => rfl) (fun _ => rfl) fun _ => ?_).play
      (Prog.meets_any _ d ∅)
    rw [hn]
    rfl

-- Between the runs the catalogue is empty or has public models, and in the first case the next run
-- may do something.
theorem runs_reach (hb : files.bundle path = .ok b) (hc : Consistent b.models)
    (hs : s = ∅ ∨ MemoryStore.count s .scopePublic > 0)
    (hf : (boot B files path hook).Throughout (FreshRun B files path hook b.models) s runs) :
    (boot B files path hook).run s runs = ∅ ∨
    MemoryStore.count ((boot B files path hook).run s runs) .scopePublic > 0 := by
  induction runs generalizing s
  case nil            => exact hs
  case cons run runs hi =>
    refine hi ?_ hf.right
    obtain rfl | hs := hs
    case inl =>
      have ⟨hw, _⟩ := boot_empty hb hc hf.left
      refine public_of_copies hb fun k e he => ?_
      obtain ⟨m, hm, hcopy, _⟩ := hw.only k e he
      exact ⟨m, hm, hcopy⟩
    case inr =>
      refine .inr ?_
      show MemoryStore.count ((boot B files path hook).answer () run.2 s).2 _ > 0
      rwa [boot_public hb hs]

theorem runs_public (hb : files.bundle path = .ok b) (hs : MemoryStore.count s .scopePublic > 0) :
    (boot B files path hook).run s runs = s := by
  induction runs
  case nil              => rfl
  case cons run runs hi =>
    show (boot B files path hook).run ((boot B files path hook).answer () run.2 s).2 runs = s
    rwa [boot_public hb hs]

end History

-- The two stores by themselves.
namespace Backend

def memory : Backend where
  machine := Models.memory
  counts h := (Except.ok.inj h).symm
  reads := rfl
  creates {s m m' now} _ h := by
    simp only [Models.memory] at h ⊢
    cases hc : MemoryStore.create s m now <;> rw [hc] at h
    case error => cases h
    case ok r  =>
      obtain ⟨hcl, hm, hs⟩ := MemoryStore.create_ok hc
      refine ⟨hcl, r.1, ?_, ?_, hs⟩ <;> rw [hm] <;> rfl
  refuses {s m e now} _ h := by
    simp only [Models.memory, MemoryStore.create] at h ⊢
    split at h
    case isTrue hcl => exact ⟨by rw [if_pos hcl]; rfl, fun _ => .inl hcl⟩
    case isFalse    => cases h

-- The server reports a duplicate only where there is one.
structure Coded (db : Database) : Prop where
  text    : ∀ s, db.refuses s ≠ some uniqueViolation
  instant : ∀ t, db.instant t ≠ .error uniqueViolation

theorem seq_ok {ε α β : Type} {x : Except ε α} {f : α → Except ε β} {r : β} (h : x >>= f = .ok r) :
    ∃ a, x = .ok a ∧ f a = .ok r := by
  cases x
  case error => cases h
  case ok a  => exact ⟨a, rfl, h⟩

theorem seq_code {α β : Type} {x : Except Code α} {f : α → Except Code β} {c : Code}
    (hx : x ≠ .error c) (hf : ∀ a, f a ≠ .error c) : x >>= f ≠ .error c := by
  cases x
  case error e => exact fun h => hx (congrArg _ (Except.error.inj h))
  case ok a    => exact hf a

variable {db : Database} {m e : Model} {s : Go.Map Model}

theorem row_copy (h : PostgresStore.row db m = .ok e) : Copy m e ∧ e.id = m.id := by
  obtain ⟨_, _, h⟩ := seq_ok h
  obtain ⟨_, _, h⟩ := seq_ok h
  obtain ⟨_, _, h⟩ := seq_ok h
  obtain ⟨_, _, h⟩ := seq_ok h
  obtain ⟨_, _, h⟩ := seq_ok h
  obtain ⟨_, _, h⟩ := seq_ok h
  obtain ⟨_, _, h⟩ := seq_ok h
  cases h
  exact ⟨rfl, rfl⟩

theorem Coded.texts (h : Coded db) (ss : List Str) : db.texts ss ≠ .error uniqueViolation := by
  unfold Database.texts
  split
  case h_2 => exact nofun
  case h_1 c hc =>
    obtain ⟨s, _, hs⟩ := List.exists_of_findSome?_eq_some hc
    exact fun he => h.text s (Except.error.inj he ▸ hs)

theorem Coded.row (h : Coded db) (m : Model) : PostgresStore.row db m ≠ .error uniqueViolation := by
  refine seq_code (h.texts _) fun _ => seq_code (h.texts _) fun _ => seq_code (h.texts _) fun _ => ?_
  refine seq_code ?_ fun _ => seq_code (h.instant _) fun _ => seq_code (h.instant _) fun _ => ?_
  case refine_1 =>
    unfold Database.integer
    split
    case isTrue  => exact nofun
    case isFalse => decide
  case refine_2 => exact seq_code (h.texts _) fun _ => nofun

theorem copy_stamp (m : Model) (now : Time) :
    Copy m (PostgresStore.stamp m now) ∧ (PostgresStore.stamp m now).id = m.id := by
  unfold PostgresStore.stamp
  cases m.updatedAt.isZero
  case false => cases h : m.createdAt.isZero <;> simp [Copy, h]
  case true  => cases now.isZero <;> simp [Copy]

theorem check_code (m : Model) : PostgresStore.schema.check m ≠ some uniqueViolation := by
  simp only [PostgresStore.schema]
  split
  case isTrue  => decide
  case isFalse => split <;> decide

-- Where the identifier is free, a row is a duplicate if its model clashes.
theorem taken_iff_there (hs : Keyed s) (he : place e = place m) (hl : s.lookup e.id = none) :
    PostgresStore.schema.taken s e ↔ MemoryStore.clashes s m := by
  rw [taken_iff_clashes hs hl, clashes_iff_there, clashes_iff_there, There, There, he]

-- What becomes of a row that is inserted for a model.
theorem insert_cases (hs : Keyed s) (he : Copy m e) (hid : e.id = m.id) :
    (PostgresStore.schema.insert s e = .ok (s.insert m.id e) ∧ ¬MemoryStore.clashes s m) ∨
    ∃ c, PostgresStore.schema.insert s e = .error c ∧
      (c = uniqueViolation → MemoryStore.clashes s m ∨ (s.lookup m.id).isSome) := by
  unfold Schema.insert
  split
  case h_1 c hc => exact .inr ⟨c, rfl, fun h => absurd (h ▸ hc) (check_code e)⟩
  case h_2      =>
    cases hl : s.lookup m.id
    case some x =>
      have hl' : s.lookup e.id = some x := hid ▸ hl
      exact .inr ⟨uniqueViolation, by simp [hl'], fun _ => .inr rfl⟩
    case none =>
      have hl' : s.lookup e.id = none := hid ▸ hl
      have ht := taken_iff_there hs he.place hl'
      by_cases hc : PostgresStore.schema.taken s e
      case pos => exact .inr ⟨uniqueViolation, by simp [hc], fun _ => .inl (ht.mp hc)⟩
      case neg => exact .inl ⟨by simp [hc, hid, hl'], fun h => hc (ht.mpr h)⟩

theorem create_cases (hd : Coded db) (hs : Keyed s) (m : Model) (now : Time) :
    (∃ m' e, PostgresStore.create db s m now = .ok (m', s.insert m.id e) ∧ ¬MemoryStore.clashes s m ∧
      Copy m e ∧ e.id = m.id) ∨
    ∃ err, PostgresStore.create db s m now = .error err ∧
      (err = errConflict → MemoryStore.clashes s m ∨ (s.lookup m.id).isSome) := by
  obtain ⟨hcopy, hid⟩ := copy_stamp m now
  simp only [PostgresStore.create]
  cases hr : PostgresStore.row db (PostgresStore.stamp m now)
  case error c =>
    have hc : c ≠ uniqueViolation := fun h => hd.row _ (h ▸ hr)
    exact .inr ⟨.foreign c, by simp [Bind.bind, Except.bind, hc], fun h => by cases h⟩
  case ok e =>
    obtain ⟨hrow, hrid⟩ := row_copy hr
    rw [ok_bind]
    obtain ⟨hi, hcl⟩ | ⟨c, hi, hc⟩ := insert_cases hs (hcopy.trans hrow) (hrid.trans hid)
    case inl => exact .inl ⟨_, e, by rw [hi], hcl, hcopy.trans hrow, hrid.trans hid⟩
    case inr =>
      refine .inr ⟨_, by rw [hi], fun h => hc ?_⟩
      by_contra hne
      rw [if_neg hne] at h
      cases h

def postgres (db : Database) (hd : Coded db) : Backend where
  machine := Models.postgres db
  counts {s scope now n} h := by
    simp only [Models.postgres, PostgresStore.count] at h
    obtain ⟨_, _, h⟩ := seq_ok h
    simp only [scope_eq] at h
    exact (Except.ok.inj h).symm
  reads := rfl
  creates {s m m' now} hs h := by
    simp only [Models.postgres] at h ⊢
    obtain ⟨m₁, e, he, hcl, hcopy, hid⟩ | ⟨err, he, _⟩ := create_cases hd hs m now
    case inl => exact ⟨hcl, e, hcopy, hid, by rw [he]; rfl⟩
    case inr => rw [he] at h; cases h
  refuses {s m e now} hs h := by
    simp only [Models.postgres] at h ⊢
    obtain ⟨m₁, e, he, _⟩ | ⟨err, he, hc⟩ := create_cases hd hs m now
    case inl => rw [he] at h; cases h
    case inr =>
      rw [he] at h ⊢
      cases h
      exact ⟨rfl, hc⟩

end Backend
section Resumption

variable {B : Backend} {files : Files} {path : Str} {hook : Bool} {b : SeedBundle} {d : Nat → Draw}
  {runs : List (Unit × (Nat → Draw))}

-- A run that failed half-way.
def Half (B : Backend) (files : Files) (path : Str) (hook : Bool) (ms : List Model) (runs : List (Unit × (Nat → Draw))) :
    Prop :=
  ∃ pre run, pre ++ [run] <+: runs ∧
    ((boot B files path hook).answer () run.2 ((boot B files path hook).run ∅ pre)).1 ≠ .ok () ∧
    (boot B files path hook).run ∅ (pre ++ [run]) ≠ (boot B files path hook).run ∅ pre ∧
    ¬Seeded ms ((boot B files path hook).run ∅ (pre ++ [run]))

-- As long as no run fails half-way, the catalogue is empty or seeded.
theorem runs_clean (hb : files.bundle path = .ok b) (hc : Consistent b.models)
    (hf : (boot B files path hook).Throughout (FreshRun B files path hook b.models) ∅ runs)
    (hh : ¬Half B files path hook b.models runs) :
    (boot B files path hook).run ∅ runs = ∅ ∨ Seeded b.models ((boot B files path hook).run ∅ runs) := by
  induction runs using List.reverseRecOn
  case nil                     => exact .inl rfl
  case append_singleton runs run hi =>
    have ⟨hf₁, hf₂, _⟩ := Machine.throughout_append.mp hf
    have hi := hi hf₁ fun ⟨pre, r, hp, h⟩ => hh ⟨pre, r, hp.trans (List.prefix_append ..), h⟩
    obtain he | hs := hi
    case inr =>
      refine .inr ?_
      rw [Machine.run_append]
      show Seeded b.models ((boot B files path hook).answer () run.2 ((boot B files path hook).run ∅ runs)).2
      rwa [boot_seeded hb hs]
    case inl =>
      by_cases hr : ((boot B files path hook).answer () run.2 ((boot B files path hook).run ∅ runs)).1 = .ok ()
      case pos =>
        refine .inr ?_
        rw [Machine.run_append]
        rw [he] at hr hf₂ ⊢
        have ⟨hw, _, ht⟩ := boot_empty hb hc hf₂
        exact hw.seeded (ht hr)
      case neg =>
        have hu := not_exists.mp (not_exists.mp hh runs) run
        have hu' : (boot B files path hook).run ∅ (runs ++ [run]) = (boot B files path hook).run ∅ runs ∨
            Seeded b.models ((boot B files path hook).run ∅ (runs ++ [run])) := by
          by_contra hn
          exact hu ⟨List.prefix_rfl, hr, not_or.mp hn⟩
        exact hu'.imp_left fun h => h.trans he

-- What a run that failed half-way has left stays.
theorem half_stays (hb : files.bundle path = .ok b) (hc : Consistent b.models)
    (hf : (boot B files path hook).Throughout (FreshRun B files path hook b.models) ∅ (runs ++ [((), d)]))
    (hh : Half B files path hook b.models runs) :
    ¬Seeded b.models ((boot B files path hook).run ∅ (runs ++ [((), d)])) := by
  obtain ⟨pre, run, ⟨rest, rfl⟩, _, hne, hs⟩ := hh
  rw [List.append_assoc] at hf ⊢
  have hf₁ := (Machine.throughout_append.mp hf).left
  have hf₂ := (Machine.throughout_append.mp hf₁).left
  -- The run started from nothing, and something is there after it.
  have hpre : (boot B files path hook).run ∅ pre = ∅ := by
    refine (runs_reach hb hc (.inl rfl) hf₂).resolve_right fun h => hne ?_
    rw [Machine.run_append]
    exact boot_public hb h
  have hpub := (runs_reach hb hc (.inl rfl) hf₁).resolve_left fun h => hne (h.trans hpre.symm)
  rw [Machine.run_append, runs_public hb hpub]
  exact hs

theorem Seeded.mem_values {ms : List Model} {s : Go.Map Model} (h : Seeded ms s) {m : Model} (hm : m ∈ ms) :
    place m ∈ s.values.map place := by
  obtain ⟨k, ⟨e, he, hp⟩, _⟩ := h.once m hm
  exact hp ▸ List.mem_map_of_mem (Map.mem_values.mpr ⟨k, he⟩)

end Resumption

-- A list in the binary of two models, with the given identifiers and names, and nothing else.
def listed (a b : String × String) : Files where
  defaultSeedYAML := []
  readFile _      := .error (.foreign (str "no such file"))
  unmarshal _     := .ok ⟨[], [entry a.1 a.2, entry b.1 b.2]⟩

def entries (a b : String × String) : List Model :=
  [publish (entry a.1 a.2), publish (entry b.1 b.2)]

-- The draws of a run in which the operation with the number `n` fails.
def failing (n : Nat) (i : Nat) : Draw where
  now    := ⟨1, 0⟩
  random := .replicate 4 0
  fault  := if i = n then some ⟨.foreign (str "connection reset"), nofun, false⟩ else none

end Models.Seed

import Knaic.Effects.Pool
import Knaic.Publish.Service

open Go Effects

namespace Publish

open Auth Hub

inductive Kind
  | create (u : Option User) (req : CreateRequest)
  | approve (u : Option User) (id : Str) (body : ReviewRequest)
  | reject (u : Option User) (id : Str) (body : ReviewRequest)
  | delete (u : Option User) (id : Str)

-- The stores, and what has happened to them so far: the requests that were opened, the requests that
-- a public model was created for, and the identifiers that were drawn.
structure World where
  stores    : Stores
  opened    : List Request
  published : List Str
  drawn     : List Str

namespace World

abbrev requests (w : World) : MemoryStore :=
  w.stores.requests

abbrev models (w : World) : Models.MemoryStore :=
  w.stores.models

def record (w : World) (i : Kind) (op : ops.Op) (r : ops.Res op) : World :=
  match i, op, r with
  | _, .requestCreate _, .ok r           => { w with opened := r :: w.opened }
  | .approve _ id _, .modelCreate _, .ok _ => { w with published := id :: w.published }
  | _, .newID _, id                      => { w with drawn := id :: w.drawn }
  | _, _, _                              => w

end World

-- The pool of all calls on publish requests. The result of a call is kept only as far as it tells
-- success from failure.
def pool (authorizer : Bool) : Pool ops Draw World Kind (Except Error Unit) where
  answer i op d w :=
    let a := Hub.answer op d w.stores
    (a.1, { w with stores := a.2 }.record i op a.1)
  env _ w := w
  code
    | .create u req      => (create authorizer u req).void
    | .approve u id body => (approve authorizer u id body).void
    | .reject u id body  => (reject u id body).void
    | .delete u id       => delete u id

variable {authorizer : Bool}

theorem World.record_stores (w : World) (i : Kind) (op : ops.Op) (r : ops.Res op) :
    (w.record i op r).stores = w.stores := by
  unfold World.record
  split <;> rfl

@[simp]
theorem answer_fst (i : Kind) (op : ops.Op) (d : Draw) (w : World) :
    ((pool authorizer).answer i op d w).1 = (Hub.answer op d w.stores).1 :=
  rfl

@[simp]
theorem answer_stores (i : Kind) (op : ops.Op) (d : Draw) (w : World) :
    ((pool authorizer).answer i op d w).2.stores = (Hub.answer op d w.stores).2 :=
  World.record_stores ..

-- The operations that leave everything as it is.
def Reads : ops.Op → Prop
  | .modelGet _ | .requestGet _ | .canWritePrivateModel _ _ | .now => True
  | _                                                             => False

theorem reads_answer {op : ops.Op} (h : Reads op) (i : Kind) (d : Draw) (w : World) :
    ((pool authorizer).answer i op d w).2 = w := by
  cases op <;> try contradiction
  all_goals cases i <;> simp [pool, World.record, Hub.answer, unlessFailed_snd]

theorem requestGet_ok {i : Kind} {d : Draw} {w : World} {id : Str}
    (h : ((pool authorizer).answer i (.requestGet id) d w).1 = .ok r) :
    w.requests.lookup id = some r := by
  cases hf : d.failure <;> simp [pool, Hub.answer, unlessFailed, hf] at h
  exact MemoryStore.get_ok h

theorem newID_fst (i : Kind) (pre : Str) (d : Draw) (w : World) :
    ((pool authorizer).answer i (.newID pre) d w).1 = pre ++ str "-" ++ hex d.random.toList :=
  rfl

-- What the four writes do, when they do anything.
section Writes

variable (authorizer : Bool) (i : Kind) (d : Draw) (w : World)

def World.setRequests (w : World) (r : MemoryStore) : World :=
  { w with stores := { w.stores with requests := r } }

def World.setModels (w : World) (m : Models.MemoryStore) : World :=
  { w with stores := { w.stores with models := m } }

theorem requestCreate_answer (r : Request) :
    (∃ e, (pool authorizer).answer i (.requestCreate r) d w = (.error e, w)) ∨
    w.requests.lookup r.id = none ∧
      (pool authorizer).answer i (.requestCreate r) d w =
        (.ok (MemoryStore.stamp r d.now),
          { w.setRequests (w.requests.insert r.id (MemoryStore.stamp r d.now)) with
            opened := MemoryStore.stamp r d.now :: w.opened }) := by
  cases withRequests_cases d w.stores (·.create r d.now)
  case inl h =>
    obtain ⟨e, he⟩ := h
    exact .inl ⟨e, by cases i <;> simp [pool, Hub.answer, he, World.record]⟩
  case inr h =>
    obtain ⟨r', s, hc, ha⟩ := h
    obtain ⟨hn, hr, hs⟩ := MemoryStore.create_ok hc
    subst hr hs
    exact .inr ⟨hn, by cases i <;> simp [pool, Hub.answer, ha, World.record, World.setRequests]⟩

theorem requestUpdate_answer (id : Str) (f : Request → Except Error Request) :
    (∃ e, (pool authorizer).answer i (.requestUpdate id f) d w = (.error e, w)) ∨
    ∃ r r₁, w.requests.lookup id = some r ∧ f r = .ok r₁ ∧
      (pool authorizer).answer i (.requestUpdate id f) d w =
        (.ok { r₁ with updatedAt := d.now },
          w.setRequests (w.requests.insert id { r₁ with updatedAt := d.now })) := by
  cases withRequests_cases d w.stores (·.update id f d.now)
  case inl h =>
    obtain ⟨e, he⟩ := h
    exact .inl ⟨e, by cases i <;> simp [pool, Hub.answer, he, World.record]⟩
  case inr h =>
    obtain ⟨r', s, hc, ha⟩ := h
    obtain ⟨r, r₁, hl, hf, hr, hs⟩ := MemoryStore.update_ok hc
    subst hr hs
    exact .inr ⟨r, r₁, hl, hf, by
      cases i <;> simp [pool, Hub.answer, ha, World.record, World.setRequests]⟩

theorem requestDelete_answer (id : Str) :
    (∃ e, (pool authorizer).answer i (.requestDelete id) d w = (.error e, w)) ∨
      (pool authorizer).answer i (.requestDelete id) d w =
        (.ok (), w.setRequests (w.requests.erase id)) := by
  cases withRequests_cases d w.stores (·.delete id)
  case inl h =>
    obtain ⟨e, he⟩ := h
    exact .inl ⟨e, by cases i <;> simp [pool, Hub.answer, he, World.record]⟩
  case inr h =>
    obtain ⟨_, s, hc, ha⟩ := h
    have hs := MemoryStore.delete_ok hc
    subst hs
    exact .inr (by cases i <;> simp [pool, Hub.answer, ha, World.record, World.setRequests])

-- Only `Approve` creates models.
theorem modelCreate_answer (u : Option User) (id : Str) (body : ReviewRequest) (m : Models.Model) :
    (∃ e, (pool authorizer).answer (.approve u id body) (.modelCreate m) d w = (.error e, w)) ∨
    ¬w.models.clashes m ∧
      (pool authorizer).answer (.approve u id body) (.modelCreate m) d w =
        (.ok (Models.MemoryStore.stamp m d.now),
          { w.setModels (w.models.insert m.id (Models.MemoryStore.stamp m d.now)) with
            published := id :: w.published }) := by
  cases withModels_cases d w.stores (·.create m d.now)
  case inl h =>
    obtain ⟨e, he⟩ := h
    exact .inl ⟨e, by simp [pool, Hub.answer, he, World.record]⟩
  case inr h =>
    obtain ⟨m', s, hc, ha⟩ := h
    obtain ⟨hn, hm, hs⟩ := Models.MemoryStore.create_ok hc
    subst hm hs
    exact .inr ⟨hn, by simp [pool, Hub.answer, ha, World.record, World.setModels]⟩

end Writes

theorem now_reads : Prog.Only Reads now :=
  ⟨trivial, fun _ => trivial⟩

theorem gateWrite_reads (u : Option User) (scope : Models.Scope) (ns : Str) :
    Prog.Only Reads (Models.gateWrite authorizer u scope ns) := by
  unfold Models.gateWrite
  split
  case h_1 => trivial
  case h_2 u =>
    split
    case isTrue => trivial
    case isFalse =>
      split
      case h_1 => trivial
      case h_3 => trivial
      case h_2 =>
        refine Call.only_guard fun _ => ?_
        refine Call.only_guard fun _ => ?_
        refine Call.only_seq (Prog.Only.perform trivial) fun allowed => ?_
        split <;> trivial

theorem getPrivateForPublish_reads (u : Option User) (id : Str) :
    Prog.Only Reads (Models.getPrivateForPublish authorizer u id) := by
  refine Call.only_seq (Prog.Only.perform trivial) fun m => ?_
  exact Call.only_guard fun _ => Call.only_seq (gateWrite_reads ..) fun _ => trivial

theorem canWriteNamespace_reads (u : User) (ns : Str) :
    Prog.Only Reads (canWriteNamespace authorizer u ns) := by
  unfold canWriteNamespace
  split
  case isTrue => trivial
  case isFalse =>
    split
    case isTrue  => trivial
    case isFalse => exact Prog.Only.perform trivial

-- An administrator, a catalogue with one private model, and an answer to everything.
section Fixtures

def root : User where
  subject         := str "root"
  email           := str "root@example.com"
  name            := str "root"
  groups          := []
  isPlatformAdmin := true

def catalogue : Models.MemoryStore :=
  Finmap.singleton (str "m-1") {
    id            := str "m-1"
    name          := str "qwen"
    owner         := str "ada"
    scope         := .scopePrivate
    ns            := str "team"
    uri           := str "hf://ada/qwen"
    scheme        := .hf
    tags          := some []
    modelType     := str "llm"
    sizeGB        := 0
    downloads     := 0
    createdAt     := ⟨1, 0⟩
    updatedAt     := ⟨1, 0⟩
    readme        := []
    collectionID  := []
    parentModelID := []
    derivedKind   := []
    sourceURL     := []
  }

def draw : Draw where
  now      := ⟨2, 0⟩
  random   := .replicate 4 0
  writable := .ok true
  failure  := none

end Fixtures

end Publish

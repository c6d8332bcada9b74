import Knaic.Publish.Pool

open Go Effects

namespace Hub

open Auth

inductive Kind
  | create (u : Option User) (req : Models.CreateRequest)
  | importModel (u : Option User) (req : Models.ImportRequest)
  | upload (u : Option User) (req : Models.UploadRequest)
  | patch (u : Option User) (id : Str) (req : Models.PatchRequest)
  | delete (u : Option User) (id : Str)
  | publish (k : Publish.Kind)

def Kind.user : Kind → Option User
  | .create u _ | .importModel u _ | .upload u _ | .patch u _ _ | .delete u _    => u
  | .publish (.create u _) | .publish (.approve u _ _)
  | .publish (.reject u _ _) | .publish (.delete u _)                            => u

-- The request that a call of `Approve` is about.
def Kind.approves : Kind → Option Str
  | .publish (.approve _ id _) => some id
  | _                          => none

-- The stores, and what has happened to them so far: every model and every request as it came, the
-- latter with the user who opened it, the models that were created for requests, and the requests
-- that were deleted, with the users who did it.
structure World where
  stores    : Stores
  first     : Models.MemoryStore
  opened    : Go.Map (Option User × Publish.Request)
  published : List (Str × Models.Model)
  withdrawn : List (Str × Option User)

namespace World

abbrev models (w : World) : Models.MemoryStore :=
  w.stores.models

abbrev requests (w : World) : Publish.MemoryStore :=
  w.stores.requests

def record (w : World) (i : Kind) (op : ops.Op) (r : ops.Res op) : World :=
  match op, r with
  | .modelCreate _, .ok m    => { w with
    first     := w.first.insert m.id m
    published := i.approves.toList.map (fun id => (id, m)) ++ w.published }
  | .requestCreate _, .ok r  => { w with opened := w.opened.insert r.id (i.user, r) }
  | .requestDelete id, .ok _ => { w with withdrawn := (id, i.user) :: w.withdrawn }
  | _, _                     => w

def setModels (w : World) (m : Models.MemoryStore) : World :=
  { w with stores := { w.stores with models := m } }

def setRequests (w : World) (r : Publish.MemoryStore) : World :=
  { w with stores := { w.stores with requests := r } }

end World

-- The pool of all calls on models and on publish requests.
def pool (authorizer : Bool) (parse : Str → Except Error (Str × Str)) :
    Pool (ops.extend edits) Draw World Kind (Except Error Unit) where
  answer i op d w :=
    match op with
    | .inl op =>
      let a := answer op d w.stores
      (a.1, { w with stores := a.2 }.record i op a.1)
    | .inr op =>
      let a := answerEdit op d w.stores
      (a.1, { w with stores := a.2 })
  env _ w := w
  code
    | .create u req      => (Models.create authorizer u req).void.lift
    | .importModel u req => (Models.importModel authorizer parse u req).void.lift
    | .upload u req      => (Models.upload authorizer u req).void.lift
    | .patch u id req    => (Models.patch authorizer u id req).void
    | .delete u id       => Models.delete authorizer u id
    | .publish k         => ((Publish.pool authorizer).code k : Call Unit).lift

variable {authorizer : Bool} {parse : Str → Except Error (Str × Str)} {i : Kind} {d : Draw}
  {w : World}

theorem World.record_stores (op : ops.Op) (r : ops.Res op) : (w.record i op r).stores = w.stores := by
  unfold World.record
  split <;> rfl

theorem reads_answer {op : ops.Op} (h : Publish.Reads op) :
    ((pool authorizer parse).answer i (.inl op) d w).2 = w := by
  cases op <;> try contradiction
  all_goals simp [pool, World.record, answer, unlessFailed_snd]

theorem modelGet_ok {id : Str} {s : Stores} (h : (answer (.modelGet id) d s).1 = .ok m) :
    s.models.lookup id = some m := by
  cases hf : d.failure <;> simp [answer, unlessFailed, hf] at h
  exact Models.MemoryStore.get_ok h

theorem requestGet_ok {id : Str} {s : Stores} (h : (answer (.requestGet id) d s).1 = .ok r) :
    s.requests.lookup id = some r := by
  cases hf : d.failure <;> simp [answer, unlessFailed, hf] at h
  exact Publish.MemoryStore.get_ok h

-- What the writes do, when they do anything.
section Writes

variable (authorizer : Bool) (parse : Str → Except Error (Str × Str)) (i : Kind) (d : Draw)
  (w : World)

theorem modelCreate_answer (m : Models.Model) :
    (∃ e, (pool authorizer parse).answer i (.inl (.modelCreate m)) d w = (.error e, w)) ∨
    (pool authorizer parse).answer i (.inl (.modelCreate m)) d w =
      (.ok (Models.MemoryStore.stamp m d.now),
        { w.setModels (w.models.insert m.id (Models.MemoryStore.stamp m d.now)) with
          first     := w.first.insert m.id (Models.MemoryStore.stamp m d.now)
          published := i.approves.toList.map (fun id => (id, Models.MemoryStore.stamp m d.now)) ++
            w.published }) := by
  cases withModels_cases d w.stores (·.create m d.now)
  case inl h =>
    obtain ⟨e, he⟩ := h
    exact .inl ⟨e, by simp [pool, answer, he, World.record]⟩
  case inr h =>
    obtain ⟨m', s, hc, ha⟩ := h
    obtain ⟨_, hm, hs⟩ := Models.MemoryStore.create_ok hc
    subst hm hs
    exact .inr (by simp [pool, answer, ha, World.record, World.setModels]; rfl)

theorem modelUpdate_answer (id : Str) (f : Models.Model → Except Error Models.Model) :
    (∃ e, (pool authorizer parse).answer i (.inr (.modelUpdate id f)) d w = (.error e, w)) ∨
    ∃ m m₁, w.models.lookup id = some m ∧ f m = .ok m₁ ∧
      (pool authorizer parse).answer i (.inr (.modelUpdate id f)) d w =
        (.ok { m₁ with updatedAt := d.now },
          w.setModels (w.models.insert id { m₁ with updatedAt := d.now })) := by
  cases withModels_cases d w.stores (·.update id f d.now)
  case inl h =>
    have ⟨e, he⟩ := h
    exact .inl ⟨e, by simp [pool, answerEdit, he]⟩
  case inr h =>
    have ⟨m', s, hc, ha⟩ := h
    have ⟨m, m₁, hl, hf, hm, hs⟩ := Models.MemoryStore.update_ok hc
    subst hm hs
    exact .inr ⟨m, m₁, hl, hf, by simp [pool, answerEdit, ha, World.setModels]⟩

theorem modelDelete_answer (id : Str) :
    (∃ e, (pool authorizer parse).answer i (.inr (.modelDelete id)) d w = (.error e, w)) ∨
    (pool authorizer parse).answer i (.inr (.modelDelete id)) d w =
      (.ok (), w.setModels (w.models.erase id)) := by
  cases withModels_cases d w.stores (·.delete id)
  case inl h =>
    have ⟨e, he⟩ := h
    exact .inl ⟨e, by simp [pool, answerEdit, he]⟩
  case inr h =>
    have ⟨_, s, hc, ha⟩ := h
    have hs := Models.MemoryStore.delete_ok hc
    subst hs
    exact .inr (by simp [pool, answerEdit, ha, World.setModels])

theorem requestCreate_answer (r : Publish.Request) :
    (∃ e, (pool authorizer parse).answer i (.inl (.requestCreate r)) d w = (.error e, w)) ∨
    (pool authorizer parse).answer i (.inl (.requestCreate r)) d w =
      (.ok (Publish.MemoryStore.stamp r d.now),
        { w.setRequests (w.requests.insert r.id (Publish.MemoryStore.stamp r d.now)) with
          opened := w.opened.insert r.id (i.user, Publish.MemoryStore.stamp r d.now) }) := by
  cases withRequests_cases d w.stores (·.create r d.now)
  case inl h =>
    obtain ⟨e, he⟩ := h
    exact .inl ⟨e, by simp [pool, answer, he, World.record]⟩
  case inr h =>
    obtain ⟨r', s, hc, ha⟩ := h
    obtain ⟨_, hr, hs⟩ := Publish.MemoryStore.create_ok hc
    subst hr hs
    exact .inr (by simp [pool, answer, ha, World.record, World.setRequests]; rfl)

theorem requestUpdate_answer (id : Str) (f : Publish.Request → Except Error Publish.Request) :
    (∃ e, (pool authorizer parse).answer i (.inl (.requestUpdate id f)) d w = (.error e, w)) ∨
    ∃ r r₁, w.requests.lookup id = some r ∧ f r = .ok r₁ ∧
      (pool authorizer parse).answer i (.inl (.requestUpdate id f)) d w =
        (.ok { r₁ with updatedAt := d.now },
          w.setRequests (w.requests.insert id { r₁ with updatedAt := d.now })) := by
  cases withRequests_cases d w.stores (·.update id f d.now)
  case inl h =>
    obtain ⟨e, he⟩ := h
    exact .inl ⟨e, by simp [pool, answer, he, World.record]⟩
  case inr h =>
    obtain ⟨r', s, hc, ha⟩ := h
    obtain ⟨r, r₁, hl, hf, hr, hs⟩ := Publish.MemoryStore.update_ok hc
    subst hr hs
    exact .inr ⟨r, r₁, hl, hf, by simp [pool, answer, ha, World.record, World.setRequests]⟩

theorem requestDelete_answer (id : Str) :
    (∃ e, (pool authorizer parse).answer i (.inl (.requestDelete id)) d w = (.error e, w)) ∨
    (pool authorizer parse).answer i (.inl (.requestDelete id)) d w =
      (.ok (), { w.setRequests (w.requests.erase id) with
        withdrawn := (id, i.user) :: w.withdrawn }) := by
  cases withRequests_cases d w.stores (·.delete id)
  case inl h =>
    obtain ⟨e, he⟩ := h
    exact .inl ⟨e, by simp [pool, answer, he, World.record]⟩
  case inr h =>
    obtain ⟨_, s, hc, ha⟩ := h
    have hs := Publish.MemoryStore.delete_ok hc
    subst hs
    exact .inr (by simp [pool, answer, ha, World.record, World.setRequests])

end Writes
end Hub

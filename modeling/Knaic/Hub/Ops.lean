import Knaic.Effects.Extend
import Knaic.Auth.User
import Knaic.Models.Store
import Knaic.Publish.Store

open Go Effects

namespace Hub

-- What the model and publish services do to the world: the reads and writes of their two stores,
-- each of them atomic, and what they ask of the rest of the system.
inductive Op
  | modelGet (id : Str)
  | modelCreate (m : Models.Model)
  | requestGet (id : Str)
  | requestCreate (r : Publish.Request)
  | requestUpdate (id : Str) (mutate : Publish.Request → Except Error Publish.Request)
  | requestDelete (id : Str)
  | canWritePrivateModel (u : Auth.User) (ns : Str)
  | newID (pre : Str)
  | now

abbrev ops : Signature where
  Op := Op
  Res
    | .modelGet _ | .modelCreate _                             => Except Error Models.Model
    | .requestGet _ | .requestCreate _ | .requestUpdate _ _    => Except Error Publish.Request
    | .requestDelete _                                         => Except Error Unit
    | .canWritePrivateModel _ _                                => Except Error Bool
    | .newID _                                                 => Str
    | .now                                                     => Time

abbrev Call :=
  Effects.Call ops Error

def perform (op : Op) : Prog ops (ops.Res op) :=
  @Prog.perform ops op

def modelGet (id : Str) : Call Models.Model :=
  perform (.modelGet id)

def modelCreate (m : Models.Model) : Call Models.Model :=
  perform (.modelCreate m)

def requestGet (id : Str) : Call Publish.Request :=
  perform (.requestGet id)

def requestCreate (r : Publish.Request) : Call Publish.Request :=
  perform (.requestCreate r)

def requestUpdate (id : Str) (mutate : Publish.Request → Except Error Publish.Request) :
    Call Publish.Request :=
  perform (.requestUpdate id mutate)

def requestDelete (id : Str) : Call Unit :=
  perform (.requestDelete id)

def canWritePrivateModel (u : Auth.User) (ns : Str) : Call Bool :=
  perform (.canWritePrivateModel u ns)

def newID (pre : Str) : Call Str :=
  ExceptT.lift (perform (.newID pre))

def now : Call Time :=
  ExceptT.lift (perform .now)

-- What only the model service does to the catalogue.
inductive Edit
  | modelUpdate (id : Str) (mutate : Models.Model → Except Error Models.Model)
  | modelDelete (id : Str)

abbrev edits : Signature where
  Op := Edit
  Res
    | .modelUpdate _ _ => Except Error Models.Model
    | .modelDelete _   => Except Error Unit

abbrev EditCall :=
  Effects.Call (ops.extend edits) Error

def modelUpdate (id : Str) (mutate : Models.Model → Except Error Models.Model) :
    EditCall Models.Model :=
  @Prog.extra ops edits (.modelUpdate id mutate)

def modelDelete (id : Str) : EditCall Unit :=
  @Prog.extra ops edits (.modelDelete id)

structure Stores where
  models   : Models.MemoryStore
  requests : Publish.MemoryStore

-- What an operation finds that is not in the stores: the clock, four random bytes, the answer of
-- the authorizer, and whether a store fails for reasons of its own.
structure Draw where
  now      : Time
  random   : Vector UInt8 4
  writable : Except Error Bool
  failure  : Option Error

def withModels (s : Stores) (f : Models.MemoryStore → Except Error (α × Models.MemoryStore)) :
    Except Error α × Stores :=
  match f s.models with
  | .ok (a, m) => (.ok a, { s with models := m })
  | .error e   => (.error e, s)

def withRequests (s : Stores) (f : Publish.MemoryStore → Except Error (α × Publish.MemoryStore)) :
    Except Error α × Stores :=
  match f s.requests with
  | .ok (a, r) => (.ok a, { s with requests := r })
  | .error e   => (.error e, s)

-- The answer of a store that may fail, in which case it is left as it is.
def unlessFailed (d : Draw) (s : Stores) (a : Except Error α × Stores) : Except Error α × Stores :=
  match d.failure with
  | none   => a
  | some e => (.error e, s)

def answer (op : ops.Op) (d : Draw) (s : Stores) : ops.Res op × Stores :=
  match op with
  | .modelGet id              => unlessFailed d s (s.models.get id, s)
  | .modelCreate m            => unlessFailed d s (withModels s (·.create m d.now))
  | .requestGet id            => unlessFailed d s (s.requests.get id, s)
  | .requestCreate r          => unlessFailed d s (withRequests s (·.create r d.now))
  | .requestUpdate id f       => unlessFailed d s (withRequests s (·.update id f d.now))
  | .requestDelete id         => unlessFailed d s (withRequests s (·.delete id))
  | .canWritePrivateModel _ _ => (d.writable, s)
  | .newID pre                => (pre ++ str "-" ++ hex d.random.toList, s)
  | .now                      => (d.now, s)

def answerEdit (op : edits.Op) (d : Draw) (s : Stores) : edits.Res op × Stores :=
  match op with
  | .modelUpdate id f => unlessFailed d s (withModels s (·.update id f d.now))
  | .modelDelete id   => unlessFailed d s (withModels s (·.delete id))

-- A write either fails and leaves the stores alone, or it is a write of its store.
theorem withModels_cases (d : Draw) (s : Stores)
    (f : Models.MemoryStore → Except Error (α × Models.MemoryStore)) :
    (∃ e, unlessFailed d s (withModels s f) = (.error e, s)) ∨
    ∃ a m, f s.models = .ok (a, m) ∧
      unlessFailed d s (withModels s f) = (.ok a, { s with models := m }) := by
  unfold unlessFailed withModels
  split
  case h_2 e _ => exact .inl ⟨e, rfl⟩
  case h_1 =>
    split
    case h_1 a m h => exact .inr ⟨a, m, h, rfl⟩
    case h_2 e _   => exact .inl ⟨e, rfl⟩

theorem withRequests_cases (d : Draw) (s : Stores)
    (f : Publish.MemoryStore → Except Error (α × Publish.MemoryStore)) :
    (∃ e, unlessFailed d s (withRequests s f) = (.error e, s)) ∨
    ∃ a r, f s.requests = .ok (a, r) ∧
      unlessFailed d s (withRequests s f) = (.ok a, { s with requests := r }) := by
  unfold unlessFailed withRequests
  split
  case h_2 e _ => exact .inl ⟨e, rfl⟩
  case h_1 =>
    split
    case h_1 a r h => exact .inr ⟨a, r, h, rfl⟩
    case h_2 e _   => exact .inl ⟨e, rfl⟩

theorem unlessFailed_snd (d : Draw) (s : Stores) (a : Except Error α) :
    (unlessFailed d s (a, s)).2 = s := by
  unfold unlessFailed
  split <;> rfl

theorem withRequests_models (d : Draw) (s : Stores)
    (f : Publish.MemoryStore → Except Error (α × Publish.MemoryStore)) :
    (unlessFailed d s (withRequests s f)).2.models = s.models := by
  cases withRequests_cases d s f
  case inl h => have ⟨_, h⟩ := h; rw [h]
  case inr h => have ⟨_, _, _, h⟩ := h; rw [h]

-- Only one operation writes to the catalogue.
theorem answer_models {op : ops.Op} (h : ∀ m, op ≠ .modelCreate m) (d : Draw) (s : Stores) :
    (answer op d s).2.models = s.models := by
  cases op
  case modelCreate m   => exact absurd rfl (h m)
  case modelGet        => simp [answer, unlessFailed_snd]
  case requestGet      => simp [answer, unlessFailed_snd]
  case requestCreate   => exact withRequests_models ..
  case requestUpdate   => exact withRequests_models ..
  case requestDelete   => exact withRequests_models ..
  all_goals rfl

theorem requestUpdate_found {id : Str} {d : Draw} {s : Stores}
    {f : Publish.Request → Except Error Publish.Request} (hd : d.failure = none)
    (hl : s.requests.lookup id = some r) (hf : f r = .ok r₁) :
    (answer (.requestUpdate id f) d s).1 = .ok { r₁ with updatedAt := d.now } := by
  simp [answer, unlessFailed, withRequests, Publish.MemoryStore.update, hd, hl, hf]

theorem requestUpdate_lost {id : Str} {d : Draw} {s : Stores}
    (f : Publish.Request → Except Error Publish.Request)
    (h : ¬((s.requests.lookup id).isSome ∧ d.failure = none)) :
    ∃ e, (answer (.requestUpdate id f) d s).1 = .error e := by
  cases hd : d.failure
  case some e => exact ⟨e, by simp [answer, unlessFailed, hd]⟩
  case none =>
    have hl : s.requests.lookup id = none := by simpa [hd] using h
    exact ⟨_, by simp [answer, unlessFailed, withRequests, Publish.MemoryStore.update, hd, hl]; rfl⟩

end Hub

import Knaic.Hub.Provenance

open Go Effects

namespace Models

open Auth Hub

-- What no patch changes of a model.
structure Model.SameEntry (m m₁ : Model) : Prop where
  id     : m₁.id = m.id
  name   : m₁.name = m.name
  scope  : m₁.scope = m.scope
  ns     : m₁.ns = m.ns
  uri    : m₁.uri = m.uri
  scheme : m₁.scheme = m.scheme

theorem Model.SameEntry.symm {m m₁ : Model} (h : m.SameEntry m₁) : m₁.SameEntry m :=
  ⟨h.id.symm, h.name.symm, h.scope.symm, h.ns.symm, h.uri.symm, h.scheme.symm⟩

theorem Model.SameEntry.trans {m m₁ m₂ : Model} (h : m.SameEntry m₁) (h' : m₁.SameEntry m₂) :
    m.SameEntry m₂ :=
  ⟨h'.id.trans h.id, h'.name.trans h.name, h'.scope.trans h.scope, h'.ns.trans h.ns,
    h'.uri.trans h.uri, h'.scheme.trans h.scheme⟩

theorem PatchRequest.on_same (req : PatchRequest) (m : Model) : m.SameEntry (req.on m) :=
  ⟨rfl, rfl, rfl, rfl, rfl, rfl⟩

theorem MemoryStore.stamp_same (m : Model) (now : Time) : m.SameEntry (stamp m now) :=
  ⟨rfl, rfl, rfl, rfl, rfl, rfl⟩

-- A scope and a namespace that a model may be registered with.
def Placed (scope : Scope) (ns : Str) : Prop :=
  scope = .scopePublic ∨ scope = .scopePrivate ∧ ns ≠ []

instance (scope : Scope) (ns : Str) : Decidable (Placed scope ns) :=
  inferInstanceAs (Decidable (_ ∨ _))

-- What the services check of every model.
structure Model.Sound (m : Model) : Prop where
  scheme : parseScheme m.uri = .ok m.scheme
  ns     : m.scope = .scopePrivate ∨ m.ns = []

structure Model.WellFormed (m : Model) : Prop where
  scheme : parseScheme m.uri = .ok m.scheme
  place  : m.scope = .scopePublic ∧ m.ns = [] ∨ m.scope = .scopePrivate ∧ m.ns ≠ []

-- No two models share their scope, namespace and name.
def MemoryStore.Apart (s : MemoryStore) : Prop :=
  ∀ i j a b, s.lookup i = some a → s.lookup j = some b →
  a.scope = b.scope → a.ns = b.ns → a.name = b.name → i = j

structure MemoryStore.WellFormed (s : MemoryStore) : Prop where
  each  : ∀ id m, s.lookup id = some m → m.WellFormed
  apart : s.Apart

section Models

variable {m m₁ : Model} {scope : Scope} {ns : Str}

theorem Model.Sound.same (h : m.Sound) (hs : m.SameEntry m₁) : m₁.Sound where
  scheme := by rw [hs.uri, hs.scheme]; exact h.scheme
  ns     := by rw [hs.scope, hs.ns]; exact h.ns

theorem Model.WellFormed.same (h : m.WellFormed) (hs : m.SameEntry m₁) : m₁.WellFormed where
  scheme := by rw [hs.uri, hs.scheme]; exact h.scheme
  place  := by rw [hs.scope, hs.ns]; exact h.place

theorem namespaceFor_sound : scope = .scopePrivate ∨ namespaceFor scope ns = [] := by
  unfold namespaceFor
  split
  case isTrue h => exact .inl h
  case isFalse  => exact .inr rfl

-- The namespace is kept for private models only, so nothing else can be wrong with a place.
theorem namespaceFor_placed :
    (scope = .scopePublic ∧ namespaceFor scope ns = [] ∨
      scope = .scopePrivate ∧ namespaceFor scope ns ≠ []) ↔ Placed scope ns := by
  cases scope <;> simp [namespaceFor, Placed]

end Models

-- An operation creates only models with `Q` and requests with `R`, and keeps the entries of the models
-- and the subjects of the requests that it updates.
def Registers (Q : Model → Prop) (R : Publish.Request → Prop) : (ops.extend edits).Op → Prop
  | .inl (.modelCreate m)     => Q m
  | .inr (.modelUpdate _ f)   => ∀ m m₁, f m = .ok m₁ → m.SameEntry m₁
  | .inl (.requestCreate r)   => R r
  | .inl (.requestUpdate _ f) => ∀ r r₁, f r = .ok r₁ → r₁.privateModelID = r.privateModelID
  | _                         => True

abbrev Plainly (Q : Model → Prop) (R : Publish.Request → Prop) (op : ops.Op) : Prop :=
  Registers Q R (.inl op)

-- The users that the gate lets through.
def Admits (u : Option User) (scope : Scope) (ns : Str) : Prop :=
  u.any (·.isPlatformAdmin) ∨ scope = .scopePrivate ∧ ns ≠ []

section Calls

variable {Q : Model → Prop} {R : Publish.Request → Prop} {authorizer : Bool}
  {parse : Str → Except Error (Str × Str)} {u : Option User}

theorem plainly_of_reads {op : ops.Op} (h : Publish.Reads op) : Plainly Q R op := by
  cases op <;> trivial

theorem gateWrite_then {A : ops.Op → Prop} {scope : Scope} {ns : Str} {f : Unit → Call α}
    (ha : ∀ op, Publish.Reads op → A op) (hf : Admits u scope ns → Prog.Only A (f ())) :
    Prog.Only A (gateWrite authorizer u scope ns >>= f : Call α) := by
  by_cases h : Admits u scope ns
  case pos => exact Call.only_seq ((Publish.gateWrite_reads ..).mono ha) fun _ => hf h
  case neg =>
    have ⟨e, he⟩ : ∃ e, gateWrite authorizer u scope ns = throw e := by
      unfold gateWrite
      cases u
      case none   => exact ⟨_, rfl⟩
      case some u =>
        have hu : u.isPlatformAdmin = false := by simp [Admits] at h; exact h.left
        cases scope
        case scopePublic  => exact ⟨_, by simp [hu]; rfl⟩
        case unknown      => exact ⟨_, by simp [hu]; rfl⟩
        case scopePrivate =>
          have hn : ns = [] := by simpa [Admits, hu] using h
          exact ⟨_, by simp [hu, hn]; rfl⟩
    rw [he]
    trivial

-- The last steps of every call that registers a model.
def register (f : Time → Str → Model) : Call Model := do
  let now ← Hub.now
  let id ← newID (str "m")
  modelCreate (f now id)

theorem register_only {f : Time → Str → Model} (h : ∀ now id, Q (f now id)) :
    Prog.Only (Plainly Q R) (register f) :=
  ⟨trivial, fun now => ⟨trivial, fun id => ⟨h now id, fun _ => trivial⟩⟩⟩

theorem create_only {req : CreateRequest}
    (h : ∀ scheme, req.name ≠ [] → parseScheme req.uri = .ok scheme → Admits u req.scope req.ns →
      ∀ now id, Q (createdModel u req scheme now id)) :
    Prog.Only (Plainly Q R) (create authorizer u req) := by
  unfold create
  refine Call.only_guard fun hn => ?_
  split
  case h_1           => trivial
  case h_2 scheme hs =>
    refine gateWrite_then (fun _ => plainly_of_reads) fun ha => ?_
    exact register_only (h scheme (fun he => hn (.inl he)) hs ha)

theorem upload_only {req : UploadRequest}
    (h : ∀ scheme, req.name ≠ [] → parseScheme req.targetURI = .ok scheme →
      Admits u req.scope req.ns → ∀ now id, Q (uploadedModel u req scheme now id)) :
    Prog.Only (Plainly Q R) (upload authorizer u req) := by
  unfold upload
  refine Call.only_guard fun hn => ?_
  split
  case h_1           => trivial
  case h_2 scheme hs =>
    refine gateWrite_then (fun _ => plainly_of_reads) fun ha => ?_
    exact register_only (h scheme (fun he => hn (.inl he)) hs ha)

-- Imported models have one of two schemes, whatever `url.Parse` makes of the URL.
theorem normaliseImportURL_scheme {raw uri name : Str}
    (h : normaliseImportURL parse raw = .ok (uri, name)) : ∃ scheme, parseScheme uri = .ok scheme := by
  unfold normaliseImportURL at h
  split at h
  case h_1 => cases h
  case h_2 =>
    dsimp only at h
    split at h
    case isTrue =>
      split at h
      case isTrue  => cases h
      case isFalse => cases h; exact ⟨.hf, rfl⟩
    case isFalse =>
      split at h
      case isFalse => cases h
      case isTrue =>
        split at h
        case isTrue  => cases h
        case isFalse => cases h; exact ⟨.modelScope, rfl⟩

theorem import_only {req : ImportRequest}
    (h : ∀ uri name scheme, normaliseImportURL parse req.url = .ok (uri, name) →
      parseScheme uri = .ok scheme → Admits u req.scope req.ns →
      ∀ now id, Q (importedModel u req uri name scheme now id)) :
    Prog.Only (Plainly Q R) (importModel authorizer parse u req) := by
  unfold importModel
  split
  case h_1             => trivial
  case h_2 uri name hn =>
    refine gateWrite_then (fun _ => plainly_of_reads) fun ha => ?_
    have ⟨scheme, hs⟩ := normaliseImportURL_scheme hn
    rw [hs]
    exact register_only (h uri name scheme hn hs ha)

theorem gated_only (id : Str) (need : Bool) :
    Prog.Only (Plainly Q R) (gated authorizer u id need) := by
  refine Call.only_seq (Prog.Only.perform trivial) fun m => ?_
  split
  case isTrue  => exact (Publish.gateWrite_reads ..).mono fun _ => plainly_of_reads
  case isFalse => trivial

theorem patch_only (id : Str) (req : PatchRequest) :
    Prog.Only (Registers Q R) (patch authorizer u id req) := by
  refine Call.only_seq (gated_only id _).lift fun _ => Prog.Only.perform ?_
  intro m m₁ h
  cases h
  exact req.on_same m

theorem delete_only (id : Str) : Prog.Only (Registers Q R) (delete authorizer u id) :=
  Call.only_seq (gated_only id _).lift fun _ => Prog.Only.perform trivial

theorem createPublic_only {req : PublishCopy}
    (h : ∀ scheme, parseScheme req.uri = .ok scheme → ∀ now id, Q (publicModel req scheme now id)) :
    Prog.Only (Plainly Q R) (createPublicFromRequest u req) := by
  unfold createPublicFromRequest
  refine Call.only_guard fun _ => ?_
  split
  case h_1           => trivial
  case h_2 scheme hs =>
    refine Call.only_guard fun _ => ?_
    refine ⟨trivial, fun now => ⟨trivial, fun id => ⟨h scheme hs now id, fun r => ?_⟩⟩⟩
    cases r <;> trivial

end Calls
end Models

namespace Publish

open Auth Hub Models

variable {Q : Model → Prop} {R : Request → Prop} {authorizer : Bool} {u : Option User}

theorem create_only (req : CreateRequest) :
    Prog.Only (Plainly Q fun _ => True) (create authorizer u req) := by
  unfold create
  split
  case h_1 => trivial
  case h_2 u =>
    refine Call.only_guard fun _ => ?_
    refine Call.only_guard fun _ => ?_
    refine Call.only_seq ((getPrivateForPublish_reads ..).mono fun _ => plainly_of_reads) ?_
    intro snap
    refine Call.only_guard fun _ => ?_
    refine Call.only_guard fun _ => ?_
    refine Call.only_seq ((canWriteNamespace_reads ..).mono fun _ => plainly_of_reads) ?_
    intro ok
    exact Call.only_guard fun _ => ⟨trivial, fun _ => Prog.Only.perform trivial⟩

theorem approve_only {id : Str} {body : ReviewRequest}
    (h : ∀ req scheme, parseScheme req.uri = .ok scheme → ∀ now id, Q (publicModel req scheme now id)) :
    Prog.Only (Plainly Q R) (approve authorizer u id body) := by
  unfold approve
  split
  case h_1 => trivial
  case h_2 u =>
    refine Call.only_guard fun _ => ?_
    refine Call.only_seq (Prog.Only.perform trivial) fun current => ?_
    refine Call.only_guard fun _ => ?_
    refine Call.only_seq (Call.only_mapError
      ((getPrivateForPublish_reads ..).mono fun _ => plainly_of_reads)) fun snap => ?_
    refine Call.only_seq (Call.only_mapError (createPublic_only (h _))) fun publicID => ?_
    refine Prog.Only.perform fun r r₁ hr => ?_
    cases hr
    rfl

theorem reject_only (id : Str) (body : ReviewRequest) :
    Prog.Only (Plainly Q R) (reject u id body) := by
  unfold reject
  split
  case h_1 => trivial
  case h_2 u =>
    refine Call.only_guard fun _ => ?_
    refine Call.only_seq (Prog.Only.perform trivial) fun current => ?_
    refine Call.only_guard fun _ => ?_
    refine Prog.Only.perform fun r r₁ hr => ?_
    cases hr
    rfl

theorem delete_only (id : Str) : Prog.Only (Plainly Q R) (delete u id) := by
  unfold delete
  split
  case h_1 => trivial
  case h_2 u =>
    refine Call.only_seq (Prog.Only.perform trivial) fun current => ?_
    exact Call.only_guard fun _ => Prog.Only.perform trivial

end Publish

namespace Models.MemoryStore

variable {s : MemoryStore} {m m₁ : Model} {now : Time} {id : Str}

theorem WellFormed.create (h : s.WellFormed) (hc : ¬s.clashes m) (hm : m.WellFormed) :
    WellFormed (s.insert m.id (stamp m now)) where
  each id m' hl := by
    cases Map.lookup_insert_some hl
    case inr hl => exact h.each id m' hl
    case inl he => obtain ⟨rfl, rfl⟩ := he; exact hm.same (stamp_same m now)
  apart i j a b hi hj hs hn hm := by
    -- The model clashes with none that was there.
    have hclear k e (hk : s.lookup k = some e) :
        ¬(e.scope = m.scope ∧ e.ns = m.ns ∧ e.name = m.name) :=
      fun he => hc (clashes_iff.mpr ⟨k, e, hk, he⟩)
    cases Map.lookup_insert_some hi
    case inl hi =>
      obtain ⟨rfl, rfl⟩ := hi
      cases Map.lookup_insert_some hj
      case inl hj => exact hj.left.symm
      case inr hj => exact absurd ⟨hs.symm, hn.symm, hm.symm⟩ (hclear j b hj)
    case inr hi =>
      cases Map.lookup_insert_some hj
      case inr hj => exact h.apart i j a b hi hj hs hn hm
      case inl hj => obtain ⟨rfl, rfl⟩ := hj; exact absurd ⟨hs, hn, hm⟩ (hclear i a hi)

theorem WellFormed.update (h : s.WellFormed) (hl : s.lookup id = some m) (hs : m.SameEntry m₁) :
    WellFormed (s.insert id m₁) := by
  -- Every entry was there before, under the same name.
  have hold k a (hk : (s.insert id m₁).lookup k = some a) :
      ∃ a₀, s.lookup k = some a₀ ∧ a₀.SameEntry a := by
    cases Map.lookup_insert_some hk
    case inr hk => exact ⟨a, hk, ⟨rfl, rfl, rfl, rfl, rfl, rfl⟩⟩
    case inl he => obtain ⟨rfl, rfl⟩ := he; exact ⟨m, hl, hs⟩
  constructor
  case each =>
    intro k a hk
    have ⟨a₀, ha, hs⟩ := hold k a hk
    exact (h.each k a₀ ha).same hs
  case apart =>
    intro i j a b hi hj he hn hm
    have ⟨a₀, ha, hsa⟩ := hold i a hi
    have ⟨b₀, hb, hsb⟩ := hold j b hj
    refine h.apart i j a₀ b₀ ha hb ?_ ?_ ?_
    · rw [← hsa.scope, he, hsb.scope]
    · rw [← hsa.ns, hn, hsb.ns]
    · rw [← hsa.name, hm, hsb.name]

theorem WellFormed.delete (h : s.WellFormed) (id : Str) : WellFormed (s.erase id) where
  each k m hl         := h.each k m (Map.lookup_erase_some hl)
  apart i j a b hi hj := h.apart i j a b (Map.lookup_erase_some hi) (Map.lookup_erase_some hj)

end Models.MemoryStore

namespace Hub

open Auth Models

section Steps

variable (authorizer : Bool) (parse : Str → Except Error (Str × Str)) (i : Kind) (d : Draw)
  (w : World)

theorem answer_stores (op : ops.Op) :
    ((pool authorizer parse).answer i (.inl op) d w).2.stores = (answer op d w.stores).2 :=
  World.record_stores ..

-- What a step does to the catalogue.
theorem models_step (op : (ops.extend edits).Op) :
    ((pool authorizer parse).answer i op d w).2.models = w.models ∨
    (∃ m, op = .inl (.modelCreate m) ∧ ¬w.models.clashes m ∧
      ((pool authorizer parse).answer i op d w).2.models =
        w.models.insert m.id (MemoryStore.stamp m d.now)) ∨
    (∃ id f m m₁, op = .inr (.modelUpdate id f) ∧ w.models.lookup id = some m ∧ f m = .ok m₁ ∧
      ((pool authorizer parse).answer i op d w).2.models =
        w.models.insert id { m₁ with updatedAt := d.now }) ∨
    ∃ id, op = .inr (.modelDelete id) ∧
      ((pool authorizer parse).answer i op d w).2.models = w.models.erase id := by
  cases op
  case inl op =>
    by_cases ho : ∃ m, op = .modelCreate m
    case neg =>
      left
      rw [World.models, answer_stores]
      exact answer_models (fun m hm => ho ⟨m, hm⟩) d w.stores
    case pos =>
      obtain ⟨m, rfl⟩ := ho
      rw [World.models, answer_stores, answer]
      cases withModels_cases d w.stores (·.create m d.now)
      case inl h => obtain ⟨_, h⟩ := h; exact .inl (by rw [h])
      case inr h =>
        obtain ⟨m', s, hc, h⟩ := h
        obtain ⟨hn, rfl, rfl⟩ := MemoryStore.create_ok hc
        exact .inr (.inl ⟨m, rfl, hn, by rw [h]⟩)
  case inr op =>
    cases op
    case modelUpdate id f =>
      cases modelUpdate_answer authorizer parse i d w id f
      case inl h => obtain ⟨_, h⟩ := h; exact .inl (by rw [h])
      case inr h =>
        obtain ⟨m, m₁, hl, hf, h⟩ := h
        exact .inr (.inr (.inl ⟨id, f, m, m₁, rfl, hl, hf, by rw [h]; rfl⟩))
    case modelDelete id =>
      cases modelDelete_answer authorizer parse i d w id
      case inl h => obtain ⟨_, h⟩ := h; exact .inl (by rw [h])
      case inr h => exact .inr (.inr (.inr ⟨id, rfl, by rw [h]; rfl⟩))

end Steps

variable {authorizer : Bool} {parse : Str → Except Error (Str × Str)} {R : Publish.Request → Prop}

theorem wellFormed_step {i : Kind} {op : (ops.extend edits).Op} {d : Draw} {w : World}
    (ho : Registers Model.WellFormed R op) (h : w.models.WellFormed) :
    ((pool authorizer parse).answer i op d w).2.models.WellFormed := by
  rcases models_step authorizer parse i d w op with he | ⟨m, rfl, hc, he⟩ |
    ⟨id, f, m, m₁, rfl, hl, hf, he⟩ | ⟨id, rfl, he⟩
  all_goals rw [he]
  · exact h
  · exact h.create hc ho
  · have hs := ho m m₁ hf
    exact h.update hl ⟨hs.id, hs.name, hs.scope, hs.ns, hs.uri, hs.scheme⟩
  · exact h.delete id

-- A call by an administrator that asks for a place no model may have, and that nothing else is wrong
-- with.
def Kind.Strays (parse : Str → Except Error (Str × Str)) : Kind → Prop
  | .create u req      => u.any (·.isPlatformAdmin) ∧ req.name ≠ [] ∧
                          (∃ scheme, parseScheme req.uri = .ok scheme) ∧ ¬Placed req.scope req.ns
  | .importModel u req => u.any (·.isPlatformAdmin) ∧
                          (∃ p, normaliseImportURL parse req.url = .ok p) ∧ ¬Placed req.scope req.ns
  | .upload u req      => u.any (·.isPlatformAdmin) ∧ req.name ≠ [] ∧
                          (∃ scheme, parseScheme req.targetURI = .ok scheme) ∧
                          ¬Placed req.scope req.ns
  | _                  => False

theorem Admits.placed {u : Option User} {scope : Scope} {ns : Str} (h : Admits u scope ns)
    (hu : ¬(u.any (·.isPlatformAdmin) ∧ ¬Placed scope ns)) : Placed scope ns := by
  cases h
  case inl ha => exact Classical.not_not.mp fun hp => hu ⟨ha, hp⟩
  case inr hp => exact .inr hp

-- Only the calls that stray register models that are not well-formed.
theorem code_only {i : Kind} (h : ¬i.Strays parse) :
    ((pool authorizer parse).code i).Only (Registers Model.WellFormed fun _ => True) := by
  cases i
  case create u req =>
    refine Prog.Only.lift (Call.only_seq (create_only fun scheme hn hs ha now id => ?_)
      fun _ => trivial)
    have hp := Admits.placed ha fun hu => h ⟨hu.left, hn, ⟨scheme, hs⟩, hu.right⟩
    exact ⟨hs, namespaceFor_placed.mpr hp⟩
  case importModel u req =>
    refine Prog.Only.lift (Call.only_seq (import_only fun uri name scheme hn hs ha now id => ?_)
      fun _ => trivial)
    have hp := Admits.placed ha fun hu => h ⟨hu.left, ⟨_, hn⟩, hu.right⟩
    exact ⟨hs, namespaceFor_placed.mpr hp⟩
  case upload u req =>
    refine Prog.Only.lift (Call.only_seq (upload_only fun scheme hn hs ha now id => ?_)
      fun _ => trivial)
    have hp := Admits.placed ha fun hu => h ⟨hu.left, hn, ⟨scheme, hs⟩, hu.right⟩
    exact ⟨hs, namespaceFor_placed.mpr hp⟩
  case patch u id req => exact Call.only_seq (patch_only id req) fun _ => trivial
  case delete u id    => exact Models.delete_only id
  case publish k =>
    cases k
    case delete u id => exact Prog.Only.lift (Publish.delete_only id)
    all_goals refine Prog.Only.lift (Call.only_seq ?_ fun _ => trivial)
    case create u req      => exact Publish.create_only req
    case reject u id body  => exact Publish.reject_only id body
    case approve u id body =>
      exact Publish.approve_only fun _ _ hs _ _ => ⟨hs, .inl ⟨rfl, rfl⟩⟩

-- A call that strays takes the time, draws an identifier and registers a model that has no place.
theorem Kind.Strays.code {i : Kind} (h : i.Strays parse) (authorizer : Bool) :
    ∃ f, (∀ now id, ¬(f now id).WellFormed ∧ (f now id).id = id) ∧
      (pool authorizer parse).code i = Prog.lift (register f).void := by
  cases i
  case create u req =>
    obtain ⟨hu, hn, ⟨scheme, hs⟩, hp⟩ := h
    cases u <;> simp at hu
    case some u =>
      have hq : req.uri ≠ [] := fun he => by rw [he] at hs; cases hs
      refine ⟨createdModel u req scheme, fun now id => ⟨fun hw => hp ?_, rfl⟩, ?_⟩
      · exact namespaceFor_placed.mp hw.place
      · simp [pool, Models.create, hn, hq, hs, gateWrite, hu, Call.lift]
        rfl
  case importModel u req =>
    obtain ⟨hu, ⟨⟨uri, name⟩, hn⟩, hp⟩ := h
    obtain ⟨scheme, hs⟩ := normaliseImportURL_scheme hn
    cases u <;> simp at hu
    case some u =>
      refine ⟨importedModel u req uri name scheme, fun now id => ⟨fun hw => hp ?_, rfl⟩, ?_⟩
      · exact namespaceFor_placed.mp hw.place
      · simp [pool, Models.importModel, hn, hs, gateWrite, hu, Call.lift]
        rfl
  case upload u req =>
    obtain ⟨hu, hn, ⟨scheme, hs⟩, hp⟩ := h
    cases u <;> simp at hu
    case some u =>
      have hq : req.targetURI ≠ [] := fun he => by rw [he] at hs; cases hs
      refine ⟨uploadedModel u req scheme, fun now id => ⟨fun hw => hp ?_, rfl⟩, ?_⟩
      · exact namespaceFor_placed.mp hw.place
      · simp [pool, Models.upload, hn, hq, hs, gateWrite, hu, Call.lift]
        rfl
  all_goals exact h.elim

-- The call played to its end, on an empty catalogue and with a store that does not fail.
def straying (i : Kind) (d : Draw) : List (Pick Draw Kind) :=
  [.start i, .act 0 d, .act 0 d, .act 0 d]

theorem Kind.Strays.run {i : Kind} (h : i.Strays parse) (authorizer : Bool) {d : Draw}
    (hd : d.failure = none) :
    ¬((pool authorizer parse).run start (straying i d)).world.models.WellFormed := by
  obtain ⟨f, hf, hc⟩ := h.code authorizer
  obtain ⟨now, random, writable, failure⟩ := d
  cases hd
  have hn := (hf now (str "m-" ++ hex random.toList)).left
  generalize hm : f now (str "m-" ++ hex random.toList) = m at hn
  have hr : ((pool authorizer parse).run start (straying i ⟨now, random, writable, none⟩)).world.models =
      Finmap.insert m.id (MemoryStore.stamp m now) ∅ := by
    rw [straying, Pool.run_cons, Pool.next, hc, ← hm]
    rfl
  rw [hr]
  intro hw
  exact hn ((hw.each m.id _ (Finmap.lookup_insert _)).same (MemoryStore.stamp_same m now).symm)

theorem start_wellFormed : start.world.models.WellFormed where
  each id m hl          := by cases (Finmap.lookup_empty _).symm.trans hl
  apart i j a b hi _ _  := by cases (Finmap.lookup_empty _).symm.trans hi

theorem catalogue_wellFormed_iff (authorizer : Bool) (parse : Str → Except Error (Str × Str))
    (K : Kind → Prop) :
    (∀ ps : List (Pick Draw Kind), (∀ i, .start i ∈ ps → K i) →
      ((pool authorizer parse).run start ps).world.models.WellFormed) ↔
    ∀ i, K i → ¬i.Strays parse := by
  constructor
  case mpr =>
    intro h ps hs
    refine Pool.run_only (A := Registers Model.WellFormed fun _ => True)
      (I := fun w : World => w.models.WellFormed) ?_ ?_ ?_ ?_ start_wellFormed
    · exact fun _ _ _ _ => wellFormed_step
    · exact fun _ _ h => h
    · exact fun i hi => code_only (h i (hs i hi))
    · exact fun _ hp => by cases hp
  case mp =>
    intro h i hi hs
    refine hs.run authorizer (d := draw 0) rfl (h _ fun j hj => ?_)
    have he : j = i := by simpa [straying] using hj
    exact he ▸ hi

-- A private model of no namespace.
def nowhere : CreateRequest :=
  { qwen with ns := [] }

theorem nowhere_registered :
    ¬((pool false noURL).run start (straying (.create root nowhere) (draw 1))).world.models.WellFormed := by
  have hs : Kind.Strays noURL (.create root nowhere) := ⟨rfl, by decide, ⟨.hf, rfl⟩, by decide⟩
  exact hs.run false rfl

end Hub

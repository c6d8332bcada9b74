import Knaic.Hub.Pool

open Go Effects

namespace Hub

open Auth Contract

-- Identifiers are not used twice.
def FreshIDs : Pool.Condition (ops.extend edits) Draw World Kind
  | _, .inl (.modelCreate m), _, w   => w.first.lookup m.id = none
  | _, .inl (.requestCreate r), _, w => w.opened.lookup r.id = none
  | _, _, _, _                       => True

instance (i : Kind) (op : (ops.extend edits).Op) (d : Draw) (w : World) :
    Decidable (FreshIDs i op d w) :=
  match op with
  | .inl (.modelCreate m)   => inferInstanceAs (Decidable (w.first.lookup m.id = none))
  | .inl (.requestCreate r) => inferInstanceAs (Decidable (w.opened.lookup r.id = none))
  | .inl (.modelGet _) | .inl (.requestGet _) | .inl (.requestUpdate _ _)
  | .inl (.requestDelete _) | .inl (.canWritePrivateModel _ _) | .inl (.newID _) | .inl .now
  | .inr _                  => isTrue trivial

-- The model that first had the identifier had this URI.
def Sourced (id uri : Str) (w : World) : Prop :=
  ∃ m, w.first.lookup id = some m ∧ m.uri = uri

-- The request was opened for this model, by a user with this name.
def Opened (id model requestedBy : Str) (w : World) : Prop :=
  ∃ u r, w.opened.lookup id = some (u, r) ∧ r.privateModelID = model ∧
  r.requestedBy = requestedBy

-- The request was opened by a user with this name.
def OpenedBy (id name : Str) (w : World) : Prop :=
  ∃ u r, w.opened.lookup id = some (some u, r) ∧ u.name = name

structure Inv (w : World) : Prop where
  models    : ∀ id m, w.models.lookup id = some m → m.id = id ∧ Sourced id m.uri w
  requests  : ∀ id r, w.requests.lookup id = some r → Opened id r.privateModelID r.requestedBy w
  opened    : ∀ id u r, w.opened.lookup id = some (u, r) →
              (∃ u', u = some u' ∧ r.requestedBy = u'.name) ∧
              Sourced r.privateModelID r.privateURI w
  published : ∀ p ∈ w.published, Models.isPublicSource p.2.uri ∧ p.2.scope = .scopePublic ∧
              Sourced p.2.id p.2.uri w ∧
              ∃ u r, w.opened.lookup p.1 = some (u, r) ∧ r.privateURI = p.2.uri
  withdrawn : ∀ p ∈ w.withdrawn, ∃ u, p.2 = some u ∧ (u.isPlatformAdmin ∨ OpenedBy p.1 u.name w)

-- What is known of identifiers stays known.
structure Rely (w₁ w₂ : World) : Prop where
  first  : ∀ id m, w₁.first.lookup id = some m → w₂.first.lookup id = some m
  opened : ∀ id p, w₁.opened.lookup id = some p → w₂.opened.lookup id = some p

namespace Rely

theorem refl (w : World) : Rely w w where
  first _ _ h  := h
  opened _ _ h := h

theorem trans {w₁ w₂ w₃ : World} (h₁ : Rely w₁ w₂) (h₂ : Rely w₂ w₃) : Rely w₁ w₃ where
  first _ _ h  := h₂.first _ _ (h₁.first _ _ h)
  opened _ _ h := h₂.opened _ _ (h₁.opened _ _ h)

theorem of_eq {w w' : World} (hf : w'.first = w.first) (ho : w'.opened = w.opened) : Rely w w' where
  first _ _ h  := hf ▸ h
  opened _ _ h := ho ▸ h

end Rely

section Stable

variable {w w' : World} {id a b : Str}

theorem Sourced.stable (h : Sourced id a w) (hr : Rely w w') : Sourced id a w' :=
  have ⟨m, hm, he⟩ := h
  ⟨m, hr.first _ _ hm, he⟩

theorem Sourced.inj (h : Sourced id a w) (h' : Sourced id b w) : a = b := by
  have ⟨m, hm, he⟩    := h
  have ⟨m', hm', he'⟩ := h'
  cases hm.symm.trans hm'
  exact he.symm.trans he'

theorem Opened.stable (h : Opened id a b w) (hr : Rely w w') : Opened id a b w' :=
  have ⟨u, r, ho, h⟩ := h
  ⟨u, r, hr.opened _ _ ho, h⟩

theorem OpenedBy.stable (h : OpenedBy id a w) (hr : Rely w w') : OpenedBy id a w' :=
  have ⟨u, r, ho, h⟩ := h
  ⟨u, r, hr.opened _ _ ho, h⟩

theorem Opened.by (h : Opened id a b w) (hi : Inv w) : OpenedBy id b w := by
  have ⟨u, r, ho, _, hb⟩ := h
  have ⟨⟨u', hu, hn⟩, _⟩ := hi.opened id u r ho
  subst hu
  exact ⟨u', r, ho, hn.symm.trans hb⟩

-- An invariant that only speaks of what stays known survives any step that adds to it.
theorem Inv.step (h : Inv w) (hr : Rely w w')
    (hm : ∀ id m, w'.models.lookup id = some m → w.models.lookup id = some m ∨
      m.id = id ∧ Sourced id m.uri w')
    (hq : ∀ id r, w'.requests.lookup id = some r → w.requests.lookup id = some r ∨
      Opened id r.privateModelID r.requestedBy w')
    (ho : ∀ id u r, w'.opened.lookup id = some (u, r) → w.opened.lookup id = some (u, r) ∨
      (∃ u', u = some u' ∧ r.requestedBy = u'.name) ∧
        Sourced r.privateModelID r.privateURI w')
    (hp : ∀ p ∈ w'.published, p ∈ w.published ∨
      Models.isPublicSource p.2.uri ∧ p.2.scope = .scopePublic ∧ Sourced p.2.id p.2.uri w' ∧
        ∃ u r, w'.opened.lookup p.1 = some (u, r) ∧ r.privateURI = p.2.uri)
    (hw : ∀ p ∈ w'.withdrawn, p ∈ w.withdrawn ∨
      ∃ u, p.2 = some u ∧ (u.isPlatformAdmin ∨ OpenedBy p.1 u.name w')) : Inv w' where
  models id m hl := by
    cases hm id m hl
    case inr hm => exact hm
    case inl hl => exact ⟨(h.models id m hl).left, (h.models id m hl).right.stable hr⟩
  requests id r hl := by
    cases hq id r hl
    case inr hq => exact hq
    case inl hl => exact (h.requests id r hl).stable hr
  opened id u r hl := by
    cases ho id u r hl
    case inr ho => exact ho
    case inl hl => exact ⟨(h.opened id u r hl).left, (h.opened id u r hl).right.stable hr⟩
  published p hl := by
    cases hp p hl
    case inr hp => exact hp
    case inl hl =>
      have ⟨hs, hc, hu, u, r, ho, he⟩ := h.published p hl
      exact ⟨hs, hc, hu.stable hr, u, r, hr.opened _ _ ho, he⟩
  withdrawn p hl := by
    cases hw p hl
    case inr hw => exact hw
    case inl hl =>
      have ⟨u, hu, hb⟩ := h.withdrawn p hl
      exact ⟨u, hu, hb.imp_right fun hb => hb.stable hr⟩

end Stable

variable {authorizer : Bool} {parse : Str → Except Error (Str × Str)}

def contract (authorizer : Bool) (parse : Str → Except Error (Str × Str)) :
    Contract (pool authorizer parse) where
  inv           := Inv
  rely          := Rely
  guar i op d w :=
    let w' := ((pool authorizer parse).answer i op d w).2
    Inv w' ∧ Rely w w'
  refl          := .refl
  trans         := .trans
  guar_inv h _  := h.left
  guar_rely h _ := h.right
  env_inv h     := h
  env_rely _    := .refl _

namespace Guar

variable {i : Kind} {d : Draw} {w : World}

abbrev Keeps (authorizer : Bool) (parse : Str → Except Error (Str × Str)) (i : Kind)
    (op : (ops.extend edits).Op) (d : Draw) (w : World) : Prop :=
  (contract authorizer parse).guar i op d w

theorem same {op : (ops.extend edits).Op} (hi : Inv w)
    (h : ((pool authorizer parse).answer i op d w).2 = w) : Keeps authorizer parse i op d w := by
  show Inv _ ∧ Rely _ _
  rw [h]
  exact ⟨hi, .refl _⟩

theorem reads {op : ops.Op} (h : Publish.Reads op) (hi : Inv w) :
    Keeps authorizer parse i (.inl op) d w :=
  same hi (reads_answer h)

theorem newID (pre : Str) (hi : Inv w) : Keeps authorizer parse i (.inl (.newID pre)) d w :=
  same hi rfl

theorem modelCreate {m : Models.Model} (hi : Inv w)
    (hf : FreshIDs i (.inl (.modelCreate m)) d w)
    (hp : ∀ id, i.approves = some id → Models.isPublicSource m.uri ∧ m.scope = .scopePublic ∧
      ∃ u r, w.opened.lookup id = some (u, r) ∧ r.privateURI = m.uri) :
    Keeps authorizer parse i (.inl (.modelCreate m)) d w := by
  show Inv _ ∧ Rely _ _
  cases modelCreate_answer authorizer parse i d w m
  case inl h =>
    have ⟨e, h⟩ := h
    exact same hi (congrArg Prod.snd h)
  case inr h =>
    rw [h]
    have hr : Rely w { w.setModels (w.models.insert m.id (Models.MemoryStore.stamp m d.now)) with
        first     := w.first.insert m.id (Models.MemoryStore.stamp m d.now)
        published := i.approves.toList.map (fun id => (id, Models.MemoryStore.stamp m d.now)) ++
          w.published } :=
      ⟨fun _ _ => Map.lookup_insert_fresh hf, fun _ _ h => h⟩
    have hs := @Finmap.lookup_insert _ _ _ m.id (Models.MemoryStore.stamp m d.now) w.first
    refine ⟨hi.step hr (fun id m' hl => ?_) (fun _ _ => .inl) (fun _ _ _ => .inl) (fun p hl => ?_)
      (fun _ => .inl), hr⟩
    case refine_1 =>
      cases Map.lookup_insert_some hl
      case inr hl => exact .inl hl
      case inl he =>
        obtain ⟨rfl, rfl⟩ := he
        exact .inr ⟨rfl, _, hs, rfl⟩
    case refine_2 =>
      cases List.mem_append.mp hl
      case inr hl => exact .inl hl
      case inl hl =>
        have ⟨id, hid, he⟩ := List.mem_map.mp hl
        subst he
        have ⟨hu, hc, ho⟩ := hp id (by simpa using hid)
        exact .inr ⟨hu, hc, ⟨_, hs, rfl⟩, ho⟩

theorem modelUpdate {id : Str} {f : Models.Model → Except Error Models.Model} (hi : Inv w)
    (hf : ∀ m m₁, f m = .ok m₁ → m₁.id = m.id ∧ m₁.uri = m.uri) :
    Keeps authorizer parse i (.inr (.modelUpdate id f)) d w := by
  show Inv _ ∧ Rely _ _
  cases modelUpdate_answer authorizer parse i d w id f
  case inl h =>
    have ⟨e, h⟩ := h
    exact same hi (congrArg Prod.snd h)
  case inr h =>
    have ⟨m, m₁, hl, hm, h⟩ := h
    rw [h]
    have ⟨hmi, hmu⟩ := hf m m₁ hm
    have ⟨hk, hs⟩ := hi.models id m hl
    refine ⟨hi.step (.of_eq rfl rfl) (fun id' m' hl' => ?_) (fun _ _ => .inl) (fun _ _ _ => .inl)
      (fun _ => .inl) (fun _ => .inl), .of_eq rfl rfl⟩
    cases Map.lookup_insert_some hl'
    case inr hl' => exact .inl hl'
    case inl he =>
      obtain ⟨rfl, rfl⟩ := he
      exact .inr ⟨hmi.trans hk, hmu ▸ hs⟩

theorem modelDelete (id : Str) (hi : Inv w) :
    Keeps authorizer parse i (.inr (.modelDelete id)) d w := by
  show Inv _ ∧ Rely _ _
  cases modelDelete_answer authorizer parse i d w id
  case inl h =>
    have ⟨e, h⟩ := h
    exact same hi (congrArg Prod.snd h)
  case inr h =>
    rw [h]
    exact ⟨hi.step (.of_eq rfl rfl) (fun _ _ hl => .inl (Map.lookup_erase_some hl))
      (fun _ _ => .inl) (fun _ _ _ => .inl) (fun _ => .inl) (fun _ => .inl), .of_eq rfl rfl⟩

theorem requestCreate {r : Publish.Request} {u : User} (hi : Inv w)
    (hf : FreshIDs i (.inl (.requestCreate r)) d w) (hu : i.user = some u)
    (hb : r.requestedBy = u.name) (hs : Sourced r.privateModelID r.privateURI w) :
    Keeps authorizer parse i (.inl (.requestCreate r)) d w := by
  show Inv _ ∧ Rely _ _
  cases requestCreate_answer authorizer parse i d w r
  case inl h =>
    have ⟨e, h⟩ := h
    exact same hi (congrArg Prod.snd h)
  case inr h =>
    rw [h]
    have hr : Rely w
        { w.setRequests (w.requests.insert r.id (Publish.MemoryStore.stamp r d.now)) with
          opened := w.opened.insert r.id (i.user, Publish.MemoryStore.stamp r d.now) } :=
      ⟨fun _ _ h => h, fun _ _ => Map.lookup_insert_fresh hf⟩
    refine ⟨hi.step hr (fun _ _ => .inl) (fun id r' hl => ?_) (fun id u' r' hl => ?_)
      (fun _ => .inl) (fun _ => .inl), hr⟩
    case refine_1 =>
      cases Map.lookup_insert_some hl
      case inr hl => exact .inl hl
      case inl he =>
        obtain ⟨rfl, rfl⟩ := he
        exact .inr ⟨_, _, Finmap.lookup_insert _, rfl, rfl⟩
    case refine_2 =>
      cases Map.lookup_insert_some hl
      case inr hl => exact .inl hl
      case inl he =>
        have ⟨hid, hur⟩ := he
        cases hur
        exact .inr ⟨⟨u, hu, hb⟩, hs.stable hr⟩

theorem requestUpdate {id : Str} {f : Publish.Request → Except Error Publish.Request} (hi : Inv w)
    (hf : ∀ r r₁, f r = .ok r₁ → r₁.privateModelID = r.privateModelID ∧
      r₁.requestedBy = r.requestedBy) :
    Keeps authorizer parse i (.inl (.requestUpdate id f)) d w := by
  show Inv _ ∧ Rely _ _
  cases requestUpdate_answer authorizer parse i d w id f
  case inl h =>
    have ⟨e, h⟩ := h
    exact same hi (congrArg Prod.snd h)
  case inr h =>
    have ⟨r, r₁, hl, hm, h⟩ := h
    rw [h]
    have ⟨hm, hb⟩ := hf r r₁ hm
    have ho := hi.requests id r hl
    refine ⟨hi.step (.of_eq rfl rfl) (fun _ _ => .inl) (fun id' r' hl' => ?_) (fun _ _ _ => .inl)
      (fun _ => .inl) (fun _ => .inl), .of_eq rfl rfl⟩
    cases Map.lookup_insert_some hl'
    case inr hl' => exact .inl hl'
    case inl he =>
      obtain ⟨rfl, rfl⟩ := he
      exact .inr (hm ▸ hb ▸ ho)

theorem requestDelete {id : Str} {u : User} (hi : Inv w) (hu : i.user = some u)
    (ho : u.isPlatformAdmin ∨ OpenedBy id u.name w) :
    Keeps authorizer parse i (.inl (.requestDelete id)) d w := by
  show Inv _ ∧ Rely _ _
  cases requestDelete_answer authorizer parse i d w id
  case inl h =>
    have ⟨e, h⟩ := h
    exact same hi (congrArg Prod.snd h)
  case inr h =>
    rw [h]
    refine ⟨hi.step (.of_eq rfl rfl) (fun _ _ => .inl)
      (fun _ _ hl => .inl (Map.lookup_erase_some hl)) (fun _ _ _ => .inl) (fun _ => .inl)
      (fun p hp => ?_), .of_eq rfl rfl⟩
    cases hp
    case tail hp => exact .inl hp
    case head    => exact .inr ⟨u, hu, ho⟩

end Guar

-- The contract as it is to calls that do not edit models.
abbrev plain (authorizer : Bool) (parse : Str → Except Error (Str × Str)) :=
  (contract authorizer parse).restrict fun _ => (.ret (.ok ()) : Prog ops (Except Error Unit))

abbrev Fresh : Pool.Condition ops Draw World Kind :=
  FreshIDs.restrict

section Calls

variable {i : Kind} {w : World} {u : Option User}

theorem reads_safe {p : Call α} (h : Prog.Only Publish.Reads p) :
    (plain authorizer parse).Safe Fresh i (Ok fun _ _ => True) p w :=
  (Safe.of_only h fun _ hr _ _ hi _ _ => Guar.reads hr hi).mono
    fun _ _ _ => Ok.intro fun _ _ => trivial

theorem newID_safe (pre : Str) :
    (plain authorizer parse).Safe Fresh i (Ok fun _ _ => True) (newID pre) w :=
  Safe.lift <| Safe.perform (fun _ _ hi _ _ => Guar.newID pre hi) fun _ _ _ _ _ _ _ _ => trivial

theorem modelGet_safe (id : Str) :
    (plain authorizer parse).Safe Fresh i (Ok fun m w => m.id = id ∧ Sourced id m.uri w)
      (modelGet id) w := by
  refine Safe.perform (fun _ _ hi _ _ => Guar.reads trivial hi) ?_
  intro w₁ _ hi d _ w₂ hr _
  have hw : ((pool authorizer parse).answer i (.inl (.modelGet id)) d w₁).2 = w₁ :=
    reads_answer trivial
  refine Ok.intro fun m he => ?_
  have ⟨hm, hs⟩ := hi.models id m (modelGet_ok he)
  exact ⟨hm, hs.stable (hw ▸ hr)⟩

theorem requestGet_safe (id : Str) :
    (plain authorizer parse).Safe Fresh i (Ok fun r => Opened id r.privateModelID r.requestedBy)
      (requestGet id) w := by
  refine Safe.perform (fun _ _ hi _ _ => Guar.reads trivial hi) ?_
  intro w₁ _ hi d _ w₂ hr _
  have hw : ((pool authorizer parse).answer i (.inl (.requestGet id)) d w₁).2 = w₁ :=
    reads_answer trivial
  exact Ok.intro fun r he => (hi.requests id r (requestGet_ok he)).stable (hw ▸ hr)

theorem getPrivateForPublish_safe (id : Str) (hi : Inv w) :
    (plain authorizer parse).Safe Fresh i (Ok fun snap w => snap.id = id ∧ Sourced id snap.uri w)
      (Models.getPrivateForPublish authorizer u id) w := by
  refine Safe.seq (modelGet_safe id) hi fun m w₁ _ hi₁ ⟨hm, hs⟩ => ?_
  refine Safe.guard fun _ => ?_
  refine Safe.seq (reads_safe (Publish.gateWrite_reads ..)) hi₁ fun _ w₂ hr₂ _ _ => ?_
  exact Safe.pure fun _ hr _ => ⟨hm, (hs.stable hr₂).stable hr⟩

-- A model that is registered by other calls than `Approve`.
theorem register_safe {m : Models.Model} (ha : i.approves = none) :
    (plain authorizer parse).Safe Fresh i (Ok fun _ _ => True) (modelCreate m) w :=
  Safe.perform (fun _ _ hi _ hf => Guar.modelCreate hi hf fun id hid => by cases ha.symm.trans hid)
    fun _ _ _ _ _ _ _ _ => Ok.intro fun _ _ => trivial

-- It is made after the gate of its scope, of the time and of a new id.
theorem gated_register_safe {scope : Models.Scope} {ns pre : Str} {m : Time → Str → Models.Model}
    (ha : i.approves = none) (hi : Inv w) :
    (plain authorizer parse).Safe Fresh i (Ok fun _ _ => True)
      (do
        Models.gateWrite authorizer u scope ns
        let now ← Hub.now
        let id ← newID pre
        modelCreate (m now id) : Call Models.Model) w := by
  refine Safe.seq (reads_safe (Publish.gateWrite_reads ..)) hi fun _ _ _ hi₁ _ => ?_
  refine Safe.seq (reads_safe Publish.now_reads) hi₁ fun _ _ _ hi₂ _ => ?_
  exact Safe.seq (newID_safe _) hi₂ fun _ _ _ _ _ => register_safe ha

theorem create_safe (req : Models.CreateRequest) (ha : i.approves = none) (hi : Inv w) :
    (plain authorizer parse).Safe Fresh i (Ok fun _ _ => True) (Models.create authorizer u req) w := by
  unfold Models.create
  refine Safe.guard fun _ => ?_
  split
  case h_1 => exact Safe.throw
  case h_2 => exact gated_register_safe ha hi

theorem import_safe (req : Models.ImportRequest) (ha : i.approves = none) (hi : Inv w) :
    (plain authorizer parse).Safe Fresh i (Ok fun _ _ => True)
      (Models.importModel authorizer parse u req) w := by
  unfold Models.importModel
  split
  case h_1 => exact Safe.throw
  case h_2 => exact gated_register_safe ha hi

theorem upload_safe (req : Models.UploadRequest) (ha : i.approves = none) (hi : Inv w) :
    (plain authorizer parse).Safe Fresh i (Ok fun _ _ => True) (Models.upload authorizer u req) w := by
  unfold Models.upload
  refine Safe.guard fun _ => ?_
  split
  case h_1 => exact Safe.throw
  case h_2 => exact gated_register_safe ha hi

theorem gated_reads (id : Str) (need : Bool) :
    Prog.Only Publish.Reads (Models.gated authorizer u id need) := by
  refine Call.only_seq (Prog.Only.perform trivial) fun m => ?_
  split
  case isTrue  => exact Publish.gateWrite_reads ..
  case isFalse => trivial

theorem gated_safe (id : Str) (need : Bool) :
    (contract authorizer parse).Safe FreshIDs i (Ok fun _ _ => True)
      (Models.gated authorizer u id need).lift w :=
  Safe.lift_call (reads_safe (gated_reads ..))

theorem edit_safe {op : edits.Op}
    (h : ∀ w d, Inv w → Guar.Keeps authorizer parse i (.inr op) d w) :
    (contract authorizer parse).Safe FreshIDs i (fun _ _ => True) (@Prog.extra ops edits op) w :=
  fun _ _ hi d _ => ⟨h _ d hi, fun _ _ _ => trivial⟩

theorem patch_safe (id : Str) (req : Models.PatchRequest) (hi : Inv w) :
    (contract authorizer parse).Safe FreshIDs i (Ok fun _ _ => True)
      (Models.patch authorizer u id req) w := by
  refine Safe.seq (gated_safe id _) hi fun _ _ _ _ _ => Safe.ok (edit_safe fun _ _ hi => ?_)
  refine Guar.modelUpdate hi fun m m₁ hm => ?_
  cases hm
  exact ⟨rfl, rfl⟩

theorem delete_safe (id : Str) (hi : Inv w) :
    (contract authorizer parse).Safe FreshIDs i (Ok fun _ _ => True)
      (Models.delete authorizer u id) w :=
  Safe.seq (gated_safe id _) hi fun _ _ _ _ _ =>
    Safe.ok (edit_safe fun _ _ => Guar.modelDelete id)

theorem publishCreate_safe (req : Publish.CreateRequest) (hu : i.user = u) (hi : Inv w) :
    (plain authorizer parse).Safe Fresh i (Ok fun _ _ => True)
      (Publish.create authorizer u req) w := by
  unfold Publish.create
  split
  case h_1 => exact Safe.throw
  case h_2 u =>
    refine Safe.guard fun _ => ?_
    refine Safe.guard fun _ => ?_
    refine Safe.seq (getPrivateForPublish_safe _ hi) hi fun snap w₁ _ hi₁ ⟨hs, hsu⟩ => ?_
    refine Safe.guard fun _ => ?_
    refine Safe.guard fun _ => ?_
    refine Safe.seq (reads_safe (Publish.canWriteNamespace_reads ..)) hi₁
      fun ok w₂ hr₂ hi₂ _ => ?_
    refine Safe.guard fun _ => ?_
    refine Safe.seq (newID_safe _) hi₂ fun id w₃ hr₃ _ _ => ?_
    have hs₃ := (hsu.stable hr₂).stable hr₃
    refine Safe.perform (fun w₄ hr hi d hf => ?_)
      fun _ _ _ _ _ _ _ _ => Ok.intro fun _ _ => trivial
    exact Guar.requestCreate hi hf hu rfl (hs ▸ hs₃.stable hr)

-- The model of a request is created with the URI that was recorded.
theorem createPublicFromRequest_safe {id model name : Str} {u' : Option User}
    {req : Models.PublishCopy} (ha : i.approves = some id) (hi : Inv w)
    (ho : Opened id model name w) (hs : Sourced model req.uri w) :
    (plain authorizer parse).Safe Fresh i (Ok fun _ _ => True)
      (Models.createPublicFromRequest u' req) w := by
  unfold Models.createPublicFromRequest
  refine Safe.guard fun _ => ?_
  split
  case h_1 => exact Safe.throw
  case h_2 scheme _ =>
    refine Safe.guard fun hp => ?_
    refine Safe.seq (reads_safe Publish.now_reads) hi fun now w₁ hr₁ hi₁ _ => ?_
    refine Safe.seq (newID_safe _) hi₁ fun pid w₂ hr₂ hi₂ _ => ?_
    have hs₂ := (hs.stable hr₁).stable hr₂
    have ho₂ := (ho.stable hr₁).stable hr₂
    refine Safe.seq (Q := fun _ _ => True) (Safe.perform (fun w₃ hr hi d hf => ?_)
      fun _ _ _ _ _ _ _ _ => Ok.intro fun _ _ => trivial) hi₂
      fun _ _ _ _ _ => Safe.pure fun _ _ _ => trivial
    refine Guar.modelCreate hi hf fun id' hid => ?_
    cases ha.symm.trans hid
    have ⟨u, r, hl, hm, _⟩ := ho₂.stable hr
    have hu := (hi.opened id u r hl).right
    exact ⟨by simpa [Models.publicModel] using hp, rfl, u, r, hl, (hm ▸ hu).inj (hs₂.stable hr)⟩

theorem approve_safe (id : Str) (body : Publish.ReviewRequest) (ha : i.approves = some id)
    (hi : Inv w) :
    (plain authorizer parse).Safe Fresh i (Ok fun _ _ => True)
      (Publish.approve authorizer u id body) w := by
  unfold Publish.approve
  split
  case h_1 => exact Safe.throw
  case h_2 u =>
    refine Safe.guard fun _ => ?_
    refine Safe.seq (requestGet_safe id) hi fun current w₁ _ hi₁ ho => ?_
    refine Safe.guard fun _ => ?_
    refine Safe.seq (getPrivateForPublish_safe _ hi₁).mapError hi₁
      fun snap w₂ hr₂ hi₂ ⟨_, hs⟩ => ?_
    refine Safe.seq (createPublicFromRequest_safe ha hi₂ (ho.stable hr₂) hs).mapError hi₂
      fun pid w₃ _ hi₃ _ => ?_
    refine Safe.perform (fun _ _ hi _ _ => Guar.requestUpdate hi fun r r₁ hr => ?_)
      fun _ _ _ _ _ _ _ _ => Ok.intro fun _ _ => trivial
    cases hr
    exact ⟨rfl, rfl⟩

theorem reject_safe (id : Str) (body : Publish.ReviewRequest) (hi : Inv w) :
    (plain authorizer parse).Safe Fresh i (Ok fun _ _ => True) (Publish.reject u id body) w := by
  unfold Publish.reject
  split
  case h_1 => exact Safe.throw
  case h_2 u =>
    refine Safe.guard fun _ => ?_
    refine Safe.seq (requestGet_safe id) hi fun current w₁ _ hi₁ _ => ?_
    refine Safe.guard fun _ => ?_
    refine Safe.perform (fun _ _ hi _ _ => Guar.requestUpdate hi fun r r₁ hr => ?_)
      fun _ _ _ _ _ _ _ _ => Ok.intro fun _ _ => trivial
    cases hr
    exact ⟨rfl, rfl⟩

-- A request goes only to an administrator or to a user with the name of the one who opened it.
theorem withdraw_safe (id : Str) (hu : i.user = u) (hi : Inv w) :
    (plain authorizer parse).Safe Fresh i (Ok fun _ _ => True) (Publish.delete u id) w := by
  unfold Publish.delete
  split
  case h_1 => exact Safe.throw
  case h_2 u =>
    refine Safe.seq (requestGet_safe id) hi fun current w₁ _ hi₁ ho => ?_
    refine Safe.guard fun hd => ?_
    refine Safe.perform (fun w₂ hr hi d _ => Guar.requestDelete hi hu ?_)
      fun _ _ _ _ _ _ _ _ => Ok.intro fun _ _ => trivial
    cases ha : u.isPlatformAdmin
    case true  => exact .inl rfl
    case false =>
      have hn : current.requestedBy = u.name := by simp [ha] at hd; exact hd.left
      exact .inr (hn ▸ (ho.stable hr).by hi)

end Calls

theorem contract_keeps : (contract authorizer parse).Keeps FreshIDs := by
  intro i w hi
  cases i
  case create u req      => exact Safe.lift_prog ((create_safe req rfl hi).void hi)
  case importModel u req => exact Safe.lift_prog ((import_safe req rfl hi).void hi)
  case upload u req      => exact Safe.lift_prog ((upload_safe req rfl hi).void hi)
  case patch u id req    => exact (patch_safe id req hi).void hi
  case delete u id       => exact (delete_safe id hi).any
  case publish k =>
    cases k
    case create u req      => exact Safe.lift_prog ((publishCreate_safe req rfl hi).void hi)
    case approve u id body => exact Safe.lift_prog ((approve_safe id body rfl hi).void hi)
    case reject u id body  => exact Safe.lift_prog ((reject_safe id body hi).void hi)
    case delete u id       => exact Safe.lift_prog ((withdraw_safe id rfl hi).any)

-- The services before anything has happened.
def start : Config (ops.extend edits) World Kind (Except Error Unit) where
  world := {
    stores    := { models := ∅, requests := ∅ }
    first     := ∅
    opened    := ∅
    published := []
    withdrawn := []
  }
  calls := []

theorem start_holds : (contract authorizer parse).Holds FreshIDs start where
  inv := {
    models _ _ h    := by cases (Finmap.lookup_empty _).symm.trans h
    requests _ _ h  := by cases (Finmap.lookup_empty _).symm.trans h
    opened _ _ _ h  := by cases (Finmap.lookup_empty _).symm.trans h
    published _ h   := by cases h
    withdrawn _ h   := by cases h
  }
  safe _ h := by cases h

-- A model `m` that was created for the request `id`: it is public, with the URI that was recorded
-- when the request was opened, which is a public source, and whatever is stored under its identifier
-- in the later state `w'` has that URI.
structure AsRequested (w w' : World) (id : Str) (m : Models.Model) : Prop where
  scope    : m.scope = .scopePublic
  source   : Models.isPublicSource m.uri
  recorded : ∃ u r, w.opened.lookup id = some (u, r) ∧ m.uri = r.privateURI
  kept     : ∀ m', w'.models.lookup m.id = some m' → m'.uri = m.uri

theorem approved_as_requested (authorizer : Bool) (parse : Str → Except Error (Str × Str))
    (ps qs : List (Pick Draw Kind)) (h : (pool authorizer parse).Allows FreshIDs (ps ++ qs) start) :
    ∀ p ∈ ((pool authorizer parse).run start ps).world.published,
      AsRequested ((pool authorizer parse).run start ps).world
        ((pool authorizer parse).run start (ps ++ qs)).world p.1 p.2 := by
  intro p hp
  have ⟨h₁, h₂⟩ := Pool.throughout_append.mp h
  have hc₁ := start_holds.run contract_keeps h₁
  have hc₂ := hc₁.run contract_keeps h₂
  have hr := hc₁.run_rely contract_keeps h₂
  have ⟨hs, hc, hu, u, r, ho, he⟩ := hc₁.inv.published p hp
  refine ⟨hc, hs, ⟨u, r, ho, he.symm⟩, fun m' hl => ?_⟩
  rw [Pool.run_append] at hl
  exact (hc₂.inv.models p.2.id m' hl).right.inj (hu.stable hr)

section Fixtures

def root : User where
  subject         := str "root"
  email           := str "root@example.com"
  name            := str "root"
  groups          := []
  isPlatformAdmin := true

def qwen : Models.CreateRequest where
  name          := str "qwen"
  owner         := []
  scope         := .scopePrivate
  ns            := str "team"
  uri           := str "hf://ada/qwen"
  tags          := none
  modelType     := []
  sizeGB        := 0
  readme        := []
  collectionID  := []
  parentModelID := []
  derivedKind   := []
  sourceURL     := []

def draw (n : UInt8) : Draw where
  now      := ⟨1, 0⟩
  random   := #v[0, 0, 0, n]
  writable := .ok true
  failure  := none

def noURL : Str → Except Error (Str × Str) :=
  fun _ => .error (.foreign [])

-- A private model is registered, asked for, approved and deleted.
def approval : List (Pick Draw Kind) :=
  .start (.create root qwen) :: List.replicate 3 (.act 0 (draw 1)) ++
  .start (.publish (.create root ⟨str "m-00000001", str "qwen", [], []⟩)) ::
    List.replicate 3 (.act 1 (draw 2)) ++
  .start (.publish (.approve root (str "pub-00000002") ⟨[]⟩)) ::
    List.replicate 6 (.act 2 (draw 3))

def removal : List (Pick Draw Kind) :=
  .start (.delete root (str "m-00000001")) :: List.replicate 2 (.act 3 (draw 4))

end Fixtures

theorem approved_as_requested_qwen :
    ((pool false noURL).run start approval).world.published.length = 1 ∧
    ∀ p ∈ ((pool false noURL).run start approval).world.published,
      AsRequested ((pool false noURL).run start approval).world
        ((pool false noURL).run start (approval ++ removal)).world p.1 p.2 :=
  ⟨by decide +kernel, approved_as_requested false noURL approval removal (by decide)⟩

end Hub

import Knaic.Effects.Events
import Knaic.Models.Service

open Go Effects

namespace Console.ModelList

open Models Auth

-- The entries that a listing of the scope and namespace is about.
def Covers (scope : Scope) (ns : Str) (m : Model) : Prop :=
  m.scope = scope ∧ (scope = .scopePrivate → m.ns = ns)

instance (scope : Scope) (ns : Str) (m : Model) : Decidable (Covers scope ns m) :=
  inferInstanceAs (Decidable (_ ∧ _))

-- The part of `Partial<ModelItem>` that `updateModel` looks at.
structure ModelPatch where
  readme    : Option Str
  tags      : Option (List Str)
  downloads : Option Int64

inductive Request
  | list (scope : Scope) (ns : Str)
  | create (req : CreateRequest)
  | importURL (req : ImportRequest)
  | patch (id : Str) (req : PatchRequest)
  | delete (id : Str)

inductive Answer
  | listed (scope : Scope) (ns : Str) (items : List Model)
  | listFailed (scope : Scope) (ns : Str)
  | created (m : Model)
  | patched (id : Str) (m : Model)
  | deleted (id : Str)
  | refused

-- What the server has, and how many identifiers it has drawn.
structure Server where
  models : MemoryStore
  drawn  : Nat

-- The clock, and whether the caller is turned away.
structure Draw where
  now    : Time
  refuse : Bool

-- The identifiers that `newID` draws one after the other, `url.Parse`, and the caller.
structure Backend where
  newID : Nat → Str
  parse : Str → Except Error (Str × Str)
  user  : Option User

def Server.add (v : Server) (now : Time) (m : Model) : Answer × Server :=
  match v.models.create m now with
  | .error _       => (.refused, { v with drawn := v.drawn + 1 })
  | .ok (m, store) => (.created m, { models := store, drawn := v.drawn + 1 })

namespace Backend

variable (b : Backend)

-- The handlers of `/api/v1/models`, each from its request to its answer.
def handle (r : Request) (d : Draw) (v : Server) : Answer × Server :=
  match r with
  | .list scope ns    =>
    if d.refuse || (scope = .scopePrivate && ns = []) then (.listFailed scope ns, v)
    else (.listed scope ns (v.models.list scope ns), v)
  | .create req       =>
    if d.refuse || req.name = [] || req.uri = [] then (.refused, v)
    else
      match parseScheme req.uri with
      | .error _   => (.refused, v)
      | .ok scheme => v.add d.now (createdModel b.user req scheme d.now (b.newID v.drawn))
  | .importURL req    =>
    match normaliseImportURL b.parse req.url with
    | .error _        => (.refused, v)
    | .ok (uri, name) =>
      if d.refuse then (.refused, v)
      else
        let scheme := (parseScheme uri).toOption.getD (.unknown [] unknown_nil)
        v.add d.now (importedModel b.user req uri name scheme d.now (b.newID v.drawn))
  | .patch id req     =>
    if d.refuse then (.refused, v)
    else
      match v.models.update id (fun m => .ok (req.on m)) d.now with
      | .error _       => (.refused, v)
      | .ok (m, store) => (.patched id m, { v with models := store })
  | .delete id        =>
    if d.refuse then (.refused, v)
    else
      match v.models.delete id with
      | .error _        => (.refused, v)
      | .ok ((), store) => (.deleted id, { v with models := store })

end Backend

-- The browser and the server, with the requests that the server has not handled yet, and the answers
-- that have not arrived yet in the order in which the server gave them. `created` and `deleted` are
-- not in the source: the models whose creation or deletion has been acknowledged.
structure State where
  server   : Server
  store    : List Model
  loaded   : List (Scope × Str)
  sent     : List Request
  answered : List Answer
  created  : List Str
  deleted  : List Str

inductive Event
  | ensureModelsLoaded (scope : Scope) (ns : Str)
  | reloadModels (scope : Scope) (ns : Str)
  | addModel (req : CreateRequest)
  | importModelFromURL (req : ImportRequest)
  | updateModel (id : Str) (patch : ModelPatch)
  | deleteModel (id : Str)
  | handle (i : Nat) (d : Draw)
  | arrive (i : Nat)

def fillModelDefaults (m : Model) : Model :=
  { m with tags := some (m.tags.getD []) }

namespace State

def send (s : State) (r : Request) : State :=
  { s with sent := s.sent ++ [r] }

def ensureModelsLoaded (s : State) (scope : Scope) (ns : Str) : State :=
  if (scope, ns) ∈ s.loaded then s
  else { s with loaded := (scope, ns) :: s.loaded }.send (.list scope ns)

def forget (s : State) (scope : Scope) (ns : Str) : State :=
  { s with loaded := s.loaded.filter (· ≠ (scope, ns)) }

-- What is sent of a patch, the downloads as their difference to those of the entry.
def apiPatch (s : State) (id : Str) (patch : ModelPatch) : PatchRequest where
  readme        := patch.readme
  tags          := patch.tags.getD []
  incDownloads  := do
    let downloads ← patch.downloads
    let current ← s.store.find? (·.id = id)
    return downloads - current.downloads
  collectionID  := none
  parentModelID := none
  derivedKind   := none
  sourceURL     := none

def updateModel (s : State) (id : Str) (patch : ModelPatch) : State :=
  let req := s.apiPatch id patch
  if req.readme = none && patch.tags = none && req.incDownloads = none then s
  else s.send (.patch id req)

def receive (s : State) : Answer → State
  | .listed scope ns items =>
    { s with store := items.map fillModelDefaults ++ s.store.filter (¬Covers scope ns ·) }
  | .listFailed scope ns   => s.forget scope ns
  | .created m             =>
    { s with store := fillModelDefaults m :: s.store, created := m.id :: s.created }
  | .patched id m          =>
    { s with store := s.store.map fun e => if e.id = id then fillModelDefaults m else e }
  | .deleted id            =>
    { s with store := s.store.filter (·.id ≠ id), deleted := id :: s.deleted }
  | .refused               => s

def step (b : Backend) (s : State) : Event → State
  | .ensureModelsLoaded scope ns => s.ensureModelsLoaded scope ns
  | .reloadModels scope ns       => (s.forget scope ns).ensureModelsLoaded scope ns
  | .addModel req                => s.send (.create req)
  | .importModelFromURL req      => s.send (.importURL req)
  | .updateModel id patch        => s.updateModel id patch
  | .deleteModel id              => s.send (.delete id)
  | .handle i d                  =>
    match s.sent[i]? with
    | none   => s
    | some r =>
      { s with
        sent     := s.sent.eraseIdx i
        answered := s.answered ++ [(b.handle r d s.server).1]
        server   := (b.handle r d s.server).2 }
  | .arrive i                    =>
    match s.answered[i]? with
    | none   => s
    | some a => { s with answered := s.answered.eraseIdx i }.receive a

end State

-- The answers of which the second must not come before the first.
def Passes : Answer → Answer → Prop
  | .created m, .listed _ _ items       => m.id ∈ items.map Model.id
  | .created m, .deleted id             => m.id = id
  | .listed scope ns _, .created m      => Covers scope ns m
  | .listed _ _ items, .deleted id      => id ∈ items.map Model.id
  | _, _                                => False

instance : (e a : Answer) → Decidable (Passes e a)
  | .created m, .listed _ _ items       => inferInstanceAs (Decidable (m.id ∈ items.map Model.id))
  | .created m, .deleted id             => inferInstanceAs (Decidable (m.id = id))
  | .listed scope ns _, .created m      => inferInstanceAs (Decidable (Covers scope ns m))
  | .listed _ _ items, .deleted id      => inferInstanceAs (Decidable (id ∈ items.map Model.id))
  | .created _, .created _ | .created _, .listFailed _ _ | .created _, .patched _ _ | .created _, .refused
  | .listed _ _ _, .listed _ _ _ | .listed _ _ _, .listFailed _ _ | .listed _ _ _, .patched _ _
  | .listed _ _ _, .refused | .listFailed _ _, _ | .patched _ _, _ | .deleted _, _ | .refused, _ =>
    isFalse id

-- An answer that arrives passes none that the server gave before it and that is still under way.
def InOrder (s : State) : Event → Prop
  | .arrive i => ∀ a ∈ s.answered[i]?, ∀ e ∈ s.answered.take i, ¬Passes e a
  | _         => True

instance (s : State) : (e : Event) → Decidable (InOrder s e)
  | .arrive i =>
    inferInstanceAs (Decidable (∀ a ∈ s.answered[i]?, ∀ e ∈ s.answered.take i, ¬Passes e a))
  | .ensureModelsLoaded _ _ | .reloadModels _ _ | .addModel _ | .importModelFromURL _
  | .updateModel _ _ | .deleteModel _ | .handle _ _ => isTrue trivial

structure Consistent (s : State) : Prop where
  once    : (s.store.map Model.id).Nodup
  settled : s.sent = [] → s.answered = [] →
              (∀ id ∈ s.deleted, id ∉ s.store.map Model.id) ∧
              ∀ id ∈ s.created, id ∉ s.deleted → id ∈ s.store.map Model.id

-- The browser at its start, before a server that draws no identifier twice.
def start (v : Server) : State where
  server   := v
  store    := []
  loaded   := []
  sent     := []
  answered := []
  created  := []
  deleted  := []

-- The identifier is none that is still to be drawn.
def Known (b : Backend) (v : Server) (id : Str) : Prop :=
  ∀ k, v.drawn ≤ k → b.newID k ≠ id

structure Sound (b : Backend) (v : Server) : Prop where
  fresh : ∀ j k, b.newID j = b.newID k → j = k
  keys  : ∀ id m, v.models.lookup id = some m → m.id = id ∧ Known b v id

def Has (v : Server) (id : Str) : Prop :=
  (v.models.lookup id).isSome

-- What an answer says of the models, given the slot of each model: it is an earlier truth.
def Told (b : Backend) (v : Server) (slot : Str → Scope × Str) : Answer → Prop
  | .listed scope ns items =>
    (items.map Model.id).Nodup ∧
    ∀ m ∈ items, Covers scope ns m ∧ Known b v m.id ∧ (m.scope, m.ns) = slot m.id
  | .created m             => Known b v m.id ∧ (m.scope, m.ns) = slot m.id
  | .patched id m          => m.id = id ∧ Known b v id ∧ (m.scope, m.ns) = slot m.id
  | .deleted id            => Known b v id ∧ ¬Has v id
  | _                      => True

-- What the server gave as its second answer follows from the first.
def Later (v : Server) : Answer → Answer → Prop
  | .created m, .listed scope ns items => Has v m.id → Covers scope ns m → m.id ∈ items.map Model.id
  | .created m, .created m'            => m.id ≠ m'.id
  | .deleted id, .listed _ _ items     => id ∉ items.map Model.id
  | .deleted id, .created m            => m.id ≠ id
  | .listed _ _ items, .created m      => m.id ∉ items.map Model.id
  | _, _                               => True

-- A model of the slot.
def InSlot (scope : Scope) (ns : Str) (slot : Scope × Str) : Prop :=
  slot.1 = scope ∧ (scope = .scopePrivate → slot.2 = ns)

structure Inv (b : Backend) (slot : Str → Scope × Str) (s : State) : Prop where
  sound   : Sound b s.server
  server  : ∀ id m, s.server.models.lookup id = some m → (m.scope, m.ns) = slot id
  once    : (s.store.map Model.id).Nodup
  store   : ∀ m ∈ s.store, Known b s.server m.id ∧ (m.scope, m.ns) = slot m.id
  told    : ∀ a ∈ s.answered, Told b s.server slot a
  later   : s.answered.Pairwise (Later s.server)
  unseen  : ∀ m, .created m ∈ s.answered →
              m.id ∉ s.store.map Model.id ∧ m.id ∉ s.deleted ∧ m.id ∉ s.created
  lasting : ∀ m, .created m ∈ s.answered → ¬Has s.server m.id → .deleted m.id ∈ s.answered
  deleted : ∀ id ∈ s.deleted, id ∉ s.store.map Model.id ∧ ¬Has s.server id ∧ Known b s.server id ∧
              ∀ scope ns items, .listed scope ns items ∈ s.answered → id ∉ items.map Model.id
  created : ∀ id ∈ s.created, Known b s.server id ∧
              (Has s.server id → id ∈ s.store.map Model.id ∧
                ∀ scope ns items, .listed scope ns items ∈ s.answered → InSlot scope ns (slot id) →
                  id ∈ items.map Model.id) ∧
              (¬Has s.server id → id ∈ s.deleted ∨ .deleted id ∈ s.answered)

theorem Inv.consistent {b : Backend} {slot : Str → Scope × Str} {s : State} (h : Inv b slot s) :
    Consistent s where
  once := h.once
  settled _ ha := by
    refine ⟨fun id hd => (h.deleted id hd).left, fun id hc hd => ?_⟩
    obtain ⟨-, hin, hout⟩ := h.created id hc
    by_cases hh : Has s.server id
    case pos => exact (hin hh).left
    case neg =>
      obtain hdel | hdel := hout hh
      case inl => exact absurd hdel hd
      case inr =>
        rw [ha] at hdel
        cases hdel

@[simp]
theorem fill_id (m : Model) : (fillModelDefaults m).id = m.id :=
  rfl

theorem ids_fill (items : List Model) :
    (items.map fillModelDefaults).map Model.id = items.map Model.id := by
  rw [List.map_map]
  rfl

section Arrival

variable {b : Backend} {slot : Str → Scope × Str} {s : State} {pre post : List Answer} {a e : Answer}

theorem covers_iff {scope : Scope} {ns id : Str} {m : Model} (hm : (m.scope, m.ns) = slot id) :
    Covers scope ns m ↔ InSlot scope ns (slot id) := by
  rw [← hm, Covers, InSlot]

theorem mem_rest (ha : s.answered = pre ++ a :: post) (he : e ∈ pre ++ post) : e ∈ s.answered := by
  rw [ha]
  obtain he | he := List.mem_append.mp he
  case inl => exact List.mem_append_left _ he
  case inr => exact List.mem_append_right _ (.tail _ he)

theorem mem_here (ha : s.answered = pre ++ a :: post) : a ∈ s.answered := by
  rw [ha]
  exact List.mem_append_right _ (.head _)

theorem mem_other (ha : s.answered = pre ++ a :: post) (he : e ∈ s.answered) (hn : e ≠ a) :
    e ∈ pre ++ post := by
  rw [ha] at he
  obtain he | he := List.mem_append.mp he
  case inl => exact List.mem_append_left _ he
  case inr => exact List.mem_append_right _ (List.mem_of_ne_of_mem hn he)

theorem later_rest (ha : s.answered = pre ++ a :: post) (h : s.answered.Pairwise (Later s.server)) :
    (pre ++ post).Pairwise (Later s.server) ∧ (∀ e ∈ pre, Later s.server e a) ∧
      ∀ e ∈ post, Later s.server a e := by
  rw [ha, List.pairwise_append, List.pairwise_cons] at h
  obtain ⟨hpre, ⟨hpost, hposts⟩, hcross⟩ := h
  refine ⟨List.pairwise_append.mpr ⟨hpre, hposts, fun x hx y hy => hcross x hx y (.tail _ hy)⟩, ?_, hpost⟩
  exact fun x hx => hcross x hx a (.head _)

-- What holds of the answers stays when one of them has gone that is no deletion.
theorem Inv.drop (h : Inv b slot s) (ha : s.answered = pre ++ a :: post)
    (hn : ∀ id, a ≠ .deleted id) : Inv b slot { s with answered := pre ++ post } where
  sound   := h.sound
  server  := h.server
  once    := h.once
  store   := h.store
  told    := fun e he => h.told e (mem_rest ha he)
  later   := (later_rest ha h.later).left
  unseen  := fun m hm => h.unseen m (mem_rest ha hm)
  lasting := fun m hm hh => mem_other ha (h.lasting m (mem_rest ha hm) hh) (hn _).symm
  deleted id hd := by
    obtain ⟨hs, hh, hk, hl⟩ := h.deleted id hd
    exact ⟨hs, hh, hk, fun _ _ _ hm => hl _ _ _ (mem_rest ha hm)⟩
  created id hc := by
    obtain ⟨hk, hin, hout⟩ := h.created id hc
    refine ⟨hk, fun hh => ⟨(hin hh).left, fun _ _ _ hm => (hin hh).right _ _ _ (mem_rest ha hm)⟩, fun hh => ?_⟩
    exact (hout hh).imp_right fun hd => mem_other ha hd (hn _).symm

theorem Inv.receive_created {m : Model} (h : Inv b slot s) (ha : s.answered = pre ++ .created m :: post)
    (hp : ∀ e ∈ pre, ¬Passes e (.created m)) :
    Inv b slot ({ s with answered := pre ++ post }.receive (.created m)) := by
  have hd := h.drop ha fun _ he => by cases he
  obtain ⟨hseen, hdel, hcre⟩ := h.unseen m (mem_here ha)
  obtain ⟨hk, hslot⟩ := h.told _ (mem_here ha)
  obtain ⟨-, hpre, hpost⟩ := later_rest ha h.later
  constructor
  case sound  => exact h.sound
  case server => exact h.server
  case told   => exact hd.told
  case later  => exact hd.later
  case once   => exact List.nodup_cons.mpr ⟨hseen, h.once⟩
  case store  =>
    intro m' hm'
    cases hm'
    case head    => exact ⟨hk, hslot⟩
    case tail ht => exact h.store m' ht
  case unseen =>
    intro m' hm'
    obtain ⟨hs', hd', hc'⟩ := hd.unseen m' hm'
    have hne : m'.id ≠ m.id := by
      obtain he | he := List.mem_append.mp hm'
      case inl => exact hpre _ he
      case inr => exact fun heq => hpost _ he heq.symm
    exact ⟨List.not_mem_cons_of_ne_of_not_mem hne hs', hd', List.not_mem_cons_of_ne_of_not_mem hne hc'⟩
  case lasting => exact hd.lasting
  case deleted =>
    intro id hi
    obtain ⟨hs', hh, hk', hl⟩ := hd.deleted id hi
    exact ⟨List.not_mem_cons_of_ne_of_not_mem (fun he => hdel (he ▸ hi)) hs', hh, hk', hl⟩
  case created =>
    intro id hi
    cases hi
    case tail ht =>
      obtain ⟨hk', hin, hout⟩ := hd.created id ht
      exact ⟨hk', fun hh => ⟨.tail _ (hin hh).left, (hin hh).right⟩, hout⟩
    case head =>
      refine ⟨hk, fun hh => ⟨.head _, fun scope ns items hl hc => ?_⟩, fun hh => .inr ?_⟩
      case refine_1 =>
        have hcov : Covers scope ns m := (covers_iff hslot).mpr hc
        obtain hl | hl := List.mem_append.mp hl
        case inl => exact absurd hcov (hp _ hl)
        case inr => exact hpost _ hl hh hcov
      case refine_2 => exact mem_other ha (h.lasting m (mem_here ha) hh) fun he => by cases he

theorem Inv.receive_listed {scope : Scope} {ns : Str} {items : List Model} (h : Inv b slot s)
    (ha : s.answered = pre ++ .listed scope ns items :: post)
    (hp : ∀ e ∈ pre, ¬Passes e (.listed scope ns items)) :
    Inv b slot ({ s with answered := pre ++ post }.receive (.listed scope ns items)) := by
  have hd := h.drop ha fun _ he => by cases he
  obtain ⟨hnodup, hitems⟩ := h.told _ (mem_here ha)
  obtain ⟨-, hpre, hpost⟩ := later_rest ha h.later
  have hids : ∀ id, id ∈ (items.map fillModelDefaults ++ s.store.filter (¬Covers scope ns ·)).map Model.id →
      id ∈ items.map Model.id ∨ id ∈ s.store.map Model.id := by
    intro id hi
    rw [List.map_append, ids_fill] at hi
    exact (List.mem_append.mp hi).imp_right fun hm => (List.filter_sublist.map _).subset hm
  constructor
  case sound   => exact h.sound
  case server  => exact h.server
  case told    => exact hd.told
  case later   => exact hd.later
  case lasting => exact hd.lasting
  case once =>
    simp only [State.receive, List.map_append, ids_fill]
    refine List.nodup_append.mpr ⟨hnodup, h.once.sublist (List.filter_sublist.map _), ?_⟩
    -- An entry of the same identifier is of the same slot, and has gone.
    intro id hi id' hi' he
    obtain ⟨m, hm, rfl⟩ := List.mem_map.mp hi
    obtain ⟨m', hm', rfl⟩ := List.mem_map.mp hi'
    obtain ⟨hs', hnc⟩ := List.mem_filter.mp hm'
    obtain ⟨hc, -, hsl⟩ := hitems m hm
    have hsl' := (h.store m' hs').right
    rw [covers_iff (hsl.trans (congrArg slot he))] at hc
    exact of_decide_eq_true hnc ((covers_iff hsl').mpr hc)
  case store  =>
    intro m' hm'
    obtain hm' | hm' := List.mem_append.mp hm'
    case inl =>
      obtain ⟨m, hm, rfl⟩ := List.mem_map.mp hm'
      exact (hitems m hm).right
    case inr => exact h.store m' (List.mem_of_mem_filter hm')
  case unseen =>
    intro m' hm'
    obtain ⟨hs', hd', hc'⟩ := hd.unseen m' hm'
    refine ⟨fun hi => ?_, hd', hc'⟩
    obtain hi | hi := hids _ hi
    case inr => exact hs' hi
    case inl =>
      obtain he | he := List.mem_append.mp hm'
      case inl => exact hp _ he hi
      case inr => exact hpost _ he hi
  case deleted =>
    intro id hi
    obtain ⟨hs', hh, hk', hl⟩ := hd.deleted id hi
    refine ⟨fun hm => ?_, hh, hk', hl⟩
    obtain hm | hm := hids _ hm
    case inl => exact (h.deleted id hi).right.right.right _ _ _ (mem_here ha) hm
    case inr => exact hs' hm
  case created =>
    intro id hi
    obtain ⟨hk', hin, hout⟩ := hd.created id hi
    refine ⟨hk', fun hh => ⟨?_, (hin hh).right⟩, hout⟩
    obtain ⟨m', hm', rfl⟩ := List.mem_map.mp (hin hh).left
    simp only [State.receive, List.map_append, ids_fill]
    by_cases hc : Covers scope ns m'
    case pos =>
      have hsl := (covers_iff (h.store m' hm').right).mp hc
      exact List.mem_append_left _ (((h.created _ hi).right.left hh).right _ _ _ (mem_here ha) hsl)
    case neg =>
      refine List.mem_append_right _ (List.mem_map.mpr ⟨m', List.mem_filter.mpr ⟨hm', ?_⟩, rfl⟩)
      exact decide_eq_true hc

theorem Inv.receive_patched {id : Str} {m : Model} (h : Inv b slot s)
    (ha : s.answered = pre ++ .patched id m :: post) :
    Inv b slot ({ s with answered := pre ++ post }.receive (.patched id m)) := by
  have hd := h.drop ha fun _ he => by cases he
  obtain ⟨hid, -, hslot⟩ := h.told _ (mem_here ha)
  have hids : (s.store.map fun e => if e.id = id then fillModelDefaults m else e).map Model.id =
      s.store.map Model.id := by
    rw [List.map_map]
    refine List.map_congr_left fun e _ => ?_
    by_cases he : e.id = id <;> simp [he, hid]
  constructor
  case sound   => exact h.sound
  case server  => exact h.server
  case told    => exact hd.told
  case later   => exact hd.later
  case lasting => exact hd.lasting
  case once    => exact hids ▸ h.once
  case unseen  => exact fun m' hm' => hids ▸ hd.unseen m' hm'
  case deleted => exact fun id' hi => hids ▸ hd.deleted id' hi
  case created => exact fun id' hi => hids ▸ hd.created id' hi
  case store   =>
    intro m' hm'
    obtain ⟨e, he, rfl⟩ := List.mem_map.mp hm'
    obtain ⟨hk, hsl⟩ := h.store e he
    split
    case isFalse      => exact ⟨hk, hsl⟩
    case isTrue heq =>
      have hme : m.id = e.id := hid.trans heq.symm
      exact ⟨hme ▸ hk, hslot⟩

theorem Inv.receive_deleted {id : Str} (h : Inv b slot s)
    (ha : s.answered = pre ++ .deleted id :: post) (hp : ∀ e ∈ pre, ¬Passes e (.deleted id)) :
    Inv b slot ({ s with answered := pre ++ post }.receive (.deleted id)) := by
  obtain ⟨hk, hgone⟩ := h.told _ (mem_here ha)
  obtain ⟨hrest, hpre, hpost⟩ := later_rest ha h.later
  have hsub : (s.store.filter (·.id ≠ id)).map Model.id ⊆ s.store.map Model.id :=
    (List.filter_sublist.map _).subset
  -- No creation of the model is under way any more.
  have hcre : ∀ m, .created m ∈ pre ++ post → m.id ≠ id := by
    intro m hm
    obtain hm | hm := List.mem_append.mp hm
    case inl => exact hp _ hm
    case inr => exact hpost _ hm
  constructor
  case sound  => exact h.sound
  case server => exact h.server
  case once   => exact h.once.sublist (List.filter_sublist.map _)
  case store  => exact fun m' hm' => h.store m' (List.mem_of_mem_filter hm')
  case told   => exact fun e he => h.told e (mem_rest ha he)
  case later  => exact hrest
  case unseen =>
    intro m hm
    obtain ⟨hs', hd', hc'⟩ := h.unseen m (mem_rest ha hm)
    exact ⟨fun hi => hs' (hsub hi), List.not_mem_cons_of_ne_of_not_mem (hcre m hm) hd', hc'⟩
  case lasting =>
    intro m hm hh
    refine mem_other ha (h.lasting m (mem_rest ha hm) hh) fun he => hcre m hm ?_
    injection he
  case deleted =>
    intro id' hi
    cases hi
    case tail ht =>
      obtain ⟨hs', hh, hk', hl⟩ := h.deleted id' ht
      exact ⟨fun hm => hs' (hsub hm), hh, hk', fun _ _ _ hm => hl _ _ _ (mem_rest ha hm)⟩
    case head =>
      refine ⟨fun hm => ?_, hgone, hk, fun scope ns items hl hm => ?_⟩
      case refine_1 =>
        obtain ⟨m, hm, he⟩ := List.mem_map.mp hm
        exact of_decide_eq_true (List.mem_filter.mp hm).right he
      case refine_2 =>
        obtain hl | hl := List.mem_append.mp hl
        case inl => exact hp _ hl hm
        case inr => exact hpost _ hl hm
  case created =>
    intro id' hi
    obtain ⟨hk', hin, hout⟩ := h.created id' hi
    refine ⟨hk', fun hh => ⟨?_, fun _ _ _ hm => (hin hh).right _ _ _ (mem_rest ha hm)⟩, fun hh => ?_⟩
    case refine_1 =>
      obtain ⟨m, hm, rfl⟩ := List.mem_map.mp (hin hh).left
      refine List.mem_map.mpr ⟨m, List.mem_filter.mpr ⟨hm, decide_eq_true fun he => hgone ?_⟩, rfl⟩
      exact he ▸ hh
    case refine_2 =>
      by_cases he : id' = id
      case pos => exact .inl (he ▸ .head _)
      case neg =>
        refine (hout hh).imp (.tail _) fun hd => mem_other ha hd fun heq => he ?_
        injection heq

-- The answers that change nothing that is shown.
theorem Inv.forget (h : Inv b slot s) (scope : Scope) (ns : Str) : Inv b slot (s.forget scope ns) :=
  ⟨h.sound, h.server, h.once, h.store, h.told, h.later, h.unseen, h.lasting, h.deleted, h.created⟩

theorem Inv.receive (h : Inv b slot s) (ha : s.answered = pre ++ a :: post)
    (hp : ∀ e ∈ pre, ¬Passes e a) : Inv b slot ({ s with answered := pre ++ post }.receive a) := by
  cases a
  case listed     => exact h.receive_listed ha hp
  case created    => exact h.receive_created ha hp
  case patched    => exact h.receive_patched ha
  case deleted    => exact h.receive_deleted ha hp
  case listFailed => exact (h.drop ha fun _ he => by cases he).forget _ _
  case refused    => exact h.drop ha fun _ he => by cases he

end Arrival

section Handling

variable {b : Backend} {slot slot' : Str → Scope × Str} {s : State} {v' : Server} {a : Answer}

theorem Inv.requests (h : Inv b slot s) (sent : List Request) (loaded : List (Scope × Str)) :
    Inv b slot { s with sent, loaded } :=
  ⟨h.sound, h.server, h.once, h.store, h.told, h.later, h.unseen, h.lasting, h.deleted, h.created⟩

-- What the server may do while it handles a request: the models that are known keep their slots, and
-- none of them comes back.
structure Handles (b : Backend) (slot slot' : Str → Scope × Str) (v v' : Server) (a : Answer) : Prop where
  sound  : Sound b v'
  server : ∀ id m, v'.models.lookup id = some m → (m.scope, m.ns) = slot' id
  slots  : ∀ id, Known b v id → slot' id = slot id
  known  : ∀ id, Known b v id → Known b v' id
  has    : ∀ id, Known b v id → Has v' id → Has v id
  gone   : ∀ id, Known b v id → Has v id → ¬Has v' id → a = .deleted id
  told   : Told b v' slot' a
  fresh  : ∀ m, a = .created m → ¬Known b v m.id ∧ Has v' m.id
  listed : ∀ scope ns items, a = .listed scope ns items →
             ∀ id, id ∈ items.map Model.id ↔ Has v' id ∧ InSlot scope ns (slot' id)

theorem Told.mono {v : Server} (h : Told b v slot a) (hs : ∀ id, Known b v id → slot' id = slot id)
    (hk : ∀ id, Known b v id → Known b v' id) (hh : ∀ id, Known b v id → Has v' id → Has v id) :
    Told b v' slot' a := by
  cases a
  case listed scope ns items =>
    refine ⟨h.left, fun m hm => ?_⟩
    obtain ⟨hc, hkn, hsl⟩ := h.right m hm
    exact ⟨hc, hk _ hkn, hsl.trans (hs _ hkn).symm⟩
  case created m    => exact ⟨hk _ h.left, h.right.trans (hs _ h.left).symm⟩
  case patched id m =>
    obtain ⟨hid, hkn, hsl⟩ := h
    exact ⟨hid, hk _ hkn, hsl.trans (hs _ (hid ▸ hkn)).symm⟩
  case deleted id   => exact ⟨hk _ h.left, fun hg => h.right (hh _ h.left hg)⟩
  all_goals trivial

theorem Inv.later_answer (h : Inv b slot s) (hd : Handles b slot slot' s.server v' a) :
    ∀ e ∈ s.answered, Later v' e a := by
  intro e he
  have ht := h.told e he
  cases e
  case created m =>
    cases a
    case listed scope ns items =>
      intro hh hc
      refine (hd.listed scope ns items rfl m.id).mpr ⟨hh, ?_⟩
      rw [hd.slots _ ht.left]
      exact (covers_iff ht.right).mp hc
    case created m' => exact fun heq => (hd.fresh m' rfl).left (heq ▸ ht.left)
    all_goals trivial
  case deleted id =>
    cases a
    case listed scope ns items =>
      exact fun hm => ht.right (hd.has _ ht.left ((hd.listed scope ns items rfl id).mp hm).left)
    case created m => exact fun heq => (hd.fresh m rfl).left (heq ▸ ht.left)
    all_goals trivial
  case listed scope ns items =>
    cases a
    case created m =>
      intro hm
      obtain ⟨m', hm', he'⟩ := List.mem_map.mp hm
      exact (hd.fresh m rfl).left (he' ▸ (ht.right m' hm').right.left)
    all_goals trivial
  all_goals cases a <;> trivial

theorem Inv.later_kept (h : Inv b slot s) (hd : Handles b slot slot' s.server v' a) :
    s.answered.Pairwise (Later v') := by
  refine h.later.imp_of_mem fun {e e'} he he' hl => ?_
  have ht := h.told e he
  cases e
  case created m =>
    cases e'
    case listed => exact fun hh hc => hl (hd.has _ ht.left hh) hc
    all_goals exact hl
  all_goals cases e' <;> exact hl

theorem Inv.serve (h : Inv b slot s) (hd : Handles b slot slot' s.server v' a) :
    Inv b slot' { s with answered := s.answered ++ [a], server := v' } where
  sound  := hd.sound
  server := hd.server
  once   := h.once
  store  := by
    intro m hm
    obtain ⟨hk, hsl⟩ := h.store m hm
    exact ⟨hd.known _ hk, hsl.trans (hd.slots _ hk).symm⟩
  told   := by
    intro e he
    obtain he | he := List.mem_append.mp he
    case inl => exact (h.told e he).mono hd.slots hd.known hd.has
    case inr => rw [List.mem_singleton.mp he]; exact hd.told
  later  := by
    refine List.pairwise_append.mpr ⟨h.later_kept hd, List.pairwise_singleton .., fun e he a' ha => ?_⟩
    rw [List.mem_singleton.mp ha]
    exact h.later_answer hd e he
  unseen := by
    intro m hm
    obtain hm | hm := List.mem_append.mp hm
    case inl => exact h.unseen m hm
    case inr =>
      have hn := (hd.fresh m (List.mem_singleton.mp hm).symm).left
      refine ⟨fun hs => ?_, fun hs => hn (h.deleted _ hs).right.right.left, fun hs => hn (h.created _ hs).left⟩
      obtain ⟨m', hm', he⟩ := List.mem_map.mp hs
      exact hn (he ▸ (h.store m' hm').left)
  lasting := by
    intro m hm hh
    obtain hm | hm := List.mem_append.mp hm
    case inr => exact absurd (hd.fresh m (List.mem_singleton.mp hm).symm).right hh
    case inl =>
      by_cases hv : Has s.server m.id
      case pos => rw [hd.gone _ (h.told _ hm).left hv hh]; exact List.mem_append_right _ (.head _)
      case neg => exact List.mem_append_left _ (h.lasting m hm hv)
  deleted id hi := by
    obtain ⟨hs, hg, hk, hl⟩ := h.deleted id hi
    have hg' : ¬Has v' id := fun hh => hg (hd.has _ hk hh)
    refine ⟨hs, hg', hd.known _ hk, fun scope ns items hm => ?_⟩
    obtain hm | hm := List.mem_append.mp hm
    case inl => exact hl _ _ _ hm
    case inr =>
      exact fun hi' => hg' ((hd.listed _ _ _ (List.mem_singleton.mp hm).symm id).mp hi').left
  created id hi := by
    obtain ⟨hk, hin, hout⟩ := h.created id hi
    refine ⟨hd.known _ hk, fun hh => ⟨(hin (hd.has _ hk hh)).left, fun scope ns items hm hs => ?_⟩, fun hh => ?_⟩
    case refine_1 =>
      obtain hm | hm := List.mem_append.mp hm
      case inl => exact (hin (hd.has _ hk hh)).right _ _ _ hm (hd.slots _ hk ▸ hs)
      case inr => exact (hd.listed _ _ _ (List.mem_singleton.mp hm).symm id).mpr ⟨hh, hs⟩
    case refine_2 =>
      by_cases hv : Has s.server id
      case pos => rw [hd.gone _ hk hv hh]; exact .inr (List.mem_append_right _ (.head _))
      case neg => exact (hout hv).imp_right (List.mem_append_left _)

end Handling

section Server

variable {b : Backend} {slot : Str → Scope × Str} {v : Server} {now : Time}

-- An answer that tells nothing.
def Quiet : Answer → Prop
  | .listFailed _ _ | .refused => True
  | _                          => False

theorem mem_list {scope : Scope} {ns : Str} {m : Model} :
    m ∈ v.models.list scope ns ↔ (∃ id, v.models.lookup id = some m) ∧ Covers scope ns m := by
  rw [MemoryStore.list, Map.mem_sorted, Covers]
  simp [imp_iff_not_or]

theorem nodup_list {scope : Scope} {ns : Str} (hv : Sound b v) :
    ((v.models.list scope ns).map Model.id).Nodup := by
  have hvals : (Map.values v.models).Nodup := by
    refine (Map.nodup_keyList v.models).filterMap fun k k' m hm hm' => ?_
    exact (hv.keys k m hm).left.symm.trans (hv.keys k' m hm').left
  refine List.Nodup.map_on (fun m hm m' hm' he => ?_)
    ((List.perm_insertionSort ..).nodup_iff.mpr (hvals.filter _))
  obtain ⟨⟨id, hl⟩, -⟩ := mem_list.mp hm
  obtain ⟨⟨id', hl'⟩, -⟩ := mem_list.mp hm'
  obtain ⟨rfl, -⟩ := hv.keys id m hl
  obtain ⟨rfl, -⟩ := hv.keys id' m' hl'
  rw [he] at hl
  exact Option.some.inj (hl.symm.trans hl')

variable (hv : Sound b v) (hs : ∀ id m, v.models.lookup id = some m → (m.scope, m.ns) = slot id)
include hv hs

theorem handles_quiet {a : Answer} {n : Nat} (hn : v.drawn ≤ n) (hq : Quiet a) :
    Handles b slot slot v { v with drawn := n } a where
  sound  := ⟨hv.fresh, fun id m hl => ⟨(hv.keys id m hl).left, fun k hk => (hv.keys id m hl).right k (hn.trans hk)⟩⟩
  server := hs
  slots  := fun _ _ => rfl
  known  := fun _ hk k hnk => hk k (hn.trans hnk)
  has    := fun _ _ hh => hh
  gone   := fun _ _ hh hn => absurd hh hn
  told   := by cases a <;> first | exact hq.elim | trivial
  fresh  := by
    rintro m rfl
    exact hq.elim
  listed := by
    rintro scope ns items rfl
    exact hq.elim

theorem handles_list (scope : Scope) (ns : Str) :
    Handles b slot slot v v (.listed scope ns (v.models.list scope ns)) where
  sound  := hv
  server := hs
  slots  := fun _ _ => rfl
  known  := fun _ hk => hk
  has    := fun _ _ hh => hh
  gone   := fun _ _ hh hn => absurd hh hn
  told   := by
    refine ⟨nodup_list hv, fun m hm => ?_⟩
    obtain ⟨⟨id, hl⟩, hc⟩ := mem_list.mp hm
    obtain ⟨rfl, hk⟩ := hv.keys id m hl
    exact ⟨hc, hk, hs _ m hl⟩
  fresh  := by
    rintro m he
    cases he
  listed := by
    rintro _ _ _ he id
    cases he
    constructor
    case mp =>
      intro hi
      obtain ⟨m, hm, rfl⟩ := List.mem_map.mp hi
      obtain ⟨⟨id, hl⟩, hc⟩ := mem_list.mp hm
      obtain ⟨rfl, -⟩ := hv.keys id m hl
      exact ⟨by rw [Has, hl]; rfl, (covers_iff (hs _ m hl)).mp hc⟩
    case mpr =>
      rintro ⟨hh, hsl⟩
      obtain ⟨m, hl⟩ := Option.isSome_iff_exists.mp hh
      refine List.mem_map.mpr ⟨m, mem_list.mpr ⟨⟨id, hl⟩, (covers_iff (hs id m hl)).mpr hsl⟩, ?_⟩
      exact (hv.keys id m hl).left

-- The new model has an identifier of its own.
theorem handles_add {m : Model} (hm : m.id = b.newID v.drawn) :
    ∃ slot', Handles b slot slot' v (v.add now m).2 (v.add now m).1 := by
  unfold Server.add
  split
  case h_1 => exact ⟨slot, handles_quiet hv hs (Nat.le_succ _) trivial⟩
  case h_2 m' store hc =>
    obtain ⟨-, rfl, rfl⟩ := MemoryStore.create_ok hc
    have hne : ∀ id, Known b v id → id ≠ m.id := fun id hk he => hk _ (Nat.le_refl _) (hm ▸ he.symm)
    have hnew : Known b ⟨v.models.insert m.id (MemoryStore.stamp m now), v.drawn + 1⟩ m.id := by
      intro k hk he
      have := hv.fresh _ _ (he.trans hm)
      simp only at hk
      omega
    refine ⟨Function.update slot m.id (m.scope, m.ns), ?_⟩
    constructor
    case sound =>
      refine ⟨hv.fresh, fun id e hl => ?_⟩
      obtain ⟨rfl, rfl⟩ | hl := Map.lookup_insert_some hl
      case inl => exact ⟨rfl, hnew⟩
      case inr => exact ⟨(hv.keys id e hl).left, fun k hk => (hv.keys id e hl).right k (Nat.le_of_succ_le hk)⟩
    case server =>
      intro id e hl
      obtain ⟨rfl, rfl⟩ | hl := Map.lookup_insert_some hl
      case inl => rw [Function.update_self]; rfl
      case inr => rw [Function.update_of_ne (hne _ (hv.keys id e hl).right)]; exact hs id e hl
    case slots => exact fun id hk => Function.update_of_ne (hne id hk) _ _
    case known => exact fun id hk k hnk => hk k (Nat.le_of_succ_le hnk)
    case has =>
      intro id hk hh
      rwa [Has, Finmap.lookup_insert_of_ne _ (hne id hk)] at hh
    case gone =>
      intro id hk hh hn
      rw [Has, Finmap.lookup_insert_of_ne _ (hne id hk)] at hn
      exact absurd hh hn
    case told =>
      have hself : Function.update slot m.id (m.scope, m.ns) m.id = (m.scope, m.ns) := Function.update_self ..
      exact ⟨hnew, hself.symm⟩
    case fresh =>
      intro m' he
      cases he
      refine ⟨fun hk => hne _ hk rfl, ?_⟩
      rw [Has]
      exact Option.isSome_iff_exists.mpr ⟨_, Finmap.lookup_insert _⟩
    case listed =>
      intro _ _ _ he
      cases he

theorem handles_patch {id : Str} {req : PatchRequest} {m : Model} {store : MemoryStore}
    (h : v.models.update id (fun m => .ok (req.on m)) now = .ok (m, store)) :
    Handles b slot slot v { v with models := store } (.patched id m) := by
  obtain ⟨m₀, m₁, hl, hf, hm, rfl⟩ := MemoryStore.update_ok h
  obtain ⟨hid, hk⟩ := hv.keys id m₀ hl
  have hsl := hs id m₀ hl
  cases hf
  have hid' : m.id = id := by rw [hm]; exact hid
  have hsl' : (m.scope, m.ns) = slot id := by rw [hm]; exact hsl
  have hhas : ∀ id', Has { v with models := v.models.insert id m } id' ↔ Has v id' := by
    intro id'
    simp only [Has]
    by_cases he : id' = id
    case pos => rw [he, Finmap.lookup_insert, hl]; rfl
    case neg => rw [Finmap.lookup_insert_of_ne _ he]
  constructor
  case sound =>
    refine ⟨hv.fresh, fun id' e hl' => ?_⟩
    obtain ⟨rfl, rfl⟩ | hl' := Map.lookup_insert_some hl'
    case inl => exact ⟨hid', hk⟩
    case inr => exact hv.keys id' e hl'
  case server =>
    intro id' e hl'
    obtain ⟨rfl, rfl⟩ | hl' := Map.lookup_insert_some hl'
    case inl => exact hsl'
    case inr => exact hs id' e hl'
  case slots  => exact fun _ _ => rfl
  case known  => exact fun _ hk => hk
  case has    => exact fun _ _ => (hhas _).mp
  case gone   => exact fun _ _ hh hn => absurd ((hhas _).mpr hh) hn
  case told   => exact ⟨hid', hid'.symm ▸ hk, hid'.symm ▸ hsl'⟩
  case fresh  => intro _ he; cases he
  case listed => intro _ _ _ he; cases he

theorem handles_delete {id : Str} {store : MemoryStore}
    (h : v.models.delete id = .ok ((), store)) :
    Handles b slot slot v { v with models := store } (.deleted id) := by
  have hfound : ∃ m, v.models.lookup id = some m := by
    unfold MemoryStore.delete at h
    split at h
    case isTrue hi  => exact Option.isSome_iff_exists.mp hi
    case isFalse => cases h
  obtain ⟨m, hl⟩ := hfound
  obtain rfl := MemoryStore.delete_ok h
  have hgone : ¬Has { v with models := v.models.erase id } id := by
    rw [Has, Finmap.lookup_erase]
    exact fun hn => by cases hn
  have hhas : ∀ id', id' ≠ id → (Has { v with models := v.models.erase id } id' ↔ Has v id') := by
    intro id' he
    rw [Has, Has, Finmap.lookup_erase_ne he]
  constructor
  case sound  => exact ⟨hv.fresh, fun id' e hl' => hv.keys id' e (Map.lookup_erase_some hl')⟩
  case server => exact fun id' e hl' => hs id' e (Map.lookup_erase_some hl')
  case slots  => exact fun _ _ => rfl
  case known  => exact fun _ hk => hk
  case has =>
    intro id' _ hh
    by_cases he : id' = id
    case pos => exact absurd (he ▸ hh) hgone
    case neg => exact (hhas id' he).mp hh
  case gone =>
    intro id' _ hh hn
    by_cases he : id' = id
    case pos => rw [he]
    case neg => exact absurd ((hhas id' he).mpr hh) hn
  case told   => exact ⟨(hv.keys id m hl).right, hgone⟩
  case fresh  => intro _ he; cases he
  case listed => intro _ _ _ he; cases he

theorem handles (r : Request) (d : Draw) :
    ∃ slot', Handles b slot slot' v (b.handle r d v).2 (b.handle r d v).1 := by
  have hquiet : ∀ a, Quiet a → ∃ slot', Handles b slot slot' v v a :=
    fun a hq => ⟨slot, handles_quiet hv hs (Nat.le_refl _) hq⟩
  cases r
  case list scope ns =>
    simp only [Backend.handle]
    split
    case isTrue  => exact hquiet _ trivial
    case isFalse => exact ⟨slot, handles_list hv hs scope ns⟩
  case create req =>
    simp only [Backend.handle]
    split
    case isTrue  => exact hquiet _ trivial
    case isFalse =>
      split
      case h_1 => exact hquiet _ trivial
      case h_2 => exact handles_add hv hs rfl
  case importURL req =>
    simp only [Backend.handle]
    split
    case h_1 => exact hquiet _ trivial
    case h_2 =>
      split
      case isTrue  => exact hquiet _ trivial
      case isFalse => exact handles_add hv hs rfl
  case patch id req =>
    simp only [Backend.handle]
    split
    case isTrue  => exact hquiet _ trivial
    case isFalse =>
      split
      case h_1        => exact hquiet _ trivial
      case h_2 m st h => exact ⟨slot, handles_patch hv hs h⟩
  case delete id =>
    simp only [Backend.handle]
    split
    case isTrue  => exact hquiet _ trivial
    case isFalse =>
      split
      case h_1      => exact hquiet _ trivial
      case h_2 st h => exact ⟨slot, handles_delete hv hs h⟩

end Server

section Runs

variable {b : Backend} {s : State}

theorem Inv.step {e : Event} (h : ∃ slot, Inv b slot s) (ha : InOrder s e) :
    ∃ slot, Inv b slot (s.step b e) := by
  obtain ⟨slot, h⟩ := h
  cases e
  case ensureModelsLoaded scope ns =>
    refine ⟨slot, ?_⟩
    simp only [State.step, State.ensureModelsLoaded]
    split
    case isTrue  => exact h
    case isFalse => exact h.requests _ _
  case reloadModels scope ns =>
    refine ⟨slot, ?_⟩
    simp only [State.step, State.ensureModelsLoaded]
    split
    case isTrue  => exact h.forget _ _
    case isFalse => exact (h.forget scope ns).requests _ _
  case addModel           => exact ⟨slot, h.requests _ _⟩
  case importModelFromURL => exact ⟨slot, h.requests _ _⟩
  case deleteModel        => exact ⟨slot, h.requests _ _⟩
  case updateModel id patch =>
    refine ⟨slot, ?_⟩
    simp only [State.step, State.updateModel]
    split
    case isTrue  => exact h
    case isFalse => exact h.requests _ _
  case handle i d =>
    simp only [State.step]
    split
    case h_1 => exact ⟨slot, h⟩
    case h_2 r hr =>
      obtain ⟨slot', hd⟩ := handles h.sound h.server r d
      exact ⟨slot', (h.serve hd).requests _ _⟩
  case arrive i =>
    simp only [State.step]
    split
    case h_1 => exact ⟨slot, h⟩
    case h_2 a hi =>
      obtain ⟨hlt, hget⟩ := List.getElem?_eq_some_iff.mp hi
      have hsplit : s.answered = s.answered.take i ++ a :: s.answered.drop (i + 1) := by
        rw [← hget, List.getElem_cons_drop, List.take_append_drop]
      rw [List.eraseIdx_eq_take_drop_succ]
      exact ⟨slot, h.receive hsplit (ha a hi)⟩

theorem inv_start {v : Server} (hv : Sound b v) : ∃ slot, Inv b slot (start v) := by
  refine ⟨fun id => ((v.models.lookup id).map fun m => (m.scope, m.ns)).getD (.scopePublic, []), ?_⟩
  constructor
  case sound  => exact hv
  case server =>
    intro id m hl
    have hl' : v.models.lookup id = some m := hl
    rw [hl']
    rfl
  case once   => exact List.nodup_nil
  case later  => exact .nil
  all_goals
    intro x hx
    cases hx

end Runs

theorem models_consistent (b : Backend) {v : Server} (hv : Sound b v) {es : List Event}
    (h : Events.Taken (State.step b) InOrder (start v) es) :
    Events.Reached (State.step b) Consistent (start v) es := by
  refine (h.reached (inv_start hv) fun _ _ => Inv.step).mono fun s hs => ?_
  obtain ⟨slot, hs⟩ := hs
  exact hs.consistent

-- A server without models whose identifiers are numbers.

def numbered : Backend where
  newID := decimal
  parse := fun raw => .error (.foreign raw)
  user  := none

def emptyServer : Server where
  models := ∅
  drawn  := 0

theorem emptyServer_sound : Sound numbered emptyServer where
  fresh _ _ h := decimal_inj.mp h
  keys  _ _ h := by cases h

def tiny : CreateRequest where
  name          := str "tiny"
  owner         := []
  scope         := .scopePublic
  ns            := []
  uri           := str "hf://a/tiny"
  tags          := none
  modelType     := []
  sizeGB        := 0
  readme        := []
  collectionID  := []
  parentModelID := []
  derivedKind   := []
  sourceURL     := []

-- A listing that sees the new model, the two answers one after the other or the other way round.
def listedAfterCreation (first second : Nat) : List Event :=
  [
    .addModel tiny, .ensureModelsLoaded .scopePublic [], .handle 0 ⟨Time.zero, false⟩,
    .handle 0 ⟨Time.zero, false⟩, .arrive first, .arrive second
  ]

theorem models_consistent_inTurn :
    Events.Reached (State.step numbered) Consistent (start emptyServer) (listedAfterCreation 0 0) :=
  models_consistent numbered emptyServer_sound (by decide)

theorem models_doubled :
    ¬∀ (b : Backend) (v : Server), Sound b v → ∀ es,
      Events.Reached (State.step b) Consistent (start v) es := by
  intro h
  have hl := (h numbered emptyServer emptyServer_sound (listedAfterCreation 1 0)).last.once
  revert hl
  decide

end Console.ModelList

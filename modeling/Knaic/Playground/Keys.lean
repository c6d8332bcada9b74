import Knaic.Playground.Service

open Go Effects

namespace Playground

inductive Action
  | createProvider (req : ProviderRequest)
  | patchProvider (id : Str) (patch : ProviderPatch)
  | deleteProvider (id : Str)
  | chat (req : ChatRequest)
  | streamChat (req : ChatRequest)

structure Request (υ : Type) where
  user   : υ
  action : Action

-- The state of the service, and who has written which keys and endpoints so far.
structure World (υ : Type) where
  state   : State
  given   : List (υ × Str)
  pointed : List (υ × Str)

variable {υ : Type}

namespace World

def give (w : World υ) (user : υ) : Option Str → World υ
  | none     => w
  | some key => { w with given := (user, key) :: w.given }

def point (w : World υ) (user : υ) : Option Str → World υ
  | none          => w
  | some endpoint => { w with pointed := (user, endpoint.trimRight 47) :: w.pointed }

def record (w : World υ) (user : υ) (op : ops.Op) (r : ops.Res op) : World υ :=
  match op, r with
  | .create req, _       => (w.give user req.apiKey).point user req.endpoint
  | .patch _ patch, .ok _ => (w.give user patch.apiKey).point user patch.endpoint
  | _, _                 => w

end World

variable (s : Service)

-- The pool of all calls of any number of users.
def pool : Pool ops Draw (World υ) (Request υ) (Except Error Unit) where
  answer i op d w :=
    let a := s.answer op d w.state
    (a.1, { w with state := a.2 }.record i.user op a.1)
  env _ w := w
  code i :=
    match i.action with
    | .createProvider req      => (s.createProvider req).void
    | .patchProvider id patch  => (Service.patchProvider id patch).void
    | .deleteProvider id       => Service.deleteProvider id
    | .chat req                => (s.chat req).void
    | .streamChat req          => (s.streamChat req).void

-- Some user has written both the key and the endpoint.
def Both (given pointed : List (υ × Str)) (key endpoint : Str) : Prop :=
  ∃ g ∈ given, g.2 = key ∧ (g.1, endpoint) ∈ pointed

-- A key is sent only to an endpoint of a user who has given it.
def Sent : Pool.Condition ops Draw (World υ) (Request υ) :=
  fun _ op _ w =>
    match op with
    | .send req =>
      ∀ auth ∈ req.authorization, ∃ g ∈ w.given, auth = str "Bearer " ++ g.2 ∧
      ∃ p ∈ w.pointed, p.1 = g.1 ∧
        (req.url = p.2 ++ str "/models" ∨ req.url = p.2 ++ str "/chat/completions")
    | _         => True

-- A patch of the key alone or of the endpoint alone does not bring together a key and an endpoint
-- that no user has written both of.
def Paired : Pool.Condition ops Draw (World υ) (Request υ) :=
  fun i op _ w =>
    match op with
    | .patch id patch =>
      match w.state.providers.lookup id, patch.apiKey, patch.endpoint with
      | some p, some key, none      => key = [] ∨ Both ((i.user, key) :: w.given) w.pointed key p.endpoint
      | some p, none, some endpoint =>
        p.apiKey = [] ∨
        Both w.given ((i.user, endpoint.trimRight 47) :: w.pointed) p.apiKey (endpoint.trimRight 47)
      | _, _, _                     => True
    | _               => True

section Decidable

variable [DecidableEq υ] (i : Request υ) (op : ops.Op) (d : Draw) (w : World υ)

instance (given pointed : List (υ × Str)) (key endpoint : Str) :
    Decidable (Both given pointed key endpoint) :=
  inferInstanceAs (Decidable (∃ g ∈ given, g.2 = key ∧ (g.1, endpoint) ∈ pointed))

instance : Decidable (Sent i op d w) := by
  unfold Sent
  split <;> infer_instance

instance : Decidable (Paired i op d w) := by
  unfold Paired
  split
  case h_1 => split <;> infer_instance
  case h_2 => infer_instance

end Decidable

-- The key and the endpoint of a provider have been written by one user.
def Owned (w : World υ) (p : Provider) : Prop :=
  p.apiKey ≠ [] → Both w.given w.pointed p.apiKey p.endpoint

theorem Both.mono {given given' pointed pointed' : List (υ × Str)} {key endpoint : Str}
    (h : Both given pointed key endpoint) (hg : given ⊆ given') (hp : pointed ⊆ pointed') :
    Both given' pointed' key endpoint := by
  have ⟨g, hm, hk, he⟩ := h
  exact ⟨g, hg hm, hk, hp he⟩

-- What has been written stays written.
structure Grows (w w' : World υ) : Prop where
  given   : w.given ⊆ w'.given
  pointed : w.pointed ⊆ w'.pointed

theorem Grows.refl (w : World υ) : Grows w w :=
  ⟨List.Subset.refl _, List.Subset.refl _⟩

theorem Grows.trans {w₁ w₂ w₃ : World υ} (h₁ : Grows w₁ w₂) (h₂ : Grows w₂ w₃) : Grows w₁ w₃ :=
  ⟨List.Subset.trans h₁.given h₂.given, List.Subset.trans h₁.pointed h₂.pointed⟩

theorem Grows.owned {w w' : World υ} {p : Provider} (h : Grows w w') (hp : Owned w p) : Owned w' p :=
  fun hk => (hp hk).mono h.given h.pointed

namespace World

variable {w : World υ} {user : υ}

theorem give_grows (w : World υ) (user : υ) (key : Option Str) : Grows w (w.give user key) where
  given   := by cases key <;> simp [give]
  pointed := by cases key <;> simp [give]

theorem point_grows (w : World υ) (user : υ) (endpoint : Option Str) :
    Grows w (w.point user endpoint) where
  given   := by cases endpoint <;> simp [point]
  pointed := by cases endpoint <;> simp [point]

theorem record_grows (w : World υ) (user : υ) (op : ops.Op) (r : ops.Res op) :
    Grows w (w.record user op r) := by
  unfold record
  split
  case h_3 => exact .refl w
  all_goals exact (give_grows ..).trans (point_grows ..)

@[simp]
theorem record_state (w : World υ) (user : υ) (op : ops.Op) (r : ops.Res op) :
    (w.record user op r).state = w.state := by
  unfold record
  split <;> first | rfl | (simp only [give, point]; split <;> split <;> rfl)

end World

theorem answer_grows (i : Request υ) (op : ops.Op) (d : Draw) (w : World υ) :
    Grows w ((pool s).answer i op d w).2 := by
  have h := World.record_grows { w with state := (s.answer op d w.state).2 } i.user op
    (s.answer op d w.state).1
  exact ⟨h.given, h.pointed⟩

-- Every provider in the state is owned.
def AllOwned (w : World υ) : Prop :=
  ∀ id p, w.state.providers.lookup id = some p → Owned w p

variable {s}

-- A step that leaves the providers as they are or takes one away.
theorem AllOwned.of_sub {i : Request υ} {op : ops.Op} {d : Draw} {w : World υ} (h : AllOwned w)
    (hs : ∀ id p, (s.answer op d w.state).2.providers.lookup id = some p →
      w.state.providers.lookup id = some p) :
    AllOwned ((pool s).answer i op d w).2 := by
  intro id p hp
  exact (answer_grows s i op d w).owned (h id p (hs id p (by simpa [pool] using hp)))

-- A step that puts in one provider, which is owned afterwards.
theorem AllOwned.of_insert {i : Request υ} {op : ops.Op} {d : Draw} {w : World υ} {id : Str}
    {p : Provider} (h : AllOwned w)
    (hs : (s.answer op d w.state).2.providers = w.state.providers.insert id p)
    (hp : Owned ((pool s).answer i op d w).2 p) : AllOwned ((pool s).answer i op d w).2 := by
  intro id' p' hl
  have hl : (w.state.providers.insert id p).lookup id' = some p' := by
    rw [← hs]
    simpa [pool] using hl
  cases Go.Map.lookup_insert_some hl
  case inl he => exact he.right ▸ hp
  case inr ho => exact (answer_grows s i op d w).owned (h id' p' ho)

theorem create_owned {i : Request υ} {req : ProviderRequest} {d : Draw} {w : World υ} :
    Owned ((pool s).answer i (.create req) d w).2 (.ofRequest req (w.state.counter + 1)) := by
  intro _
  refine ⟨(i.user, req.apiKey), ?_, rfl, ?_⟩
  all_goals simp [pool, World.record, World.give, World.point, Provider.ofRequest]

-- What a patch makes of the key and the endpoint.
theorem applyPatch_ok {p p' : Provider} {patch : ProviderPatch} (h : s.applyPatch p patch = .ok p') :
    p'.apiKey = patch.apiKey.getD p.apiKey ∧
    p'.endpoint = (patch.endpoint.map fun e => e.trimRight 47).getD p.endpoint := by
  unfold Service.applyPatch at h
  cases he : patch.endpoint
  case none =>
    simp only [he, pure_bind] at h
    cases h
    exact ⟨rfl, rfl⟩
  case some e =>
    cases hp : s.parseRequestURI e
    case error => simp [he, hp] at h; cases h
    case ok    => simp only [he, hp, pure_bind] at h; cases h; exact ⟨rfl, rfl⟩

theorem patch_owned {i : Request υ} {id : Str} {patch : ProviderPatch} {d : Draw} {w : World υ}
    {p p' : Provider} (h : AllOwned w) (hp : Paired i (.patch id patch) d w)
    (hl : w.state.providers.lookup id = some p) (hs : s.applyPatch p patch = .ok p') :
    Owned ((pool s).answer i (.patch id patch) d w).2 p' := by
  have ⟨hk, he⟩ := applyPatch_ok hs
  intro hn
  rw [hk] at hn
  rw [hk, he]
  have hw : ((pool s).answer i (.patch id patch) d w).2.given = (w.give i.user patch.apiKey).given ∧
      ((pool s).answer i (.patch id patch) d w).2.pointed = (w.point i.user patch.endpoint).pointed := by
    cases hpk : patch.apiKey <;> cases hpe : patch.endpoint
    all_goals simp [pool, Service.answer, hl, hs, World.record, World.give, World.point, hpk, hpe]
  rw [hw.left, hw.right]
  simp only [Paired, hl] at hp
  cases hpk : patch.apiKey
  case none =>
    simp only [hpk, Option.getD_none] at hn hp ⊢
    cases hpe : patch.endpoint
    case none   => exact h id p hl hn
    case some e => simpa [hpe, hn, World.give, World.point] using hp
  case some key =>
    simp only [hpk, Option.getD_some] at hn hp ⊢
    cases hpe : patch.endpoint
    case none   => simpa [hpe, hn, World.give, World.point] using hp
    case some e => exact ⟨(i.user, key), .head _, rfl, .head _⟩

theorem AllOwned.answer {i : Request υ} {op : ops.Op} {d : Draw} {w : World υ} (h : AllOwned w)
    (hp : Paired i op d w) : AllOwned ((pool s).answer i op d w).2 := by
  cases op
  case create req => exact h.of_insert rfl create_owned
  case patch id patch =>
    cases hl : w.state.providers.lookup id
    case none   => exact h.of_sub fun _ _ ho => by simpa [Service.answer, hl] using ho
    case some p =>
      cases hs : s.applyPatch p patch
      case error e => exact h.of_sub fun _ _ ho => by simpa [Service.answer, hl, hs] using ho
      case ok p'   =>
        have hi : (s.answer (.patch id patch) d w.state).2.providers =
            w.state.providers.insert id p' := by simp [Service.answer, hl, hs]
        exact h.of_insert hi (patch_owned h hp hl hs)
  case delete id =>
    cases hl : w.state.providers.lookup id
    case none => exact h.of_sub fun _ _ ho => by simpa [Service.answer, hl] using ho
    case some =>
      exact h.of_sub fun _ _ ho => Go.Map.lookup_erase_some (by simpa [Service.answer, hl] using ho)
  case cachedModels id =>
    refine h.of_sub fun _ _ ho => ?_
    cases hl : w.state.modelCache.lookup id <;> simpa [Service.answer, hl] using ho
  all_goals exact h.of_sub fun _ _ ho => ho

def contract (s : Service) : Contract (pool s : Pool ops Draw (World υ) _ _) where
  inv             := AllOwned
  rely            := Grows
  guar i op d w   := Sent i op d w ∧ Paired i op d w
  refl            := .refl
  trans           := .trans
  guar_inv h hw   := hw.answer h.right
  guar_rely _ _   := answer_grows ..
  env_inv h       := h
  env_rely _      := .refl _

section Calls

open Contract

variable {i : Request υ} {w : World υ}

-- An operation that sends nothing.
theorem quiet_safe {op : Op} (hop : ∀ req, op ≠ .send req) :
    (contract s).Safe Paired i (fun _ _ => True) (perform op) w := by
  refine Safe.perform (fun _ _ _ _ hp => ⟨?_, hp⟩) fun _ _ _ _ _ _ _ _ => trivial
  cases op
  case send req => exact absurd rfl (hop req)
  all_goals trivial

-- A request to a provider with its key.
theorem send_safe {p : Provider} {req : HTTPRequest} (hp : Owned w p)
    (ha : req.authorization = Service.bearer p)
    (hu : req.url = p.endpoint ++ str "/models" ∨ req.url = p.endpoint ++ str "/chat/completions") :
    (contract s).Safe Paired i (fun _ _ => True) (perform (.send req)) w := by
  refine Safe.perform (fun w₁ hr _ d hpr => ⟨fun auth hm => ?_, hpr⟩) fun _ _ _ _ _ _ _ _ => trivial
  rw [ha, Service.bearer] at hm
  split at hm
  case isFalse   => cases hm
  case isTrue hn =>
    cases hm
    have ⟨g, hg, hk, he⟩ := hr.owned hp hn
    exact ⟨g, hg, by rw [hk], _, he, rfl, hu⟩

theorem providerForChat_safe (id : Str) (hw : AllOwned w) :
    (contract s).Safe Paired i (Ok fun p w => Owned w p) (Service.providerForChat id) w := by
  unfold Service.providerForChat
  refine Safe.guard fun _ => ?_
  have hf : (contract s).Safe Paired i (fun r w => ∀ p, r = some p → Owned w p)
      (perform (.provider id)) w :=
    Safe.perform (fun _ _ _ _ hp => ⟨trivial, hp⟩)
      fun _ _ hw _ _ _ hr _ p hp => hr.owned (((answer_grows ..).owned (hw id p hp)))
  refine Safe.seq hf.lift hw fun found w₁ _ _ hf => ?_
  split
  case h_1   => exact Safe.throw
  case h_2 p =>
    exact Safe.guard fun _ => Safe.pure fun _ hr _ => hr.owned (hf p rfl)

theorem fetchUpstreamModels_safe {p : Provider} (hp : Owned w p) (hw : AllOwned w) :
    (contract s).Safe Paired i (Ok fun _ _ => True) (s.fetchUpstreamModels p) w := by
  refine Safe.seq (Safe.of_except _) hw fun _ w₁ hr hw₁ _ => ?_
  refine Safe.seq (send_safe (hr.owned hp) rfl (.inl rfl)).ok hw₁ fun res w₂ _ hw₂ _ => ?_
  refine Safe.guard fun _ => ?_
  exact Safe.seq (Safe.of_except _) hw₂ fun _ _ _ _ _ => Safe.pure fun _ _ _ => trivial

theorem modelsFor_safe {p : Provider} (hp : Owned w p) (hw : AllOwned w) :
    (contract s).Safe Paired i (Ok fun _ _ => True) (s.modelsFor p) w := by
  refine Safe.seq (Safe.lift (quiet_safe nofun)) hw fun cached w₁ hr₁ hw₁ _ => ?_
  split
  case h_1 => exact Safe.pure fun _ _ _ => trivial
  case h_2 =>
    refine Safe.seq (fetchUpstreamModels_safe (hr₁.owned hp) hw₁).any.lift hw₁
      fun fetched w₂ _ hw₂ _ => ?_
    split
    case h_3 =>
      exact Safe.seq (Safe.lift (quiet_safe nofun)) hw₂ fun _ _ _ _ _ => Safe.pure fun _ _ _ => trivial
    all_goals exact Safe.pure fun _ _ _ => trivial

theorem resolveModel_safe {p : Provider} (hp : Owned w p) (hw : AllOwned w) :
    (contract s).Safe Paired i (Ok fun _ _ => True) (s.resolveModel p) w := by
  refine Safe.seq (modelsFor_safe hp hw) hw fun models _ _ _ _ => ?_
  split <;> exact Safe.pure fun _ _ _ => trivial

theorem newChatHTTPRequest_ok {p : Provider} {model : Str} {req : ChatRequest} {stream : Bool}
    {r : HTTPRequest} (h : s.newChatHTTPRequest p model req stream = .ok r) :
    r.authorization = Service.bearer p ∧ r.url = p.endpoint ++ str "/chat/completions" := by
  simp only [Service.newChatHTTPRequest] at h
  split at h
  case isTrue  => cases h
  case isFalse =>
    cases hp : s.parse (p.endpoint ++ str "/chat/completions")
    case error => rw [hp] at h; cases h
    case ok    => rw [hp] at h; cases h; exact ⟨rfl, rfl⟩

theorem complete_safe (req : ChatRequest) (stream : Bool) (hw : AllOwned w) :
    (contract s).Safe Paired i (Ok fun _ _ => True) (s.complete req stream) w := by
  refine Safe.seq (providerForChat_safe req.providerID hw) hw fun p w₁ _ hw₁ hp => ?_
  refine Safe.seq (resolveModel_safe hp hw₁) hw₁ fun model w₂ hr₂ hw₂ _ => ?_
  have hn : (contract s).Safe Paired i
      (Ok fun r _ => r.authorization = Service.bearer p ∧ r.url = p.endpoint ++ str "/chat/completions")
      (ExceptT.mk (pure (s.newChatHTTPRequest p model req stream)) : Call HTTPRequest) w₂ :=
    fun _ _ _ => Ok.intro fun _ => newChatHTTPRequest_ok
  refine Safe.seq hn hw₂ fun r w₃ hr₃ hw₃ hq => ?_
  have ho := (hr₂.trans hr₃).owned hp
  refine Safe.seq (send_safe ho hq.left (.inr hq.right)).ok hw₃ fun res _ _ _ _ => ?_
  exact Safe.guard fun _ => Safe.pure fun _ _ _ => trivial

theorem chat_safe (req : ChatRequest) (hw : AllOwned w) :
    (contract s).Safe Paired i (Ok fun _ _ => True) (s.chat req) w := by
  refine Safe.seq (complete_safe req false hw) hw fun res w₁ _ hw₁ _ => ?_
  refine Safe.seq (Safe.of_except _) hw₁ fun choices _ _ _ _ => ?_
  split
  case h_1 => exact Safe.throw
  case h_2 => exact Safe.pure fun _ _ _ => trivial

theorem streamChat_safe (req : ChatRequest) (hw : AllOwned w) :
    (contract s).Safe Paired i (Ok fun _ _ => True) (s.streamChat req) w :=
  Safe.seq (complete_safe req true hw) hw fun _ _ _ _ _ => Safe.pure fun _ _ _ => trivial

theorem createProvider_safe (req : ProviderRequest) (hw : AllOwned w) :
    (contract s).Safe Paired i (Ok fun _ _ => True) (s.createProvider req) w := by
  unfold Service.createProvider
  refine Safe.guard fun _ => ?_
  dsimp only
  split
  case h_1 => exact Safe.throw
  case h_2 =>
    exact Safe.seq (Safe.lift (quiet_safe nofun)) hw fun _ _ _ _ _ => Safe.pure fun _ _ _ => trivial

theorem patchProvider_safe (id : Str) (patch : ProviderPatch) (hw : AllOwned w) :
    (contract s).Safe Paired i (Ok fun _ _ => True) (Service.patchProvider id patch) w :=
  Safe.seq (Safe.ok (quiet_safe nofun)) hw fun _ _ _ _ _ => Safe.pure fun _ _ _ => trivial

end Calls

theorem contract_keeps : (contract s : Contract (pool s : Pool ops Draw (World υ) _ _)).Keeps Paired := by
  intro i w hw
  obtain ⟨user, action⟩ := i
  cases action
  case createProvider req     => exact (createProvider_safe req hw).void hw
  case patchProvider id patch => exact (patchProvider_safe id patch hw).void hw
  case deleteProvider id      => exact Contract.Safe.any (quiet_safe nofun)
  case chat req               => exact (chat_safe req hw).void hw
  case streamChat req         => exact (streamChat_safe req hw).void hw

-- The service as `NewService` makes it.
def initial : World υ where
  state   := ⟨∅, 0, ∅⟩
  given   := []
  pointed := []

-- A user creates a provider, and a user moves its endpoint before he chats over it.
section Takeover

def standard : Service where
  parseRequestURI _ := .ok ()
  parse _           := .ok ()
  decodeModels _    := .ok []
  decodeChoices _   := .ok [⟨str "assistant", str "Hello."⟩]

def calm : Draw where
  now      := ⟨1, 0⟩
  response := .ok ⟨200, [], []⟩

def hosted : ProviderRequest where
  name        := str "hosted"
  source      := []
  ns          := []
  endpoint    := str "https://llm.example/v1"
  apiKey      := str "sk-1"
  model       := str "large"
  description := []
  status      := []

def moved : ProviderPatch where
  name        := none
  source      := none
  ns          := none
  endpoint    := some (str "https://relay.example/v1/")
  apiKey      := none
  model       := none
  description := none
  status      := none

def hello : ChatRequest where
  providerID  := str "llm-000001"
  messages    := [⟨str "user", str "Hello?"⟩]
  temperature := none
  maxTokens   := none

def takeover (mover : Bool) : List (Pick Draw (Request Bool)) := [
  .start ⟨true, .createProvider hosted⟩, .act 0 calm,
  .start ⟨mover, .patchProvider (str "llm-000001") moved⟩, .act 1 calm,
  .start ⟨mover, .chat hello⟩, .act 2 calm, .act 2 calm, .act 2 calm, .act 2 calm
]

end Takeover
end Playground

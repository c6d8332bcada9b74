import Knaic.Effects.Extend
import Knaic.Go.Json
import Knaic.Go.Sort
import Knaic.Go.Utf8
import Knaic.Playground.Keys

open Go Effects

namespace Playground

-- A request for a chat completion whose body is passed on as it was read, up to the model.
structure ProxyRequest where
  url           : Str
  contentType   : Str
  accept        : Str
  authorization : Option Str
  body          : Entries Json

-- What the proxy writes to its client: an error of its own, or what the provider has answered.
inductive ProxyResponse
  | failed (code : Nat) (err : Error)
  | copied (res : HTTPResponse)

abbrev upstream : Signature where
  Op     := ProxyRequest
  Res _  := Except Error HTTPResponse

structure OpenAIProxy where
  svc        : Service
  decodeBody : Str → Except Error (Entries Json)

-- The key of a provider in the catalogue.
def Provider.key (p : Provider) : Str :=
  p.id ++ str "/" ++ p.model

structure ConfigModel where
  name     : Str
  toolCall : Bool

-- The models in the configuration of opencode.
def configModels (providers : List Provider) : Entries ConfigModel :=
  let providers := providers.insertionSort fun a b => a.id ≤ b.id
  let models := providers.foldl (fun (models : Entries ConfigModel) p =>
    models.set (p.id ++ str "/" ++ p.model) ⟨p.name ++ str " — " ++ p.model, false⟩) []
  match models with
  | []     => [(str "placeholder/none", ⟨str "no providers configured", false⟩)]
  | models => models

structure ListedModel where
  id      : Str
  object  : Str
  ownedBy : Str

-- The model of a message to opencode.
structure MessageModel where
  providerID : Str
  modelID    : Str

def messageModel (p : Provider) : MessageModel where
  providerID := str "knaic"
  modelID    := p.id ++ str "/" ++ p.model

def splitProxyModel (s : Str) : Except Error (Str × Str) :=
  let s := Utf8.trimSpace s
  if s = [] then
    .error (.new "model is required in request body")
  else
    let malformed := .error (.errorf
      "model must be of the form '<knaic-provider-id>/<upstream-model>', got %q" [s])
    match s.idxOf? 47 with
    | none     => malformed
    | some idx =>
      if idx = 0 ∨ idx = s.length - 1 then malformed else .ok (s.take idx, s.drop (idx + 1))

-- The state of the service, and what has been sent to providers so far.
structure ProxyWorld where
  state : State
  sent  : List ProxyRequest

namespace OpenAIProxy

variable (x : OpenAIProxy)

-- The providers come in any order.
def models (providers : List Provider) : List ListedModel :=
  providers.map fun p => {
    id      := p.id ++ str "/" ++ p.model
    object  := str "model"
    ownedBy := p.name
  }

def forwarded (provider : Provider) (body : Entries Json) : ProxyRequest where
  url           := provider.endpoint ++ str "/chat/completions"
  contentType   := str "application/json"
  accept        :=
    if ((body.get (str "stream")).bind Json.bool?).getD false then str "text/event-stream" else []
  authorization := Service.bearer provider
  body          := body

def chatCompletions (raw : Except Error Str) : Prog (ops.extend upstream) ProxyResponse :=
  match raw with
  | .error err => pure (.failed 400 (.wrap "read body" err))
  | .ok raw    =>
    match x.decodeBody raw with
    | .error err => pure (.failed 400 (.wrap "invalid json" err))
    | .ok body   =>
      let rawModel := ((body.get (str "model")).bind Json.string?).getD []
      match splitProxyModel rawModel with
      | .error err                      => pure (.failed 400 err)
      | .ok (providerID, upstreamModel) => do
        let found ← Prog.lift (Service.providerForChat providerID)
        match found with
        | .error err =>
          if errNotFound.is err then
            pure (.failed 404 (.errorf "unknown knaic provider id: %s" [providerID]))
          else
            pure (.failed 400 err)
        | .ok provider =>
          let req := forwarded provider (body.set (str "model") (.string upstreamModel))
          match x.svc.parse req.url with
          | .error err => pure (.failed 500 (.wrap "build upstream request" err))
          | .ok ()     =>
            let res ← Prog.extra req
            match res with
            | .error err => pure (.failed 502 (.wrap "upstream" err))
            | .ok res    => pure (.copied res)

def answer (op : (ops.extend upstream).Op) (d : Draw) (w : ProxyWorld) :
    (ops.extend upstream).Res op × ProxyWorld :=
  match op with
  | .inl op  =>
    let a := x.svc.answer op d w.state
    (a.1, { w with state := a.2 })
  | .inr req => (d.response, { w with sent := w.sent ++ [req] })

end OpenAIProxy

-- The states of the service that its calls lead to.
def Reachable (s : Service) (st : State) : Prop :=
  ∃ ps, ((pool s).run ⟨(initial : World Unit), []⟩ ps).world.state = st

-- The identifiers that the service gives out.
def IsID (id : Str) : Prop :=
  ∃ n, id = str "llm-" ++ zeroPadded 6 n

-- Every provider is kept under its identifier.
def Keyed (st : State) : Prop :=
  ∀ id p, st.providers.lookup id = some p → p.id = id ∧ IsID id

-- All that is sent for the key of a provider goes to it.
def SentTo (p : Provider) (w : ProxyWorld) : Prop :=
  ∀ req ∈ w.sent, req.url = p.endpoint ++ str "/chat/completions" ∧
    req.authorization = Service.bearer p

-- The three that write the key of a provider agree on it, and the one that reads it passes the
-- request on to that provider and under the name of its model.
structure Routed (x : OpenAIProxy) (st : State) (p : Provider) : Prop where
  config   : ∀ ps, ps.Perm st.providers.values →
    (configModels ps).get p.key = some ⟨p.name ++ str " — " ++ p.model, false⟩
  listed   : ∀ ps, ps.Perm st.providers.values → ∃ m ∈ OpenAIProxy.models ps, m.id = p.key
  message  : (messageModel p).modelID = p.key
  splits   : splitProxyModel p.key = .ok (p.id, p.model)
  forwards : p.status = [] ∨ p.status = statusReady →
    x.svc.parse (p.endpoint ++ str "/chat/completions") = .ok () →
    ∀ raw body, x.decodeBody raw = .ok body →
      (body.get (str "model")).bind Json.string? = some p.key →
      (x.chatCompletions (.ok raw)).Always x.answer (fun _ w => w.sent =
        [OpenAIProxy.forwarded p (body.set (str "model") (.string p.model))]) ⟨st, []⟩
  apart    : ∀ raw body, x.decodeBody raw = .ok body →
    (body.get (str "model")).bind Json.string? = some p.key →
    (x.chatCompletions (.ok raw)).Always x.answer (fun _ w => SentTo p w) ⟨st, []⟩

section Keys

theorem zeroPadded_digits {n : Nat} : ∀ b ∈ zeroPadded 6 n, 48 ≤ b ∧ b ≤ 57 := by
  intro b hb
  cases List.mem_append.mp hb
  case inl h => simp [List.eq_of_mem_replicate h]
  case inr h => exact decimal_digits b h

theorem IsID.no_slash {id : Str} (h : IsID id) : 47 ∉ id := by
  have ⟨n, hn⟩ := h
  subst hn
  intro hm
  cases List.mem_append.mp hm
  case inl h => exact absurd h (by decide)
  case inr h => exact absurd (zeroPadded_digits 47 h).left (by decide)

theorem IsID.ascii {id : Str} (h : IsID id) : ∀ b ∈ id ++ str "/", b < 0x80 := by
  have ⟨n, hn⟩ := h
  subst hn
  have hl : ∀ b ∈ str "llm-", b < 0x80 := by decide +kernel
  have hs : ∀ b ∈ str "/", b < 0x80 := by decide +kernel
  have hd : ∀ b ∈ zeroPadded 6 n, b < 0x80 :=
    fun b hb => lt_of_le_of_lt (zeroPadded_digits b hb).right (by decide)
  simp only [List.forall_mem_append]
  exact ⟨⟨hl, hd⟩, hs⟩

theorem IsID.ne_nil {id : Str} (h : IsID id) : id ≠ [] := by
  have ⟨n, hn⟩ := h
  subst hn
  simp

-- What stands before the first slash is told from what stands behind it.
theorem slash_inj {a a' b b' : Str} (h : 47 ∉ a) (h' : 47 ∉ a') (he : a ++ 47 :: b = a' ++ 47 :: b') :
    a = a' ∧ b = b' := by
  have ht {a b : Str} (h : 47 ∉ a) : (a ++ 47 :: b).takeWhile (· ≠ 47) = a := by
    have hc : ∀ c ∈ a, (decide (c ≠ 47)) = true := by
      intro c hc
      have hn : c ≠ 47 := by
        rintro rfl
        exact h hc
      simpa using hn
    rw [List.takeWhile_append_of_pos hc]
    simp
  have ha : a = a' := by rw [← ht (b := b) h, he, ht h']
  subst ha
  exact ⟨rfl, by simpa using he⟩

theorem key_eq (p : Provider) : p.key = p.id ++ 47 :: p.model := by
  simp [Provider.key, str, String.utf8EncodeChar]

theorem idxOf_append {a : Str} (h : 47 ∉ a) (b : Str) :
    (a ++ 47 :: b).idxOf? 47 = some a.length := by
  induction a
  case nil         => simp [List.idxOf?_cons]
  case cons c a hi =>
    simp only [List.mem_cons, not_or] at h
    have hc : (c == 47) = false := by simpa using Ne.symm h.left
    simp [List.idxOf?_cons, hc, hi h.right]

theorem split_of_idxOf {s : Str} {i : Nat} (h : s.idxOf? 47 = some i) :
    s = s.take i ++ 47 :: s.drop (i + 1) ∧ 47 ∉ s.take i ∧ i < s.length := by
  induction s generalizing i
  case nil         => cases h
  case cons c s hi =>
    rw [List.idxOf?_cons] at h
    split at h
    case isTrue hc =>
      cases h
      simpa using eq_of_beq hc
    case isFalse hc =>
      have ⟨j, hj, hi'⟩ := Option.map_eq_some_iff.mp h
      have ⟨he, hn, hl⟩ := hi hj
      subst hi'
      refine ⟨congrArg _ he, ?_, by simpa using hl⟩
      simp only [List.take_succ_cons, List.mem_cons, not_or]
      exact ⟨fun hb => hc (by simp [← hb]), hn⟩

theorem splitProxyModel_iff {s a b : Str} : splitProxyModel s = .ok (a, b) ↔
    Utf8.trimSpace s = a ++ 47 :: b ∧ 47 ∉ a ∧ a ≠ [] ∧ b ≠ [] := by
  simp only [splitProxyModel]
  generalize Utf8.trimSpace s = t
  constructor
  case mp =>
    intro h
    split at h
    case isTrue => cases h
    case isFalse =>
      split at h
      case h_1 => cases h
      case h_2 i hi =>
        have ⟨he, hn, hl⟩ := split_of_idxOf hi
        split at h
        case isTrue     => cases h
        case isFalse hb =>
          have ⟨ha, hb'⟩ := Prod.mk.inj (Except.ok.inj h)
          rw [ha] at he hn
          rw [hb'] at he
          refine ⟨he, hn, ?_, ?_⟩
          case refine_1 => rw [← ha]; simp; grind
          case refine_2 => rw [← hb']; simp; omega
  case mpr =>
    rintro ⟨rfl, hn, ha, hb⟩
    have hla := List.length_pos_iff.mpr ha
    have hlb := List.length_pos_iff.mpr hb
    have hi : ¬(a.length = 0 ∨ a.length = (a ++ 47 :: b).length - 1) := by
      simp only [List.length_append, List.length_cons]
      omega
    simp only [idxOf_append hn, if_neg hi]
    simp [List.drop_append]

theorem key_front {p : Provider} (h : IsID p.id) :
    (Utf8.pieces p.key).head?.any Utf8.Piece.isSpace = false := by
  have ha := h.ascii
  have ⟨n, hn⟩ := h
  rw [Provider.key, Utf8.pieces_ascii ha, hn]
  rfl

-- The key of a provider is split into its parts unless the model has to be there or ends in a space.
theorem splits_iff {p : Provider} (h : IsID p.id) :
    splitProxyModel p.key = .ok (p.id, p.model) ↔
    p.model ≠ [] ∧ Utf8.endsInSpace p.model = false := by
  rw [splitProxyModel_iff, ← key_eq]
  have hk : p.key = (p.id ++ str "/") ++ p.model := rfl
  constructor
  case mp =>
    intro ⟨ht, _, _, hm⟩
    refine ⟨hm, ?_⟩
    rw [← Utf8.endsInSpace_append h.ascii hm, ← hk]
    exact Bool.eq_false_iff.mpr fun he => Utf8.trimSpace_ne he ht
  case mpr =>
    intro ⟨hm, he⟩
    refine ⟨Utf8.trimSpace_eq (key_front h) ?_, h.no_slash, h.ne_nil, hm⟩
    rwa [hk, Utf8.endsInSpace_append h.ascii hm]

-- Whatever the model is, the key is never split into another identifier.
theorem splits_apart {p : Provider} (h : IsID p.id) {a b : Str}
    (hs : splitProxyModel p.key = .ok (a, b)) : a = p.id := by
  have ⟨ht, hn, _, _⟩ := splitProxyModel_iff.mp hs
  have ⟨t, hp⟩ := Utf8.trimSpace_prefix (key_front h)
  rw [ht, key_eq, List.append_assoc, List.cons_append] at hp
  exact (slash_inj hn h.no_slash hp).left

end Keys

section Calls

variable {x : OpenAIProxy} {st : State} {p : Provider} {raw : Str} {body : Entries Json}

-- The check that a provider which was found is ready.
def checked (p : Provider) : Except Error Provider :=
  if p.status ≠ [] ∧ p.status ≠ statusReady then
    .error (.errorf "provider %q is not ready" [p.name])
  else
    .ok p

theorem providerForChat_eq {id : Str} (h : id ≠ []) :
    (Service.providerForChat id : Prog ops (Except Error Provider)) =
    .call (.provider id) fun found => .ret (match found with
      | none   => .error errNotFound
      | some p => checked p) := by
  simp only [Service.providerForChat, if_neg h]
  refine congrArg (Prog.call _) (funext fun found => ?_)
  cases found
  case none   => rfl
  case some p =>
    simp only [checked]
    by_cases hp : p.status ≠ [] ∧ p.status ≠ statusReady
    case pos =>
      rw [if_pos hp]
      exact congrArg (fun c : Call Provider => (c : Prog ops (Except Error Provider))) (if_pos hp)
    case neg =>
      rw [if_neg hp]
      exact congrArg (fun c : Call Provider => (c : Prog ops (Except Error Provider))) (if_neg hp)

theorem providerForChat_eq_lift {id : Str} (h : id ≠ []) :
    (Prog.lift (Service.providerForChat id) : Prog (ops.extend upstream) _) =
    @Prog.call (ops.extend upstream) _ (.inl (.provider id)) fun found => .ret (match found with
      | none   => .error errNotFound
      | some p => checked p) :=
  congrArg Prog.lift (providerForChat_eq h)

-- What is sent for a key that is split into the identifier of a provider.
theorem chatCompletions_sends {model key : Str} (hb : x.decodeBody raw = .ok body)
    (hm : (body.get (str "model")).bind Json.string? = some key)
    (hs : splitProxyModel key = .ok (p.id, model)) (hn : p.id ≠ [])
    (hl : st.providers.lookup p.id = some p) :
    (x.chatCompletions (.ok raw)).Always x.answer (fun _ w => w.sent =
      if (p.status = [] ∨ p.status = statusReady) ∧
          x.svc.parse (p.endpoint ++ str "/chat/completions") = .ok () then
        [OpenAIProxy.forwarded p (body.set (str "model") (.string model))]
      else []) ⟨st, []⟩ := by
  have hw (d : Draw) : x.svc.answer (.provider p.id) d st = (some p, st) := by
    simp only [Service.answer, hl]
  simp only [OpenAIProxy.chatCompletions, hb, hm, hs, Option.getD_some, providerForChat_eq_lift hn]
  intro d
  simp only [OpenAIProxy.answer, hw, checked]
  by_cases hr : p.status = [] ∨ p.status = statusReady
  case neg =>
    rw [if_pos (not_or.mp hr)]
    exact (if_neg fun h => hr h.left).symm
  case pos =>
    rw [if_neg (fun h => not_or.mpr h hr)]
    have hu : (OpenAIProxy.forwarded p (body.set (str "model") (.string model))).url =
        p.endpoint ++ str "/chat/completions" := rfl
    simp only [bind, Prog.bind, pure, hu]
    cases hp : x.svc.parse (p.endpoint ++ str "/chat/completions")
    case error => exact (if_neg fun (h : _ ∧ _) => by cases h.right).symm
    case ok    =>
      intro d
      simp only [OpenAIProxy.answer]
      cases d.response <;> exact (if_pos ⟨hr, trivial⟩).symm

-- Nothing is sent for a key that is not split.
theorem chatCompletions_refuses {key : Str} {err : Error} (hb : x.decodeBody raw = .ok body)
    (hm : (body.get (str "model")).bind Json.string? = some key)
    (hs : splitProxyModel key = .error err) :
    (x.chatCompletions (.ok raw)).Always x.answer (fun _ w => w.sent = []) ⟨st, []⟩ := by
  simp only [OpenAIProxy.chatCompletions, hb, hm, hs, Option.getD_some]
  exact rfl

theorem chatCompletions_apart (hi : IsID p.id) (hl : st.providers.lookup p.id = some p)
    (hb : x.decodeBody raw = .ok body)
    (hm : (body.get (str "model")).bind Json.string? = some p.key) :
    (x.chatCompletions (.ok raw)).Always x.answer (fun _ w => SentTo p w) ⟨st, []⟩ := by
  cases hs : splitProxyModel p.key
  case error err =>
    refine (chatCompletions_refuses hb hm hs).mono fun _ w hw => ?_
    simp [SentTo, hw]
  case ok parts =>
    have hid := splits_apart hi hs
    rw [← Prod.eta parts, hid] at hs
    refine (chatCompletions_sends hb hm hs hi.ne_nil hl).mono fun _ w hw => ?_
    split at hw
    case isTrue  => simp [SentTo, hw, OpenAIProxy.forwarded]
    case isFalse => simp [SentTo, hw]

end Calls

section Reached

variable {s : Service} {st : State} {p : Provider}

theorem applyPatch_id {p p' : Provider} {patch : ProviderPatch} (h : s.applyPatch p patch = .ok p') :
    p'.id = p.id := by
  unfold Service.applyPatch at h
  cases he : patch.endpoint
  case none =>
    simp only [he, pure_bind] at h
    cases h
    rfl
  case some e =>
    cases hp : s.parseRequestURI e
    case error => simp [he, hp] at h; cases h
    case ok    => simp only [he, hp, pure_bind] at h; cases h; rfl

-- A state in which one provider at most is new, and that one is kept under its identifier.
theorem Keyed.insert {id : Str} (h : Keyed st) (hp : p.id = id ∧ IsID id) {st' : State}
    (hs : st'.providers = st.providers.insert id p) : Keyed st' := by
  intro id' p' hl
  rw [hs] at hl
  cases Go.Map.lookup_insert_some hl
  case inl he => exact he.left ▸ he.right ▸ hp
  case inr ho => exact h id' p' ho

theorem Keyed.answer (h : Keyed st) (op : ops.Op) (d : Draw) : Keyed (s.answer op d st).2 := by
  cases op
  case create req => exact h.insert ⟨rfl, _, rfl⟩ rfl
  case patch id patch =>
    cases hl : st.providers.lookup id
    case none   => simpa only [Service.answer, hl] using h
    case some p =>
      cases hs : s.applyPatch p patch
      case error => simpa only [Service.answer, hl, hs] using h
      case ok p' =>
        obtain ⟨hk, hi⟩ := h id p hl
        exact h.insert ⟨(applyPatch_id hs).trans hk, hi⟩ (by simp only [Service.answer, hl, hs])
  case delete id =>
    cases hl : st.providers.lookup id
    case none => simpa only [Service.answer, hl] using h
    case some =>
      simp only [Service.answer, hl]
      exact fun id' p' hp => h id' p' (Go.Map.lookup_erase_some hp)
  case cachedModels id =>
    cases hl : st.modelCache.lookup id <;> simpa only [Service.answer, hl] using h
  all_goals exact h

theorem Reachable.keyed (h : Reachable s st) : Keyed st := by
  have ⟨ps, hs⟩ := h
  subst hs
  refine Pool.run_invariant (I := fun w : World Unit => Keyed w.state) (fun i op d w hw => ?_)
    (fun _ _ hw => hw) (fun _ _ hl => ?_)
  case refine_1 =>
    show Keyed (World.record _ _ _ _).state
    rw [World.record_state]
    exact hw.answer op d
  case refine_2 => cases (Finmap.lookup_empty _).symm.trans hl

end Reached

section Catalogue

variable {st : State} {p : Provider} {ps : List Provider}

theorem configModels_get (hp : p ∈ ps) (hu : ∀ q ∈ ps, q.key = p.key → q = p) :
    (configModels ps).get p.key = some ⟨p.name ++ str " — " ++ p.model, false⟩ := by
  have hm : p ∈ ps.insertionSort fun a b => a.id ≤ b.id := (List.mem_insertionSort _).mpr hp
  have hg := Entries.get_foldl_set (f := Provider.key)
    (g := fun p => (⟨p.name ++ str " — " ++ p.model, false⟩ : ConfigModel)) hm
    (fun q hq hk => by rw [hu q ((List.mem_insertionSort _).mp hq) hk]) []
  simp only [configModels]
  split
  case h_1 hn => cases (congrArg (fun l => Entries.get l p.key) hn).symm.trans hg
  case h_2    => exact hg

theorem key_unique (h : Keyed st) (hs : ps.Perm st.providers.values) {q : Provider} (hp : p ∈ ps)
    (hq : q ∈ ps) (hk : q.key = p.key) : q = p := by
  have ⟨id, hl⟩  := Go.Map.mem_values.mp (hs.mem_iff.mp hp)
  have ⟨id', hl'⟩ := Go.Map.mem_values.mp (hs.mem_iff.mp hq)
  have ⟨hi, hd⟩ := h _ _ hl
  have ⟨hi', hd'⟩ := h _ _ hl'
  rw [key_eq, key_eq] at hk
  have he := (slash_inj (hi' ▸ hd'.no_slash) (hi ▸ hd.no_slash) hk).left
  rw [← hi, ← he, hi'] at hl
  exact Option.some.inj (hl'.symm.trans hl)

end Catalogue

theorem routed_iff {x : OpenAIProxy} {st : State} {id : Str} {p : Provider}
    (h : Reachable x.svc st) (hl : st.providers.lookup id = some p) :
    Routed x st p ↔ p.model ≠ [] ∧ Utf8.endsInSpace p.model = false := by
  have ⟨hk, hi⟩ := h.keyed _ _ hl
  subst hk
  rw [← splits_iff hi]
  constructor
  case mp  => exact Routed.splits
  case mpr =>
    intro hs
    have hm {ps : List Provider} (hp : ps.Perm st.providers.values) : p ∈ ps :=
      hp.mem_iff.mpr (Go.Map.mem_values.mpr ⟨_, hl⟩)
    refine {
      config ps hp       := configModels_get (hm hp) fun q hq => key_unique h.keyed hp (hm hp) hq
      listed ps hp       := ⟨_, List.mem_map.mpr ⟨p, hm hp, rfl⟩, rfl⟩
      message            := rfl
      splits             := hs
      forwards hr hu _ _ hb hb' := ?_
      apart _ _          := chatCompletions_apart hi hl
    }
    exact (chatCompletions_sends hb hb' hs hi.ne_nil hl).mono fun _ _ hw => hw.trans (if_pos ⟨hr, hu⟩)

-- A provider is created, and its model is taken from it.
section Emptied

def proxy : OpenAIProxy where
  svc          := standard
  decodeBody _ := .ok [(str "model", .string (str "llm-000001/large"))]

def emptied : ProviderPatch where
  name        := none
  source      := none
  ns          := none
  endpoint    := none
  apiKey      := none
  model       := some []
  description := none
  status      := none

def creation : List (Pick Draw (Request Unit)) :=
  [.start ⟨(), .createProvider hosted⟩, .act 0 calm]

def emptying : List (Pick Draw (Request Unit)) :=
  creation ++ [.start ⟨(), .patchProvider (str "llm-000001") emptied⟩, .act 1 calm]

def reached (ps : List (Pick Draw (Request Unit))) : State :=
  ((pool standard).run ⟨initial, []⟩ ps).world.state

def created : Provider :=
  .ofRequest { hosted with source := sourceExternal, status := statusReady } 1

theorem created_routed : Routed proxy (reached creation) created :=
  (@routed_iff _ _ (str "llm-000001") _ ⟨creation, rfl⟩ rfl).mpr (by decide)

theorem emptied_not_routed : ¬∀ st id p, Reachable proxy.svc st →
    st.providers.lookup id = some p → Routed proxy st p := by
  intro h
  have hr := h (reached emptying) (str "llm-000001") { created with model := [] } ⟨emptying, rfl⟩ rfl
  exact absurd hr.splits (by decide)

end Emptied

end Playground

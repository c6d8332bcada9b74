import Knaic.Effects.Parties
import Knaic.Playground.OpenAIProxy

open Go Effects

namespace Playground.ModelCache

open Pool
open Contract (Ok)

-- Where a list of models comes from: the URL that it is read at, and the credentials.
abbrev Source :=
  Str × Option Str

def sourceOf (p : Provider) : Source :=
  (p.endpoint ++ str "/models", Service.bearer p)

-- The state of the service, and beside it, by the identifier of a provider: what it was last given
-- as its source, and the source of the list in the cache. By the number of a call: the provider that
-- it has looked up with all sources that this has had since then, and what it has asked last.
structure World where
  state  : State
  last   : Str → Option Source
  origin : Str → Option Source
  since  : Nat → Option (Str × List Source)
  asked  : Nat → Option Source

namespace World

-- Those that have looked up the provider see its new source.
def gain (w : World) (p : Provider) : World :=
  { w with
    last    := Function.update w.last p.id (some (sourceOf p))
    since j := (w.since j).map fun l => (l.1, if l.1 = p.id then sourceOf p :: l.2 else l.2) }

def record (w : World) (i : Nat) (op : ops.Op) (r : ops.Res op) : World :=
  match op, r with
  | .create _, p         => w.gain p
  | .patch _ _, .ok p    => w.gain p
  | .provider _, some p  =>
    { w with since := Function.update w.since i (some (p.id, [sourceOf p])) }
  | .send req, _         =>
    { w with asked := Function.update w.asked i (some (req.url, req.authorization)) }
  | .cacheModels id _, _ => { w with origin := Function.update w.origin id (w.asked i) }
  | _, _                 => w

end World

variable (s : Service)

-- The pool of all calls of the service, with their numbers.
def pool (calls : Nat → Action) : Pool ops Draw World Nat (Except Error Unit) where
  answer i op d w :=
    let a := s.answer op d w.state
    (a.1, { w with state := a.2 }.record i op a.1)
  env _ w := w
  code i :=
    match calls i with
    | .createProvider req     => (s.createProvider req).void
    | .patchProvider id patch => (Service.patchProvider id patch).void
    | .deleteProvider id      => Service.deleteProvider id
    | .chat req               => (s.chat req).void
    | .streamChat req         => (s.streamChat req).void

-- The provider that the call has looked up has had the source since then.
def World.Has (w : World) (i : Nat) (id : Str) (c : Source) : Prop :=
  ∃ l ∈ w.since i, l.1 = id ∧ c ∈ l.2

-- A call uses no list from a source that its provider had only before the call looked it up, be it
-- from the cache or a list that the call reads itself.
def Current : Pool.Condition ops Draw World Nat :=
  fun i op d w =>
    match op with
    | .cachedModels id =>
      (s.answer (.cachedModels id) d w.state).1 ≠ none →
      ∃ c ∈ w.origin id, w.Has i id c
    | .send req        =>
      req.body.isNone → ∃ l ∈ w.since i, (req.url, req.authorization) ∈ l.2
    | _                => True

-- A list is put into the cache only as long as its provider has the source that it was read from.
def Unmoved : Pool.Condition ops Draw World Nat :=
  fun i op _ w =>
    match op with
    | .cacheModels id _ => w.asked i = w.last id
    | _                 => True

section Decidable

variable (i : Nat) (op : ops.Op) (d : Draw) (w : World)

instance (id : Str) (c : Source) : Decidable (w.Has i id c) :=
  inferInstanceAs (Decidable (∃ l ∈ w.since i, l.1 = id ∧ c ∈ l.2))

instance : Decidable (Current s i op d w) :=
  match op with
  | .cachedModels id =>
    inferInstanceAs (Decidable ((s.answer (.cachedModels id) d w.state).1 ≠ none → ∃ c ∈ w.origin id, w.Has i id c))
  | .send req        =>
    inferInstanceAs (Decidable (req.body.isNone → ∃ l ∈ w.since i, (req.url, req.authorization) ∈ l.2))
  | .create _ | .patch _ _ | .delete _ | .provider _ | .cacheModels _ _ => .isTrue trivial

instance : Decidable (Unmoved i op d w) :=
  match op with
  | .cacheModels id _ => inferInstanceAs (Decidable (w.asked i = w.last id))
  | .create _ | .patch _ _ | .delete _ | .provider _ | .cachedModels _ | .send _ => .isTrue trivial

end Decidable

-- A provider has its source under its own identifier, a list in the cache is from the last source of
-- its provider, and every call has seen that source.
structure Inv (w : World) : Prop where
  numbered : ∀ id, w.last id ≠ none → ∃ n ≤ w.state.counter, id = str "llm-" ++ zeroPadded 6 n
  keyed    : ∀ id p, w.state.providers.lookup id = some p → p.id = id ∧ w.last id = some (sourceOf p)
  cached   : ∀ id e, w.state.modelCache.lookup id = some e →
             ∃ c, w.last id = some c ∧ w.origin id = some c
  watched  : ∀ j l, w.since j = some l → ∃ c, w.last l.1 = some c ∧ c ∈ l.2

-- Others leave alone what a call has asked, and what it has seen stays seen.
structure Rely (i : Nat) (w w' : World) : Prop where
  asked : w'.asked i = w.asked i
  since : ∀ l, w.since i = some l → ∃ l', w'.since i = some l' ∧ l'.1 = l.1 ∧ l.2 ⊆ l'.2

namespace Rely

theorem refl (i : Nat) (w : World) : Rely i w w where
  asked     := rfl
  since l h := ⟨l, h, rfl, List.Subset.refl _⟩

theorem trans {w₁ w₂ w₃ : World} (h₁ : Rely i w₁ w₂) (h₂ : Rely i w₂ w₃) : Rely i w₁ w₃ where
  asked     := h₂.asked.trans h₁.asked
  since l h := by
    have ⟨l', h', he, hs⟩ := h₁.since l h
    have ⟨l'', h'', he', hs'⟩ := h₂.since l' h'
    exact ⟨l'', h'', he'.trans he, List.Subset.trans hs hs'⟩

end Rely

def pact (calls : Nat → Action) : Pact (pool s calls) where
  inv             := Inv
  rely            := Rely
  idle _ _        := True
  keeps           := Current s
  refl            := .refl
  trans           := .trans
  env_inv h       := h
  env_rely _      := .refl _ _
  idle_stable h _ := h

variable {s} {calls : Nat → Action} {i : Nat} {w : World} {d : Draw}

-- A provider that is new or changed, and has no list in the cache.
theorem Inv.gain {st : State} {p : Provider} (h : Inv w) (hc : w.state.counter ≤ st.counter)
    (hn : ∃ n ≤ st.counter, p.id = str "llm-" ++ zeroPadded 6 n)
    (hp : st.providers = w.state.providers.insert p.id p)
    (hm : ∀ id e, st.modelCache.lookup id = some e → id ≠ p.id ∧ w.state.modelCache.lookup id = some e) :
    Inv ({ w with state := st }.gain p) where
  numbered id hl := by
    by_cases he : id = p.id
    case pos => exact he ▸ hn
    case neg =>
      have ⟨n, hn, hi⟩ := h.numbered id (by simpa [World.gain, Function.update_of_ne he] using hl)
      exact ⟨n, hn.trans hc, hi⟩
  keyed id q hl := by
    replace hl : (w.state.providers.insert p.id p).lookup id = some q := hp ▸ hl
    by_cases he : id = p.id
    case pos =>
      subst he
      cases (Finmap.lookup_insert _).symm.trans hl
      exact ⟨rfl, Function.update_self ..⟩
    case neg =>
      rw [Finmap.lookup_insert_of_ne _ he] at hl
      have ⟨hk, hs⟩ := h.keyed id q hl
      exact ⟨hk, by simpa [World.gain, Function.update_of_ne he] using hs⟩
  cached id e he := by
    have ⟨hne, hl⟩ := hm id e he
    have ⟨c, hc, ho⟩ := h.cached id e hl
    exact ⟨c, by simpa [World.gain, Function.update_of_ne hne] using hc, ho⟩
  watched j l hl := by
    have ⟨l', hl', he⟩ := Option.map_eq_some_iff.mp hl
    have ⟨c, hc, hm⟩ := h.watched j l' hl'
    subst he
    by_cases hi : l'.1 = p.id
    case pos => exact ⟨sourceOf p, by simp [World.gain, hi], by simp [hi]⟩
    case neg => exact ⟨c, by simpa [World.gain, Function.update_of_ne hi] using hc, by simpa [hi] using hm⟩

-- A state with no other providers than before, and no other lists in the cache.
theorem Inv.of_sub {w' : World} (h : Inv w) (hc : w'.state.counter = w.state.counter)
    (hp : ∀ id p, w'.state.providers.lookup id = some p → w.state.providers.lookup id = some p)
    (hm : ∀ id e, w'.state.modelCache.lookup id = some e → w.state.modelCache.lookup id = some e)
    (hl : w'.last = w.last) (ho : w'.origin = w.origin) (hs : w'.since = w.since) : Inv w' where
  numbered     := by rw [hl, hc]; exact h.numbered
  keyed id p h' := by rw [hl]; exact h.keyed id p (hp id p h')
  cached id e h' := by rw [hl, ho]; exact h.cached id e (hm id e h')
  watched      := by rw [hl, hs]; exact h.watched

theorem Rely.gain (j : Nat) (w : World) (st : State) (p : Provider) :
    Rely j w ({ w with state := st }.gain p) where
  asked     := rfl
  since l h := by
    refine ⟨(l.1, if l.1 = p.id then sourceOf p :: l.2 else l.2), by simp [World.gain, h], rfl, ?_⟩
    by_cases he : l.1 = p.id <;> simp [he]

theorem Rely.of_eq {w' : World} (ha : w'.asked j = w.asked j) (hs : w'.since j = w.since j) :
    Rely j w w' where
  asked     := ha
  since l h := ⟨l, hs.trans h, rfl, List.Subset.refl _⟩

section Does

theorem create_does (req : ProviderRequest) (h : Inv w) :
    (pact s calls).Does i (.create req) d w where
  keeps    := trivial
  inv      := by
    refine h.gain (Nat.le_succ _) ⟨_, Nat.le_refl _, rfl⟩ rfl fun id e he => ⟨?_, he⟩
    rintro rfl
    have ⟨c, hc, _⟩ := h.cached _ e he
    have ⟨n, hn, hi⟩ := h.numbered _ (Option.ne_none_iff_exists'.mpr ⟨c, hc⟩)
    have hv := zeroPadded_inj.mp (List.append_cancel_left hi)
    omega
  rely j _ := .gain j w _ _

-- An operation that changes nothing but what a list or a call is known to come from.
theorem does_of_same {op : Op} (h : Inv w) (hc : Current s i op d w)
    (hw : ((pool s calls).answer i op d w).2 = w) : (pact s calls).Does i op d w where
  keeps    := hc
  inv      := by rw [hw]; exact h
  rely j _ := by rw [hw]; exact .refl j w

theorem patch_does (id : Str) (patch : ProviderPatch) (h : Inv w) :
    (pact s calls).Does i (.patch id patch) d w := by
  cases hl : w.state.providers.lookup id
  case none   => exact does_of_same h trivial (by simp [pool, Service.answer, hl, World.record])
  case some p =>
    cases hs : s.applyPatch p patch
    case error e => exact does_of_same h trivial (by simp [pool, Service.answer, hl, hs, World.record])
    case ok p'   =>
      have hi : p'.id = id := (applyPatch_id hs).trans (h.keyed id p hl).left
      have ha : ((pool s calls).answer i (.patch id patch) d w).2 =
          { w with state := (s.answer (.patch id patch) d w.state).2 }.gain p' := by
        simp [pool, Service.answer, hl, hs, World.record]
      refine ⟨trivial, ?_, fun j _ => ?_⟩
      case refine_1 =>
        show Inv _
        rw [ha]
        have hs : (s.answer (.patch id patch) d w.state).2 = { w.state with
            providers  := w.state.providers.insert p'.id p'
            modelCache := w.state.modelCache.erase p'.id } := by
          simp only [Service.answer, hl, hs, hi]
        have hk := h.numbered id (by rw [(h.keyed id p hl).right]; simp)
        refine h.gain (by rw [hs]) ?_ (by rw [hs]) fun id' e he => ?_
        case refine_1 => rwa [hs, hi]
        case refine_2 =>
          rw [hs] at he
          refine ⟨?_, Go.Map.lookup_erase_some he⟩
          rintro rfl
          cases (Finmap.lookup_erase ..).symm.trans he
      case refine_2 =>
        show Rely j w _
        rw [ha]
        exact .gain j w _ _

theorem delete_does (id : Str) (h : Inv w) : (pact s calls).Does i (.delete id) d w := by
  cases hl : w.state.providers.lookup id
  case none   => exact does_of_same h trivial (by simp [pool, Service.answer, hl, World.record])
  case some p =>
    have hs : (s.answer (.delete id) d w.state).2 = { w.state with
        providers  := w.state.providers.erase id
        modelCache := w.state.modelCache.erase id } := by
      simp only [Service.answer, hl]
    have ha : ((pool s calls).answer i (.delete id) d w).2 =
        { w with state := (s.answer (.delete id) d w.state).2 } := rfl
    refine ⟨trivial, ?_, fun j _ => .of_eq rfl rfl⟩
    rw [ha, hs]
    exact h.of_sub rfl (fun _ _ => Go.Map.lookup_erase_some) (fun _ _ => Go.Map.lookup_erase_some)
      rfl rfl rfl

theorem provider_does (id : Str) (h : Inv w) : (pact s calls).Does i (.provider id) d w := by
  cases hl : w.state.providers.lookup id
  case none   => exact does_of_same h trivial (by simp [pool, Service.answer, hl, World.record])
  case some p =>
    have ha : ((pool s calls).answer i (.provider id) d w).2 =
        { w with since := Function.update w.since i (some (p.id, [sourceOf p])) } := by
      simp [pool, Service.answer, hl, World.record]
    obtain ⟨hk, hc⟩ := h.keyed id p hl
    refine ⟨trivial, ?_, fun j hj => ?_⟩
    case refine_1 =>
      rw [ha]
      refine ⟨h.numbered, h.keyed, h.cached, fun j l hl => ?_⟩
      by_cases hj : j = i
      case pos =>
        subst hj
        simp only [Function.update_self] at hl
        cases hl
        exact ⟨_, hk ▸ hc, .head _⟩
      case neg => exact h.watched j l (by simpa [Function.update_of_ne hj] using hl)
    case refine_2 =>
      rw [ha]
      exact .of_eq rfl (Function.update_of_ne hj ..)

theorem cachedModels_same (id : Str) :
    ((pool s calls).answer i (.cachedModels id) d w).2 = w := by
  cases he : w.state.modelCache.lookup id <;> simp [pool, Service.answer, he, World.record]

theorem cachedModels_does {id : Str} (h : Inv w) (hw : ∃ l, w.since i = some l ∧ l.1 = id) :
    (pact s calls).Does i (.cachedModels id) d w := by
  refine does_of_same h (fun hn => ?_) (cachedModels_same id)
  cases he : w.state.modelCache.lookup id
  case none   => exact absurd (by simp [Service.answer, he]) hn
  case some e =>
    obtain ⟨c, hc, ho⟩ := h.cached id e he
    obtain ⟨l, hl, rfl⟩ := hw
    obtain ⟨c', hc', hm⟩ := h.watched i l hl
    cases hc.symm.trans hc'
    exact ⟨c, ho, l, hl, rfl, hm⟩

theorem cacheModels_does {id : Str} {models : List Str} (h : Inv w) (hw : w.asked i = w.last id)
    (hl : w.last id ≠ none) : (pact s calls).Does i (.cacheModels id models) d w where
  keeps    := trivial
  inv      := by
    refine ⟨h.numbered, h.keyed, fun id' e he => ?_, h.watched⟩
    by_cases hi : id' = id
    case pos =>
      subst hi
      have ⟨c, hc⟩ := Option.ne_none_iff_exists'.mp hl
      exact ⟨c, hc, (Function.update_self ..).trans (hw.trans hc)⟩
    case neg =>
      have he : w.state.modelCache.lookup id' = some e := by
        rwa [← Finmap.lookup_insert_of_ne _ hi]
      have ⟨c, hc, ho⟩ := h.cached id' e he
      exact ⟨c, hc, (Function.update_of_ne hi ..).trans ho⟩
  rely _ _ := .of_eq rfl rfl

theorem send_does {req : HTTPRequest} (h : Inv w)
    (hc : req.body.isNone → ∃ l, w.since i = some l ∧ (req.url, req.authorization) ∈ l.2) :
    (pact s calls).Does i (.send req) d w where
  keeps     := hc
  inv       := ⟨h.numbered, h.keyed, h.cached, h.watched⟩
  rely _ hj := .of_eq (Function.update_of_ne hj ..) rfl

end Does

-- The call has looked up the provider and seen its source.
def World.Watching (w : World) (i : Nat) (p : Provider) : Prop :=
  ∃ l, w.since i = some l ∧ l.1 = p.id ∧ sourceOf p ∈ l.2

theorem World.Watching.stable {w' : World} {p : Provider} (h : w.Watching i p) (hr : Rely i w w') :
    w'.Watching i p := by
  have ⟨l, hl, hi, hm⟩   := h
  have ⟨l', hl', he, hs⟩ := hr.since l hl
  exact ⟨l', hl', he.trans hi, hs hm⟩

section Calls

open Pact

-- An operation that promises nothing to the call itself.
theorem perform_safe {op : Op} (hd : ∀ w₁, Rely i w w₁ → Inv w₁ → ∀ d, Unmoved i op d w₁ →
    (pact s calls).Does i op d w₁) :
    (pact s calls).Safe Unmoved i (fun _ _ => True) (perform op) w :=
  Safe.perform hd fun _ _ _ _ _ _ _ _ => trivial

theorem providerForChat_safe (id : Str) (hw : Inv w) :
    (pact s calls).Safe Unmoved i (Ok fun p w => w.Watching i p) (Service.providerForChat id) w := by
  unfold Service.providerForChat
  refine Safe.guard fun _ => ?_
  have hf : (pact s calls).Safe Unmoved i (fun r w => ∀ p, r = some p → w.Watching i p)
      (perform (.provider id)) w := by
    refine Safe.perform (fun _ _ hw _ _ => provider_does id hw) fun w₁ _ _ d _ w₂ hr _ p hp => ?_
    have hl : w₁.state.providers.lookup id = some p := hp
    refine World.Watching.stable ⟨(p.id, [sourceOf p]), ?_, rfl, .head _⟩ hr
    simp [pool, Service.answer, hl, World.record]
  refine Safe.seq hf.lift hw fun found w₁ _ hf => ?_
  split
  case h_1   => exact Safe.throw
  case h_2 p =>
    exact Safe.guard fun _ => Safe.pure fun _ hr _ => (hf p rfl).stable hr

-- The request for the list of a provider.
def listRequest (p : Provider) : HTTPRequest where
  method        := "GET"
  url           := p.endpoint ++ str "/models"
  contentType   := []
  accept        := []
  authorization := Service.bearer p
  body          := none

theorem fetchUpstreamModels_safe {p : Provider} (hp : w.Watching i p) (hw : Inv w) :
    (pact s calls).Safe Unmoved i (Ok fun _ w => w.Watching i p) (s.fetchUpstreamModels p) w := by
  refine Safe.seq (Safe.of_except _ fun _ _ _ hr _ => hp.stable hr) hw fun _ w₁ hw₁ hp => ?_
  have hs : (pact s calls).Safe Unmoved i (Ok fun _ w => w.Watching i p)
      (perform (.send (listRequest p))) w₁ := by
    refine Safe.perform (fun w₂ hr hw₂ _ _ => send_does hw₂ fun _ => ?_)
      fun w₂ hr _ d _ w₃ hr' _ => Ok.intro fun _ _ => ?_
    case refine_1 =>
      have ⟨l, hl, _, hm⟩ := hp.stable hr
      exact ⟨l, hl, hm⟩
    case refine_2 =>
      have hp : w₂.Watching i p := hp.stable hr
      have hs : ((pool s calls).answer i (.send (listRequest p)) d w₂).2.Watching i p := hp
      exact hs.stable hr'
  refine Safe.seq hs hw₁ fun res w₂ hw₂ hp => ?_
  refine Safe.guard fun _ => ?_
  refine Safe.seq (Safe.of_except _ fun _ _ _ hr _ => hp.stable hr) hw₂ fun _ _ _ hp => ?_
  exact Safe.pure fun _ hr _ => hp.stable hr

theorem modelsFor_safe {p : Provider} (hp : w.Watching i p) (hw : Inv w) :
    (pact s calls).Safe Unmoved i (Ok fun _ _ => True) (s.modelsFor p) w := by
  have hc : (pact s calls).Safe Unmoved i (fun _ w => w.Watching i p)
      (perform (.cachedModels p.id)) w := by
    refine Safe.perform (fun w₁ hr hw₁ _ _ => cachedModels_does hw₁ ?_)
      fun w₁ hr _ d _ w₂ hr' _ => ?_
    case refine_1 =>
      have ⟨l, hl, hi, _⟩ := hp.stable hr
      exact ⟨l, hl, hi⟩
    case refine_2 =>
      have hr' : Rely i ((pool s calls).answer i (.cachedModels p.id) d w₁).2 w₂ := hr'
      rw [cachedModels_same] at hr'
      exact (hp.stable hr).stable hr'
  refine Safe.seq hc.lift hw fun cached w₁ hw₁ hp => ?_
  split
  case h_1 => exact Safe.pure fun _ _ _ => trivial
  case h_2 =>
    refine Safe.seq (fetchUpstreamModels_safe hp hw₁).lift hw₁ fun fetched w₂ hw₂ hp => ?_
    split
    case h_3 models _ =>
      have hm : (pact s calls).Safe Unmoved i (fun _ _ => True)
          (perform (.cacheModels p.id models)) w₂ := by
        refine perform_safe fun w₃ hr hw₃ d hu => cacheModels_does hw₃ hu ?_
        have ⟨l, hl, hi, _⟩ := World.Watching.stable hp hr
        have ⟨c, hc, _⟩ := hw₃.watched i l hl
        exact Option.ne_none_iff_exists'.mpr ⟨c, hi ▸ hc⟩
      exact Safe.seq hm.lift hw₂ fun _ _ _ _ => Safe.pure fun _ _ _ => trivial
    all_goals exact Safe.pure fun _ _ _ => trivial

theorem resolveModel_safe {p : Provider} (hp : w.Watching i p) (hw : Inv w) :
    (pact s calls).Safe Unmoved i (Ok fun _ _ => True) (s.resolveModel p) w := by
  refine Safe.seq (modelsFor_safe hp hw) hw fun models _ _ _ => ?_
  split <;> exact Safe.pure fun _ _ _ => trivial

theorem newChatHTTPRequest_body {p : Provider} {model : Str} {req : ChatRequest} {stream : Bool}
    {r : HTTPRequest} (h : s.newChatHTTPRequest p model req stream = .ok r) : r.body.isNone = false := by
  simp only [Service.newChatHTTPRequest] at h
  split at h
  case isTrue  => cases h
  case isFalse =>
    cases hp : s.parse (p.endpoint ++ str "/chat/completions")
    case error => rw [hp] at h; cases h
    case ok    => rw [hp] at h; cases h; rfl

theorem complete_safe (req : ChatRequest) (stream : Bool) (hw : Inv w) :
    (pact s calls).Safe Unmoved i (Ok fun _ _ => True) (s.complete req stream) w := by
  refine Safe.seq (providerForChat_safe req.providerID hw) hw fun p w₁ hw₁ hp => ?_
  refine Safe.seq (resolveModel_safe hp hw₁) hw₁ fun model w₂ hw₂ _ => ?_
  refine Safe.seq (Safe.of_except (Q := fun r _ => r.body.isNone = false) _
    fun _ hr _ _ _ => newChatHTTPRequest_body hr) hw₂ fun r w₃ hw₃ hb => ?_
  have hs : (pact s calls).Safe Unmoved i (Ok fun _ _ => True) (perform (.send r)) w₃ :=
    (perform_safe fun _ _ hw _ _ => send_does hw fun hn => nomatch hb.symm.trans hn).mono
      fun _ _ _ => Ok.intro fun _ _ => trivial
  refine Safe.seq hs hw₃ fun res _ _ _ => ?_
  exact Safe.guard fun _ => Safe.pure fun _ _ _ => trivial

theorem chat_safe (req : ChatRequest) (hw : Inv w) :
    (pact s calls).Safe Unmoved i (Ok fun _ _ => True) (s.chat req) w := by
  refine Safe.seq (complete_safe req false hw) hw fun res w₁ hw₁ _ => ?_
  refine Safe.seq (Safe.of_except (Q := fun _ _ => True) _ fun _ _ _ _ _ => trivial) hw₁
    fun choices _ _ _ => ?_
  split
  case h_1 => exact Safe.throw
  case h_2 => exact Safe.pure fun _ _ _ => trivial

theorem streamChat_safe (req : ChatRequest) (hw : Inv w) :
    (pact s calls).Safe Unmoved i (Ok fun _ _ => True) (s.streamChat req) w :=
  Safe.seq (complete_safe req true hw) hw fun _ _ _ _ => Safe.pure fun _ _ _ => trivial

theorem createProvider_safe (req : ProviderRequest) (hw : Inv w) :
    (pact s calls).Safe Unmoved i (Ok fun _ _ => True) (s.createProvider req) w := by
  unfold Service.createProvider
  refine Safe.guard fun _ => ?_
  dsimp only
  split
  case h_1 => exact Safe.throw
  case h_2 =>
    have hc (req : ProviderRequest) :
        (pact s calls).Safe Unmoved i (fun _ _ => True) (perform (.create req)) w :=
      perform_safe fun _ _ hw _ _ => create_does req hw
    exact Safe.seq (hc _).lift hw fun _ _ _ _ => Safe.pure fun _ _ _ => trivial

theorem patchProvider_safe (id : Str) (patch : ProviderPatch) (hw : Inv w) :
    (pact s calls).Safe Unmoved i (Ok fun _ _ => True) (Service.patchProvider id patch) w := by
  have hp : (pact s calls).Safe Unmoved i (Ok fun _ _ => True) (perform (.patch id patch)) w :=
    (perform_safe fun _ _ hw _ _ => patch_does id patch hw).mono fun _ _ _ => Ok.intro fun _ _ => trivial
  exact Safe.seq hp hw fun _ _ _ _ => Safe.pure fun _ _ _ => trivial

end Calls

theorem pact_keeps : (pact s calls).Keeps Unmoved := by
  intro i w hw _
  show (pact s calls).Safe Unmoved i _ (match calls i with
    | .createProvider req => _ | .patchProvider id patch => _ | .deleteProvider id => _
    | .chat req => _ | .streamChat req => _) w
  cases calls i
  case createProvider req     => exact (createProvider_safe req hw).void hw
  case patchProvider id patch => exact (patchProvider_safe id patch hw).void hw
  case deleteProvider id      => exact perform_safe fun _ _ hw _ _ => delete_does id hw
  case chat req               => exact (chat_safe req hw).void hw
  case streamChat req         => exact (streamChat_safe req hw).void hw

-- The service as `NewService` makes it.
def initial : World where
  state    := ⟨∅, 0, ∅⟩
  last _   := none
  origin _ := none
  since _  := none
  asked _  := none

theorem initial_inv : Inv initial where
  numbered id h  := absurd rfl h
  keyed _ _ h    := by cases (Finmap.lookup_empty _).symm.trans h
  cached _ _ h   := by cases (Finmap.lookup_empty _).symm.trans h
  watched _ _ h  := nomatch h

theorem unmoved_current {ps : List (Pick Draw Nat)}
    (h : (pool s calls).Throughout (fun c p => Fresh c p ∧ Meets Unmoved c p) ps ⟨initial, []⟩) :
    (pool s calls).Allows (Current s) ps ⟨initial, []⟩ := by
  have hh : (pact s calls).Holds Unmoved ⟨initial, []⟩ :=
    ⟨initial_inv, by simp, by simp, fun _ _ => trivial⟩
  exact (hh.throughout pact_keeps h).left.mono
    fun _ _ hm => (hm.left.does hm.right).mono fun _ _ _ _ hd => hd.keeps

-- A provider is moved to another endpoint between two chats over it, before or after the list that
-- the first one reads is in the cache.
section Move

def listing : Service :=
  { standard with decodeModels := fun _ => .ok [str "large"] }

def moving : Nat → Action
  | 0 => .createProvider hosted
  | 1 => .chat hello
  | 2 => .patchProvider (str "llm-000001") moved
  | _ => .chat hello

def movedAfter : List (Pick Draw Nat) := [
  .start 0, .act 0 calm, .start 1, .act 1 calm, .act 1 calm, .act 1 calm, .act 1 calm,
  .start 2, .act 2 calm, .start 3, .act 3 calm, .act 3 calm, .act 3 calm
]

def movedBefore : List (Pick Draw Nat) := [
  .start 0, .act 0 calm, .start 1, .act 1 calm, .act 1 calm, .act 1 calm,
  .start 2, .act 2 calm, .act 1 calm, .start 3, .act 3 calm, .act 3 calm
]

theorem moved_after_current : (pool listing moving).Allows (Current listing) movedAfter ⟨initial, []⟩ :=
  unmoved_current (by decide)

theorem moved_before_stale : ¬∀ calls ps,
    (pool listing calls).Throughout Fresh ps ⟨initial, []⟩ →
    (pool listing calls).Allows (Current listing) ps ⟨initial, []⟩ := by
  intro h
  exact absurd (h moving movedBefore (by decide)) (by decide)

end Move
end Playground.ModelCache

import Knaic.Playground.AgentSessions

open Go Effects

namespace Playground.OneSession

open Auth Pool
open Contract (Ok)

-- A call of `RunAgent`.
structure Request where
  user      : Option User
  sessionID : Str
  message   : Str
  ctx       : AgentRunContext

-- The state of the service. Beside it, by the identifier of an agent session: the sessions of opencode
-- that were created for it, the one that a call is about to store with it, and whether one was created
-- that no later call can find. Then the messages, by agent session and session of opencode.
structure World where
  state   : Agent.State
  created : Str → List Str
  storing : Str → Option Str
  unkept  : Str → Bool
  posted  : List (Str × Str)

-- Beside what an operation finds: a session that opencode creates and whose identifier never arrives,
-- and how the providers change.
structure Draw extends Agent.Draw where
  lost      : Option Str
  providers : State

def Usable (openCodeSession : Str) : Prop :=
  openCodeSession.hasPrefix (str "ses_")

instance (openCodeSession : Str) : Decidable (Usable openCodeSession) :=
  inferInstanceAs (Decidable (openCodeSession.hasPrefix (str "ses_") = true))

variable (s : Service) (r : AgentRunner)

-- The identifier in an answer to the request for a session.
def heard (resp : Except Error Str) : Option Str :=
  match resp with
  | .error _ => none
  | .ok body =>
    match r.decodeSession body with
    | .error _ | .ok [] => none
    | .ok id            => some id

namespace World

variable (w : World)

def create (sid id : Str) : World :=
  { w with created := Function.update w.created sid (id :: w.created sid) }

def record (i : Request) (op : Agent.ops.Op) (d : Draw) : World :=
  match op with
  | .inr .postSession                => (
    match heard r d.session, d.lost with
    | some id, _      => { w.create i.sessionID id with
        storing := Function.update w.storing i.sessionID (some id)
        unkept  := Function.update w.unkept i.sessionID (w.unkept i.sessionID || decide ¬Usable id) }
    | none, some id   => { w.create i.sessionID id with
        unkept  := Function.update w.unkept i.sessionID true }
    | none, none      => w)
  | .inr (.setOpenCodeSession sid _) => { w with storing := Function.update w.storing sid none }
  | .inr (.postMessage openCode _)   => { w with posted := (i.sessionID, openCode) :: w.posted }
  | _                                => w

-- At most one session is created for each agent session, and all of its messages go there.
structure One : Prop where
  created : ∀ sid, (w.created sid).length ≤ 1
  posted  : ∀ p ∈ w.posted, w.created p.1 = [p.2]

end World

-- The pool of all calls of `RunAgent`, while the providers change.
def pool : Pool Agent.ops Draw World Request (Except Error Unit) where
  answer i op d w :=
    let a := Agent.answer s op d.toDraw w.state
    (a.1, { w with state := a.2 }.record r i op d)
  env d w := { w with state := { w.state with providers := d.providers } }
  code i  := runAgent r i.user i.sessionID i.message i.ctx

-- Sessions are kept under their own identifiers, which are not empty.
def Kept (store : MemoryAgentStore) : Prop :=
  ∀ id session, store.sessions.lookup id = some session → session.id = id ∧ id ≠ []

-- A session is requested only where none can be used, none is about to be stored, and none was created
-- that cannot be found.
def Alone : Pool.Condition Agent.ops Draw World Request :=
  fun i op _ w =>
    match op with
    | .inr .postSession =>
      (∀ session ∈ w.state.store.sessions.lookup i.sessionID, ¬Usable session.openCodeSession) ∧
      w.storing i.sessionID = none ∧ w.unkept i.sessionID = false
    | _                 => True

instance (i : Request) (op : Agent.ops.Op) (d : Draw) (w : World) : Decidable (Alone i op d w) := by
  unfold Alone
  split <;> infer_instance

-- A session of opencode that was created is stored or about to be, unless nobody can find it, and what
-- is stored was created.
structure Inv (w : World) : Prop where
  kept   : Kept w.state.store
  one    : w.One
  stored : ∀ sid session, w.state.store.sessions.lookup sid = some session →
           Usable session.openCodeSession → w.created sid = [session.openCodeSession]
  told   : ∀ sid id, w.created sid = [id] → Usable id ∨ w.unkept sid
  found  : ∀ sid, w.created sid ≠ [] → w.storing sid ≠ none ∨ w.unkept sid ∨
           ∃ session, w.state.store.sessions.lookup sid = some session ∧ Usable session.openCodeSession

-- Agent sessions stay, and so does the session of opencode that was created for one.
structure Rely (w w' : World) : Prop where
  present : ∀ sid, (w.state.store.sessions.lookup sid).isSome → (w'.state.store.sessions.lookup sid).isSome
  created : ∀ sid id, w.created sid = [id] → w'.created sid = [id]

-- A session is created where there was none, the one that is stored is the one that was created, and
-- it gets the messages.
def Guar : Pool.Condition Agent.ops Draw World Request :=
  fun i op _ w =>
    match op with
    | .inr .postSession                 => w.created i.sessionID = []
    | .inr (.setOpenCodeSession sid id) =>
      (w.state.store.sessions.lookup sid).isSome ∧ w.created sid = [id]
    | .inr (.postMessage id _)          => w.created i.sessionID = [id]
    | .inr (.createSession _)           => False
    | .inr (.deleteSession _ _)         => False
    | _                                 => True

theorem createSession_kept {store : MemoryAgentStore} {now : Time} {random : Vector UInt8 4}
    (h : Kept store) (session : AgentSession) : Kept (store.createSession session now random).2 := by
  intro id' session' hl
  cases Go.Map.lookup_insert_some hl
  case inr hl => exact h id' session' hl
  case inl he =>
    obtain ⟨rfl, rfl⟩ := he
    refine ⟨rfl, ?_⟩
    split
    case isTrue  => simp [newID, str]
    case isFalse => assumption

-- Whatever is changed in a session, it stays under its identifier.
theorem Kept.changed {store store' : MemoryAgentStore} (h : Kept store) {f : Str → AgentSession → AgentSession}
    (hl : ∀ id, store'.sessions.lookup id = (store.sessions.lookup id).map (f id))
    (hf : ∀ id a, (f id a).id = a.id) : Kept store' := by
  intro id session hs
  have ⟨a, ha, he⟩ := Option.map_eq_some_iff.mp ((hl id).symm.trans hs)
  subst he
  exact ⟨(hf id a).trans (h id a ha).left, (h id a ha).right⟩

section Steps

variable {s r} {i : Request} {d : Draw} {w : World}

-- What is new is told to be usable or lost.
theorem Inv.create {id : Str} {storing : Option Str} {unkept : Bool} (h : Inv w)
    (hn : w.created i.sessionID = []) (hf : storing ≠ none ∨ unkept = true) (ht : Usable id ∨ unkept = true) :
    Inv { w.create i.sessionID id with
      storing := Function.update w.storing i.sessionID storing
      unkept  := Function.update w.unkept i.sessionID unkept } where
  kept        := h.kept
  one.created := by
    intro sid
    by_cases he : sid = i.sessionID
    case pos => subst he; simp [World.create, hn]
    case neg => simpa [World.create, Function.update_of_ne he] using h.one.created sid
  one.posted  := by
    intro p hp
    have hc := h.one.posted p hp
    by_cases he : p.1 = i.sessionID
    case pos => rw [he, hn] at hc; cases hc
    case neg => simpa [World.create, Function.update_of_ne he] using hc
  stored      := by
    intro sid session hl hu
    have hc := h.stored sid session hl hu
    by_cases he : sid = i.sessionID
    case pos => rw [he, hn] at hc; cases hc
    case neg => simpa [World.create, Function.update_of_ne he] using hc
  told        := by
    intro sid id' hc
    by_cases he : sid = i.sessionID
    case pos =>
      subst he
      simp only [World.create, Function.update_self, hn, List.cons.injEq, and_true] at hc ⊢
      exact hc ▸ ht
    case neg =>
      simp only [World.create, Function.update_of_ne he] at hc ⊢
      exact h.told sid id' hc
  found       := by
    intro sid hc
    by_cases he : sid = i.sessionID
    case pos =>
      subst he
      simp only [Function.update_self]
      exact hf.imp (fun hs => hs) .inl
    case neg =>
      simp only [World.create, Function.update_of_ne he] at hc ⊢
      exact h.found sid hc

theorem Inv.post (h : Inv w) (hn : w.created i.sessionID = []) :
    Inv (w.record r i (.inr .postSession) d) := by
  unfold World.record
  dsimp only
  split
  case h_1 id _ =>
    refine h.create hn (.inl (by simp)) ?_
    by_cases hu : Usable id <;> simp [hu]
  case h_2 id _ _ =>
    have hc := @Inv.create _ _ id (w.storing i.sessionID) true h hn (.inr rfl) (.inr rfl)
    rwa [Function.update_eq_self] at hc
  case h_3 => exact h

-- A change that leaves the sessions of opencode alone.
theorem Inv.changed {store : MemoryAgentStore} {f : Str → AgentSession → AgentSession} (h : Inv w)
    (hl : ∀ id, store.sessions.lookup id = (w.state.store.sessions.lookup id).map (f id))
    (hf : ∀ id a, (f id a).id = a.id ∧ (f id a).openCodeSession = a.openCodeSession) :
    Inv { w with state := { w.state with store := store } } where
  kept   := h.kept.changed hl fun id a => (hf id a).left
  one    := ⟨h.one.created, h.one.posted⟩
  stored := by
    intro sid session hs hu
    have ⟨a, ha, he⟩ := Option.map_eq_some_iff.mp ((hl sid).symm.trans hs)
    subst he
    rw [(hf sid a).right] at hu ⊢
    exact h.stored sid a ha hu
  told   := h.told
  found  := by
    intro sid hc
    refine (h.found sid hc).imp_right (.imp_right ?_)
    intro ⟨a, ha, hu⟩
    exact ⟨f sid a, by simp [hl, ha], (hf sid a).right.symm ▸ hu⟩

theorem Inv.store {sid id : Str} {now : Time} (h : Inv w)
    (hp : (w.state.store.sessions.lookup sid).isSome) (hc : w.created sid = [id]) :
    Inv { w with
      state   := { w.state with store := (w.state.store.setOpenCodeSession sid id now).2 }
      storing := Function.update w.storing sid none } where
  kept   := h.kept.changed (MemoryAgentStore.setOpenCodeSession_lookup sid id)
    fun id a => by split <;> rfl
  one    := ⟨h.one.created, h.one.posted⟩
  stored := by
    intro sid' session hs hu
    have ⟨a, ha, he⟩ := Option.map_eq_some_iff.mp
      ((MemoryAgentStore.setOpenCodeSession_lookup sid id sid').symm.trans hs)
    subst he
    split at hu
    case isTrue he  => subst he; simpa using hc
    case isFalse he => simpa [he] using h.stored sid' a ha hu
  told   := h.told
  found  := by
    intro sid' hc'
    by_cases he : sid' = sid
    case neg =>
      simp only [Function.update_of_ne he]
      refine (h.found sid' hc').imp_right (.imp_right ?_)
      intro ⟨a, ha, hu⟩
      exact ⟨a, by simp [MemoryAgentStore.setOpenCodeSession_lookup, ha, he], hu⟩
    case pos =>
      subst he
      refine .inr ((h.told sid' id hc).symm.imp_right fun hu => ?_)
      have ⟨a, ha⟩ := Option.isSome_iff_exists.mp hp
      exact ⟨{ a with openCodeSession := id, updatedAt := now },
        by simp [MemoryAgentStore.setOpenCodeSession_lookup, ha], hu⟩

theorem guar_inv {op : Agent.ops.Op} (hg : Guar i op d w) (h : Inv w) :
    Inv ((pool s r).answer i op d w).2 := by
  cases op
  case inl op => exact ⟨h.kept, ⟨h.one.created, h.one.posted⟩, h.stored, h.told, h.found⟩
  case inr op =>
    cases op
    case createSession | deleteSession => exact hg.elim
    case setOpenCodeSession sid id     => exact h.store hg.left hg.right
    case postSession                   => exact h.post hg
    case appendMessage sid msg         =>
      exact h.changed (MemoryAgentStore.appendMessage_lookup sid msg) fun id a => by split <;> exact ⟨rfl, rfl⟩
    case postMessage id body           =>
      refine ⟨h.kept, ⟨h.one.created, ?_⟩, h.stored, h.told, h.found⟩
      intro p hp
      cases List.mem_cons.mp hp
      case inl he => subst he; exact hg
      case inr hm => exact h.one.posted p hm
    all_goals exact h

theorem create_rely {id : Str} {storing : Str → Option Str} {unkept : Str → Bool}
    (hn : w.created i.sessionID = []) :
    Rely w { w.create i.sessionID id with storing := storing, unkept := unkept } where
  present _ hp  := hp
  created sid id' hc := by
    have he : sid ≠ i.sessionID := by
      rintro rfl
      cases hn.symm.trans hc
    simpa [World.create, Function.update_of_ne he] using hc

theorem guar_rely {op : Agent.ops.Op} (hg : Guar i op d w) :
    Rely w ((pool s r).answer i op d w).2 := by
  have same (w' : World) (hs : w'.state.store.sessions = w.state.store.sessions)
      (hc : w'.created = w.created) : Rely w w' :=
    ⟨fun sid hp => hs ▸ hp, fun sid id h => hc ▸ h⟩
  cases op
  case inl op => exact same _ rfl rfl
  case inr op =>
    cases op
    case createSession | deleteSession => exact hg.elim
    case setOpenCodeSession sid id     =>
      refine ⟨fun sid' hp => ?_, fun _ _ hc => hc⟩
      simpa [pool, World.record, Agent.answer, MemoryAgentStore.setOpenCodeSession_lookup] using hp
    case appendMessage sid msg         =>
      refine ⟨fun sid' hp => ?_, fun _ _ hc => hc⟩
      simpa [pool, World.record, Agent.answer, MemoryAgentStore.appendMessage_lookup] using hp
    case postSession                   =>
      show Rely w (w.record r i (.inr .postSession) d)
      unfold World.record
      dsimp only
      split
      case h_1 | h_2 => exact create_rely hg
      case h_3       => exact same _ rfl rfl
    all_goals exact same _ rfl rfl

variable (s r) in
def contract : Contract (pool s r) where
  inv                   := Inv
  rely                  := Rely
  guar                  := Guar
  refl _                := ⟨fun _ h => h, fun _ _ h => h⟩
  trans h₁ h₂           := ⟨fun sid h => h₂.present sid (h₁.present sid h),
                            fun sid id h => h₂.created sid id (h₁.created sid id h)⟩
  guar_inv hg h         := guar_inv hg h
  guar_rely hg _        := guar_rely hg
  env_inv h             := ⟨h.kept, ⟨h.one.created, h.one.posted⟩, h.stored, h.told, h.found⟩
  env_rely _            := ⟨fun _ h => h, fun _ _ h => h⟩

-- Where a session is requested, none was created.
theorem Inv.none_created {sid : Str} (h : Inv w)
    (ha : ∀ session ∈ w.state.store.sessions.lookup sid, ¬Usable session.openCodeSession)
    (hs : w.storing sid = none) (hu : w.unkept sid = false) : w.created sid = [] := by
  by_contra hc
  rcases h.found sid hc with hs' | hu' | ⟨session, hl, hu'⟩
  · exact hs' hs
  · simp [hu] at hu'
  · exact ha session hl hu'

end Steps

section Calls

variable {s r} {i : Request} {w : World}

-- What the call knows of its session since it has read it.
structure Read (i : Request) (session : AgentSession) (w : World) : Prop where
  id      : session.id = i.sessionID
  ne_nil  : i.sessionID ≠ []
  present : (w.state.store.sessions.lookup i.sessionID).isSome
  usable  : Usable session.openCodeSession → w.created i.sessionID = [session.openCodeSession]

theorem Read.stable {session : AgentSession} {w' : World} (h : Read i session w) (hr : Rely w w') :
    Read i session w' where
  id        := h.id
  ne_nil    := h.ne_nil
  present   := hr.present _ h.present
  usable hu := hr.created _ _ (h.usable hu)

-- An operation that owes nothing to the others.
theorem perform_safe {op : Agent.Op} (hg : ∀ d w₁, Rely w w₁ → Inv w₁ →
    Alone i (.inr op) d w₁ → Guar i (.inr op) d w₁) :
    (contract s r).Safe Alone i (fun _ _ => True) (Agent.perform op) w :=
  Contract.Safe.perform (fun w₁ hr hv d hp => hg d w₁ hr hv hp) fun _ _ _ _ _ _ _ _ => trivial

theorem getSession_safe :
    (contract s r).Safe Alone i (Ok (Read i)) (Agent.getSession (ownerFromUser i.user) i.sessionID) w := by
  refine Contract.Safe.perform (fun _ _ _ _ _ => trivial) fun w₁ _ hv d _ w₂ hr _ => ?_
  refine Ok.intro fun session hs => Read.stable ?_ hr
  replace hs : w₁.state.store.getSession (ownerFromUser i.user) i.sessionID = .ok session := hs
  unfold MemoryAgentStore.getSession at hs
  split at hs
  case h_1      => cases hs
  case h_2 a hl =>
    split at hs
    case isTrue  => cases hs
    case isFalse =>
      cases hs
      have ⟨hi, hn⟩ := hv.kept _ _ hl
      exact ⟨hi, hn, Option.isSome_iff_exists.mpr ⟨a, hl⟩, hv.stored _ a hl⟩

theorem providerForChat_safe (id : Str) (hv : Inv w) :
    (contract s r).Safe Alone i (Ok fun _ _ => True) (Agent.providerForChat id) w := by
  refine @Contract.Safe.lift_call _ _ _ _ _ _ _ _ _ (fun _ => .ret (.ok ())) _ _ _ _ _ _ ?_
  unfold Service.providerForChat
  split
  case isTrue  => exact Contract.Safe.throw
  case isFalse =>
    have hp : ((contract s r).restrict fun _ => .ret (.ok ())).Safe (Condition.restrict Alone) i
        (fun _ _ => True) (perform (.provider id)) w :=
      Contract.Safe.perform (fun _ _ _ _ _ => trivial) fun _ _ _ _ _ _ _ _ => trivial
    refine Contract.Safe.seq hp.lift hv fun found w₁ _ _ _ => ?_
    split
    case h_1   => exact Contract.Safe.throw
    case h_2 p =>
      split
      case isTrue  => exact Contract.Safe.throw
      case isFalse => exact Contract.Safe.pure fun _ _ _ => trivial

theorem appendMessage_safe (sid : Str) (msg : AgentMessage) :
    (contract s r).Safe Alone i (Ok fun _ _ => True) (Agent.appendMessage sid msg) w :=
  Contract.Safe.ok (perform_safe fun _ _ _ _ _ => trivial)

-- The session that the call goes on with is the one that was created.
theorem ensureOpenCodeSession_safe {session : AgentSession} {req : AgentRunnerRequest}
    (hs : req.sessionID = session.id) (ho : req.openCodeSession = session.openCodeSession)
    (hm : Read i session w) (hv : Inv w) :
    (contract s r).Safe Alone i (Ok fun id w => w.created i.sessionID = [id])
      (r.ensureOpenCodeSession req) w := by
  unfold AgentRunner.ensureOpenCodeSession
  split
  case isTrue hu =>
    refine Contract.Safe.pure fun w₁ hr _ => hr.created _ _ ?_
    rw [ho] at hu ⊢
    exact hm.usable hu
  case isFalse =>
    have hp : (contract s r).Safe Alone i
        (Ok fun body w => Read i session w ∧ ∀ id, r.decodeSession body = .ok id → id ≠ [] →
          w.created i.sessionID = [id]) Agent.postSession w := by
      refine Contract.Safe.perform (fun w₁ _ hv d ⟨ha, hs, hu⟩ => hv.none_created ha hs hu)
        fun w₁ hr hv d ⟨ha, hs, hu⟩ w₂ hr' _ => ?_
      have hn := hv.none_created ha hs hu
      have hg : Rely w₁ ((pool s r).answer i (.inr .postSession) d w₁).2 := guar_rely hn
      refine Ok.intro fun body hb => ⟨(hm.stable hr).stable ((contract s r).trans hg hr'), ?_⟩
      intro id hd hne
      refine hr'.created _ _ ?_
      have hh : heard r d.session = some id := by
        replace hb : d.session = .ok body := hb
        simp only [heard, hb, hd]
      simp [pool, World.record, hh, World.create, Agent.answer, hn]
    refine Contract.Safe.seq hp.mapError hv fun body w₁ _ hv₁ ⟨hm₁, hd⟩ => ?_
    split
    case h_1      => exact Contract.Safe.throw
    case h_2 id h =>
      split
      case isTrue     => exact Contract.Safe.throw
      case isFalse hn =>
        have hc := hd id h hn
        split
        case isFalse => exact Contract.Safe.pure fun _ hr _ => hr.created _ _ hc
        case isTrue  =>
          have hset : (contract s r).Safe Alone i (fun _ _ => True)
              (Agent.perform (.setOpenCodeSession req.sessionID id)) w₁ := by
            refine perform_safe fun d w₂ hr _ _ => ?_
            rw [hs, hm₁.id]
            exact ⟨hr.present _ hm₁.present, hr.created _ _ hc⟩
          refine Contract.Safe.seq hset.lift hv₁ fun _ w₂ hr _ _ => ?_
          exact Contract.Safe.pure fun _ hr' _ => hr'.created _ _ (hr.created _ _ hc)

theorem emitAll_safe (evs : List AgentEvent) (hv : Inv w) :
    (contract s r).Safe Alone i (Ok fun _ _ => True) (AgentRunner.emitAll evs) w := by
  induction evs generalizing w
  case nil            => exact Contract.Safe.pure fun _ _ _ => trivial
  case cons ev evs hi =>
    have he : (contract s r).Safe Alone i (fun _ _ => True) (Agent.perform (.emit ev)) w :=
      perform_safe fun _ _ _ _ _ => trivial
    exact Contract.Safe.seq he.lift hv fun _ _ _ hv _ => hi hv

theorem postMessage_safe {id : Str} (req : AgentRunnerRequest) (hc : w.created i.sessionID = [id])
    (hv : Inv w) : (contract s r).Safe Alone i (Ok fun _ _ => True) (r.postMessage id req) w := by
  have hp (body : MessageBody) :
      (contract s r).Safe Alone i (Ok fun _ _ => True) (Agent.postMessage id body) w :=
    Contract.Safe.ok (perform_safe fun _ _ hr _ _ => hr.created _ _ hc)
  refine Contract.Safe.seq (hp _).mapError hv fun resp w₁ _ hv₁ _ => ?_
  split
  case h_1 => exact Contract.Safe.throw
  case h_2 =>
    exact Contract.Safe.seq (emitAll_safe _ hv₁) hv₁ fun _ _ _ _ _ => Contract.Safe.pure fun _ _ _ => trivial

theorem run_safe {session : AgentSession} {req : AgentRunnerRequest} (hs : req.sessionID = session.id)
    (ho : req.openCodeSession = session.openCodeSession) (hm : Read i session w) (hv : Inv w) :
    (contract s r).Safe Alone i (Ok fun _ _ => True) (r.run req) w := by
  unfold AgentRunner.run
  split
  case isTrue  => exact Contract.Safe.throw
  case isFalse =>
    have he : (contract s r).Safe Alone i (Ok fun _ _ => True) (Agent.ensureSnapshotCovers req.provider) w :=
      Contract.Safe.ok (perform_safe fun _ _ _ _ _ => trivial)
    refine Contract.Safe.seq he hv fun _ w₁ hr hv₁ _ => ?_
    refine Contract.Safe.seq (ensureOpenCodeSession_safe hs ho (hm.stable hr) hv₁) hv₁ fun id w₂ _ hv₂ hc => ?_
    exact postMessage_safe req hc hv₂

theorem runAgent_safe (hv : Inv w) : (contract s r).Safe Alone i (Ok fun _ _ => True)
    (runAgent r i.user i.sessionID i.message i.ctx) w := by
  unfold runAgent
  dsimp only
  split
  case isTrue  => exact Contract.Safe.throw
  case isFalse =>
    refine Contract.Safe.seq getSession_safe hv fun session w₁ _ hv₁ hm => ?_
    refine Contract.Safe.seq (providerForChat_safe _ hv₁) hv₁ fun provider w₂ hr₂ hv₂ _ => ?_
    refine Contract.Safe.seq (appendMessage_safe _ _) hv₂ fun _ w₃ hr₃ hv₃ _ => ?_
    have hm₃ := (hm.stable hr₂).stable hr₃
    refine Contract.Safe.seq (@run_safe _ _ _ _ session _ ?_ ?_ hm₃ hv₃) hv₃ fun evs w₄ _ hv₄ _ => ?_
    case refine_1 => rfl
    case refine_2 => rfl
    case refine_3 =>
      split
      case isTrue  => exact Contract.Safe.pure fun _ _ _ => trivial
      case isFalse => exact appendMessage_safe _ _

end Calls

-- A service that has just been started: what is stored of the sessions of opencode was created for them.
def initial (st : Agent.State) : World where
  state       := st
  created sid :=
    match st.store.sessions.lookup sid with
    | none         => []
    | some session => if Usable session.openCodeSession then [session.openCodeSession] else []
  storing _   := none
  unkept _    := false
  posted      := []

variable {s r}

theorem initial_inv {st : Agent.State} (hk : Kept st.store) : Inv (initial st) where
  kept        := hk
  one.created := by
    intro sid
    simp only [initial]
    split
    case h_1 => simp
    case h_2 => split <;> simp
  one.posted  := nofun
  stored      := by
    intro sid session hl hu
    replace hl : st.store.sessions.lookup sid = some session := hl
    simp only [initial, hl, if_pos hu]
  told        := by
    intro sid id hc
    simp only [initial] at hc
    split at hc
    case h_1 => cases hc
    case h_2 =>
      split at hc
      case isTrue hu => exact .inl ((List.cons.inj hc).left ▸ hu)
      case isFalse   => cases hc
  found       := by
    intro sid hc
    simp only [initial] at hc
    split at hc
    case h_1            => exact absurd rfl hc
    case h_2 session hl =>
      split at hc
      case isTrue hu => exact .inr (.inr ⟨session, hl, hu⟩)
      case isFalse   => exact absurd rfl hc

theorem alone_one {st : Agent.State} {ps : List (Pick Draw Request)} (hk : Kept st.store)
    (h : (pool s r).Allows Alone ps ⟨initial st, []⟩) :
    ((pool s r).run ⟨initial st, []⟩ ps).world.One := by
  have hh : (contract s r).Holds Alone ⟨initial st, []⟩ := ⟨initial_inv hk, by simp⟩
  exact (hh.run (fun i w hv => (runAgent_safe hv).any) h).inv.one

-- Two messages are the first ones of a session.
section Split

def vllm : Provider where
  id          := str "llm-000001"
  name        := str "vllm"
  source      := sourceExternal
  ns          := []
  endpoint    := str "http://vllm.ml/v1"
  apiKey      := []
  model       := str "qwen"
  description := []
  status      := statusReady

def session : AgentSession where
  id              := []
  owner           := str "ann"
  ns              := str "ml"
  providerID      := str "llm-000001"
  openCodeSession := []
  title           := str "New agent session"
  skills          := some []
  createdAt       := Time.zero
  updatedAt       := Time.zero
  messages        := []

def started : Agent.State where
  providers := ⟨.ofList [(str "llm-000001", vllm)], 1, ∅⟩
  store     := (MemoryAgentStore.createSession ⟨∅, ∅, 0⟩ session ⟨1, 0⟩ (.replicate 4 0)).2

-- Bodies are as short as the identifiers in them.
def runner : AgentRunner where
  agentName        := str "knaic-readonly"
  decodeSession id := .ok id
  decodeEnvelope _ := none

def hello : Request where
  user      := some ⟨str "ann", [], [], [], false⟩
  sessionID := str "agent-00000000"
  message   := str "hello"
  ctx       := ⟨[], [], []⟩

def calm (id : String) : Draw where
  now       := ⟨2, 0⟩
  response  := .ok ⟨200, [], []⟩
  random    := .replicate 4 0
  covered   := .ok ()
  session   := .ok (str id)
  message   := .ok (.ok [])
  lost      := none
  providers := started.providers

def turn (n : Nat) (id : String) (steps : Nat) : List (Pick Draw Request) :=
  List.replicate steps (.act n (calm id))

theorem started_kept : Kept started.store := by
  refine createSession_kept (fun id a hl => ?_) session
  cases (Finmap.lookup_empty id).symm.trans hl

theorem one_after_other :
    ((pool standard runner).run ⟨initial started, []⟩
      (.start hello :: turn 0 "ses_a" 9 ++ .start hello :: turn 1 "ses_b" 9)).world.One :=
  alone_one started_kept (by decide)

theorem split_not_one : ¬∀ st ps, Kept st.store →
    ((pool standard runner).run ⟨initial st, []⟩ ps).world.One := by
  intro h
  have ho := h started (.start hello :: .start hello :: turn 0 "ses_a" 4 ++ turn 1 "ses_b" 5 ++ turn 0 "ses_a" 1)
    started_kept
  exact absurd (ho.created (str "agent-00000000")) (by decide)

end Split
end Playground.OneSession

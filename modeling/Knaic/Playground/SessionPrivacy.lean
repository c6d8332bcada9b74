import Knaic.Effects.Interference
import Knaic.Playground.AgentSessions

open Go Effects

namespace Playground.SessionPrivacy

open Auth Pool
open Contract (Ok)

inductive Action
  | listAgentSessions (ns : Str)
  | createAgentSession (req : CreateAgentSessionRequest)
  | getAgentSession (id : Str)
  | deleteAgentSession (id : Str)
  | runAgent (sessionID message : Str) (ctx : AgentRunContext)

structure Request where
  user   : Option User
  action : Action

def Request.owner (i : Request) : Str :=
  ownerFromUser i.user

-- The state of the service, and the identifiers that sessions have had so far.
structure World where
  state : Agent.State
  used  : List Str

structure Draw extends Agent.Draw where
  providers : State

namespace World

-- The sessions of an owner with their messages, by identifier.
def sessionsOf (owner : Str) (w : World) : Str → Option (AgentSession × List AgentMessage) :=
  w.state.store.view owner

def record (w : World) (op : Agent.ops.Op) (r : Agent.ops.Res op) : World :=
  match op, r with
  | .inr (.createSession _), session => { w with used := session.id :: w.used }
  | _, _                             => w

end World

variable (s : Service) (r : AgentRunner)

-- A call, with the sessions that it returns.
def Request.code (r : AgentRunner) (i : Request) : Agent.Call (List AgentSession) :=
  match i.action with
  | .listAgentSessions ns           => listAgentSessions i.user ns
  | .createAgentSession req         => do
    let session ← createAgentSession i.user req
    return [session]
  | .getAgentSession id             => do
    let session ← getAgentSession i.user id
    return [session]
  | .deleteAgentSession id          => do
    deleteAgentSession i.user id
    return []
  | .runAgent sessionID message ctx => do
    runAgent r i.user sessionID message ctx
    return []

-- The pool of all calls about agent sessions, while the providers change.
def pool : Pool Agent.ops Draw World Request (Except Error (List AgentSession)) where
  answer _ op d w :=
    let a := Agent.answer s op d.toDraw w.state
    (a.1, { w with state := a.2 }.record op a.1)
  env d w := { w with state := { w.state with providers := d.providers } }
  code i  := i.code r

-- An identifier that is made up is a new one.
def Fresh : Pool.Condition Agent.ops Draw World Request :=
  fun _ op d w =>
    match op with
    | .inr (.createSession _) => newID "agent" d.random ∉ w.used
    | _                       => True

instance (i : Request) (op : Agent.ops.Op) (d : Draw) (w : World) : Decidable (Fresh i op d w) :=
  match op with
  | .inr (.createSession _) => inferInstanceAs (Decidable (newID "agent" d.random ∉ w.used))
  | .inl _ | .inr (.listSessions _ _) | .inr (.getSession _ _) | .inr (.deleteSession _ _)
  | .inr (.setOpenCodeSession _ _) | .inr (.appendMessage _ _) | .inr (.ensureSnapshotCovers _)
  | .inr .postSession | .inr (.postMessage _ _) | .inr (.emit _) => .isTrue trivial

-- The sessions in an answer.
def returned (op : Agent.ops.Op) (r : Agent.ops.Res op) : List AgentSession :=
  match op, r with
  | .inr (.listSessions _ _), l     => l
  | .inr (.createSession _), a      => [a]
  | .inr (.getSession _ _), .ok a   => [a]
  | _, _                            => []

-- An operation of a call returns only sessions of its owner, and leaves those of others as they are.
structure Private (i : Request) (op : Agent.ops.Op) (d : Draw) (w : World) : Prop where
  returns : ∀ a ∈ returned op ((pool s r).answer i op d w).1, a.owner = i.owner
  leaves  : ∀ owner, owner ≠ i.owner →
            ((pool s r).answer i op d w).2.sessionsOf owner = w.sessionsOf owner

-- The call may write to the session: whoever has it now is the owner of the call, and nobody else can
-- come to have it.
structure Mine (i : Request) (id : Str) (w : World) : Prop where
  used  : id ∈ w.used
  owner : ∀ a, w.state.store.sessions.lookup id = some a → a.owner = i.owner

def Guar : Pool.Condition Agent.ops Draw World Request :=
  fun i op d w =>
    match op with
    | .inl op                          => ∃ id, op = .provider id
    | .inr (.listSessions owner _)     => owner = i.owner
    | .inr (.createSession a)          => a.owner = i.owner ∧ a.id = [] ∧ newID "agent" d.random ∉ w.used
    | .inr (.getSession owner _)       => owner = i.owner
    | .inr (.deleteSession owner _)    => owner = i.owner
    | .inr (.setOpenCodeSession id _)  => Mine i id w
    | .inr (.appendMessage id _)       => Mine i id w
    | _                                => True

-- Sessions are kept under their identifiers, which have been used.
structure Inv (w : World) : Prop where
  keyed  : ∀ id a, w.state.store.sessions.lookup id = some a → a.id = id ∧ id ∈ w.used
  logged : ∀ id, w.state.store.messages.lookup id ≠ none → id ∈ w.used

-- An identifier that has been used stays with its owner.
structure Rely (w w' : World) : Prop where
  used  : w.used ⊆ w'.used
  owner : ∀ id a', w'.state.store.sessions.lookup id = some a' → id ∈ w.used → ∃ a, w.state.store.sessions.lookup id = some a ∧ a.owner = a'.owner

theorem Rely.refl (w : World) : Rely w w where
  used           := List.Subset.refl _
  owner _ a' h _ := ⟨a', h, rfl⟩

theorem Rely.trans {w₁ w₂ w₃ : World} (h₁ : Rely w₁ w₂) (h₂ : Rely w₂ w₃) : Rely w₁ w₃ where
  used            := List.Subset.trans h₁.used h₂.used
  owner id a h hu := by
    have ⟨a', h', he'⟩ := h₂.owner id a h (h₁.used hu)
    have ⟨a'', h'', he''⟩ := h₁.owner id a' h' hu
    exact ⟨a'', h'', he''.trans he'⟩

theorem Mine.stable {i : Request} {id : Str} {w w' : World} (h : Mine i id w) (hr : Rely w w') :
    Mine i id w' where
  used       := hr.used h.used
  owner a ha := by
    have ⟨a', ha', he⟩ := hr.owner id a ha h.used
    exact he ▸ h.owner a' ha'

section Steps

variable {s r} {i : Request} {d : Draw} {w : World}

theorem guar_inv {op : Agent.ops.Op} (hg : Guar i op d w) (h : Inv w) :
    Inv ((pool s r).answer i op d w).2 := by
  cases op
  case inl op => exact ⟨h.keyed, h.logged⟩
  case inr op =>
    cases op
    case createSession a           =>
      refine ⟨fun id b hl => ?_, fun id hm => .tail _ (h.logged id hm)⟩
      cases Go.Map.lookup_insert_some hl
      case inl he => obtain ⟨rfl, rfl⟩ := he; exact ⟨rfl, .head _⟩
      case inr hl => exact ⟨(h.keyed id b hl).left, .tail _ (h.keyed id b hl).right⟩
    case deleteSession owner id    =>
      cases hv : w.state.store.view owner id
      case none   =>
        have he := MemoryAgentStore.deleteSession_none hv
        exact ⟨by simpa [pool, World.record, Agent.answer, he] using h.keyed,
          by simpa [pool, World.record, Agent.answer, he] using h.logged⟩
      case some v =>
        have he := MemoryAgentStore.deleteSession_some hv
        refine ⟨fun id' a hl => ?_, fun id' hm => ?_⟩
        all_goals simp only [pool, World.record, Agent.answer, he] at *
        case refine_1 => exact h.keyed id' a (Go.Map.lookup_erase_some hl)
        case refine_2 =>
          have ⟨ms, hl⟩ := Option.ne_none_iff_exists'.mp hm
          exact h.logged id' (Option.ne_none_iff_exists'.mpr ⟨ms, Go.Map.lookup_erase_some hl⟩)
    case setOpenCodeSession sid id =>
      refine ⟨fun id' a hl => ?_, fun id' hm => ?_⟩
      case refine_1 =>
        have ⟨b, hb, he⟩ := Option.map_eq_some_iff.mp
          ((MemoryAgentStore.setOpenCodeSession_lookup sid id id').symm.trans hl)
        have hk := h.keyed id' b hb
        subst he
        split <;> exact hk
      case refine_2 =>
        exact h.logged id' (by
          simpa [pool, World.record, Agent.answer, MemoryAgentStore.setOpenCodeSession_messages] using hm)
    case appendMessage sid msg     =>
      refine ⟨fun id a hl => ?_, fun id hm => ?_⟩
      case refine_1 =>
        have ⟨b, hb, he⟩ := Option.map_eq_some_iff.mp
          ((MemoryAgentStore.appendMessage_lookup sid msg id).symm.trans hl)
        have hk := h.keyed id b hb
        subst he
        split <;> exact hk
      case refine_2 =>
        cases MemoryAgentStore.appendMessage_messages hm
        case inl hm => exact h.logged id hm
        case inr hs =>
          have ⟨a, ha⟩ := Option.isSome_iff_exists.mp hs
          exact (h.keyed id a ha).right
    all_goals exact h

theorem guar_rely {op : Agent.ops.Op} (hg : Guar i op d w) :
    Rely w ((pool s r).answer i op d w).2 := by
  cases op
  case inl op => exact ⟨List.Subset.refl _, fun _ a h _ => ⟨a, h, rfl⟩⟩
  case inr op =>
    cases op
    case createSession a           =>
      refine ⟨List.subset_cons_self .., fun id b hl hu => ?_⟩
      cases Go.Map.lookup_insert_some hl
      case inr hl => exact ⟨b, hl, rfl⟩
      case inl he =>
        rw [if_pos hg.right.left] at he
        exact absurd (he.left ▸ hu) hg.right.right
    case deleteSession owner id    =>
      refine ⟨List.Subset.refl _, fun id' a hl _ => ⟨a, ?_, rfl⟩⟩
      cases hv : w.state.store.view owner id
      case none   =>
        simpa [pool, World.record, Agent.answer, MemoryAgentStore.deleteSession_none hv] using hl
      case some v =>
        simp only [pool, World.record, Agent.answer, MemoryAgentStore.deleteSession_some hv] at hl
        exact Go.Map.lookup_erase_some hl
    case setOpenCodeSession sid id =>
      refine ⟨List.Subset.refl _, fun id' a hl _ => ?_⟩
      have ⟨b, hb, he⟩ := Option.map_eq_some_iff.mp
        ((MemoryAgentStore.setOpenCodeSession_lookup sid id id').symm.trans hl)
      exact ⟨b, hb, by subst he; split <;> rfl⟩
    case appendMessage sid msg     =>
      refine ⟨List.Subset.refl _, fun id a hl _ => ?_⟩
      have ⟨b, hb, he⟩ := Option.map_eq_some_iff.mp
        ((MemoryAgentStore.appendMessage_lookup sid msg id).symm.trans hl)
      exact ⟨b, hb, by subst he; split <;> rfl⟩
    all_goals exact .refl w

variable (s r) in
def contract : Contract (pool s r) where
  inv            := Inv
  rely           := Rely
  guar           := Guar
  refl           := .refl
  trans          := .trans
  guar_inv hg h  := guar_inv hg h
  guar_rely hg _ := guar_rely hg
  env_inv h      := ⟨h.keyed, h.logged⟩
  env_rely _     := ⟨List.Subset.refl _, fun _ a h _ => ⟨a, h, rfl⟩⟩

-- There are no messages for an identifier that has not been used.
theorem Inv.unlogged {id : Str} (h : Inv w) (hn : id ∉ w.used) : w.state.store.messages.lookup id = none := by
  by_contra hm
  exact hn (h.logged id hm)

theorem guar_leaves {op : Agent.ops.Op} (hg : Guar i op d w) (h : Inv w) {owner : Str}
    (ho : owner ≠ i.owner) :
    ((pool s r).answer i op d w).2.sessionsOf owner = w.sessionsOf owner := by
  cases op
  case inl op => rfl
  case inr op =>
    funext id
    cases op
    case createSession a              =>
      refine (MemoryAgentStore.view_create hg.right.left (h.unlogged hg.right.right) owner).trans ?_
      split
      case isFalse   => rfl
      case isTrue he =>
        have hn : w.state.store.sessions.lookup id = none := by
          by_contra hs
          have ⟨b, hb⟩ := Option.ne_none_iff_exists'.mp hs
          exact hg.right.right (he ▸ (h.keyed id b hb).right)
        rw [hg.left, if_neg ho.symm]
        simp [World.sessionsOf, MemoryAgentStore.view, hn]
    case deleteSession owner' id'     =>
      refine (MemoryAgentStore.view_delete owner' owner id' id).trans (if_neg fun he => ?_)
      exact ho (he.right.trans hg)
    case setOpenCodeSession sid id'   =>
      refine (MemoryAgentStore.view_setOpenCode sid id' owner id).trans ?_
      by_cases he : id = sid
      case neg => simp [World.sessionsOf, he]
      case pos =>
        subst he
        have hn := MemoryAgentStore.view_other hg.owner ho
        simp [World.sessionsOf, hn]
    case appendMessage sid msg        =>
      refine (MemoryAgentStore.view_append sid msg owner id).trans ?_
      by_cases he : id = sid
      case neg => simp [World.sessionsOf, he]
      case pos =>
        subst he
        have hn := MemoryAgentStore.view_other hg.owner ho
        simp [World.sessionsOf, hn]
    all_goals rfl

theorem guar_returns {op : Agent.ops.Op} (hg : Guar i op d w) :
    ∀ a ∈ returned op ((pool s r).answer i op d w).1, a.owner = i.owner := by
  intro a ha
  cases op
  case inl op => cases ha
  case inr op =>
    cases op
    case listSessions owner ns =>
      have ⟨b, hb, he⟩ := List.mem_map.mp ha
      have ⟨_, hk⟩ := Go.Map.mem_sorted.mp hb
      have ho : b.owner = owner := by
        simp only [MemoryAgentStore.Listed, Bool.and_eq_true, decide_eq_true_eq] at hk
        exact hk.left
      exact he ▸ ho.trans hg
    case createSession b       => exact List.mem_singleton.mp ha ▸ hg.left
    case getSession owner id   =>
      replace ha : a ∈ returned (.inr (.getSession owner id)) (w.state.store.getSession owner id) := ha
      rw [MemoryAgentStore.getSession_eq] at ha
      cases hv : w.state.store.view owner id
      case none   => rw [hv] at ha; cases ha
      case some v =>
        rw [hv] at ha
        exact List.mem_singleton.mp ha ▸ (MemoryAgentStore.view_some hv).right.trans hg
    all_goals cases ha

theorem private_of_guar {op : Agent.ops.Op} (hg : Guar i op d w) (h : Inv w) : Private s r i op d w where
  returns     := guar_returns hg
  leaves _ ho := guar_leaves hg h ho

end Steps

-- What an owner sees of the state.
structure Sim (owner : Str) (w w' : World) : Prop where
  providers : w.state.providers = w'.state.providers
  used      : w'.used ⊆ w.used
  sessions  : w.sessionsOf owner = w'.sessionsOf owner

section Sim

variable {s r} {i : Request} {op : Agent.ops.Op} {d : Draw} {w w' : World}

theorem sim_sessions (hs : w.sessionsOf i.owner = w'.sessionsOf i.owner) (h : Inv w) (h' : Inv w')
    (hg : Guar i op d w) (hg' : Guar i op d w') :
    ((pool s r).answer i op d w).2.sessionsOf i.owner = ((pool s r).answer i op d w').2.sessionsOf i.owner := by
  cases op
  case inl op => exact hs
  case inr op =>
    have hv (id : Str) : w.state.store.view i.owner id = w'.state.store.view i.owner id := congrFun hs id
    funext id
    cases op
    case createSession a             =>
      refine (MemoryAgentStore.view_create hg.right.left (h.unlogged hg.right.right) i.owner).trans ?_
      rw [hv]
      exact (MemoryAgentStore.view_create hg'.right.left (h'.unlogged hg'.right.right) i.owner).symm
    case deleteSession owner id'     =>
      refine (MemoryAgentStore.view_delete owner i.owner id' id).trans ?_
      rw [hv]
      exact (MemoryAgentStore.view_delete owner i.owner id' id).symm
    case setOpenCodeSession sid id'  =>
      refine (MemoryAgentStore.view_setOpenCode sid id' i.owner id).trans ?_
      rw [hv]
      exact (MemoryAgentStore.view_setOpenCode sid id' i.owner id).symm
    case appendMessage sid msg       =>
      refine (MemoryAgentStore.view_append sid msg i.owner id).trans ?_
      rw [hv]
      exact (MemoryAgentStore.view_append sid msg i.owner id).symm
    all_goals exact hv id

theorem sim_answer (hs : Sim i.owner w w') (hg : Guar i op d w) (hg' : Guar i op d w') :
    ((pool s r).answer i op d w).1 = ((pool s r).answer i op d w').1 := by
  cases op
  case inl op =>
    show (s.answer op d.upstream w.state.providers).1 = (s.answer op d.upstream w'.state.providers).1
    rw [hs.providers]
  case inr op =>
    cases op
    case listSessions owner ns        =>
      obtain rfl : owner = i.owner := hg
      exact MemoryAgentStore.listSessions_congr hs.sessions ns
    case getSession owner id          =>
      obtain rfl : owner = i.owner := hg
      show w.state.store.getSession i.owner id = w'.state.store.getSession i.owner id
      have hv : w.state.store.view i.owner id = w'.state.store.view i.owner id := congrFun hs.sessions id
      rw [MemoryAgentStore.getSession_eq, MemoryAgentStore.getSession_eq, hv]
    case deleteSession owner id       =>
      obtain rfl : owner = i.owner := hg
      show (w.state.store.deleteSession i.owner id).1 = (w'.state.store.deleteSession i.owner id).1
      have hv : w.state.store.view i.owner id = w'.state.store.view i.owner id := congrFun hs.sessions id
      rw [MemoryAgentStore.deleteSession_eq, MemoryAgentStore.deleteSession_eq, hv]
    case setOpenCodeSession sid id    =>
      exact MemoryAgentStore.setOpenCodeSession_congr hs.sessions hg.owner hg'.owner id
    case appendMessage sid msg        =>
      exact MemoryAgentStore.appendMessage_congr hs.sessions hg.owner hg'.owner msg
    all_goals rfl

-- Nobody changes the providers.
theorem providers_stay (hg : Guar i op d w) :
    ((pool s r).answer i op d w).2.state.providers = w.state.providers := by
  cases op
  case inl op => obtain ⟨id, rfl⟩ := hg; rfl
  case inr op => cases op <;> rfl

theorem used_mono (hu : w'.used ⊆ w.used) (hg : Guar i op d w) (hg' : Guar i op d w') :
    ((pool s r).answer i op d w').2.used ⊆ ((pool s r).answer i op d w).2.used := by
  cases op
  case inl op => exact hu
  case inr op =>
    cases op
    case createSession => exact List.cons_subset_cons _ hu
    all_goals exact hu

theorem unwinding (owner : Str) :
    Unwinding (contract s r) Fresh (fun i => i.owner = owner) (Sim owner) where
  allows {i w w' op d} hm hs hp := by
    cases op
    case inl op => trivial
    case inr op =>
      cases op
      case createSession a => exact fun hu => hp (hs.used hu)
      all_goals trivial
  same {i w w' op d} hm hs hi hi' hg hg' := by
    obtain rfl := of_decide_eq_true hm
    refine ⟨sim_answer hs hg hg', ?_, used_mono hs.used hg hg', sim_sessions hs.sessions hi hi' hg hg'⟩
    exact (providers_stay hg).trans (hs.providers.trans (providers_stay hg').symm)
  other {i w w' op d} hm hs hi hg := by
    have ho : owner ≠ i.owner := Ne.symm (of_decide_eq_false hm)
    exact ⟨(providers_stay hg).trans hs.providers, List.Subset.trans hs.used (guar_rely hg).used,
      (guar_leaves hg hi ho).trans hs.sessions⟩
  env hs := ⟨rfl, hs.used, hs.sessions⟩

end Sim
section Calls

variable {s r} {i : Request} {w : World} {β : Type}

-- What a run does after it has found its session.
def Within (id : Str) : Agent.ops.Op → Prop
  | .inl op                        => ∃ id, op = .provider id
  | .inr (.setOpenCodeSession sid _) => sid = id
  | .inr (.appendMessage sid _)    => sid = id
  | .inr (.ensureSnapshotCovers _) => True
  | .inr .postSession              => True
  | .inr (.postMessage _ _)        => True
  | .inr (.emit _)                 => True
  | _                              => False

theorem providerForChat_only {A : Agent.ops.Op → Prop} (h : ∀ id, A (.inl (.provider id))) (id : Str) :
    (Agent.providerForChat id).Only A := by
  refine Prog.Only.lift ?_
  unfold Service.providerForChat
  split
  case isTrue  => trivial
  case isFalse =>
    refine Call.only_seq ⟨h id, fun _ => trivial⟩ fun found => ?_
    split
    case h_1 => trivial
    case h_2 => split <;> trivial

theorem emitAll_only (id : Str) (evs : List AgentEvent) : (AgentRunner.emitAll evs).Only (Within id) := by
  induction evs
  case nil        => trivial
  case cons hi    => exact Call.only_seq ⟨trivial, fun _ => trivial⟩ fun _ => hi

theorem run_only {req : AgentRunnerRequest} {id : Str} (h : req.sessionID = id) :
    (r.run req).Only (Within id) := by
  unfold AgentRunner.run
  split
  case isTrue  => trivial
  case isFalse =>
    refine Call.only_seq (Prog.Only.perform trivial) fun _ => Call.only_seq ?_ fun sessionID => ?_
    case refine_1 =>
      unfold AgentRunner.ensureOpenCodeSession
      split
      case isTrue  => trivial
      case isFalse =>
        refine Call.only_seq (Call.only_mapError (Prog.Only.perform trivial)) fun body => ?_
        split
        case h_1 => trivial
        case h_2 =>
          split
          case isTrue  => trivial
          case isFalse =>
            split
            case isTrue  => exact Call.only_seq ⟨h, fun _ => trivial⟩ fun _ => trivial
            case isFalse => trivial
    case refine_2 =>
      refine Call.only_seq (Call.only_mapError (Prog.Only.perform trivial)) fun resp => ?_
      split
      case h_1 => trivial
      case h_2 => exact Call.only_seq (emitAll_only id _) fun _ => trivial

theorem getSession_safe (id : Str) : (contract s r).Safe Fresh i (Ok fun a w => Mine i a.id w)
    (Agent.getSession i.owner id) w := by
  refine Contract.Safe.perform (fun _ _ _ _ _ => rfl) fun w₁ _ hw d _ w₂ hr _ => ?_
  refine Ok.intro fun a ha => Mine.stable ?_ hr
  replace ha : w₁.state.store.getSession i.owner id = .ok a := ha
  rw [MemoryAgentStore.getSession_eq] at ha
  cases hv : w₁.state.store.view i.owner id
  case none   => rw [hv] at ha; cases ha
  case some v =>
    rw [hv] at ha
    cases ha
    have ⟨hl, ho⟩ := MemoryAgentStore.view_some hv
    have ⟨hi, hu⟩ := hw.keyed id v.1 hl
    refine ⟨hi ▸ hu, fun b hb => ?_⟩
    cases hl.symm.trans (hi ▸ hb)
    exact ho

theorem within_safe {id : Str} {p : Agent.Call β} (h : Prog.Only (Within id) p) (hm : Mine i id w) :
    (contract s r).Safe Fresh i (Ok fun _ _ => True) p w := by
  refine Contract.Safe.ok (Contract.Safe.of_only h fun op ha w₁ hr _ d hf => ?_)
  cases op
  case inl op => exact ha
  case inr op =>
    cases op
    case setOpenCodeSession | appendMessage => obtain rfl := ha; exact hm.stable hr
    case listSessions | createSession | getSession | deleteSession => exact ha.elim
    all_goals trivial

theorem runAgent_safe (sessionID message : Str) (ctx : AgentRunContext) (hw : Inv w) :
    (contract s r).Safe Fresh i (Ok fun _ _ => True) (runAgent r i.user sessionID message ctx) w := by
  unfold runAgent
  dsimp only
  split
  case isTrue  => exact Contract.Safe.throw
  case isFalse =>
    refine Contract.Safe.seq (getSession_safe sessionID) hw fun a w₁ _ _ hm => within_safe ?_ hm
    refine Call.only_seq (providerForChat_only (fun _ => ⟨_, rfl⟩) _) fun provider => ?_
    refine Call.only_seq (Prog.Only.perform rfl) fun _ => ?_
    refine Call.only_seq (run_only rfl) fun evs => ?_
    split
    case isTrue  => trivial
    case isFalse => exact Prog.Only.perform rfl

theorem createAgentSession_safe (req : CreateAgentSessionRequest) (hw : Inv w) :
    (contract s r).Safe Fresh i (Ok fun _ _ => True) (createAgentSession i.user req) w := by
  unfold createAgentSession
  split
  case isTrue  => exact Contract.Safe.throw
  case isFalse =>
    have hp : (contract s r).Safe Fresh i (Ok fun _ _ => True) (Agent.providerForChat req.providerID) w := by
      refine Contract.Safe.ok <| Contract.Safe.of_only (A := fun op => ∃ id, op = .inl (.provider id))
        (providerForChat_only (fun id => ⟨id, rfl⟩) _) fun op ha _ _ _ _ _ => ?_
      obtain ⟨id, rfl⟩ := ha
      exact ⟨id, rfl⟩
    refine Contract.Safe.seq hp hw fun _ w₁ _ hw₁ _ => ?_
    exact Contract.Safe.lift <| Contract.Safe.perform (Q := fun _ _ => True)
      (fun _ _ _ _ hf => ⟨rfl, rfl, hf⟩) fun _ _ _ _ _ _ _ _ => trivial

theorem keeps : (contract s r).Keeps Fresh := by
  intro i w hw
  show (contract s r).Safe Fresh i _ (i.code r) w
  unfold Request.code
  split
  case h_1 =>
    exact Contract.Safe.any <| Contract.Safe.lift <| Contract.Safe.perform (Q := fun _ _ => True)
      (fun _ _ _ _ _ => rfl) fun _ _ _ _ _ _ _ _ => trivial
  case h_2 req _ =>
    exact Contract.Safe.any <| Contract.Safe.seq (createAgentSession_safe req hw) hw fun _ _ _ _ _ =>
      Contract.Safe.pure (Q := fun _ _ => True) fun _ _ _ => trivial
  case h_3 id _ =>
    exact Contract.Safe.any <| Contract.Safe.seq (getSession_safe id) hw fun _ _ _ _ _ =>
      Contract.Safe.pure (Q := fun _ _ => True) fun _ _ _ => trivial
  case h_4 id _ =>
    have hd : (contract s r).Safe Fresh i (Ok fun _ _ => True) (deleteAgentSession i.user id) w :=
      Contract.Safe.ok <| Contract.Safe.perform (Q := fun _ _ => True) (fun _ _ _ _ _ => rfl)
        fun _ _ _ _ _ _ _ _ => trivial
    exact Contract.Safe.any <| Contract.Safe.seq hd hw fun _ _ _ _ _ =>
      Contract.Safe.pure (Q := fun _ _ => True) fun _ _ _ => trivial
  case h_5 sessionID message ctx _ =>
    exact Contract.Safe.any <| Contract.Safe.seq (runAgent_safe sessionID message ctx hw) hw fun _ _ _ _ _ =>
      Contract.Safe.pure (Q := fun _ _ => True) fun _ _ _ => trivial

end Calls
-- What a call returns are sessions that it has got in answers.
theorem code_yields (i : Request) :
    (i.code r).Yields (fun op res => ∀ a ∈ returned op res, a.owner = i.owner)
      fun res => ∀ ss, res = .ok ss → ∀ a ∈ ss, a.owner = i.owner := by
  unfold Request.code
  split
  case h_1       => exact fun l hl ss hs => by cases hs; exact hl
  case h_2 req _ =>
    refine Call.yields_seq (Q := fun a => a.owner = i.owner) ?_ fun a ha ss hs => ?_
    case refine_2 => cases hs; simpa using ha
    case refine_1 =>
      unfold createAgentSession
      split
      case isTrue  => exact fun _ ha => nomatch ha
      case isFalse =>
        refine Call.yields_seq (Q := fun _ => True) (Prog.yields_of (fun _ _ _ => trivial) _) fun _ _ => ?_
        exact fun a ha b hb => by cases hb; exact ha a (.head _)
  case h_3 id _  =>
    refine Call.yields_seq (Q := fun a => a.owner = i.owner) ?_ fun a ha ss hs => ?_
    case refine_1 => exact fun res hr a ha => by cases ha; exact hr a (.head _)
    case refine_2 => cases hs; simpa using ha
  case h_4 | h_5 =>
    refine Call.yields_seq (Q := fun _ => True) (Prog.yields_of (fun _ _ _ => trivial) _) fun _ _ ss hs => ?_
    cases hs
    simp

-- The service as it is started, whatever the providers.
def initial (providers : State) : World where
  state := ⟨providers, ⟨∅, ∅, 0⟩⟩
  used  := []

variable {s r}

theorem initial_inv (providers : State) : Inv (initial providers) where
  keyed _ _ h := by cases (Finmap.lookup_empty _).symm.trans h
  logged _ h  := absurd (Finmap.lookup_empty _) h

theorem sessions_private {providers : State} {ps : List (Pick Draw Request)}
    (h : (pool s r).Allows Fresh ps ⟨initial providers, []⟩) :
    (pool s r).Allows (Private s r) ps ⟨initial providers, []⟩ ∧
    (∀ i ss, (i, .ret (.ok ss)) ∈ ((pool s r).run ⟨initial providers, []⟩ ps).calls →
      ∀ a ∈ ss, a.owner = i.owner) ∧
    ∀ owner qs, (pool s r).Allows Fresh qs ⟨initial providers, []⟩ →
      alone (fun i => i.owner = owner) [] ps = alone (fun i => i.owner = owner) [] qs →
      own (fun i => i.owner = owner) ((pool s r).run ⟨initial providers, []⟩ ps).calls =
      own (fun i => i.owner = owner) ((pool s r).run ⟨initial providers, []⟩ qs).calls := by
  have hi := initial_inv providers
  have hh : (contract s r).Holds Fresh ⟨initial providers, []⟩ := ⟨hi, by simp⟩
  have hp : (pool s r).Allows (Private s r) ps ⟨initial providers, []⟩ := by
    refine (hh.throughout keeps h).mono fun c p hm => ?_
    obtain ⟨hc, hm⟩ := hm
    cases p
    case act n d => exact fun i op k hn => private_of_guar (hc.guar hm i op k hn) hc.inv
    all_goals trivial
  refine ⟨hp, ?_, ?_⟩
  case refine_1 =>
    intro i ss hm
    refine run_yields (A := fun i op res => ∀ a ∈ returned op res, a.owner = i.owner)
      (R := fun i res => ∀ ss, res = .ok ss → ∀ a ∈ ss, a.owner = i.owner) (code_yields r) (by simp) (hp.mono fun c p hm => hm.mono fun i op d w hp => hp.returns) _ hm ss rfl
  case refine_2 =>
    intro owner qs hq he
    exact (unwinding owner).own_calls keeps ⟨rfl, List.Subset.refl _, rfl⟩ hi h hq he

-- Two users with a session each, and one of them alone.
section Alone

def standard : AgentRunner where
  agentName        := str "knaic-readonly"
  decodeSession id := .ok id
  decodeEnvelope _ := none

def vllm : Provider where
  id          := str "llm-000001"
  name        := str "vllm"
  source      := sourceExternal
  ns          := []
  endpoint    := str "http://vllm.ml/v1"
  apiKey      := []
  model       := str "qwen"
  description := []
  status      := statusReady

def providers : State where
  providers  := .ofList [(str "llm-000001", vllm)]
  counter    := 1
  modelCache := ∅

def call (user : String) (action : Action) : Request where
  user   := some ⟨str user, [], [], [], false⟩
  action := action

def opened : Action :=
  .createAgentSession ⟨[], str "llm-000001", [], some []⟩

def byte (b : UInt8) : Draw where
  now       := ⟨1, 0⟩
  response  := .ok ⟨200, [], []⟩
  random    := .replicate 4 b
  covered   := .ok ()
  session   := .ok (str "ses_a")
  message   := .ok (.ok [])
  providers := providers

def together : List (Pick Draw Request) := [
  .start (call "ann" opened), .start (call "bob" opened), .act 1 (byte 2), .act 0 (byte 1), .act 1 (byte 2),
  .act 0 (byte 1), .start (call "bob" (.deleteAgentSession (str "agent-01010101"))), .act 2 (byte 0),
  .start (call "ann" (.listAgentSessions [])), .act 3 (byte 0)
]

def annAlone : List (Pick Draw Request) := [
  .start (call "ann" opened), .act 0 (byte 1), .act 0 (byte 1),
  .start (call "ann" (.listAgentSessions [])), .act 1 (byte 0)
]

theorem ann_undisturbed :
    own (fun i => i.owner = str "ann") ((pool Playground.standard standard).run ⟨initial providers, []⟩ together).calls =
    own (fun i => i.owner = str "ann") ((pool Playground.standard standard).run ⟨initial providers, []⟩ annAlone).calls :=
  (sessions_private (by decide +kernel)).right.right (str "ann") annAlone (by decide) rfl

end Alone
end Playground.SessionPrivacy

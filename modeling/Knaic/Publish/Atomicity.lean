import Knaic.Publish.Pool

open Go Effects

namespace Publish

open Auth Hub

-- The identifier that a call gets for a model with a draw.
def modelID (d : Draw) : Str :=
  str "m" ++ str "-" ++ hex d.random.toList

-- All that is left of the call is the update of its request.
def Committed : Prog ops (Except Error α) → Prop
  | .call (.requestUpdate _ f) k =>
    (∀ r, ∃ r', f r = .ok r') ∧ (∀ r, ∃ a, k (.ok r) = .ret (.ok a)) ∧
    ∀ e, ∃ e', k (.error e) = .ret (.error e')
  | _                            => False

-- A call that leaves the stores alone until it has created a model, with an identifier in `K`, and
-- then has only its update to do.
def Quiet (K : Str → Prop) : Prog ops (Except Error α) → Prop
  | .ret _                   => True
  | .call (.modelCreate m) k =>
    K m.id ∧ (∀ e, Quiet K (k (.error e))) ∧ ∀ m', Committed (k (.ok m'))
  | .call (.newID pre) k     => pre = str "m" ∧ ∀ id, K id → Quiet K (k id)
  | .call op k               => Reads op ∧ ∀ r, Quiet K (k r)

variable {K : Str → Prop} {authorizer : Bool}

namespace Quiet

-- A call of which only reads are known goes on as it likes.
theorem seq_reads {p : Hub.Call β} {f : β → Hub.Call α} (h : Prog.Only Reads p)
    (hf : ∀ b, Quiet K (f b)) : Quiet K (p >>= f : Hub.Call α) := by
  rw [Call.bind_eq]
  induction p using Prog.rec
  case ret b =>
    cases b
    case ok b    => exact hf b
    case error e => trivial
  case call op k hi =>
    have hk := fun r => hi r (h.right r)
    cases op <;> first | exact ⟨h.left, hk⟩ | exact h.left.elim

theorem committed_void {p : Prog ops (Except Error α)} (h : Committed p) :
    Committed (Call.void p) := by
  cases p
  case ret => exact h.elim
  case call op k =>
    cases op <;> try exact h.elim
    case requestUpdate id f =>
      rw [Call.void_call]
      refine ⟨h.1, fun r => ?_, fun e => ?_⟩
      case refine_1 =>
        have ⟨a, ha⟩ := h.2.1 r
        exact ⟨(), congrArg Call.void ha⟩
      case refine_2 =>
        have ⟨e', he⟩ := h.2.2 e
        exact ⟨e', congrArg Call.void he⟩

theorem void {p : Prog ops (Except Error α)} (h : Quiet K p) : Quiet K (Call.void p) := by
  induction p
  case ret r => cases r <;> trivial
  case call op k hi =>
    rw [Call.void_call]
    cases op
    case modelCreate m =>
      exact ⟨h.1, fun e => hi _ (h.2.1 e), fun m' => committed_void (h.2.2 m')⟩
    case newID pre => exact ⟨h.1, fun id hk => hi id (h.2 id hk)⟩
    all_goals exact ⟨h.1, fun r => hi r (h.2 r)⟩

theorem approve (u : Option User) (id : Str) (body : ReviewRequest) :
    Quiet K (approve authorizer u id body) := by
  unfold Publish.approve
  split
  case h_1 => trivial
  case h_2 u =>
    split
    case isTrue => trivial
    case isFalse =>
      refine seq_reads (Prog.Only.perform trivial) fun current => ?_
      split
      case isTrue => trivial
      case isFalse =>
        refine seq_reads (Call.only_mapError (getPrivateForPublish_reads ..)) fun snap => ?_
        unfold Models.createPublicFromRequest
        split
        case isTrue => trivial
        case isFalse =>
          split
          case h_1 => trivial
          case h_2 scheme _ =>
            split
            case isTrue => trivial
            case isFalse =>
              refine ⟨trivial, fun now => ⟨rfl, fun id hk => ⟨hk, fun e => trivial, fun m => ?_⟩⟩⟩
              exact ⟨fun r => ⟨_, rfl⟩, fun r => ⟨r, rfl⟩, fun e => ⟨e, rfl⟩⟩

end Quiet
theorem modelCreate_models (m : Models.Model) (d : Draw) (s : Stores) :
    (Hub.answer (.modelCreate m) d s).2.models = s.models ∨
    (Hub.answer (.modelCreate m) d s).2.models =
      s.models.insert m.id (Models.MemoryStore.stamp m d.now) := by
  cases withModels_cases d s (·.create m d.now)
  case inl h =>
    obtain ⟨e, h⟩ := h
    exact .inl (by simp [Hub.answer, h])
  case inr h =>
    obtain ⟨m', s', hc, ha⟩ := h
    obtain ⟨_, hm, hs⟩ := Models.MemoryStore.create_ok hc
    subst hm hs
    exact .inr (by simp [Hub.answer, ha])

-- No operation of the pool removes a model.
theorem models_grow {id : Str} (op : ops.Op) (d : Draw) {s : Stores}
    (h : (s.models.lookup id).isSome) : ((Hub.answer op d s).2.models.lookup id).isSome := by
  by_cases hop : ∃ m, op = .modelCreate m
  case neg => rwa [answer_models (fun m he => hop ⟨m, he⟩)]
  case pos =>
    have ⟨m, hm⟩ := hop
    subst hm
    cases modelCreate_models m d s
    case inl hm => rwa [hm]
    case inr hm =>
      rw [hm]
      by_cases he : id = m.id
      case pos => subst he; rw [Finmap.lookup_insert]; rfl
      case neg => rwa [Finmap.lookup_insert_of_ne _ he]

abbrev State :=
  Config ops World Kind (Except Error Unit)

-- The run of a call of `Approve` next to any other calls, and the same run with a call in its place
-- that does nothing.
section Runs

variable {c c' : State} {p : Pick Draw Kind} {x : Kind × Prog ops (Except Error Unit)}

-- The update of the call finds its request, and the store does not fail.
def Stands (c : State) : Pick Draw Kind → Prop
  | .act 0 d =>
    match c.calls with
    | (_, .call (.requestUpdate id _) _) :: _ =>
      (c.world.requests.lookup id).isSome ∧ d.failure = none
    | _                                       => True
  | _        => True

instance (c : State) (p : Pick Draw Kind) : Decidable (Stands c p) :=
  match p with
  | .start _ | .env _ | .act (_ + 1) _ => isTrue trivial
  | .act 0 d                           =>
    match h : c.calls with
    | (_, .call (.requestUpdate id _) _) :: _ =>
      decidable_of_iff ((c.world.requests.lookup id).isSome ∧ d.failure = none) (by simp [Stands, h])
    | [] | (_, .ret _) :: _ | (_, .call (.modelGet _) _) :: _ | (_, .call (.modelCreate _) _) :: _
    | (_, .call (.requestGet _) _) :: _ | (_, .call (.requestCreate _) _) :: _
    | (_, .call (.requestDelete _) _) :: _ | (_, .call (.canWritePrivateModel _ _) _) :: _
    | (_, .call (.newID _) _) :: _ | (_, .call .now _) :: _ => isTrue (by simp [Stands, h])

-- As long as the call has not failed after it created its model.
inductive Live (K : Str → Prop) (c c' : State) : Prop
  | quiet {i q cs i' a} : c.calls = (i, q) :: cs → c'.calls = (i', .ret a) :: cs →
      c.world.stores = c'.world.stores → Quiet K q → Live K c c'
  | created {id i q cs} : K id → (c.world.models.lookup id).isSome → c.calls = (i, q) :: cs →
      Committed q → Live K c c'
  | done {i cs} : c.calls = (i, .ret (.ok ())) :: cs → Live K c c'

structure Orphan (K : Str → Prop) (c : State) : Prop where
  model  : ∃ id, K id ∧ (c.world.models.lookup id).isSome
  failed : ∃ i e cs, c.calls = (i, .ret (.error e)) :: cs

def Others : Pick Draw Kind → Prop
  | .act 0 _ => False
  | _        => True

theorem next_first (authorizer : Bool) (h : Others p) (hc : c.calls = x :: cs) :
    ∃ cs', ((pool authorizer).next c p).calls = x :: cs' := by
  cases p
  case start => exact ⟨_, congrArg (· ++ _) hc⟩
  case env   => exact ⟨cs, hc⟩
  case act n d =>
    cases (pool authorizer).next_act_cases c n d
    case inr he => exact ⟨cs, by rw [he, hc]⟩
    case inl hn =>
      have ⟨i, op, k, hn⟩ := hn
      rw [Pool.next_act hn]
      cases n
      case zero   => exact h.elim
      case succ n => exact ⟨_, by rw [hc, List.set_cons_succ]⟩

theorem next_models {id : Str} (h : (c.world.models.lookup id).isSome) :
    (((pool authorizer).next c p).world.models.lookup id).isSome := by
  cases p
  case act n d =>
    cases (pool authorizer).next_act_cases c n d
    case inr he => rwa [he]
    case inl hn =>
      have ⟨i, op, k, hn⟩ := hn
      rw [Pool.next_act hn]
      simpa [World.models] using models_grow op d h
  all_goals exact h

theorem Live.others (h : Live K c c') (hp : Others p) :
    Live K ((pool authorizer).next c p) ((pool authorizer).next c' p) := by
  cases h
  case done hc =>
    have ⟨_, hc⟩ := next_first authorizer hp hc
    exact .done hc
  case created hk hm hc hq =>
    have ⟨_, hc⟩ := next_first authorizer hp hc
    exact .created hk (next_models hm) hc hq
  case quiet i q cs i' a hc hc' hs hq =>
    cases p
    case start j => exact .quiet (congrArg (· ++ _) hc) (congrArg (· ++ _) hc') hs hq
    case env     => exact .quiet hc hc' hs hq
    case act n d =>
      cases n
      case zero   => exact hp.elim
      case succ n =>
        by_cases hn : ∃ j op k, cs[n]? = some (j, .call op k)
        case pos =>
          have ⟨j, op, k, hn⟩ := hn
          have hn₁ : c.calls[n + 1]? = some (j, .call op k) := by simp [hc, hn]
          have hn₂ : c'.calls[n + 1]? = some (j, .call op k) := by simp [hc', hn]
          rw [Pool.next_act hn₁, Pool.next_act hn₂]
          exact .quiet (by rw [hc]; rfl) (by simp only [hc', answer_fst, hs]; rfl) (by simp [hs]) hq
        case neg =>
          have hn₁ : (pool authorizer).next c (.act (n + 1) d) = c :=
            Pool.next_idle fun j op k h => hn ⟨j, op, k, by simpa [hc] using h⟩
          have hn₂ : (pool authorizer).next c' (.act (n + 1) d) = c' :=
            Pool.next_idle fun j op k h => hn ⟨j, op, k, by simpa [hc'] using h⟩
          rw [hn₁, hn₂]
          exact .quiet hc hc' hs hq

theorem next_ret (authorizer : Bool) (hc : c.calls = (i, .ret a) :: cs) :
    (pool authorizer).next c (.act 0 d) = c :=
  Pool.next_idle fun _ _ _ h => by simp [hc] at h

theorem next_call (authorizer : Bool) (hc : c.calls = (i, .call op k) :: cs) :
    (pool authorizer).next c (.act 0 d) =
      ⟨((pool authorizer).answer i op d c.world).2,
        (i, k ((pool authorizer).answer i op d c.world).1) :: cs⟩ := by
  have hn : c.calls[0]? = some (i, .call op k) := by simp [hc]
  rw [Pool.next_act hn, hc]
  rfl

-- A step of the call itself.
theorem Live.own (h : Live K c c') (hk : K (modelID d)) (hs : Stands c (.act 0 d)) :
    Live K ((pool authorizer).next c (.act 0 d)) ((pool authorizer).next c' (.act 0 d)) := by
  cases h
  case done hc => exact .done (by rw [next_ret authorizer hc]; exact hc)
  case created i q cs hk hm hc hq =>
    cases q
    case ret => exact hq.elim
    case call op k =>
      cases op <;> try exact hq.elim
      case requestUpdate id f =>
        simp only [Stands, hc] at hs
        obtain ⟨r, hl⟩ := Option.isSome_iff_exists.mp hs.left
        obtain ⟨r₁, hf⟩ := hq.1 r
        obtain ⟨a, ha⟩ := hq.2.1 { r₁ with updatedAt := d.now }
        have hn : ((pool authorizer).next c (.act 0 d)).calls = (i, .ret (.ok ())) :: cs := by
          rw [next_call authorizer hc, answer_fst, Hub.requestUpdate_found hs.right hl hf, ha]
        exact .done hn
  case quiet i q cs i' a hc hc' he hq =>
    rw [next_ret authorizer hc']
    cases q
    case ret q => rw [next_ret authorizer hc]; exact .quiet hc hc' he hq
    case call op k =>
      rw [next_call authorizer hc]
      cases op
      case newID pre =>
        obtain ⟨rfl, hq⟩ := hq
        exact .quiet rfl hc' (by simpa [Hub.answer] using he) (hq _ hk)
      case modelCreate m =>
        cases withModels_cases d c.world.stores (·.create m d.now)
        case inl hx =>
          obtain ⟨e, hx⟩ := hx
          refine .quiet rfl hc' ?_ ?_
          case refine_1 => simpa [Hub.answer, hx] using he
          case refine_2 => simpa only [answer_fst, Hub.answer, hx] using hq.2.1 e
        case inr hx =>
          obtain ⟨m', s, hx, ha⟩ := hx
          obtain ⟨_, hm, hs⟩ := Models.MemoryStore.create_ok hx
          subst hm hs
          refine .created hq.1 ?_ rfl ?_
          case refine_1 => simp [World.models, Hub.answer, ha, Finmap.lookup_insert]
          case refine_2 => simpa only [answer_fst, Hub.answer, ha] using hq.2.2 _
      all_goals
        refine .quiet rfl hc' ?_ (hq.2 _)
        rw [reads_answer hq.1]
        exact he

theorem Live.orphan (h : Live K c c') (hs : ¬Stands c (.act 0 d)) :
    Orphan K ((pool authorizer).next c (.act 0 d)) := by
  cases h
  case done hc => simp [Stands, hc] at hs
  case created id i q cs hk hm hc hq =>
    refine ⟨⟨id, hk, next_models hm⟩, ?_⟩
    cases q
    case ret => exact hq.elim
    case call op k =>
      cases op <;> try exact hq.elim
      case requestUpdate id f =>
        simp only [Stands, hc] at hs
        have ⟨e, he⟩ := Hub.requestUpdate_lost f hs
        have ⟨e', ha⟩ := hq.2.2 e
        refine ⟨i, e', cs, ?_⟩
        rw [next_call authorizer hc, answer_fst, he, ha]
  case quiet i q cs i' a hc hc' he hq =>
    cases q
    case ret => simp [Stands, hc] at hs
    case call op k =>
      cases op
      case requestUpdate => exact hq.1.elim
      all_goals simp [Stands, hc] at hs

theorem Orphan.next (h : Orphan K c) : Orphan K ((pool authorizer).next c p) := by
  have ⟨id, hk, hm⟩ := h.model
  have ⟨i, e, cs, hc⟩ := h.failed
  refine ⟨⟨id, hk, next_models hm⟩, ?_⟩
  by_cases hp : Others p
  case pos =>
    have ⟨cs', hc'⟩ := next_first authorizer hp hc
    exact ⟨i, e, cs', hc'⟩
  case neg =>
    cases p <;> try exact absurd trivial hp
    case act n d =>
      cases n
      case succ => exact absurd trivial hp
      case zero => exact ⟨i, e, cs, by rw [next_ret authorizer hc]; exact hc⟩

theorem Orphan.run (h : Orphan K c) (ps) : Orphan K ((pool authorizer).run c ps) := by
  induction ps generalizing c
  case nil     => exact h
  case cons hi => exact hi h.next

theorem Live.next (authorizer : Bool) (h : Live K c c') (hk : ∀ d, p = .act 0 d → K (modelID d)) :
    Live K ((pool authorizer).next c p) ((pool authorizer).next c' p) ∧ Stands c p ∨
    Orphan K ((pool authorizer).next c p) ∧ ¬Stands c p := by
  cases p
  case start => exact .inl ⟨h.others trivial, trivial⟩
  case env   => exact .inl ⟨h.others trivial, trivial⟩
  case act n d =>
    cases n
    case succ => exact .inl ⟨h.others trivial, trivial⟩
    case zero =>
      by_cases hs : Stands c (.act 0 d)
      case pos => exact .inl ⟨h.own (hk d rfl) hs, hs⟩
      case neg => exact .inr ⟨h.orphan hs, hs⟩

theorem Live.run (authorizer : Bool) (h : Live K c c') (hk : ∀ d, .act 0 d ∈ ps → K (modelID d)) :
    Live K ((pool authorizer).run c ps) ((pool authorizer).run c' ps) ∧
      (pool authorizer).Throughout Stands ps c ∨
    Orphan K ((pool authorizer).run c ps) ∧ ¬(pool authorizer).Throughout Stands ps c := by
  induction ps generalizing c c'
  case nil => exact .inl ⟨h, trivial⟩
  case cons p ps hi =>
    cases h.next authorizer fun d hd => hk d (hd ▸ .head _)
    case inr ho => exact .inr ⟨ho.left.run ps, fun ht => ho.right ht.left⟩
    case inl hl =>
      cases hi hl.left fun d hd => hk d (.tail _ hd)
      case inl hr => exact .inl ⟨hr.left, hl.right, hr.right⟩
      case inr hr => exact .inr ⟨hr.left, fun ht => hr.right ht.right⟩

end Runs

-- All models of the catalogue have identifiers in `K` as long as only such identifiers are drawn.
section Identifiers

def Creates (K : Str → Prop) : Prog ops (Except Error α) → Prop
  | .ret _                   => True
  | .call (.modelCreate m) k => K m.id ∧ ∀ r, Creates K (k r)
  | .call (.newID pre) k     => ∀ id, (pre = str "m" → K id) → Creates K (k id)
  | .call _ k                => ∀ r, Creates K (k r)

def Plain : ops.Op → Prop
  | .modelCreate _ => False
  | _              => True

theorem Creates.of_plain {p : Prog ops (Except Error α)} (h : p.Only Plain) : Creates K p := by
  induction p
  case ret => trivial
  case call op k hi =>
    have hk := fun r => hi r (h.right r)
    cases op
    case modelCreate => exact h.left.elim
    case newID       => exact fun id _ => hk id
    all_goals exact hk

theorem Creates.of_committed {p : Prog ops (Except Error α)} (h : Committed p) : Creates K p := by
  cases p
  case ret => trivial
  case call op k =>
    cases op <;> try exact h.elim
    case requestUpdate id f =>
      intro r
      cases r
      case ok r    => have ⟨_, ha⟩ := h.2.1 r; rw [ha]; trivial
      case error e => have ⟨_, ha⟩ := h.2.2 e; rw [ha]; trivial

theorem Creates.of_quiet {p : Prog ops (Except Error α)} (h : Quiet K p) : Creates K p := by
  induction p
  case ret => trivial
  case call op k hi =>
    cases op
    case modelCreate m =>
      refine ⟨h.1, fun r => ?_⟩
      cases r
      case error e => exact hi _ (h.2.1 e)
      case ok m'   => exact .of_committed (h.2.2 m')
    case newID pre => exact fun id hid => hi id (h.2 id (hid h.1))
    all_goals exact fun r => hi r (h.2 r)

theorem plain_of_reads {op : ops.Op} (h : Reads op) : Plain op := by
  cases op <;> trivial

theorem create_plain (u : Option User) (req : CreateRequest) :
    Prog.Only Plain (create authorizer u req) := by
  unfold create
  split
  case h_1 => trivial
  case h_2 u =>
    refine Call.only_guard fun _ => ?_
    refine Call.only_guard fun _ => ?_
    refine Call.only_seq ((getPrivateForPublish_reads ..).mono fun _ => plain_of_reads) ?_
    intro snap
    refine Call.only_guard fun _ => ?_
    refine Call.only_guard fun _ => ?_
    refine Call.only_seq ((canWriteNamespace_reads ..).mono fun _ => plain_of_reads) ?_
    intro ok
    exact Call.only_guard fun _ => ⟨trivial, fun _ => Prog.Only.perform trivial⟩

theorem reject_plain (u : Option User) (id : Str) (body : ReviewRequest) :
    Prog.Only Plain (reject u id body) := by
  unfold reject
  split
  case h_1 => trivial
  case h_2 u =>
    refine Call.only_guard fun _ => ?_
    refine Call.only_seq (Prog.Only.perform trivial) fun current => ?_
    exact Call.only_guard fun _ => Prog.Only.perform trivial

theorem delete_plain (u : Option User) (id : Str) : Prog.Only Plain (delete u id) := by
  unfold delete
  split
  case h_1 => trivial
  case h_2 u =>
    refine Call.only_seq (Prog.Only.perform trivial) fun current => ?_
    exact Call.only_guard fun _ => Prog.Only.perform trivial

theorem code_creates (i : Kind) : Creates K ((pool authorizer).code i) := by
  cases i
  case create  => exact .of_plain (Call.only_seq (create_plain ..) fun _ => trivial)
  case approve => exact .of_quiet (Quiet.approve ..).void
  case reject  => exact .of_plain (Call.only_seq (reject_plain ..) fun _ => trivial)
  case delete  => exact .of_plain (delete_plain ..)

def Within (K : Str → Prop) (w : World) : Prop :=
  ∀ id, (w.models.lookup id).isSome → K id

def catalogContract (authorizer : Bool) (K : Str → Prop) : Contract (pool authorizer) where
  inv           := Within K
  rely _ _      := True
  guar i op d w := Within K ((pool authorizer).answer i op d w).2
  refl _        := trivial
  trans _ _     := trivial
  guar_inv h _  := h
  guar_rely _ _ := trivial
  env_inv h     := h
  env_rely _    := trivial

def Draws (K : Str → Prop) : Pool.Condition ops Draw World Kind :=
  fun _ _ d _ => K (modelID d)

theorem Within.answer {op : ops.Op} (h : Within K w) (hm : ∀ m, op = .modelCreate m → K m.id) :
    Within K ((pool authorizer).answer i op d w).2 := by
  intro id hid
  rw [World.models, answer_stores] at hid
  by_cases hop : ∃ m, op = .modelCreate m
  case neg =>
    rw [answer_models (fun m he => hop ⟨m, he⟩)] at hid
    exact h id hid
  case pos =>
    have ⟨m, hop⟩ := hop
    subst hop
    cases modelCreate_models m d w.stores
    case inl hs => rw [hs] at hid; exact h id hid
    case inr hs =>
      rw [hs] at hid
      have ⟨m', hid⟩ := Option.isSome_iff_exists.mp hid
      cases Map.lookup_insert_some hid
      case inl he => exact he.left ▸ hm m rfl
      case inr hl => exact h id (Option.isSome_iff_exists.mpr ⟨m', hl⟩)

theorem creates_safe {p : Prog ops (Except Error α)} (h : Creates K p) :
    (catalogContract authorizer K).Safe (Draws K) i (fun _ _ => True) p w := by
  induction p generalizing w
  case ret => exact fun _ _ _ => trivial
  case call op k hi =>
    intro w₁ _ hv d hd
    cases op
    case modelCreate m =>
      exact ⟨Within.answer hv (fun _ he => by cases he; exact h.1), hi _ (h.2 _)⟩
    case newID pre =>
      refine ⟨Within.answer hv (fun _ he => nomatch he), hi _ (h _ fun hp => ?_)⟩
      rw [newID_fst, hp]
      exact hd
    all_goals exact ⟨Within.answer hv (fun _ he => nomatch he), hi _ (h _)⟩

theorem catalogContract_keeps : (catalogContract authorizer K).Keeps (Draws K) :=
  fun i _ _ => creates_safe (code_creates i)

-- A call that is over draws nothing.
theorem draws_of_idle {c : State} (hc : c.calls = (i, .ret a) :: cs)
    (hk : ∀ n d, .act (n + 1) d ∈ ps → K (modelID d)) :
    (pool authorizer).Allows (Draws K) ps c := by
  induction ps generalizing c cs
  case nil => trivial
  case cons p ps hi =>
    have hk' : ∀ n d, .act (n + 1) d ∈ ps → K (modelID d) := fun n d h => hk n d (.tail _ h)
    by_cases hp : Others p
    case pos =>
      have ⟨_, hn⟩ := next_first authorizer hp hc
      refine ⟨?_, hi hn hk'⟩
      cases p <;> try trivial
      case act n d =>
        cases n
        case zero   => exact hp.elim
        case succ n => exact fun _ _ _ _ => hk n d (.head _)
    case neg =>
      cases p <;> try exact absurd trivial hp
      case act n d =>
        cases n
        case succ => exact absurd trivial hp
        case zero =>
          refine ⟨fun _ _ _ h => by simp [hc] at h, ?_⟩
          rw [next_ret authorizer hc]
          exact hi hc hk'

end Identifiers

-- A call of `Approve` over any stores, and the same stores with a call that is over in its place.
def approving (authorizer : Bool) (w : World) (u : Option User) (id : Str) (body : ReviewRequest) :
    State where
  world := w
  calls := [(.approve u id body, (pool authorizer).code (.approve u id body))]

def absent (w : World) (u : Option User) (id : Str) (body : ReviewRequest) : State where
  world := w
  calls := [(.approve u id body, .ret (.ok ()))]

def outcome (c : State) : Option (Except Error Unit) :=
  match c.calls with
  | (_, .ret r) :: _ => some r
  | _                => none

-- The identifier that the call draws for its model is not in use, and no other call draws it.
def Fresh (w : World) (ps : List (Pick Draw Kind)) : Prop :=
  ∀ d, .act 0 d ∈ ps → w.models.lookup (modelID d) = none ∧
    ∀ n d', .act (n + 1) d' ∈ ps → modelID d' ≠ modelID d

-- Without the call, the catalogue has only models that were there or that another call has drawn.
theorem absent_models {w : World} {u : Option User} {id id' : Str} {body : ReviewRequest}
    (h : (((pool authorizer).run (absent w u id body) ps).world.models.lookup id').isSome) :
    (w.models.lookup id').isSome ∨ ∃ n d, .act (n + 1) d ∈ ps ∧ id' = modelID d := by
  let K id' := (w.models.lookup id').isSome ∨ ∃ n d, .act (n + 1) d ∈ ps ∧ id' = modelID d
  have hh : (catalogContract authorizer K).Holds (Draws K) (absent w u id body) := {
    inv _ hi := .inl hi
    safe p hp := by cases List.mem_singleton.mp hp; exact fun _ _ _ => trivial
  }
  have hd : (pool authorizer).Allows (Draws K) ps (absent w u id body) :=
    draws_of_idle rfl fun n d hd => .inr ⟨n, d, hd, rfl⟩
  exact (hh.run catalogContract_keeps hd).inv id' h

theorem failed_approve_leaves_stores {w : World} {u : Option User} {id : Str} {body : ReviewRequest}
    {e : Error} {ps : List (Pick Draw Kind)}
    (h : outcome ((pool authorizer).run (approving authorizer w u id body) ps) = some (.error e)) :
    let stores := ((pool authorizer).run (approving authorizer w u id body) ps).world.stores
    let stores' := ((pool authorizer).run (absent w u id body) ps).world.stores
    let stands := (pool authorizer).Throughout Stands ps (approving authorizer w u id body)
    (stands → stores = stores') ∧ (Fresh w ps → stores = stores' → stands) := by
  intro stores stores' stands
  let K id := ∃ d, .act 0 d ∈ ps ∧ id = modelID d
  have hl : Live K (approving authorizer w u id body) (absent w u id body) :=
    .quiet rfl rfl rfl (Quiet.approve u id body).void
  cases hl.run authorizer fun d hd => ⟨d, hd, rfl⟩
  case inl hl =>
    refine ⟨fun _ => ?_, fun _ _ => hl.right⟩
    cases hl.left
    case quiet hs _              => exact hs
    case done hc                 => simp [outcome, hc] at h
    case created q _ _ _ hc hq =>
      cases q
      case ret  => exact hq.elim
      case call => simp [outcome, hc] at h
  case inr ho =>
    refine ⟨fun hs => absurd hs ho.right, fun hf he => ?_⟩
    have ⟨id', ⟨d, hd, hid⟩, hm⟩ := ho.left.model
    have ⟨hw, hn⟩ := hf d hd
    have hm : (stores'.models.lookup id').isSome := he ▸ hm
    cases absent_models hm
    case inl hm => rw [hid, hw] at hm; cases hm
    case inr hm =>
      have ⟨n, d', hd', he'⟩ := hm
      exact absurd (he'.symm.trans hid) (hn n d' hd')

-- A pending request and an administrator who approves it, while the author withdraws it.
def pendingRequest : Request where
  id                 := str "pub-1"
  privateModelID     := str "m-1"
  privateNamespace   := str "team"
  privateName        := str "qwen"
  privateURI         := str "hf://ada/qwen"
  targetName         := str "qwen"
  targetCollectionID := []
  requestedBy        := str "ada"
  note               := []
  status             := .pending
  reviewedBy         := []
  reviewerNote       := []
  catalogModelID     := []
  createdAt          := ⟨1, 0⟩
  updatedAt          := ⟨1, 0⟩

def ada : User where
  subject         := str "ada"
  email           := str "ada@example.com"
  name            := str "ada"
  groups          := []
  isPlatformAdmin := false

def reviewed : World where
  stores    := { models := catalogue, requests := Finmap.singleton (str "pub-1") pendingRequest }
  opened    := [pendingRequest]
  published := []
  drawn     := []

-- Withdrawn before the approval reads it.
def withdrawnFirst : List (Pick Draw Kind) :=
  [.start (.delete ada (str "pub-1")), .act 1 draw, .act 1 draw, .act 0 draw]

-- Withdrawn after the approval has created its model.
def withdrawnLate : List (Pick Draw Kind) :=
  .start (.delete ada (str "pub-1")) ::
    (List.replicate 5 (.act 0 draw) ++ [.act 1 draw, .act 1 draw, .act 0 draw])

theorem failed_approve_leaves_stores_withdrawn :
    ((pool false).run (approving false reviewed root (str "pub-1") ⟨[]⟩) withdrawnFirst).world.stores =
      ((pool false).run (absent reviewed root (str "pub-1") ⟨[]⟩) withdrawnFirst).world.stores :=
  (failed_approve_leaves_stores (e := errNotFound) (by decide)).left (by decide)

theorem late_withdrawal_leaves_orphan :
    ¬∀ w u id body e ps,
      outcome ((pool false).run (approving false w u id body) ps) = some (.error e) →
      ((pool false).run (approving false w u id body) ps).world.stores =
        ((pool false).run (absent w u id body) ps).world.stores := by
  intro h
  have hs := h reviewed root (str "pub-1") ⟨[]⟩ errNotFound withdrawnLate (by decide)
  have hm := congrArg (fun s : Stores => (s.models.lookup (str "m-00000000")).isSome) hs
  exact absurd hm (by decide)

end Publish

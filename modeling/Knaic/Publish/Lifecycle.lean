import Knaic.Publish.Pool

open Go Effects

namespace Publish

open Auth Hub

-- Identifiers are not used twice, and no decision lands on a request that has meanwhile been decided
-- the other way.
def Orderly : Pool.Condition ops Draw World Kind
  | _, .requestCreate r, _, w                 => ∀ o ∈ w.opened, o.id ≠ r.id
  | _, .modelCreate m, _, w                   => w.models.lookup m.id = none
  | .approve _ _ _, .requestUpdate id _, _, w =>
    (w.requests.lookup id).all (·.status != .rejected)
  | .reject _ _ _, .requestUpdate id _, _, w  =>
    (w.requests.lookup id).all (·.status != .approved)
  | _, _, _, _                                => True

instance (i : Kind) (op : ops.Op) (d : Draw) (w : World) : Decidable (Orderly i op d w) :=
  match i, op with
  | _, .requestCreate r                 => inferInstanceAs (Decidable (∀ o ∈ w.opened, o.id ≠ r.id))
  | _, .modelCreate m                   =>
    inferInstanceAs (Decidable (w.models.lookup m.id = none))
  | .approve _ _ _, .requestUpdate id _ =>
    inferInstanceAs (Decidable ((w.requests.lookup id).all (·.status != .rejected) = true))
  | .reject _ _ _, .requestUpdate id _  =>
    inferInstanceAs (Decidable ((w.requests.lookup id).all (·.status != .approved) = true))
  | .create _ _, .requestUpdate _ _ | .delete _ _, .requestUpdate _ _ => isTrue trivial
  | _, .modelGet _ | _, .requestGet _ | _, .requestDelete _
  | _, .canWritePrivateModel _ _ | _, .newID _ | _, .now => isTrue trivial

-- What may become of the entry of a request that was opened: a decision is final, and a request that
-- is gone does not come back.
def Settled : Option Request → Option Request → Prop
  | some r, some r' => r.status ≠ .pending → r'.status = r.status
  | none, some _    => False
  | _, none         => True

namespace Settled

theorem refl (r : Option Request) : Settled r r := by
  cases r <;> simp [Settled]

theorem trans {r₁ r₂ r₃ : Option Request} (h₁ : Settled r₁ r₂) (h₂ : Settled r₂ r₃) :
    Settled r₁ r₃ := by
  cases r₁ <;> cases r₂ <;> cases r₃ <;> simp_all [Settled]

end Settled

structure Inv (w : World) : Prop where
  unique  : ∀ o ∈ w.opened, ∀ o' ∈ w.opened, o.id = o'.id → o = o'
  known   : ∀ id r, w.requests.lookup id = some r →
            ∃ o ∈ w.opened, o.id = id ∧ o.targetName = r.targetName
  catalog : ∀ id r, w.requests.lookup id = some r → (r.catalogModelID ≠ [] ↔ r.status = .approved)
  status  : ∀ id r, w.requests.lookup id = some r → r.status ∈ [.pending, .approved, .rejected]
  once    : w.published.Nodup
  created : ∀ id ∈ w.published, ∃ o ∈ w.opened, o.id = id ∧ ∃ k m, w.models.lookup k = some m ∧
            m.scope = .scopePublic ∧ m.ns = [] ∧ m.name = o.targetName

structure Rely (w₁ w₂ : World) : Prop where
  opened  : w₁.opened ⊆ w₂.opened
  settled : ∀ o ∈ w₁.opened, Settled (w₁.requests.lookup o.id) (w₂.requests.lookup o.id)

namespace Rely

theorem refl (w : World) : Rely w w where
  opened _ h  := h
  settled _ _ := .refl _

theorem trans {w₁ w₂ w₃ : World} (h₁ : Rely w₁ w₂) (h₂ : Rely w₂ w₃) : Rely w₁ w₃ where
  opened _ h    := h₂.opened (h₁.opened h)
  settled o h   := (h₁.settled o h).trans (h₂.settled o (h₁.opened h))

end Rely

variable {authorizer : Bool}

-- A step of a call keeps the invariant and does nothing that others do not count on.
def Guar (authorizer : Bool) : Pool.Condition ops Draw World Kind :=
  fun i op d w =>
    let w' := ((pool authorizer).answer i op d w).2
    Inv w' ∧ Rely w w'

def contract (authorizer : Bool) : Contract (pool authorizer) where
  inv       := Inv
  rely      := Rely
  guar      := Guar authorizer
  refl      := .refl
  trans     := .trans
  guar_inv h _ := h.left
  guar_rely h _ := h.right
  env_inv h := h
  env_rely _ := .refl _

namespace Guar

variable {i : Kind} {d : Draw} {w : World}

theorem reads {op : ops.Op} (h : Reads op) (hi : Inv w) : Guar authorizer i op d w := by
  unfold Guar
  rw [reads_answer h]
  exact ⟨hi, .refl _⟩

theorem newID (pre : Str) (hi : Inv w) : Guar authorizer i (.newID pre) d w := by
  have hw : ((pool authorizer).answer i (.newID pre) d w).2 =
      { w with drawn := (pre ++ str "-" ++ hex d.random.toList) :: w.drawn } := by
    cases i <;> rfl
  unfold Guar
  rw [hw]
  exact ⟨⟨hi.unique, hi.known, hi.catalog, hi.status, hi.once, hi.created⟩,
    ⟨fun _ h => h, fun _ _ => .refl _⟩⟩

theorem requestCreate {r : Request} (hi : Inv w) (hp : ∀ o ∈ w.opened, o.id ≠ r.id)
    (hs : r.status = .pending) (hc : r.catalogModelID = []) :
    Guar authorizer i (.requestCreate r) d w := by
  unfold Guar
  cases requestCreate_answer authorizer i d w r
  case inl h =>
    have ⟨e, h⟩ := h
    rw [h]
    exact ⟨hi, .refl _⟩
  case inr h =>
    have ⟨hn, h⟩ := h
    rw [h]
    let r' := MemoryStore.stamp r d.now
    refine ⟨⟨?_, ?_, ?_, ?_, hi.once, ?_⟩, ⟨fun _ h => .tail _ h, ?_⟩⟩
    case refine_1 =>
      intro o ho o' ho' he
      cases ho <;> cases ho'
      case head.head            => rfl
      case head.tail ho'        => exact absurd he.symm (hp o' ho')
      case tail.head ho         => exact absurd he (hp o ho)
      case tail.tail ho ho'     => exact hi.unique o ho o' ho' he
    case refine_2 =>
      intro id r₁ h
      cases Map.lookup_insert_some h
      case inl h =>
        obtain ⟨rfl, rfl⟩ := h
        exact ⟨r', .head _, rfl, rfl⟩
      case inr h =>
        have ⟨o, ho, h⟩ := hi.known id r₁ h
        exact ⟨o, .tail _ ho, h⟩
    case refine_3 =>
      intro id r₁ h
      cases Map.lookup_insert_some h
      case inl h =>
        obtain ⟨rfl, rfl⟩ := h
        simp [MemoryStore.stamp, hs, hc]
      case inr h => exact hi.catalog id r₁ h
    case refine_4 =>
      intro id r₁ h
      cases Map.lookup_insert_some h
      case inl h =>
        obtain ⟨rfl, rfl⟩ := h
        simp [MemoryStore.stamp, hs]
      case inr h => exact hi.status id r₁ h
    case refine_5 =>
      intro id h
      have ⟨o, ho, h⟩ := hi.created id h
      exact ⟨o, .tail _ ho, h⟩
    case refine_6 =>
      intro o ho
      have : (w.requests.insert r.id r').lookup o.id = w.requests.lookup o.id :=
        Finmap.lookup_insert_of_ne _ (hp o ho)
      exact this ▸ .refl _

-- An update that finds a request and sets its status to one that it may have from now on.
theorem requestUpdate {id : Str} {f : Request → Except Error Request} (hi : Inv w)
    (hf : ∀ r r₁, w.requests.lookup id = some r → f r = .ok r₁ → r₁.targetName = r.targetName ∧
      (r₁.catalogModelID ≠ [] ↔ r₁.status = .approved) ∧
      r₁.status ∈ [.pending, .approved, .rejected] ∧ (r.status ≠ .pending → r₁.status = r.status)) :
    Guar authorizer i (.requestUpdate id f) d w := by
  unfold Guar
  cases requestUpdate_answer authorizer i d w id f
  case inl h =>
    have ⟨e, h⟩ := h
    rw [h]
    exact ⟨hi, .refl _⟩
  case inr h =>
    have ⟨r, r₁, hr, hr₁, h⟩ := h
    rw [h]
    have ⟨hn, hc, hk, hs⟩ := hf r r₁ hr hr₁
    let r₂ := { r₁ with updatedAt := d.now }
    refine ⟨⟨hi.unique, ?_, ?_, ?_, hi.once, hi.created⟩, ⟨fun _ h => h, ?_⟩⟩
    case refine_1 =>
      intro id' r' h
      cases Map.lookup_insert_some h
      case inl h =>
        obtain ⟨rfl, rfl⟩ := h
        have ⟨o, ho, he, ht⟩ := hi.known _ r hr
        exact ⟨o, ho, he, ht.trans hn.symm⟩
      case inr h => exact hi.known id' r' h
    case refine_2 =>
      intro id' r' h
      cases Map.lookup_insert_some h
      case inl h =>
        obtain ⟨rfl, rfl⟩ := h
        exact hc
      case inr h => exact hi.catalog id' r' h
    case refine_3 =>
      intro id' r' h
      cases Map.lookup_insert_some h
      case inl h =>
        obtain ⟨rfl, rfl⟩ := h
        exact hk
      case inr h => exact hi.status id' r' h
    case refine_4 =>
      intro o ho
      show Settled (w.requests.lookup o.id) ((w.requests.insert id r₂).lookup o.id)
      by_cases he : o.id = id
      case pos => rw [he, hr, Finmap.lookup_insert]; exact hs
      case neg => rw [Finmap.lookup_insert_of_ne _ he]; exact .refl _

theorem requestDelete (id : Str) (hi : Inv w) : Guar authorizer i (.requestDelete id) d w := by
  unfold Guar
  cases requestDelete_answer authorizer i d w id
  case inl h =>
    have ⟨e, h⟩ := h
    rw [h]
    exact ⟨hi, .refl _⟩
  case inr h =>
    rw [h]
    refine ⟨⟨hi.unique, ?_, ?_, ?_, hi.once, hi.created⟩, ⟨fun _ h => h, ?_⟩⟩
    case refine_1 => exact fun id' r' h => hi.known id' r' (Map.lookup_erase_some h)
    case refine_2 => exact fun id' r' h => hi.catalog id' r' (Map.lookup_erase_some h)
    case refine_3 => exact fun id' r' h => hi.status id' r' (Map.lookup_erase_some h)
    case refine_4 =>
      intro o _
      show Settled (w.requests.lookup o.id) ((w.requests.erase id).lookup o.id)
      by_cases he : o.id = id
      case pos => rw [he, Finmap.lookup_erase]; cases w.requests.lookup id <;> trivial
      case neg => rw [Finmap.lookup_erase_ne he]; exact .refl _

-- The catalogue refuses a second model of the name that a request asks for.
theorem modelCreate {u : Option User} {body : ReviewRequest} {id : Str} {m : Models.Model}
    (hi : Inv w) (hp : w.models.lookup m.id = none)
    (hn : ∃ o ∈ w.opened, o.id = id ∧ o.targetName = m.name) (hs : m.scope = .scopePublic)
    (he : m.ns = []) : Guar authorizer (.approve u id body) (.modelCreate m) d w := by
  unfold Guar
  cases modelCreate_answer authorizer d w u id body m
  case inl h =>
    have ⟨e, h⟩ := h
    rw [h]
    exact ⟨hi, .refl _⟩
  case inr h =>
    have ⟨hc, h⟩ := h
    rw [h]
    have ⟨o, ho, hoi, hon⟩ := hn
    refine ⟨⟨hi.unique, hi.known, hi.catalog, hi.status, ?_, ?_⟩,
      ⟨fun _ h => h, fun _ _ => .refl _⟩⟩
    case refine_1 =>
      refine List.nodup_cons.mpr ⟨fun hm => hc ?_, hi.once⟩
      have ⟨o', ho', hoi', k, e, hl, hes, hen, hem⟩ := hi.created id hm
      cases hi.unique o ho o' ho' (hoi.trans hoi'.symm)
      exact Models.MemoryStore.clashes_iff.mpr
        ⟨k, e, hl, hes.trans hs.symm, hen.trans he.symm, hem.trans hon⟩
    case refine_2 =>
      intro id' hm
      cases hm
      case head =>
        exact ⟨o, ho, hoi, m.id, _, Finmap.lookup_insert _, hs, he, hon.symm⟩
      case tail hm =>
        have ⟨o', ho', hoi', k, e, hl, h⟩ := hi.created id' hm
        have hk : k ≠ m.id := fun hk => by simp [hk ▸ hp] at hl
        exact ⟨o', ho', hoi', k, e, (Finmap.lookup_insert_of_ne _ hk).trans hl, h⟩

end Guar

-- The request `id`, when it was opened, asked for the name `name`.
def Asks (id name : Str) (w : World) : Prop :=
  ∃ o ∈ w.opened, o.id = id ∧ o.targetName = name

theorem Asks.stable {id name : Str} (h : Asks id name w) (hr : Rely w w') : Asks id name w' := by
  have ⟨o, ho, h⟩ := h
  exact ⟨o, hr.opened ho, h⟩

section Calls

open Contract

variable {i : Kind} {w : World}

theorem reads_safe {p : Hub.Call α} (h : Prog.Only Reads p) :
    (contract authorizer).Safe Orderly i (Ok fun _ _ => True) p w :=
  (Safe.of_only h fun _ hr _ _ hi _ _ => Guar.reads hr hi).mono
    fun _ _ _ => Ok.intro fun _ _ => trivial

theorem requestGet_safe (id : Str) :
    (contract authorizer).Safe Orderly i (Ok fun r => Asks id r.targetName) (requestGet id) w := by
  refine Safe.perform (fun _ _ hi _ _ => Guar.reads trivial hi) ?_
  intro w₁ _ hi d _ w₂ hr _
  rw [reads_answer (show Reads (.requestGet id) from trivial)] at hr
  refine Ok.intro fun r he => Asks.stable ?_ hr
  exact hi.known id r (requestGet_ok he)

theorem newID_safe (pre : Str) :
    (contract authorizer).Safe Orderly i (Ok fun id _ => id ≠ []) (newID pre) w := by
  refine Safe.lift <| Safe.perform (fun _ _ hi _ _ => Guar.newID pre hi) ?_
  intro _ _ _ d _ _ _ _
  rw [newID_fst]
  simp [str, String.utf8EncodeChar]

theorem modelCreate_safe {u : Option User} {id : Str} {body : ReviewRequest} {m : Models.Model}
    (hn : Asks id m.name w) (hs : m.scope = .scopePublic) (he : m.ns = []) :
    (contract authorizer).Safe Orderly (.approve u id body) (Ok fun m' _ => m'.id = m.id)
      (modelCreate m) w := by
  refine Safe.perform (fun w₁ hr hi d hp => Guar.modelCreate hi hp (hn.stable hr) hs he) ?_
  intro w₁ hr hi d hp w₂ _ _
  refine Ok.intro fun m' hm => ?_
  cases modelCreate_answer authorizer d w₁ u id body m
  case inl h => have ⟨e, h⟩ := h; rw [h] at hm; cases hm
  case inr h => rw [h.right] at hm; cases hm; rfl

theorem createPublicFromRequest_safe {u u' : Option User} {id : Str} {body : ReviewRequest}
    {req : Models.PublishCopy} (hi : Inv w) (hn : Asks id req.name w) :
    (contract authorizer).Safe Orderly (.approve u id body) (Ok fun pid _ => pid ≠ [])
      (Models.createPublicFromRequest u' req) w := by
  unfold Models.createPublicFromRequest
  refine Safe.guard fun _ => ?_
  split
  case h_1 => exact Safe.throw
  case h_2 scheme _ =>
    refine Safe.guard fun _ => ?_
    refine Safe.seq (reads_safe now_reads) hi fun now w₁ hr₁ hi₁ _ => ?_
    refine Safe.seq (newID_safe _) hi₁ fun pid w₂ hr₂ hi₂ hp => ?_
    have hn₂ := (hn.stable hr₁).stable hr₂
    refine Safe.seq (modelCreate_safe hn₂ rfl rfl) hi₂ fun m _ _ _ hm => ?_
    exact Safe.pure fun _ _ _ => hm ▸ hp

theorem getPrivateForPublish_safe (u : Option User) (id : Str) :
    (contract authorizer).Safe Orderly i (Ok fun _ _ => True)
      (Models.getPrivateForPublish authorizer u id) w :=
  reads_safe (getPrivateForPublish_reads ..)

theorem create_safe (u : Option User) (req : CreateRequest) (hi : Inv w) :
    (contract authorizer).Safe Orderly i (Ok fun _ _ => True) (create authorizer u req) w := by
  unfold create
  split
  case h_1 => exact Safe.throw
  case h_2 u =>
    refine Safe.guard fun _ => ?_
    refine Safe.guard fun _ => ?_
    refine Safe.seq (getPrivateForPublish_safe _ _) hi fun snap w₁ _ hi₁ _ => ?_
    refine Safe.guard fun _ => ?_
    refine Safe.guard fun _ => ?_
    refine Safe.seq (reads_safe (canWriteNamespace_reads ..)) hi₁ fun ok w₂ _ hi₂ _ => ?_
    refine Safe.guard fun _ => ?_
    refine Safe.seq (newID_safe _) hi₂ fun id w₃ _ hi₃ _ => ?_
    refine Safe.perform (fun _ _ hi _ hp => Guar.requestCreate hi hp rfl rfl) ?_
    exact fun _ _ _ _ _ _ _ _ => Ok.intro fun _ _ => trivial

theorem approve_safe (u : Option User) (id : Str) (body : ReviewRequest) (hi : Inv w) :
    (contract authorizer).Safe Orderly (.approve u id body) (Ok fun _ _ => True)
      (approve authorizer u id body) w := by
  unfold approve
  split
  case h_1 => exact Safe.throw
  case h_2 u =>
    refine Safe.guard fun _ => ?_
    refine Safe.seq (requestGet_safe id) hi fun current w₁ _ hi₁ hn => ?_
    refine Safe.guard fun _ => ?_
    refine Safe.seq (getPrivateForPublish_safe _ _).mapError hi₁ fun snap w₂ hr₂ hi₂ _ => ?_
    have hn₂ := hn.stable hr₂
    refine Safe.seq (createPublicFromRequest_safe hi₂ hn₂).mapError hi₂
      fun pid w₃ _ hi₃ hp => ?_
    refine Safe.perform (fun _ _ hi _ ho => Guar.requestUpdate hi ?_) ?_
    case refine_1 =>
      intro r r₁ hl hf
      cases hf
      have : r.status != .rejected := by simpa [Orderly, hl] using ho
      have := hi.status _ r hl
      refine ⟨rfl, by simp [hp], by simp, ?_⟩
      cases hs : r.status <;> simp_all
    case refine_2 => exact fun _ _ _ _ _ _ _ _ => Ok.intro fun _ _ => trivial

theorem reject_safe (u : Option User) (id : Str) (body : ReviewRequest) (hi : Inv w) :
    (contract authorizer).Safe Orderly (.reject u id body) (Ok fun _ _ => True)
      (reject u id body) w := by
  unfold reject
  split
  case h_1 => exact Safe.throw
  case h_2 u =>
    refine Safe.guard fun _ => ?_
    refine Safe.seq (requestGet_safe id) hi fun current w₁ _ hi₁ hn => ?_
    refine Safe.guard fun _ => ?_
    refine Safe.perform (fun _ _ hi _ ho => Guar.requestUpdate hi ?_) ?_
    case refine_1 =>
      intro r r₁ hl hf
      cases hf
      have : r.status != .approved := by simpa [Orderly, hl] using ho
      have := hi.catalog _ r hl
      have := hi.status _ r hl
      refine ⟨rfl, ?_, by simp, ?_⟩ <;> cases hs : r.status <;> simp_all
    case refine_2 => exact fun _ _ _ _ _ _ _ _ => Ok.intro fun _ _ => trivial

theorem delete_safe (u : Option User) (id : Str) (hi : Inv w) :
    (contract authorizer).Safe Orderly i (Ok fun _ _ => True) (delete u id) w := by
  unfold delete
  split
  case h_1 => exact Safe.throw
  case h_2 u =>
    refine Safe.seq (requestGet_safe id) hi fun current w₁ _ hi₁ _ => ?_
    refine Safe.guard fun _ => ?_
    refine Safe.perform (fun _ _ hi _ _ => Guar.requestDelete id hi) ?_
    exact fun _ _ _ _ _ _ _ _ => Ok.intro fun _ _ => trivial

end Calls

theorem contract_keeps : (contract authorizer).Keeps Orderly := by
  intro i w hi
  cases i
  case create u req      => exact (create_safe u req hi).void hi
  case approve u id body => exact (approve_safe u id body hi).void hi
  case reject u id body  => exact (reject_safe u id body hi).void hi
  case delete u id       => exact (delete_safe u id hi).any

-- The service before its first request, over any catalogue.
def start (m : Models.MemoryStore) : Config ops World Kind (Except Error Unit) where
  world := { stores := { models := m, requests := ∅ }, opened := [], published := [], drawn := [] }
  calls := []

-- The rules of the state machine, for a state `w₂` that is reached after `w₁`.
structure Lawful (w₁ w₂ : World) : Prop where
  final   : ∀ id r₁ r₂, w₁.requests.lookup id = some r₁ → r₁.status ≠ .pending →
            w₂.requests.lookup id = some r₂ → r₂.status = r₁.status
  catalog : ∀ id r, w₂.requests.lookup id = some r → (r.catalogModelID ≠ [] ↔ r.status = .approved)
  once    : ∀ id, w₂.published.count id ≤ 1

theorem start_holds (m : Models.MemoryStore) :
    (contract authorizer).Holds Orderly (start m) where
  inv := {
    unique      := by simp [start]
    known _ _ h := by cases (Finmap.lookup_empty _).symm.trans h
    catalog _ _ h := by cases (Finmap.lookup_empty _).symm.trans h
    status _ _ h  := by cases (Finmap.lookup_empty _).symm.trans h
    once        := .nil
    created     := by simp [start]
  }
  safe _ h := by cases h

theorem orderly_lawful {m : Models.MemoryStore} {ps qs : List (Pick Draw Kind)}
    (h : (pool authorizer).Allows Orderly (ps ++ qs) (start m)) :
    Lawful ((pool authorizer).run (start m) ps).world
      ((pool authorizer).run (start m) (ps ++ qs)).world := by
  have ⟨h₁, h₂⟩ := Pool.throughout_append.mp h
  have hc₁ := (start_holds m).run contract_keeps h₁
  have hc₂ := hc₁.run contract_keeps h₂
  have hr := hc₁.run_rely contract_keeps h₂
  rw [Pool.run_append]
  refine ⟨?_, hc₂.inv.catalog, fun id => List.nodup_iff_count_le_one.mp hc₂.inv.once id⟩
  intro id r₁ r₂ hl₁ hp hl₂
  have ⟨o, ho, he, _⟩ := hc₁.inv.known id r₁ hl₁
  have hs := hr.settled o ho
  rw [he, hl₁, hl₂] at hs
  exact hs hp

-- An administrator opens a request and approves it.
def opening : List (Pick Draw Kind) :=
  .start (.create root ⟨str "m-1", str "qwen", [], []⟩) :: List.replicate 3 (.act 0 draw)

def approval : List (Pick Draw Kind) :=
  .start (.approve root (str "pub-00000000") ⟨[]⟩) :: List.replicate 6 (.act 1 draw)

theorem orderly_lawful_approval :
    Lawful ((pool false).run (start catalogue) opening).world
      ((pool false).run (start catalogue) (opening ++ approval)).world :=
  orderly_lawful (by decide)

-- The same, but a rejection has read the request while it was pending and goes on after the approval.
def earlyRejection : List (Pick Draw Kind) :=
  [.start (.approve root (str "pub-00000000") ⟨[]⟩),
    .start (.reject root (str "pub-00000000") ⟨[]⟩), .act 2 draw]

def statusAfter (ps : List (Pick Draw Kind)) : Option Status :=
  ((pool false).run (start catalogue) ps).world.requests.lookup (str "pub-00000000")
    |>.map (·.status)

theorem late_rejection_unlawful :
    ¬∀ m ps qs, Lawful ((pool false).run (start m) ps).world
      ((pool false).run (start m) (ps ++ qs)).world := by
  intro h
  let ps := opening ++ earlyRejection ++ List.replicate 6 (.act 1 draw)
  have h₁ : statusAfter ps = some .approved := by decide +kernel
  have h₂ : statusAfter (ps ++ [.act 2 draw]) = some .rejected := by decide
  have ⟨r₁, hl₁, hr₁⟩ := Option.map_eq_some_iff.mp h₁
  have ⟨r₂, hl₂, hr₂⟩ := Option.map_eq_some_iff.mp h₂
  have := (h catalogue ps [.act 2 draw]).final _ r₁ r₂ hl₁ (by simp [hr₁]) hl₂
  simp [hr₁, hr₂] at this

end Publish

import Knaic.AgentWorkspace.Isolation
import Knaic.Effects.Places

open Go Effects

namespace AgentWorkspace.Together

open Kube

-- The calls of one user that create and remove the workspace.
inductive Action
  | ensure
  | delete
deriving DecidableEq

-- Why a request fails, if not because the object is there or is not. It may take effect all the same.
structure Failure where
  err           : Error
  takes         : Bool
  notFound      : errNotFound.is err = false
  alreadyExists : errAlreadyExists.is err = false

structure Draw where
  now     : Time
  text    : Str
  failure : Option Failure

def answer (op : ops.Op) (d : Draw) (c : Cluster) : ops.Res op × Cluster :=
  let done := Kube.answer op ⟨d.now, d.text, none⟩ c
  match d.failure with
  | none   => done
  | some f => ((Kube.answer op ⟨d.now, d.text, some f.err⟩ c).1, if f.takes then done.2 else c)

variable (s : Service) (ownerID : Str)

def pool : Pool Kube.ops Draw Cluster Action (Except Error Unit) where
  answer _ op d c := answer op d c
  env _ c := c
  code
    | .ensure => (s.ensure ownerID).void
    | .delete => s.delete ownerID

def parts : List Kind :=
  [.pvc, .service, .deployment]

def present (c : Cluster) (k : Kind) : Prop :=
  ((c k).lookup (objectKey s k ownerID)).isSome

instance (c : Cluster) (k : Kind) : Decidable (present s ownerID c k) :=
  inferInstanceAs (Decidable (_ = true))

def All (c : Cluster) : Prop :=
  ∀ k ∈ parts, present s ownerID c k

def Nothing (c : Cluster) : Prop :=
  ∀ k ∈ parts, ¬present s ownerID c k

-- When no call is under way, all of the workspace is there or nothing. When an `Ensure` has returned
-- without an error, all of it is there.
structure InStep (c : Cluster) (ps : List (Pick Draw Action)) : Prop where
  settled : (∀ call ∈ ((pool s ownerID).run ⟨c, []⟩ ps).calls, ∃ r, call.2 = .ret r) →
            All s ownerID ((pool s ownerID).run ⟨c, []⟩ ps).world ∨
            Nothing s ownerID ((pool s ownerID).run ⟨c, []⟩ ps).world
  ensured : (pool s ownerID).Throughout (fun c p =>
              ∀ n q, c.calls[n]? = some (.ensure, q) → (pool s ownerID).Returns n (.ok ()) c p →
              All s ownerID ((pool s ownerID).next c p).world) ps ⟨c, []⟩

-- The end of `ensurePVC`.
def createPVC (qty : Quantity) : Kube.Call Unit := do
  let created ← attempt <| create .pvc {
    metadata := s.objectMeta (pvcName (workspaceName ownerID)) ownerID
    body     := {
      accessModes      := [str "ReadWriteOnce"]
      requests         := .ofList [(str "storage", qty)]
      storageClassName := if s.opts.storageClass = [] then none else some s.opts.storageClass
    }
  }
  match created with
  | .ok _      => return
  | .error err => if errAlreadyExists.is err then return else throw err

-- Where a call is, by its next request.
inductive Place
  | look
  | lookPVC
  | makePVC (qty : Quantity)
  | makeService
  | makeDeployment
  | lookAgain
  | found (pvc : Key)
  | dropDeployment
  | dropService
  | dropPVC
  | ended (r : Except Error Unit)

namespace Place

-- What is left to do.
def code : Place → Prog Kube.ops (Except Error Unit)
  | look           => (s.ensure ownerID).void
  | lookPVC        => Call.void do
    (s.ensurePVC ownerID).mapError (.wrap "pvc")
    (s.ensureService ownerID).mapError (.wrap "service")
    (s.ensureDeployment ownerID).mapError (.wrap "deployment")
    s.get ownerID
  | makePVC qty    => Call.void do
    (createPVC s ownerID qty).mapError (.wrap "pvc")
    (s.ensureService ownerID).mapError (.wrap "service")
    (s.ensureDeployment ownerID).mapError (.wrap "deployment")
    s.get ownerID
  | makeService    => Call.void do
    (s.ensureService ownerID).mapError (.wrap "service")
    (s.ensureDeployment ownerID).mapError (.wrap "deployment")
    s.get ownerID
  | makeDeployment => Call.void do
    (s.ensureDeployment ownerID).mapError (.wrap "deployment")
    s.get ownerID
  | lookAgain      => (s.get ownerID).void
  | found pvc      => .call (.get .pvc pvc) fun _ => .ret (.ok ())
  | dropDeployment => s.delete ownerID
  | dropService    => (do
    Service.remove .service (s.opts.ns, workspaceName ownerID) "delete service"
    Service.remove .pvc (s.opts.ns, pvcName (workspaceName ownerID)) "delete pvc" : Kube.Call Unit)
  | dropPVC        => Service.remove .pvc (s.opts.ns, pvcName (workspaceName ownerID)) "delete pvc"
  | ended r        => .ret r

-- Where an `Ensure` goes on that has read the Deployment.
def seen (deploy : Deployment) : Place :=
  found (deploy.metadata.ns, pvcName deploy.metadata.name)

def hear : Place → (op : ops.Op) → ops.Res op → Place
  | look, .get .deployment _, .ok deploy       => seen deploy
  | look, .get .deployment _, .error err       => if errNotFound.is err then lookPVC else ended (.error err)
  | lookPVC, .get .pvc _, .ok _                => makeService
  | lookPVC, .get .pvc _, .error err           =>
    if errNotFound.is err then
      match s.parseQuantity s.opts.storage with
      | .error err => ended (.error (.wrap "pvc" err))
      | .ok qty    => makePVC qty
    else
      ended (.error (.wrap "pvc" err))
  | makePVC _, .create .pvc _, .ok _           => makeService
  | makePVC _, .create .pvc _, .error err      =>
    if errAlreadyExists.is err then makeService else ended (.error (.wrap "pvc" err))
  | makeService, .create .service _, .ok _     => makeDeployment
  | makeService, .create .service _, .error err =>
    if errAlreadyExists.is err then makeDeployment else ended (.error (.wrap "service" err))
  | makeDeployment, .create .deployment _, .ok _ => lookAgain
  | makeDeployment, .create .deployment _, .error err =>
    if errAlreadyExists.is err then lookAgain else ended (.error (.wrap "deployment" err))
  | lookAgain, .get .deployment _, .ok deploy  => seen deploy
  | lookAgain, .get .deployment _, .error err  => ended (.error err)
  | dropDeployment, .delete _ _, .ok _         => dropService
  | dropDeployment, .delete _ _, .error err    =>
    if errNotFound.is err then dropService else ended (.error (.wrap "delete deployment" err))
  | dropService, .delete _ _, .ok _            => dropPVC
  | dropService, .delete _ _, .error err       =>
    if errNotFound.is err then dropPVC else ended (.error (.wrap "delete service" err))
  | dropPVC, .delete _ _, .ok _                => ended (.ok ())
  | dropPVC, .delete _ _, .error err           =>
    if errNotFound.is err then ended (.ok ()) else ended (.error (.wrap "delete pvc" err))
  | _, _, _                                    => ended (.ok ())

end Place

open Place in
-- The places are those of the code.
theorem hear_code {p : Place} {op : ops.Op} {k : ops.Res op → Prog Kube.ops (Except Error Unit)}
    (h : p.code s ownerID = .call op k) (r : ops.Res op) : (p.hear s op r).code s ownerID = k r := by
  cases p
  case ended     => cases h
  case found pvc => cases h; rfl
  case look =>
    cases h
    cases r
    case ok      => rfl
    case error e =>
      cases he : errNotFound.is e
      all_goals
        simp only [hear, he, Prog.pure_eq, Prog.bind, Function.comp_apply, ExceptT.bindCont, Bool.not_true,
          Bool.not_false, Bool.false_eq_true, if_true, if_false]
        rfl
  case lookPVC =>
    cases h
    cases r
    case ok      => rfl
    case error e =>
      cases he : errNotFound.is e
      case false =>
        simp only [hear, he, Prog.bind, Function.comp_apply, ExceptT.bindCont, Bool.not_false,
          Bool.false_eq_true, if_true, if_false]
        rfl
      case true =>
        cases hq : s.parseQuantity s.opts.storage
        all_goals
          simp only [hear, he, hq, Prog.bind, Function.comp_apply, ExceptT.bindCont, Bool.not_true,
            Bool.false_eq_true, if_true, if_false]
          rfl
  case makeDeployment =>
    simp only [code, Service.ensureDeployment] at h
    cases hr : s.resourceList s.opts.cpuRequest s.opts.memoryRequest
    case error => rw [hr] at h; cases h
    case ok    =>
      cases hl : s.resourceList s.opts.cpuLimit s.opts.memoryLimit
      case error => rw [hr, hl] at h; cases h
      case ok    =>
        rw [hr, hl] at h
        cases h
        cases r
        case ok      => rfl
        case error e =>
          cases he : errAlreadyExists.is e
          all_goals
            simp only [hear, he, Prog.bind, Function.comp_apply, ExceptT.bindCont, Bool.false_eq_true,
              if_true, if_false]
            rfl
  case lookAgain => cases h; cases r <;> rfl
  case makePVC | makeService =>
    cases h
    cases r
    case ok      => rfl
    case error e =>
      cases he : errAlreadyExists.is e
      all_goals
        simp only [hear, he, Prog.bind, Function.comp_apply, ExceptT.bindCont, Bool.false_eq_true, if_true,
          if_false]
        rfl
  case dropDeployment | dropService | dropPVC =>
    cases h
    cases r
    case ok      => rfl
    case error e =>
      cases he : errNotFound.is e
      all_goals
        simp only [hear, he, Prog.bind, Function.comp_apply, ExceptT.bindCont, Bool.false_eq_true, if_true,
          if_false]
        rfl

def places : Places (pool s ownerID) Place where
  code          := Place.code s ownerID
  start
    | .ensure => .look
    | .delete => .dropDeployment
  hear          := Place.hear s
  start_code i  := by cases i <;> rfl
  hear_code     := hear_code s ownerID

namespace Place

-- What an `Ensure` goes on from as being there.
def relied : Place → List Kind
  | found _        => [.pvc, .service, .deployment]
  | makeService    => [.pvc]
  | makeDeployment => [.pvc, .service]
  | _              => []

-- What a `Delete` goes on from as being gone.
def removed : Place → List Kind
  | dropService => [.deployment]
  | dropPVC     => [.deployment, .service]
  | _           => []

-- Whether a call has to go on for the workspace to be in order.
def midway : Place → Bool
  | makeService | makeDeployment | dropService | dropPVC => true
  | _                                                    => false

def deletes : Place → Bool
  | dropDeployment | dropService | dropPVC => true
  | _                                      => false

end Place

-- A request does not fail midway, nor with an effect. Nothing that a call goes on from as being there is
-- removed, and nothing that a call goes on from as being gone is created.
def Undisturbed (st : Placed Cluster Action Place) (pick : Pick Draw Action) : Prop :=
  let after := ((places s ownerID).next st pick).world
  (∀ k ∈ parts,
    (present s ownerID st.world k → ¬present s ownerID after k → ∀ c ∈ st.calls, k ∉ c.2.relied) ∧
    (¬present s ownerID st.world k → present s ownerID after k → ∀ c ∈ st.calls, k ∉ c.2.removed)) ∧
  match pick with
  | .start _ | .env _ => True
  | .act n d          => d.failure.isSome → ∀ c ∈ st.calls[n]?, c.2.midway = false ∧
    ∀ k ∈ parts, present s ownerID st.world k ↔ present s ownerID after k

section Requests

variable {s ownerID} {c : Cluster} {d : Draw}

theorem present_put {k : Kind} (o : Object k) (k' : Kind) :
    present s ownerID (c.put (objectKey s k ownerID) o) k' ↔ present s ownerID c k' ∨ k' = k := by
  by_cases hk : k' = k
  case pos => subst hk; simp [present, Cluster.lookup_put]
  case neg => simp [present, Cluster.put, hk]

theorem present_drop (k k' : Kind) :
    present s ownerID (c.drop k (objectKey s k ownerID)) k' ↔ present s ownerID c k' ∧ k' ≠ k := by
  by_cases hk : k' = k
  case pos => subst hk; simp [present, Cluster.drop, Finmap.lookup_erase]
  case neg => simp [present, Cluster.drop, hk]

theorem answer_get (k : Kind) (key : Key) : (answer (.get k key) d c).2 = c := by
  have hk (f : Option Error) : (Kube.answer (.get k key) ⟨d.now, d.text, f⟩ c).2 = c := by
    cases f
    case some => rfl
    case none => simp only [Kube.answer]; split <;> rfl
  unfold answer
  cases d.failure
  case none   => exact hk none
  case some f => simp only [hk none, ite_self]

theorem get_ok {k : Kind} {key : Key} {o : Object k} (h : (answer (.get k key) d c).1 = .ok o) :
    (c k).lookup key = some o := by
  unfold answer at h
  cases hf : d.failure
  case none   => rw [hf] at h; exact Kube.get_ok h
  case some f => rw [hf] at h; cases h

-- A request that does not fail.
theorem answer_none (op : ops.Op) (h : d.failure = none) :
    answer op d c = Kube.answer op ⟨d.now, d.text, none⟩ c := by
  simp only [answer, h]

theorem present_of_get {k : Kind} {o : Object k} (h : (answer (.get k (objectKey s k ownerID)) d c).1 = .ok o) :
    present s ownerID c k := by
  rw [present, get_ok h]
  rfl

-- After a creation the object is there, unless the request has failed.
theorem create_cases {k : Kind} {o : Object k} (ho : o.key = objectKey s k ownerID) :
    let a := answer (.create k o) d c
    ((∀ e, a.1 = .error e → errAlreadyExists.is e) ∧
      ∀ k', present s ownerID a.2 k' ↔ present s ownerID c k' ∨ k' = k) ∨
    (d.failure.isSome ∧ ∃ e, a.1 = .error e ∧ errAlreadyExists.is e = false) := by
  cases hf : d.failure
  case some f =>
    refine .inr ⟨rfl, f.err, ?_, f.alreadyExists⟩
    simp only [answer, hf, Kube.answer]
  case none   =>
    rw [answer_none _ hf]
    simp only [Kube.answer]
    cases hl : (c k).lookup o.key
    case none     =>
      simp only [ho]
      exact .inl ⟨fun _ h => (by cases h), present_put _⟩
    case some old =>
      refine .inl ⟨fun e he => ?_, fun k' => ⟨.inl, ?_⟩⟩
      · cases he; decide
      · rintro (hp | rfl)
        · exact hp
        · rw [present, ← ho, hl]; rfl

-- After a deletion the object is gone, unless the request has failed.
theorem delete_cases (k : Kind) :
    let a := answer (.delete k (objectKey s k ownerID)) d c
    ((∀ e, a.1 = .error e → errNotFound.is e) ∧
      ∀ k', present s ownerID a.2 k' ↔ present s ownerID c k' ∧ k' ≠ k) ∨
    (d.failure.isSome ∧ ∃ e, a.1 = .error e ∧ errNotFound.is e = false) := by
  cases hf : d.failure
  case some f =>
    refine .inr ⟨rfl, f.err, ?_, f.notFound⟩
    simp only [answer, hf, Kube.answer]
  case none   =>
    rw [answer_none _ hf]
    simp only [Kube.answer]
    cases hl : (c k).lookup (objectKey s k ownerID)
    case some => exact .inl ⟨fun _ h => (by cases h), present_drop k⟩
    case none =>
      refine .inl ⟨fun e he => ?_, fun k' => ⟨fun hp => ⟨hp, ?_⟩, And.left⟩⟩
      · cases he; decide
      · rintro rfl
        simp [present, hl] at hp

end Requests
-- What a call has done with a request, by the places before and after and by what of the workspace is
-- there before and after.
inductive Move (before after : Kind → Prop) : Place → Place → Prop
  | idle (same : ∀ k ∈ parts, before k ↔ after k) (hp : p.midway = false) (hq : q.midway = false)
    (hr : q.relied = []) (hm : q.removed = []) (hd : q.deletes = false) (ho : q ≠ .ended (.ok ())) :
    Move before after p q
  | seen (same : ∀ k ∈ parts, before k ↔ after k) (hp : p.midway = false) (hb : before .deployment) :
    Move before after p (.found key)
  | returned (same : ∀ k ∈ parts, before k ↔ after k) : Move before after (.found key) (.ended (.ok ()))
  | madePVC (made : ∀ k, after k ↔ before k ∨ k = .pvc) (hp : p.midway = false) :
    Move before after p .makeService
  | madeService (made : ∀ k, after k ↔ before k ∨ k = .service) : Move before after .makeService .makeDeployment
  | madeDeployment (made : ∀ k, after k ↔ before k ∨ k = .deployment) :
    Move before after .makeDeployment .lookAgain
  | droppedDeployment (dropped : ∀ k, after k ↔ before k ∧ k ≠ .deployment) :
    Move before after .dropDeployment .dropService
  | droppedService (dropped : ∀ k, after k ↔ before k ∧ k ≠ .service) : Move before after .dropService .dropPVC
  | droppedPVC (dropped : ∀ k, after k ↔ before k ∧ k ≠ .pvc) : Move before after .dropPVC (.ended (.ok ()))

section Moves

variable {s ownerID} {c : Cluster} {d : Draw}

-- A call goes on to `q` when its request is answered, or turned down with the error that is known there.
theorem move_request {α : Type} {before after : Kind → Prop} {p q : Place} {hear : Except Error α → Place}
    {a : Except Error α} {known : Error → Bool} {P : Prop}
    (hc : ((∀ e, a = .error e → known e) ∧ P) ∨ (d.failure.isSome ∧ ∃ e, a = .error e ∧ known e = false))
    (hf : d.failure.isSome → p.midway = false ∧ ∀ k ∈ parts, before k ↔ after k)
    (hm : P → Move before after p q) (hok : ∀ o, hear (.ok o) = q)
    (her : ∀ e, hear (.error e) = q ∧ known e ∨ ∃ e', hear (.error e) = .ended (.error e') ∧ known e = false) :
    Move before after p (hear a) := by
  rcases hc with ⟨hx, hp⟩ | ⟨hd, e, rfl, hx⟩
  case inl =>
    cases a
    case ok o    => rw [hok]; exact hm hp
    case error e =>
      rcases her e with ⟨he, -⟩ | ⟨_, -, hn⟩
      · rw [he]; exact hm hp
      · cases hn.symm.trans (hx e rfl)
  case inr =>
    rcases her e with ⟨-, hn⟩ | ⟨_, he, -⟩
    · cases hx.symm.trans hn
    · rw [he]; exact .idle (hf hd).right (hf hd).left rfl rfl rfl rfl nofun

theorem move_create {k : Kind} {o : Object k} {p q : Place} (ho : o.key = objectKey s k ownerID)
    (hf : d.failure.isSome → p.midway = false ∧
      ∀ k' ∈ parts, present s ownerID c k' ↔ present s ownerID (answer (.create k o) d c).2 k')
    (hm : (∀ k', present s ownerID (answer (.create k o) d c).2 k' ↔ present s ownerID c k' ∨ k' = k) →
      Move (present s ownerID c) (present s ownerID (answer (.create k o) d c).2) p q)
    (hok : ∀ o', p.hear s (.create k o) (.ok o') = q)
    (her : ∀ e, p.hear s (.create k o) (.error e) = q ∧ errAlreadyExists.is e ∨
      ∃ e', p.hear s (.create k o) (.error e) = .ended (.error e') ∧ errAlreadyExists.is e = false) :
    Move (present s ownerID c) (present s ownerID (answer (.create k o) d c).2) p
      (p.hear s (.create k o) (answer (.create k o) d c).1) :=
  move_request (create_cases ho) hf hm hok her

theorem move_delete {k : Kind} {key : Key} {p q : Place} (hk : key = objectKey s k ownerID)
    (hf : d.failure.isSome → p.midway = false ∧
      ∀ k' ∈ parts, present s ownerID c k' ↔ present s ownerID (answer (.delete k key) d c).2 k')
    (hm : (∀ k', present s ownerID (answer (.delete k key) d c).2 k' ↔ present s ownerID c k' ∧ k' ≠ k) →
      Move (present s ownerID c) (present s ownerID (answer (.delete k key) d c).2) p q)
    (hok : p.hear s (.delete k key) (.ok ()) = q)
    (her : ∀ e, p.hear s (.delete k key) (.error e) = q ∧ errNotFound.is e ∨
      ∃ e', p.hear s (.delete k key) (.error e) = .ended (.error e') ∧ errNotFound.is e = false) :
    Move (present s ownerID c) (present s ownerID (answer (.delete k key) d c).2) p
      (p.hear s (.delete k key) (answer (.delete k key) d c).1) := by
  subst hk
  exact move_request (delete_cases k) hf hm (fun _ => hok) her

theorem makeDeployment_op {op : ops.Op} {k : ops.Res op → Prog Kube.ops (Except Error Unit)}
    (h : Place.makeDeployment.code s ownerID = .call op k) :
    ∃ o : Deployment, o.key = objectKey s .deployment ownerID ∧ op = .create .deployment o := by
  simp only [Place.code, Service.ensureDeployment] at h
  cases hr : s.resourceList s.opts.cpuRequest s.opts.memoryRequest
  case error       => rw [hr] at h; cases h
  case ok requests =>
    cases hl : s.resourceList s.opts.cpuLimit s.opts.memoryLimit
    case error     => rw [hr, hl] at h; cases h
    case ok limits =>
      rw [hr, hl] at h
      cases h
      exact ⟨s.deployment ownerID requests limits, rfl, rfl⟩

theorem move {p : Place} {op : ops.Op} {k : ops.Res op → Prog Kube.ops (Except Error Unit)}
    (h : p.code s ownerID = .call op k) (hf : d.failure.isSome → p.midway = false ∧
      ∀ k ∈ parts, present s ownerID c k ↔ present s ownerID (answer op d c).2 k) :
    Move (present s ownerID c) (present s ownerID (answer op d c).2) p (p.hear s op (answer op d c).1) := by
  cases p
  case ended     => cases h
  case found pvc =>
    cases h
    refine .returned fun k _ => ?_
    rw [answer_get]
  case look =>
    cases h
    have hs (k : Kind) : present s ownerID c k ↔
        present s ownerID (answer (.get .deployment (s.opts.ns, workspaceName ownerID)) d c).2 k := by
      rw [answer_get]
    cases ha : (answer (.get .deployment (s.opts.ns, workspaceName ownerID)) d c).1
    case ok deploy => exact .seen (fun k _ => hs k) rfl (present_of_get ha)
    case error e   =>
      cases he : errNotFound.is e
      all_goals
        simp only [Place.hear, he, Bool.false_eq_true, if_true, if_false]
        exact .idle (fun k _ => hs k) rfl rfl rfl rfl rfl nofun
  case lookAgain =>
    cases h
    have hs (k : Kind) : present s ownerID c k ↔
        present s ownerID (answer (.get .deployment (s.opts.ns, workspaceName ownerID)) d c).2 k := by
      rw [answer_get]
    cases ha : (answer (.get .deployment (s.opts.ns, workspaceName ownerID)) d c).1
    case ok deploy => exact .seen (fun k _ => hs k) rfl (present_of_get ha)
    case error e   => exact .idle (fun k _ => hs k) rfl rfl rfl rfl rfl nofun
  case lookPVC =>
    cases h
    have hs (k : Kind) : present s ownerID c k ↔
        present s ownerID (answer (.get .pvc (s.opts.ns, pvcName (workspaceName ownerID))) d c).2 k := by
      rw [answer_get]
    cases ha : (answer (.get .pvc (s.opts.ns, pvcName (workspaceName ownerID))) d c).1
    case ok pvc =>
      have hp : present s ownerID c .pvc := present_of_get ha
      refine .madePVC (fun k => ?_) rfl
      rw [← hs k]
      exact ⟨.inl, fun h => h.elim id fun h => h ▸ hp⟩
    case error e =>
      cases he : errNotFound.is e
      case false =>
        simp only [Place.hear, he, Bool.false_eq_true, if_false]
        exact .idle (fun k _ => hs k) rfl rfl rfl rfl rfl nofun
      case true =>
        cases hq : s.parseQuantity s.opts.storage
        all_goals
          simp only [Place.hear, he, hq, if_true]
          exact .idle (fun k _ => hs k) rfl rfl rfl rfl rfl nofun
  case makePVC qty =>
    cases h
    refine move_create rfl hf (.madePVC · rfl) (fun _ => rfl) fun e => ?_
    cases he : errAlreadyExists.is e <;> simp [Place.hear, he]
  case makeService =>
    cases h
    refine move_create rfl hf .madeService (fun _ => rfl) fun e => ?_
    cases he : errAlreadyExists.is e <;> simp [Place.hear, he]
  case makeDeployment =>
    obtain ⟨o, ho, rfl⟩ := makeDeployment_op h
    refine move_create ho hf .madeDeployment (fun _ => rfl) fun e => ?_
    cases he : errAlreadyExists.is e <;> simp [Place.hear, he]
  case dropDeployment =>
    cases h
    refine move_delete rfl hf .droppedDeployment rfl fun e => ?_
    cases he : errNotFound.is e <;> simp [Place.hear, he]
  case dropService =>
    cases h
    refine move_delete rfl hf .droppedService rfl fun e => ?_
    cases he : errNotFound.is e <;> simp [Place.hear, he]
  case dropPVC =>
    cases h
    refine move_delete rfl hf .droppedPVC rfl fun e => ?_
    cases he : errNotFound.is e <;> simp [Place.hear, he]

end Moves
-- What a move keeps, of what the call itself goes on from.
theorem Move.keeps {b a : Kind → Prop} {p q : Place} (h : Move b a p q) (hp : ∀ k ∈ p.relied, b k)
    (hr : ∀ k ∈ p.removed, ¬b k) (hw : b .deployment → ∀ k ∈ parts, b k) :
    (∀ k ∈ q.relied, a k) ∧ (∀ k ∈ q.removed, ¬a k) ∧ (a .deployment → ∀ k ∈ parts, a k) ∧
    (q.midway = false →
      (p.midway = false ∧ ∀ k ∈ parts, b k ↔ a k) ∨ (∀ k ∈ parts, a k) ∨ ∀ k ∈ parts, ¬a k) := by
  have hdep : Kind.deployment ∈ parts := by decide
  cases h
  case idle same hp hq hr hm hd ho =>
    refine ⟨by simp [hr], by simp [hm], fun ha k hk => ?_, fun _ => .inl ⟨hp, same⟩⟩
    exact (same k hk).mp (hw ((same _ hdep).mpr ha) k hk)
  case seen same hb hp =>
    have ha : ∀ k ∈ parts, a k := fun k hk => (same k hk).mp (hw hb k hk)
    exact ⟨ha, by simp [Place.removed], fun _ => ha, fun _ => .inr (.inl ha)⟩
  case returned same =>
    have ha : ∀ k ∈ parts, a k := fun k hk => (same k hk).mp (hp k hk)
    exact ⟨by simp [Place.relied], by simp [Place.removed], fun _ => ha, fun _ => .inr (.inl ha)⟩
  all_goals
    simp_all [Place.relied, Place.removed, parts, Place.midway]

structure Inv (st : Placed Cluster Action Place) : Prop where
  relied  : ∀ c ∈ st.calls, ∀ k ∈ c.2.relied, present s ownerID st.world k
  removed : ∀ c ∈ st.calls, ∀ k ∈ c.2.removed, ¬present s ownerID st.world k
  whole   : present s ownerID st.world .deployment → All s ownerID st.world
  settled : (∀ c ∈ st.calls, c.2.midway = false) → All s ownerID st.world ∨ Nothing s ownerID st.world
  ensure  : ∀ c ∈ st.calls, c.1 = .ensure → c.2.deletes = false

section Run

variable {s ownerID} {st : Placed Cluster Action Place} {n : Nat} {d : Draw} {i : Action} {p : Place}
variable {op : ops.Op} {k : ops.Res op → Prog Kube.ops (Except Error Unit)}

theorem places_next (hn : st.calls[n]? = some (i, p)) (hc : p.code s ownerID = .call op k) :
    (places s ownerID).next st (.act n d) =
      ⟨(answer op d st.world).2, st.calls.set n (i, p.hear s op (answer op d st.world).1)⟩ :=
  (places s ownerID).next_act hn hc

theorem Undisturbed.move (h : Undisturbed s ownerID st (.act n d)) (hn : st.calls[n]? = some (i, p))
    (hc : p.code s ownerID = .call op k) :
    Move (present s ownerID st.world) (present s ownerID (answer op d st.world).2) p
      (p.hear s op (answer op d st.world).1) := by
  refine Together.move hc fun hf => ?_
  have hf := h.right hf (i, p) hn
  rwa [places_next hn hc] at hf

theorem relied_parts (p : Place) : ∀ k ∈ p.relied, k ∈ parts := by
  cases p <;> simp [Place.relied, parts]

theorem removed_parts (p : Place) : ∀ k ∈ p.removed, k ∈ parts := by
  cases p <;> simp [Place.removed, parts]

-- An `Ensure` stays one.
theorem Move.ensure {b a : Kind → Prop} {p q : Place} (h : Move b a p q) (hp : p.deletes = false) :
    q.deletes = false := by
  cases h
  case idle hd _ => exact hd
  all_goals first | rfl | cases hp

theorem start_place (i : Action) : ((places s ownerID).start i).relied = [] ∧
    ((places s ownerID).start i).removed = [] ∧ ((places s ownerID).start i).midway = false := by
  cases i <;> exact ⟨rfl, rfl, rfl⟩

theorem Inv.start (h : Inv s ownerID st) (i : Action) : Inv s ownerID ((places s ownerID).next st (.start i)) := by
  have ⟨hr, hm, hw⟩ := @start_place s ownerID i
  simp only [Places.next]
  refine ⟨?_, ?_, h.whole, fun hs => h.settled fun c hc => hs c (List.mem_append_left _ hc), ?_⟩
  all_goals
    intro c hc
    rcases List.mem_append.mp hc with hc | hc
  · exact h.relied c hc
  · cases List.mem_singleton.mp hc
    simp [hr]
  · exact h.removed c hc
  · cases List.mem_singleton.mp hc
    simp [hm]
  · exact h.ensure c hc
  · cases List.mem_singleton.mp hc
    rintro rfl
    rfl

-- Where one call has moved, the others are still.
theorem others {c : Action × Place} (q : Place) (hn : st.calls[n]? = some (i, p)) (hc : c ∈ st.calls) :
    c = (i, p) ∨ c ∈ st.calls.set n (i, q) := by
  have ⟨m, hm⟩ := List.mem_iff_getElem?.mp hc
  by_cases h : n = m
  case pos => subst h; exact .inl (Option.some.inj (hm.symm.trans hn))
  case neg => exact .inr (List.mem_of_getElem? (by rw [List.getElem?_set_ne h, hm]))

theorem Inv.moved {w' : Cluster} {q : Place} (h : Inv s ownerID st) (hn : st.calls[n]? = some (i, p))
    (hm : Move (present s ownerID st.world) (present s ownerID w') p q)
    (hu : ∀ k ∈ parts,
      (present s ownerID st.world k → ¬present s ownerID w' k → ∀ c ∈ st.calls, k ∉ c.2.relied) ∧
      (¬present s ownerID st.world k → present s ownerID w' k → ∀ c ∈ st.calls, k ∉ c.2.removed)) :
    Inv s ownerID ⟨w', st.calls.set n (i, q)⟩ := by
  have hmem := List.mem_of_getElem? hn
  have ⟨hr, hg, hw, hs⟩ := hm.keeps (h.relied _ hmem) (h.removed _ hmem) h.whole
  refine ⟨fun c hc k hk => ?_, fun c hc k hk => ?_, hw, fun hmid => ?_, fun c hc he => ?_⟩
  case refine_1 =>
    rcases List.mem_or_eq_of_mem_set hc with hc | rfl
    · by_contra ha
      exact (hu k (relied_parts _ k hk)).left (h.relied c hc k hk) ha c hc hk
    · exact hr k hk
  case refine_2 =>
    rcases List.mem_or_eq_of_mem_set hc with hc | rfl
    · exact fun ha => (hu k (removed_parts _ k hk)).right (h.removed c hc k hk) ha c hc hk
    · exact hg k hk
  case refine_3 =>
    have hl := (List.getElem?_eq_some_iff.mp hn).choose
    rcases hs (hmid (i, q) (List.mem_set hl _)) with ⟨hp, same⟩ | ha | ha
    · have hb := h.settled fun c hc => by
        rcases others q hn hc with rfl | hc
        · exact hp
        · exact hmid c hc
      exact hb.imp (fun hb k hk => (same k hk).mp (hb k hk)) fun hb k hk ha => hb k hk ((same k hk).mpr ha)
    · exact .inl ha
    · exact .inr ha
  case refine_4 =>
    rcases List.mem_or_eq_of_mem_set hc with hc | rfl
    · exact h.ensure c hc he
    · exact hm.ensure (h.ensure _ hmem he)

theorem Inv.next (h : Inv s ownerID st) {pick : Pick Draw Action} (hu : Undisturbed s ownerID st pick) :
    Inv s ownerID ((places s ownerID).next st pick) := by
  cases pick
  case start i => exact h.start i
  case env d   => exact h
  case act n d =>
    cases hn : st.calls[n]?
    case none   => rw [Places.next_none hn]; exact h
    case some c =>
      obtain ⟨i, p⟩ := c
      cases hc : p.code s ownerID
      case ret r     => rw [Places.next_over hn hc]; exact h
      case call op k =>
        have hf := hu.left
        rw [places_next hn hc] at hf ⊢
        exact h.moved hn (hu.move hn hc) hf

end Run

-- What the options say of the container can be read.
def Readable : Prop :=
  (∃ requests, s.resourceList s.opts.cpuRequest s.opts.memoryRequest = .ok requests) ∧
  ∃ limits, s.resourceList s.opts.cpuLimit s.opts.memoryLimit = .ok limits

variable {s ownerID}

-- A call that has returned is not midway.
theorem midway_of_ret (hr : Readable s) {p : Place} {r : Except Error Unit} (h : p.code s ownerID = .ret r) :
    p.midway = false := by
  obtain ⟨⟨requests, hr⟩, limits, hl⟩ := hr
  cases p
  case makeService | dropService | dropPVC => cases h
  case makeDeployment =>
    simp only [Place.code, Service.ensureDeployment] at h
    rw [hr, hl] at h
    cases h
  all_goals rfl

theorem ended_of_ok {p : Place} (h : p.code s ownerID = .ret (.ok ())) : p = .ended (.ok ()) := by
  cases p
  case ended r => cases h; rfl
  case makeDeployment =>
    simp only [Place.code, Service.ensureDeployment] at h
    cases hr : s.resourceList s.opts.cpuRequest s.opts.memoryRequest
    case error => rw [hr] at h; cases h
    case ok    =>
      cases hl : s.resourceList s.opts.cpuLimit s.opts.memoryLimit
      all_goals
        rw [hr, hl] at h
        cases h
  all_goals cases h

-- An `Ensure` returns without an error only after it has found the Deployment.
theorem Move.ensured {b a : Kind → Prop} {p : Place} (h : Move b a p (.ended (.ok ())))
    (hp : p.deletes = false) (hr : ∀ k ∈ p.relied, b k) : ∀ k ∈ parts, a k := by
  cases h
  case idle          => contradiction
  case returned same => exact fun k hk => (same k hk).mp (hr k hk)
  case droppedPVC    => cases hp

theorem Inv.ensured {st : Placed Cluster Action Place} (h : Inv s ownerID st) {pick : Pick Draw Action}
    (hu : Undisturbed s ownerID st pick) {n : Nat} {q : Prog Kube.ops (Except Error Unit)}
    (hn : ((places s ownerID).config st).calls[n]? = some (.ensure, q))
    (hr : (pool s ownerID).Returns n (.ok ()) ((places s ownerID).config st) pick) :
    All s ownerID ((pool s ownerID).next ((places s ownerID).config st) pick).world := by
  obtain ⟨d, i, op, k, rfl, hc, hk⟩ := hr
  obtain ⟨rfl, rfl⟩ := Prod.mk.inj (Option.some.inj (hn.symm.trans hc))
  rw [Pool.next_act hc]
  rw [Places.config_calls] at hc
  obtain ⟨⟨i, p⟩, hp, he⟩ := Option.map_eq_some_iff.mp hc
  obtain ⟨rfl, he⟩ := Prod.mk.inj he
  have hmem := List.mem_of_getElem? hp
  have hm := hu.move hp he
  have ho : p.hear s op (answer op d st.world).1 = .ended (.ok ()) :=
    ended_of_ok ((hear_code s ownerID he _).trans hk)
  rw [ho] at hm
  exact hm.ensured (h.ensure _ hmem rfl) (h.relied _ hmem)

theorem undisturbed_in_step (hr : Readable s) {c : Cluster} (hc : All s ownerID c ∨ Nothing s ownerID c)
    {ps : List (Pick Draw Action)} (h : (places s ownerID).Throughout (Undisturbed s ownerID) ps ⟨c, []⟩) :
    InStep s ownerID c ps := by
  have hi : Inv s ownerID ⟨c, []⟩ := by
    refine ⟨nofun, nofun, fun hd => ?_, fun _ => hc, nofun⟩
    exact hc.resolve_right fun hn => hn .deployment (by decide) hd
  have next : ∀ st pick, Inv s ownerID st → Undisturbed s ownerID st pick →
      Inv s ownerID ((places s ownerID).next st pick) := fun _ _ h hu => h.next hu
  have hrun : (places s ownerID).config ((places s ownerID).run ⟨c, []⟩ ps) =
      (pool s ownerID).run ⟨c, []⟩ ps := Places.run_config
  constructor
  case settled =>
    rw [← hrun]
    intro hret
    refine (Places.run_invariant next hi h).settled fun call hcall => ?_
    have ⟨r, hr'⟩ := hret _ (List.mem_map_of_mem hcall)
    exact midway_of_ret hr hr'
  case ensured =>
    refine Places.throughout_config.mp (Places.throughout_invariant next hi h ?_)
    exact fun st pick hst hu n q hn hret => hst.ensured hu hn hret

-- A workspace is removed while it is created.
section Overlap

instance : Decidable (All s ownerID c) :=
  inferInstanceAs (Decidable (∀ k ∈ parts, _))

instance : Decidable (Nothing s ownerID c) :=
  inferInstanceAs (Decidable (∀ k ∈ parts, _))

instance (st : Placed Cluster Action Place) (pick : Pick Draw Action) :
    Decidable (Undisturbed s ownerID st pick) := by
  unfold Undisturbed
  cases pick <;> infer_instance

instance {S : Signature} {α : Type} : (p : Prog S α) → Decidable (∃ r, p = .ret r)
  | .ret r    => isTrue ⟨r, rfl⟩
  | .call _ _ => isFalse nofun

def calm : Draw where
  now     := ⟨1, 0⟩
  text    := str "0001-01-01T00:00:01Z"
  failure := none

def act (n count : Nat) : List (Pick Draw Action) :=
  List.replicate count (.act n calm)

theorem ensure_then_delete_in_step : InStep standard (str "ann") (fun _ => ∅)
    (.start .ensure :: act 0 7 ++ .start .delete :: .start .ensure :: act 2 2 ++ act 1 3) :=
  undisturbed_in_step ⟨⟨_, rfl⟩, _, rfl⟩ (.inr (by decide)) (by decide +kernel)

theorem overlap_not_in_step : ¬∀ s ownerID c ps, Readable s → All s ownerID c ∨ Nothing s ownerID c →
    InStep s ownerID c ps := by
  intro h
  have ho := h standard (str "ann") (fun _ => ∅)
    (.start .ensure :: .start .delete :: act 0 4 ++ act 1 2 ++ act 0 2 ++ act 1 1 ++ act 0 2)
    ⟨⟨_, rfl⟩, _, rfl⟩ (.inr (by decide +kernel))
  exact absurd (ho.settled (by decide +kernel)) (by decide)

end Overlap
end AgentWorkspace.Together

import Knaic.AgentWorkspace.Service

open Go Effects

namespace AgentWorkspace

open Auth Kube

inductive Action
  | get
  | ensure
  | restart
  | updateResources (spec : ResourceSpec)
  | delete
  | proxy

-- A request of one of two users.
structure Request where
  who    : Bool
  action : Action

variable (s : Service) (users : Bool → User)

def ownerOf (who : Bool) : Str :=
  ownerIDFromUser (users who)

-- The pool of all calls of the two users.
def pool : Pool Kube.ops Draw Cluster Request (Except Error Unit) where
  answer _ op d c := Kube.answer op d c
  env _ c := c
  code i :=
    match i.action with
    | .get                  => (s.get (ownerOf users i.who)).void
    | .ensure               => (s.ensure (ownerOf users i.who)).void
    | .restart              => (restart s (users i.who)).void
    | .updateResources spec => (updateResources s (users i.who) spec).void
    | .delete               => s.delete (ownerOf users i.who)
    | .proxy                => proxy s (users i.who)

-- To whom an object belongs.
def owner (o : Object k) : Option Str :=
  o.metadata.annotations.lookup annotationOwnerID

theorem owner_objectMeta (s : Service) (name ownerID : Str) (body : Body k) :
    owner (k := k) ⟨s.objectMeta name ownerID, body⟩ = some ownerID := by
  simp [owner, Service.objectMeta, Go.Map.ofList]

-- The operation reaches no object that belongs to the other user.
def Isolated : Pool.Condition Kube.ops Draw Cluster Request :=
  fun i op _ c => Spares (fun o => owner o = some (ownerOf users !i.who)) op c

def objectKey (k : Kind) (ownerID : Str) : Key :=
  match k with
  | .pvc => (s.opts.ns, pvcName (workspaceName ownerID))
  | _    => (s.opts.ns, workspaceName ownerID)

instance (i : Request) (op : ops.Op) (d : Draw) (c : Cluster) :
    Decidable (Isolated users i op d c) :=
  inferInstanceAs (Decidable (Spares _ op c))

-- An object is stored under its own name, and what belongs to one of the two users has the name that
-- the service gives it.
structure Own (k : Kind) (key : Key) (o : Object k) : Prop where
  stored : o.key = key
  named  : ∀ who, owner o = some (ownerOf users who) → key = objectKey s k (ownerOf users who)

theorem objectKey_inj {k : Kind} {a b : Str} (h : objectKey s k a = objectKey s k b) :
    Confusable a b := by
  refine (workspaceName_inj a b).mp ?_
  cases k
  case pvc => exact List.append_cancel_right (congrArg Prod.snd h)
  all_goals exact congrArg Prod.snd h

def contract : Contract (pool s users) where
  inv           := Cluster.Everywhere (Own s users)
  rely _ _      := True
  guar i op d c := Isolated users i op d c ∧ Admits (Own s users) op
  refl _        := trivial
  trans _ _     := trivial
  guar_inv h hc := hc.answer h.right
  guar_rely _ _ := trivial
  env_inv h     := h
  env_rely _    := trivial

section Calls

open Contract

variable {s users} {i : Request} {c : Cluster}

theorem create_safe {k : Kind} {o : Object k}
    (hk : o.key = objectKey s k (ownerOf users i.who)) (ho : owner o = some (ownerOf users i.who)) :
    (contract s users).Safe .always i (Ok fun _ _ => True) (Kube.create k o) c := by
  refine Safe.perform (fun _ _ hc _ _ => ⟨(fun _ _ _ ha => nomatch ha), fun t v => ⟨rfl, ?_⟩⟩) ?_
  case refine_1 =>
    intro who hw
    rw [← Option.some.inj (ho.symm.trans hw)]
    exact hk
  case refine_2 => exact fun _ _ _ _ _ _ _ _ => Ok.intro fun _ _ => trivial

theorem ensureService_safe (hc : c.Everywhere (Own s users)) :
    (contract s users).Safe .always i (Ok fun _ _ => True)
      (s.ensureService (ownerOf users i.who)) c := by
  refine Safe.seq (create_safe rfl (owner_objectMeta ..)).lift hc fun created _ _ _ _ => ?_
  split
  case h_1 => exact Safe.pure fun _ _ _ => trivial
  case h_2 => split <;> first | exact Safe.pure fun _ _ _ => trivial | exact Safe.throw

theorem ensureDeployment_safe (hc : c.Everywhere (Own s users)) :
    (contract s users).Safe .always i (Ok fun _ _ => True)
      (s.ensureDeployment (ownerOf users i.who)) c := by
  refine Safe.seq (Safe.of_except _) hc fun requests c₁ _ hc₁ _ => ?_
  refine Safe.seq (Safe.of_except _) hc₁ fun limits c₂ _ hc₂ _ => ?_
  refine Safe.seq (create_safe rfl (owner_objectMeta ..)).lift hc₂ fun created _ _ _ _ => ?_
  split
  case h_1 => exact Safe.pure fun _ _ _ => trivial
  case h_2 => split <;> first | exact Safe.pure fun _ _ _ => trivial | exact Safe.throw

variable (hi : ¬Confusable (ownerOf users i.who) (ownerOf users !i.who))
include hi

-- Under the name of a user, only objects of that user are found.
theorem isolated_of_addr {op : Op} {k : Kind} (hc : c.Everywhere (Own s users))
    (ha : op.addr = some (k, objectKey s k (ownerOf users i.who))) :
    Isolated users i op d c := by
  intro k' key o ha' hl ho
  cases ha.symm.trans ha'
  exact hi (objectKey_inj s ((hc _ _ _ hl).named _ ho))

theorem get_safe (k : Kind) (c : Cluster) :
    (contract s users).Safe .always i
      (Ok fun o _ => Own s users k (objectKey s k (ownerOf users i.who)) o)
      (Kube.get k (objectKey s k (ownerOf users i.who))) c := by
  refine Safe.perform (fun _ _ hc _ _ => ⟨isolated_of_addr hi hc rfl, trivial⟩) ?_
  exact fun _ _ hc _ _ _ _ _ => Ok.intro fun o ho => hc _ _ _ (get_ok ho)

-- Any other request for an object of the user.
theorem perform_safe {op : Op} (k : Kind)
    (ha : op.addr = some (k, objectKey s k (ownerOf users i.who))) (ho : Admits (Own s users) op) :
    (contract s users).Safe .always i (fun _ _ => True) (perform op) c :=
  Safe.perform (fun _ _ hc _ _ => ⟨isolated_of_addr hi hc ha, ho⟩) fun _ _ _ _ _ _ _ _ => trivial

theorem workspaceFromDeployment_safe {deploy : Deployment} (ownerID : Str)
    (hc : c.Everywhere (Own s users))
    (ho : Own s users .deployment (objectKey s .deployment (ownerOf users i.who)) deploy) :
    (contract s users).Safe .always i (Ok fun _ _ => True)
      (Service.workspaceFromDeployment deploy ownerID) c := by
  have hk : objectKey s .pvc (ownerOf users i.who) =
      (deploy.metadata.ns, pvcName deploy.metadata.name) := by
    have := ho.stored
    simp_all [Object.key, ObjectMeta.key, objectKey]
  have hg := get_safe (s := s) hi .pvc c
  rw [hk] at hg
  exact Safe.seq hg.lift hc fun _ _ _ _ _ => Safe.pure fun _ _ _ => trivial

theorem serviceGet_safe (hc : c.Everywhere (Own s users)) :
    (contract s users).Safe .always i (Ok fun _ _ => True) (s.get (ownerOf users i.who)) c :=
  Safe.seq (get_safe hi .deployment c) hc fun _ _ _ hc ho =>
    workspaceFromDeployment_safe hi _ hc ho

theorem ensurePVC_safe (hc : c.Everywhere (Own s users)) :
    (contract s users).Safe .always i (Ok fun _ _ => True) (s.ensurePVC (ownerOf users i.who)) c := by
  refine Safe.seq (get_safe hi .pvc c).lift hc fun found c₁ _ hc₁ _ => ?_
  split
  case h_1 => exact Safe.pure fun _ _ _ => trivial
  case h_2 =>
    refine Safe.guard fun _ => ?_
    split
    case h_1 => exact Safe.throw
    case h_2 =>
      refine Safe.seq (create_safe rfl (owner_objectMeta ..)).lift hc₁ fun created _ _ _ _ => ?_
      split
      case h_1 => exact Safe.pure fun _ _ _ => trivial
      case h_2 => split <;> first | exact Safe.pure fun _ _ _ => trivial | exact Safe.throw

theorem ensure_safe (hc : c.Everywhere (Own s users)) :
    (contract s users).Safe .always i (Ok fun _ _ => True) (s.ensure (ownerOf users i.who)) c := by
  refine Safe.seq (serviceGet_safe hi hc).lift hc fun found c₁ _ hc₁ _ => ?_
  split
  case h_1 => exact Safe.pure fun _ _ _ => trivial
  case h_2 =>
    refine Safe.guard fun _ => ?_
    refine Safe.seq (ensurePVC_safe hi hc₁).mapError hc₁ fun _ c₂ _ hc₂ _ => ?_
    refine Safe.seq (ensureService_safe hc₂).mapError hc₂ fun _ c₃ _ hc₃ _ => ?_
    refine Safe.seq (ensureDeployment_safe hc₃).mapError hc₃ fun _ c₄ _ hc₄ _ => ?_
    exact serviceGet_safe hi hc₄

theorem serviceRestart_safe (hc : c.Everywhere (Own s users)) :
    (contract s users).Safe .always i (Ok fun _ _ => True) (s.restart (ownerOf users i.who)) c := by
  refine Safe.seq (Q := fun _ _ => True) ?_ hc fun now c₁ _ hc₁ _ => ?_
  case refine_1 =>
    exact Safe.lift <| Safe.perform (fun _ _ _ _ _ => ⟨(fun _ _ _ ha => nomatch ha), trivial⟩)
      fun _ _ _ _ _ _ _ _ => trivial
  case refine_2 =>
    refine Safe.seq (perform_safe hi .deployment rfl ?_).ok hc₁ fun _ _ _ _ _ => ?_
    case refine_1 => exact fun _ _ _ ho => ⟨ho.stored, ho.named⟩
    case refine_2 => exact Safe.pure fun _ _ _ => trivial

theorem restart_safe (hc : c.Everywhere (Own s users)) :
    (contract s users).Safe .always i (Ok fun _ _ => True) (restart s (users i.who)) c := by
  refine Safe.seq (serviceRestart_safe hi hc) hc fun _ c₁ _ hc₁ _ => ?_
  exact Safe.seq (serviceGet_safe hi hc₁) hc₁ fun _ _ _ _ _ => Safe.pure fun _ _ _ => trivial

-- An object that was read is written back under the same name and for the same owner.
theorem update_safe {k : Kind} {o : Object k} (body : Body k)
    (ho : Own s users k (objectKey s k (ownerOf users i.who)) o) :
    (contract s users).Safe .always i (Ok fun _ _ => True)
      (Kube.update k { o with body := body }) c := by
  have ha : Op.addr (.update k { o with body }) = some (k, objectKey s k (ownerOf users i.who)) :=
    congrArg (fun key => some (k, key)) ho.stored
  exact (perform_safe hi k ha fun _ _ =>
    ⟨rfl, fun who hw => ho.stored.trans (ho.named who hw)⟩).ok

theorem resizePVC_safe (storage : Str) (hc : c.Everywhere (Own s users)) :
    (contract s users).Safe .always i (Ok fun _ _ => True)
      (s.resizePVC (workspaceName (ownerOf users i.who)) storage) c := by
  unfold Service.resizePVC
  split
  case isTrue => exact Safe.pure fun _ _ _ => trivial
  case isFalse =>
    split
    case h_1 => exact Safe.throw
    case h_2 =>
      refine Safe.seq (get_safe hi .pvc c).mapError hc fun pvc c₁ _ hc₁ ho => ?_
      refine Safe.seq (update_safe hi _ ho).mapError hc₁ fun _ _ _ _ _ => ?_
      exact Safe.pure fun _ _ _ => trivial

theorem serviceUpdateResources_safe (spec : ResourceSpec) (hc : c.Everywhere (Own s users)) :
    (contract s users).Safe .always i (Ok fun _ _ => True)
      (s.updateResources (ownerOf users i.who) spec) c := by
  refine Safe.seq (get_safe hi .deployment c).mapError hc fun deploy c₁ _ hc₁ ho => ?_
  split
  case h_1 => exact Safe.throw
  case h_2 =>
    split
    case h_1 => exact Safe.throw
    case h_2 =>
      refine Safe.seq (update_safe hi _ ho).mapError hc₁ fun _ c₂ _ hc₂ _ => ?_
      refine Safe.seq (resizePVC_safe hi _ hc₂) hc₂ fun _ c₃ _ hc₃ _ => ?_
      exact serviceGet_safe hi hc₃

theorem updateResources_safe (spec : ResourceSpec) (hc : c.Everywhere (Own s users)) :
    (contract s users).Safe .always i (Ok fun _ _ => True)
      (updateResources s (users i.who) spec) c :=
  Safe.seq (serviceUpdateResources_safe hi spec hc) hc fun _ _ _ _ _ =>
    Safe.pure fun _ _ _ => trivial

theorem remove_safe (k : Kind) (context : String) (hc : c.Everywhere (Own s users)) :
    (contract s users).Safe .always i (Ok fun _ _ => True)
      (Service.remove k (objectKey s k (ownerOf users i.who)) context) c := by
  have hd := @perform_safe s users i c hi (.delete k _) k rfl trivial
  refine Safe.seq hd.lift hc fun removed _ _ _ _ => ?_
  split
  case h_1 => exact Safe.pure fun _ _ _ => trivial
  case h_2 => split <;> first | exact Safe.pure fun _ _ _ => trivial | exact Safe.throw

theorem delete_safe (hc : c.Everywhere (Own s users)) :
    (contract s users).Safe .always i (Ok fun _ _ => True) (s.delete (ownerOf users i.who)) c := by
  refine Safe.seq (remove_safe hi .deployment _ hc) hc fun _ c₁ _ hc₁ _ => ?_
  refine Safe.seq (remove_safe hi .service _ hc₁) hc₁ fun _ c₂ _ hc₂ _ => ?_
  exact remove_safe hi .pvc _ hc₂

theorem proxy_safe (hc : c.Everywhere (Own s users)) :
    (contract s users).Safe .always i (Ok fun _ _ => True) (proxy s (users i.who)) c := by
  unfold proxy
  dsimp only
  refine Safe.guard fun _ => ?_
  refine Safe.seq (serviceGet_safe hi hc).lift hc fun found c₁ _ hc₁ _ => ?_
  split
  case h_1 => split <;> exact Safe.throw
  case h_2 =>
    have hd := @perform_safe s users i c₁ hi (.dial _) .service rfl trivial
    exact Safe.seq hd.ok hc₁ fun _ _ _ _ _ => Safe.pure fun _ _ _ => trivial

end Calls

variable {s users}

theorem contract_keeps (h : ∀ who, ¬Confusable (ownerOf users who) (ownerOf users !who)) :
    (contract s users).Keeps .always := by
  intro i c hc
  have hi := h i.who
  obtain ⟨who, action⟩ := i
  cases action
  case get                  => exact (serviceGet_safe (i := ⟨who, .get⟩) hi hc).void hc
  case ensure               => exact (ensure_safe (i := ⟨who, .ensure⟩) hi hc).void hc
  case restart              => exact (restart_safe (i := ⟨who, .restart⟩) hi hc).void hc
  case updateResources spec =>
    exact (updateResources_safe (i := ⟨who, .updateResources spec⟩) hi spec hc).void hc
  case delete               => exact (delete_safe (i := ⟨who, .delete⟩) hi hc).any
  case proxy                => exact (proxy_safe (i := ⟨who, .proxy⟩) hi hc).any

theorem Confusable.symm {a b : Str} (h : Confusable a b) : Confusable b a :=
  (workspaceName_inj b a).mp ((workspaceName_inj a b).mpr h).symm

-- A cluster with only the Deployment of a user.
def withDeployment (s : Service) (ownerID : Str) : Cluster :=
  Cluster.put (fun _ => ∅) (objectKey s .deployment ownerID) (s.deployment ownerID ∅ ∅)

theorem withDeployment_own (who : Bool) :
    (withDeployment s (ownerOf users who)).Everywhere (Own s users) := by
  have hn : Cluster.Everywhere (Own s users) fun _ => ∅ :=
    fun _ _ _ hl => by cases (Finmap.lookup_empty _).symm.trans hl
  have ho : Own s users .deployment (objectKey s .deployment (ownerOf users who))
      (s.deployment (ownerOf users who) ∅ ∅) := by
    refine ⟨rfl, fun who' hw => ?_⟩
    have hd := owner_objectMeta s (k := .deployment) (workspaceName (ownerOf users who)) (ownerOf users who)
    rw [Option.some.inj ((hd _).symm.trans hw)]
  exact hn.put ho

-- A user whose name leads to the Deployment of the other one reads it.
theorem get_reaches_other (h : Confusable (ownerOf users true) (ownerOf users false)) (d : Draw) :
    ¬(pool s users).Allows (Isolated users) [.start ⟨true, .get⟩, .act 0 d]
      ⟨withDeployment s (ownerOf users false), []⟩ := by
  intro hall
  have hk : objectKey s .deployment (ownerOf users true) =
      objectKey s .deployment (ownerOf users false) :=
    congrArg (Prod.mk s.opts.ns) ((workspaceName_inj ..).mpr h)
  let o := s.deployment (ownerOf users false) ∅ ∅
  have hl : (withDeployment s (ownerOf users false) .deployment).lookup
      (objectKey s .deployment (ownerOf users true)) = some o := by
    rw [hk]
    exact Cluster.lookup_put ..
  exact hall.2.1 _ _ _ rfl .deployment _ o rfl hl (owner_objectMeta ..)

theorem isolated_iff :
    (∀ c : Cluster, c.Everywhere (Own s users) → ∀ ps,
      (pool s users).Allows (Isolated users) ps ⟨c, []⟩) ↔
    ¬Confusable (ownerOf users true) (ownerOf users false) := by
  constructor
  case mp =>
    intro hall hcf
    exact get_reaches_other hcf ⟨Time.zero, [], none⟩ (hall _ (withDeployment_own false) _)
  case mpr =>
    intro hcf c hc ps
    have hk : ∀ who, ¬Confusable (ownerOf users who) (ownerOf users !who) := by
      intro who
      cases who
      case false => exact fun hc => hcf hc.symm
      case true  => exact hcf
    have hh : (contract s users).Holds .always ⟨c, []⟩ := ⟨hc, by simp⟩
    exact Pool.Throughout.mono (hh.run_guar (contract_keeps hk) (Pool.allows_always ps))
      fun _ _ hm => hm.mono fun _ _ _ _ hg => hg.left

-- Two users with the same name once every other character is a dash. The one deletes the workspace
-- that the other has just created.
section Collision

def standard : Service where
  opts          := normalize ⟨[], [], [], [], [], [], [], [], []⟩
  parseQuantity := fun text => .ok ⟨text⟩

def colliding (who : Bool) : User where
  subject         := []
  email           := if who then str "ann.lee@example.com" else str "ann-lee@example.com"
  name            := []
  groups          := []
  isPlatformAdmin := false

def calm : Draw where
  now     := ⟨1, 0⟩
  text    := str "0001-01-01T00:00:01Z"
  failure := none

def takeover : List (Pick Draw Request) :=
  .start ⟨false, .ensure⟩ :: List.replicate 7 (.act 0 calm) ++ [.start ⟨true, .delete⟩, .act 1 calm]

theorem colliding_not_isolated :
    ¬∀ users, ownerOf users true ≠ ownerOf users false → ∀ ps,
      (pool standard users).Allows (Isolated users) ps ⟨fun _ => ∅, []⟩ := by
  intro h
  exact absurd (h colliding (by decide) takeover) (by decide +kernel)

end Collision
end AgentWorkspace

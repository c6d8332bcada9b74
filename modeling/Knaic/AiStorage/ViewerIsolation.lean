import Knaic.AiStorage.Viewer

open Go Effects

namespace AiStorage

open Kube

inductive Action
  | startViewer
  | stopViewer
  | viewerStatus
  | deletePVC
  | viewerProxy

-- A request for one of two PVCs.
structure Request where
  which  : Bool
  action : Action

variable (s : Service) (a : Admission) (ns : Str) (pvcs : Bool → Str)

-- The pool of all calls for the two PVCs, and the validation of the API server.
def pool : Pool Kube.ops Draw Cluster Request (Except Error Unit) where
  answer _ op d c := Kube.answer op (validated a op c d) c
  env _ c := c
  code i :=
    match i.action with
    | .startViewer  => (s.startViewer ns (pvcs i.which)).void
    | .stopViewer   => Service.stopViewer ns (pvcs i.which)
    | .viewerStatus => (s.viewerStatus ns (pvcs i.which)).void
    | .deletePVC    => Service.deletePVC ns (pvcs i.which)
    | .viewerProxy  => Service.viewerReverseProxy ns (pvcs i.which)

-- A viewer pod mounts its PVC, and the Service in front of it is labelled with it.
def Mounts (pvc : Str) : {k : Kind} → Object k → Prop
  | .deployment, o => ∃ v ∈ o.body.volumes, v.claimName = pvc
  | .service,    o => o.metadata.labels.lookup labelPVC = some pvc
  | _,           _ => False

instance (pvc : Str) : {k : Kind} → (o : Object k) → Decidable (Mounts pvc o)
  | .deployment, o => inferInstanceAs (Decidable (∃ v ∈ o.body.volumes, v.claimName = pvc))
  | .service,    o => inferInstanceAs (Decidable (o.metadata.labels.lookup labelPVC = some pvc))
  | .pvc, _ | .role, _ | .clusterRole, _ | .roleBinding, _ | .secret, _ | .serviceAccount, _ =>
    inferInstanceAs (Decidable False)

def ViewerOf (pvc : Str) (o : Object k) : Prop :=
  o.metadata.labels.lookup labelComponent = some componentValue ∧ Mounts pvc o

instance (pvc : Str) (o : Object k) : Decidable (ViewerOf pvc o) :=
  inferInstanceAs (Decidable (_ ∧ _))

-- A Service sends what it is sent to the pods of its namespace that have all labels of its selector.
def Selects (svc : Kube.Service) (dp : Deployment) : Prop :=
  dp.metadata.ns = svc.metadata.ns ∧
  ∀ l v, svc.body.selector.lookup l = some v → dp.body.podLabels.lookup l = some v

-- A connection is served by no viewer pod of the PVC.
def SparesPods (pvc : Str) (op : Op) (c : Cluster) : Prop :=
  ∀ key svc key' dp, op = .dial key → (c .service).lookup key = some svc →
    (c .deployment).lookup key' = some dp → Selects svc dp → ¬ViewerOf pvc dp

-- The operation reaches neither the viewer nor the Service of the other PVC.
structure Isolated (i : Request) (op : ops.Op) (d : Draw) (c : Cluster) : Prop where
  objects : Spares (ViewerOf (pvcs !i.which)) op c
  pods    : SparesPods (pvcs !i.which) op c

def viewerKey (which : Bool) : Key :=
  (ns, viewerName (pvcs which))

-- The API server lets the viewer of the PVC in.
def Startable (which : Bool) : Prop :=
  a.create .deployment (s.viewerDeployment ns (pvcs which))

-- The `app` label by which a Service finds its pods.
def Routed (name : Str) : {k : Kind} → Object k → Prop
  | .deployment, o => o.body.podLabels.lookup (str "app") = some name
  | .service,    o => o.body.selector.lookup (str "app") = some name
  | _,           _ => True

-- An object is stored under its own name, and in the namespace the viewers of the two PVCs are such as
-- `startViewer` makes them.
structure Own (k : Kind) (key : Key) (o : Object k) : Prop where
  stored : o.key = key
  named  : key.1 = ns → ∀ which, ViewerOf (pvcs which) o →
           key = viewerKey ns pvcs which ∧ Startable s a ns pvcs which
  routed : ∀ which, key = viewerKey ns pvcs which → Routed (viewerName (pvcs which)) o

-- No two viewers have one name, unless there can be no viewer at all.
def Apart : Prop :=
  (pvcs true).take 40 ≠ (pvcs false).take 40 ∨ ∀ which, ¬Startable s a ns pvcs which

def contract : Contract (pool s a ns pvcs) where
  inv              := Cluster.Everywhere (Own s a ns pvcs)
  rely _ _         := True
  guar i op d c    := Isolated pvcs i op d c ∧
                      (Kube.answer op (validated a op c d) c).2.Everywhere (Own s a ns pvcs)
  refl _           := trivial
  trans _ _        := trivial
  guar_inv h _     := h.right
  guar_rely _ _    := trivial
  env_inv h        := h
  env_rely _       := trivial

section Calls

open Contract

variable {s a ns pvcs} {i : Request} {c : Cluster}

theorem viewerKey_ne (h : (pvcs true).take 40 ≠ (pvcs false).take 40) (which : Bool) :
    viewerKey ns pvcs which ≠ viewerKey ns pvcs !which := by
  intro he
  have ht := (viewerName_inj _ _).mp (congrArg Prod.snd he)
  cases which
  case false => exact h ht.symm
  case true  => exact h ht

theorem Isolated.create {k : Kind} {o : Object k} : Isolated pvcs i (.create k o) d c where
  objects _ _ _ h := nomatch h
  pods _ _ _ _ h  := nomatch h

theorem createDeployment_safe (c : Cluster) :
    (contract s a ns pvcs).Safe .always i
      (fun r _ => (∀ e, r = .error e → errAlreadyExists.is e) → Startable s a ns pvcs i.which)
      (create .deployment (s.viewerDeployment ns (pvcs i.which))) c := by
  refine Safe.perform (fun c₁ _ hc d _ => ⟨.create, hc.answer_validated fun ha t v => ?_⟩)
    fun _ _ _ _ _ _ _ _ => create_validated
  refine ⟨rfl, fun _ which hv => ?_, fun which hk => ?_⟩
  case refine_1 =>
    have hp : pvcs i.which = pvcs which := by
      simpa [Mounts, Object.stamp, Service.viewerDeployment] using hv.right
    exact ⟨by rw [viewerKey, ← hp]; rfl, by rw [Startable, ← hp]; exact ha _ _ rfl⟩
  case refine_2 =>
    have hn : viewerName (pvcs i.which) = viewerName (pvcs which) := congrArg Prod.snd hk
    simpa [Routed, Object.stamp, Service.viewerDeployment, ← hn] using viewerLabels_app _

theorem createService_safe (hs : Startable s a ns pvcs i.which) (c : Cluster) :
    (contract s a ns pvcs).Safe .always i (fun _ _ => True)
      (create .service (Service.viewerService ns (pvcs i.which))) c := by
  refine Safe.perform (fun c₁ _ hc d _ => ⟨.create, hc.answer_validated fun _ t v => ?_⟩)
    fun _ _ _ _ _ _ _ _ => trivial
  refine ⟨rfl, fun _ which hv => ?_, fun which hk => ?_⟩
  case refine_1 =>
    have hp : pvcs i.which = pvcs which :=
      Option.some.inj ((viewerLabels_pvc _).symm.trans hv.right)
    exact ⟨by rw [viewerKey, ← hp]; rfl, by rwa [Startable, ← hp]⟩
  case refine_2 =>
    have hn : viewerName (pvcs i.which) = viewerName (pvcs which) := congrArg Prod.snd hk
    simp [Routed, Object.stamp, Service.viewerService, Go.Map.ofList, ← hn]

-- A PVC is no viewer.
theorem pvc_safe {op : Op} (ho : ∀ k key, op.addr = some (k, key) → k = .pvc)
    (hd : ∀ key, op ≠ .dial key) (hv : Admits (Own s a ns pvcs) op) :
    (contract s a ns pvcs).Safe .always i (fun _ _ => True) (perform op) c := by
  refine Safe.perform (fun c₁ _ hc d _ => ⟨⟨?_, ?_⟩, hc.answer_validated fun _ => hv⟩)
    fun _ _ _ _ _ _ _ _ => trivial
  case refine_1 =>
    intro k key o ha _ hv
    cases ho k key ha
    exact hv.right
  case refine_2 => exact fun key _ _ _ h => absurd h (hd key)

variable (ha : Apart s a ns pvcs)
include ha

-- Under the name of a viewer, no viewer of the other PVC is found.
theorem not_viewerOf {k : Kind} {o : Object k} {which : Bool}
    (ho : Own s a ns pvcs k (viewerKey ns pvcs which) o) : ¬ViewerOf (pvcs !which) o := by
  intro hv
  have ⟨hk, hs⟩ := ho.named rfl _ hv
  cases ha
  case inl h => exact viewerKey_ne h which hk
  case inr h => exact h _ hs

theorem spares_of_addr {op : Op} {k : Kind} (hc : c.Everywhere (Own s a ns pvcs))
    (ho : op.addr = some (k, viewerKey ns pvcs i.which)) :
    Spares (ViewerOf (pvcs !i.which)) op c := by
  intro k' key o ho' hl
  cases ho.symm.trans ho'
  exact not_viewerOf ha (hc _ _ _ hl)

-- A viewer pod that the Service of a PVC selects is not that of the other one.
theorem sparesPods_dial (hc : c.Everywhere (Own s a ns pvcs)) :
    SparesPods (pvcs !i.which) (.dial (viewerKey ns pvcs i.which)) c := by
  intro key svc key' dp hd hs hdp hsel hv
  cases hd
  have hos := hc _ _ _ hs
  have hod := hc _ _ _ hdp
  have hns : key'.1 = ns := by
    rw [← hod.stored]
    exact hsel.left.trans (congrArg Prod.fst hos.stored)
  have ⟨hk, hst⟩ := hod.named hns _ hv
  have hl := hsel.right _ _ (hos.routed _ rfl)
  have hn := Option.some.inj (hl.symm.trans (hod.routed _ hk))
  cases ha
  case inl h => exact viewerKey_ne h i.which (congrArg (Prod.mk ns) hn)
  case inr h => exact h _ hst

-- Any request for a viewer object of the PVC but its creation.
theorem perform_safe {op : Op} (k : Kind) (ho : op.addr = some (k, viewerKey ns pvcs i.which))
    (hd : ∀ key, op = .dial key → key = viewerKey ns pvcs i.which)
    (hv : Admits (Own s a ns pvcs) op) :
    (contract s a ns pvcs).Safe .always i (fun _ _ => True) (perform op) c := by
  refine Safe.perform (fun c₁ _ hc d _ => ⟨⟨spares_of_addr ha hc ho, ?_⟩,
    hc.answer_validated fun _ => hv⟩) fun _ _ _ _ _ _ _ _ => trivial
  intro key svc key' dp hop
  cases hd key hop
  exact sparesPods_dial ha hc _ svc key' dp rfl

theorem viewerStatus_safe (hc : c.Everywhere (Own s a ns pvcs)) :
    (contract s a ns pvcs).Safe .always i (Ok fun _ _ => True)
      (s.viewerStatus ns (pvcs i.which)) c := by
  have hg := @perform_safe s a ns pvcs i c ha (.get .deployment _) .deployment rfl (nofun) trivial
  refine Safe.seq hg.lift hc fun found _ _ _ _ => ?_
  split
  case h_1 => split <;> first | exact Safe.pure fun _ _ _ => trivial | exact Safe.throw
  case h_2 => exact Safe.pure fun _ _ _ => trivial

theorem startViewer_safe (hc : c.Everywhere (Own s a ns pvcs)) :
    (contract s a ns pvcs).Safe .always i (Ok fun _ _ => True)
      (s.startViewer ns (pvcs i.which)) c := by
  have hg := @pvc_safe s a ns pvcs i c (.get .pvc (ns, pvcs i.which)) (by rintro _ _ ⟨⟩; rfl)
    (nofun) trivial
  refine Safe.seq hg.ok hc fun _ c₁ _ hc₁ _ => ?_
  refine Safe.seq (tolerate_safe (createDeployment_safe c₁) hc₁) hc₁ fun _ c₂ _ hc₂ hs => ?_
  refine Safe.seq (tolerate_any (createService_safe hs c₂) hc₂) hc₂ fun _ c₃ _ hc₃ _ => ?_
  exact viewerStatus_safe ha hc₃

theorem remove_safe (k : Kind) (hc : c.Everywhere (Own s a ns pvcs)) :
    (contract s a ns pvcs).Safe .always i (Ok fun _ _ => True)
      (tolerate errNotFound (delete k (viewerKey ns pvcs i.which))) c := by
  have hd := @perform_safe s a ns pvcs i c ha (.delete k _) k rfl (nofun) trivial
  exact tolerate_any hd hc

theorem stopViewer_safe (hc : c.Everywhere (Own s a ns pvcs)) :
    (contract s a ns pvcs).Safe .always i (Ok fun _ _ => True)
      (Service.stopViewer ns (pvcs i.which)) c :=
  Safe.seq (remove_safe ha .deployment hc) hc fun _ _ _ hc _ => remove_safe ha .service hc

theorem deletePVC_safe (hc : c.Everywhere (Own s a ns pvcs)) :
    (contract s a ns pvcs).Safe .always i (fun _ _ => True)
      (Service.deletePVC ns (pvcs i.which)) c := by
  refine Safe.any <| Safe.seq (R := fun _ _ => True) (stopViewer_safe ha hc).any.lift hc
    fun _ c₁ _ _ _ => ?_
  have hd := @pvc_safe s a ns pvcs i c₁ (.delete .pvc (ns, pvcs i.which))
    (by rintro _ _ ⟨⟩; rfl) (nofun) trivial
  exact hd.ok

theorem viewerReverseProxy_safe (hc : c.Everywhere (Own s a ns pvcs)) :
    (contract s a ns pvcs).Safe .always i (Ok fun _ _ => True)
      (Service.viewerReverseProxy ns (pvcs i.which)) c := by
  have hd := @perform_safe s a ns pvcs i c ha (.dial _) .service rfl
    (by rintro _ ⟨⟩; rfl) trivial
  exact Safe.seq hd.ok hc fun _ _ _ _ _ => Safe.pure fun _ _ _ => trivial

end Calls

variable {s a ns pvcs}

theorem contract_keeps (ha : Apart s a ns pvcs) :
    (contract s a ns pvcs).Keeps .always := by
  intro i c hc
  obtain ⟨which, action⟩ := i
  cases action
  case startViewer  => exact (startViewer_safe (i := ⟨which, .startViewer⟩) ha hc).void hc
  case stopViewer   => exact (stopViewer_safe (i := ⟨which, .stopViewer⟩) ha hc).any
  case viewerStatus => exact (viewerStatus_safe (i := ⟨which, .viewerStatus⟩) ha hc).void hc
  case deletePVC    => exact deletePVC_safe (i := ⟨which, .deletePVC⟩) ha hc
  case viewerProxy  => exact (viewerReverseProxy_safe (i := ⟨which, .viewerProxy⟩) ha hc).any

-- A cluster with only the viewer pod of a PVC.
def withViewer (s : Service) (ns pvc : Str) : Cluster :=
  Cluster.put (fun _ => ∅) (ns, viewerName pvc) (s.viewerDeployment ns pvc)

theorem withViewer_own {which : Bool} (hs : Startable s a ns pvcs which) :
    (withViewer s ns (pvcs which)).Everywhere (Own s a ns pvcs) := by
  have hn : Cluster.Everywhere (Own s a ns pvcs) fun _ => ∅ :=
    fun _ _ _ hl => by cases (Finmap.lookup_empty _).symm.trans hl
  refine hn.put ⟨rfl, fun _ which' hv => ?_, fun which' hk => ?_⟩
  case refine_1 =>
    have hp : pvcs which = pvcs which' := by simpa [Mounts, Service.viewerDeployment] using hv.right
    exact ⟨by rw [viewerKey, hp], by rwa [Startable, ← hp]⟩
  case refine_2 =>
    have hn : viewerName (pvcs which) = viewerName (pvcs which') := congrArg Prod.snd hk
    simpa [Routed, Service.viewerDeployment, ← hn] using viewerLabels_app _

-- The status of a PVC that has the name of another one's viewer is that of the viewer.
theorem viewerStatus_reaches_other {which : Bool} (d : Draw)
    (hn : viewerName (pvcs !which) = viewerName (pvcs which)) :
    ¬(pool s a ns pvcs).Allows (Isolated pvcs) [.start ⟨!which, .viewerStatus⟩, .act 0 d]
      ⟨withViewer s ns (pvcs which), []⟩ := by
  intro hall
  have hl : (withViewer s ns (pvcs which) .deployment).lookup (ns, viewerName (pvcs !which)) =
      some (s.viewerDeployment ns (pvcs which)) := by
    rw [hn]
    exact Cluster.lookup_put ..
  have hv : ViewerOf (pvcs !!which) (s.viewerDeployment ns (pvcs which)) := by
    refine ⟨rfl, ?_⟩
    simp [Mounts, Service.viewerDeployment]
  exact (hall.2.1 _ _ _ rfl).objects .deployment _ _ rfl hl hv

theorem viewers_isolated_iff :
    (∀ c : Cluster, c.Everywhere (Own s a ns pvcs) → ∀ ps,
      (pool s a ns pvcs).Allows (Isolated pvcs) ps ⟨c, []⟩) ↔
    Apart s a ns pvcs := by
  constructor
  case mp =>
    intro hall
    by_contra hn
    simp only [Apart, not_or, not_forall, not_not] at hn
    have ⟨ht, which, hs⟩ := hn
    have hk : viewerName (pvcs !which) = viewerName (pvcs which) := by
      rw [viewerName_inj]
      cases which
      case false => exact ht
      case true  => exact ht.symm
    exact viewerStatus_reaches_other ⟨Time.zero, [], none⟩ hk (hall _ (withViewer_own hs) _)
  case mpr =>
    intro ha c hc ps
    have hh : (contract s a ns pvcs).Holds .always ⟨c, []⟩ := ⟨hc, by simp⟩
    exact Pool.Throughout.mono (hh.run_guar (contract_keeps ha) (Pool.allows_always ps))
      fun _ _ hm => hm.mono fun _ _ _ _ hg => hg.left

-- Two PVCs whose names differ only after the fortieth character. The status of the second one is that
-- of the viewer that has just been started for the first.
section Collision

def standard : Service where
  opts    := ⟨[]⟩
  rfc3339 := fun _ => str "2024-01-01T00:00:00Z"

def modelPVC (which : Bool) : Str :=
  str "checkpoints-of-the-large-language-models" ++ if which then str "-blue" else str "-green"

-- The names and the label values that the API server lets in here are those of one label.
def labelsOnly : Admission where
  create _ o     :=
    IsDNS1123Label o.metadata.name &&
    ((o.metadata.labels.lookup (str "app")).all fun v => IsDNS1123Label v) &&
    (o.metadata.labels.lookup labelPVC).all fun v => IsDNS1123Label v
  update _ old o := old.key = o.key

def claim (ns name : Str) : PVC where
  metadata := { viewerMeta ns name with name, labels := ∅ }
  body     := ⟨[str "ReadWriteOnce"], ∅, none⟩

def withPVCs : Cluster :=
  Cluster.put (Cluster.put (fun _ => ∅) (str "default", modelPVC true)
    (claim (str "default") (modelPVC true))) (str "default", modelPVC false)
    (claim (str "default") (modelPVC false))

def mistaken : List (Pick Draw Request) :=
  .start ⟨true, .startViewer⟩ :: List.replicate 4 (.act 0 ⟨⟨1, 0⟩, [], none⟩) ++
  [.start ⟨false, .viewerStatus⟩, .act 1 ⟨⟨2, 0⟩, [], none⟩]

theorem long_names_not_isolated :
    ¬∀ pvcs : Bool → Str, pvcs true ≠ pvcs false → (∀ which, IsDNS1123Label (pvcs which)) → ∀ ps,
      (pool standard labelsOnly (str "default") pvcs).Allows (Isolated pvcs) ps
        ⟨withPVCs, []⟩ := by
  intro h
  have hs : (pool standard labelsOnly (str "default") modelPVC).Allows
      (fun i op _ c => Spares (ViewerOf (modelPVC !i.which)) op c) mistaken ⟨withPVCs, []⟩ :=
    Pool.Throughout.mono (h modelPVC (by decide) (by decide) mistaken)
      fun _ _ hm => hm.mono fun _ _ _ _ hi => hi.objects
  exact absurd hs (by decide)

end Collision
end AiStorage

import Knaic.AgentWorkspace.Service

open Go Effects

namespace Kube

-- What a request finds when every failure of another reason is one of `φ`.
abbrev Failing (φ : Error → Prop) :=
  { d : Draw // ∀ e, d.failure = some e → φ e }

def answerFailing (φ : Error → Prop) (op : ops.Op) (d : Failing φ) (c : Cluster) :
    ops.Res op × Cluster :=
  answer op d.val c

-- No object of the cluster has been changed, but for its resource version.
def Cluster.Unchanged (c c' : Cluster) : Prop :=
  ∀ k key, ((c' k).lookup key).map (·.replacing 0) = ((c k).lookup key).map (·.replacing 0)

-- The stored object after an update that `answer` lets through.
def Object.updated (o old : Object k) : Object k :=
  o.stamp old.metadata.creationTimestamp (old.metadata.resourceVersion + 1)

-- What holds of all failures holds of fewer.
theorem always_fewer {φ ψ : Error → Prop} {α : Type} {Q : α → Cluster → Prop} {p : Prog ops α}
    {c : Cluster} (h : Prog.Always (answerFailing φ) Q p c) (hf : ∀ e, ψ e → φ e) :
    Prog.Always (answerFailing ψ) Q p c := by
  induction p generalizing c
  case ret          => exact h
  case call op k hi =>
    intro d
    exact hi _ (h ⟨d.val, fun e he => hf e (d.property e he)⟩)

section Alone

variable {φ : Error → Prop} {c : Cluster} {k : Kind} {key : Key} {o old : Object k}
variable {Q : Except Error (Object k) → Cluster → Prop}

theorem get_found (hl : (c k).lookup key = some o) (ho : Q (.ok o) c) (hf : ∀ e, φ e → Q (.error e) c) :
    Prog.Always (answerFailing φ) Q (get k key) c := by
  rintro ⟨d, hd⟩
  cases he : d.failure
  case none   => simpa [answerFailing, answer, he, hl, Prog.Always] using ho
  case some e => simpa [answerFailing, answer, he, Prog.Always] using hf e (hd e he)

theorem get_missing (hl : (c k).lookup key = none) (ho : Q (.error errNotFound) c)
    (hf : ∀ e, φ e → Q (.error e) c) : Prog.Always (answerFailing φ) Q (get k key) c := by
  rintro ⟨d, hd⟩
  cases he : d.failure
  case none   => simpa [answerFailing, answer, he, hl, Prog.Always] using ho
  case some e => simpa [answerFailing, answer, he, Prog.Always] using hf e (hd e he)

theorem update_current (old : Object k) (hl : (c k).lookup o.key = some old)
    (hv : o.metadata.resourceVersion = old.metadata.resourceVersion)
    (ho : Q (.ok (o.updated old)) (c.put o.key (o.updated old))) (hf : ∀ e, φ e → Q (.error e) c) :
    Prog.Always (answerFailing φ) Q (update k o) c := by
  rintro ⟨d, hd⟩
  cases he : d.failure
  case none   => simpa [answerFailing, answer, he, hl, hv, Prog.Always, Object.updated] using ho
  case some e => simpa [answerFailing, answer, he, Prog.Always] using hf e (hd e he)

end Alone
end Kube

namespace AgentWorkspace

open Kube

-- The values for cpu and memory that a request asks for, in the order in which they are parsed.
def ResourceSpec.compute (spec : ResourceSpec) : List (String × Str) :=
  [
    ("cpuRequest", spec.cpuRequest),
    ("cpuLimit", spec.cpuLimit),
    ("memoryRequest", spec.memoryRequest),
    ("memoryLimit", spec.memoryLimit)
  ]

def ResourceSpec.fields (spec : ResourceSpec) : List (String × Str) :=
  spec.compute ++ [("storage", spec.storage)]

variable (s : Service)

-- The error of a value that does not parse, or of an object that is missing.
def Faulted (spec : ResourceSpec) (e : Error) : Prop :=
  errNotFound.is e ∨
  ∃ f ∈ spec.fields, ∃ cause, s.parseQuantity f.2 = .error cause ∧ e = .wrap f.1 cause

def Parses (value : Str) : Prop :=
  value = [] ∨ ∃ q, s.parseQuantity value = .ok q

-- The quantity that is asked for, if any, is the one that the list has.
def Has (list : Go.Map Quantity) (name value : Str) : Prop :=
  value = [] ∨ ∃ q, s.parseQuantity value = .ok q ∧ list.lookup name = some q

structure Kept (c : Container) (spec : ResourceSpec) : Prop where
  cpuRequest    : Has s c.requests (str "cpu") spec.cpuRequest
  cpuLimit      : Has s c.limits (str "cpu") spec.cpuLimit
  memoryRequest : Has s c.requests (str "memory") spec.memoryRequest
  memoryLimit   : Has s c.limits (str "memory") spec.memoryLimit

-- The storage that is asked for, if any, parses, and there is a claim to resize.
def StorageFits (ownerID : Str) (spec : ResourceSpec) (c : Cluster) : Prop :=
  spec.storage = [] ∨
  (∃ q, s.parseQuantity spec.storage = .ok q) ∧
    ((c .pvc).lookup (s.opts.ns, pvcName (workspaceName ownerID))).isSome

-- If the Deployment is written with other resources than before, nothing is wrong with the storage.
def WritesLast (ownerID : Str) (spec : ResourceSpec) (c : Cluster) : Prop :=
  ∀ deploy x xs, (c .deployment).lookup (s.opts.ns, workspaceName ownerID) = some deploy →
    deploy.body.containers = x :: xs → (∀ f ∈ spec.compute, Parses s f.2) →
    StorageFits s ownerID spec c ∨ Kept s x spec

section Quantities

variable {s} {list list' list'' : Go.Map Quantity} {name name' value value' : Str} {field field' : String}
variable {e : Error} {x y : Container} {spec : ResourceSpec}

theorem setQuantity_ok (h : s.setQuantity list name value field = .ok list') :
    value = [] ∧ list' = list ∨
    ∃ q, value ≠ [] ∧ s.parseQuantity value = .ok q ∧ list' = list.insert name q := by
  unfold Service.setQuantity at h
  split at h
  case isTrue hv  => exact .inl ⟨hv, (Except.ok.inj h).symm⟩
  case isFalse hv =>
    split at h
    case h_1      => cases h
    case h_2 q hq => exact .inr ⟨q, hv, hq, (Except.ok.inj h).symm⟩

theorem setQuantity_error (h : s.setQuantity list name value field = .error e) :
    ∃ cause, s.parseQuantity value = .error cause ∧ e = .wrap field cause := by
  unfold Service.setQuantity at h
  split at h
  case isTrue => cases h
  case isFalse =>
    split at h
    case h_1 cause hc => exact ⟨cause, hc, (Except.error.inj h).symm⟩
    case h_2          => cases h

theorem setQuantity_parses (list : Go.Map Quantity) (name : Str) (field : String)
    (h : Parses s value) :
    ∃ list', s.setQuantity list name value field = .ok list' := by
  obtain rfl | ⟨q, hq⟩ := h
  case inl => exact ⟨list, by simp [Service.setQuantity]⟩
  case inr =>
    by_cases hv : value = []
    case pos => exact ⟨list, by simp [Service.setQuantity, hv]⟩
    case neg => exact ⟨list.insert name q, by simp [Service.setQuantity, hv, hq]⟩

theorem insert_eq_self {name : Str} {q : Quantity} :
    list.insert name q = list ↔ list.lookup name = some q := by
  constructor
  case mp  => exact fun h => by rw [← h, Finmap.lookup_insert]
  case mpr =>
    intro h
    refine Finmap.ext_lookup fun k => ?_
    by_cases hk : k = name
    case pos => rw [hk, Finmap.lookup_insert, h]
    case neg => rw [Finmap.lookup_insert_of_ne _ hk]

theorem has_iff {q : Quantity} (hv : value ≠ []) (hq : s.parseQuantity value = .ok q) :
    Has s list name value ↔ list.lookup name = some q := by
  simp [Has, hv, hq]

-- Two quantities of one list are set, and the list is as before.
theorem setQuantity_twice (hn : name ≠ name') (h : s.setQuantity list name value field = .ok list')
    (h' : s.setQuantity list' name' value' field' = .ok list'') :
    list'' = list ↔ Has s list name value ∧ Has s list name' value' := by
  obtain ⟨hv, rfl⟩ | ⟨q, hv, hq, rfl⟩ := setQuantity_ok h
  case inl =>
    obtain ⟨hv', rfl⟩ | ⟨q', hv', hq', rfl⟩ := setQuantity_ok h'
    case inl => simp [Has, hv, hv']
    case inr => rw [has_iff hv' hq', insert_eq_self]; simp [Has, hv]
  case inr =>
    obtain ⟨hv', rfl⟩ | ⟨q', hv', hq', rfl⟩ := setQuantity_ok h'
    case inl => rw [has_iff hv hq, insert_eq_self]; simp [Has, hv']
    case inr =>
      rw [has_iff hv hq, has_iff hv' hq']
      constructor
      case mp  =>
        intro he
        constructor
        case left  => rw [← he, Finmap.lookup_insert_of_ne _ hn, Finmap.lookup_insert]
        case right => rw [← he, Finmap.lookup_insert]
      case mpr =>
        rintro ⟨hl, hl'⟩
        rw [insert_eq_self.mpr hl, insert_eq_self.mpr hl']

-- The four quantities that the container has afterwards.
theorem resized_ok (h : s.resized x spec = .ok y) :
    ∃ requests limits,
      s.setQuantity x.requests (str "cpu") spec.cpuRequest "cpuRequest" = .ok requests ∧
      s.setQuantity x.limits (str "cpu") spec.cpuLimit "cpuLimit" = .ok limits ∧
      s.setQuantity requests (str "memory") spec.memoryRequest "memoryRequest" = .ok y.requests ∧
      s.setQuantity limits (str "memory") spec.memoryLimit "memoryLimit" = .ok y.limits ∧
      y = { x with requests := y.requests, limits := y.limits } := by
  cases hr : s.setQuantity x.requests (str "cpu") spec.cpuRequest "cpuRequest"
  case error => simp [Service.resized, hr, Bind.bind, Except.bind] at h
  case ok requests =>
    cases hl : s.setQuantity x.limits (str "cpu") spec.cpuLimit "cpuLimit"
    case error => simp [Service.resized, hr, hl, Bind.bind, Except.bind] at h
    case ok limits =>
      cases hr' : s.setQuantity requests (str "memory") spec.memoryRequest "memoryRequest"
      case error => simp [Service.resized, hr, hl, hr', Bind.bind, Except.bind] at h
      case ok =>
        cases hl' : s.setQuantity limits (str "memory") spec.memoryLimit "memoryLimit"
        case error => simp [Service.resized, hr, hl, hr', hl', Bind.bind, Except.bind] at h
        case ok =>
          simp only [Service.resized, hr, hl, hr', hl', Bind.bind, Except.bind, pure, Except.pure,
            Except.ok.injEq] at h
          subst h
          exact ⟨requests, limits, rfl, rfl, hr', hl', rfl⟩

-- The container is written as it was exactly if it has all that is asked for.
theorem resized_eq_self (h : s.resized x spec = .ok y) : y = x ↔ Kept s x spec := by
  obtain ⟨requests, limits, hr, hl, hr', hl', hy⟩ := resized_ok h
  have hn : str "cpu" ≠ str "memory" := by decide
  have hrs := setQuantity_twice hn hr hr'
  have hls := setQuantity_twice hn hl hl'
  constructor
  case mp =>
    rintro rfl
    obtain ⟨hrc, hrm⟩ := hrs.mp rfl
    obtain ⟨hlc, hlm⟩ := hls.mp rfl
    exact ⟨hrc, hlc, hrm, hlm⟩
  case mpr =>
    intro hk
    rw [hy, hrs.mpr ⟨hk.cpuRequest, hk.memoryRequest⟩, hls.mpr ⟨hk.cpuLimit, hk.memoryLimit⟩]

theorem refused {f : String × Str} (hf : f ∈ spec.compute)
    (h : s.setQuantity list name f.2 f.1 = .error e) :
    Faulted s spec e ∧ ¬∀ f ∈ spec.compute, Parses s f.2 := by
  obtain ⟨cause, hc, he⟩ := setQuantity_error h
  constructor
  case left  => exact .inr ⟨f, List.mem_append_left _ hf, cause, hc, he⟩
  case right =>
    intro hp
    obtain ⟨list', h'⟩ := setQuantity_parses list name f.1 (hp f hf)
    cases h.symm.trans h'

theorem resized_error (h : s.resized x spec = .error e) :
    Faulted s spec e ∧ ¬∀ f ∈ spec.compute, Parses s f.2 := by
  cases hr : s.setQuantity x.requests (str "cpu") spec.cpuRequest "cpuRequest"
  case error =>
    simp only [Service.resized, hr, Bind.bind, Except.bind, Except.error.injEq] at h
    exact refused (f := ("cpuRequest", spec.cpuRequest)) (by simp [ResourceSpec.compute]) (h ▸ hr)
  case ok requests =>
    cases hl : s.setQuantity x.limits (str "cpu") spec.cpuLimit "cpuLimit"
    case error =>
      simp only [Service.resized, hr, hl, Bind.bind, Except.bind, Except.error.injEq] at h
      exact refused (f := ("cpuLimit", spec.cpuLimit)) (by simp [ResourceSpec.compute]) (h ▸ hl)
    case ok limits =>
      cases hr' : s.setQuantity requests (str "memory") spec.memoryRequest "memoryRequest"
      case error =>
        simp only [Service.resized, hr, hl, hr', Bind.bind, Except.bind, Except.error.injEq] at h
        exact refused (f := ("memoryRequest", spec.memoryRequest)) (by simp [ResourceSpec.compute])
          (h ▸ hr')
      case ok =>
        cases hl' : s.setQuantity limits (str "memory") spec.memoryLimit "memoryLimit"
        case error =>
          simp only [Service.resized, hr, hl, hr', hl', Bind.bind, Except.bind,
            Except.error.injEq] at h
          exact refused (f := ("memoryLimit", spec.memoryLimit)) (by simp [ResourceSpec.compute])
            (h ▸ hl')
        case ok =>
          simp [Service.resized, hr, hl, hr', hl', Bind.bind, Except.bind, pure, Except.pure] at h

theorem setQuantity_parsed (h : s.setQuantity list name value field = .ok list') : Parses s value := by
  obtain ⟨hv, -⟩ | ⟨q, -, hq, -⟩ := setQuantity_ok h
  case inl => exact .inl hv
  case inr => exact .inr ⟨q, hq⟩

theorem resized_parses (h : s.resized x spec = .ok y) : ∀ f ∈ spec.compute, Parses s f.2 := by
  obtain ⟨requests, limits, hr, hl, hr', hl', -⟩ := resized_ok h
  simp only [ResourceSpec.compute, List.forall_mem_cons]
  exact ⟨setQuantity_parsed hr, setQuantity_parsed hl, setQuantity_parsed hr', setQuantity_parsed hl',
    fun _ hm => by cases hm⟩

end Quantities

section Runs

variable {s} {ownerID : Str} {spec : ResourceSpec} {c : Cluster} {φ : Error → Prop}
variable {deploy : Deployment} {x y : Container} {xs : List Container}

-- The Deployment with its first container changed.
def withContainer (deploy : Deployment) (y : Container) (xs : List Container) : Deployment :=
  { deploy with body := { deploy.body with containers := y :: xs } }

-- The cluster after the Deployment has been written.
def written (c : Cluster) (deploy : Deployment) (y : Container) (xs : List Container) : Cluster :=
  c.put deploy.key ((withContainer deploy y xs).updated deploy)

-- The error of a request that failed for another reason.
def Other (φ : Error → Prop) (e : Error) : Prop :=
  φ e ∨
  ∃ context ∈ ["get deployment", "update deployment", "get pvc", "update pvc"], ∃ cause,
    φ cause ∧ e = .wrap context cause

theorem Other.not_faulted {e : Error} (h : Other (fun e => ¬Faulted s spec e) e) :
    ¬Faulted s spec e := by
  obtain h | ⟨context, hm, cause, hc, rfl⟩ := h
  case inl => exact h
  case inr =>
    rintro (hn | ⟨f, hf, _, -, he⟩)
    case inl => exact hc (.inl (by simpa [Error.is, errNotFound] using hn))
    case inr =>
      have hne : ∀ context ∈ ["get deployment", "update deployment", "get pvc", "update pvc"],
          context ∉ ["cpuRequest", "cpuLimit", "memoryRequest", "memoryLimit", "storage"] := by decide
      refine hne context hm ?_
      injection he with he
      rw [he]
      simp only [ResourceSpec.fields, ResourceSpec.compute, List.cons_append, List.nil_append,
        List.mem_cons, List.not_mem_nil, or_false] at hf
      obtain rfl | rfl | rfl | rfl | rfl := hf <;> simp

theorem get_answers (hl : (c .deployment).lookup (s.opts.ns, workspaceName ownerID) = some deploy) :
    Prog.Always (answerFailing φ) (fun r _ => ∀ e, r = .error e → Other φ e) (s.get ownerID) c := by
  refine Call.always_seq.mpr (get_found hl ?_ fun e he e' h => ?_)
  case refine_1 =>
    intro d e h
    cases h
  case refine_2 =>
    cases h
    exact .inl he

theorem resizePVC_fits (hc : c.Filed) (hs : StorageFits s ownerID spec c) :
    Prog.Always (answerFailing φ)
      (fun r c' => (∀ e, r = .error e → Other φ e) ∧ c' .deployment = c .deployment)
      (s.resizePVC (workspaceName ownerID) spec.storage) c := by
  unfold Service.resizePVC
  split
  case isTrue =>
    constructor
    case left  => exact fun e he => by cases he
    case right => rfl
  case isFalse hne =>
    obtain ⟨⟨q, hq⟩, hp⟩ := hs.resolve_left hne
    obtain ⟨pvc, hl⟩ := Option.isSome_iff_exists.mp hp
    simp only [hq]
    refine Call.always_seq.mpr (Call.always_mapError.mpr (get_found hl ?_ fun e he => ?_))
    case refine_1 =>
      refine Call.always_seq.mpr (Call.always_mapError.mpr (update_current pvc ?_ rfl ?_ ?_))
      case refine_1 => exact hc.found hl
      case refine_2 =>
        constructor
        case left  => exact fun e he => by cases he
        case right => exact Function.update_of_ne (by decide : Kind.deployment ≠ .pvc) _ _
      case refine_3 =>
        refine fun e he => ⟨fun e' h => ?_, rfl⟩
        cases h
        exact .inr ⟨_, by simp, e, he, rfl⟩
    case refine_2 =>
      refine ⟨fun e' h => ?_, rfl⟩
      cases h
      exact .inr ⟨_, by simp, e, he, rfl⟩

theorem resizePVC_unfit (hs : ¬StorageFits s ownerID spec c) :
    Prog.Always (answerFailing φ)
      (fun r c' => ∃ e, r = .error e ∧ (Other φ e ∨ Faulted s spec e ∧ c' = c))
      (s.resizePVC (workspaceName ownerID) spec.storage) c := by
  have hne : spec.storage ≠ [] := fun h => hs (.inl h)
  simp only [Service.resizePVC, hne, if_false]
  cases hq : s.parseQuantity spec.storage
  case error cause =>
    refine ⟨_, rfl, .inr ⟨.inr ⟨("storage", spec.storage), ?_, cause, hq, rfl⟩, rfl⟩⟩
    simp [ResourceSpec.fields]
  case ok q =>
    have hl : (c .pvc).lookup (s.opts.ns, pvcName (workspaceName ownerID)) = none := by
      rw [← Option.not_isSome_iff_eq_none]
      exact fun hp => hs (.inr ⟨⟨q, hq⟩, hp⟩)
    refine Call.always_seq.mpr (Call.always_mapError.mpr (get_missing hl ?_ fun e he => ?_))
    case refine_1 => exact ⟨_, rfl, .inr ⟨.inl (by decide), rfl⟩⟩
    case refine_2 => exact ⟨_, rfl, .inl (.inr ⟨_, by simp, e, he, rfl⟩)⟩

-- The Deployment cannot be written.
theorem updateResources_early
    (h : ∀ deploy x xs y, (c .deployment).lookup (s.opts.ns, workspaceName ownerID) = some deploy →
      deploy.body.containers = x :: xs → s.resized x spec ≠ .ok y) :
    Prog.Always (answerFailing φ) (fun _ c' => c' = c) (s.updateResources ownerID spec) c := by
  unfold Service.updateResources
  cases hl : (c .deployment).lookup (s.opts.ns, workspaceName ownerID)
  case none =>
    exact Call.always_seq.mpr (Call.always_mapError.mpr (get_missing hl rfl fun _ _ => rfl))
  case some deploy =>
    refine Call.always_seq.mpr (Call.always_mapError.mpr (get_found hl ?_ fun _ _ => rfl))
    simp only [Except.mapError, Call.next]
    cases hx : deploy.body.containers
    case nil       => rfl
    case cons x xs =>
      simp only
      cases hr : s.resized x spec
      case error => rfl
      case ok y  => exact absurd hr (h deploy x xs y hl hx)

section Written

variable (hc : c.Filed)
variable (hl : (c .deployment).lookup (s.opts.ns, workspaceName ownerID) = some deploy)
variable (hx : deploy.body.containers = x :: xs) (hr : s.resized x spec = .ok y)
include hc

theorem written_filed : (written c deploy y xs).Filed :=
  hc.put rfl

include hl

theorem written_deployment :
    (written c deploy y xs .deployment).lookup (s.opts.ns, workspaceName ownerID) =
    some ((withContainer deploy y xs).updated deploy) := by
  rw [← hc _ _ _ hl]
  exact Cluster.lookup_put c _ _

include hx hr

-- The Deployment is written, and the call goes on from there.
theorem updateResources_writes {Q : Except Error Workspace → Cluster → Prop}
    (hq : Prog.Always (answerFailing φ) Q
      (do s.resizePVC (workspaceName ownerID) spec.storage
          s.get ownerID : Kube.Call Workspace) (written c deploy y xs))
    (hf : ∀ e c', Other φ e → Q (.error e) c') :
    Prog.Always (answerFailing φ) Q (s.updateResources ownerID spec) c := by
  unfold Service.updateResources
  refine Call.always_seq.mpr (Call.always_mapError.mpr (get_found hl ?_ fun e he => ?_))
  case refine_1 =>
    simp only [Except.mapError, Call.next, hx, hr]
    refine Call.always_seq.mpr (Call.always_mapError.mpr
      (update_current deploy ?_ rfl hq fun e he => ?_))
    case refine_1 => exact hc.found hl
    case refine_2 => exact hf _ _ (.inr ⟨_, by simp, e, he, rfl⟩)
  case refine_2 => exact hf _ _ (.inr ⟨_, by simp, e, he, rfl⟩)

-- What is written is the object that was there exactly if the container is.
theorem unchanged_written : c.Unchanged (written c deploy y xs) ↔ Kept s x spec := by
  rw [← resized_eq_self hr]
  constructor
  case mp =>
    intro h
    have he := h .deployment (s.opts.ns, workspaceName ownerID)
    rw [written_deployment hc hl, hl] at he
    have hb := congrArg (fun o : Deployment => o.body.containers) (Option.some.inj he)
    exact List.head_eq_of_cons_eq (hb.trans hx)
  case mpr =>
    rintro rfl k key
    have hw : withContainer deploy y xs = deploy := by rw [withContainer, ← hx]
    rw [written, hw]
    by_cases hk : k = .deployment
    case neg => rw [Cluster.put, Function.update_of_ne hk]
    case pos =>
      subst hk
      rw [Cluster.put, Function.update_self]
      by_cases he : key = deploy.key
      case neg => rw [Finmap.lookup_insert_of_ne _ he]
      case pos => rw [he, Finmap.lookup_insert, hc.found hl]; rfl

theorem updateResources_fits (hs : StorageFits s ownerID spec c) :
    Prog.Always (answerFailing φ) (fun r _ => ∀ e, r = .error e → Other φ e)
      (s.updateResources ownerID spec) c := by
  refine updateResources_writes hc hl hx hr ?_ fun e _ he e' h => ?_
  case refine_1 =>
    have hs' : StorageFits s ownerID spec (written c deploy y xs) := by
      rwa [StorageFits, written, Cluster.put, Function.update_of_ne (by decide : Kind.pvc ≠ .deployment)]
    refine Call.always_seq.mpr ((resizePVC_fits (written_filed hc) hs').mono fun r c' he => ?_)
    cases r
    case error e =>
      intro e' h
      cases h
      exact he.left e rfl
    case ok      => exact get_answers (he.right ▸ written_deployment hc hl)
  case refine_2 => exact (Except.error.inj h) ▸ he

theorem updateResources_late (hs : ¬StorageFits s ownerID spec c) :
    Prog.Always (answerFailing φ)
      (fun r c' => ∃ e, r = .error e ∧ (Other φ e ∨ Faulted s spec e ∧ c' = written c deploy y xs))
      (s.updateResources ownerID spec) c := by
  refine updateResources_writes hc hl hx hr ?_ fun e _ he => ⟨e, rfl, .inl he⟩
  have hs' : ¬StorageFits s ownerID spec (written c deploy y xs) := by
    rwa [StorageFits, written, Cluster.put, Function.update_of_ne (by decide : Kind.pvc ≠ .deployment)]
  refine Call.always_seq.mpr ((resizePVC_unfit hs').mono fun r c' he => ?_)
  obtain ⟨e, rfl, he⟩ := he
  exact ⟨e, rfl, he⟩

-- If no other failure comes in between, the call fails with the Deployment written.
theorem updateResources_breaks (hs : ¬StorageFits s ownerID spec c)
    (hk : ¬Kept s x spec) (h : Prog.Always (answerFailing φ)
      (fun r c' => ∀ e, r = .error e → Faulted s spec e → c.Unchanged c')
      (s.updateResources ownerID spec) c) : False := by
  have hq := always_fewer h (ψ := fun _ => False) fun _ hf => hf.elim
  have hw := updateResources_late (φ := fun _ => False) hc hl hx hr hs
  have quiet : Nat → Failing fun _ => False := fun _ => ⟨⟨Time.zero, [], none⟩, fun _ hf => by cases hf⟩
  obtain ⟨e, he, ho | ⟨hf, hw⟩⟩ := hw.play quiet
  case inl => obtain ho | ⟨_, _, _, ho, _⟩ := ho <;> exact ho
  case inr =>
    have hu := hq.play quiet e he hf
    rw [hw] at hu
    exact hk ((unchanged_written hc hl hx hr).mp hu)

end Written

variable (s ownerID spec)

theorem updateResources_atomic_iff (hc : c.Filed) :
    Prog.Always (answerFailing fun e => ¬Faulted s spec e)
      (fun r c' => ∀ e, r = .error e → Faulted s spec e → c.Unchanged c')
      (s.updateResources ownerID spec) c ↔
    WritesLast s ownerID spec c := by
  constructor
  case mp =>
    intro h deploy x xs hl hx hp
    by_contra hn
    push Not at hn
    cases hr : s.resized x spec
    case error e => exact (resized_error hr).right hp
    case ok y    => exact updateResources_breaks hc hl hx hr hn.left hn.right h
  case mpr =>
    intro h
    by_cases hw : ∃ deploy x xs y, (c .deployment).lookup (s.opts.ns, workspaceName ownerID) = some deploy ∧
        deploy.body.containers = x :: xs ∧ s.resized x spec = .ok y
    case neg =>
      push Not at hw
      refine (updateResources_early hw).mono fun r c' hc' e _ _ => ?_
      rw [hc']
      exact fun _ _ => rfl
    case pos =>
      obtain ⟨deploy, x, xs, y, hl, hx, hr⟩ := hw
      by_cases hs : StorageFits s ownerID spec c
      case pos =>
        refine (updateResources_fits hc hl hx hr hs).mono fun r c' he e hr' hf => ?_
        exact absurd hf (he e hr').not_faulted
      case neg =>
        have hk := (h deploy x xs hl hx (resized_parses hr)).resolve_left hs
        refine (updateResources_late hc hl hx hr hs).mono fun r c' he e hr' hf => ?_
        obtain ⟨e', hr'', ho | ⟨-, rfl⟩⟩ := he
        case inl =>
          cases hr'.symm.trans hr''
          exact absurd hf ho.not_faulted
        case inr => exact (unchanged_written hc hl hx hr).mpr hk

end Runs

-- A parser that knows only decimal digits, and a workspace without requests and limits.

def digits (value : Str) : Except Error Quantity :=
  if value ≠ [] && value.all fun b => 48 ≤ b && b ≤ 57 then .ok ⟨value⟩ else .error (.foreign value)

def byDigits : Service where
  parseQuantity := digits
  opts          := {
    ns               := str "knaic-system"
    image            := str "codex-web"
    storage          := str "40"
    cpuRequest       := str "1"
    cpuLimit         := str "2"
    memoryRequest    := str "1024"
    memoryLimit      := str "4096"
    imagePullSecrets := []
    storageClass     := []
  }

def oneDeployment : Cluster :=
  Cluster.put (fun _ => ∅) (str "knaic-system", workspaceName (str "ada"))
    (byDigits.deployment (str "ada") ∅ ∅)

theorem oneDeployment_filed : oneDeployment.Filed :=
  Cluster.Everywhere.put (fun _ _ _ hl => by cases hl) rfl

theorem oneDeployment_found :
    (oneDeployment .deployment).lookup (byDigits.opts.ns, workspaceName (str "ada")) =
    some (byDigits.deployment (str "ada") ∅ ∅) :=
  Cluster.lookup_put _ _ _

theorem updateResources_cpuOnly :
    Prog.Always (answerFailing fun e => ¬Faulted byDigits ⟨str "4", [], [], [], []⟩ e)
      (fun r c' => ∀ e, r = .error e → Faulted byDigits ⟨str "4", [], [], [], []⟩ e →
        oneDeployment.Unchanged c')
      (byDigits.updateResources (str "ada") ⟨str "4", [], [], [], []⟩) oneDeployment :=
  (updateResources_atomic_iff _ _ _ oneDeployment_filed).mpr fun _ _ _ _ _ _ => .inl (.inl rfl)

theorem updateResources_badStorage :
    ¬∀ (s : Service) (ownerID : Str) (spec : ResourceSpec) (c : Cluster), c.Filed →
      Prog.Always (answerFailing fun e => ¬Faulted s spec e)
        (fun r c' => ∀ e, r = .error e → Faulted s spec e → c.Unchanged c')
        (s.updateResources ownerID spec) c := by
  intro h
  refine updateResources_breaks oneDeployment_filed oneDeployment_found rfl rfl ?_ ?_
    (h byDigits (str "ada") ⟨str "4", [], [], [], str "20Gb"⟩ _ oneDeployment_filed)
  case refine_1 =>
    rintro (he | ⟨⟨q, hq⟩, -⟩)
    case inl => cases he
    case inr => cases hq
  case refine_2 =>
    intro hk
    obtain he | ⟨q, -, hl⟩ := hk.cpuRequest
    case inl => cases he
    case inr => cases hl

end AgentWorkspace

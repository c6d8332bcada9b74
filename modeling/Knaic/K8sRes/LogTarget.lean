import Knaic.Go.Dict
import Knaic.Go.Loops
import Knaic.Kube.Api

open Go Kube

-- Which pods belong to an inference service, and which of them its logs are read from.
namespace K8sRes

structure PodCondition where
  type   : Str
  status : Str

structure Pod where
  name           : Str
  labels         : Dict Str
  owners         : List Str
  phase          : Str
  conditions     : List PodCondition
  containers     : List Str
  initContainers : List Str
  created        : Time

-- The pods of a namespace, which have different names.
structure PodList where
  items : List Pod
  names : (items.map Pod.name).Nodup

structure InferenceLogTarget where
  ns         : Str
  podName    : Str
  containers : List Str
deriving DecidableEq

-- The time is written out when it is sent.
structure InferencePodInfo where
  name           : Str
  phase          : Str
  ready          : Bool
  containers     : List Str
  initContainers : List Str
  createdAt      : Time

structure Candidate where
  pod   : Pod
  score : Nat

-- A label that is missing is the empty text.
def Pod.label (pod : Pod) (k : String) : Str :=
  (pod.labels.get (str k)).getD []

def podReady (pod : Pod) : Bool :=
  pod.conditions.any fun c => c.type = str "Ready" && c.status = str "True"

def podRunning (pod : Pod) : Bool :=
  pod.phase = str "Running"

def podContainerNames (pod : Pod) : List Str :=
  pod.containers.filter (· ≠ [])

def podInitContainerNames (pod : Pod) : List Str :=
  pod.initContainers.filter (· ≠ [])

def bump (v : Nat) (on : Bool) (score : Nat) : Nat :=
  if on then max score v else score

-- The name of the service, or one that is made from it.
def namedAfter (s name : Str) : Bool :=
  s = name || s.hasPrefix (name ++ str "-")

def matchScore (pod : Pod) (name kind : Str) : Nat :=
  let has (k : String) : Bool := pod.label k = name
  let llm := kind = str "LLMInferenceService"
  let isvc := kind = str "InferenceService" || kind = []
  let score := bump 120 (llm && has "serving.kserve.io/llminferenceservice") 0
  let score := bump 115 (llm && has "kserve.io/llminferenceservice") score
  let score := bump 120 (isvc && has "serving.kserve.io/inferenceservice") score
  let score := bump 115 (isvc && has "kserve.io/inferenceservice") score
  let score := bump 100 (has "serving.kserve.io/inferenceservice" || has "serving.kserve.io/llminferenceservice") score
  let score := bump 80 (has "app.kubernetes.io/instance" || has "app.kubernetes.io/name") score
  let score := bump 70 (has "app") score
  let score := pod.owners.foldl (fun score owner => bump 55 (namedAfter owner name) score) score
  bump 45 (namedAfter pod.name name) score

def inferencePodScore (pod : Pod) (name kind : Str) : Nat :=
  let score := matchScore pod name kind
  if score = 0 then 0
  else
    let predictor := pod.label "serving.kserve.io/component" = str "predictor" || pod.label "component" = str "predictor"
    let score := if predictor then score + 10 else score
    let score := if podRunning pod then score + 20 else score
    if podReady pod then score + 30 else score

def candidates (pods : List Pod) (name kind : Str) : List Candidate :=
  pods.filterMap fun pod =>
    let score := inferencePodScore pod name kind
    if score ≤ 0 then none else some ⟨pod, score⟩

def targetLess (a b : Candidate) : Bool :=
  if a.score ≠ b.score then b.score < a.score
  else if podReady a.pod ≠ podReady b.pod then podReady a.pod
  else if podRunning a.pod ≠ podRunning b.pod then podRunning a.pod
  else if a.pod.created ≠ b.pod.created then b.pod.created.before a.pod.created
  else a.pod.name < b.pod.name

def resolveInferenceLogTarget (typed : Bool) (list : Str → Except Error (List Pod)) (ns name kind : Str) :
    Except Error InferenceLogTarget :=
  if !typed then .error (.new "typed Kubernetes client not initialized")
  else
    match list ns with
    | .error err => .error err
    | .ok items  =>
      match (candidates items name kind).insertionSort fun a b => !targetLess b a with
      | []     => .error errNotFound
      | c :: _ => .ok ⟨ns, c.pod.name, podContainerNames c.pod⟩

-- The same order, but for the phase of a pod.
def podLess (a b : Candidate) : Bool :=
  if a.score ≠ b.score then b.score < a.score
  else if podReady a.pod ≠ podReady b.pod then podReady a.pod
  else if a.pod.created ≠ b.pod.created then b.pod.created.before a.pod.created
  else a.pod.name < b.pod.name

def podInfo (pod : Pod) : InferencePodInfo where
  name           := pod.name
  phase          := pod.phase
  ready          := podReady pod
  containers     := podContainerNames pod
  initContainers := podInitContainerNames pod
  createdAt      := pod.created

def listInferencePods (typed : Bool) (list : Str → Except Error (List Pod)) (ns name kind : Str) :
    Except Error (List InferencePodInfo) :=
  if !typed then .error (.new "typed Kubernetes client not initialized")
  else
    match list ns with
    | .error err => .error err
    | .ok items  =>
      .ok (((candidates items name kind).insertionSort fun a b => !podLess b a).map fun c => podInfo c.pod)

-- The ranks by which the two orders go.
section Ranks

def scoreRank (c : Candidate) : Natᵒᵈ ×ₗ Boolᵒᵈ :=
  toLex (OrderDual.toDual c.score, OrderDual.toDual (podReady c.pod))

def ageRank (c : Candidate) : (Int ×ₗ Nat)ᵒᵈ ×ₗ Str :=
  c.pod.created.newest c.pod.name

def phaseRank : Candidate → Boolᵒᵈ ×ₗ ((Int ×ₗ Nat)ᵒᵈ ×ₗ Str) :=
  flagged (fun c => podRunning c.pod) ageRank

variable {a b c : Candidate}

theorem podLess_iff : podLess a b ↔ refined scoreRank ageRank a < refined scoreRank ageRank b := by
  have hn := Time.newest_iff (t := a.pod.created) (u := b.pod.created) (x := a.pod.name) (y := b.pod.name)
  simp only [podLess, refined, scoreRank, ageRank, Prod.Lex.toLex_lt_toLex, OrderDual.toDual_lt_toDual,
    EmbeddingLike.apply_eq_iff_eq, Prod.mk.injEq, ← hn]
  by_cases hs : a.score = b.score
  case neg => simp [hs]
  case pos => cases podReady a.pod <;> cases podReady b.pod <;> simp [hs]

theorem targetLess_iff : targetLess a b ↔ refined scoreRank phaseRank a < refined scoreRank phaseRank b := by
  have hn := Time.newest_iff (t := a.pod.created) (u := b.pod.created) (x := a.pod.name) (y := b.pod.name)
  simp only [targetLess, refined, scoreRank, phaseRank, flagged, ageRank, Prod.Lex.toLex_lt_toLex,
    OrderDual.toDual_lt_toDual, EmbeddingLike.apply_eq_iff_eq, Prod.mk.injEq, ← hn]
  by_cases hs : a.score = b.score
  case neg => simp [hs]
  case pos =>
    cases podReady a.pod <;> cases podReady b.pod <;> cases podRunning a.pod <;> cases podRunning b.pod <;>
      simp [hs]

end Ranks
section Choice

variable {pods : PodList} {name kind ns : Str} {a b c : Candidate} {p q : Pod}

theorem mem_candidates {pods : List Pod} :
    c ∈ candidates pods name kind ↔
      c.pod ∈ pods ∧ c.score = inferencePodScore c.pod name kind ∧ 0 < inferencePodScore c.pod name kind := by
  simp only [candidates, List.mem_filterMap]
  constructor
  case mp =>
    rintro ⟨p, hp, he⟩
    split at he
    case isTrue  => cases he
    case isFalse hs =>
      cases he
      exact ⟨hp, rfl, Nat.pos_of_ne_zero fun h => hs h.le⟩
  case mpr =>
    rintro ⟨hp, hs, hpos⟩
    refine ⟨c.pod, hp, ?_⟩
    rw [if_neg (Nat.not_le_of_gt hpos), ← hs]

-- A namespace has one pod of a name.
theorem PodList.eq_of_name (hp : p ∈ pods.items) (hq : q ∈ pods.items) (h : p.name = q.name) : p = q :=
  List.inj_on_of_nodup_map pods.names hp hq h

theorem candidate_eq (ha : a ∈ candidates pods.items name kind) (hb : b ∈ candidates pods.items name kind)
    (h : a.pod.name = b.pod.name) : a = b := by
  obtain ⟨hpa, hsa, -⟩ := mem_candidates.mp ha
  obtain ⟨hpb, hsb, -⟩ := mem_candidates.mp hb
  have hp := pods.eq_of_name hpa hpb h
  cases a
  cases b
  simp_all

theorem ageRank_inj : ∀ a ∈ candidates pods.items name kind, ∀ b ∈ candidates pods.items name kind,
    ageRank a = ageRank b → a = b :=
  fun _ ha _ hb h => candidate_eq ha hb (Prod.mk.inj (toLex.injective h)).right

theorem phaseRank_inj : ∀ a ∈ candidates pods.items name kind, ∀ b ∈ candidates pods.items name kind,
    phaseRank a = phaseRank b → a = b :=
  fun a ha b hb h => ageRank_inj a ha b hb (Prod.mk.inj (toLex.injective h)).right

theorem refined_inj {ν : Type} {n : Candidate → ν} (h : refined scoreRank n a = refined scoreRank n b) : n a = n b :=
  (Prod.mk.inj (toLex.injective h)).right

-- The pod whose logs are read is the one with the least rank.
theorem resolve_ok_iff {t : InferenceLogTarget} :
    resolveInferenceLogTarget true (fun _ => .ok pods.items) ns name kind = .ok t ↔
      ∃ c, Least (refined scoreRank phaseRank) (candidates pods.items name kind) c ∧
        t = ⟨ns, c.pod.name, podContainerNames c.pod⟩ := by
  have hh : ∀ c, ((candidates pods.items name kind).insertionSort fun a b => !targetLess b a).head? = some c ↔
      Least (refined scoreRank phaseRank) (candidates pods.items name kind) c :=
    fun _ => head_sort_iff (fun _ _ => targetLess_iff) fun a ha b hb h => phaseRank_inj a ha b hb (refined_inj h)
  simp only [← hh]
  simp only [resolveInferenceLogTarget, Bool.not_true]
  cases (candidates pods.items name kind).insertionSort fun a b => !targetLess b a
  case nil      => simp
  case cons c l => simp [eq_comm]

theorem resolve_error_iff {err : Error} :
    resolveInferenceLogTarget true (fun _ => .ok pods.items) ns name kind = .error err ↔
      candidates pods.items name kind = [] ∧ err = errNotFound := by
  have hp := List.perm_insertionSort (fun a b => (!targetLess b a) = true) (candidates pods.items name kind)
  simp only [resolveInferenceLogTarget, Bool.not_true]
  cases hs : (candidates pods.items name kind).insertionSort fun a b => !targetLess b a
  case nil      =>
    rw [hs] at hp
    simp [hp.symm.eq_nil, eq_comm]
  case cons c l =>
    have hn : candidates pods.items name kind ≠ [] := by
      intro he
      rw [hs, he] at hp
      exact absurd hp.eq_nil (by simp)
    simp [hn]

theorem list_eq (pods : PodList) (ns name kind : Str) :
    listInferencePods true (fun _ => .ok pods.items) ns name kind =
      .ok (((candidates pods.items name kind).insertionSort fun a b => !podLess b a).map fun c => podInfo c.pod) := rfl

-- The first pod of the list is the one with the least rank of the other order.
theorem list_head_iff {i : InferencePodInfo} :
    (∃ l, listInferencePods true (fun _ => .ok pods.items) ns name kind = .ok (i :: l)) ↔
      ∃ c, Least (refined scoreRank ageRank) (candidates pods.items name kind) c ∧ i = podInfo c.pod := by
  have hh : ∀ c, ((candidates pods.items name kind).insertionSort fun a b => !podLess b a).head? = some c ↔
      Least (refined scoreRank ageRank) (candidates pods.items name kind) c :=
    fun _ => head_sort_iff (fun _ _ => podLess_iff) fun a ha b hb h => ageRank_inj a ha b hb (refined_inj h)
  simp only [← hh, list_eq]
  cases (candidates pods.items name kind).insertionSort fun a b => !podLess b a
  case nil      => simp
  case cons c l => simp [eq_comm]

theorem list_nil_iff :
    listInferencePods true (fun _ => .ok pods.items) ns name kind = .ok [] ↔ candidates pods.items name kind = [] := by
  have hp := List.perm_insertionSort (fun a b => (!podLess b a) = true) (candidates pods.items name kind)
  rw [list_eq, Except.ok.injEq, List.map_eq_nil_iff, ← List.length_eq_zero_iff, hp.length_eq, List.length_eq_zero_iff]

end Choice
end K8sRes

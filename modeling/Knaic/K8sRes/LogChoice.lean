import Knaic.K8sRes.LogTarget

open Go Kube

namespace K8sRes

-- The labels that name the service of a pod, of either kind.
def serviceLabels : List String :=
  ["serving.kserve.io/inferenceservice", "serving.kserve.io/llminferenceservice", "kserve.io/inferenceservice",
    "kserve.io/llminferenceservice"]

def standardLabel? (kind : Str) : Option String :=
  if kind = str "LLMInferenceService" then some "serving.kserve.io/llminferenceservice"
  else if kind = str "InferenceService" ∨ kind = [] then some "serving.kserve.io/inferenceservice"
  else none

namespace Pod

def ForAnother (pod : Pod) (name : Str) : Prop :=
  ∃ k ∈ serviceLabels, ∃ v, pod.labels.get (str k) = some v ∧ v ≠ name

def Standard (pod : Pod) (name kind : Str) : Prop :=
  ∃ k, standardLabel? kind = some k ∧ pod.labels.get (str k) = some name

end Pod

-- A pod that is not to be chosen: that of another service, or one without the label if there is one with it.
def Wrong (pods : PodList) (name kind : Str) (pod : Pod) : Prop :=
  pod.ForAnother name ∨ (∃ p ∈ pods.items, p.Standard name kind) ∧ ¬pod.Standard name kind

section Scores

variable {pod : Pod} {name kind : Str} {v s : Nat} {on : Bool}

theorem le_bump (v : Nat) (on : Bool) (s : Nat) : s ≤ bump v on s := by
  unfold bump
  split
  case isTrue  => exact le_max_left ..
  case isFalse => exact le_rfl

theorem bump_le (h : on = true) : v ≤ bump v on s := by
  simp [bump, h]

theorem le_bumps (owners : List Str) (on : Str → Bool) (s : Nat) :
    s ≤ owners.foldl (fun s o => bump v (on o) s) s := by
  induction owners generalizing s
  case nil           => exact le_rfl
  case cons o os hi => exact (le_bump v (on o) s).trans (hi _)

theorem Pod.Standard.label (h : pod.Standard name kind) : ∃ k, standardLabel? kind = some k ∧ pod.label k = name := by
  obtain ⟨k, hk, hl⟩ := h
  exact ⟨k, hk, by simp [Pod.label, hl]⟩

-- Whoever has the label of the kind gets the most of all for it.
theorem Pod.Standard.score (h : pod.Standard name kind) : 0 < inferencePodScore pod name kind := by
  have hm : 120 ≤ matchScore pod name kind := by
    obtain ⟨k, hk, hl⟩ := h.label
    simp only [matchScore]
    refine le_trans ?_ (le_bump ..)
    refine le_trans ?_ (le_bumps ..)
    refine le_trans ?_ (le_bump ..)
    refine le_trans ?_ (le_bump ..)
    refine le_trans ?_ (le_bump ..)
    unfold standardLabel? at hk
    split at hk
    case isTrue hkind =>
      cases hk
      refine le_trans ?_ (le_bump ..)
      refine le_trans ?_ (le_bump ..)
      refine le_trans ?_ (le_bump ..)
      exact bump_le (by simp [hkind, hl])
    case isFalse =>
      split at hk
      case isTrue hkind =>
        cases hk
        refine le_trans ?_ (le_bump ..)
        exact bump_le (by simpa [hl] using hkind)
      case isFalse => cases hk
  have hn : matchScore pod name kind ≠ 0 := by omega
  simp only [inferencePodScore, hn, if_false]
  split <;> split <;> split <;> omega

end Scores
section Choice

variable {pods : PodList} {name kind ns : Str}

-- The pod that is chosen is not that of another service, and it has the label if there is one that has it.
structure Rightly (pods : PodList) (ns name kind : Str) : Prop where
  own      : ∀ t, resolveInferenceLogTarget true (fun _ => .ok pods.items) ns name kind = .ok t →
             ∀ p ∈ pods.items, p.name = t.podName → ¬p.ForAnother name
  standard : (∃ p ∈ pods.items, p.Standard name kind) →
             ∃ t, resolveInferenceLogTarget true (fun _ => .ok pods.items) ns name kind = .ok t ∧
               ∀ p ∈ pods.items, p.name = t.podName → p.Standard name kind

theorem exists_least (h : candidates pods.items name kind ≠ []) :
    ∃ c, Least (refined scoreRank phaseRank) (candidates pods.items name kind) c := by
  cases hr : resolveInferenceLogTarget true (fun _ => .ok pods.items) [] name kind
  case error err => exact absurd (resolve_error_iff.mp hr).left h
  case ok t      =>
    obtain ⟨c, hc, -⟩ := resolve_ok_iff.mp hr
    exact ⟨c, hc⟩

theorem rightly_iff_least : Rightly pods ns name kind ↔
    ∀ c, Least (refined scoreRank phaseRank) (candidates pods.items name kind) c → ¬Wrong pods name kind c.pod := by
  constructor
  case mp =>
    intro h c hc
    have ht : resolveInferenceLogTarget true (fun _ => .ok pods.items) ns name kind =
        .ok ⟨ns, c.pod.name, podContainerNames c.pod⟩ := resolve_ok_iff.mpr ⟨c, hc, rfl⟩
    have hm := (mem_candidates.mp hc.mem).left
    rintro (ha | ⟨hs, hn⟩)
    · exact h.own _ ht c.pod hm rfl ha
    · obtain ⟨t, ht', hp⟩ := h.standard hs
      rw [ht] at ht'
      cases ht'
      exact hn (hp c.pod hm rfl)
  case mpr =>
    intro h
    constructor
    case own =>
      intro t ht p hp hn ha
      obtain ⟨c, hc, rfl⟩ := resolve_ok_iff.mp ht
      rw [pods.eq_of_name hp (mem_candidates.mp hc.mem).left hn] at ha
      exact h c hc (.inl ha)
    case standard =>
      intro hs
      obtain ⟨p, hp, hsp⟩ := hs
      have hm : (⟨p, inferencePodScore p name kind⟩ : Candidate) ∈ candidates pods.items name kind :=
        mem_candidates.mpr ⟨hp, rfl, hsp.score⟩
      obtain ⟨c, hc⟩ := exists_least (List.ne_nil_of_mem hm)
      refine ⟨_, resolve_ok_iff.mpr ⟨c, hc, rfl⟩, fun q hq hn => ?_⟩
      rw [pods.eq_of_name hq (mem_candidates.mp hc.mem).left hn]
      by_contra hns
      exact h c hc (.inr ⟨⟨p, hp, hsp⟩, hns⟩)

-- The pod is the first of the list, and there is none if and only if the list is empty.
structure Agreed (pods : PodList) (ns name kind : Str) : Prop where
  none : resolveInferenceLogTarget true (fun _ => .ok pods.items) ns name kind = .error errNotFound ↔
         listInferencePods true (fun _ => .ok pods.items) ns name kind = .ok []
  some : ∀ t, resolveInferenceLogTarget true (fun _ => .ok pods.items) ns name kind = .ok t →
         ∃ i l, listInferencePods true (fun _ => .ok pods.items) ns name kind = .ok (i :: l) ∧ i.name = t.podName

theorem exists_least_listed (h : candidates pods.items name kind ≠ []) :
    ∃ c, Least (refined scoreRank ageRank) (candidates pods.items name kind) c := by
  cases hl : listInferencePods true (fun _ => .ok pods.items) [] name kind
  case error err => cases hl
  case ok l      =>
    cases l
    case nil      => exact absurd (list_nil_iff.mp hl) h
    case cons i l =>
      obtain ⟨c, hc, -⟩ := list_head_iff.mp ⟨l, hl⟩
      exact ⟨c, hc⟩

theorem agreed_iff_least : Agreed pods ns name kind ↔
    ∀ a b, Least (refined scoreRank phaseRank) (candidates pods.items name kind) a →
      Least (refined scoreRank ageRank) (candidates pods.items name kind) b → a = b := by
  constructor
  case mp =>
    intro h a b ha hb
    obtain ⟨i, l, hl, hn⟩ := h.some _ (resolve_ok_iff.mpr ⟨a, ha, rfl⟩)
    obtain ⟨c, hc, rfl⟩ := list_head_iff.mp ⟨l, hl⟩
    have hcb := ageRank_inj c hc.mem b hb.mem (refined_inj (hc.rank_eq hb))
    exact candidate_eq ha.mem hb.mem (hcb ▸ hn.symm)
  case mpr =>
    intro h
    constructor
    case none => rw [resolve_error_iff, list_nil_iff, and_iff_left rfl]
    case some =>
      intro t ht
      obtain ⟨a, ha, rfl⟩ := resolve_ok_iff.mp ht
      obtain ⟨b, hb⟩ := exists_least_listed (List.ne_nil_of_mem ha.mem)
      obtain ⟨l, hl⟩ : ∃ l, listInferencePods true (fun _ => .ok pods.items) ns name kind =
          .ok (podInfo b.pod :: l) := list_head_iff.mpr ⟨b, hb, rfl⟩
      exact ⟨_, l, hl, congrArg (·.pod.name) (h a b ha hb).symm⟩

-- The two orders agree on the first pod if and only if none of the best candidates is running, or one that is running
-- is newer than all that are not, or as old and before them by name.
theorem pods_agreed_iff (pods : PodList) (ns name kind : Str) :
    Agreed pods ns name kind ↔
      ((∃ p, Least scoreRank (candidates pods.items name kind) p ∧ podRunning p.pod = true) →
        ∃ p, Least scoreRank (candidates pods.items name kind) p ∧ podRunning p.pod = true ∧
          ∀ q, Least scoreRank (candidates pods.items name kind) q → podRunning q.pod = false →
            ageRank p < ageRank q) := by
  rw [agreed_iff_least]
  by_cases hn : candidates pods.items name kind = []
  case pos =>
    have he : ∀ (p : Candidate), ¬Least scoreRank (candidates pods.items name kind) p := by
      intro p hp
      have hm := hp.mem
      rw [hn] at hm
      cases hm
    refine iff_of_true (fun a b ha _ => ?_) (fun h => ?_)
    · exact absurd (Least.refined_iff.mp ha).left (he a)
    · obtain ⟨p, hp, -⟩ := h
      exact absurd hp (he p)
  case neg =>
    obtain ⟨a, ha⟩ := exists_least hn
    obtain ⟨b, hb⟩ := exists_least_listed hn
    rw [← least_flagged_iff ageRank_inj ha hb]
    constructor
    case mp  => exact fun h => h a b ha hb
    case mpr =>
      rintro rfl c d hc hd
      have hac := phaseRank_inj a ha.mem c hc.mem (refined_inj (ha.rank_eq hc))
      have had := ageRank_inj a hb.mem d hd.mem (refined_inj (hb.rank_eq hd))
      exact hac.symm.trans had

section Examples

def podOf (name : String) (labels : List (String × String)) (phase : String) (created : Int64) : Pod where
  name           := str name
  labels         := labels.foldl (fun d e => d.set (str e.1) (str e.2)) .empty
  owners         := []
  phase          := str phase
  conditions     := []
  containers     := [str "kserve-container"]
  initContainers := []
  created        := ⟨created, 0⟩

def llamaPods : List Pod :=
  [podOf "llama-2-predictor-0" [("serving.kserve.io/inferenceservice", "llama-2")] "Running" 0]

-- One pod has the better labels, and the other one is running.
def qwenPods : List Pod :=
  [podOf "qwen-a" [("app.kubernetes.io/instance", "qwen")] "Running" 0,
    podOf "qwen-b" [("serving.kserve.io/llminferenceservice", "qwen")] "Pending" 60]

theorem orders_disagree : ¬∀ pods ns name kind, Agreed pods ns name kind := by
  intro h
  obtain ⟨i, l, hl, hn⟩ := (h ⟨qwenPods, by decide⟩ (str "team-ml") (str "qwen") (str "InferenceService")).some
    ⟨str "team-ml", str "qwen-a", [str "kserve-container"]⟩ (by decide +kernel)
  have hs : (listInferencePods true (fun _ => .ok qwenPods) (str "team-ml") (str "qwen")
      (str "InferenceService")).toOption.map (fun l => l.map InferencePodInfo.name) =
      some [str "qwen-b", str "qwen-a"] := by decide +kernel
  rw [hl] at hs
  have hi : i.name = str "qwen-b" := (List.cons.inj (Option.some.inj hs)).left
  rw [hi] at hn
  revert hn
  decide

end Examples
end Choice
end K8sRes

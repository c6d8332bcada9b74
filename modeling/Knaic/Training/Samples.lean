import Mathlib.Data.List.Forall2
import Knaic.Go.Basic

open Go

namespace Training

structure MetricPoint where
  step  : Int
  value : Float64

structure MLflowSample where
  step     : Int
  loss     : Float64
  accuracy : Float64

-- The accuracy as it is sent, which leaves out a zero.
def MLflowSample.accuracy? (s : MLflowSample) : Option Float64 :=
  if s.accuracy <<< 1 = 0 then none else some s.accuracy

-- FNV-1a of 64 bits
def fnv64a (s : Str) : UInt64 :=
  s.foldl (fun h b => (h ^^^ b.toUInt64) * 1099511628211) 14695981039346656037

def syntheticSample (seed : UInt64) (n i : Nat) : MLflowSample :=
  let jit  := (seed >>> 32 &&& 0xff).toFloat / 255.0
  let t    := (i + 1).toFloat / n.toFloat
  let loss := 0.4 + (1 - t) * (2.0 + jit * 0.4)
  let acc  := 0.55 + 0.35 * t + jit * 0.02
  { step     := i + 1
    loss     := ((loss * 1000).round / 1000).toBits
    accuracy := ((acc * 1000).round / 1000).toBits }

-- The samples from the one at `i` on, of which `k` are left.
def syntheticFrom (n : Nat) (seed : UInt64) (i : Nat) : Nat → List MLflowSample
  | 0     => []
  | k + 1 =>
    let seed := seed * 6364136223846793005 + 1442695040888963407
    syntheticSample seed n i :: syntheticFrom n seed (i + 1) k

def syntheticSamples (runID : Str) (n : Nat) : List MLflowSample :=
  syntheticFrom n (fnv64a (if runID = [] then str "default" else runID)) 0 n

inductive Source
  | mlflow
  | synthetic
deriving DecidableEq

-- `metricHistory` is what MLflow answers for a metric of the run.
def samples (metricHistory : Str → Except Error (List MetricPoint)) (trackingURI runID : Str) :
    List MLflowSample × Source :=
  if trackingURI = [] ∨ runID = [] then (syntheticSamples runID 30, .synthetic)
  else
    let acc := (metricHistory (str "accuracy")).toOption.getD []
    match metricHistory (str "loss") with
    | .error _ | .ok [] => (syntheticSamples runID 30, .synthetic)
    | .ok loss          =>
      (loss.zipIdx.map fun p => ⟨p.1.step, p.1.value, (acc[p.2]?.map (·.value)).getD 0⟩, .mlflow)

-- What is shown at a step is what was logged at it.
def Logged (acc : List MetricPoint) (step : Int) : Option Float64 → Prop
  | some a => ∃ q ∈ acc, q.step = step ∧ q.value = a
  | none   => ∀ q ∈ acc, q.step ≠ step

structure Joined (acc : List MetricPoint) (p : MetricPoint) (s : MLflowSample) : Prop where
  step     : s.step = p.step
  loss     : s.loss = p.value
  accuracy : Logged acc p.step s.accuracy?

-- The value at the same place of the other history, if it is not zero.
def besides (acc : List MetricPoint) (i : Nat) : Option Float64 :=
  (acc[i]?.map (·.value)).filter (· <<< 1 ≠ 0)

section Join

variable {metricHistory : Str → Except Error (List MetricPoint)} {trackingURI runID : Str}
  {loss acc : List MetricPoint}

theorem accuracy_besides (acc : List MetricPoint) (i : Nat) (step : Int) (value : Float64) :
    (MLflowSample.mk step value ((acc[i]?.map (·.value)).getD 0)).accuracy? = besides acc i := by
  unfold MLflowSample.accuracy? besides
  cases acc[i]?
  case none   => rfl
  case some q =>
    simp only [Option.map_some, Option.getD_some, Option.filter]
    by_cases hz : q.value <<< 1 = 0 <;> simp [hz]

theorem samples_eq (ht : trackingURI ≠ []) (hr : runID ≠ []) (hl : metricHistory (str "loss") = .ok loss)
    (ha : metricHistory (str "accuracy") = .ok acc) (hn : loss ≠ []) :
    samples metricHistory trackingURI runID =
      (loss.zipIdx.map fun p => ⟨p.1.step, p.1.value, (acc[p.2]?.map (·.value)).getD 0⟩, .mlflow) := by
  cases loss
  case nil  => contradiction
  case cons => simp [samples, ht, hr, hl, ha, Except.toOption]

-- Every point of the loss has one sample, with the accuracy of its step, if and only if what stands besides it in the
-- other history was logged at that step, and nothing was where nothing stands there or a zero.
theorem samples_joined_iff (ht : trackingURI ≠ []) (hr : runID ≠ []) (hl : metricHistory (str "loss") = .ok loss)
    (ha : metricHistory (str "accuracy") = .ok acc) :
    (loss ≠ [] → List.Forall₂ (Joined acc) loss (samples metricHistory trackingURI runID).1) ↔
      ∀ i p, loss[i]? = some p → Logged acc p.step (besides acc i) := by
  by_cases hn : loss = []
  case pos => simp [hn]
  case neg =>
    rw [samples_eq ht hr hl ha hn, List.forall₂_iff_get]
    constructor
    case mp =>
      intro h i p hp
      obtain ⟨hi, rfl⟩ := List.getElem?_eq_some_iff.mp hp
      have hj := ((h hn).right i hi (by simpa using hi)).accuracy
      simpa [accuracy_besides] using hj
    case mpr =>
      intro h _
      refine ⟨by simp, fun i hi hi' => ?_⟩
      have hj := h i loss[i] (List.getElem?_eq_getElem hi)
      constructor
      case step     => simp
      case loss     => simp
      case accuracy => simpa [accuracy_besides] using hj

section Example

-- Three points of the loss, and points of the accuracy at some steps. The values are 0.5 and 0.75.
def lossPoints : List MetricPoint :=
  [⟨0, 0x3fe0000000000000⟩, ⟨1, 0x3fe0000000000000⟩, ⟨2, 0x3fe0000000000000⟩]

def history (steps : List Int) (metric : Str) : Except Error (List MetricPoint) :=
  .ok (if metric = str "loss" then lossPoints else steps.map fun step => ⟨step, 0x3fe8000000000000⟩)

theorem samples_joined_every_step :
    List.Forall₂ (Joined [⟨0, 0x3fe8000000000000⟩, ⟨1, 0x3fe8000000000000⟩, ⟨2, 0x3fe8000000000000⟩]) lossPoints
      (samples (history [0, 1, 2]) (str "http://mlflow") (str "r-0a1b")).1 := by
  apply (samples_joined_iff (by decide) (by decide) rfl rfl).mpr _ (by decide)
  intro i p hp
  obtain ⟨hi, rfl⟩ := List.getElem?_eq_some_iff.mp hp
  have hc : i = 0 ∨ i = 1 ∨ i = 2 := by
    have hl : lossPoints.length = 3 := rfl
    omega
  obtain rfl | rfl | rfl := hc
  case inl     => exact ⟨_, .head _, rfl, rfl⟩
  case inr.inl => exact ⟨_, .tail _ (.head _), rfl, rfl⟩
  case inr.inr => exact ⟨_, .tail _ (.tail _ (.head _)), rfl, rfl⟩

-- The accuracy of the second step is shown at the first, and none at the second.
theorem samples_shifted : ¬∀ (metricHistory : Str → Except Error (List MetricPoint)) (trackingURI runID : Str)
    (loss acc : List MetricPoint), trackingURI ≠ [] → runID ≠ [] → metricHistory (str "loss") = .ok loss →
      metricHistory (str "accuracy") = .ok acc →
      (loss ≠ [] → List.Forall₂ (Joined acc) loss (samples metricHistory trackingURI runID).1) := by
  intro h
  have hj := h (history [1]) (str "http://mlflow") (str "r-0a1b") _ _ (by decide) (by decide) rfl rfl (by decide)
  have ha := (hj.get (i := 0) (by decide) (by decide)).accuracy
  obtain ⟨q, hq, hs, -⟩ := ha
  cases List.mem_singleton.mp hq
  cases hs

end Example
end Join
end Training

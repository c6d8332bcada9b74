import Knaic.Go.Strconv
import Knaic.Go.Utf8

open Go

namespace Monitoring

inductive Scope
  | cluster
  | node
  | namespaced
  | pod
  | unknown (s : Str) (h : s ∉ [str "cluster", str "node", str "namespace", str "pod"])

inductive Resource
  | cpu
  | memory
  | gpu
  | disk
  | network
  | unknown (s : Str) (h : s ∉ [str "cpu", str "memory", str "gpu", str "disk", str "network"])

def Resource.text : Resource → Str
  | cpu         => str "cpu"
  | memory      => str "memory"
  | gpu         => str "gpu"
  | disk        => str "disk"
  | network     => str "network"
  | unknown s _ => s

inductive Kind
  | usage
  | requests
  | limits
  | unknown (s : Str) (h : s ∉ [str "usage", str "requests", str "limits"])

structure QueryRequest where
  scope    : Scope
  target   : Str
  resource : Resource
  kind     : Kind

-- `strings.ReplaceAll` where one byte is replaced.
def replaceAll (s : Str) (old : UInt8) (new : Str) : Str :=
  s.flatMap fun b => if b = old then new else [b]

def escapeLabel (s : Str) : Str :=
  replaceAll (replaceAll s 0x5c [0x5c, 0x5c]) 0x22 [0x5c, 0x22]

def joinFilters (parts : List Str) : Str :=
  (str ",").intercalate (parts.filter fun p => Utf8.trimSpace p ≠ [])

-- A matcher for a value, and one for the pods that are named after a job.
def equals (label value : Str) : Str :=
  label ++ str "=\"" ++ escapeLabel value ++ str "\""

def podsOf (label job : Str) : Str :=
  label ++ str "=~\"" ++ escapeLabel job ++ str "-.*\""

def units : Resource → Option Str
  | .cpu         => str "cores"
  | .memory      => str "GiB"
  | .gpu         => str "GPUs"
  | .disk        => str "GiB"
  | .network     => str "MiB/s"
  | .unknown _ _ => none

def scopeFilter (scope : Scope) (target : Str) : Except Error Str :=
  match scope with
  | .cluster     => .ok []
  | .node        =>
    if target = [] then .error (.new "target is required for node scope")
    else .ok (equals (str "node") target)
  | .namespaced  =>
    if target = [] then .error (.new "target is required for namespace scope")
    else .ok (equals (str "namespace") target)
  | .pod         =>
    if target = [] then .error (.new "target is required for pod scope")
    else .ok (equals (str "pod") target)
  | .unknown s _ => .error (.errorf "unknown scope %q" [s])

def usageQuery (resource : Resource) (filter : Str) : Str :=
  let f := joinFilters [filter, str "container!=\"\"", str "image!=\"\""]
  match resource with
  | .cpu         => str "sum(rate(container_cpu_usage_seconds_total\x7b" ++ f ++ str "\x7d[5m]))"
  | .memory      => str "sum(container_memory_working_set_bytes\x7b" ++ f ++ str "\x7d) / 1024 / 1024 / 1024"
  | .gpu         => str "sum(DCGM_FI_DEV_GPU_UTIL\x7b" ++ filter ++ str "\x7d) / 100"
  | .disk        => str "sum(container_fs_usage_bytes\x7b" ++ f ++ str "\x7d) / 1024 / 1024 / 1024"
  | .network     =>
    str "sum(rate(container_network_receive_bytes_total\x7b" ++ filter ++
      str "\x7d[5m]) + rate(container_network_transmit_bytes_total\x7b" ++ filter ++
      str "\x7d[5m])) / 1024 / 1024"
  | .unknown _ _ => []

def resourceFilter : Resource → Str
  | .cpu         => str "resource=\"cpu\""
  | .memory      => str "resource=\"memory\""
  | .gpu         => str "resource=~\"nvidia_com_gpu|gpu\""
  | .disk        => str "resource=~\"ephemeral_storage|storage\""
  | _            => []

def quotaQuery (metric : Str) (resource : Resource) (filter : Str) : Str :=
  let query := str "sum(" ++ metric ++ str "\x7b" ++ joinFilters [filter, resourceFilter resource] ++ str "\x7d)"
  match resource with
  | .network        => str "0"
  | .memory | .disk => query ++ str " / 1024 / 1024 / 1024"
  | _               => query

-- The query and its unit.
def promQL (req : QueryRequest) : Except Error (Str × Str) :=
  match units req.resource with
  | none      => .error (.errorf "unknown resource %q" [req.resource.text])
  | some unit => do
    let filter ← scopeFilter req.scope req.target
    match req.kind with
    | .usage       => return (usageQuery req.resource filter, unit)
    | .requests    => return (quotaQuery (str "kube_pod_container_resource_requests") req.resource filter, unit)
    | .limits      => return (quotaQuery (str "kube_pod_container_resource_limits") req.resource filter, unit)
    | .unknown s _ => throw (.errorf "unknown metric kind %q" [s])

-- A series of a bundle, with the query for a namespace and a target.
structure SeriesSpec where
  name   : Str
  unit   : Str
  promQL : Str → Str → Str

def modelFilter (ns svc : Str) : Str :=
  joinFilters [equals (str "namespace") ns, equals (str "model_name") svc]

-- The quantile is given as `formatFloat` writes it.
def latencyQuantile (ns svc q : Str) : Str :=
  str "1000 * histogram_quantile(" ++ q ++
    str ", sum by (le) (rate(vllm:e2e_request_latency_seconds_bucket\x7b" ++ modelFilter ns svc ++ str "\x7d[5m])))"

def llmSpecs : List SeriesSpec := [
  ⟨str "tokensPerSec", str "tok/s", fun ns svc =>
    str "sum(rate(vllm:generation_tokens_total\x7b" ++ modelFilter ns svc ++ str "\x7d[5m]))"⟩,
  ⟨str "promptTokens", str "tokens", fun ns svc =>
    str "sum(increase(vllm:prompt_tokens_total\x7b" ++ modelFilter ns svc ++ str "\x7d[5m]))"⟩,
  ⟨str "completionTokens", str "tokens", fun ns svc =>
    str "sum(increase(vllm:generation_tokens_total\x7b" ++ modelFilter ns svc ++ str "\x7d[5m]))"⟩,
  ⟨str "rps", str "rps", fun ns svc =>
    str "sum(rate(vllm:request_success_total\x7b" ++ modelFilter ns svc ++ str "\x7d[5m]))"⟩,
  ⟨str "p50", str "ms", fun ns svc => latencyQuantile ns svc (str "0.5")⟩,
  ⟨str "p95", str "ms", fun ns svc => latencyQuantile ns svc (str "0.95")⟩,
  ⟨str "p99", str "ms", fun ns svc => latencyQuantile ns svc (str "0.99")⟩]

-- The pods of a job as the GPU exporter labels them, and as the node agent does.
def exportedFilter (ns job : Str) : Str :=
  joinFilters [equals (str "exported_namespace") ns, podsOf (str "exported_pod") job]

def containerFilter (ns job : Str) : Str :=
  joinFilters [equals (str "namespace") ns, podsOf (str "pod") job, str "container!=\"\"", str "image!=\"\""]

def networkFilter (ns job : Str) : Str :=
  joinFilters [equals (str "namespace") ns, podsOf (str "pod") job]

def trainSpecs : List SeriesSpec := [
  ⟨str "gpuUtil", str "%", fun ns job =>
    str "avg(DCGM_FI_DEV_GPU_UTIL\x7b" ++ exportedFilter ns job ++ str "\x7d)"⟩,
  ⟨str "gpuMemGiB", str "GiB", fun ns job =>
    str "sum(DCGM_FI_DEV_FB_USED\x7b" ++ exportedFilter ns job ++ str "\x7d) / 1024"⟩,
  ⟨str "hostCpu", str "cores", fun ns job =>
    str "sum(rate(container_cpu_usage_seconds_total\x7b" ++ containerFilter ns job ++ str "\x7d[5m]))"⟩,
  ⟨str "hostMemGiB", str "GiB", fun ns job =>
    str "sum(container_memory_working_set_bytes\x7b" ++ containerFilter ns job ++
      str "\x7d) / 1024 / 1024 / 1024"⟩,
  ⟨str "netRxMiB", str "MiB/s", fun ns job =>
    str "sum(rate(container_network_receive_bytes_total\x7b" ++ networkFilter ns job ++
      str "\x7d[5m])) / 1024 / 1024"⟩,
  ⟨str "netTxMiB", str "MiB/s", fun ns job =>
    str "sum(rate(container_network_transmit_bytes_total\x7b" ++ networkFilter ns job ++
      str "\x7d[5m])) / 1024 / 1024"⟩]

-- The queries of a bundle, each with the name of its series, when there is an upstream to ask.
def queryBundle (specs : List SeriesSpec) (ns target : Str) (missing : String) : Except Error (List (Str × Str)) :=
  if ns = [] ∨ target = [] then .error (.new missing)
  else .ok (specs.map fun sp => (sp.name, sp.promQL ns target))

def queryLLM (ns svc : Str) : Except Error (List (Str × Str)) :=
  queryBundle llmSpecs ns svc "namespace and service are required"

def queryTraining (ns job : Str) : Except Error (List (Str × Str)) :=
  queryBundle trainSpecs ns job "namespace and job are required"

end Monitoring

-- What the handlers of the monitoring read of the query of a URL.
namespace Api

-- `parseInt64Default`, which loops over the runes of a text.
def parseInt64Default (s : Str) (default : Int64) : Int64 :=
  go (Utf8.runes s) 0
where
  go : List Nat → Int64 → Int64
    | [], n      => n
    | c :: cs, n => if c < 48 ∨ 57 < c then default else go cs (n * 10 + Int64.ofNat (c - 48))

-- The texts that are the decimal of an `int64`.
def Fits (s : Str) : Prop :=
  s ≠ [] ∧ Strconv.Digits s ∧ Strconv.value s < 2 ^ 63

-- What is read of a text is its value, or the default.
structure Parsed (s : Str) (default : Int64) : Prop where
  value : Fits s → (parseInt64Default s default).toInt = Strconv.value s
  other : ¬Fits s → parseInt64Default s default = default

section Parse

variable {s : Str} {default n : Int64}

-- One rune of the loop.
theorem go_runes_cons (a : UInt8) (s : Str) (n : Int64) :
    parseInt64Default.go default (Utf8.runes (a :: s)) n =
      if 48 ≤ a.toNat ∧ a.toNat ≤ 57 then
        parseInt64Default.go default (Utf8.runes s) (n * 10 + Int64.ofNat (a.toNat - 48))
      else default := by
  obtain ⟨p, ps, hp, h⟩ := Utf8.pieces_cons_value a s
  rw [Utf8.runes, hp, List.map_cons, parseInt64Default.go]
  rcases h with ⟨rfl, -, rfl⟩ | ⟨hv, ha⟩
  · by_cases hd : 48 ≤ a.toNat ∧ a.toNat ≤ 57
    case pos =>
      have hn : ¬((Utf8.Piece.rune [a]).value < 48 ∨ 57 < (Utf8.Piece.rune [a]).value) := by
        simp only [Utf8.Piece.value]
        omega
      rw [if_neg hn, if_pos hd]
      rfl
    case neg =>
      have hn : (Utf8.Piece.rune [a]).value < 48 ∨ 57 < (Utf8.Piece.rune [a]).value := by
        simp only [Utf8.Piece.value]
        omega
      rw [if_pos hn, if_neg hd]
  · have ha : 0x80 ≤ a.toNat := ha
    rw [if_pos (.inr (by omega)), if_neg (by omega)]

-- The number so far is the value of the digits so far, as an `int64`.
theorem go_digits (hd : Strconv.Digits s) (v : Nat) : parseInt64Default.go default (Utf8.runes s) (Int64.ofNat v) =
    Int64.ofNat (s.foldl (fun v b => v * 10 + (b.toNat - 48)) v) := by
  induction s generalizing v
  case nil          => rfl
  case cons b ds hi =>
    have hv : Int64.ofNat v * 10 + Int64.ofNat (b.toNat - 48) = Int64.ofNat (v * 10 + (b.toNat - 48)) := by
      rw [Int64.ofNat_add, Int64.ofNat_mul]
      rfl
    rw [go_runes_cons, if_pos (hd b (.head _)), hv, List.foldl_cons, hi fun c hc => hd c (.tail _ hc)]

theorem go_other (hd : ¬Strconv.Digits s) (n : Int64) : parseInt64Default.go default (Utf8.runes s) n = default := by
  induction s generalizing n
  case nil          => exact absurd (fun b hb => by cases hb) hd
  case cons b ds hi =>
    rw [go_runes_cons]
    split
    case isFalse   => rfl
    case isTrue hb =>
      apply hi
      intro hs
      apply hd
      intro c hc
      rcases List.mem_cons.mp hc with rfl | hm
      · exact hb
      · exact hs c hm

theorem parse_digits (hd : Strconv.Digits s) : parseInt64Default s default = Int64.ofNat (Strconv.value s) :=
  go_digits hd 0

theorem ofNat_eq_iff {v : Nat} : Int64.ofNat v = default ↔ (2 ^ 64 : Int) ∣ v - default.toInt := by
  have hs : Int64.size = 2 ^ 64 := rfl
  have hl : -2 ^ 63 ≤ default.toInt := default.le_toInt
  have hu : default.toInt < 2 ^ 63 := default.toInt_lt
  rw [← Int64.toInt_inj, Int64.toInt_ofNat', hs, Int.bmod_def]
  omega

-- A text is read as it should be if and only if something in it is no digit, or it is the decimal of an `int64`, or the
-- default happens to be what its value wraps around to.
theorem parse_exact_iff (s : Str) (default : Int64) : Parsed s default ↔
    (Strconv.Digits s → s ≠ [] ∧ Strconv.value s < 2 ^ 63 ∨ (2 ^ 64 : Int) ∣ Strconv.value s - default.toInt) := by
  constructor
  case mp  =>
    intro h hd
    by_cases hf : s ≠ [] ∧ Strconv.value s < 2 ^ 63
    case pos => exact .inl hf
    case neg =>
      have ho := h.other fun hs => hf ⟨hs.left, hs.right.right⟩
      rw [parse_digits hd, ofNat_eq_iff] at ho
      exact .inr ho
  case mpr =>
    intro h
    refine ⟨fun hf => ?_, fun hf => ?_⟩
    case refine_1 => rw [parse_digits hf.right.left, Int64.toInt_ofNat_of_lt hf.right.right]
    case refine_2 =>
      by_cases hd : Strconv.Digits s
      case neg => exact go_other hd 0
      case pos =>
        rcases h hd with hs | hm
        case inl => exact absurd ⟨hs.left, hd, hs.right⟩ hf
        case inr => rw [parse_digits hd, ofNat_eq_iff.mpr hm]

-- The least number that does not fit comes back as the least `int64`.
theorem parse_wraps : ¬∀ s default, Parsed s default := by
  intro h
  have ho := (h (str "9223372036854775808") 0).other fun hf => absurd hf.right.right (by decide)
  revert ho
  decide

end Parse
end Api

import Knaic.Go.Quoted
import Knaic.Monitoring.Query

open Go Quoted

-- What the upstream reads of a query into which texts have been put.
namespace Monitoring

-- What a bundle puts into its queries.
inductive Arg
  | ns
  | target

def Arg.fill (ns target : Str) : Arg → Str
  | .ns     => ns
  | .target => target

-- The filter of a scope for a target that is not refused.
def filterOf (scope : Scope) (target : Str) : Str :=
  match scope with
  | .node                     => equals (str "node") target
  | .namespaced               => equals (str "namespace") target
  | .pod                      => equals (str "pod") target
  | .cluster | .unknown _ _   => []

def queryOf (kind : Kind) (resource : Resource) (filter : Str) : Str :=
  match kind with
  | .usage       => usageQuery resource filter
  | .requests    => quotaQuery (str "kube_pod_container_resource_requests") resource filter
  | .limits      => quotaQuery (str "kube_pod_container_resource_limits") resource filter
  | .unknown _ _ => []

-- A value stands behind `=`, and the name of a job behind `=~` and in front of what all of its pods
-- have in their names.
def exact : Str × Str :=
  (str "=", [])

def named : Str × Str :=
  (str "=~", str "-.*")

section Matchers

variable {ι : Type} {ends : List (Str × Str)} {q : (ι → Str) → Str}

theorem escapeLabel_eq (s : Str) : escapeLabel s = escape s := by
  simp only [escapeLabel, replaceAll, escape, List.flatMap_assoc]
  congr
  funext b
  by_cases hb : b = 0x5c
  case pos =>
    subst hb
    rfl
  case neg =>
    by_cases hq : b = 0x22
    case pos =>
      subst hq
      rfl
    case neg => simp [hb, hq, backslash, quote]

-- Matchers begin with the name of their label, and none of them is left out.
def Visible (s : Str) : Prop :=
  ∃ b ∈ s.head?, b < 0x80 ∧ Utf8.isSpace b.toNat = false

instance (s : Str) : Decidable (Visible s) :=
  match h : s.head? with
  | none   => isFalse fun ⟨_, hb, _⟩ => by simp [h] at hb
  | some b => decidable_of_iff (b < 0x80 ∧ Utf8.isSpace b.toNat = false) (by simp [Visible, h])

theorem Visible.append {s : Str} (h : Visible s) (s' : Str) : Visible (s ++ s') := by
  obtain ⟨b, hb, h⟩ := h
  exact ⟨b, by rw [List.head?_append, Option.mem_def.mp hb]; rfl, h⟩

theorem Visible.kept {s : Str} (h : Visible s) : Utf8.trimSpace s ≠ [] := by
  obtain ⟨b, hb, ha, hs⟩ := h
  cases s
  case nil      => cases hb
  case cons c s =>
    cases hb
    exact Utf8.trimSpace_ne_nil ha hs s

structure Matcher (ends : List (Str × Str)) (q : (ι → Str) → Str) : Prop where
  templated : Templated ends q
  visible   : ∀ fill, Visible (q fill)

-- One slot behind a label, written in one way or the other.
theorem slot_matcher {label op : Str} (hole : Option ι) {rest : Str} (hv : Visible label) (hl : quote ∉ label)
    (ho : quote ∉ op) (hr : Plain rest) (he : hole.isSome → (op, rest) ∈ ends) :
    Matcher ends fun fill => label ++ op ++ [quote] ++ (escape (hole.elim [] fill) ++ rest) ++ [quote] where
  templated := by
    refine Templated.slot ⟨label ++ op, hole, rest⟩ ?_ hr fun hs => ⟨(op, rest), he hs, List.suffix_append .., rfl⟩
    rw [List.mem_append, not_or]
    exact ⟨hl, ho⟩
  visible fill := (((hv.append _).append _).append _).append _

theorem equals_matcher {label : Str} (hv : Visible label) (hl : quote ∉ label) (he : exact ∈ ends) (i : ι) :
    Matcher ends fun fill => equals label (fill i) := by
  have hs := slot_matcher (some i) hv hl (show quote ∉ str "=" by decide) (nofun : Plain []) fun _ => he
  have ht : (fun fill => equals label (fill i)) = fun fill : ι → Str =>
      label ++ str "=" ++ [quote] ++ (escape ((some i).elim [] fill) ++ []) ++ [quote] := by
    funext fill
    simp only [equals, escapeLabel_eq, Option.elim_some, List.append_nil, List.append_assoc]
    rfl
  rwa [ht]

theorem podsOf_matcher {label : Str} (hv : Visible label) (hl : quote ∉ label) (he : named ∈ ends) (i : ι) :
    Matcher ends fun fill => podsOf label (fill i) := by
  have hs := slot_matcher (some i) hv hl (show quote ∉ str "=~" by decide)
    (show Plain (str "-.*") by decide) fun _ => he
  have ht : (fun fill => podsOf label (fill i)) = fun fill : ι → Str =>
      label ++ str "=~" ++ [quote] ++ (escape ((some i).elim [] fill) ++ str "-.*") ++ [quote] := by
    funext fill
    simp only [podsOf, escapeLabel_eq, Option.elim_some, List.append_assoc]
    rfl
  rwa [ht]

-- A matcher without a hole.
theorem fixed_matcher (label op rest : Str) (hv : Visible label) (hl : quote ∉ label) (ho : quote ∉ op)
    (hr : Plain rest) : Matcher ends fun _ : ι → Str => label ++ op ++ [quote] ++ rest ++ [quote] :=
  slot_matcher none hv hl ho hr nofun

theorem container_matcher : Matcher ends fun _ : ι → Str => str "container!=\"\"" :=
  fixed_matcher (str "container") (str "!=") [] (by decide) (by decide) (by decide) nofun

theorem image_matcher : Matcher ends fun _ : ι → Str => str "image!=\"\"" :=
  fixed_matcher (str "image") (str "!=") [] (by decide) (by decide) (by decide) nofun

theorem joinFilters_eq {parts : List Str} (h : ∀ p ∈ parts, Visible p) :
    joinFilters parts = (str ",").intercalate parts := by
  rw [joinFilters, List.filter_eq_self.mpr fun p hp => by simpa using (h p hp).kept]

theorem joinFilters_templated (qs : List ((ι → Str) → Str)) (h : ∀ q ∈ qs, Matcher ends q) :
    Templated ends fun fill => joinFilters (qs.map (· fill)) := by
  have hj : (fun fill => joinFilters (qs.map (· fill))) = fun fill => (str ",").intercalate (qs.map (· fill)) := by
    funext fill
    refine joinFilters_eq fun p hp => ?_
    obtain ⟨q, hq, rfl⟩ := List.mem_map.mp hp
    exact (h q hq).visible fill
  rw [hj]
  exact .intercalate (by decide) fun q hq => (h q hq).templated

-- A query is its filters between two pieces of code.
theorem around {before after : Str} (hb : quote ∉ before) (ha : quote ∉ after) (h : Templated ends q) :
    Templated ends fun fill => before ++ q fill ++ after :=
  ((Templated.code hb).append h).append (.code ha)

end Matchers

section Scopes

variable {scope : Scope} {resource : Resource} {target f : Str}

theorem scopeFilter_ok (h : scopeFilter scope target = .ok f) : f = filterOf scope target := by
  unfold scopeFilter at h
  split at h
  case h_1 => cases h; rfl
  case h_5 => cases h
  all_goals
    split at h
    case isTrue  => cases h
    case isFalse => cases h; rfl

theorem filterOf_cases (scope : Scope) :
    filterOf scope = (fun _ => []) ∨ ∃ label, quote ∉ label ∧ Visible label ∧ filterOf scope = equals label := by
  cases scope
  case cluster    => exact .inl rfl
  case unknown    => exact .inl rfl
  case node       => exact .inr ⟨str "node", by decide, by decide, rfl⟩
  case namespaced => exact .inr ⟨str "namespace", by decide, by decide, rfl⟩
  case pod        => exact .inr ⟨str "pod", by decide, by decide, rfl⟩

theorem filterOf_templated (scope : Scope) :
    Templated [exact] fun fill : Unit → Str => filterOf scope (fill ()) := by
  obtain h | ⟨label, hl, hv, h⟩ := filterOf_cases scope
  all_goals rw [h]
  case inl => exact .code List.not_mem_nil
  case inr => exact (equals_matcher hv hl List.mem_cons_self ()).templated

-- The filter of the scope before other filters.
theorem scoped_templated (scope : Scope) (rest : List Str)
    (h : ∀ w ∈ rest, Matcher [exact] fun _ : Unit → Str => w) :
    Templated [exact] fun fill : Unit → Str => joinFilters (filterOf scope (fill ()) :: rest) := by
  have hm (q : (Unit → Str) → Str) (hq : q ∈ rest.map fun w (_ : Unit → Str) => w) : Matcher [exact] q := by
    obtain ⟨w, hw, rfl⟩ := List.mem_map.mp hq
    exact h w hw
  obtain hf | ⟨label, hl, hv, hf⟩ := filterOf_cases scope
  all_goals rw [hf]
  case inl =>
    have hj := joinFilters_templated _ hm
    simpa [joinFilters, Function.comp_def, Utf8.trimSpace, Utf8.pieces, Utf8.piecesFrom] using hj
  case inr =>
    have hj := joinFilters_templated _
      (List.forall_mem_cons.mpr ⟨equals_matcher hv hl List.mem_cons_self (), hm⟩)
    simpa [Function.comp_def] using hj

theorem resourceFilter_cases (resource : Resource) :
    resourceFilter resource = [] ∨ Matcher [exact] fun _ : Unit → Str => resourceFilter resource := by
  have matcher (op rest : Str) (ho : quote ∉ op) (hr : Plain rest) :
      Matcher [exact] fun _ : Unit → Str => str "resource" ++ op ++ [quote] ++ rest ++ [quote] :=
    fixed_matcher _ op rest (by decide) (by decide) ho hr
  cases resource
  case cpu     => exact .inr (matcher (str "=") (str "cpu") (by decide) (by decide))
  case memory  => exact .inr (matcher (str "=") (str "memory") (by decide) (by decide))
  case gpu     => exact .inr (matcher (str "=~") (str "nvidia_com_gpu|gpu") (by decide) (by decide))
  case disk    => exact .inr (matcher (str "=~") (str "ephemeral_storage|storage") (by decide) (by decide))
  case network => exact .inl rfl
  case unknown => exact .inl rfl

theorem usageQuery_templated (scope : Scope) (resource : Resource) :
    Templated [exact] fun fill : Unit → Str => usageQuery resource (filterOf scope (fill ())) := by
  have hf := filterOf_templated scope
  have hj := scoped_templated scope [str "container!=\"\"", str "image!=\"\""]
    (by simpa using ⟨container_matcher, image_matcher⟩)
  cases resource
  case cpu     => exact around (by decide +kernel) (by decide +kernel) hj
  case memory  => exact around (by decide +kernel) (by decide +kernel) hj
  case gpu     => exact around (by decide +kernel) (by decide +kernel) hf
  case disk    => exact around (by decide +kernel) (by decide +kernel) hj
  case network => exact ((around (by decide +kernel) (by decide +kernel) hf).append hf).append (.code (by decide))
  case unknown => exact .code List.not_mem_nil

theorem quotaQuery_templated {metric : Str} (hm : quote ∉ metric) (scope : Scope) (resource : Resource) :
    Templated [exact] fun fill : Unit → Str => quotaQuery metric resource (filterOf scope (fill ())) := by
  have hj : Templated [exact] fun fill : Unit → Str => joinFilters [filterOf scope (fill ()), resourceFilter resource] := by
    obtain h | h := resourceFilter_cases resource
    case inr => exact scoped_templated scope _ (by simpa using h)
    case inl =>
      have hs := scoped_templated scope [] nofun
      have he (f : Str) : joinFilters [f, []] = joinFilters [f] := by
        simp [joinFilters, List.filter_cons, Utf8.trimSpace, Utf8.pieces, Utf8.piecesFrom]
      simpa only [h, he] using hs
  have hb : quote ∉ str "sum(" ++ metric ++ str "\x7b" := by
    simpa [hm] using by decide
  have hq := around hb (show quote ∉ str "\x7d)" by decide) hj
  cases resource
  case cpu     => exact hq
  case memory  => exact hq.append (.code (by decide))
  case gpu     => exact hq
  case disk    => exact hq.append (.code (by decide))
  case network => exact .code (by decide)
  case unknown => exact hq

theorem queryOf_templated (scope : Scope) (resource : Resource) (kind : Kind) :
    Templated [exact] fun fill : Unit → Str => queryOf kind resource (filterOf scope (fill ())) := by
  cases kind
  case usage    => exact usageQuery_templated scope resource
  case requests => exact quotaQuery_templated (by decide) scope resource
  case limits   => exact quotaQuery_templated (by decide) scope resource
  case unknown  => exact .code List.not_mem_nil

theorem promQL_ok {kind : Kind} {t u : Str} (h : promQL ⟨scope, target, resource, kind⟩ = .ok (t, u)) :
    t = queryOf kind resource (filterOf scope target) := by
  unfold promQL at h
  split at h
  case h_1 => cases h
  case h_2 =>
    cases hf : scopeFilter scope target <;> simp only [hf] at h
    case error => cases h
    case ok f  =>
      rw [← scopeFilter_ok hf]
      cases kind <;> cases h <;> rfl

end Scopes

section Bundles

theorem modelFilter_templated :
    Templated [exact] fun fill : Arg → Str => modelFilter (fill .ns) (fill .target) := by
  have h : Templated [exact] _ := joinFilters_templated
    [fun fill : Arg → Str => equals (str "namespace") (fill .ns), fun fill => equals (str "model_name") (fill .target)]
    (by simpa using ⟨equals_matcher (by decide) (by decide) (by simp) Arg.ns,
      equals_matcher (by decide) (by decide) (by simp) Arg.target⟩)
  exact h

-- The matchers of a namespace and of the pods of a job, and those that follow.
theorem jobFilter_templated {nsLabel podLabel : Str} (hn : Visible nsLabel) (hn' : quote ∉ nsLabel)
    (hp : Visible podLabel) (hp' : quote ∉ podLabel) (rest : List ((Arg → Str) → Str))
    (hr : ∀ q ∈ rest, Matcher [exact, named] q) : Templated [exact, named] fun fill : Arg → Str =>
      joinFilters (equals nsLabel (fill .ns) :: podsOf podLabel (fill .target) :: rest.map (· fill)) := by
  have h : Templated [exact, named] _ := joinFilters_templated
    ((fun fill : Arg → Str => equals nsLabel (fill .ns)) :: (fun fill => podsOf podLabel (fill .target)) :: rest)
    (List.forall_mem_cons.mpr ⟨equals_matcher hn hn' (by simp) Arg.ns,
      List.forall_mem_cons.mpr ⟨podsOf_matcher hp hp' (by simp) Arg.target, hr⟩⟩)
  exact h

theorem exportedFilter_templated :
    Templated [exact, named] fun fill : Arg → Str => exportedFilter (fill .ns) (fill .target) :=
  jobFilter_templated (by decide) (by decide) (by decide) (by decide) [] nofun

theorem networkFilter_templated :
    Templated [exact, named] fun fill : Arg → Str => networkFilter (fill .ns) (fill .target) :=
  jobFilter_templated (by decide) (by decide) (by decide) (by decide) [] nofun

theorem containerFilter_templated :
    Templated [exact, named] fun fill : Arg → Str => containerFilter (fill .ns) (fill .target) :=
  jobFilter_templated (by decide) (by decide) (by decide) (by decide)
    [fun _ => str "container!=\"\"", fun _ => str "image!=\"\""]
    (by simpa using ⟨container_matcher, image_matcher⟩)

theorem llmSpecs_templated : ∀ sp ∈ llmSpecs,
    Templated [exact] fun fill : Arg → Str => sp.promQL (fill .ns) (fill .target) := by
  have hm := modelFilter_templated
  have hq {q : Str} (h : quote ∉ q) :
      Templated [exact] fun fill : Arg → Str => latencyQuantile (fill .ns) (fill .target) q := by
    have hb : quote ∉ str "1000 * histogram_quantile(" ++ q ++
        str ", sum by (le) (rate(vllm:e2e_request_latency_seconds_bucket\x7b" := by
      simpa [h] using ⟨by decide, by decide⟩
    exact around hb (by decide) hm
  simp only [llmSpecs, List.forall_mem_cons]
  refine ⟨?_, ?_, ?_, ?_, ?_, ?_, ?_, nofun⟩
  case refine_5 => exact hq (by decide)
  case refine_6 => exact hq (by decide)
  case refine_7 => exact hq (by decide)
  all_goals exact around (by decide +kernel) (by decide +kernel) hm

theorem trainSpecs_templated : ∀ sp ∈ trainSpecs,
    Templated [exact, named] fun fill : Arg → Str => sp.promQL (fill .ns) (fill .target) := by
  have he := exportedFilter_templated
  have hc := containerFilter_templated
  have hn := networkFilter_templated
  simp only [trainSpecs, List.forall_mem_cons]
  refine ⟨?_, ?_, ?_, ?_, ?_, ?_, nofun⟩
  case refine_1 => exact around (by decide +kernel) (by decide +kernel) he
  case refine_2 => exact around (by decide +kernel) (by decide +kernel) he
  case refine_3 => exact around (by decide +kernel) (by decide +kernel) hc
  case refine_4 => exact around (by decide +kernel) (by decide +kernel) hc
  case refine_5 => exact around (by decide +kernel) (by decide +kernel) hn
  case refine_6 => exact around (by decide +kernel) (by decide +kernel) hn

end Bundles

-- In each query a text stays inside the string that it was put into. In the matchers for the pods of a job
-- the string goes on behind it.
theorem queries_keep (unquote : Str → Option Str) (hu : Unquotes unquote) :
    (∀ scope resource kind, ∃ q : (Unit → Str) → Str, Kept unquote [exact] q ∧
      ∀ target t u, promQL ⟨scope, target, resource, kind⟩ = .ok (t, u) → t = q fun _ => target) ∧
    (∀ sp ∈ llmSpecs, Kept unquote [exact] fun fill : Arg → Str => sp.promQL (fill .ns) (fill .target)) ∧
    ∀ sp ∈ trainSpecs, Kept unquote [exact, named] fun fill : Arg → Str => sp.promQL (fill .ns) (fill .target) := by
  refine ⟨fun scope resource kind => ⟨_, (queryOf_templated scope resource kind).kept hu, fun target t u => ?_⟩,
    fun sp h => (llmSpecs_templated sp h).kept hu, fun sp h => (trainSpecs_templated sp h).kept hu⟩
  exact promQL_ok

-- The rules for strings in double quotes, on ASCII text and without numbers of characters.
def unescape : UInt8 → Option UInt8
  | 0x5c => some 0x5c
  | 0x22 => some 0x22
  | 0x61 => some 7
  | 0x62 => some 8
  | 0x66 => some 12
  | 0x6e => some 10
  | 0x72 => some 13
  | 0x74 => some 9
  | 0x76 => some 11
  | _    => none

def unquoteASCII : Str → Option Str
  | []     => some []
  | b :: s =>
    if b = backslash then
      match s with
      | []     => none
      | c :: s => do return (← unescape c) :: (← unquoteASCII s)
    else if b = quote ∨ b = 0x0a ∨ b ≥ 0x80 then
      none
    else
      (unquoteASCII s).map (b :: ·)

theorem unquoteASCII_escaped (b : UInt8) (s : Str) : unquoteASCII (backslash :: b :: s) =
    (unescape b).bind fun c => (unquoteASCII s).map (c :: ·) := by
  rw [unquoteASCII.eq_def]
  simp only [if_true]
  cases unescape b
  case none   => rfl
  case some c => cases unquoteASCII s <;> rfl

theorem unquoteASCII_unquotes : Unquotes unquoteASCII where
  nil := rfl
  escaped b s hb := by
    rw [unquoteASCII_escaped]
    obtain rfl | rfl := hb <;> rfl
  plain w s hw hs := by
    induction w
    case nil         => exact .inr (by simp)
    case cons b w hi =>
      have hb := hw b List.mem_cons_self
      have hi := hi fun c hc => hw c (List.mem_cons_of_mem _ hc)
      rw [List.cons_append, unquoteASCII.eq_def]
      simp only [if_neg hb.right]
      split
      case isTrue  => exact .inl rfl
      case isFalse =>
        refine hi.imp (fun h => by rw [h]; rfl) fun h => ?_
        rw [h, Option.map_map]
        rfl

theorem queries_keep_ascii : Unquotes unquoteASCII ∧ ∀ sp ∈ trainSpecs,
    Kept unquoteASCII [exact, named] fun fill : Arg → Str => sp.promQL (fill .ns) (fill .target) :=
  ⟨unquoteASCII_unquotes, (queries_keep unquoteASCII unquoteASCII_unquotes).right.right⟩

-- No string of the query is read as the name of the job.
theorem job_goes_on : ∃ sp ∈ trainSpecs,
    Token.quoted (str "llama-.*") ∈ tokens (sp.promQL (str "ml") (str "llama")) ∧
    unquoteASCII (str "llama-.*") = some (str "llama-.*") ∧
    Token.quoted (escapeLabel (str "llama")) ∉ tokens (sp.promQL (str "ml") (str "llama")) ∧
    ∀ raw ∈ [str "ml", str "llama-.*"], unquoteASCII raw ≠ some (str "llama") := by
  refine ⟨_, List.mem_cons_self, ?_⟩
  decide +kernel

end Monitoring

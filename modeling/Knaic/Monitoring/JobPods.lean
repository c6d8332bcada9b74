import Knaic.Go.Pattern
import Knaic.Kube.Names
import Knaic.Monitoring.Injection

open Go Quoted

-- The pods that the queries of the training bundle are about.
namespace Monitoring

-- A pod of a training job, and the job that it was created for.
structure Pod where
  name : Str
  job  : Str

-- The controllers begin the name of a pod with that of its job.
def Named (pods : List Pod) : Prop :=
  ∀ p ∈ pods, ∃ s, p.name = p.job ++ 0x2d :: s

-- The regular expressions that a query has for the names of pods, as they are written.
def podPatterns : List Token → List Str
  | .code c :: .quoted raw :: ts => (if c.hasSuffix (str "pod=~") then [raw] else []) ++ podPatterns ts
  | _                            => []

-- A matcher takes a name as a whole.
def Selects (query name : Str) : Prop :=
  ∃ raw ∈ podPatterns (tokens query), ∃ v, unquoteASCII raw = some v ∧
    ∃ r, Pattern.parse v = some r ∧ name ∈ r.matches'

-- Whether a name begins with that of the job and a hyphen, where a dot in the latter stands for any byte.
def namedAfter : Str → Str → Bool
  | [], b :: _      => b == 0x2d
  | p :: w, b :: bs => (p == 0x2e || p == b) && namedAfter w bs
  | _, []           => false

theorem namedAfter_iff {w x : Str} : namedAfter w x ↔
    ∃ u v, x = u ++ v ∧ List.Forall₂ Pattern.Fits w u ∧ ∃ t, v = 0x2d :: t := by
  induction w generalizing x
  case nil =>
    cases x
    case nil       => simp [namedAfter]
    case cons b bs => simp [namedAfter]
  case cons p w hi =>
    cases x
    case nil       => simp [namedAfter]
    case cons b bs =>
      simp only [namedAfter, Bool.and_eq_true, Bool.or_eq_true, beq_iff_eq, hi]
      constructor
      case mp =>
        rintro ⟨hp, u, v, rfl, hu, hv⟩
        exact ⟨b :: u, v, rfl, .cons hp hu, hv⟩
      case mpr =>
        rintro ⟨_, v, he, hu, hv⟩
        cases hu
        case cons c u hc hu =>
          cases he
          exact ⟨hc, u, v, rfl, hu, hv⟩

section Query

variable {before nsLabel podLabel after ns job : Str}

theorem intercalate_cons (sep a : Str) (l : List Str) : sep.intercalate (a :: l) = a ++ l.flatMap (sep ++ ·) := by
  induction l generalizing a
  case nil         => simp [List.intercalate]
  case cons b l hi =>
    rw [List.flatMap_cons, List.append_assoc, ← hi b]
    simp [List.intercalate]

-- The filters of a training query.
theorem joinFilters_job {rest : List Str} (hn : Visible nsLabel) (hp : Visible podLabel) (hr : ∀ w ∈ rest, Visible w) :
    joinFilters (equals nsLabel ns :: podsOf podLabel job :: rest) =
      equals nsLabel ns ++ str "," ++ podsOf podLabel job ++ rest.flatMap (str "," ++ ·) := by
  have hn' : Visible (equals nsLabel ns) := ((hn.append _).append _).append _
  have hp' : Visible (podsOf podLabel job) := ((hp.append _).append _).append _
  rw [joinFilters_eq (List.forall_mem_cons.mpr ⟨hn', List.forall_mem_cons.mpr ⟨hp', hr⟩⟩), intercalate_cons, List.flatMap_cons]
  simp only [equals, podsOf, List.append_assoc]

theorem tokens_job (hb : quote ∉ before) (hn : quote ∉ nsLabel) (hp : quote ∉ podLabel) :
    tokens (before ++ (equals nsLabel ns ++ str "," ++ podsOf podLabel job ++ after)) =
      .code (before ++ nsLabel ++ str "=") :: .quoted (escape ns) :: .code (str "," ++ podLabel ++ str "=~") ::
        .quoted (escape job ++ str "-.*") :: tokens after := by
  have he : str "=\"" = str "=" ++ [quote] := rfl
  have ht : str "=~\"" = str "=~" ++ [quote] := rfl
  have hr : str "-.*\"" = str "-.*" ++ [quote] := rfl
  have hq : str "\"" = [quote] := rfl
  simp only [tokens, equals, podsOf, escapeLabel_eq, he, ht, hr, hq, List.append_assoc]
  rw [scan_code hb, scan_code hn, scan_code (show quote ∉ str "=" by decide), List.singleton_append, scan_quote,
    Bool.not_false, scan_escape, List.singleton_append, scan_quote, Bool.not_true,
    scan_code (show quote ∉ str "," by decide), scan_code hp, scan_code (show quote ∉ str "=~" by decide),
    List.singleton_append, scan_quote, Bool.not_false, scan_escape,
    scan_plain (show Plain (str "-.*") by decide), List.singleton_append, scan_quote, Bool.not_true]
  simp

-- The one pattern of a training query.
theorem podPatterns_job {rest : List Str} (hb : quote ∉ before) (hn : Visible nsLabel) (hn' : quote ∉ nsLabel)
    (hp : Visible podLabel) (hp' : quote ∉ podLabel) (hpod : str "pod" <:+ podLabel) (hr : ∀ w ∈ rest, Visible w)
    (ha : podPatterns (tokens (rest.flatMap (str "," ++ ·) ++ after)) = []) :
    podPatterns (tokens (before ++ joinFilters (equals nsLabel ns :: podsOf podLabel job :: rest) ++ after)) =
      [escape job ++ str "-.*"] := by
  have hs : (str "," ++ podLabel ++ str "=~").hasSuffix (str "pod=~") := by
    obtain ⟨w, rfl⟩ := hpod
    exact List.isSuffixOf_iff_suffix.mpr ⟨str "," ++ w, by simp only [List.append_assoc]; rfl⟩
  have hf : (before ++ nsLabel ++ str "=").hasSuffix (str "pod=~") = false := by
    rw [← Bool.not_eq_true]
    intro h
    obtain ⟨w, hw⟩ := List.isSuffixOf_iff_suffix.mp h
    have hl := congrArg List.getLast? hw
    rw [List.getLast?_append, List.getLast?_append] at hl
    cases hl
  rw [joinFilters_job hn hp hr, List.append_assoc before, List.append_assoc _ _ after, tokens_job hb hn' hp']
  simp only [podPatterns, hs, hf, ha]
  rfl

end Query

theorem trainSpecs_pattern (ns job : Str) : ∀ sp ∈ trainSpecs,
    podPatterns (tokens (sp.promQL ns job)) = [escape job ++ str "-.*"] := by
  -- The labels of the exporter, and those of the node agent.
  have exported {before after : Str} (hb : quote ∉ before) (ha : podPatterns (tokens after) = []) :
      podPatterns (tokens (before ++ exportedFilter ns job ++ after)) = [escape job ++ str "-.*"] :=
    podPatterns_job hb (by decide) (by decide) (by decide) (by decide) (by decide) (List.forall_mem_nil _) ha
  have agent {before after : Str} (rest : List Str) (hb : quote ∉ before) (hr : ∀ w ∈ rest, Visible w)
      (ha : podPatterns (tokens (rest.flatMap (str "," ++ ·) ++ after)) = []) :
      podPatterns (tokens (before ++ joinFilters (equals (str "namespace") ns :: podsOf (str "pod") job :: rest) ++ after)) =
        [escape job ++ str "-.*"] :=
    podPatterns_job hb (by decide) (by decide) (by decide) (by decide) (by decide) hr ha
  simp only [trainSpecs, List.forall_mem_cons]
  refine ⟨?_, ?_, ?_, ?_, ?_, ?_, List.forall_mem_nil _⟩
  case refine_1 => exact exported (by decide +kernel) (by decide +kernel)
  case refine_2 => exact exported (by decide +kernel) (by decide +kernel)
  case refine_3 => exact agent [_, _] (by decide +kernel) (by decide +kernel) (by decide +kernel)
  case refine_4 => exact agent [_, _] (by decide +kernel) (by decide +kernel) (by decide +kernel)
  case refine_5 => exact agent [] (by decide +kernel) (List.forall_mem_nil _) (by decide +kernel)
  case refine_6 => exact agent [] (by decide +kernel) (List.forall_mem_nil _) (by decide +kernel)

section Selection

variable {sp : SeriesSpec} {ns job name : Str}

theorem nameByte_of_dotted {b : UInt8} (h : Kube.isLowerOrDigit b ∨ b = 45 ∨ b = 46) : Pattern.NameByte b := by
  simp only [Kube.isLowerOrDigit, Bool.or_eq_true, Bool.and_eq_true, decide_eq_true_eq] at h
  obtain (h | h) | h | h := h
  case inl.inl => exact .inr (.inl h)
  case inl.inr => exact .inr (.inr (.inl h))
  case inr.inl => exact .inr (.inr (.inr h))
  case inr.inr => exact .inl h

theorem nameByte_visible : ∀ b, Pattern.NameByte b → b ≠ backslash ∧ b ≠ quote ∧ b ≠ 0x0a ∧ b < 0x80 := by
  decide +kernel

-- Names are not escaped, and they are read as they are.
theorem unquoteASCII_visible {w : Str} (h : ∀ b ∈ w, b ≠ backslash ∧ b ≠ quote ∧ b ≠ 0x0a ∧ b < 0x80) :
    unquoteASCII w = some w := by
  induction w
  case nil         => rfl
  case cons b w hi =>
    obtain ⟨hb, hq, hn, hl⟩ := h b List.mem_cons_self
    rw [unquoteASCII.eq_def]
    simp only [if_neg hb, hq, hn, UInt8.not_le.mpr hl, or_self, if_false,
      hi fun c hc => h c (List.mem_cons_of_mem _ hc)]
    rfl

theorem selects_iff (h : sp ∈ trainSpecs) (hj : Kube.IsDNS1123Subdomain job) :
    Selects (sp.promQL ns job) name ↔ namedAfter job name := by
  have hb : ∀ b ∈ job, Pattern.NameByte b := fun b hb => nameByte_of_dotted ((Kube.dotted_subdomain hj).bytes b hb)
  have hp : Plain job := fun b h => have hv := nameByte_visible b (hb b h); ⟨hv.right.left, hv.left⟩
  have hv : ∀ b ∈ job ++ str "-.*", b ≠ backslash ∧ b ≠ quote ∧ b ≠ 0x0a ∧ b < 0x80 := by
    refine List.forall_mem_append.mpr ⟨fun b h => nameByte_visible b (hb b h), by decide +kernel⟩
  obtain ⟨r, hr, hm⟩ := Pattern.parse_rest
  obtain ⟨r', hr', hm'⟩ := Pattern.parse_name hb (by decide) hr
  rw [namedAfter_iff]
  simp only [Selects, trainSpecs_pattern ns job sp h, escape_plain hp, List.mem_singleton, exists_eq_left,
    unquoteASCII_visible hv, Option.some.injEq, exists_eq_left', hr', hm', hm]

end Selection

-- The queries of a job are about exactly its pods if and only if no pod of another job is named after it.
theorem matcher_exact_iff (sp : SeriesSpec) (h : sp ∈ trainSpecs) (ns job : Str) (hj : Kube.IsDNS1123Subdomain job)
    (pods : List Pod) (hn : Named pods) :
    (∀ p ∈ pods, Selects (sp.promQL ns job) p.name ↔ p.job = job) ↔
      ∀ p ∈ pods, p.job ≠ job → ¬namedAfter job p.name := by
  simp only [selects_iff h hj]
  refine forall₂_congr fun p hp => ⟨fun hi hne hs => hne (hi.mp hs), fun hi => ⟨fun hs => ?_, fun he => ?_⟩⟩
  case refine_1 => exact by_contra fun hne => hi hne hs
  case refine_2 =>
    obtain ⟨s, hs⟩ := hn p hp
    rw [hs, he, namedAfter_iff]
    exact ⟨job, _, rfl, List.forall₂_same.mpr fun b _ => .inr rfl, s, rfl⟩

theorem matcher_exact_apart : ∃ sp ∈ trainSpecs,
    Selects (sp.promQL (str "ml") (str "llama")) (str "llama-node-0-0-x7k2p") ∧
    ¬Selects (sp.promQL (str "ml") (str "llama")) (str "bert-node-0-0-q9d4m") := by
  have h := (matcher_exact_iff _ List.mem_cons_self (str "ml") (str "llama") (by decide)
    [⟨str "llama-node-0-0-x7k2p", str "llama"⟩, ⟨str "bert-node-0-0-q9d4m", str "bert"⟩]
    (by simpa [Named] using ⟨⟨_, rfl⟩, ⟨_, rfl⟩⟩)).mpr (by decide)
  exact ⟨_, List.mem_cons_self, (h _ (.head _)).mpr rfl,
    fun hs => absurd ((h _ (.tail _ (.head _))).mp hs) (by decide)⟩

-- A job whose name extends the other, and one that has another letter where the other has a dot.
theorem extension_selected :
    (∃ p : Pod, Named [p] ∧ p.job = str "llama-2" ∧
      ∀ sp ∈ trainSpecs, Selects (sp.promQL (str "ml") (str "llama")) p.name) ∧
    ∃ p : Pod, Named [p] ∧ p.job = str "gpt-4" ∧
      ∀ sp ∈ trainSpecs, Selects (sp.promQL (str "ml") (str "gpt.4")) p.name := by
  refine ⟨⟨⟨str "llama-2-node-0-0-x7k2p", str "llama-2"⟩, ?_, rfl, fun sp h => ?_⟩,
    ⟨str "gpt-4-node-0-0-x7k2p", str "gpt-4"⟩, ?_, rfl, fun sp h => ?_⟩
  case refine_1 => simpa [Named] using ⟨_, rfl⟩
  case refine_2 => exact (selects_iff h (by decide)).mpr (by decide)
  case refine_3 => simpa [Named] using ⟨_, rfl⟩
  case refine_4 => exact (selects_iff h (by decide)).mpr (by decide)

end Monitoring

import Knaic.Effects.Overwrite
import Knaic.Inference.Gateway

open Go Kube.Dynamic Effects
open Kube (Fields mapOf mapOf_sorted)

namespace Inference

def provision (refuse : Refusal) (ns svcName : Str) (req : CreateAIGatewayRouteRequest)
    (c : Cluster) : Except Error (List CreatedResource) × Cluster :=
  Prog.run (serve refuse) (createAIGatewayRoute ns svcName req) c

section Bodies

variable {apiVersion kind : String} {ns name svc : Str} {spec : Fields}

@[simp]
theorem gatewayResource_metadata :
    Entries.get (gatewayResource apiVersion kind ns name svc spec) (str "metadata") =
    some (.obj (mapOf [
      ("name", .string name),
      ("namespace", .string ns),
      ("labels", .obj (aiGatewayLabels svc))])) := by
  simp [gatewayResource, mapOf, Entries.get_set]

@[simp]
theorem gatewayResource_spec :
    Entries.get (gatewayResource apiVersion kind ns name svc spec) (str "spec") =
    some (.obj spec) := by
  simp [gatewayResource, mapOf]

@[simp]
theorem gatewayResource_name : (gatewayResource apiVersion kind ns name svc spec).getName = name := by
  simp [Fields.getName, Fields.nestedString, mapOf, Entries.get_set]

@[simp]
theorem gatewayResource_namespace :
    (gatewayResource apiVersion kind ns name svc spec).getNamespace = ns := by
  simp [Fields.getNamespace, Fields.nestedString, mapOf, Entries.get_set]

theorem gatewayResource_literal : (gatewayResource apiVersion kind ns name svc spec).Literal where
  sorted := mapOf_sorted _
  metadata m hm := by
    rw [gatewayResource_metadata] at hm
    cases hm
    exact ⟨mapOf_sorted _, by simp [mapOf, Entries.get_set]⟩

end Bodies

-- An object that a call sets out to write. When one that is required is refused, the call ends.
structure Step where
  key      : Key
  body     : Fields
  required : Bool

def Step.refusal (refuse : Refusal) (s : Step) : Option Error :=
  if 47 ∈ s.key.name then some errBadRequest else refuse s.key.gvr s.body

-- The objects that are written.
def writes (refuse : Refusal) : List Step → List (Key × Fields)
  | []      => []
  | s :: ss =>
    match s.refusal refuse with
    | none   => (s.key, s.body) :: writes refuse ss
    | some _ => if s.required then [] else writes refuse ss

def CreateAIGatewayRouteRequest.limit (req : CreateAIGatewayRouteRequest) : Option RateLimitConfig :=
  req.rateLimit.filter fun rl => rl.requests > 0

section Steps

variable (ns svcName : Str) (req : CreateAIGatewayRouteRequest)

def backendStep : Step :=
  ⟨⟨gvrAIServiceBackend, ns, backendName svcName⟩, backendBody ns svcName req, true⟩

def routeStep : Step :=
  ⟨⟨gvrAIGatewayRoute, ns, routeName svcName⟩, routeBody ns svcName req, true⟩

def policyStep (rl : RateLimitConfig) : Step :=
  ⟨⟨gvrBackendTrafficPolicy, ns, policyName svcName⟩, policyBody ns svcName rl, true⟩

def grantStep : Step :=
  ⟨⟨gvrReferenceGrant, ns, grantName svcName⟩, grantBody ns svcName req, false⟩

@[simp]
theorem backendStep_body : (backendStep ns svcName req).body = backendBody ns svcName req := by
  simp only [backendStep]

@[simp]
theorem routeStep_body : (routeStep ns svcName req).body = routeBody ns svcName req := by
  simp only [routeStep]

@[simp]
theorem policyStep_body (rl : RateLimitConfig) :
    (policyStep ns svcName rl).body = policyBody ns svcName rl := by
  simp only [policyStep]

@[simp]
theorem grantStep_body : (grantStep ns svcName req).body = grantBody ns svcName req := by
  simp only [grantStep]

def policySteps : List Step :=
  (req.limit.map (policyStep ns svcName)).toList

def grantSteps : List Step :=
  if req.gwNS = ns then [] else [grantStep ns svcName req]

def steps : List Step :=
  backendStep ns svcName req :: routeStep ns svcName req ::
    (policySteps ns svcName req ++ grantSteps ns svcName req)

end Steps

def puts (c : Cluster) (ws : List (Key × Fields)) : Cluster :=
  ws.foldl (fun c w => c.put w.1 w.2) c

theorem content_puts (c : Cluster) (ws : List (Key × Fields)) :
    (puts c ws).content = overwrite c.content ws := by
  induction ws generalizing c
  case nil          => rfl
  case cons w ws hi =>
    refine (hi _).trans (congrArg (overwrite · ws) ?_)
    funext key
    exact (Cluster.content_put c w.1 w.2 key).trans (Function.update_apply ..).symm

section Run

variable {refuse : Refusal} {s : Step} {c : Cluster} {old : Stored}

theorem applyResource_eq (gvr : GVR) (ns name : Str) (body : Fields) :
    applyResource gvr ns name body =
    @Prog.call ops _ (.get ⟨gvr, ns, name⟩) fun r : Except Error Fields =>
      (match r with
        | .error err   => if errNotFound.is err then create gvr ns body else throw err
        | .ok existing =>
          update gvr ns (body.setResourceVersion existing.getResourceVersion) : Call Fields) := by
  refine congrArg (@Prog.call ops _ (.get ⟨gvr, ns, name⟩)) ?_
  funext r
  cases r <;> rfl

-- What becomes of an object that is sent to be stored.
def stored (refuse : Refusal) (s : Step) (c : Cluster) : Except Error Fields × Cluster :=
  match s.refusal refuse with
  | some e => (.error e, c)
  | none   => (.ok (Stored.view ⟨s.body, c.revision + 1⟩), c.put s.key s.body)

structure Step.Proper (s : Step) : Prop where
  literal : s.body.Literal
  name    : s.body.getName = s.key.name
  ns      : s.body.getNamespace = s.key.ns
  named   : s.key.name ≠ []

theorem Step.Proper.metadata (h : s.Proper) : ∃ m, s.body.get (str "metadata") = some (.obj m) :=
  Fields.metadata_of_getName (h.name ▸ h.named)

theorem Step.Proper.keyOf (h : s.Proper) (v : Str) :
    keyOf s.key.gvr s.key.ns (s.body.setResourceVersion v) =
      if 47 ∈ s.key.name then .error errBadRequest else .ok s.key := by
  simp [Kube.Dynamic.keyOf, h.name, h.ns, h.named]

theorem create_run (refuse : Refusal) (h : s.Proper) (hc : c.get s.key = none) :
    Prog.run (serve refuse) (create s.key.gvr s.key.ns s.body) c = stored refuse s c := by
  have hk : Kube.Dynamic.keyOf s.key.gvr s.key.ns s.body =
      if 47 ∈ s.key.name then .error errBadRequest else .ok s.key := by
    simp [Kube.Dynamic.keyOf, h.name, h.ns, h.named]
  simp only [create, Kube.Dynamic.perform, Prog.perform, Prog.run, serve, answer, hk, h.literal.remove,
    stored, Step.refusal]
  by_cases hs : 47 ∈ s.key.name
  case pos => simp [hs]
  case neg =>
    cases refuse s.key.gvr s.body <;> simp [hs, hc, store, h.literal.remove, Cluster.put]

theorem update_run (refuse : Refusal) (h : s.Proper) (hc : c.get s.key = some old) :
    Prog.run (serve refuse) (update s.key.gvr s.key.ns
      (s.body.setResourceVersion old.view.getResourceVersion)) c = stored refuse s c := by
  have ⟨m, hm⟩ := h.metadata
  have hv : ¬(old.view.getResourceVersion ≠ [] ∧
      old.view.getResourceVersion ≠ decimal old.version) := by
    cases old.view_version <;> simp_all
  simp only [update, Kube.Dynamic.perform, Prog.perform, Prog.run, serve, answer, h.keyOf, stored,
    Step.refusal, h.literal.remove_set hm, h.literal.version_set hm]
  by_cases hs : 47 ∈ s.key.name
  case pos => simp [hs]
  case neg =>
    cases refuse s.key.gvr s.body <;>
      simp [hs, hc, hv, store, h.literal.remove_set hm, Cluster.put]

-- Whether or not there is an object already, it is written unless it is refused.
theorem applyResource_run (h : s.Proper) (c : Cluster) :
    Prog.run (serve refuse) (applyResource s.key.gvr s.key.ns s.key.name s.body) c =
      stored refuse s c := by
  rw [applyResource_eq]
  cases hc : c.get s.key
  case none =>
    have hr := create_run refuse h hc
    have he : errNotFound.is errNotFound := by decide
    simpa [Prog.run, serve, answer, hc, he] using hr
  case some old =>
    have hr := update_run refuse h hc
    simpa [Prog.run, serve, answer, hc] using hr

end Run

-- Nothing that is required is refused.
def Accepts (refuse : Refusal) (ss : List Step) : Prop :=
  ∀ s ∈ ss, s.required → s.refusal refuse = none

instance : Decidable (Accepts refuse ss) :=
  inferInstanceAs (Decidable (∀ s ∈ ss, s.required → s.refusal refuse = none))

@[simp]
theorem accepts_nil : Accepts refuse [] :=
  fun _ h => (List.not_mem_nil h).elim

@[simp]
theorem accepts_cons :
    Accepts refuse (s :: ss) ↔ (s.required → s.refusal refuse = none) ∧ Accepts refuse ss := by
  simp [Accepts]

theorem accepts_append :
    Accepts refuse (ss ++ ss') ↔ Accepts refuse ss ∧ Accepts refuse ss' := by
  simp [Accepts, or_imp, forall_and]

theorem writes_append (refuse : Refusal) (ss ss' : List Step) :
    writes refuse (ss ++ ss') =
      writes refuse ss ++ if Accepts refuse ss then writes refuse ss' else [] := by
  induction ss
  case nil          => simp [writes]
  case cons s ss hi =>
    simp only [List.cons_append, writes, hi]
    cases hr : s.refusal refuse
    case none   => simp [hr]
    case some e => cases hq : s.required <;> simp [hr, hq]

theorem puts_append (c : Cluster) (ws ws' : List (Key × Fields)) :
    puts c (ws ++ ws') = puts (puts c ws) ws' :=
  List.foldl_append

-- The call writes what its steps say and succeeds unless one that is required is refused.
structure Realises (refuse : Refusal) (ss : List Step) (p : Call α) : Prop where
  world : ∀ c, (Prog.run (serve refuse) p c).2 = puts c (writes refuse ss)
  ok    : ∀ c, (∃ a, (Prog.run (serve refuse) p c).1 = .ok a) ↔ Accepts refuse ss

namespace Realises

variable {refuse : Refusal} {s : Step} {ss ss' : List Step} {p : Call α} {f : α → Call β}

theorem pure (a : α) : Realises refuse [] (pure a : Call α) where
  world _ := rfl
  ok _    := ⟨fun _ _ h => (List.not_mem_nil h).elim, fun _ => ⟨a, rfl⟩⟩

theorem seq (hp : Realises refuse ss p) (hf : ∀ a, Realises refuse ss' (f a)) :
    Realises refuse (ss ++ ss') (p >>= f) := by
  have h : ∀ c, (Prog.run (serve refuse) (p >>= f : Call β) c).2 = puts c (writes refuse (ss ++ ss')) ∧
      ((∃ b, (Prog.run (serve refuse) (p >>= f : Call β) c).1 = .ok b) ↔
        Accepts refuse (ss ++ ss')) := by
    intro c
    have hw := hp.world c
    have ho := hp.ok c
    rw [writes_append, accepts_append]
    cases hr : Prog.run (serve refuse) p c with
    | mk r c' =>
      rw [hr] at hw ho
      cases r with
      | error e =>
        have hn : ¬Accepts refuse ss := fun ha => by simpa using ho.mpr ha
        simpa [Call.run_seq_error hr, hn] using hw
      | ok a =>
        have ha : Accepts refuse ss := ho.mp ⟨a, rfl⟩
        have hc : c' = puts c (writes refuse ss) := hw
        simp [Call.run_seq_ok hr, ha, (hf a).world, (hf a).ok, puts_append, hc]
  exact ⟨fun c => (h c).left, fun c => (h c).right⟩

theorem required {gvr : GVR} {ns name : Str} {body : Fields}
    (h : Step.Proper ⟨⟨gvr, ns, name⟩, body, true⟩) (context : String) :
    Realises refuse [⟨⟨gvr, ns, name⟩, body, true⟩]
      ((applyResource gvr ns name body).mapError (.wrap context)) := by
  have hm : ∀ c, Prog.run (serve refuse)
      ((applyResource gvr ns name body).mapError (.wrap context) : Call Fields) c =
      ((stored refuse ⟨⟨gvr, ns, name⟩, body, true⟩ c).1.mapError (.wrap context),
        (stored refuse ⟨⟨gvr, ns, name⟩, body, true⟩ c).2) := by
    intro c
    have hm := @Call.run_mapError ops _ _ _ (serve refuse) (applyResource gvr ns name body)
      (.wrap context) c
    rwa [applyResource_run h] at hm
  constructor
  all_goals
    intro c
    rw [hm]
    cases he : Step.refusal refuse ⟨⟨gvr, ns, name⟩, body, true⟩ <;>
      simp [stored, writes, he, puts, Except.mapError]

theorem optional {gvr : GVR} {ns name : Str} {body : Fields}
    (h : Step.Proper ⟨⟨gvr, ns, name⟩, body, false⟩) {f : Except Error Fields → Call β}
    (hf : ∀ r, Realises refuse [] (f r)) :
    Realises refuse [⟨⟨gvr, ns, name⟩, body, false⟩]
      (attempt (applyResource gvr ns name body) >>= f) := by
  have ha : ∀ c, Prog.run (serve refuse) (attempt (applyResource gvr ns name body)) c =
      (.ok (stored refuse ⟨⟨gvr, ns, name⟩, body, false⟩ c).1,
        (stored refuse ⟨⟨gvr, ns, name⟩, body, false⟩ c).2) := by
    intro c
    have hb := @Prog.run_bind ops _ _ _ (serve refuse) (applyResource gvr ns name body)
      (fun r => .ret (.ok r : Except Error (Except Error Fields))) c
    rwa [applyResource_run h] at hb
  constructor
  all_goals
    intro c
    rw [Call.run_seq_ok (ha c)]
    cases he : Step.refusal refuse ⟨⟨gvr, ns, name⟩, body, false⟩ <;>
      simp [stored, writes, he, puts, (hf _).world, (hf _).ok]

end Realises

theorem gatewayResource_proper {gvr : GVR} {apiVersion kind : String} {ns name svc : Str}
    {spec : Fields} {required : Bool} (h : name ≠ []) :
    Step.Proper ⟨⟨gvr, ns, name⟩, gatewayResource apiVersion kind ns name svc spec, required⟩ where
  literal := by simpa only using gatewayResource_literal
  name    := by simp only [gatewayResource_name]
  ns      := by simp only [gatewayResource_namespace]
  named   := h

section Provision

variable {refuse : Refusal} {ns svcName : Str} {req : CreateAIGatewayRouteRequest}

theorem applyPolicy_realises :
    Realises refuse (policySteps ns svcName req) (applyPolicy ns svcName req) := by
  simp only [policySteps, CreateAIGatewayRouteRequest.limit, applyPolicy]
  cases req.rateLimit with
  | none    => exact .pure []
  | some rl =>
    by_cases hp : rl.requests ≤ 0
    case pos =>
      have hn : ¬0 < rl.requests := by omega
      simpa [Option.filter, hn, hp] using Realises.pure []
    case neg =>
      have hn : 0 < rl.requests := by omega
      have hs : (policyStep ns svcName rl).Proper := gatewayResource_proper (by simp [policyName])
      simp only [Option.filter, gt_iff_lt, hn, decide_true, if_true, Option.map_some, Option.toList, hp, if_false]
      exact (Realises.required hs _).seq fun obj => .pure _

theorem applyGrant_realises :
    Realises refuse (grantSteps ns svcName req) (applyGrant ns svcName req) := by
  simp only [grantSteps, applyGrant]
  split
  case isTrue h  => exact .pure []
  case isFalse h =>
    have hp : (grantStep ns svcName req).Proper := gatewayResource_proper (by simp [grantName])
    exact .optional hp fun r => by cases r <;> exact .pure _

theorem create_realises (h : svcName ≠ []) :
    Realises refuse (steps ns svcName req) (createAIGatewayRoute ns svcName req) := by
  have hb : (backendStep ns svcName req).Proper := gatewayResource_proper (by simp [backendName])
  have hr : (routeStep ns svcName req).Proper := gatewayResource_proper (by simp [routeName])
  simp only [createAIGatewayRoute, h, if_false]
  exact (Realises.required hb _).seq fun _ => (Realises.required hr _).seq fun _ =>
    applyPolicy_realises.seq fun _ => (List.append_nil (grantSteps ns svcName req)) ▸
      applyGrant_realises.seq fun _ => .pure _

theorem provision_named {c : Cluster} (h : (provision refuse ns svcName req c).1.isOk) :
    svcName ≠ [] := by
  rintro rfl
  cases h

theorem provision_isOk {c : Cluster} : (provision refuse ns svcName req c).1.isOk ↔
    svcName ≠ [] ∧ Accepts refuse (steps ns svcName req) := by
  constructor
  case mp =>
    intro h
    have hs := provision_named h
    refine ⟨hs, ((create_realises hs).ok c).mp ?_⟩
    unfold provision at h
    cases hr : (Prog.run (serve refuse) (createAIGatewayRoute ns svcName req) c).1
    case ok a    => exact ⟨a, rfl⟩
    case error e => simp [hr, Except.isOk, Except.toBool] at h
  case mpr =>
    intro ⟨hs, ha⟩
    have ⟨a, hr⟩ := ((create_realises hs).ok c).mpr ha
    simp [provision, hr, Except.isOk, Except.toBool]

-- Whether the call makes a grant. One that is refused is skipped.
def Grants (refuse : Refusal) (ns svcName : Str) (req : CreateAIGatewayRouteRequest) : Prop :=
  req.gwNS ≠ ns ∧ (grantStep ns svcName req).refusal refuse = none

instance : Decidable (Grants refuse ns svcName req) :=
  inferInstanceAs (Decidable (_ ∧ _))

theorem writes_sublist (refuse : Refusal) (ss : List Step) :
    ((writes refuse ss).map Prod.fst).Sublist (ss.map Step.key) := by
  induction ss
  case nil          => exact .slnil
  case cons s ss hi =>
    simp only [writes]
    split
    case h_1 => exact hi.cons_cons _
    case h_2 =>
      split
      case isTrue  => exact List.nil_sublist _
      case isFalse => exact hi.cons _

theorem mem_writes_step {w : Key × Fields} (h : w ∈ writes refuse ss) :
    ∃ s ∈ ss, w = (s.key, s.body) ∧ s.refusal refuse = none := by
  induction ss
  case nil          => cases h
  case cons s ss hi =>
    simp only [writes] at h
    split at h
    case h_1 hs =>
      cases List.mem_cons.mp h
      case inl h => exact ⟨s, .head _, h, hs⟩
      case inr h =>
        have ⟨t, ht, hw⟩ := hi h
        exact ⟨t, .tail _ ht, hw⟩
    case h_2 =>
      split at h
      case isTrue  => cases h
      case isFalse =>
        have ⟨t, ht, hw⟩ := hi h
        exact ⟨t, .tail _ ht, hw⟩

-- The steps come in order: nothing is written without the backend, nor a policy without the route.
theorem writes_order {w : Key × Fields} (h : w ∈ writes refuse (steps ns svcName req)) :
    ((backendStep ns svcName req).key, backendBody ns svcName req) ∈
      writes refuse (steps ns svcName req) ∧
    (w = ((backendStep ns svcName req).key, backendBody ns svcName req) ∨
      ((routeStep ns svcName req).key, routeBody ns svcName req) ∈
        writes refuse (steps ns svcName req)) := by
  have hqb : (backendStep ns svcName req).required = true := rfl
  have hqr : (routeStep ns svcName req).required = true := rfl
  simp only [steps, writes, hqb, hqr, if_true, backendStep_body, routeStep_body] at h ⊢
  cases hb : (backendStep ns svcName req).refusal refuse
  case some e => simp [hb] at h
  case none =>
    cases hr : (routeStep ns svcName req).refusal refuse
    case none   => simp
    case some e =>
      have he : w = ((backendStep ns svcName req).key, backendBody ns svcName req) := by
        simpa [hb, hr] using h
      simp [he]

theorem mem_steps {s : Step} (h : s ∈ steps ns svcName req) :
    s = backendStep ns svcName req ∨ s = routeStep ns svcName req ∨
    (∃ rl, s = policyStep ns svcName rl) ∨ s = grantStep ns svcName req := by
  simp only [steps, policySteps, grantSteps, List.mem_cons, List.mem_append, Option.mem_toList,
    Option.map_eq_some_iff] at h
  rcases h with h | h | ⟨rl, _, h⟩ | h
  · exact .inl h
  · exact .inr (.inl h)
  · exact .inr (.inr (.inl ⟨rl, h.symm⟩))
  · split at h
    case isTrue  => cases h
    case isFalse => exact .inr (.inr (.inr (List.mem_singleton.mp h)))

theorem steps_proper : ∀ s ∈ steps ns svcName req, s.Proper := by
  intro s hs
  rcases mem_steps hs with rfl | rfl | ⟨rl, rfl⟩ | rfl
  · exact gatewayResource_proper (by simp [backendName])
  · exact gatewayResource_proper (by simp [routeName])
  · exact gatewayResource_proper (by simp [policyName])
  · exact gatewayResource_proper (by simp [grantName])

-- A call that succeeds writes the backend and the route, and there is at most one write for a key.
theorem mem_writes (h : Accepts refuse (steps ns svcName req)) (w : Key × Fields) :
    w ∈ writes refuse (steps ns svcName req) ↔
      w = ((backendStep ns svcName req).key, backendBody ns svcName req) ∨
      w = ((routeStep ns svcName req).key, routeBody ns svcName req) ∨
      (∃ rl, req.limit = some rl ∧
        w = ((policyStep ns svcName rl).key, policyBody ns svcName rl)) ∨
      Grants refuse ns svcName req ∧
        w = ((grantStep ns svcName req).key, grantBody ns svcName req) := by
  simp only [steps, accepts_cons, accepts_append] at h
  have ⟨hb, hr, hp, _⟩ := h
  have hlimit : w ∈ writes refuse (policySteps ns svcName req) ↔ ∃ rl, req.limit = some rl ∧
      w = ((policyStep ns svcName rl).key, policyBody ns svcName rl) := by
    simp only [policySteps] at hp ⊢
    cases hl : req.limit
    case none => simp [writes]
    case some rl =>
      simp only [hl, Option.map_some, Option.toList_some, accepts_cons] at hp
      simp [writes, hp.left rfl]
  have hgrant : w ∈ writes refuse (grantSteps ns svcName req) ↔ Grants refuse ns svcName req ∧
      w = ((grantStep ns svcName req).key, grantBody ns svcName req) := by
    simp only [grantSteps]
    by_cases hg : req.gwNS = ns
    case pos => simp [hg, writes, Grants]
    case neg =>
      have hq : (grantStep ns svcName req).required = false := rfl
      cases hs : (grantStep ns svcName req).refusal refuse <;> simp [writes, Grants, hg, hs, hq]
  simp only [steps, writes, hb rfl, hr rfl, writes_append, hp, if_true, List.mem_cons,
    List.mem_append, hlimit, hgrant, backendStep_body, routeStep_body]

theorem writes_nodup (refuse : Refusal) (ns svcName : Str) (req : CreateAIGatewayRouteRequest) :
    ((writes refuse (steps ns svcName req)).map Prod.fst).Nodup := by
  apply (writes_sublist refuse _).nodup
  have hp : (policySteps ns svcName req).map Step.key =
      (req.limit.map fun _ => ⟨gvrBackendTrafficPolicy, ns, policyName svcName⟩).toList := by
    simp only [policySteps]
    cases req.limit <;> rfl
  have hg : (grantSteps ns svcName req).map Step.key =
      if req.gwNS = ns then [] else [⟨gvrReferenceGrant, ns, grantName svcName⟩] := by
    simp only [grantSteps]
    split <;> rfl
  simp only [steps, List.map_cons, List.map_append, hp, hg]
  cases req.limit <;> split <;>
    simp [backendStep, routeStep, gvrAIServiceBackend, gvrAIGatewayRoute, gvrBackendTrafficPolicy,
      gvrReferenceGrant]

-- What a call leaves of an earlier one for the same route: nothing, but for a rate limit or a grant
-- that it does not make itself.
theorem last_write_wins_iff {refuse₁ refuse₂ : Refusal} {ns svcName : Str}
    {r₁ r₂ : CreateAIGatewayRouteRequest} {c : Cluster}
    (h₁ : (provision refuse₁ ns svcName r₁ c).1.isOk)
    (h₂ : (provision refuse₂ ns svcName r₂ c).1.isOk) :
    (provision refuse₂ ns svcName r₂ (provision refuse₁ ns svcName r₁ c).2).2.content =
      (provision refuse₂ ns svcName r₂ c).2.content ↔
    (∀ rl, r₁.limit = some rl → r₂.limit = none →
      c.content ⟨gvrBackendTrafficPolicy, ns, policyName svcName⟩ =
        some (policyBody ns svcName rl)) ∧
    (Grants refuse₁ ns svcName r₁ → ¬Grants refuse₂ ns svcName r₂ →
      c.content ⟨gvrReferenceGrant, ns, grantName svcName⟩ = some (grantBody ns svcName r₁)) := by
  have ⟨hs, ha₁⟩ := provision_isOk.mp h₁
  have ⟨_, ha₂⟩ := provision_isOk.mp h₂
  simp only [provision, (create_realises hs).world, content_puts, Overwrite.absorbed_iff,
    Overwrite.lastWrite_eq_none_iff, Overwrite.lastWrite_eq_some_iff (writes_nodup ..),
    mem_writes ha₁, mem_writes ha₂]
  constructor
  case mp =>
    intro h
    constructor
    case left =>
      intro rl hl hn
      apply h _ _ (.inr (.inr (.inl ⟨rl, hl, rfl⟩)))
      simp [hn, backendStep, routeStep, grantStep, policyStep, gvrAIServiceBackend,
        gvrAIGatewayRoute, gvrBackendTrafficPolicy, gvrReferenceGrant]
    case right =>
      intro hg hn
      apply h _ _ (.inr (.inr (.inr ⟨hg, rfl⟩)))
      simp [hn, backendStep, routeStep, grantStep, policyStep, gvrAIServiceBackend,
        gvrAIGatewayRoute, gvrBackendTrafficPolicy, gvrReferenceGrant]
  case mpr =>
    rintro ⟨hp, hg⟩ k v (h | h | ⟨rl, hl, h⟩ | ⟨hG, h⟩) hn
    all_goals cases h
    · exact (hn (backendBody ns svcName r₂) (.inl rfl)).elim
    · exact (hn (routeBody ns svcName r₂) (.inr (.inl rfl))).elim
    · cases hl₂ : r₂.limit
      case none     => exact hp rl hl hl₂
      case some rl₂ => exact (hn _ (.inr (.inr (.inl ⟨rl₂, hl₂, rfl⟩)))).elim
    · by_cases hG₂ : Grants refuse₂ ns svcName r₂
      case pos => exact (hn _ (.inr (.inr (.inr ⟨hG₂, rfl⟩)))).elim
      case neg => exact hg hG hG₂

theorem acceptsAll_isOk (h : svcName ≠ []) (hs : 47 ∉ svcName) (c : Cluster) :
    (provision acceptsAll ns svcName req c).1.isOk := by
  have hb : 47 ∉ backendName svcName := List.not_mem_append hs (by decide)
  have hr : 47 ∉ routeName svcName := List.not_mem_append hs (by decide)
  have hp : 47 ∉ policyName svcName := List.not_mem_append hs (by decide)
  have hg : 47 ∉ grantName svcName := List.not_mem_append hs (by decide)
  apply provision_isOk.mpr ⟨h, ?_⟩
  simp only [steps, accepts_cons, accepts_append]
  refine ⟨fun _ => by simp [Step.refusal, backendStep, hb, acceptsAll],
    fun _ => by simp [Step.refusal, routeStep, hr, acceptsAll], ?_, ?_⟩
  case refine_1 =>
    simp only [policySteps]
    cases req.limit
    case none   => simp
    case some _ => simp [Step.refusal, policyStep, hp, acceptsAll]
  case refine_2 =>
    simp only [grantSteps]
    split
    case isTrue  => simp
    case isFalse => simp [Step.refusal, grantStep, hg, acceptsAll]

def plainRoute : CreateAIGatewayRouteRequest where
  gatewayNamespace := []
  gatewayName      := []
  hostnames        := []
  modelHeader      := []
  servicePort      := 0
  rateLimit        := none

def limitedRoute : CreateAIGatewayRouteRequest where
  gatewayNamespace := []
  gatewayName      := []
  hostnames        := [str "llm.example.com"]
  modelHeader      := []
  servicePort      := 8080
  rateLimit        := some ⟨100, str "Minute", [], true⟩

-- The form is sent again, with a rate limit that it had not had before.
theorem last_write_wins_iff_limited :
    (provision acceptsAll (str "team") (str "qwen") plainRoute .empty).1.isOk ∧
    (provision acceptsAll (str "team") (str "qwen") limitedRoute .empty).1.isOk ∧
    (provision acceptsAll (str "team") (str "qwen") limitedRoute
      (provision acceptsAll (str "team") (str "qwen") plainRoute .empty).2).2.content =
    (provision acceptsAll (str "team") (str "qwen") limitedRoute .empty).2.content := by
  have hs : str "qwen" ≠ [] ∧ 47 ∉ str "qwen" := by decide
  have h₁ : (provision acceptsAll (str "team") (str "qwen") plainRoute .empty).1.isOk :=
    acceptsAll_isOk hs.left hs.right _
  have h₂ : (provision acceptsAll (str "team") (str "qwen") limitedRoute .empty).1.isOk :=
    acceptsAll_isOk hs.left hs.right _
  have hl : plainRoute.limit = none := rfl
  have hg : Grants acceptsAll (str "team") (str "qwen") limitedRoute := by
    decide
  exact ⟨h₁, h₂, (last_write_wins_iff h₁ h₂).mpr ⟨by simp [hl], fun _ hn => (hn hg).elim⟩⟩

-- Without the limit that it had had, the limit stays.
theorem rate_limit_outlives :
    (provision acceptsAll (str "team") (str "qwen") limitedRoute .empty).1.isOk ∧
    (provision acceptsAll (str "team") (str "qwen") plainRoute .empty).1.isOk ∧
    (provision acceptsAll (str "team") (str "qwen") plainRoute
      (provision acceptsAll (str "team") (str "qwen") limitedRoute .empty).2).2.content ≠
    (provision acceptsAll (str "team") (str "qwen") plainRoute .empty).2.content := by
  have hs : str "qwen" ≠ [] ∧ 47 ∉ str "qwen" := by decide
  refine ⟨acceptsAll_isOk hs.left hs.right _, acceptsAll_isOk hs.left hs.right _, fun h => ?_⟩
  have hk := congrArg Option.isSome
    (congrFun h ⟨gvrBackendTrafficPolicy, str "team", policyName (str "qwen")⟩)
  revert hk
  decide

end Provision
end Inference

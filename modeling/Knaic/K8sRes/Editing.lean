import Knaic.Effects.Parties
import Knaic.K8sRes.Service

open Go Kube.Dynamic Effects Pool
open Kube (Fields mapOf)

namespace K8sRes

-- One object is opened as YAML, and what becomes of the text is sent back. The text is parsed by
-- the API, `none` when there is nothing in it.
structure Session where
  kind : Kind
  ns   : Str
  name : Str
  edit : Fields → Option Fields

def Session.key (s : Session) : Key :=
  s.kind.key s.ns s.name

def session (s : Session) : Call Fields := do
  let text ← yaml s.kind s.ns s.name
  K8sRes.update s.kind s.ns s.name (s.edit text)

-- What has come of the requests of the sessions, in order.
inductive Event
  | read (i : Nat) (key : Key) (version : Nat)
  | commit (i : Nat) (key : Key)
deriving DecidableEq

structure World where
  cluster : Cluster
  log     : List Event

def events (i : Nat) (op : ops.Op) (r : ops.Res op) (c : Cluster) : List Event :=
  match op, r with
  | .get key, .ok _         => ((c.get key).map fun s => .read i key s.version).toList
  | .create gvr ns o, .ok _ => [.commit i ⟨gvr, ns, o.getName⟩]
  | .update gvr ns o, .ok _ => [.commit i ⟨gvr, ns, o.getName⟩]
  | _, _                    => []

def pool (sessions : Nat → Session) : Pool ops Draw World Nat (Except Error Fields) where
  answer i op d w :=
    let a := answer op d w.cluster
    (a.1, ⟨a.2, w.log ++ events i op a.1 w.cluster⟩)
  env _ w := w
  code i := session (sessions i)

namespace Event

def owner : Event → Nat
  | read i _ _ | commit i _ => i

def Reads (i : Nat) (key : Key) : Event → Prop
  | read j k _ => j = i ∧ k = key
  | commit _ _ => False

theorem Reads.owner {e : Event} (h : e.Reads i key) : e.owner = i := by
  cases e
  case read   => exact h.left
  case commit => exact h.elim

-- A change that another session has made.
def Overtakes (i : Nat) (key : Key) : Event → Prop
  | read _ _ _ => False
  | commit j k => j ≠ i ∧ k = key

-- The version is the one that the session was shown.
def Shows (i : Nat) (key : Key) (version : Str) : Event → Prop
  | read j k v => j = i → k = key → version = decimal v
  | commit _ _ => True

instance : DecidablePred (Reads i key)
  | read _ _ _ => inferInstanceAs (Decidable (_ ∧ _))
  | commit _ _ => isFalse id

instance : DecidablePred (Overtakes i key)
  | read _ _ _ => isFalse id
  | commit _ _ => inferInstanceAs (Decidable (_ ∧ _))

instance : DecidablePred (Shows i key version)
  | read _ _ _ => inferInstanceAs (Decidable (_ → _ → _))
  | commit _ _ => isTrue trivial

end Event

-- Another session has changed the object since the session has first read it.
def Overtaken (i : Nat) (key : Key) (log : List Event) : Prop :=
  ∃ x ∈ log, ∃ y ∈ log, x.Reads i key ∧ y.Overtakes i key ∧ [x, y].Sublist log

instance : Decidable (Overtaken i key log) :=
  inferInstanceAs (Decidable (∃ x ∈ log, ∃ y ∈ log, _))

-- An update has gone through over such a change.
def Loses (log : List Event) : Prop :=
  ∃ i key x y, x.Reads i key ∧ y.Overtakes i key ∧ [x, y, .commit i key].Sublist log

-- An update looks the object up anew only while it is still as the session has read it, and a text
-- that brings the current resource version by itself brings the one that was read.
def Informed : Condition ops Draw World Nat
  | i, .get key, _, w         => ¬Overtaken i key w.log
  | i, .update gvr ns o, _, w =>
    w.log.countP (Event.Reads i ⟨gvr, ns, o.getName⟩ ·) = 1 →
    (w.cluster.get ⟨gvr, ns, o.getName⟩).map (decimal ·.version) = some o.getResourceVersion →
    ∀ e ∈ w.log, e.Shows i ⟨gvr, ns, o.getName⟩ o.getResourceVersion
  | _, _, _, _                => True

instance (i : Nat) (op : ops.Op) (d : Draw) (w : World) : Decidable (Informed i op d w) :=
  match op with
  | .get key                => inferInstanceAs (Decidable (¬Overtaken i key w.log))
  | .update _ _ _           =>
    inferInstanceAs (Decidable (_ = 1 → _ = some _ → ∀ e ∈ w.log, e.Shows i _ _))
  | .list _ | .create _ _ _ => isTrue trivial

section Sublists

variable {α : Type} {x y z e : α} {l l' : List α}

theorem sublist_concat {m : List α} :
    (m ++ [z]).Sublist (l ++ [e]) ↔ (m ++ [z]).Sublist l ∨ z = e ∧ m.Sublist l := by
  have h : ∀ a b : List α, a.Sublist b ↔ a.reverse.Sublist b.reverse :=
    fun _ _ => List.reverse_sublist.symm
  rw [h (m ++ [z]) (l ++ [e]), h (m ++ [z]) l, h m l]
  simp [List.cons_sublist_cons']

theorem pair_concat : [x, y].Sublist (l ++ [e]) ↔ [x, y].Sublist l ∨ y = e ∧ x ∈ l := by
  simpa using sublist_concat (m := [x]) (z := y) (l := l) (e := e)

theorem triple_concat :
    [x, y, z].Sublist (l ++ [e]) ↔ [x, y, z].Sublist l ∨ z = e ∧ [x, y].Sublist l := by
  simpa using sublist_concat (m := [x, y]) (z := z) (l := l) (e := e)

theorem pair_append (h : [x, y].Sublist (l ++ l')) : [x, y].Sublist l ∨ y ∈ l' := by
  have ⟨a, b, hab, ha, hb⟩ := List.sublist_append_iff.mp h
  rcases b.eq_nil_or_concat with rfl | ⟨b, z, rfl⟩
  case inl => exact .inl (by simpa [hab] using ha)
  case inr =>
    have hl := congrArg List.getLast? hab
    have hz : y = z := by simpa [← List.append_assoc] using hl
    exact .inr (hb.subset (by simp [hz]))

theorem pair_of_mem (hx : x ∈ l) (hy : y ∈ l') : [x, y].Sublist (l ++ l') :=
  (List.singleton_sublist.mpr hx).append (List.singleton_sublist.mpr hy)

end Sublists

-- What is stored has metadata, and no version that the cluster has not come to yet.
structure Proper (c : Cluster) : Prop where
  metadata : ∀ key s, c.get key = some s → ∃ m, s.content.get (str "metadata") = some (.obj m)
  bounded  : ∀ key s, c.get key = some s → s.version ≤ c.revision

namespace Proper

variable {c : Cluster} {key : Key} {o m : Fields}

theorem empty : Proper .empty where
  metadata _ _ hs := by cases hs
  bounded _ _ hs  := by cases hs

theorem put (h : Proper c) (ho : o.get (str "metadata") = some (.obj m)) :
    Proper (c.put key o) where
  metadata k s hs := by
    rw [Cluster.get_put] at hs
    split at hs
    case isTrue  => cases hs; exact ⟨m, ho⟩
    case isFalse => exact h.metadata k s hs
  bounded k s hs := by
    rw [Cluster.get_put] at hs
    split at hs
    case isTrue  => cases hs; exact Nat.le_refl _
    case isFalse => exact Nat.le_succ_of_le (h.bounded k s hs)

theorem view_version (h : Proper c) (hs : c.get key = some s) :
    s.view.getResourceVersion = decimal s.version := by
  have ⟨m, hm⟩ := h.metadata key s hs
  exact Fields.getResourceVersion_set hm (decimal_ne_nil _)

end Proper

-- A change that comes after a read leaves the object with a later version.
structure Inv (w : World) : Prop where
  proper : Proper w.cluster
  known  : ∀ i key v, .read i key v ∈ w.log → v ≤ w.cluster.revision
  since  : ∀ i j key v, [.read i key v, .commit j key].Sublist w.log →
             ∃ s, w.cluster.get key = some s ∧ v < s.version
  kept   : ¬Loses w.log

namespace Inv

variable {w : World} {i : Nat} {key : Key} {s : Stored} {o m : Fields}

theorem read (h : Inv w) (hs : w.cluster.get key = some s) (i : Nat) :
    Inv ⟨w.cluster, w.log ++ [.read i key s.version]⟩ where
  proper := h.proper
  known j k v hm := by
    cases List.mem_append.mp hm
    case inl hm => exact h.known j k v hm
    case inr hm =>
      cases List.mem_singleton.mp hm
      exact h.proper.bounded key s hs
  since j j' k v hp := by
    cases pair_concat.mp hp
    case inl hp => exact h.since j j' k v hp
    case inr hp => cases hp.left
  kept := by
    rintro ⟨j, k, x, y, hx, hy, hl⟩
    cases triple_concat.mp hl
    case inl hl => exact h.kept ⟨j, k, x, y, hx, hy, hl⟩
    case inr hl => cases hl.left

theorem commit (h : Inv w) (hm : o.get (str "metadata") = some (.obj m))
    (ho : ¬Overtaken i key w.log) : Inv ⟨w.cluster.put key o, w.log ++ [.commit i key]⟩ where
  proper := h.proper.put hm
  known j k v hm := by
    cases List.mem_append.mp hm
    case inl hm => exact Nat.le_succ_of_le (h.known j k v hm)
    case inr hm => cases List.mem_singleton.mp hm
  since j j' k v hp := by
    have hv : v ≤ w.cluster.revision := by
      have hr : .read j k v ∈ w.log ++ [.commit i key] := hp.subset (by simp)
      exact h.known j k v (by simpa using hr)
    simp only [Cluster.get_put]
    split
    case isTrue  => exact ⟨_, rfl, Nat.lt_succ_of_le hv⟩
    case isFalse hk =>
      cases pair_concat.mp hp
      case inl hp => exact h.since j j' k v hp
      case inr hp => cases hp.left; exact (hk rfl).elim
  kept := by
    rintro ⟨j, k, x, y, hx, hy, hl⟩
    cases triple_concat.mp hl
    case inl hl => exact h.kept ⟨j, k, x, y, hx, hy, hl⟩
    case inr hl =>
      cases hl.left
      exact ho ⟨x, hl.right.subset (by simp), y, hl.right.subset (by simp), hx, hy, hl.right⟩

-- As long as the object has the version of a read, nothing has come after that read.
theorem unchanged (h : Inv w) (hs : w.cluster.get key = some s) {y : Event}
    (hy : y.Overtakes i key) : ¬[.read i key s.version, y].Sublist w.log := by
  intro hp
  cases y
  case read       => exact hy
  case commit j k =>
    have ⟨_, hk⟩ := hy
    subst hk
    have ⟨s', hs', hv⟩ := h.since i j k s.version hp
    cases hs.symm.trans hs'
    exact Nat.lt_irrefl _ hv

end Inv

theorem owner_of_mem_events {op : ops.Op} {r : ops.Res op} (h : e ∈ events i op r c) :
    e.owner = i := by
  cases op
  all_goals
    cases r
    all_goals
      simp only [events, Option.mem_toList, Option.map_eq_some_iff, List.mem_singleton,
        List.not_mem_nil] at h
  case get.ok     => have ⟨s, _, he⟩ := h; exact he ▸ rfl
  case create.ok  => exact h ▸ rfl
  case update.ok  => exact h ▸ rfl

-- The others may do as they please, in their own name.
def pact (sessions : Nat → Session) : Pact (pool sessions) where
  inv           := Inv
  rely i w w'   := ∃ l, w'.log = w.log ++ l ∧ ∀ e ∈ l, e.owner ≠ i
  idle i w      := ∀ e ∈ w.log, e.owner ≠ i
  keeps _ _ _ _ := True
  refl i w      := ⟨[], by simp, by simp⟩
  trans         := by
    rintro i w₁ w₂ w₃ ⟨l, hl, ho⟩ ⟨l', hl', ho'⟩
    exact ⟨l ++ l', by simp [hl, hl'], by simpa [or_imp, forall_and] using ⟨ho, ho'⟩⟩
  env_inv h     := h
  env_rely _    := ⟨[], by simp [pool], by simp⟩
  idle_stable   := by
    rintro i w w' h ⟨l, hl, ho⟩
    simpa [hl, or_imp, forall_and] using ⟨h, ho⟩

section Safe

variable {sessions : Nat → Session} {i : Nat} {key : Key} {o : Fields} {w : World} {d : Draw}

theorem does {op : ops.Op} (h : Inv ((pool sessions).answer i op d w).2) :
    (pact sessions).Does i op d w where
  keeps    := trivial
  inv      := h
  rely _ hj := ⟨_, rfl, fun _ he => (owner_of_mem_events he).trans_ne hj.symm⟩

theorem get_cases (sessions : Nat → Session) (i : Nat) (key : Key) (d : Draw) (w : World) :
    (∃ e, (pool sessions).answer i (.get key) d w = (.error e, w)) ∨
    ∃ s, w.cluster.get key = some s ∧ (pool sessions).answer i (.get key) d w =
      (.ok s.view, ⟨w.cluster, w.log ++ [.read i key s.version]⟩) := by
  rcases answer_get_cases key d w.cluster with ⟨e, he⟩ | ⟨s, hs, he⟩
  case inl => exact .inl ⟨e, by simp [pool, he, events]⟩
  case inr => exact .inr ⟨s, hs, by simp [pool, he, events, hs]⟩

theorem update_cases (sessions : Nat → Session) (i : Nat) (gvr : GVR) (ns : Str) (o : Fields)
    (d : Draw) (w : World) :
    (∃ e, (pool sessions).answer i (.update gvr ns o) d w = (.error e, w)) ∨
    o.getName ≠ [] ∧ ∃ old, w.cluster.get ⟨gvr, ns, o.getName⟩ = some old ∧
      (o.getResourceVersion = [] ∨ o.getResourceVersion = decimal old.version) ∧
      ((pool sessions).answer i (.update gvr ns o) d w).2 =
        ⟨w.cluster.put ⟨gvr, ns, o.getName⟩ o.removeResourceVersion,
          w.log ++ [.commit i ⟨gvr, ns, o.getName⟩]⟩ := by
  rcases answer_update_cases gvr ns o d w.cluster with ⟨e, he⟩ | ⟨hn, old, hs, hv, he⟩
  case inl => exact .inl ⟨e, by simp [pool, he, events]⟩
  case inr => exact .inr ⟨hn, old, hs, hv, by simp [pool, he, events, store]⟩

theorem safe_get {k : Except Error Fields → Prog ops (Except Error Fields)}
    (he : ∀ e, ∃ r, k (.error e) = .ret r)
    (hk : ∀ w₁ s, (pact sessions).rely i w w₁ → Inv w₁ → w₁.cluster.get key = some s →
      (∃ d, Informed i (.get key) d w₁) →
      (pact sessions).Safe Informed i (fun _ _ => True) (k (.ok s.view))
        ⟨w₁.cluster, w₁.log ++ [.read i key s.version]⟩) :
    (pact sessions).Safe Informed i (fun _ _ => True) (@Prog.call ops _ (.get key) k) w := by
  intro w₁ hr hi d hp
  rcases get_cases sessions i key d w₁ with ⟨e, ha⟩ | ⟨s, hs, ha⟩
  case inl =>
    have ⟨r, hr⟩ := he e
    refine ⟨does (by rw [ha]; exact hi), ?_⟩
    rw [ha, hr]
    exact fun _ _ _ => trivial
  case inr =>
    refine ⟨does (by rw [ha]; exact hi.read hs i), ?_⟩
    rw [ha]
    exact hk w₁ s hr hi hs ⟨d, hp⟩

-- An update that carries a version is all right if the version is not current once another session
-- has come in between.
theorem safe_update (hk : key = ⟨gvr, ns, o.getName⟩) (hv : o.getResourceVersion ≠ [])
    (h : ∀ w₁ old, (pact sessions).rely i w w₁ → Inv w₁ → w₁.cluster.get key = some old →
      (∃ d, Informed i (.update gvr ns o) d w₁) → o.getResourceVersion = decimal old.version →
      ¬Overtaken i key w₁.log) :
    (pact sessions).Safe Informed i (fun _ _ => True) (Kube.Dynamic.update gvr ns o) w := by
  intro w₁ hr hi d hp
  refine ⟨does ?_, fun _ _ _ => trivial⟩
  subst hk
  rcases update_cases sessions i gvr ns o d w₁ with ⟨e, ha⟩ | ⟨hn, old, hs, hc, ha⟩
  case inl => rw [ha]; exact hi
  case inr =>
    have ⟨m, hm⟩ := Fields.metadata_of_getName hn
    have hm : o.removeResourceVersion.get (str "metadata") =
        some (.obj (Entries.erase m (str "resourceVersion"))) := by
      simp [Fields.removeResourceVersion, hm]
    rw [ha]
    exact hi.commit hm (h w₁ old hr hi hs ⟨d, hp⟩ (hc.resolve_left hv))

theorem session_eq (s : Session) : session s =
    @Prog.call ops _ (.get s.key) fun r : Except Error Fields =>
      match r with
      | .error e => .ret (.error e)
      | .ok o    => K8sRes.update s.kind s.ns s.name (s.edit (stripServerFields o)) := by
  refine congrArg (@Prog.call ops _ (.get s.key)) ?_
  funext r
  cases r <;> rfl

-- What the session has done so far is to read the object once.
def Seen (i : Nat) (key : Key) (version : Nat) (w : World) : Prop :=
  w.log.filter (·.owner = i) = [.read i key version]

theorem Seen.stable (h : Seen i key v w) (hr : (pact sessions).rely i w w') : Seen i key v w' := by
  have ⟨l, hl, ho⟩ := hr
  have hn : l.filter (·.owner = i) = [] := by simpa using ho
  simpa [Seen, hl, hn] using h

theorem Seen.of_idle (h : (pact sessions).idle i w) (c : Cluster) (key : Key) (v : Nat) :
    Seen i key v ⟨c, w.log ++ [.read i key v]⟩ := by
  have hn : w.log.filter (·.owner = i) = [] := by simpa using show ∀ e ∈ w.log, e.owner ≠ i from h
  rw [Seen, List.filter_append, hn]
  simp [Event.owner]

theorem Seen.eq_of_reads (h : Seen i key v w) (he : e ∈ w.log) (hr : e.Reads i key) :
    e = .read i key v := by
  have hm : e ∈ w.log.filter (·.owner = i) := by simpa [hr.owner] using he
  rw [h] at hm
  exact List.mem_singleton.mp hm

theorem Seen.countP (h : Seen i key v w) : w.log.countP (Event.Reads i key ·) = 1 := by
  have hc : (w.log.filter (·.owner = i)).countP (Event.Reads i key ·) = 1 := by
    rw [h]
    simp [Event.Reads]
  rw [List.countP_filter] at hc
  rw [← hc]
  refine List.countP_congr fun e _ => ?_
  simpa using Event.Reads.owner

-- A version that the session brings along is that of its read, so it is not current any more once
-- the session is overtaken.
theorem safe_informed {u : Fields} (h : Seen i key v w) (hk : key = ⟨gvr, ns, u.getName⟩)
    (hu : u.getResourceVersion ≠ []) :
    (pact sessions).Safe Informed i (fun _ _ => True) (Kube.Dynamic.update gvr ns u) w := by
  refine safe_update hk hu fun w₁ old hr hi hs ⟨d, hp⟩ hv ⟨x, hx, y, hy, hxr, hyo, hl⟩ => ?_
  have h₁ := h.stable hr
  subst hk
  have hm : .read i ⟨gvr, ns, u.getName⟩ v ∈ w₁.log := by
    have hx' := h₁.eq_of_reads hx hxr
    exact hx' ▸ hx
  have hc := hp h₁.countP (by rw [hs, hv]; rfl) _ hm rfl rfl
  have he : v = old.version := decimal_inj.mp (hc.symm.trans hv)
  cases h₁.eq_of_reads hx hxr
  exact hi.unchanged hs hyo (he ▸ hl)

-- A version that was looked up when nobody had overtaken the session is not current any more once
-- somebody has.
theorem safe_renewed {u : Fields} (hk : key = ⟨gvr, ns, u.getName⟩)
    (hu : u.getResourceVersion = decimal v) (hm : .read i key v ∈ w.log)
    (ho : ¬Overtaken i key w.log) :
    (pact sessions).Safe Informed i (fun _ _ => True) (Kube.Dynamic.update gvr ns u) w := by
  have hn : u.getResourceVersion ≠ [] := hu ▸ decimal_ne_nil v
  refine safe_update hk hn fun w₁ old hr hi hs _ hv ⟨x, hx, y, hy, hxr, hyo, hl⟩ => ?_
  have he : v = old.version := decimal_inj.mp (hu.symm.trans hv)
  have ⟨l, hw, _⟩ := hr
  rw [hw] at hl
  cases pair_append hl
  case inl hl =>
    exact ho ⟨x, hl.subset (by simp), y, hl.subset (by simp), hxr, hyo, hl⟩
  case inr hy =>
    have hp : [.read i key v, y].Sublist w₁.log := hw ▸ pair_of_mem hm hy
    exact hi.unchanged hs hyo (he ▸ hp)

theorem safe_save {k : Kind} (h : Seen i (k.key ns name) v w) (obj : Option Fields) :
    (pact sessions).Safe Informed i (fun _ _ => True) (K8sRes.update k ns name obj) w := by
  by_cases hr : name = [] ∨ ∃ e, normaliseObject k ns name obj = .error e
  case pos =>
    have ⟨e, he⟩ := update_refused hr
    rw [he]
    exact fun _ _ _ => trivial
  case neg =>
    have hn : name ≠ [] := fun h => hr (.inl h)
    cases hu : normaliseObject k ns name obj
    case error e => exact (hr (.inr ⟨e, hu⟩)).elim
    case ok u    =>
      have ⟨hname, m, hm⟩ := normaliseObject_ok hu hn
      rw [update_eq hu hn]
      split
      case isFalse hv => exact safe_informed h (by simp [Kind.key, hname]) hv
      case isTrue =>
        refine safe_get (fun e => ⟨_, rfl⟩) fun w₁ s _ hi hs ⟨_, ho⟩ => ?_
        have hu' : (u.setResourceVersion s.view.getResourceVersion).getResourceVersion =
            decimal s.version := by
          rw [hi.proper.view_version hs, Fields.getResourceVersion_set hm (decimal_ne_nil _)]
        have hk : k.key ns name = ⟨k.gvr, (k.key ns name).ns,
            (u.setResourceVersion s.view.getResourceVersion).getName⟩ := by
          simp [Kind.key, hname]
        refine safe_renewed hk hu' (List.mem_append_right _ (by simp)) ?_
        rintro ⟨x, hx, y, hy, hxr, hyo, hl⟩
        cases pair_concat.mp hl
        case inl hl =>
          exact ho ⟨x, hl.subset (by simp), y, hl.subset (by simp), hxr, hyo, hl⟩
        case inr hl =>
          rw [hl.left] at hyo
          exact hyo

theorem keeps (sessions : Nat → Session) : (pact sessions).Keeps Informed := by
  intro i w _ hidle
  simp only [pool, session_eq]
  refine safe_get (fun e => ⟨_, rfl⟩) fun w₁ s hr _ _ _ => ?_
  have hw : (pact sessions).idle i w₁ := (pact sessions).idle_stable hidle hr
  exact safe_save (.of_idle hw ..) _

end Safe

theorem Proper.start {c : Cluster} (h : Proper c) : Inv ⟨c, []⟩ where
  proper         := h
  known _ _ _ hm := by cases hm
  since _ _ _ _ hp := by cases hp
  kept           := by
    rintro ⟨_, _, _, _, _, _, hl⟩
    cases hl

theorem informed_no_loss {sessions : Nat → Session} {c : Cluster} (h : Proper c)
    {ps : List (Pick Draw Nat)}
    (hp : (pool sessions).Throughout (fun c p => Fresh c p ∧ Meets Informed c p) ps ⟨⟨c, []⟩, []⟩) :
    ¬Loses ((pool sessions).run ⟨⟨c, []⟩, []⟩ ps).world.log := by
  have hs : (pact sessions).Holds Informed ⟨⟨c, []⟩, []⟩ := {
    inv      := h.start
    safe p h := by cases h
    apart    := List.nodup_nil
    idle i _ := fun e h => by cases h
  }
  exact (hs.throughout (keeps sessions) hp).right.inv.kept

section Runs

def configMap : Kind where
  slug       := str "configmaps"
  gvr        := ⟨[], str "v1", str "configmaps"⟩
  namespaced := true

def configKey : Key :=
  configMap.key (str "team-ml") (str "runtime-config")

def shipped : Cluster :=
  Cluster.empty.put configKey (mapOf [
    ("apiVersion", .string (str "v1")),
    ("kind", .string (str "ConfigMap")),
    ("metadata", .obj (mapOf [
      ("name", .string (str "runtime-config")),
      ("namespace", .string (str "team-ml"))])),
    ("data", .obj [])])

theorem shipped_proper : Proper shipped :=
  Proper.empty.put (by simp [mapOf, Entries.get_set]; rfl)

-- Each session adds an entry of its own to the data.
def editor (i : Nat) : Session where
  kind   := configMap
  ns     := str "team-ml"
  name   := str "runtime-config"
  edit o := o.setNestedField (.bool true) [str "data", decimal i]

def served : Draw :=
  ⟨none, acceptsAll⟩

def inTurn : List (Pick Draw Nat) :=
  .start 0 :: List.replicate 3 (.act 0 served) ++ .start 1 :: List.replicate 3 (.act 1 served)

theorem informed_no_loss_in_turn :
    ¬Loses ((pool editor).run ⟨⟨shipped, []⟩, []⟩ inTurn).world.log :=
  informed_no_loss shipped_proper (by decide)

-- Both sessions have the object open when the second is saved, and then the first.
def atOnce : List (Pick Draw Nat) :=
  [.start 0, .start 1, .act 0 served, .act 1 served, .act 1 served, .act 1 served, .act 0 served,
    .act 0 served]

theorem saved_over :
    ¬∀ sessions c ps, Proper c → (pool sessions).Throughout Fresh ps ⟨⟨c, []⟩, []⟩ →
      ¬Loses ((pool sessions).run ⟨⟨c, []⟩, []⟩ ps).world.log := by
  intro h
  have hf : (pool editor).Throughout Fresh atOnce ⟨⟨shipped, []⟩, []⟩ := by decide
  have hl : ((pool editor).run ⟨⟨shipped, []⟩, []⟩ atOnce).world.log =
      [.read 0 configKey 1, .read 1 configKey 1, .read 1 configKey 1, .commit 1 configKey,
        .read 0 configKey 2, .commit 0 configKey] := by
    decide
  refine h editor shipped atOnce shipped_proper hf ?_
  rw [hl]
  exact ⟨0, configKey, .read 0 configKey 1, .commit 1 configKey, ⟨rfl, rfl⟩, ⟨by decide, rfl⟩,
    by decide⟩

end Runs
end K8sRes

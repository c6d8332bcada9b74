import Knaic.Effects.Commit
import Knaic.Gpu.Profiles

open Go Effects

namespace Gpu

open Contract (Ok)

def ConfigMap.entry (cm : ConfigMap) (id : Str) : Option Raw :=
  (cm.data.getD ∅).lookup id

def entry (c : Cluster) (id : Str) : Option Raw :=
  c.bind fun s => s.entry id

-- As long as a resource version is current, so is what was read with it.
def Grows (c c' : Cluster) : Prop :=
  ∀ s, c = some s → ∃ s', c' = some s' ∧ s.resourceVersion ≤ s'.resourceVersion ∧
  (s.resourceVersion = s'.resourceVersion → s' = s)

theorem Grows.refl (c : Cluster) : Grows c c :=
  fun s h => ⟨s, h, Nat.le_refl _, fun _ => rfl⟩

theorem Grows.trans {c₁ c₂ c₃ : Cluster} (h : Grows c₁ c₂) (h' : Grows c₂ c₃) : Grows c₁ c₃ := by
  intro s hs
  have ⟨s₂, hs₂, hl₂, he₂⟩ := h s hs
  have ⟨s₃, hs₃, hl₃, he₃⟩ := h' s₂ hs₂
  refine ⟨s₃, hs₃, hl₂.trans hl₃, fun he => ?_⟩
  have h₂ : s.resourceVersion = s₂.resourceVersion := by omega
  have h₃ : s₂.resourceVersion = s₃.resourceVersion := by omega
  exact (he₃ h₃).trans (he₂ h₂)

-- The content that was read, or the one that has come into being.
def Current (cm : ConfigMap) (c : Cluster) : Prop :=
  ∃ s, c = some s ∧ s.toConfigMap = cm

namespace Change

def raw : Change → Option Raw
  | .put p  => some (.json p)
  | .drop _ => none

-- Calls do not touch the profiles that are built in, nor store a profile as one of them.
structure Well (a : Change) : Prop where
  custom : ¬isBuiltinID a.id
  plain  : ∀ p, a = .put p → ¬p.builtin

end Change

structure Same (c c' : Cluster) : Prop where
  grows : Grows c c'
  entry : ∀ id, entry c' id = entry c id

structure Takes (a : Change) (c c' : Cluster) : Prop where
  grows : Grows c c'
  well  : a.Well
  entry : entry c' a.id = a.raw
  other : ∀ id, id ≠ a.id → Gpu.entry c' id = Gpu.entry c id

variable {typed : Bool} {i : Kind} {c c' : Cluster} {d : Draw} {cm : ConfigMap} {a : Change}

theorem Same.refl (c : Cluster) : Same c c where
  grows   := .refl c
  entry _ := rfl

def Effect : Except Error Change → Cluster → Cluster → Prop
  | .ok a    => Takes a
  | .error _ => Same

theorem Effect.grows {r : Except Error Change} (h : Effect r c c') : Grows c c' := by
  cases r
  case ok    => exact Takes.grows h
  case error => exact Same.grows h

def protocol (typed : Bool) : Protocol (pool typed) where
  rely             := Grows
  quiet            := Same
  effect           := Effect
  refl             := .refl
  trans            := .trans
  quiet_refl       := .refl
  quiet_rely h     := h.grows
  effect_rely h    := h.grows
  env_quiet _      := .refl

section Requests

variable (cm : ConfigMap) (d : Draw) (c : Cluster)

theorem unlessFailed_cases (r : Except Error ConfigMap × Cluster) :
    (∃ e, unlessFailed d c r = (.error e, c)) ∨ unlessFailed d c r = r := by
  unfold unlessFailed
  split
  case h_1     => exact .inr rfl
  case h_2 e _ => exact .inl ⟨e, rfl⟩

theorem get_answer :
    (∃ e, answer .get d c = (.error e, c)) ∨
    ∃ s : Stored, c = some s ∧ answer .get d c = (.ok s.toConfigMap, c) := by
  cases unlessFailed_cases d c c.get
  case inl h => exact .inl h
  case inr h =>
    cases c
    case none   => exact .inl ⟨_, h⟩
    case some s => exact .inr ⟨s, rfl, h⟩

theorem create_answer :
    (∃ e, answer (.create cm) d c = (.error e, c)) ∨
    c = none ∧ ∃ s : Stored, s.data = cm.data ∧
      answer (.create cm) d c = (.ok s.toConfigMap, some s) := by
  cases unlessFailed_cases d c (c.create cm d.gap)
  case inl h => exact .inl h
  case inr h =>
    cases c
    case some => exact .inl ⟨_, h⟩
    case none =>
      let new := { cm with resourceVersion := d.gap + 1 }
      exact .inr ⟨rfl, ⟨new, Nat.succ_ne_zero _⟩, rfl, h⟩

-- An update that is accepted replaces what was read.
theorem update_answer :
    (∃ e, answer (.update cm) d c = (.error e, c)) ∨
    ∃ old s : Stored, c = some old ∧
      (cm.resourceVersion ≠ 0 → cm.resourceVersion = old.resourceVersion) ∧
      old.resourceVersion < s.resourceVersion ∧ s.data = cm.data ∧
      answer (.update cm) d c = (.ok s.toConfigMap, some s) := by
  cases unlessFailed_cases d c (c.update cm d.gap)
  case inl h => exact .inl h
  case inr h =>
    cases c
    case none     => exact .inl ⟨_, h⟩
    case some old =>
      have h : answer (.update cm) d (some old) = _ := h
      simp only [Cluster.update] at h
      split at h
      case isTrue     => exact .inl ⟨_, h⟩
      case isFalse hv =>
        let new := { cm with resourceVersion := old.resourceVersion + d.gap + 1 }
        have hl : old.resourceVersion < new.resourceVersion := by
          show _ < _ + _ + 1
          omega
        exact .inr ⟨old, ⟨new, Nat.succ_ne_zero _⟩, rfl, by tauto, hl, rfl, h⟩

end Requests

theorem createMap_same (s : Stored) (h : s.data = some ∅) : Same none (some s) where
  grows _ h := by cases h
  entry id  := by simp [entry, ConfigMap.entry, h]

theorem get_quiet : (protocol typed).Quiet i (Ok Current) get c := by
  intro c₁ _ d
  cases get_answer d c₁
  case inl h =>
    have ⟨e, ha⟩ := h
    have ha : (pool typed).answer i .get d c₁ = _ := ha
    rw [ha]
    exact ⟨.refl c₁, trivial⟩
  case inr h =>
    have ⟨s, hc, ha⟩ := h
    have ha : (pool typed).answer i .get d c₁ = _ := ha
    rw [ha]
    exact ⟨.refl c₁, s, hc, rfl⟩

theorem createMap_quiet :
    (protocol typed).Quiet i (Ok Current) (createMap ⟨profileLabels, some ∅, 0⟩) c := by
  intro c₁ _ d
  cases create_answer ⟨profileLabels, some ∅, 0⟩ d c₁
  case inl h =>
    have ⟨e, ha⟩ := h
    have ha : (pool typed).answer i (.create ⟨profileLabels, some ∅, 0⟩) d c₁ = _ := ha
    rw [ha]
    exact ⟨.refl c₁, trivial⟩
  case inr h =>
    have ⟨hc, s, hd, ha⟩ := h
    subst hc
    have ha : (pool typed).answer i (.create ⟨profileLabels, some ∅, 0⟩) d none = _ := ha
    rw [ha]
    exact ⟨createMap_same s hd, s, rfl, rfl⟩

theorem getOrCreate_quiet : (protocol typed).Quiet i (Ok Current) getOrCreate c := by
  refine Protocol.Quiet.recover get_quiet (fun cm _ h => h) fun e c₁ => ?_
  dsimp only
  split
  case isTrue  => trivial
  case isFalse =>
    refine Protocol.Quiet.recover createMap_quiet (fun cm _ h => h) fun e c₂ => ?_
    dsimp only
    split
    case isTrue  => exact get_quiet
    case isFalse => trivial

-- An update of what was read is the change or nothing at all.
theorem updateMap_commits {cm' : ConfigMap} (h : Current cm c)
    (hv : cm'.resourceVersion = cm.resourceVersion) (hw : a.Well) (he : cm'.entry a.id = a.raw)
    (ho : ∀ id, id ≠ a.id → cm'.entry id = cm.entry id) :
    (protocol typed).Commits i (updateMap cm' >>= fun _ => pure a : Call Change) c := by
  intro c₁ hr d
  refine ⟨?_, ?_⟩
  case refine_2 => cases ((pool typed).answer i (.update cm') d c₁).1 <;> trivial
  case refine_1 =>
    cases update_answer cm' d c₁
    case inl hu =>
      have ⟨e, hu⟩ := hu
      have hu : (pool typed).answer i (.update cm') d c₁ = _ := hu
      rw [hu]
      exact .refl c₁
    case inr hu =>
      have ⟨old, s, hc, hl, hg, hd, hu⟩ := hu
      have hu : (pool typed).answer i (.update cm') d c₁ = _ := hu
      rw [hu]
      have ⟨s₀, hs₀, hm⟩ := h
      have ⟨s₁, hs₁, _, hsame⟩ := hr s₀ hs₀
      cases hc.symm.trans hs₁
      subst hm
      have hold : old = s₀ := hsame (hv.symm.trans (hl (hv ▸ s₀.versioned)))
      subst hold
      have hent : ∀ id, s.entry id = cm'.entry id := fun id => by simp [ConfigMap.entry, hd]
      show Takes a c₁ (some s)
      subst hc
      exact {
        grows   := fun s' hs' => by cases hs'; exact ⟨s, rfl, hg.le, fun h => absurd h hg.ne⟩
        well    := hw
        entry   := (hent _).trans he
        other   := fun id hid => (hent _).trans (ho id hid)
      }

theorem ConfigMap.entry_set (cm : ConfigMap) (p : Profile) :
    (cm.set p).entry p.id = some (.json p) :=
  Finmap.lookup_insert _

theorem ConfigMap.entry_set_of_ne (cm : ConfigMap) {p : Profile} {id : Str} (h : id ≠ p.id) :
    (cm.set p).entry id = cm.entry id :=
  Finmap.lookup_insert_of_ne _ h

theorem upsert_commits {p : Profile} (hw : (Change.put p).Well) :
    (protocol typed).Commits i (upsert typed p >>= fun _ => pure (.put p) : Call Change) c := by
  cases typed
  case false => trivial
  case true =>
    show (protocol true).Commits i ((getOrCreate >>= fun cm => updateMap (cm.set p) >>= fun _ =>
      pure ()) >>= fun _ => pure (.put p) : Call Change) c
    simp only [bind_assoc, pure_bind]
    refine getOrCreate_quiet.seq (fun cm c hc => ?_) (fun _ _ _ _ h => by cases h) fun _ _ _ h => h
    exact updateMap_commits hc rfl hw (cm.entry_set p) fun _ h => cm.entry_set_of_ne h

-- An identifier that was generated is not that of a built-in profile.
theorem generated_custom (s : Str) : ¬isBuiltinID (str "p-" ++ s) := by
  have hp : ∀ p ∈ builtinProfiles, ∃ t, p.id = 0x62 :: t := by
    intro p hp
    simp only [builtinProfiles, List.mem_cons, List.not_mem_nil, or_false] at hp
    obtain rfl | rfl | rfl := hp
    all_goals exact ⟨_, rfl⟩
  intro h
  have ⟨p, hm, he⟩ := List.any_eq_true.mp h
  have ⟨t, ht⟩ := hp p hm
  have hs : p.id = 0x70 :: str "-" ++ s := eq_of_beq he
  cases ht.symm.trans hs

theorem create_commits (p : Profile) :
    (protocol typed).Commits i (.put <$> create typed p : Call Change) c := by
  unfold create
  split
  case h_1 => trivial
  case h_2 p _ =>
    split
    case isTrue  => trivial
    case isFalse hb =>
      split
      case isFalse =>
        simp only [map_eq_pure_bind, bind_assoc, pure_bind]
        exact upsert_commits ⟨hb, fun _ h => by cases h; simp⟩
      case isTrue =>
        simp only [map_eq_pure_bind, bind_assoc, pure_bind, randHex]
        rw [Call.lift_bind]
        have hq : (protocol typed).Quiet i (fun _ _ => True) (perform .random) c :=
          fun c₁ _ _ => ⟨.refl c₁, trivial⟩
        refine hq.bind (fun b c _ => upsert_commits ⟨?_, fun _ h => by cases h; simp⟩) ?_
        case refine_1 => exact generated_custom _
        case refine_2 =>
          intro b a c c' h hs _
          cases typed
          all_goals cases h
          exact hs

theorem update_commits (p : Profile) :
    (protocol typed).Commits i (.put <$> update typed p : Call Change) c := by
  unfold update
  split
  case h_1 => trivial
  case h_2 p _ =>
    split
    case isTrue  => trivial
    case isFalse hb =>
      simp only [map_eq_pure_bind, bind_assoc, pure_bind]
      exact upsert_commits ⟨hb, fun _ h => by cases h; simp⟩

-- A profile that was not there when the call looked is not there.
theorem takes_of_missing {id : Str} (hs : Same c c') (hc : Current cm c') (hb : ¬isBuiltinID id)
    (he : cm.entry id = none) : Takes (.drop id) c c' where
  grows     := hs.grows
  well      := ⟨hb, fun _ h => by cases h⟩
  entry     := by
    have ⟨s, hc, hm⟩ := hc
    subst hc hm
    exact he
  other _ _ := hs.entry _

theorem delete_commits (id : Str) :
    (protocol typed).Commits i ((fun _ => .drop id) <$> delete typed id : Call Change) c := by
  unfold delete
  split
  case isTrue     => trivial
  case isFalse hb =>
    split
    case isTrue  => trivial
    case isFalse =>
      simp only [map_eq_pure_bind, bind_assoc]
      refine getOrCreate_quiet.seq (fun cm c hc => ?_) (fun cm a c c' h hs hc => ?_)
        fun _ _ _ h => h
      case refine_1 =>
        split
        case h_1 => trivial
        case h_2 data hd =>
          split
          case isTrue  => trivial
          case isFalse =>
            simp only [bind_assoc, pure_bind]
            refine updateMap_commits hc rfl ⟨hb, fun _ h => by cases h⟩ ?_ fun id' hid => ?_
            case refine_1 => exact Finmap.lookup_erase id data
            case refine_2 =>
              have he : (data.erase id).lookup id' = data.lookup id' := Finmap.lookup_erase_ne hid
              simpa [ConfigMap.entry, hd] using he
      case refine_2 =>
        split at h
        case h_1 hd =>
          cases h
          exact takes_of_missing hs hc hb (by simp [ConfigMap.entry, hd])
        case h_2 data hd =>
          split at h
          case isTrue hl =>
            cases h
            exact takes_of_missing hs hc hb (by simpa [ConfigMap.entry, hd] using hl)
          case isFalse => cases h

theorem code_commits (i : Kind) (c : Cluster) :
    (protocol typed).Commits i ((pool typed).code i) c := by
  cases i
  case create p  => exact create_commits p
  case update p  => exact update_commits p
  case delete id => exact delete_commits id

-- No call is a success from the beginning.
theorem code_ne_ret (i : Kind) (a : Change) : (pool typed).code i ≠ .ret (.ok a) := by
  cases i
  case create p =>
    show (.put <$> create typed p : Call Change) ≠ _
    unfold create
    intro h
    split at h
    case h_1 => cases h
    case h_2 =>
      split at h
      case isTrue  => cases h
      case isFalse =>
        split at h
        case isTrue  => cases h
        case isFalse => cases typed <;> cases h
  case update p =>
    show (.put <$> update typed p : Call Change) ≠ _
    unfold update
    intro h
    split at h
    case h_1 => cases h
    case h_2 =>
      split at h
      case isTrue  => cases h
      case isFalse => cases typed <;> cases h
  case delete id =>
    show ((fun _ => .drop id) <$> delete typed id : Call Change) ≠ _
    unfold delete
    intro h
    split at h
    case isTrue  => cases h
    case isFalse => cases typed <;> cases h

theorem mem_custom {p : Profile} :
    p ∈ cm.custom ↔
    ∃ q, cm.entry p.id = some (.json q) ∧ p = { q with id := p.id, builtin := false } := by
  simp only [ConfigMap.custom, List.mem_filterMap, Go.Map.mem_keyList]
  constructor
  case mp =>
    intro ⟨id, hm, h⟩
    split at h
    case h_1 q hl => cases h; exact ⟨q, hl, rfl⟩
    case h_2      => cases h
  case mpr =>
    intro ⟨q, hl, h⟩
    have hl : (cm.data.getD ∅).lookup p.id = some (.json q) := hl
    exact ⟨p.id, by rw [hl]; rfl, by rw [hl]; exact congrArg some h.symm⟩

-- A profile is listed when it is built in or kept under its identifier.
theorem mem_listed {p : Profile} :
    p ∈ listed c ↔ p ∈ builtinProfiles ∨
      ∃ q, entry c p.id = some (.json q) ∧ p = { q with id := p.id, builtin := false } := by
  rw [listed, sorted, List.mem_mergeSort, List.mem_append]
  cases c
  case none   => simp [entry]
  case some s => exact or_congr_right mem_custom

-- The list that the profiles make shows the change.
def Change.Listed (c : Cluster) : Change → Prop
  | .put p   => p ∈ listed c ∧ ∀ q ∈ listed c, q.id = p.id → q = p
  | .drop id => ∀ q ∈ listed c, q.id ≠ id

theorem Change.Well.listed (hw : a.Well) (he : entry c a.id = a.raw) : a.Listed c := by
  have hb : ∀ q ∈ builtinProfiles, q.id ≠ a.id := fun q hq h =>
    hw.custom (List.any_eq_true.mpr ⟨q, hq, beq_iff_eq.mpr h⟩)
  cases a
  case drop id =>
    intro q hq
    cases mem_listed.mp hq
    case inl hq => exact hb q hq
    case inr hq =>
      have ⟨q', hl, _⟩ := hq
      rintro rfl
      cases he.symm.trans hl
  case put p =>
    have hp : p.builtin = false := by simpa using hw.plain p rfl
    refine ⟨mem_listed.mpr (.inr ⟨p, he, by rw [← hp]⟩), fun q hq hid => ?_⟩
    cases mem_listed.mp hq
    case inl hq => exact absurd hid (hb q hq)
    case inr hq =>
      have ⟨q', hl, hq'⟩ := hq
      rw [hid] at hl hq'
      cases he.symm.trans hl
      rw [hq', ← hp]

-- Every call that has returned without an error shows in the list of profiles, unless another call
-- for the same identifier has returned without an error after it.
theorem acknowledged_listed (typed : Bool) (c : Cluster) (ps : List (Pick Draw Kind)) (n : Nat)
    (i : Kind) (a : Change)
    (h : ((pool typed).run ⟨c, []⟩ ps).calls[n]? = some (i, .ret (.ok a))) :
    ∃ qs₁ q qs₂, ps = qs₁ ++ q :: qs₂ ∧
      (pool typed).Returns n (.ok a) ((pool typed).run ⟨c, []⟩ qs₁) q ∧
      (a.Listed ((pool typed).run ⟨c, []⟩ ps).world ∨
      ∃ rs₁ r rs₂ m b, qs₂ = rs₁ ++ r :: rs₂ ∧ b.id = a.id ∧
        (pool typed).Returns m (.ok b) ((pool typed).run ⟨c, []⟩ (qs₁ ++ q :: rs₁)) r) := by
  have ⟨qs₁, q, qs₂, hs, hr⟩ := Pool.returned rfl (fun i => code_ne_ret i a) h
  subst hs
  refine ⟨qs₁, q, qs₂, rfl, hr, ?_⟩
  have h₀ : (protocol typed).Holds ⟨c, []⟩ := fun _ hp => by cases hp
  have h₁ := h₀.run code_commits qs₁
  have ht : Takes a _ _ := h₁.effect hr
  have hl := (h₁.next code_commits q).lasts (K := fun c => entry c a.id = a.raw)
    (X := fun r => ∃ b, r = .ok b ∧ b.id = a.id) code_commits
    (fun _ _ hq hk => (hq.entry _).trans hk) ?_ ht.entry qs₂
  case refine_1 =>
    intro r s s' he hx hk
    cases r
    case error => exact (Same.entry he _).trans hk
    case ok b  =>
      have hid : a.id ≠ b.id := fun hid => hx ⟨b, rfl, hid.symm⟩
      exact (Takes.other he _ hid).trans hk
  rw [Pool.run_append, Pool.run_cons]
  cases hl
  case inl hk => exact .inl (ht.well.listed hk)
  case inr hk =>
    have ⟨rs₁, r, rs₂, m, _, hs, hm, b, hb, hid⟩ := hk
    subst hb
    refine .inr ⟨rs₁, r, rs₂, m, b, hs, hid, ?_⟩
    rw [Pool.run_append, Pool.run_cons]
    exact hm

section Fixtures

def slices (id : Str) : Profile where
  id          := id
  name        := str "MIG"
  kind        := str "nvidia"
  description := []
  fields      := [⟨str "nvidia.com/mig-1g.5gb", str "Slices", [], .null, none, none, none⟩]
  builtin     := false

-- Two calls find no ConfigMap. One creates it, the other one is the first to write to it.
def race : List (Pick Draw Kind) :=
  let act n := .act n { failure := none, gap := 0, random := .replicate 4 0 }
  [.start (.create (slices (str "a"))), .start (.create (slices (str "b"))), act 0, act 1, act 0,
    act 1, act 1, act 1, act 0]

end Fixtures

theorem acknowledged_listed_race :
    ∃ qs₁ q qs₂, race = qs₁ ++ q :: qs₂ ∧
      (pool true).Returns 1 (.ok (.put (slices (str "b")))) ((pool true).run ⟨none, []⟩ qs₁) q ∧
      ((Change.put (slices (str "b"))).Listed ((pool true).run ⟨none, []⟩ race).world ∨
      ∃ rs₁ r rs₂ m b, qs₂ = rs₁ ++ r :: rs₂ ∧ b.id = str "b" ∧
        (pool true).Returns m (.ok b) ((pool true).run ⟨none, []⟩ (qs₁ ++ q :: rs₁)) r) :=
  acknowledged_listed true none race 1 (.create (slices (str "b"))) (.put (slices (str "b"))) rfl

end Gpu

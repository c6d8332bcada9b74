import Knaic.Effects.Machine
import Knaic.Go.Sort
import Knaic.Gpu.ProfileWrites

open Go Effects

-- The rules that the calls keep, one after the other, over all orders in which a map is visited.
namespace Gpu

-- An order in which `range` visits the keys of the data.
structure Visiting (cm : ConfigMap) where
  ids  : List Str
  perm : ids.Perm (cm.data.getD ∅).keyList

abbrev Order :=
  ∀ cm : ConfigMap, Visiting cm

def Order.inOrder : Order :=
  fun cm => ⟨(cm.data.getD ∅).keyList, .refl _⟩

def ConfigMap.profile? (cm : ConfigMap) (id : Str) : Option Profile :=
  match (cm.data.getD ∅).lookup id with
  | some (.json p) => some { p with id := id, builtin := false }
  | _              => none

def ConfigMap.customIn (cm : ConfigMap) (v : Visiting cm) : List Profile :=
  v.ids.filterMap cm.profile?

def readCustomIn (typed : Bool) (π : Order) : Call (List Profile) := do
  if !typed then
    return []
  else
    match ← attempt get with
    | .ok cm   => return cm.customIn (π cm)
    | .error e => if Kube.errNotFound.is e then return [] else throw e

def listIn (typed : Bool) (π : Order) : Call (List Profile) := do
  match ← attempt (readCustomIn typed π) with
  | .error _   => return builtinProfiles
  | .ok custom => return sorted (builtinProfiles ++ custom)

theorem list_eq (typed : Bool) : list typed = listIn typed .inOrder :=
  rfl

-- The calls of the store, and what each is answered. A list is one for each order.
inductive Request
  | create (p : Profile)
  | update (p : Profile)
  | delete (id : Str)
  | list

abbrev requests : Signature where
  Op := Request
  Res
    | .create _ | .update _ => Except Error Profile
    | .delete _             => Except Error Unit
    | .list                 => Order → Except Error (List Profile)

-- One call after the other, with the draws of each.
def calls (typed : Bool) : Machine requests (Nat → Draw) Cluster where
  answer
    | .create p, d, c  => Prog.play answer (create typed p) d c
    | .update p, d, c  => Prog.play answer (update typed p) d c
    | .delete id, d, c => Prog.play answer (delete typed id) d c
    | .list, d, c      => (fun π => (Prog.play answer (listIn typed π) d c).1, c)

-- There is a profile with the identifier.
def Exists (c : Cluster) (id : Str) : Prop :=
  ∃ p, entry c id = some (.json p)

-- The list as a function of what is stored.
def listedFor (typed : Bool) (c : Cluster) : List Profile :=
  if typed then listed c else sorted builtinProfiles

-- However the store is listed, it shows the profiles that are built in as they are, and no others for such.
def ShowsBuiltins (typed : Bool) (c : Cluster) : Prop :=
  ∀ π d, ∃ ps, (Prog.play answer (listIn typed π) d c).1 = .ok ps ∧ (ps.filter (·.builtin)).Perm builtinProfiles

-- What is asked of a call.
structure Disciplined (typed : Bool) (r : Request) (d : Nat → Draw) (c : Cluster) : Prop where
  created  : ∀ p q, r = .create p → (Prog.play answer (create typed p) d c).1 = .ok q → ¬Exists c q.id
  kept     : ∀ p id q, r = .create p → entry c id = some (.json q) → entry ((calls typed).answer r d c).2 id = some (.json q)
  updated  : ∀ p q, r = .update p → (Prog.play answer (update typed p) d c).1 = .ok q → Exists c q.id
  added    : ∀ p id, r = .update p → Exists ((calls typed).answer r d c).2 id → Exists c id
  builtins : ShowsBuiltins typed ((calls typed).answer r d c).2
  locked   : ∀ id, isBuiltinID id → entry ((calls typed).answer r d c).2 id = entry c id
  listed   : r = .list → ∀ π, (Prog.play answer (listIn typed π) d c).1 = .ok (listedFor typed c)

-- The identifier of a profile that is created: the given one, or one that is generated.
def newID (p : Profile) (d : Nat → Draw) : Str :=
  if p.id = [] then str "p-" ++ hex (d 0).random.toList else p.id

-- The draws that are left for the requests after the identifier.
def afterID (p : Profile) (d : Nat → Draw) : Nat → Draw :=
  if p.id = [] then fun n => d (n + 1) else d

def DistinctNames (c : Cluster) : Prop :=
  ∀ id id' p q, entry c id = some (.json p) → entry c id' = some (.json q) → p.name = q.name → id = id'

-- What a call has to find. One that is refused anyway need not find anything.
structure Careful (typed : Bool) (r : Request) (d : Nat → Draw) (c : Cluster) : Prop where
  created : ∀ p q, r = .create p → typed → validateProfile p = .ok q → ¬isBuiltinID p.id → ¬Exists c (newID p d)
  updated : ∀ p q, r = .update p → typed → validateProfile p = .ok q → ¬isBuiltinID p.id → Exists c p.id
  listed  : r = .list → typed → (d 0).failure = none ∧ DistinctNames c

-- No request fails.
def Answered (_ : Request) (d : Nat → Draw) (_ : Cluster) : Prop :=
  ∀ n, (d n).failure = none

section Lists

variable {typed : Bool} {c : Cluster} {cm : ConfigMap} {p q : Profile} {π : Order} {d : Nat → Draw}

-- What is listed, by what is answered to the request for the ConfigMap.
def shown (π : Order) : Except Error ConfigMap → List Profile
  | .ok cm   => sorted (builtinProfiles ++ cm.customIn (π cm))
  | .error e => if Kube.errNotFound.is e then sorted builtinProfiles else builtinProfiles

theorem listIn_play (π : Order) (d : Nat → Draw) (c : Cluster) :
    (Prog.play answer (listIn true π) d c).1 = .ok (shown π (answer .get (d 0) c).1) := by
  simp only [listIn, readCustomIn, Bool.not_true, Bool.false_eq_true, if_false, get, perform, attempt, Call.lift_bind]
  simp only [Prog.perform, Prog.bind, Prog.play]
  generalize answer .get (d 0) c = r
  obtain ⟨r, c'⟩ := r
  cases r
  case ok cm   => rfl
  case error e =>
    dsimp only
    by_cases he : Kube.errNotFound.is e = true
    case pos =>
      simp only [he, if_true, shown]
      rfl
    case neg =>
      simp only [he, shown]
      rfl

theorem listIn_offline (π : Order) (d : Nat → Draw) (c : Cluster) :
    (Prog.play answer (listIn false π) d c).1 = .ok (sorted builtinProfiles) :=
  rfl

def Profile.rank (p : Profile) : Bool ×ₗ Str :=
  toLex (!p.builtin, p.name)

theorem less_rank_iff (p q : Profile) : less p q ↔ p.rank < q.rank :=
  flagged_iff Profile.builtin Profile.name p q

theorem sorted_preorder : StableSort.Preorder fun p q : Profile => !less q p := by
  constructor
  case trans => exact fun p q r => (trans_of_rank less_rank_iff).trans p q r
  case total => exact fun p q => by simpa using (total_of_rank less_rank_iff).total p q

-- Two profiles tie if their names are equal and none or both are built in.
theorem tie_iff : (!less q p) = true ∧ (!less p q) = true ↔ p.builtin = q.builtin ∧ p.name = q.name := by
  rw [not_less_iff less_rank_iff, not_less_iff less_rank_iff, ← le_antisymm_iff, Profile.rank, Profile.rank, toLex_inj,
    Prod.mk.injEq, Bool.not_inj_iff]

theorem profile?_eq_some {id : Str} :
    cm.profile? id = some p ↔ ∃ q, cm.entry id = some (.json q) ∧ p = { q with id := id, builtin := false } := by
  simp only [ConfigMap.profile?, ConfigMap.entry]
  cases (cm.data.getD ∅).lookup id
  case none     => simp
  case some raw => cases raw <;> simp [eq_comm]

theorem customIn_perm (v w : Visiting cm) : (cm.customIn v).Perm (cm.customIn w) :=
  (v.perm.trans w.perm.symm).filterMap _

theorem mem_customIn {v : Visiting cm} (h : p ∈ cm.customIn v) : cm.profile? p.id = some p ∧ p.builtin = false := by
  obtain ⟨id, -, hp⟩ := List.mem_filterMap.mp h
  obtain ⟨q, -, rfl⟩ := profile?_eq_some.mp hp
  exact ⟨hp, rfl⟩

theorem builtin_all : ∀ p ∈ builtinProfiles, p.builtin = true := by
  intro p hp
  simp only [builtinProfiles, List.mem_cons, List.not_mem_nil, or_false] at hp
  obtain rfl | rfl | rfl := hp <;> rfl

theorem builtin_names : ∀ p ∈ builtinProfiles, ∀ q ∈ builtinProfiles, p.name = q.name → p = q := by
  intro p hp q hq hn
  simp only [builtinProfiles, List.mem_cons, List.not_mem_nil, or_false] at hp hq
  obtain rfl | rfl | rfl := hp
  all_goals obtain rfl | rfl | rfl := hq
  all_goals first | exact absurd hn (by decide) | rfl

-- Sorting keeps what is built in.
theorem filter_builtin {l : List Profile} (h : ∀ p ∈ l, p.builtin = false) :
    ((sorted (builtinProfiles ++ l)).filter (·.builtin)).Perm builtinProfiles := by
  refine ((List.mergeSort_perm ..).filter _).trans ?_
  rw [List.filter_append, List.filter_eq_self.mpr builtin_all, List.filter_eq_nil_iff.mpr (by simpa using h),
    List.append_nil]

theorem showsBuiltins (typed : Bool) (c : Cluster) : ShowsBuiltins typed c := by
  have hs : ((sorted builtinProfiles).filter (·.builtin)).Perm builtinProfiles := by
    simpa using filter_builtin (l := []) (by simp)
  intro π d
  cases typed
  case false => exact ⟨_, listIn_offline π d c, hs⟩
  case true  =>
    refine ⟨_, listIn_play π d c, ?_⟩
    cases (answer .get (d 0) c).1
    case ok cm   => exact filter_builtin fun p hp => (mem_customIn hp).right
    case error e =>
      simp only [shown]
      split
      case isTrue  => exact hs
      case isFalse => rw [List.filter_eq_self.mpr builtin_all]

end Lists

section Orders

variable {c : Cluster} {s : Stored} {p q : Profile} {id id' : Str}

-- Two entries in both orders.
theorem exists_visiting (cm : ConfigMap) (h : id ∈ (cm.data.getD ∅).keyList) (h' : id' ∈ (cm.data.getD ∅).keyList)
    (hne : id ≠ id') : ∃ v : Visiting cm, ∃ l, v.ids = id :: id' :: l := by
  have hm : id' ∈ (cm.data.getD ∅).keyList.erase id := (List.mem_erase_of_ne hne.symm).mpr h'
  exact ⟨⟨_, ((List.perm_cons_erase h).trans ((List.perm_cons_erase hm).cons id)).symm⟩, _, rfl⟩

theorem listed_eq (h : DistinctNames (some s)) (v : Visiting s.toConfigMap) :
    sorted (builtinProfiles ++ s.customIn v) = listed (some s) := by
  refine StableSort.eq_of_perm sorted_preorder ((customIn_perm v (Order.inOrder _)).append_left _) ?_
  intro p hp q hq hle hle'
  obtain ⟨hb, hn⟩ := tie_iff.mp ⟨hle, hle'⟩
  rcases List.mem_append.mp hp with hp | hp
  all_goals rcases List.mem_append.mp hq with hq | hq
  case inl.inl => exact builtin_names p hp q hq hn
  case inl.inr => 
    rw [builtin_all p hp, (mem_customIn hq).right] at hb
    cases hb
  case inr.inl =>
    rw [builtin_all q hq, (mem_customIn hp).right] at hb
    cases hb
  case inr.inr =>
    obtain ⟨p', hp', he⟩ := profile?_eq_some.mp (mem_customIn hp).left
    obtain ⟨q', hq', he'⟩ := profile?_eq_some.mp (mem_customIn hq).left
    have hi : p.id = q.id := h p.id q.id p' q' hp' hq' (by rw [he, he'] at hn; exact hn)
    have hs := (mem_customIn hp).left
    rw [hi] at hs
    exact Option.some.inj (hs.symm.trans (mem_customIn hq).left)

theorem listing_nodup (v : Visiting s.toConfigMap) : (builtinProfiles ++ s.customIn v).Nodup := by
  have hb : builtinProfiles.Nodup := List.Nodup.of_map (·.id) (by decide)
  have hc : (s.customIn v).Nodup := by
    refine List.Nodup.filterMap (fun id id' p hp hp' => ?_) (v.perm.nodup_iff.mpr (Map.nodup_keyList _))
    obtain ⟨q, -, rfl⟩ := profile?_eq_some.mp hp
    obtain ⟨q', -, he⟩ := profile?_eq_some.mp hp'
    exact congrArg Profile.id he
  refine List.nodup_append.mpr ⟨hb, hc, ?_⟩
  rintro p hp q hq rfl
  cases (builtin_all p hp).symm.trans (mem_customIn hq).right

-- The first two of an order come one after the other.
theorem pair_sublist {v : Visiting s.toConfigMap} {l : List Str} (hv : v.ids = id :: id' :: l)
    (hp : s.profile? id = some p) (hq : s.profile? id' = some q) :
    [p, q].Sublist (builtinProfiles ++ s.customIn v) := by
  rw [ConfigMap.customIn, hv, List.filterMap_cons_some hp, List.filterMap_cons_some hq]
  exact (List.Sublist.cons_cons p (List.Sublist.cons_cons q (List.nil_sublist _))).trans (List.sublist_append_right ..)

-- Without distinct names there are two orders that give two lists.
theorem distinct_of_listed (h : ∀ v : Visiting s.toConfigMap, sorted (builtinProfiles ++ s.customIn v) = listed (some s)) :
    DistinctNames (some s) := by
  intro id id' p q hp hq hn
  by_contra hne
  have hi : id ∈ (s.data.getD ∅).keyList := Map.mem_keyList.mpr (Option.isSome_iff_exists.mpr ⟨_, hp⟩)
  have hi' : id' ∈ (s.data.getD ∅).keyList := Map.mem_keyList.mpr (Option.isSome_iff_exists.mpr ⟨_, hq⟩)
  obtain ⟨v, l, hv⟩ := exists_visiting s.toConfigMap hi hi' hne
  obtain ⟨v', l', hv'⟩ := exists_visiting s.toConfigMap hi' hi (Ne.symm hne)
  have hp' := profile?_eq_some.mpr ⟨p, hp, rfl⟩
  have hq' := profile?_eq_some.mpr ⟨q, hq, rfl⟩
  obtain ⟨hle, hle'⟩ := tie_iff.mpr (⟨rfl, hn⟩ :
    ({ p with id := id, builtin := false } : Profile).builtin = ({ q with id := id', builtin := false } : Profile).builtin ∧ _)
  exact StableSort.ne_of_tie sorted_preorder (listing_nodup v) (pair_sublist hv hp' hq') (pair_sublist hv' hq' hp') hle hle'
    ((h v).trans (h v').symm)

end Orders

section Writes

variable {typed : Bool} {c : Cluster} {p q : Profile} {d : Nat → Draw}

-- A call by itself has the effect that it has among others.
theorem effect_alone (typed : Bool) (i : Kind) (d : Nat → Draw) (c : Cluster) :
    Effect (Prog.play answer ((pool typed).code i) d c).1 c (Prog.play answer ((pool typed).code i) d c).2 := by
  have hc : (protocol typed).Commits i ((pool typed).code i) c := code_commits i c
  refine hc.play (fun a s s₁ s₂ hs ha => ?_) (fun a ha => ?_) d
  case refine_1 =>
    have hs : Same s s₁ := hs
    cases a
    case ok a    =>
      have ha : Takes a s₁ s₂ := ha
      exact ⟨hs.grows.trans ha.grows, ha.well, ha.entry, fun id hid => (ha.other id hid).trans (hs.entry id)⟩
    case error e =>
      have ha : Same s₁ s₂ := ha
      exact ⟨hs.grows.trans ha.grows, fun id => (ha.entry id).trans (hs.entry id)⟩
  case refine_2 =>
    cases a
    case ok a    => exact absurd ha (code_ne_ret i a)
    case error e => exact .refl c

theorem effect_map {α : Type} {f : α → Change} {x : Call α} {i : Kind}
    (h : (pool typed).code i = (f <$> x : Call Change)) (d : Nat → Draw) (c : Cluster) :
    Effect ((Prog.play answer x d c).1.map f) c (Prog.play answer x d c).2 := by
  have he := effect_alone typed i d c
  rw [h, map_eq_pure_bind] at he
  rwa [Call.play_seq_pure] at he

theorem create_effect (p : Profile) (d : Nat → Draw) (c : Cluster) :
    Effect ((Prog.play answer (create typed p) d c).1.map .put) c (Prog.play answer (create typed p) d c).2 :=
  effect_map (rfl : (pool typed).code (.create p) = _) d c

theorem update_effect (p : Profile) (d : Nat → Draw) (c : Cluster) :
    Effect ((Prog.play answer (update typed p) d c).1.map .put) c (Prog.play answer (update typed p) d c).2 :=
  effect_map (rfl : (pool typed).code (.update p) = _) d c

theorem delete_effect (id : Str) (d : Nat → Draw) (c : Cluster) :
    Effect ((Prog.play answer (delete typed id) d c).1.map fun _ => .drop id) c (Prog.play answer (delete typed id) d c).2 :=
  effect_map (rfl : (pool typed).code (.delete id) = _) d c

theorem validateProfile_id (h : validateProfile p = .ok q) : q.id = p.id := by
  unfold validateProfile at h
  by_cases hn : p.name = []
  case pos =>
    simp only [hn, if_true] at h
    cases h
  case neg =>
    by_cases hf : p.fields = []
    case pos =>
      simp only [hn, hf, if_true, if_false] at h
      cases h
    case neg =>
      simp only [hn, hf, if_false] at h
      cases hv : validateFields 0 p.fields
      case error e =>
        rw [hv] at h
        cases h
      case ok      =>
        rw [hv] at h
        cases h
        rfl

-- The server when no request fails.
def fine (op : ops.Op) (d : Draw) (c : Cluster) : ops.Res op × Cluster :=
  answer op { d with failure := none } c

theorem play_fine {α : Type} (h : ∀ n, (d n).failure = none) (p : Prog ops α) :
    Prog.play answer p d c = Prog.play fine p d c := by
  induction p generalizing d c
  case ret           => rfl
  case call op k hi =>
    have hd : answer op (d 0) c = fine op (d 0) c := by
      rw [fine, ← h 0]
    rw [Prog.play, Prog.play, hd]
    exact hi _ fun n => h (n + 1)

theorem getOrCreate_fine (c : Cluster) :
    Prog.Always fine (fun r c' => ∃ s : Stored, r = .ok s.toConfigMap ∧ c' = some s) getOrCreate c := by
  cases c
  case none   => exact fun _ d => ⟨⟨{ labels := profileLabels, data := some ∅, resourceVersion := d.gap + 1 }, Nat.succ_ne_zero _⟩, rfl, rfl⟩
  case some s => exact fun _ => ⟨s, rfl, rfl⟩

theorem upsert_fine (q : Profile) (c : Cluster) : Prog.Always fine (fun r _ => r = .ok ()) (upsert true q) c := by
  show Prog.Always fine _ (getOrCreate >>= fun cm => updateMap (cm.set q) >>= fun _ => pure () : Call Unit) c
  refine Call.always_seq.mpr ((getOrCreate_fine c).mono fun r c' h => ?_)
  obtain ⟨s, rfl, rfl⟩ := h
  intro d
  have hu : ∃ cm c', fine (.update (s.set q)) d (some s) = (.ok cm, c') := by
    refine ⟨_, _, if_neg ?_⟩
    simp [ConfigMap.set]
  obtain ⟨cm, c', hu⟩ := hu
  rw [hu]
  rfl

theorem upsert_answered (h : ∀ n, (d n).failure = none) (q : Profile) (c : Cluster) :
    (Prog.play answer (upsert true q) d c).1 = .ok () := by
  rw [play_fine h]
  exact (upsert_fine q c).play d

-- A profile that passes is stored as it is returned.
section Passed

variable (hv : validateProfile p = .ok q) (hb : ¬isBuiltinID p.id)

include hv hb

theorem update_play : Prog.play answer (update typed p) d c =
    ((Prog.play answer (upsert typed { q with builtin := false }) d c).1.map fun _ => { q with builtin := false },
      (Prog.play answer (upsert typed { q with builtin := false }) d c).2) := by
  rw [← validateProfile_id hv] at hb
  rw [update, hv]
  simp only [hb]
  exact Call.play_seq_pure

theorem create_play : Prog.play answer (create typed p) d c =
    ((Prog.play answer (upsert typed { q with id := newID p d, builtin := false }) (afterID p d) c).1.map fun _ =>
        { q with id := newID p d, builtin := false },
      (Prog.play answer (upsert typed { q with id := newID p d, builtin := false }) (afterID p d) c).2) := by
  rw [← validateProfile_id hv] at hb
  rw [create, hv, newID, afterID, ← validateProfile_id hv]
  simp only [hb]
  by_cases hi : q.id = []
  case neg =>
    simp only [hi, if_false]
    exact Call.play_seq_pure
  case pos =>
    simp only [hi, if_true, randHex, map_eq_pure_bind, bind_assoc, pure_bind, Call.lift_bind]
    exact Call.play_seq_pure

end Passed

theorem upsert_offline (q : Profile) (d : Nat → Draw) (c : Cluster) :
    (Prog.play answer (upsert false q) d c).1 = .error (.new "kubernetes client not initialised") :=
  rfl

-- Whether a profile passes and may be changed.
def Passes (p : Profile) : Prop :=
  (∃ q, validateProfile p = .ok q) ∧ ¬isBuiltinID p.id

theorem not_passes (h : ¬Passes p) :
    (∃ e, validateProfile p = .error e) ∨ ∃ q, validateProfile p = .ok q ∧ isBuiltinID q.id := by
  cases hv : validateProfile p
  case error e => exact .inl ⟨e, rfl⟩
  case ok q    =>
    refine .inr ⟨q, rfl, ?_⟩
    rw [validateProfile_id hv]
    exact by_contra fun hb => h ⟨⟨q, hv⟩, hb⟩

theorem create_refused (h : ¬Passes p) : ∃ e, (Prog.play answer (create typed p) d c).1 = .error e := by
  obtain ⟨e, hv⟩ | ⟨q, hv, hb⟩ := not_passes h
  case inl => exact ⟨e, by rw [create, hv]; rfl⟩
  case inr =>
    simp only [create, hv, hb, if_true]
    exact ⟨_, rfl⟩

theorem update_refused (h : ¬Passes p) : ∃ e, (Prog.play answer (update typed p) d c).1 = .error e := by
  obtain ⟨e, hv⟩ | ⟨q, hv, hb⟩ := not_passes h
  case inl => exact ⟨e, by rw [update, hv]; rfl⟩
  case inr =>
    simp only [update, hv, hb, if_true]
    exact ⟨_, rfl⟩

-- What is stored with success is returned, and there is something to store it in.
theorem upsert_ok {p : Profile}
    (h : (Prog.play answer (upsert typed p) d c).1.map (fun _ => p) = .ok q) : typed ∧ q = p := by
  cases typed
  case false =>
    rw [upsert_offline] at h
    cases h
  case true  =>
    cases hu : (Prog.play answer (upsert true p) d c).1
    all_goals rw [hu] at h
    case error => cases h
    case ok    => exact ⟨rfl, (Except.ok.inj h).symm⟩

-- What succeeds has passed, and is returned under its identifier.
theorem create_ok (h : (Prog.play answer (create typed p) d c).1 = .ok q) :
    typed ∧ (∃ p', validateProfile p = .ok p') ∧ ¬isBuiltinID p.id ∧ q.id = newID p d := by
  by_cases hp : Passes p
  case neg =>
    obtain ⟨e, he⟩ := create_refused hp
    cases he.symm.trans h
  case pos =>
    obtain ⟨⟨p', hv⟩, hb⟩ := hp
    rw [create_play hv hb] at h
    obtain ⟨ht, rfl⟩ := upsert_ok h
    exact ⟨ht, ⟨p', hv⟩, hb, rfl⟩

theorem update_ok (h : (Prog.play answer (update typed p) d c).1 = .ok q) :
    typed ∧ (∃ p', validateProfile p = .ok p') ∧ ¬isBuiltinID p.id ∧ q.id = p.id := by
  by_cases hp : Passes p
  case neg =>
    obtain ⟨e, he⟩ := update_refused hp
    cases he.symm.trans h
  case pos =>
    obtain ⟨⟨p', hv⟩, hb⟩ := hp
    rw [update_play hv hb] at h
    obtain ⟨ht, rfl⟩ := upsert_ok h
    have hid : p'.id = p.id := validateProfile_id hv
    exact ⟨ht, ⟨p', hv⟩, hb, hid⟩

end Writes

section Rules

variable {typed : Bool} {r : Request} {c : Cluster} {d : Nat → Draw}

theorem Effect.locked {a : Except Error Change} {c' : Cluster} (h : Effect a c c') {id : Str} (hb : isBuiltinID id) :
    entry c' id = entry c id := by
  cases a
  case error e => exact Same.entry h id
  case ok a    =>
    have h : Takes a c c' := h
    exact h.other id fun he => h.well.custom (he ▸ hb)

theorem locked (typed : Bool) (r : Request) (d : Nat → Draw) (c : Cluster) {id : Str} (hb : isBuiltinID id) :
    entry ((calls typed).answer r d c).2 id = entry c id := by
  cases r
  case create p => exact (create_effect p d c).locked hb
  case update p => exact (update_effect p d c).locked hb
  case delete i => exact (delete_effect i d c).locked hb
  case list     => rfl

-- An entry that is not the one of the change is not touched.
theorem Effect.other {a : Except Error Profile} {c' : Cluster} (h : Effect (a.map .put) c c') {id : Str}
    (hid : ∀ q, a = .ok q → id ≠ q.id) : entry c' id = entry c id := by
  cases a
  case error e => exact Same.entry h id
  case ok q    => exact Takes.other h id (hid q rfl)

theorem disciplined_of_careful (h : Careful typed r d c) : Disciplined typed r d c := by
  have hcreated : ∀ p q, r = .create p → (Prog.play answer (create typed p) d c).1 = .ok q → ¬Exists c q.id := by
    intro p q hr hq
    obtain ⟨ht, ⟨p', hv⟩, hb, hid⟩ := create_ok hq
    rw [hid]
    exact h.created p p' hr ht hv hb
  have hupdated : ∀ p q, r = .update p → (Prog.play answer (update typed p) d c).1 = .ok q → Exists c q.id := by
    intro p q hr hq
    obtain ⟨ht, ⟨p', hv⟩, hb, hid⟩ := update_ok hq
    rw [hid]
    exact h.updated p p' hr ht hv hb
  constructor
  case created  => exact hcreated
  case updated  => exact hupdated
  case kept     =>
    rintro p id q rfl he
    rw [← he]
    refine (create_effect p d c).other fun q' hq hid => ?_
    exact hcreated p q' rfl hq ⟨q, hid ▸ he⟩
  case added    =>
    rintro p id rfl ⟨q, he⟩
    by_contra hn
    have ho : entry (Prog.play answer (update typed p) d c).2 id = entry c id :=
      (update_effect p d c).other fun q' hq hid => hn (hid ▸ hupdated p q' rfl hq)
    exact hn ⟨q, ho.symm.trans he⟩
  case builtins => exact showsBuiltins typed _
  case locked   => exact fun id hb => locked typed r d c hb
  case listed   =>
    rintro rfl π
    cases typed
    case false => exact listIn_offline π d c
    case true  =>
      obtain ⟨hf, hn⟩ := h.listed rfl rfl
      rw [listIn_play]
      cases c
      case none   =>
        have ha : (answer .get (d 0) none).1 = .error Kube.errNotFound := by simp [answer, unlessFailed, hf, Cluster.get]
        rw [ha]
        rfl
      case some s =>
        have ha : (answer .get (d 0) (some s)).1 = .ok s.toConfigMap := by simp [answer, unlessFailed, hf, Cluster.get]
        rw [ha]
        exact congrArg Except.ok (listed_eq hn _)

theorem careful_of_disciplined (ha : Answered r d c) (h : Disciplined typed r d c) : Careful typed r d c := by
  constructor
  case created =>
    rintro p q rfl ht hv hb
    have hd : ∀ n, (afterID p d n).failure = none := by
      intro n
      unfold afterID
      split <;> exact ha _
    refine h.created p { q with id := newID p d, builtin := false } rfl ?_
    rw [create_play hv hb, ht, upsert_answered hd]
    rfl
  case updated =>
    rintro p q rfl ht hv hb
    have he := h.updated p { q with builtin := false } rfl (by rw [update_play hv hb, ht, upsert_answered ha]; rfl)
    rwa [validateProfile_id hv] at he
  case listed  =>
    rintro rfl ht
    refine ⟨ha 0, ?_⟩
    cases c
    case none   =>
      intro id id' p q hp
      cases hp
    case some s =>
      refine distinct_of_listed fun v => ?_
      classical
      have hl := h.listed rfl (Function.update Order.inOrder s.toConfigMap v)
      have hg : (answer .get (d 0) (some s)).1 = .ok s.toConfigMap := by simp [answer, unlessFailed, ha 0, Cluster.get]
      rw [ht, listIn_play, hg] at hl
      simpa [shown, listedFor] using hl

-- In a run whose calls find what they have to, all calls are disciplined, and without failing requests in no other.
theorem profiles_disciplined (typed : Bool) (c : Cluster) (steps : List (requests.Op × (Nat → Draw))) :
    ((calls typed).Throughout (Careful typed) c steps → (calls typed).Throughout (Disciplined typed) c steps) ∧
    ((calls typed).Throughout Answered c steps →
      (calls typed).Throughout (Disciplined typed) c steps → (calls typed).Throughout (Careful typed) c steps) := by
  refine ⟨fun h => h.mono fun r d c => disciplined_of_careful, fun ha h => ?_⟩
  induction steps generalizing c
  case nil             => trivial
  case cons step _ hi => exact ⟨careful_of_disciplined ha.left h.left, hi _ ha.right h.right⟩

end Rules

section Example

-- One profile is stored.
def holding (p : Profile) : Cluster :=
  some ⟨ConfigMap.set ⟨profileLabels, some ∅, 1⟩ p, Nat.one_ne_zero⟩

-- Another profile is created under the same identifier.
theorem profile_overwritten : ¬∀ (typed : Bool) (c : Cluster) (steps : List (requests.Op × (Nat → Draw))),
    (calls typed).Throughout (Disciplined typed) c steps := by
  intro h
  have hd := h true (holding (slices (str "a")))
    [(.create { slices (str "a") with name := str "MIG 2" }, fun _ => ⟨none, 0, .replicate 4 0⟩)]
  exact hd.left.created _ { slices (str "a") with name := str "MIG 2" } rfl rfl ⟨slices (str "a"), rfl⟩

end Example
end Gpu

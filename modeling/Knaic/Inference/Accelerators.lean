import Knaic.Inference.RoundTrip
import Knaic.K8sRes.TrainingProj
import Knaic.Kube.Quantity

open Go Kube K8sRes

namespace Inference

-- What the value of a resource stands for.
def amount? : Value → Option ℚ
  | .int n    => some n
  | .string s => Quantity.value s
  | _         => none

-- A value that is shown as what it stands for.
def Literal : Value → Prop
  | .int _    => True
  | .string s => Quantity.Plain s
  | _         => False

-- The limits and the requests below a path.
structure Declares (o : Fields) (path : List Str) (limits requests : Dict Value) : Prop where
  limits   : (o.nestedMap (path ++ [str "limits"])).getD [] = limits.entries
  requests : (o.nestedMap (path ++ [str "requests"])).getD [] = requests.entries

-- Every accelerator has a quantity.
def Quantified (m : Dict Value) : Prop :=
  ∀ k v, isAccelerator k → m.get k = some v → ∃ q, amount? v = some q

-- Every quantity is shown.
def Shown (m : Dict Value) (shown : Dict Int) : Prop :=
  ∀ k v, isAccelerator k → m.get k = some v → ∃ n : Int, shown.get k = some n ∧ amount? v = some ↑n

-- Every quantity is the same afterwards.
def Kept (m : Dict Value) (saved : Fields) : Prop :=
  ∀ k v, isAccelerator k → m.get k = some v → ∃ v', saved.get k = some v' ∧ amount? v' = amount? v

-- The value of a key that is counted: the limit, or the request where the limit is no count.
def leader (limits requests : Dict Value) (k : Str) : Option Value :=
  ((limits.get k).filter fun v => (count? v).isSome).or (requests.get k)

-- Every quantity is that of a literal value of its key.
def Agree (leader : Str → Option Value) (m : Dict Value) : Prop :=
  ∀ k v, isAccelerator k → m.get k = some v → ∃ u, leader k = some u ∧ Literal u ∧ amount? u = amount? v

section Counts

variable {v : Value} {q : ℚ} {m limits requests : Dict Value} {k : Str}

theorem parseInt64Quantity_eq (s : Str) : parseInt64Quantity s = Quantity.leading s := by
  have h : ∀ (ds : Str) (n : Nat), (∀ b ∈ ds, Quantity.isDigit b) →
      ds.foldl (fun (v : Int) c => v * 10 + (c.toNat - 48)) n =
        ((ds.foldl (fun v b => v * 10 + (b.toNat - 48)) n : Nat) : Int) := by
    intro ds n hd
    induction ds generalizing n
    case nil          => rfl
    case cons b ds hi =>
      have hb := Quantity.digit_toNat (hd b (.head _))
      rw [List.foldl_cons, List.foldl_cons, ← hi _ fun c hc => hd c (.tail _ hc)]
      congr 1
      omega
  exact congrArg (Int.bmod · (2 ^ 64)) (h _ 0 (Quantity.whole_digits s))

-- A value counts for what it stands for if and only if it is literal.
theorem literal_iff (h : amount? v = some q) : Literal v ↔ ∃ n : Int, count? v = some n ∧ q = n := by
  cases v
  case int n    =>
    cases h
    exact iff_of_true trivial ⟨n, rfl, rfl⟩
  case string s =>
    simp only [count?, parseInt64Quantity_eq, Literal]
    by_cases hs : 0 < Quantity.leading s
    case pos => simp [hs, ← Quantity.leading_eq_iff h hs, eq_comm]
    case neg => simp [hs, mt Quantity.Plain.leading_pos hs]
  all_goals cases h

theorem leader_mem (h : leader limits requests k = some v) : limits.get k = some v ∨ requests.get k = some v := by
  obtain h | ⟨-, h⟩ := Option.or_eq_some_iff.mp h
  case inl => exact .inl (Option.filter_eq_some_iff.mp h).left
  case inr => exact .inr h

end Counts
section Agreement

variable {limits requests : Dict Value} {leader : Str → Option Value} {shown : Dict Int}

-- What is shown is what the leaders count for.
theorem shown_iff (hl : Quantified limits) (hr : Quantified requests)
    (hm : ∀ k v, leader k = some v → limits.get k = some v ∨ requests.get k = some v)
    (hs : ∀ k, isAccelerator k → shown.get k = (leader k).bind count?) :
    Shown limits shown ∧ Shown requests shown ↔ Agree leader limits ∧ Agree leader requests := by
  have hq : ∀ k v, isAccelerator k → leader k = some v → ∃ q, amount? v = some q := by
    intro k v hk hv
    cases hm k v hv
    case inl h => exact hl k v hk h
    case inr h => exact hr k v hk h
  constructor
  case mp =>
    rintro ⟨hsl, hsr⟩
    have hall : ∀ m, Shown m shown → Agree leader m := by
      intro m hsm k v hk hv
      obtain ⟨n, hn, ha⟩ := hsm k v hk hv
      rw [hs k hk] at hn
      obtain ⟨u, hu, hc⟩ := Option.bind_eq_some_iff.mp hn
      -- The leader is itself a value that is shown.
      have hau : amount? u = some ↑n := by
        obtain ⟨n', hn', ha'⟩ : ∃ n' : Int, shown.get k = some n' ∧ amount? u = some ↑n' := by
          cases hm k u hu
          case inl h => exact hsl k u hk h
          case inr h => exact hsr k u hk h
        rw [hs k hk, hn] at hn'
        cases hn'
        exact ha'
      exact ⟨u, hu, (literal_iff hau).mpr ⟨n, hc, rfl⟩, hau.trans ha.symm⟩
    exact ⟨hall _ hsl, hall _ hsr⟩
  case mpr =>
    have hall : ∀ m, Agree leader m → Shown m shown := by
      intro m ham k v hk hv
      obtain ⟨u, hu, hlu, ha⟩ := ham k v hk hv
      obtain ⟨q, hqu⟩ := hq k u hk hu
      obtain ⟨n, hc, rfl⟩ := (literal_iff hqu).mp hlu
      exact ⟨n, by simp [hs k hk, hu, hc], ha.symm.trans hqu⟩
    rintro ⟨hal, har⟩
    exact ⟨hall _ hal, hall _ har⟩

-- What is saved is what was shown.
theorem saved_iff {m : Dict Value} (cpu memory : Str) :
    Kept m (quantities cpu memory shown.entries) ↔ Shown m shown := by
  constructor
  case mp =>
    intro h k v hk hv
    obtain ⟨v', hv', ha⟩ := h k v hk hv
    rw [get_quantities_accelerator hk] at hv'
    obtain ⟨n, hn, rfl⟩ := Option.map_eq_some_iff.mp hv'
    exact ⟨n, hn, ha.symm⟩
  case mpr =>
    intro h k v hk hv
    obtain ⟨n, hn, ha⟩ := h k v hk hv
    exact ⟨.int n, by rw [get_quantities_accelerator hk, hn]; rfl, ha.symm⟩

end Agreement
section Projections

variable {o : Fields} {limits requests : Dict Value}

theorem get_mergeAcceleratorResources (limits requests : Dict Value) {k : Str} (hk : isAccelerator k) :
    (mergeAcceleratorResources limits.entries requests.entries).get k = (leader limits requests k).bind count? := by
  simp only [mergeAcceleratorResources, leader]
  rw [get_collectAll requests.sorted, get_collectAll limits.sorted]
  simp only [hk, if_true, Dict.get_empty, Option.none_or]
  change ((limits.get k).bind count?).or ((requests.get k).bind count?) = _
  cases hv : limits.get k
  case none   => simp
  case some v => cases hc : count? v <;> simp [hc, Option.filter]

theorem Declares.gpuValues (h : Declares o [str "resources"] limits requests) :
    (containerResources o).gpuValues = mergeAcceleratorResources limits.entries requests.entries := by
  have hl := h.limits
  have hr := h.requests
  simp only [List.cons_append, List.nil_append] at hl hr
  simp only [containerResources, hl, hr]

theorem get_projectTrainJob (h : Declares o [str "spec", str "trainer", str "resourcesPerNode"] limits requests)
    (hq : Quantified limits) {k : Str} (hk : isAccelerator k) :
    (projectTrainJob o).gpuValues.get k = (limits.get k).bind count? := by
  have hl := h.limits
  simp only [List.cons_append, List.nil_append] at hl
  simp only [projectTrainJob, List.map_cons, List.map_nil, hl]
  rw [get_collectAllTrainJob limits.sorted, if_neg (Reserved.not_accelerator hk), Dict.get_empty, Option.or_none]
  change (limits.get k).bind trainJobCount? = _
  cases hv : limits.get k
  case none   => rfl
  case some v =>
    -- A floating point number is no quantity.
    obtain ⟨q, ha⟩ := hq k v hk hv
    cases v
    case float => cases ha
    all_goals rfl

-- The quantities of a container are what is shown of it, and what a service has that is saved with what was shown, if
-- and only if those of a key are all that of its leader, an integer or a plain text. A job has to have it in its limits.
theorem accelerators_preserved_iff {job : Fields} {req : CreateServiceRequest}
    (hc : Declares o [str "resources"] limits requests)
    (hj : Declares job [str "spec", str "trainer", str "resourcesPerNode"] limits requests)
    (hl : Quantified limits) (hr : Quantified requests) (hg : req.gpuValues = (containerResources o).gpuValues) :
    (((Shown limits (containerResources o).gpuValues ∧ Shown requests (containerResources o).gpuValues) ∧
        Kept limits (resourceLimits (normaliseServiceRequest req)) ∧
        Kept requests (resourceRequests (normaliseServiceRequest req))) ↔
      Agree (leader limits requests) limits ∧ Agree (leader limits requests) requests) ∧
    ((Shown limits (projectTrainJob job).gpuValues ∧ Shown requests (projectTrainJob job).gpuValues) ↔
      Agree limits.get limits ∧ Agree limits.get requests) := by
  constructor
  case left =>
    have hs := shown_iff hl hr (fun _ _ => leader_mem) fun _ => get_mergeAcceleratorResources limits requests
    rw [← hc.gpuValues] at hs
    have hn : (normaliseServiceRequest req).gpuValues = (containerResources o).gpuValues := hg
    simp only [resourceLimits, resourceRequests, hn, saved_iff, and_self]
    exact hs
  case right => exact shown_iff hl hr (fun _ _ => .inl) fun _ => get_projectTrainJob hj hl

section Examples

def resourcesOf (path : List String) (m : Dict Value) : Fields :=
  path.foldr (fun k o => mapOf [(k, .obj o)]) (mapOf [("limits", .obj m.entries), ("requests", .obj m.entries)])

def only (key amount : String) : Dict Value :=
  Dict.empty.set (str key) (.string (str amount))

theorem get_only {key amount : String} {k : Str} {v : Value} (h : (only key amount).get k = some v) :
    k = str key ∧ v = .string (str amount) := by
  simp only [only, Dict.get_set, Dict.get_empty] at h
  split at h
  case isTrue hk => exact ⟨hk, (Option.some.inj h).symm⟩
  case isFalse   => cases h

def saving (shown : Dict Int) : CreateServiceRequest :=
  { embed with gpuValues := shown }

def cards : Dict Value :=
  only "nvidia.com/gpu" "2"

theorem two_cards_preserved :
    let shown := (containerResources (resourcesOf ["resources"] cards)).gpuValues
    let saved := normaliseServiceRequest (saving shown)
    Shown cards shown ∧ Kept cards (resourceLimits saved) ∧ Kept cards (resourceRequests saved) ∧
      Shown cards (projectTrainJob (resourcesOf ["spec", "trainer", "resourcesPerNode"] cards)).gpuValues := by
  have hq : Quantified cards := by
    intro k v _ h
    rw [(get_only h).right]
    exact ⟨2, by decide +kernel⟩
  have ha : ∀ f : Str → Option Value, f (str "nvidia.com/gpu") = some (.string (str "2")) → Agree f cards := by
    intro f hf k v _ h
    rw [(get_only h).right, (get_only h).left]
    have hp : Quantity.Plain (str "2") := by
      refine ⟨?_, ?_, ?_, .inl ?_⟩ <;> decide +kernel
    exact ⟨_, hf, hp, rfl⟩
  have hcd : Declares (resourcesOf ["resources"] cards) [str "resources"] cards cards := ⟨by rfl, by rfl⟩
  have hjd : Declares (resourcesOf ["spec", "trainer", "resourcesPerNode"] cards)
      [str "spec", str "trainer", str "resourcesPerNode"] cards cards := ⟨by rfl, by rfl⟩
  have hg : (saving (containerResources (resourcesOf ["resources"] cards)).gpuValues).gpuValues =
      (containerResources (resourcesOf ["resources"] cards)).gpuValues := rfl
  obtain ⟨hc, hj⟩ := accelerators_preserved_iff hcd hjd hq hq hg
  have hl := ha cards.get (by rfl)
  have hn := ha (leader cards cards) (by rfl)
  obtain ⟨⟨hs, -⟩, hkl, hkr⟩ := hc.mpr ⟨hn, hn⟩
  exact ⟨hs, hkl, hkr, (hj.mpr ⟨hl, hl⟩).left⟩

-- The suffix is not read, so that sixteen thousand are sixteen afterwards.
theorem suffix_lost :
    ¬∀ (o : Fields) (m : Dict Value), Declares o [str "resources"] m m → Quantified m →
      Shown m (containerResources o).gpuValues ∧
        Kept m (resourceLimits (normaliseServiceRequest (saving (containerResources o).gpuValues))) := by
  intro h
  have hq : Quantified (only "nvidia.com/gpumem" "16k") := by
    intro k v _ h
    rw [(get_only h).right]
    exact ⟨16000, by decide +kernel⟩
  obtain ⟨-, hk⟩ := h (resourcesOf ["resources"] (only "nvidia.com/gpumem" "16k")) _ ⟨by rfl, by rfl⟩ hq
  obtain ⟨v, hv, ha⟩ := hk (str "nvidia.com/gpumem") (.string (str "16k")) (by decide) (by rfl)
  have hs : v = .int 16 := Option.some.inj (hv.symm.trans (by rfl))
  rw [hs] at ha
  revert ha
  decide +kernel

end Examples
end Projections
end Inference

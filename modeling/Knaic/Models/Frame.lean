import Knaic.Hub.Pool

open Go Effects

namespace Models

open Auth Hub Contract

-- The same model, apart from a number of downloads that has not gone down.
structure Frame (m m' : Model) : Prop where
  fields    : m' = { m with downloads := m'.downloads, updatedAt := m'.updatedAt }
  downloads : m.downloads ≤ m'.downloads

namespace Frame

theorem refl (m : Model) : Frame m m where
  fields    := rfl
  downloads := Int64.le_refl _

theorem trans {m₁ m₂ m₃ : Model} (h : Frame m₁ m₂) (h' : Frame m₂ m₃) : Frame m₁ m₃ where
  fields    := h'.fields.trans (by rw [h.fields])
  downloads := Int64.le_trans h.downloads h'.downloads

theorem updated {m m' : Model} (h : Frame m m') (t : Time) :
    Frame m { m' with updatedAt := t } where
  fields    := by rw [h.fields]
  downloads := h.downloads

theorem scope {m m' : Model} (h : Frame m m') : m'.scope = m.scope := by
  rw [h.fields]

theorem ns {m m' : Model} (h : Frame m m') : m'.ns = m.ns := by
  rw [h.fields]

end Frame

-- A number of downloads that is added to the counter of a model without taking it down.
def Adds (m : Model) (n : Int64) : Prop :=
  0 ≤ n ∧ m.downloads.toInt + n.toInt ≤ Int64.maxValue.toInt

instance (m : Model) (n : Int64) : Decidable (Adds m n) :=
  inferInstanceAs (Decidable (_ ∧ _))

theorem Adds.le {m : Model} {n : Int64} (h : Adds m n) : m.downloads ≤ m.downloads + n := by
  have hn := Int64.le_iff_toInt_le.mp h.left
  have hs := h.right
  have hl := Int64.le_toInt m.downloads
  rw [Int64.le_iff_toInt_le, Int64.toInt_add, Int.bmod_eq_of_le]
  all_goals
    simp only [Int64.toInt_zero, Int64.toInt_maxValue] at hn hs
    omega

-- A patch that passes no gate.
theorem PatchRequest.on_frame {req : PatchRequest} {m : Model} (h : req.mutateScope = false)
    (hn : ∀ n ∈ req.incDownloads, Adds m n) : Frame m (req.on m) := by
  have ⟨readme, tags, incDownloads, collectionID, parentModelID, derivedKind, sourceURL⟩ := req
  simp only [mutateScope, Bool.or_eq_false_iff, Bool.not_eq_eq_eq_not, Bool.not_false,
    Option.isSome_eq_false_iff, Option.isNone_iff_eq_none] at h
  obtain ⟨⟨⟨⟨⟨rfl, ht⟩, rfl⟩, rfl⟩, rfl⟩, rfl⟩ := h
  constructor
  case fields => simp [on, ht]
  case downloads =>
    cases incDownloads
    case none   => exact Int64.le_refl _
    case some n => exact (hn n rfl).le

-- The calls of users who are not authorised to write the scope and the namespace of `m`.
def Unauthorised (m : Model) : Pool.Condition (ops.extend edits) Draw World Kind
  | i, .inl (.canWritePrivateModel _ ns), d, _ => (∀ u ∈ i.user, ¬u.isPlatformAdmin) ∧
                                                  ¬(m.scope = .scopePrivate ∧ ns = m.ns ∧
                                                    d.writable = .ok true)
  | i, _, _, _                                 => ∀ u ∈ i.user, ¬u.isPlatformAdmin

-- The model `id` is not overwritten by a new one, and its downloads are only added to.
def Counted (id : Str) : Pool.Condition (ops.extend edits) Draw World Kind
  | _, .inl (.modelCreate m), _, _              => m.id ≠ id
  | .patch _ _ req, .inr (.modelUpdate k _), _, w => k = id →
                                                   ∀ m ∈ w.models.lookup id,
                                                   ∀ n ∈ req.incDownloads, Adds m n
  | _, _, _, _                                  => True

instance (m : Model) (i : Kind) (op : (ops.extend edits).Op) (d : Draw) (w : World) :
    Decidable (Unauthorised m i op d w) :=
  match op with
  | .inl (.canWritePrivateModel _ _) => inferInstanceAs (Decidable (_ ∧ ¬_))
  | .inl (.modelGet _) | .inl (.modelCreate _) | .inl (.requestGet _) | .inl (.requestCreate _)
  | .inl (.requestUpdate _ _) | .inl (.requestDelete _) | .inl (.newID _) | .inl .now | .inr _ =>
    inferInstanceAs (Decidable (∀ u ∈ i.user, ¬u.isPlatformAdmin))

instance (id : Str) (i : Kind) (op : (ops.extend edits).Op) (d : Draw) (w : World) :
    Decidable (Counted id i op d w) :=
  match op with
  | .inl (.modelCreate m)   => inferInstanceAs (Decidable (m.id ≠ id))
  | .inr (.modelUpdate k _) =>
    match i with
    | .patch _ _ req =>
      -- By looking at the number that there is, not at all numbers.
      have : ∀ m, Decidable (∀ n ∈ req.incDownloads, Adds m n) :=
        fun _ => req.incDownloads.decidableForallMem
      inferInstanceAs (Decidable (k = id → ∀ m ∈ w.models.lookup id,
        ∀ n ∈ req.incDownloads, Adds m n))
    | .create _ _ | .importModel _ _ | .upload _ _ | .delete _ _ | .publish _ => isTrue trivial
  | .inl (.modelGet _) | .inl (.requestGet _) | .inl (.requestCreate _) | .inl (.requestUpdate _ _)
  | .inl (.requestDelete _) | .inl (.canWritePrivateModel _ _) | .inl (.newID _) | .inl .now
  | .inr (.modelDelete _)   => isTrue trivial

theorem Unauthorised.user {m : Model} {i : Kind} {op : (ops.extend edits).Op} {d : Draw} {w : World}
    (h : Unauthorised m i op d w) : ∀ u ∈ i.user, ¬u.isPlatformAdmin := by
  unfold Unauthorised at h
  split at h
  case h_1 => exact h.left
  case h_2 => exact h

-- The model that is stored under `id` differs from `m` only in its downloads.
def Stored (id : Str) (m : Model) (w : World) : Prop :=
  ∃ m', w.models.lookup id = some m' ∧ Frame m m'

def Kept (id : Str) (w w' : World) : Prop :=
  ∀ m, w.models.lookup id = some m → Stored id m w'

section Kept

variable {id : Str} {m : Model} {w w' w'' : World}

theorem Kept.of_lookup (h : w'.models.lookup id = w.models.lookup id) : Kept id w w' :=
  fun m hm => ⟨m, h.trans hm, .refl m⟩

theorem Kept.of_eq (h : w'.models = w.models) : Kept id w w' :=
  .of_lookup (by rw [h])

theorem Stored.stable (h : Stored id m w) (hk : Kept id w w') : Stored id m w' := by
  have ⟨m', hm, hf⟩  := h
  have ⟨m₂, hm', hg⟩ := hk m' hm
  exact ⟨m₂, hm', hf.trans hg⟩

theorem Kept.trans (h : Kept id w w') (h' : Kept id w' w'') : Kept id w w'' :=
  fun m hm => (h m hm).stable h'

end Kept

variable {authorizer : Bool} {parse : Str → Except Error (Str × Str)} {id : Str} {m : Model}

def frame (authorizer : Bool) (parse : Str → Except Error (Str × Str)) (id : Str) (m : Model) :
    Contract (pool authorizer parse) where
  inv            := Stored id m
  rely           := Kept id
  guar i op d w  := Kept id w ((pool authorizer parse).answer i op d w).2
  refl _         := .of_eq rfl
  trans          := .trans
  guar_inv hk h  := h.stable hk
  guar_rely hk _ := hk
  env_inv h      := h
  env_rely _     := .of_eq rfl

abbrev Allowed (id : Str) (m : Model) : Pool.Condition (ops.extend edits) Draw World Kind :=
  fun i op d w => Unauthorised m i op d w ∧ Counted id i op d w

section Operations

variable {i : Kind} {d : Draw} {w : World}

abbrev Leaves (authorizer : Bool) (parse : Str → Except Error (Str × Str)) (id : Str) (i : Kind)
    (op : (ops.extend edits).Op) (d : Draw) (w : World) : Prop :=
  Kept id w ((pool authorizer parse).answer i op d w).2

theorem modelCreate_keeps {m : Model} (h : m.id ≠ id) :
    Leaves authorizer parse id i (.inl (.modelCreate m)) d w := by
  unfold Leaves
  cases modelCreate_answer authorizer parse i d w m
  case inl h =>
    have ⟨e, h⟩ := h
    rw [h]
    exact .of_eq rfl
  case inr h =>
    rw [h]
    exact .of_lookup (Finmap.lookup_insert_of_ne _ (Ne.symm ‹_›))

theorem base_keeps {op : ops.Op} (h : Counted id i (.inl op) d w) :
    Leaves authorizer parse id i (.inl op) d w := by
  by_cases hc : ∃ m, op = .modelCreate m
  case pos =>
    have ⟨m, hm⟩ := hc
    subst hm
    exact modelCreate_keeps h
  case neg =>
    refine .of_eq ?_
    show World.models (World.record _ i op _) = _
    rw [World.models, World.record_stores]
    exact answer_models (fun m hm => hc ⟨m, hm⟩) d w.stores

theorem modelUpdate_keeps {k : Str} {f : Model → Except Error Model}
    (h : k = id → ∀ m m₁, w.models.lookup id = some m → f m = .ok m₁ → Frame m m₁) :
    Leaves authorizer parse id i (.inr (.modelUpdate k f)) d w := by
  unfold Leaves
  cases modelUpdate_answer authorizer parse i d w k f
  case inl h =>
    have ⟨e, h⟩ := h
    rw [h]
    exact .of_eq rfl
  case inr h' =>
    have ⟨m, m₁, hl, hf, he⟩ := h'
    rw [he]
    by_cases hk : k = id
    case neg => exact .of_lookup (Finmap.lookup_insert_of_ne _ (Ne.symm hk))
    case pos =>
      subst hk
      intro m' hm'
      cases hl.symm.trans hm'
      exact ⟨_, Finmap.lookup_insert _, (h rfl m m₁ hl hf).updated _⟩

theorem modelDelete_keeps {k : Str} (h : k ≠ id) :
    Leaves authorizer parse id i (.inr (.modelDelete k)) d w := by
  unfold Leaves
  cases modelDelete_answer authorizer parse i d w k
  case inl h =>
    have ⟨e, h⟩ := h
    rw [h]
    exact .of_eq rfl
  case inr h' =>
    rw [h']
    exact .of_lookup (Finmap.lookup_erase_ne (Ne.symm h))

end Operations

-- The contract as it is to calls that do not edit models.
abbrev unedited (authorizer : Bool) (parse : Str → Except Error (Str × Str)) (id : Str)
    (m : Model) :=
  (frame authorizer parse id m).restrict fun _ => (.ret (.ok ()) : Prog ops (Except Error Unit))

section Calls

variable {i : Kind} {w : World} {u : Option User}

-- What does not edit models needs no more than its identifiers to be new.
theorem base_safe (p : Prog ops α) :
    (unedited authorizer parse id m).Safe (Allowed id m).restrict i (fun _ _ => True) p w :=
  Safe.of_only p.only_any fun _ _ _ _ _ _ h => base_keeps h.right

theorem canWritePrivateModel_safe {u : User} (hm : m.scope = .scopePrivate) :
    (unedited authorizer parse id m).Safe (Allowed id m).restrict i (Ok fun ok _ => ok = false)
      (canWritePrivateModel u m.ns) w := by
  refine Safe.perform (fun _ _ _ _ h => base_keeps h.right) fun w₁ _ _ d h _ _ _ => ?_
  refine Ok.intro fun ok hok => ?_
  cases ok
  case false => rfl
  case true  => exact absurd ⟨hm, rfl, hok⟩ h.left.right

-- The gate of the model is closed to whoever is not authorised.
theorem gateWrite_refuses (hu : ∀ u' ∈ u, ¬u'.isPlatformAdmin) (hi : Stored id m w) :
    (unedited authorizer parse id m).Safe (Allowed id m).restrict i (Ok fun _ _ => False)
      (gateWrite authorizer u m.scope m.ns) w := by
  unfold gateWrite
  split
  case h_1 => exact Safe.throw
  case h_2 u =>
    rw [if_neg (hu u rfl)]
    split
    case h_1 => exact Safe.throw
    case h_3 => exact Safe.throw
    case h_2 hm =>
      refine Safe.guard fun _ => ?_
      refine Safe.guard fun _ => ?_
      refine Safe.seq (canWritePrivateModel_safe hm) hi fun ok _ _ _ hok => ?_
      rw [hok]
      exact Safe.throw

-- Whoever is not authorised passes the gate of another model, or none.
theorem gated_safe {k : Str} {need : Bool} (hu : ∀ u' ∈ u, ¬u'.isPlatformAdmin)
    (hi : Stored id m w) :
    (frame authorizer parse id m).Safe (Allowed id m) i (Ok fun _ _ => k = id → need = false)
      (gated authorizer u k need).lift w := by
  suffices h : (unedited authorizer parse id m).Safe (Allowed id m).restrict i
      (Ok fun _ _ => k = id → need = false) (gated authorizer u k need) w from Safe.lift_call h
  have hg : (unedited authorizer parse id m).Safe (Allowed id m).restrict i
      (Ok fun m' _ => k = id → m'.scope = m.scope ∧ m'.ns = m.ns) (modelGet k) w := by
    refine Safe.perform (fun _ _ _ _ h => base_keeps h.right) fun w₁ _ hi d _ _ _ _ => ?_
    refine Ok.intro fun m' hm hk => ?_
    subst hk
    have ⟨m₁, hl, hf⟩ := hi
    cases (modelGet_ok hm).symm.trans hl
    exact ⟨hf.scope, hf.ns⟩
  refine Safe.seq hg hi fun m' w₁ _ hi₁ hm => ?_
  cases need
  case false => exact Safe.pure fun _ _ _ _ => rfl
  case true =>
    by_cases hk : k = id
    case neg => exact (base_safe _).mono fun _ _ _ => Ok.intro fun _ _ hk' => absurd hk' hk
    case pos =>
      have ⟨hs, hn⟩ := hm hk
      rw [if_pos rfl, hs, hn]
      exact (gateWrite_refuses hu hi₁).mono fun r _ h => by cases r <;> trivial

theorem edit_safe {op : edits.Op} {w : World} (h : ∀ w₁ d, Allowed id m i (.inr op) d w₁ →
    Leaves authorizer parse id i (.inr op) d w₁) :
    (frame authorizer parse id m).Safe (Allowed id m) i (fun _ _ => True)
      (@Prog.extra ops edits op) w :=
  fun w₁ _ _ d hp => ⟨h w₁ d hp, fun _ _ _ => trivial⟩

theorem patch_safe {k : Str} {req : PatchRequest} (hu : ∀ u' ∈ u, ¬u'.isPlatformAdmin)
    (hi : Stored id m w) :
    (frame authorizer parse id m).Safe (Allowed id m) (.patch u k req) (Ok fun _ _ => True)
      (patch authorizer u k req) w := by
  refine Safe.seq (gated_safe hu hi) hi fun _ _ _ _ hn => Safe.ok (edit_safe fun w₁ d hp => ?_)
  refine modelUpdate_keeps fun hk m' m₁ hl hf => ?_
  cases hf
  exact PatchRequest.on_frame (hn hk) (hp.right hk m' hl)

theorem delete_safe {k : Str} (hu : ∀ u' ∈ u, ¬u'.isPlatformAdmin) (hi : Stored id m w) :
    (frame authorizer parse id m).Safe (Allowed id m) i (Ok fun _ _ => True)
      (delete authorizer u k) w := by
  refine Safe.seq (gated_safe hu hi) hi fun _ _ _ _ hn => Safe.ok (edit_safe fun _ _ _ => ?_)
  exact modelDelete_keeps fun hk => by cases hn hk

end Calls

theorem frame_keeps : (frame authorizer parse id m).Keeps (Allowed id m) := by
  intro i w hi
  by_cases hu : ∀ u ∈ i.user, ¬u.isPlatformAdmin
  case neg =>
    -- No operation of an administrator is allowed.
    exact Safe.of_only (Prog.only_any _) fun _ _ _ _ _ _ h => absurd h.left.user hu
  case pos =>
    cases i
    case create      => exact Safe.lift_prog (base_safe _)
    case importModel => exact Safe.lift_prog (base_safe _)
    case upload      => exact Safe.lift_prog (base_safe _)
    case publish     => exact Safe.lift_prog (base_safe _)
    case patch       => exact (patch_safe hu hi).void hi
    case delete      => exact (delete_safe hu hi).any

section Fixtures

def counter : Model where
  id            := str "m-1"
  name          := str "qwen"
  owner         := str "ada"
  scope         := .scopePublic
  ns            := []
  uri           := str "hf://ada/qwen"
  scheme        := .hf
  tags          := some []
  modelType     := str "llm"
  sizeGB        := 0
  downloads     := 2
  createdAt     := ⟨1, 0⟩
  updatedAt     := ⟨1, 0⟩
  readme        := []
  collectionID  := []
  parentModelID := []
  derivedKind   := []
  sourceURL     := []

def shelf : World where
  stores    := { models := Finmap.singleton (str "m-1") counter, requests := ∅ }
  first     := ∅
  opened    := ∅
  published := []
  withdrawn := []

def visitor : User where
  subject         := str "bob"
  email           := str "bob@example.com"
  name            := str "bob"
  groups          := []
  isPlatformAdmin := false

-- A call of the visitor that adds `n` to the downloads.
def counting (n : Int64) : List (Pick Draw Kind) :=
  let d := { now := ⟨2, 0⟩, random := .replicate 4 0, writable := .ok false, failure := none }
  [.start (.patch visitor (str "m-1") ⟨none, [], n, none, none, none, none⟩), .act 0 d, .act 0 d]

end Fixtures

-- In every run of calls by users who are not authorised to write the scope and namespace of `m`, in
-- which no new model takes its identifier and its downloads are only added to, the model stays with
-- the same fields, and from one moment of the run to a later one its downloads do not go down.
theorem kept_if_counted (authorizer : Bool) (parse : Str → Except Error (Str × Str)) (id : Str)
    (m : Model) (w : World) (hm : w.models.lookup id = some m) (ps qs : List (Pick Draw Kind))
    (hu : (pool authorizer parse).Allows (Unauthorised m) (ps ++ qs) ⟨w, []⟩)
    (hc : (pool authorizer parse).Allows (Counted id) (ps ++ qs) ⟨w, []⟩) :
    ∃ m₁ m₂, ((pool authorizer parse).run ⟨w, []⟩ ps).world.models.lookup id = some m₁ ∧
      ((pool authorizer parse).run ⟨w, []⟩ (ps ++ qs)).world.models.lookup id = some m₂ ∧
      Frame m m₁ ∧ Frame m₁ m₂ := by
  have ha : (pool authorizer parse).Allows (Allowed id m) (ps ++ qs) ⟨w, []⟩ :=
    (hu.and hc).mono fun _ _ h => Pool.Meets.and h.left h.right
  have ⟨h₁, h₂⟩ := Pool.throughout_append.mp ha
  have hs : (frame authorizer parse id m).Holds (Allowed id m) ⟨w, []⟩ :=
    ⟨⟨m, hm, .refl m⟩, fun _ h => by cases h⟩
  have hr := hs.run frame_keeps h₁
  have ⟨m₁, hm₁, hf₁⟩ := hr.inv
  have ⟨m₂, hm₂, hf₂⟩ := hr.run_rely frame_keeps h₂ m₁ hm₁
  rw [Pool.run_append]
  exact ⟨m₁, m₂, hm₁, hm₂, hf₁, hf₂⟩


theorem kept_if_counted_counter :
    ∃ m₁ m₂, ((pool true fun _ => .error (.foreign [])).run ⟨shelf, []⟩
        (counting 3)).world.models.lookup (str "m-1") = some m₁ ∧
      ((pool true fun _ => .error (.foreign [])).run ⟨shelf, []⟩
        (counting 3 ++ [])).world.models.lookup (str "m-1") = some m₂ ∧
      Frame counter m₁ ∧ Frame m₁ m₂ :=
  kept_if_counted true (fun _ => .error (.foreign [])) (str "m-1") counter shelf (by decide)
    (counting 3) [] (by decide) (by decide)

-- A visitor takes one download off a public model.
theorem counted_down :
    ¬∀ authorizer parse id (m : Model) (w : World), w.models.lookup id = some m → ∀ ps,
      (pool authorizer parse).Allows (Unauthorised m) ps ⟨w, []⟩ →
      ∃ m', ((pool authorizer parse).run ⟨w, []⟩ ps).world.models.lookup id = some m' ∧
        Frame m m' := by
  intro h
  have ⟨m', hm, hf⟩ := h true (fun _ => .error (.foreign [])) (str "m-1") counter shelf (by decide)
    (counting (-1)) (by decide)
  have hd : (((pool true fun _ => .error (.foreign [])).run ⟨shelf, []⟩
      (counting (-1))).world.models.lookup (str "m-1")).map (·.downloads) = some 1 := by
    decide
  rw [hm] at hd
  have h₁ : m'.downloads = 1 := Option.some.inj hd
  have hl := hf.downloads
  rw [h₁] at hl
  exact absurd hl (by decide)

end Models

import Knaic.Storage.Store

open Go Effects

namespace Storage

-- What the target says of itself, as an input.
def Target.input (t : Target) : CreateInput :=
  ⟨t.name, t.kind, t.endpoint, t.bucket, t.pathPrefix⟩

namespace Store

structure Valid (init s : Store) : Prop where
  fields   : ∀ id t, s.Open id t → validateCreate t.input = .ok ()
  names    : ∀ id id' t t', s.targets.lookup id = some t → s.targets.lookup id' = some t' → t.name = t'.name → id = id'
  builtins : BuiltinsOf init s

-- A name that is given is not empty and no other target's, and neither is a field empty that the
-- kind requires.
structure Fits (s : Store) (id : Str) (p : PatchInput) (t : Target) : Prop where
  name     : ∀ name, p.name = some name → name ≠ [] ∧ ∀ id' t', s.targets.lookup id' = some t' → t'.name = name → id' = id
  endpoint : ∀ endpoint, p.endpoint = some endpoint → t.kind = .kindPVC ∨ endpoint ≠ []
  bucket   : ∀ bucket, p.bucket = some bucket → t.kind = .kindS3 → bucket ≠ []

-- The patches that fit the target they change.
def Permitted (op : Op) (_ : Str) (s : Store) : Prop :=
  ∀ id p, op = .patch id p → ∀ t, s.Open id t → s.Fits id p t

theorem validateCreate_iff (input : CreateInput) : validateCreate input = .ok () ↔
    input.name ≠ [] ∧ (input.kind = .kindS3 ∧ input.endpoint ≠ [] ∧ input.bucket ≠ [] ∨
      input.kind = .kindOCI ∧ input.endpoint ≠ [] ∨ input.kind = .kindPVC) := by
  unfold validateCreate
  by_cases hn : input.name = []
  case pos => simp [hn]
  case neg => cases input.kind <;> simp [hn]

section Steps

variable {init s : Store} {t : Target} {input : CreateInput} {p : PatchInput} {id now : Str}

theorem Valid.create (h : Valid init s) (hn : s.Numbered) (ha : s.Accepts input) :
    Valid init ⟨s.targets.insert (idFor (s.nextID + 1)) (s.made input now), s.nextID + 1⟩ where
  fields   := by
    rintro id t ⟨hl, hb⟩
    obtain ⟨rfl, rfl⟩ | hl := Map.lookup_insert_some hl
    case inl => exact ha.valid
    case inr => exact h.fields id t ⟨hl, hb⟩
  names    := by
    intro id id' t t' hl hl' he
    obtain ⟨rfl, rfl⟩ | hl := Map.lookup_insert_some hl
    all_goals obtain ⟨rfl, rfl⟩ | hl' := Map.lookup_insert_some hl'
    case inl.inl => rfl
    case inl.inr => exact absurd he.symm (ha.fresh id' t' hl')
    case inr.inl => exact absurd he (ha.fresh id t hl)
    case inr.inr => exact h.names id id' t t' hl hl' he
  builtins := h.builtins.insert (by simp [hn.fresh]) rfl

theorem Valid.delete (h : Valid init s) (ho : s.Open id t) : Valid init { s with targets := s.targets.erase id } where
  fields   := fun id' t' ho' => h.fields id' t' ⟨Map.lookup_erase_some ho'.left, ho'.right⟩
  names    := fun id id' t t' hl hl' => h.names id id' t t' (Map.lookup_erase_some hl) (Map.lookup_erase_some hl')
  builtins := h.builtins.erase ho

-- What is patched passes if and only if what is given does.
theorem validateCreate_apply (h : validateCreate t.input = .ok ()) : validateCreate (p.apply t).input = .ok () ↔
    (∀ name, p.name = some name → name ≠ []) ∧
    (∀ endpoint, p.endpoint = some endpoint → t.kind = .kindPVC ∨ endpoint ≠ []) ∧
    ∀ bucket, p.bucket = some bucket → t.kind = .kindS3 → bucket ≠ [] := by
  rw [validateCreate_iff] at h ⊢
  simp only [Target.input, PatchInput.apply] at h ⊢
  obtain ⟨hn, hk⟩ := h
  have hd : ∀ (o : Option Str) (d : Str), d ≠ [] → (o.getD d ≠ [] ↔ ∀ v, o = some v → v ≠ []) := by
    intro o d hd
    cases o <;> simp [hd]
  rw [hd _ _ hn]
  apply and_congr_right'
  rcases hk with ⟨hk, he, hb⟩ | ⟨hk, he⟩ | hk
  case inl     => simp [hk, hd _ _ he, hd _ _ hb]
  case inr.inl => simp [hk, hd _ _ he]
  case inr.inr => simp [hk]

theorem Valid.patch_iff (h : Valid init s) (ho : s.Open id t) :
    Valid init { s with targets := s.targets.insert id (p.apply t) } ↔ s.Fits id p t := by
  have hs : (s.targets.insert id (p.apply t)).lookup id = some (p.apply t) := Finmap.lookup_insert ..
  constructor
  case mp  =>
    intro hv
    obtain ⟨hn, he, hb⟩ := (validateCreate_apply (h.fields id t ho)).mp (hv.fields id _ ⟨hs, ho.right⟩)
    refine ⟨fun name hp => ⟨hn name hp, fun id' t' hl' hn' => ?_⟩, he, hb⟩
    by_contra hi
    refine hi (hv.names id' id t' (p.apply t) ?_ hs (by simp [PatchInput.apply, hp, hn']))
    rwa [Finmap.lookup_insert_of_ne _ hi]
  case mpr =>
    intro hf
    have hv := (validateCreate_apply (h.fields id t ho)).mpr ⟨fun name hp => (hf.name name hp).left, hf.endpoint, hf.bucket⟩
    -- Another target has not the name that this one has now.
    have hn : ∀ id' t', s.targets.lookup id' = some t' → t'.name = (p.apply t).name → id' = id := by
      intro id' t' hl' he
      cases hp : p.name
      case none      => exact h.names id' id t' t hl' ho.left (by simpa [PatchInput.apply, hp] using he)
      case some name => exact (hf.name name hp).right id' t' hl' (by simpa [PatchInput.apply, hp] using he)
    constructor
    case builtins => exact h.builtins.insert ho.filter ho.right
    case fields   =>
      rintro id' t' ⟨hl, hb⟩
      obtain ⟨rfl, rfl⟩ | hl := Map.lookup_insert_some hl
      case inl => exact hv
      case inr => exact h.fields id' t' ⟨hl, hb⟩
    case names    =>
      intro id₁ id₂ t₁ t₂ hl₁ hl₂ he
      obtain ⟨rfl, rfl⟩ | h₁ := Map.lookup_insert_some hl₁
      all_goals obtain ⟨rfl, rfl⟩ | h₂ := Map.lookup_insert_some hl₂
      case inl.inl => rfl
      case inl.inr => exact (hn id₂ t₂ h₂ he.symm).symm
      case inr.inl => exact hn id₁ t₁ h₁ he
      case inr.inr => exact h.names id₁ id₂ t₁ t₂ h₁ h₂ he

theorem Valid.answer_iff (h : Valid init s) (hn : s.Numbered) (op : Op) (now : Str) :
    Valid init (machine.answer op now s).2 ↔ Permitted op now s := by
  have hq : (∀ id p, op ≠ .patch id p) → Permitted op now s := fun hne id p he => absurd he (hne id p)
  have ho := outcome s op now
  generalize machine.answer op now s = r at ho ⊢
  cases ho
  case list         => exact iff_of_true h (hq (by simp))
  case get          => exact iff_of_true h (hq (by simp))
  case created ha   => exact iff_of_true (h.create hn ha) (hq (by simp))
  case refused      => exact iff_of_true h (hq (by simp))
  case deleted ht   => exact iff_of_true (h.delete ht) (hq (by simp))
  case undeleted    => exact iff_of_true h (hq (by simp))
  case unpatched hu =>
    refine iff_of_true h ?_
    rintro id' p' he t' ht'
    cases he
    exact absurd ht' (hu t')
  case patched id p t ht =>
    have hp : Permitted (.patch id p) now s ↔ s.Fits id p t := by
      constructor
      case mp  => exact fun hp => hp id p rfl t ht
      case mpr =>
        rintro hf id' p' he t' ht'
        cases he
        cases ht.left.symm.trans ht'.left
        exact hf
    rw [hp]
    exact h.patch_iff ht

theorem new_valid (registryEndpoint now : Str) : Valid (new registryEndpoint now) (new registryEndpoint now) := by
  have hl : ∀ id t, (new registryEndpoint now).targets.lookup id = some t →
      t.builtin = true ∧ (id = idFor 1 ∧ t.name = str "Built-in object store" ∨ id = idFor 2 ∧ t.name = str "Built-in OCI registry") := by
    intro id t hl
    obtain ⟨rfl, rfl⟩ | hl := Map.lookup_insert_some hl
    case inl => exact ⟨rfl, .inr ⟨rfl, rfl⟩⟩
    case inr =>
      obtain ⟨rfl, rfl⟩ | hl := Map.lookup_insert_some hl
      case inl => exact ⟨rfl, .inl ⟨rfl, rfl⟩⟩
      case inr => cases hl
  constructor
  case builtins => exact fun _ => rfl
  case fields   =>
    rintro id t ⟨ht, hb⟩
    cases (hl id t ht).left.symm.trans hb
  case names    =>
    intro id id' t t' ht ht' he
    obtain ⟨-, ⟨rfl, hn⟩ | ⟨rfl, hn⟩⟩ := hl id t ht
    all_goals obtain ⟨-, ⟨rfl, hn'⟩ | ⟨rfl, hn'⟩⟩ := hl id' t' ht'
    case inl.inl => rfl
    case inr.inr => rfl
    all_goals
      rw [hn, hn'] at he
      exact absurd he (by decide)

-- The targets stay valid and unique if and only if every patch fits the target it changes.
theorem targets_valid_iff (registryEndpoint now : Str) (steps : List (ops.Op × Str)) :
    (∀ pre, pre <+: steps → Valid (new registryEndpoint now) (machine.run (new registryEndpoint now) pre)) ↔
      machine.Throughout Permitted (new registryEndpoint now) steps :=
  Machine.invariant_iff (new_numbered registryEndpoint now) (new_valid ..) (fun op now _ hj => hj.answer op now)
    (fun op now _ hj hi => hi.answer_iff hj op now) steps

end Steps

section Example

def teamS3 : CreateInput :=
  ⟨str "team-s3", .kindS3, str "s3.example.com", str "team", []⟩

-- A target is created, and its name is emptied.
def emptied : List (ops.Op × Str) := [
  (.create teamS3, str "2024-01-01T00:00:00Z"),
  (.patch (str "st-3") ⟨some [], none, none, none⟩, str "2024-01-01T00:00:00Z")]

theorem name_emptied : ¬∀ (registryEndpoint now : Str) (steps : List (ops.Op × Str)) (pre : List (ops.Op × Str)),
    pre <+: steps → Valid (new registryEndpoint now) (machine.run (new registryEndpoint now) pre) := by
  intro h
  have hv := (h [] [] emptied emptied (List.prefix_refl _)).fields (str "st-3")
    { (new [] []).made teamS3 (str "2024-01-01T00:00:00Z") with name := [] }
    ⟨by decide +kernel, rfl⟩
  revert hv
  decide +kernel

end Example
end Store
end Storage

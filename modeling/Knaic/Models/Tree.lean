import Knaic.Go.Dict
import Knaic.Models.Store

open Go

-- The tree of a model, and what of the catalogue it depends on.
namespace Models.Tree

structure ModelTreeNode where
  parent   : Option Model
  self     : Model
  children : Entries (List Model)
deriving DecidableEq

def list (s : MemoryStore) (scope : Scope) (ns : Str) : Except Error (List Model) :=
  if scope = .scopePrivate ∧ ns = [] then
    .error (.new "namespace required for private scope")
  else
    .ok (s.list scope ns)

-- The parent is left out if it cannot be had.
def parentOf (s : MemoryStore) (self : Model) : Option Model :=
  if self.parentModelID ≠ [] then (s.get self.parentModelID).toOption else none

def addChild (self : Model) (children : Entries (List Model)) (m : Model) : Entries (List Model) :=
  if m.parentModelID ≠ self.id ∨ m.derivedKind = [] then
    children
  else
    children.set m.derivedKind ((children.get m.derivedKind).getD [] ++ [m])

def childrenOf (self : Model) (siblings : List Model) : Entries (List Model) :=
  siblings.foldl (addChild self) [(str "adapter", []), (str "finetune", []), (str "quantization", [])]

def tree (s : MemoryStore) (id : Str) : Except Error ModelTreeNode := do
  let self ← s.get id
  let siblings ← list s self.scope self.ns
  return {
    parent   := parentOf s self
    self     := self
    children := childrenOf self siblings
  }

-- What may be known to whoever may know of a model.
def Visible (m x : Model) : Prop :=
  x.scope = .scopePublic ∨ x.scope = .scopePrivate ∧ x.ns = m.ns

instance (m x : Model) : Decidable (Visible m x) :=
  inferInstanceAs (Decidable (_ ∨ _))

-- The catalogues have the same public models, and the same private ones in the namespace of `m`.
def Agree (m : Model) (a b : MemoryStore) : Prop :=
  ∀ id, (a.lookup id).filter (decide <| Visible m ·) = (b.lookup id).filter (decide <| Visible m ·)

-- The model is in one of the two scopes. It names no parent, or one that is there and may be known, or
-- its tree is refused because it is private without a namespace.
structure Sealed (a : MemoryStore) (m : Model) : Prop where
  scope  : m.scope = .scopePublic ∨ m.scope = .scopePrivate
  parent : m.parentModelID = [] ∨ (m.scope = .scopePrivate ∧ m.ns = []) ∨
           ∃ p, a.lookup m.parentModelID = some p ∧ Visible m p

section Agree

variable {a b : MemoryStore} {m : Model} {id : Str}

theorem Visible.of_scope (h : m.scope = .scopePublic ∨ m.scope = .scopePrivate) : Visible m m :=
  h.imp_right fun h => ⟨h, rfl⟩

theorem Agree.lookup {x : Model} (h : Agree m a b) (hl : a.lookup id = some x) (hv : Visible m x) :
    b.lookup id = some x := by
  have hf := h id
  rw [hl, Option.filter_some_pos (by simpa using hv)] at hf
  exact (Option.eq_some_of_filter_eq_some hf.symm)

-- The models that are listed beside `m` may be known.
theorem Agree.siblings (h : Agree m a b) (hs : m.scope = .scopePublic ∨ m.scope = .scopePrivate) :
    list a m.scope m.ns = list b m.scope m.ns := by
  let keep (x : Model) : Bool := x.scope == m.scope && (m.scope != .scopePrivate || x.ns == m.ns)
  have hk (x : Model) (hx : keep x = true) : Visible m x := by
    simp only [keep, Bool.and_eq_true, beq_iff_eq, Bool.or_eq_true, bne_iff_ne] at hx
    obtain ⟨he, hn⟩ := hx
    obtain hs | hs := hs
    case inl => exact .inl (he.trans hs)
    case inr => exact .inr ⟨he.trans hs, hn.resolve_left (· hs)⟩
  have hf (id : Str) : (a.lookup id).filter keep = (b.lookup id).filter keep := by
    have hv (o : Option Model) : o.filter keep = (o.filter (decide <| Visible m ·)).filter keep := by
      cases o
      case none   => rfl
      case some x =>
        by_cases hx : keep x
        case pos => simp [Option.filter, hx, hk x hx]
        case neg => by_cases hv : Visible m x <;> simp [Option.filter, hx, hv]
    rw [hv, h id, ← hv]
  unfold list
  split
  case isTrue  => rfl
  case isFalse => exact congrArg Except.ok (Map.sorted_congr hf)

theorem get_of_lookup (h : a.lookup id = some m) : a.get id = .ok m := by
  rw [MemoryStore.get, h]

-- The tree of a model that is there.
theorem tree_eq (h : a.lookup id = some m) : tree a id = (list a m.scope m.ns).map fun siblings =>
    ⟨parentOf a m, m, childrenOf m siblings⟩ := by
  rw [tree, get_of_lookup h]
  rfl

theorem Agree.tree_eq (h : Agree m a b) (hl : a.lookup m.id = some m) (hs : Sealed a m) :
    tree a m.id = tree b m.id := by
  have hb := h.lookup hl (.of_scope hs.scope)
  rw [Tree.tree_eq hl, Tree.tree_eq hb, h.siblings hs.scope]
  obtain hp | hp | ⟨p, hp, hv⟩ := hs.parent
  case inl          => simp [parentOf, hp]
  case inr.inl      => simp [list, hp, Except.map]
  case inr.inr      =>
    have hq := h.lookup hp hv
    simp [parentOf, get_of_lookup hp, get_of_lookup hq]

-- Taking a model away that may not be known.
theorem agree_erase (h : ∀ x, a.lookup id = some x → ¬Visible m x) : Agree m a (a.erase id) := by
  intro id'
  by_cases he : id' = id
  case neg => rw [Finmap.lookup_erase_ne he]
  case pos =>
    subst he
    rw [Finmap.lookup_erase]
    cases hl : a.lookup id'
    case none   => rfl
    case some x => exact Option.filter_some_neg (by simpa using h x hl)

-- Adding one where there was none.
theorem agree_insert {x : Model} (hl : a.lookup id = none) (hx : ¬Visible m x) : Agree m a (a.insert id x) := by
  intro id'
  by_cases he : id' = id
  case neg => rw [Finmap.lookup_insert_of_ne _ he]
  case pos =>
    subst he
    rw [hl, Finmap.lookup_insert, Option.filter_some_neg (by simpa using hx)]
    rfl

-- Trees of a model whose parents differ.
theorem tree_ne (ha : a.lookup m.id = some m) (hb : b.lookup m.id = some m)
    (hn : ¬(m.scope = .scopePrivate ∧ m.ns = [])) (hp : m.parentModelID ≠ [])
    (hd : a.lookup m.parentModelID ≠ b.lookup m.parentModelID) : tree a m.id ≠ tree b m.id := by
  intro he
  have get_parent (s : MemoryStore) : parentOf s m = s.lookup m.parentModelID := by
    rw [parentOf, if_pos hp, MemoryStore.get]
    cases s.lookup m.parentModelID <;> rfl
  rw [tree_eq ha, tree_eq hb, list, list, if_neg hn, if_neg hn] at he
  have hs := congrArg ModelTreeNode.parent (Except.ok.inj he)
  exact hd ((get_parent a).symm.trans (hs.trans (get_parent b)))

-- A private model somewhere else.
def elsewhere (m : Model) : Model :=
  { m with
    id    := m.parentModelID
    scope := .scopePrivate
    ns    := str "other-" ++ m.ns }

theorem elsewhere_hidden : ¬Visible m (elsewhere m) := by
  rintro (h | ⟨-, h⟩)
  case inl => cases h
  case inr =>
    have hl := congrArg List.length h
    have hs : (str "other-").length = 6 := by decide
    simp only [elsewhere, List.length_append] at hl
    omega

end Agree

-- The tree of a model is the same whatever private models are in other namespaces, exactly if its
-- parent, where it names one, is there and may be known.
theorem tree_sealed_iff {a : MemoryStore} {m : Model} (hl : a.lookup m.id = some m) :
    (∀ b, Agree m a b → tree a m.id = tree b m.id) ↔ Sealed a m := by
  refine ⟨fun h => ?_, fun hs b h => h.tree_eq hl hs⟩
  have hs : m.scope = .scopePublic ∨ m.scope = .scopePrivate := by
    by_contra hs
    have hv : ¬Visible m m := fun hv => hs (hv.imp_right And.left)
    have he := h (a.erase m.id) (agree_erase fun x hx => by
      cases hl.symm.trans hx
      exact hv)
    have hn : ¬(m.scope = .scopePrivate ∧ m.ns = []) := fun hn => hs (.inr hn.left)
    rw [tree_eq hl, list, if_neg hn, tree, MemoryStore.get, Finmap.lookup_erase] at he
    cases he
  refine ⟨hs, ?_⟩
  by_contra hc
  simp only [not_or, not_exists, not_and] at hc
  obtain ⟨hp, hn, hv⟩ := hc
  have hn' : ¬(m.scope = .scopePrivate ∧ m.ns = []) := fun ⟨h₁, h₂⟩ => hn h₁ h₂
  have hself {x : Model} (hx : a.lookup m.parentModelID = some x) : m.id ≠ m.parentModelID := by
    intro he
    exact hv m (he ▸ hl) (.of_scope hs)
  cases hx : a.lookup m.parentModelID
  case none   =>
    have hne : m.id ≠ m.parentModelID := fun he => by cases (he ▸ hl).symm.trans hx
    refine tree_ne hl ?_ hn' hp ?_ (h _ (agree_insert hx elsewhere_hidden))
    case refine_1 => rwa [Finmap.lookup_insert_of_ne _ hne]
    case refine_2 =>
      rw [hx, Finmap.lookup_insert]
      exact nofun
  case some x =>
    refine tree_ne hl ?_ hn' hp ?_ (h _ (agree_erase fun y hy => hv y hy))
    case refine_1 => rwa [Finmap.lookup_erase_ne (hself hx)]
    case refine_2 =>
      rw [hx, Finmap.lookup_erase]
      exact nofun

section Leak

def entry (id ns parent : String) : Model where
  id            := str id
  name          := str id
  owner         := str "ada"
  scope         := .scopePrivate
  ns            := str ns
  uri           := str "s3://weights/qwen"
  scheme        := .s3
  tags          := some []
  modelType     := str "llm"
  sizeGB        := 0
  downloads     := 0
  createdAt     := ⟨1, 0⟩
  updatedAt     := ⟨1, 0⟩
  readme        := []
  collectionID  := []
  parentModelID := str parent
  derivedKind   := str "finetune"
  sourceURL     := []

-- A model whose parent is a private one of another namespace, and one without a parent.
def tuned : MemoryStore :=
  .ofList [(str "m-1", entry "m-1" "red" ""), (str "m-2", entry "m-2" "blue" "m-1")]

theorem root_sealed : (∀ b, Agree (entry "m-1" "red" "") tuned b → tree tuned (str "m-1") = tree b (str "m-1")) ↔
    Sealed tuned (entry "m-1" "red" "") :=
  tree_sealed_iff (m := entry "m-1" "red" "") (by decide)

theorem parent_leaks : ¬∀ (a b : MemoryStore) (m : Model), a.lookup m.id = some m → Agree m a b →
    tree a m.id = tree b m.id := by
  intro h
  have hd := h tuned (tuned.erase (str "m-1")) (entry "m-2" "blue" "m-1") (by decide) (agree_erase (by decide))
  exact absurd hd (by decide)

end Leak
end Models.Tree

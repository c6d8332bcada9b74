import Mathlib.Data.List.Nodup
import Knaic.Components.Pool

open Go Effects Pool

namespace Components

variable {d : Setup} {i : Caller} {w : World} {x : Draw} {name : Str}

def Upgrading (w : World) (name : Str) : Prop :=
  ∃ i, (i, .upgrade, name) ∈ w.running

-- The entry does not say that something is going on, and nothing is going on that does not show.
def Quiet (w : World) (name : Str) : Prop :=
  (∀ e ∈ w.entry name, e.item.status ≠ .installing) ∧ ¬Upgrading w name

-- The call that has marked the entry writes what came of it.
def Caller.Concludes (i : Caller) (m : Mutation) : Prop :=
  match i.request, m with
  | .install _, .failed _ | .install _, .installed _ | .uninstall _, .failed _
  | .uninstall _, .uninstalled => True
  | _, _                       => False

def Mutation.Leaves (d : Setup) (m : Mutation) (c : Component) : Prop :=
  (m.apply d.systemNamespace c).status = c.status

-- An entry is marked only while it is quiet, and an upgrade starts only then. Calls that have not
-- marked an entry do not change its status before it is quiet.
def Exclusive (d : Setup) : Pool.Condition ops Draw World Caller
  | i, .storeUpdate name m, _, w   =>
    i.Concludes m ∨ Quiet w name ∨
      m ≠ .installing ∧ ∀ e ∈ w.entry name, m.Leaves d e.item
  | _, .helmStart .upgrade c, _, w =>
    Quiet w c.name ∧ ∃ e ∈ w.entry c.name, e.item.status = .installed
  | _, _, _, _                     => True

-- The component on which the request has Helm work.
def Request.operates : Request → Option Str
  | .install name | .uninstall name | .reconcile name => some name
  | .status _                                         => none

-- Whether the request yields to an operation that is in flight, the entry being what that operation
-- makes of it.
def Request.Yields (r : Request) (a : Action) : Prop :=
  match r with
  | .install _ => a = .upgrade
  | _          => a ≠ .upgrade

def Caller.YieldsTo (i : Caller) (w : World) : Prop :=
  ∀ r ∈ w.running, i.request.operates = some r.2.2 → i.request.Yields r.2.1

-- An `Install` is called while Helm works on the component only if that is for an upgrade, the other
-- two only if it is for something else.
def Arrives (d : Setup) (c : Config ops World Caller (Except Error Entry)) :
    Pick Draw Caller → Prop
  | .act n _ => ∀ i, c.calls[n]? = some (i, (pool d).code i) → i.YieldsTo c.world
  | _        => True

-- A request that comes while Helm works on its component is turned down.
def Refuses (d : Setup) (c : Config ops World Caller (Except Error Entry)) :
    Pick Draw Caller → Prop
  | .act n x => ∀ i, c.calls[n]? = some (i, (pool d).code i) →
                ∀ r ∈ c.world.running, i.request.operates = some r.2.2 →
                ∃ e, ((pool d).next c (.act n x)).calls[n]? = some (i, .ret (.error e))
  | _        => True

-- The Helm operations in flight are on different components.
def AtMostOne (w : World) : Prop :=
  (w.running.map fun r => r.2.2).Nodup

structure Inv (w : World) : Prop where
  keyed    : ∀ n e, w.entry n = some e → e.item.name = n
  once     : AtMostOne w
  marked   : ∀ i n, (i, n) ∈ w.holders → ∃ e, w.entry n = some e ∧ e.item.status = .installing
  single   : (w.holders.map Prod.snd).Nodup
  held     : ∀ i a n, (i, a, n) ∈ w.running → a ≠ .upgrade → (i, n) ∈ w.holders
  upgraded : ∀ i n, (i, .upgrade, n) ∈ w.running →
             ∃ e, w.entry n = some e ∧ e.item.status = .installed

-- What is due to a call: the entries that it has marked, and the Helm operations it waits for.
structure Mine (i : Caller) (hs : List Str) (rs : List (Action × Str)) (w : World) : Prop where
  holders : ∀ n, (i, n) ∈ w.holders ↔ n ∈ hs
  running : ∀ r, (i, r) ∈ w.running ↔ r ∈ rs

-- Others leave alone what is due to a call, and no entry goes away.
structure Rely (i : Caller) (w₁ w₂ : World) : Prop where
  holders : ∀ n, (i, n) ∈ w₂.holders ↔ (i, n) ∈ w₁.holders
  running : ∀ r, (i, r) ∈ w₂.running ↔ (i, r) ∈ w₁.running
  known   : ∀ n, (w₁.entry n).isSome → (w₂.entry n).isSome

namespace Rely

theorem refl (i : Caller) (w : World) : Rely i w w where
  holders _ := .rfl
  running _ := .rfl
  known _ h := h

theorem trans {w₁ w₂ w₃ : World} (h₁ : Rely i w₁ w₂) (h₂ : Rely i w₂ w₃) : Rely i w₁ w₃ where
  holders n := (h₂.holders n).trans (h₁.holders n)
  running r := (h₂.running r).trans (h₁.running r)
  known n h := h₂.known n (h₁.known n h)

end Rely

theorem Mine.stable {w' : World} (h : Mine i hs rs w) (hr : Rely i w w') : Mine i hs rs w' where
  holders n := (hr.holders n).trans (h.holders n)
  running r := (hr.running r).trans (h.running r)

-- Nobody gets in the way of anybody.
def exclusion (d : Setup) : Pact (pool d) where
  inv             := Inv
  rely            := Rely
  idle i w        := Mine i [] [] w
  keeps _ _ _ _   := True
  refl            := .refl
  trans           := .trans
  env_inv h       := h
  env_rely _      := .refl _ _
  idle_stable h r := h.stable r

namespace Inv

-- What the invariant looks at.
theorem of_same {w' : World} (h : Inv w) (hi : w'.items = w.items) (hh : w'.holders = w.holders)
    (hr : w'.running = w.running) : Inv w' := by
  have he : ∀ n, w'.entry n = w.entry n := fun n => by simp [World.entry, hi]
  exact ⟨by simpa [he] using h.keyed, by simpa [AtMostOne, hr] using h.once,
    by simpa [he, hh] using h.marked, by simpa [hh] using h.single,
    by simpa [hh, hr] using h.held, by simpa [he, hr] using h.upgraded⟩

end Inv

theorem Rely.of_same {w' : World} (j : Caller) (hi : w'.items = w.items)
    (hh : w'.holders = w.holders) (hr : w'.running = w.running) : Rely j w w' where
  holders n := by rw [hh]
  running r := by rw [hr]
  known n h := by simpa [World.entry, hi] using h

theorem does_of_same {op : Op} (h : Inv w)
    (hi : ((pool d).answer i op x w).2.items = w.items)
    (hh : ((pool d).answer i op x w).2.holders = w.holders)
    (hr : ((pool d).answer i op x w).2.running = w.running) : (exclusion d).Does i op x w where
  keeps    := trivial
  inv      := h.of_same hi hh hr
  rely j _ := .of_same j hi hh hr

-- The operations that do not touch what the pact is about.
def Op.Aside : Op → Prop
  | .storeGet _ | .snapshotLock | .helmListAll | .listCSVs | .snapshotUnlock _
  | .invalidateSnapshot => True
  | _                   => False

theorem aside_same {op : Op} (ho : op.Aside) (i : Caller) (x : Draw) (w : World) :
    ((pool d).answer i op x w).2.items = w.items ∧
    ((pool d).answer i op x w).2.holders = w.holders ∧
    ((pool d).answer i op x w).2.running = w.running := by
  cases op <;> simp only [Op.Aside] at ho
  case storeGet name =>
    simp only [pool, answer]
    split <;> simp
  case snapshotLock =>
    simp only [pool, answer]
    split
    · split <;> simp
    · simp
  all_goals simp [pool, answer]

theorem does_aside {op : Op} (ho : op.Aside) (h : Inv w) : (exclusion d).Does i op x w :=
  have ⟨hi, hh, hr⟩ := aside_same (d := d) ho i x w
  does_of_same h hi hh hr

theorem Mine.aside {op : Op} (ho : op.Aside) (h : Mine i hs rs w) :
    Mine i hs rs ((pool d).answer i op x w).2 := by
  have ⟨hi, hh, hr⟩ := aside_same (d := d) ho i x w
  exact h.stable (.of_same i hi hh hr)

namespace Inv

theorem unique (h : Inv w) (hi : (i, n) ∈ w.holders) (hj : (j, n) ∈ w.holders) : i = j :=
  congrArg Prod.fst (List.inj_on_of_nodup_map h.single hi hj rfl)

theorem not_held (h : Inv w) (hq : Quiet w n) : (j, n) ∉ w.holders := by
  intro hm
  have ⟨e, he, hs⟩ := h.marked j n hm
  exact hq.left e he hs

theorem not_upgrading (h : Inv w) (hi : (i, n) ∈ w.holders) : (j, .upgrade, n) ∉ w.running := by
  intro hm
  have ⟨e, he, hs⟩ := h.marked i n hi
  have ⟨e', he', hs'⟩ := h.upgraded j n hm
  cases he.symm.trans he'
  rw [hs] at hs'
  contradiction

-- Entries other than the one written are as they were.
theorem entry_other {n : Str} {e : Entry} (hn : n ≠ name) (h : w.entry n = some e) (e' : Entry) :
    (w.update i name m e').entry n = some e := by
  simp [entry_update, hn, h]

theorem keyed_update {e : Entry} (h : Inv w) (he : e.item.name = name) (n : Str) (e' : Entry)
    (hn : (w.update i name m e).entry n = some e') : e'.item.name = n := by
  rw [entry_update] at hn
  split at hn
  case isTrue hs  => cases hn; exact he.trans hs.symm
  case isFalse hs => exact h.keyed n e' hn

theorem mark {e : Entry} (h : Inv w) (hk : e.item.name = name) (hq : Quiet w name)
    (hs : e.item.status = .installing) : Inv (w.update i name .installing e) where
  keyed := h.keyed_update hk
  once := h.once
  marked j n hm := by
    by_cases hn : n = name
    case pos => exact ⟨e, by simp [entry_update, hn], hs⟩
    case neg =>
      have hm : (j, n) ∈ w.holders := by
        cases hm
        case head => exact absurd rfl hn
        case tail hm => exact hm
      have ⟨e', he, hs⟩ := h.marked j n hm
      exact ⟨e', entry_other hn he e, hs⟩
  single := by
    refine List.nodup_cons.mpr ⟨fun hm => ?_, h.single⟩
    have ⟨⟨j, n⟩, hm, he⟩ := List.mem_map.mp hm
    simp only at he
    exact h.not_held hq (he ▸ hm)
  held j a n hr ha := .tail _ (h.held j a n hr ha)
  upgraded j n hr := by
    have hn : n ≠ name := by
      rintro rfl
      exact hq.right ⟨j, hr⟩
    have ⟨e', he, hs⟩ := h.upgraded j n hr
    exact ⟨e', entry_other hn he e, hs⟩

theorem conclude {e : Entry} (h : Inv w) (hk : e.item.name = name) (hm : Mine i [name] [] w)
    (hh : (w.update i name m e).holders = w.holders.erase (i, name)) :
    Inv (w.update i name m e) where
  keyed := h.keyed_update hk
  once := h.once
  marked j n hj := by
    have hi : (i, name) ∈ w.holders := (hm.holders name).mpr (.head _)
    rw [hh] at hj
    have ⟨hne, ho⟩ := h.single.of_map.mem_erase_iff.mp hj
    have hn : n ≠ name := by
      rintro rfl
      have hji : j = i := h.unique ho hi
      exact hne (by rw [hji])
    have ⟨e', he, hs⟩ := h.marked j n ho
    exact ⟨e', entry_other hn he e, hs⟩
  single := by
    rw [hh]
    exact h.single.sublist (List.erase_sublist.map _)
  held j a n hr ha := by
    have hj := h.held j a n hr ha
    have hne : (j, n) ≠ (i, name) := by
      intro he
      cases he
      exact List.not_mem_nil ((hm.running _).mp hr)
    rw [hh]
    exact (List.mem_erase_of_ne hne).mpr hj
  upgraded j n hr := by
    have hi : (i, name) ∈ w.holders := (hm.holders name).mpr (.head _)
    have hn : n ≠ name := by
      rintro rfl
      exact h.not_upgrading hi hr
    have ⟨e', he, hs⟩ := h.upgraded j n hr
    exact ⟨e', entry_other hn he e, hs⟩

theorem write {e : Entry} (h : Inv w) (hk : e.item.name = name)
    (hq : ∀ e' ∈ w.entry name, Quiet w name ∨ e.item.status = e'.item.status)
    (hh : (w.update i name m e).holders = w.holders) : Inv (w.update i name m e) where
  keyed := h.keyed_update hk
  once := h.once
  marked j n hj := by
    rw [hh] at hj
    have ⟨e', he, hs⟩ := h.marked j n hj
    by_cases hn : n = name
    case neg => exact ⟨e', entry_other hn he e, hs⟩
    case pos =>
      subst hn
      have he' := (hq e' he).resolve_left fun hq => h.not_held hq hj
      exact ⟨e, by simp [entry_update], he'.trans hs⟩
  single := by rw [hh]; exact h.single
  held j a n hr ha := by rw [hh]; exact h.held j a n hr ha
  upgraded j n hr := by
    have ⟨e', he, hs⟩ := h.upgraded j n hr
    by_cases hn : n = name
    case neg => exact ⟨e', entry_other hn he e, hs⟩
    case pos =>
      subst hn
      have he' := (hq e' he).resolve_left fun hq => hq.right ⟨j, hr⟩
      exact ⟨e, by simp [entry_update], he'.trans hs⟩

theorem start {a : Action} (h : Inv w) (hf : ∀ r ∈ w.running, r.2.2 ≠ name)
    (hh : a ≠ .upgrade → (i, name) ∈ w.holders)
    (hu : a = .upgrade → ∃ e, w.entry name = some e ∧ e.item.status = .installed) :
    Inv { w with running := (i, a, name) :: w.running } where
  keyed := h.keyed
  once := by
    refine List.nodup_cons.mpr ⟨fun hm => ?_, h.once⟩
    have ⟨r, hr, he⟩ := List.mem_map.mp hm
    exact hf r hr he
  marked := h.marked
  single := h.single
  held j b n hr hb := by
    cases hr
    case head      => exact hh hb
    case tail hr => exact h.held j b n hr hb
  upgraded j n hr := by
    cases hr
    case head      => exact hu rfl
    case tail hr => exact h.upgraded j n hr

theorem finish (h : Inv w) (r : Caller × Action × Str) :
    Inv { w with running := w.running.erase r } where
  keyed             := h.keyed
  once              := h.once.sublist (List.erase_sublist.map _)
  marked            := h.marked
  single            := h.single
  held j a n hr ha  := h.held j a n (List.mem_of_mem_erase hr) ha
  upgraded j n hr   := h.upgraded j n (List.mem_of_mem_erase hr)

end Inv

-- The operations that touch what the pact is about, with what is due to the call before and after.
section Steps

theorem known_update (i : Caller) (name : Str) (m : Mutation) (e : Entry) (n : Str)
    (hn : (w.entry n).isSome) : ((w.update i name m e).entry n).isSome := by
  by_cases h : n = name <;> simp [entry_update, h, hn]

theorem written_name (h : Inv w) (he : w.entry name = some e) :
    (e.write d.systemNamespace i m x.now).item.name = name :=
  (apply_name d.systemNamespace m e.item).trans (h.keyed name e he)

theorem does_nothing (h : Inv w) (he : w.entry name = none) :
    (exclusion d).Does i (.storeUpdate name m) x w := by
  apply does_of_same h <;> simp [storeUpdate_none he]

theorem does_update (he : w.entry name = some e)
    (hi : ∀ e', e' = e.write d.systemNamespace i m x.now → Inv (w.update i name m e'))
    (hh : ∀ e j n, j ≠ i → ((j, n) ∈ (w.update i name m e).holders ↔ (j, n) ∈ w.holders)) :
    (exclusion d).Does i (.storeUpdate name m) x w := by
  refine ⟨trivial, ?_, fun j hj => ?_⟩
  case refine_1 =>
    rw [storeUpdate_some he]
    exact hi _ rfl
  case refine_2 =>
    rw [storeUpdate_some he]
    exact ⟨fun n => hh _ j n hj, fun r => .rfl, known_update i name m _⟩

theorem does_mark (h : Inv w) (hq : Quiet w name) :
    (exclusion d).Does i (.storeUpdate name .installing) x w := by
  cases he : w.entry name
  case none   => exact does_nothing h he
  case some e =>
    apply does_update he
    · rintro _ rfl
      exact h.mark (written_name h he) hq rfl
    · intro e j n hj
      simp [World.update, hj]

theorem mine_mark (he : w.entry name = some e) (hm : Mine i [] [] w) :
    Mine i [name] [] ((pool d).answer i (.storeUpdate name .installing) x w).2 := by
  rw [storeUpdate_some he]
  refine ⟨fun n => ?_, hm.running⟩
  have hn := hm.holders n
  simp_all [World.update]

theorem does_conclude (h : Inv w) (hm : Mine i [name] [] w) (hc : i.Concludes m) :
    (exclusion d).Does i (.storeUpdate name m) x w := by
  have hh : ∀ e, (w.update i name m e).holders = w.holders.erase (i, name) := by
    cases m <;> simp_all [Caller.Concludes, World.update]
  cases he : w.entry name
  case none   => exact does_nothing h he
  case some e =>
    apply does_update he
    · rintro _ rfl
      exact h.conclude (written_name h he) hm (hh _)
    · intro e j n hj
      rw [hh]
      exact List.mem_erase_of_ne (by simp [hj])

theorem mine_conclude (h : Inv w) (he : w.entry name = some e) (hm : Mine i [name] [] w)
    (hc : i.Concludes m) : Mine i [] [] ((pool d).answer i (.storeUpdate name m) x w).2 := by
  have hh : ∀ e, (w.update i name m e).holders = w.holders.erase (i, name) := by
    cases m <;> simp_all [Caller.Concludes, World.update]
  rw [storeUpdate_some he]
  refine ⟨fun n => ?_, hm.running⟩
  have hn := hm.holders n
  rw [hh, h.single.of_map.mem_erase_iff, hn]
  simp

theorem does_write (h : Inv w) (hq : Quiet w name ∨ ∀ e ∈ w.entry name, m.Leaves d e.item)
    (hm : Mine i [] rs w) (hn : m ≠ .installing) :
    (exclusion d).Does i (.storeUpdate name m) x w := by
  have hi : (i, name) ∉ w.holders := by simp [hm.holders]
  have hh : ∀ e, (w.update i name m e).holders = w.holders := by
    cases m <;> simp_all [World.update, List.erase_of_not_mem]
  cases he : w.entry name
  case none   => exact does_nothing h he
  case some e =>
    apply does_update he
    · rintro _ rfl
      apply h.write (written_name h he) _ (hh _)
      intro e' he'
      cases hq
      case inl hq => exact .inl hq
      case inr hl => cases he.symm.trans he'; exact .inr (hl e he)
    · intro e j n hj
      rw [hh]

theorem mine_write (hm : Mine i [] rs w) (hn : m ≠ .installing) :
    Mine i [] rs ((pool d).answer i (.storeUpdate name m) x w).2 := by
  have hi : (i, name) ∉ w.holders := by simp [hm.holders]
  cases he : w.entry name
  case none   => rw [storeUpdate_none he]; exact hm
  case some e =>
    have hh : ∀ e, (w.update i name m e).holders = w.holders := by
      cases m <;> simp_all [World.update, List.erase_of_not_mem]
    rw [storeUpdate_some he]
    refine ⟨fun n => ?_, hm.running⟩
    rw [hh]
    exact hm.holders n

theorem helmStart_eq (a : Action) (c : Component) :
    (pool d).answer i (.helmStart a c) x w =
      ((), { w with running := (i, a, c.name) :: w.running }) :=
  rfl

theorem does_start {c : Component} (h : Inv w) (hf : ∀ r ∈ w.running, r.2.2 ≠ c.name)
    (hh : a ≠ .upgrade → (i, c.name) ∈ w.holders)
    (hu : a = .upgrade → ∃ e, w.entry c.name = some e ∧ e.item.status = .installed) :
    (exclusion d).Does i (.helmStart a c) x w := by
  refine ⟨trivial, h.start hf hh hu, fun j hj => ?_⟩
  rw [helmStart_eq]
  refine ⟨fun n => .rfl, fun r => ?_, fun n hn => hn⟩
  simp [hj]

theorem mine_start {c : Component} (hm : Mine i hs [] w) :
    Mine i hs [(a, c.name)] ((pool d).answer i (.helmStart a c) x w).2 := by
  rw [helmStart_eq]
  refine ⟨hm.holders, fun r => ?_⟩
  have hr := hm.running r
  simp_all

theorem does_end {c : Component} (h : Inv w) : (exclusion d).Does i (.helmEnd a c) x w := by
  refine ⟨trivial, h.finish _, fun j hj => ⟨fun n => .rfl, fun r => ?_, fun n hn => hn⟩⟩
  exact List.mem_erase_of_ne (by simp [hj])

theorem mine_end {c : Component} (h : Inv w) (hm : Mine i hs [(a, c.name)] w) :
    Mine i hs [] ((pool d).answer i (.helmEnd a c) x w).2 := by
  refine ⟨hm.holders, fun r => ?_⟩
  have hr := hm.running r
  have hn : (i, r) ∈ w.running.erase (i, a, c.name) ↔ _ := h.once.of_map.mem_erase_iff
  change (i, r) ∈ w.running.erase (i, a, c.name) ↔ _
  simp_all

end Steps

-- The programs.
section Programs

variable {Q : Except Error Entry → World → Prop}

abbrev Safely (d : Setup) (i : Caller) (p : Prog ops α) (w : World) : Prop :=
  (exclusion d).Safe (Exclusive d) i (fun _ _ => True) p w

theorem safe_aside {op : Op} {k : ops.Res op → Prog ops α} (ho : op.Aside)
    (hm : Mine i hs rs w)
    (hk : ∀ r w', Inv w' → Mine i hs rs w' → Safely d i (k r) w') :
    Safely d i (.call (S := ops) op k) w := by
  intro w₁ hr hv x _
  have hd : (exclusion d).Does i op x w₁ := does_aside ho hv
  exact ⟨hd, hk _ _ hd.inv ((hm.stable hr).aside ho)⟩

theorem safe_get {k : Except Error Entry → Task} (hm : Mine i hs rs w)
    (hk : ∀ e w', Inv w' → Mine i hs rs w' → w'.entry name = some e → Safely d i (k (.ok e)) w')
    (he : Safely d i (k (.error errNotFound)) w) :
    Safely d i (.call (S := ops) (.storeGet name) k) w := by
  intro w₁ hr hv x _
  refine ⟨does_aside trivial hv, ?_⟩
  cases he' : w₁.entry name
  case none   => rw [storeGet_none he']; exact he.stable hr
  case some e => rw [storeGet_some he']; exact hk e w₁ hv (hm.stable hr) he'

theorem safe_read (hm : Mine i hs rs w) : Safely d i (storeGet name) w :=
  safe_aside trivial hm fun _ _ _ _ _ _ _ => trivial

theorem safe_mark {k : Except Error Entry → Task} (hm : Mine i [] [] w)
    (he : (w.entry name).isSome)
    (hk : ∀ r w', Inv w' → Mine i [name] [] w' → Safely d i (k r) w') :
    Safely d i (.call (S := ops) (.storeUpdate name .installing) k) w := by
  intro w₁ hr hv x hx
  have hq : Quiet w₁ name := by simpa [Exclusive, Caller.Concludes] using hx
  have hd : (exclusion d).Does i (.storeUpdate name .installing) x w₁ := does_mark hv hq
  have ⟨e, he⟩ := Option.isSome_iff_exists.mp (hr.known name he)
  exact ⟨hd, hk _ _ hd.inv (mine_mark he (hm.stable hr))⟩

theorem safe_conclude {k : Except Error Entry → Task} (hm : Mine i [name] [] w)
    (hc : i.Concludes m)
    (hk : ∀ r w', Inv w' → Mine i [] [] w' → Safely d i (k r) w') :
    Safely d i (.call (S := ops) (.storeUpdate name m) k) w := by
  intro w₁ hr hv x hx
  have hm := hm.stable hr
  have hd : (exclusion d).Does i (.storeUpdate name m) x w₁ := does_conclude hv hm hc
  have ⟨e, he, _⟩ := hv.marked i name ((hm.holders name).mpr (.head _))
  exact ⟨hd, hk _ _ hd.inv (mine_conclude hv he hm hc)⟩

theorem safe_write {k : Except Error Entry → Task} (hm : Mine i [] [] w) (hc : ¬i.Concludes m)
    (hn : m ≠ .installing) (hk : ∀ r w', Inv w' → Mine i [] [] w' → Safely d i (k r) w') :
    Safely d i (.call (S := ops) (.storeUpdate name m) k) w := by
  intro w₁ hr hv x hx
  have hq : Quiet w₁ name ∨ ∀ e ∈ w₁.entry name, m.Leaves d e.item :=
    (hx.resolve_left hc).imp_right And.right
  have hm := hm.stable hr
  have hd : (exclusion d).Does i (.storeUpdate name m) x w₁ := does_write hv hq hm hn
  exact ⟨hd, hk _ _ hd.inv (mine_write hm hn)⟩

-- Helm works for a call that has marked the entry.
theorem safe_helm {c : Component} {k : Except Str Release → Task} (hm : Mine i [c.name] [] w)
    (ha : a ≠ .upgrade) (hk : ∀ r w', Inv w' → Mine i [c.name] [] w' → Safely d i (k r) w') :
    Safely d i (.call (S := ops) (.helmStart a c) fun _ => .call (S := ops) (.helmEnd a c) k) w := by
  intro w₁ hr hv x hx
  have hm := hm.stable hr
  have hi : (i, c.name) ∈ w₁.holders := (hm.holders _).mpr (.head _)
  have hf : ∀ r ∈ w₁.running, r.2.2 ≠ c.name := by
    rintro ⟨j, b, n⟩ hj rfl
    by_cases hb : b = .upgrade
    case pos =>
      subst hb
      exact hv.not_upgrading hi hj
    case neg =>
      have hji : j = i := hv.unique (hv.held j b _ hj hb) hi
      subst hji
      exact List.not_mem_nil ((hm.running _).mp hj)
  have hd : (exclusion d).Does i (.helmStart a c) x w₁ :=
    does_start hv hf (fun _ => hi) fun h => absurd h ha
  refine ⟨hd, fun w₂ hr₂ hv₂ y _ => ?_⟩
  have hm₂ : Mine i [c.name] [(a, c.name)] w₂ := (mine_start hm).stable hr₂
  have hd₂ : (exclusion d).Does i (.helmEnd a c) y w₂ := does_end hv₂
  exact ⟨hd₂, hk _ _ hd₂.inv (mine_end hv₂ hm₂)⟩

-- An upgrade marks nothing: it starts on a quiet entry.
theorem safe_upgrade {c : Component} {k : Except Str Release → Task} (hm : Mine i [] [] w)
    (hk : ∀ r w', Inv w' → Mine i [] [] w' → Safely d i (k r) w') :
    Safely d i (.call (S := ops) (.helmStart .upgrade c) fun _ =>
      .call (S := ops) (.helmEnd .upgrade c) k) w := by
  intro w₁ hr hv x hx
  have ⟨hq, e, he, hs⟩ : Quiet w₁ c.name ∧ ∃ e ∈ w₁.entry c.name, e.item.status = .installed := hx
  have hm := hm.stable hr
  have hf : ∀ r ∈ w₁.running, r.2.2 ≠ c.name := by
    rintro ⟨j, b, n⟩ hj rfl
    by_cases hb : b = .upgrade
    case pos =>
      subst hb
      exact hq.right ⟨j, hj⟩
    case neg => exact hv.not_held hq (hv.held j b _ hj hb)
  have hd : (exclusion d).Does i (.helmStart .upgrade c) x w₁ :=
    does_start hv hf (fun h => absurd rfl h) fun _ => ⟨e, he, hs⟩
  refine ⟨hd, fun w₂ hr₂ hv₂ y _ => ?_⟩
  have hm₂ : Mine i [] [(.upgrade, c.name)] w₂ := (mine_start hm).stable hr₂
  have hd₂ : (exclusion d).Does i (.helmEnd .upgrade c) y w₂ := does_end hv₂
  exact ⟨hd₂, hk _ _ hd₂.inv (mine_end hv₂ hm₂)⟩

theorem safe_failed (hm : Mine i [name] [] w) (hc : i.Concludes (.failed err)) :
    Safely d i (storeUpdate name (.failed err) >>= fun _ => storeGet name) w :=
  safe_conclude hm hc fun _ _ _ hm => safe_read hm

theorem safe_only {p : Prog ops β} {k : β → Prog ops α} (hp : p.Only Op.Aside)
    (hv : Inv w) (hm : Mine i hs rs w)
    (hk : ∀ r w', Inv w' → Mine i hs rs w' → Safely d i (k r) w') :
    Safely d i (p.bind k) w := by
  induction p generalizing w
  case ret b   => exact hk b w hv hm
  case call hi => exact safe_aside hp.left hm fun r w' hv hm => hi r (hp.right r) hv hm

theorem snapshot_aside (d : Setup) : (snapshot d).Only Op.Aside := by
  refine ⟨trivial, fun r => ?_⟩
  cases r
  case some cached => trivial
  case none        =>
    have hr : ∀ releases : Except Error (List Release), Prog.Only Op.Aside (do
        let csvs : Except Error (List CsvHit) ←
          if d.dyn then Prog.perform (S := ops) .listCSVs else pure (.ok [])
        Prog.perform (S := ops)
          (.snapshotUnlock (.scan (releases.toOption.getD []) (csvs.toOption.getD [])))) := by
      intro releases
      cases d.dyn
      case true  => exact ⟨trivial, fun _ => ⟨trivial, fun _ => trivial⟩⟩
      case false => exact ⟨trivial, fun _ => trivial⟩
    simp only [Prog.bind, scan]
    cases d.helm
    case true  => exact ⟨trivial, fun r => hr r⟩
    case false => exact hr _

theorem safe_detect (hm : Mine i [] [] w) (hi : i.request = .status name) :
    Safely d i (detect d name) w := by
  apply safe_get hm
  case he => exact fun _ _ _ => trivial
  case hk =>
    intro c w hv hm he
    apply safe_only (snapshot_aside d) hv hm
    intro r w hv hm
    split
    case isTrue  => exact fun _ _ _ => trivial
    case isFalse =>
      apply safe_write hm
      · simp [Caller.Concludes, hi]
      · simp
      · exact fun _ _ _ _ _ _ _ => trivial

-- The component is marked, Helm does its work, and what came of it is written down.
theorem safe_work {c : Component} {k : Except Str Release → Task} {m : Release → Mutation} (hm : Mine i [] [] w)
    (he : (w.entry c.name).isSome) (ha : a ≠ .upgrade) (hf : ∀ err, i.Concludes (.failed err))
    (hc : ∀ rel, i.Concludes (m rel))
    (hke : ∀ err, k (.error err) = (storeUpdate c.name (.failed err) >>= fun _ => storeGet c.name))
    (hko : ∀ rel, k (.ok rel) =
      (Prog.perform (S := ops) .invalidateSnapshot >>= fun _ => storeUpdate c.name (m rel))) :
    Safely d i (storeUpdate c.name .installing >>= fun _ => helm a c >>= k) w := by
  apply safe_mark hm he
  intro _ w hv hm
  apply safe_helm hm ha
  intro r w hv hm
  cases r
  case error err =>
    show Safely d i (k (.error err)) w
    rw [hke]
    exact safe_failed hm (hf err)
  case ok rel    =>
    show Safely d i (k (.ok rel)) w
    rw [hko]
    have ho : Op.Aside .invalidateSnapshot := trivial
    apply safe_aside ho hm
    intro _ w hv hm
    apply safe_conclude hm (hc rel)
    exact fun _ _ _ _ _ _ _ => trivial

theorem safe_install (hm : Mine i [] [] w) (hi : i.request = .install name) :
    Safely d i (install name) w := by
  apply safe_get hm
  case he => exact fun _ _ _ => trivial
  case hk =>
    intro c w hv hm he
    have hn : c.item.name = name := hv.keyed name c he
    subst hn
    simp only [Prog.bind]
    split
    case isTrue => exact fun _ _ _ => trivial
    split
    case isTrue => exact fun _ _ _ => trivial
    apply safe_work hm (by simp [he]) (by simp) _ _ (fun _ => rfl) fun _ => rfl
    all_goals simp [Caller.Concludes, hi]

theorem safe_uninstall (hm : Mine i [] [] w) (hi : i.request = .uninstall name) :
    Safely d i (uninstall name) w := by
  apply safe_get hm
  case he => exact fun _ _ _ => trivial
  case hk =>
    intro c w hv hm he
    have hn : c.item.name = name := hv.keyed name c he
    subst hn
    simp only [Prog.bind]
    split
    case isTrue => exact fun _ _ _ => trivial
    split
    case isTrue => exact fun _ _ _ => trivial
    apply safe_work hm (by simp [he]) (by simp) _ _ (fun _ => rfl) fun _ => rfl
    all_goals simp [Caller.Concludes, hi]

theorem safe_reconcile (hm : Mine i [] [] w) (hi : i.request = .reconcile name) :
    Safely d i (reconcile name) w := by
  apply safe_get hm
  case he => exact fun _ _ _ => trivial
  case hk =>
    intro c w hv hm he
    simp only [Prog.bind]
    split
    case isTrue => exact fun _ _ _ => trivial
    split
    case isTrue => exact fun _ _ _ => trivial
    apply safe_upgrade hm
    intro r w hv hm
    cases r
    case error err =>
      apply safe_write hm
      · simp [Caller.Concludes, hi]
      · simp
      · exact fun _ _ _ hm => safe_read hm
    case ok rel    =>
      apply safe_write hm
      · simp [Caller.Concludes, hi]
      · simp
      · exact fun _ _ _ _ _ _ _ => trivial

theorem keeps (d : Setup) : (exclusion d).Keeps (Exclusive d) := by
  intro i w hv hm
  cases hi : i.request
  case install name   => exact code_install hi ▸ safe_install hm hi
  case uninstall name => exact code_uninstall hi ▸ safe_uninstall hm hi
  case reconcile name => exact code_reconcile hi ▸ safe_reconcile hm hi
  case status name    => exact code_status hi ▸ safe_detect hm hi

end Programs

theorem start_inv (catalog : Catalog) : Inv (World.start catalog) where
  keyed          := catalog.keyed
  once           := .nil
  marked _ _ h   := by cases h
  single         := .nil
  held _ _ _ h   := by cases h
  upgraded _ _ h := by cases h

theorem start_holds (d : Setup) (catalog : Catalog) :
    (exclusion d).Holds (Exclusive d) ⟨World.start catalog, []⟩ where
  inv      := start_inv catalog
  safe _ h := by cases h
  apart    := .nil
  idle _ _ := ⟨by simp [World.start], by simp [World.start]⟩

theorem step_get {c : Config ops World Caller (Except Error Entry)} {n : Nat}
    (hn : c.calls[n]? = some (i, .call (.storeGet name) k)) (he : c.world.entry name = some e) :
    ((pool d).next c (.act n x)).calls[n]? = some (i, k (.ok e)) := by
  have hl : n < c.calls.length := (List.getElem?_eq_some_iff.mp hn).choose
  rw [Pool.next_act hn, storeGet_some he]
  exact List.getElem?_set_self hl

-- What Helm is doing can be seen from the entry.
theorem Inv.refuses {c : Config ops World Caller (Except Error Entry)} {p : Pick Draw Caller}
    (h : Inv c.world) (ha : Arrives d c p) : Refuses d c p := by
  cases p
  case act n x =>
    rintro i hn ⟨j, a, name⟩ hr ho
    have hy := ha i hn _ hr ho
    have hbusy : a ≠ .upgrade →
        ∃ e, c.world.entry name = some e ∧ e.item.status ≠ .installed := by
      intro hu
      obtain ⟨e, he, hs⟩ := h.marked j name (h.held j a name hr hu)
      exact ⟨e, he, by simp [hs]⟩
    cases hi : i.request
    all_goals simp only [hi, Request.operates, Option.some.injEq, reduceCtorEq] at ho
    all_goals subst ho
    case install name =>
      simp only [hi, Request.Yields] at hy
      subst hy
      obtain ⟨e, he, hs⟩ := h.upgraded j name hr
      rw [code_install hi] at hn
      exact ⟨.new "already installed", (step_get hn he).trans (by simp [Prog.bind, hs])⟩
    case uninstall name =>
      simp only [hi, Request.Yields] at hy
      obtain ⟨e, he, hs⟩ := hbusy hy
      rw [code_uninstall hi] at hn
      exact ⟨.new "component is not installed", (step_get hn he).trans (by simp [Prog.bind, hs])⟩
    case reconcile name =>
      simp only [hi, Request.Yields] at hy
      obtain ⟨e, he, hs⟩ := hbusy hy
      rw [code_reconcile hi] at hn
      exact ⟨.new "only installed components can be reconciled", (step_get hn he).trans (by simp [Prog.bind, hs])⟩
  all_goals trivial

theorem exclusive_at_most_one {d : Setup} {catalog : Catalog} {ps : List (Pick Draw Caller)}
    (h : (pool d).Throughout
      (fun c p => Fresh c p ∧ Meets (Exclusive d) c p ∧ Arrives d c p)
      ps ⟨World.start catalog, []⟩) :
    (pool d).Throughout (fun c p => AtMostOne c.world ∧ Refuses d c p)
      ps ⟨World.start catalog, []⟩ ∧
    AtMostOne ((pool d).run ⟨World.start catalog, []⟩ ps).world := by
  have hf := h.mono fun c p hc => And.intro hc.left hc.right.left
  have ⟨ht, he⟩ := (start_holds d catalog).throughout (keeps d) hf
  have hb := ht.and h
  exact ⟨hb.mono fun c p hc => ⟨hc.left.left.inv.once, hc.left.left.inv.refuses hc.right.right.right⟩,
    he.inv.once⟩

section Runs

-- A system namespace and no client of the cluster: what Helm answers is drawn at each step.
def bare : Setup where
  systemNamespace := str "knaic-system"
  helm            := false
  dyn             := false

def Entry.fresh (item : Component) : Entry where
  item     := item
  installs := 0
  marked   := false

def shelf : Catalog where
  items := (∅ : Map Entry).insert (str "kserve") (.fresh kserve)
  keyed n e h := by
    obtain ⟨rfl, rfl⟩ | h := Map.lookup_insert_some h
    · rfl
    · cases (Finmap.lookup_empty n).symm.trans h
  fresh n e h := by
    obtain ⟨rfl, rfl⟩ | h := Map.lookup_insert_some h
    · rfl
    · cases (Finmap.lookup_empty n).symm.trans h

def release : Release where
  name   := str "knaic-kserve"
  ns     := str "knaic-system"
  chart  := some (str "kserve")
  labels := ∅

def helmWorks : Draw where
  now      := .zero
  helm     := .ok release
  releases := .ok []
  csvs     := .ok []

def caller (r : Str → Request) (number : Nat) : Caller where
  request := r (str "kserve")
  number  := number

instance (w : World) (name : Str) : Decidable (Upgrading w name) :=
  decidable_of_iff (∃ r ∈ w.running, r.2 = (.upgrade, name))
    ⟨fun ⟨⟨i, _⟩, hr, he⟩ => ⟨i, he ▸ hr⟩, fun ⟨_, hr⟩ => ⟨_, hr, rfl⟩⟩

instance (w : World) (name : Str) : Decidable (Quiet w name) :=
  inferInstanceAs (Decidable (_ ∧ _))

instance (i : Caller) (m : Mutation) : Decidable (i.Concludes m) := by
  cases hi : i.request <;> cases m <;> simp only [Caller.Concludes, hi] <;> infer_instance

instance (d : Setup) (m : Mutation) (c : Component) : Decidable (m.Leaves d c) :=
  inferInstanceAs (Decidable (_ = _))

instance (d : Setup) (i : Caller) (op : ops.Op) (x : Draw) (w : World) :
    Decidable (Exclusive d i op x w) :=
  match op with
  | .storeUpdate _ _      => inferInstanceAs (Decidable (_ ∨ _ ∨ _ ∧ ∀ _ ∈ _, _))
  | .helmStart .upgrade _ => inferInstanceAs (Decidable (_ ∧ ∃ _ ∈ _, _))
  | .helmStart .install _ | .helmStart .uninstall _ | .storeGet _ | .helmEnd _ _ | .snapshotLock
  | .helmListAll | .listCSVs | .snapshotUnlock _ | .invalidateSnapshot => isTrue trivial

instance (i : Caller) (w : World) : Decidable (i.YieldsTo w) := by
  simp only [Caller.YieldsTo, Request.Yields]
  cases i.request <;> infer_instance

instance (w : World) : Decidable (AtMostOne w) :=
  inferInstanceAs (Decidable (List.Nodup _))

-- Whatever a call does first, it reads the entry.
def Early : Pool.Condition ops Draw World Caller
  | i, .storeGet _, _, w => i.YieldsTo w
  | _, _, _, _           => True

instance (i : Caller) (op : ops.Op) (x : Draw) (w : World) : Decidable (Early i op x w) :=
  match op with
  | .storeGet _ => inferInstanceAs (Decidable (i.YieldsTo w))
  | .storeUpdate _ _ | .helmStart _ _ | .helmEnd _ _ | .snapshotLock
  | .helmListAll | .listCSVs | .snapshotUnlock _ | .invalidateSnapshot => isTrue trivial

theorem Arrives.of_early {c : Config ops World Caller (Except Error Entry)} {p : Pick Draw Caller}
    (h : Meets Early c p) : Arrives d c p := by
  cases p
  case act n x =>
    intro i hn
    cases hi : i.request
    case install  => exact h i (.storeGet _) _ (code_install hi ▸ hn)
    case uninstall => exact h i (.storeGet _) _ (code_uninstall hi ▸ hn)
    case reconcile => exact h i (.storeGet _) _ (code_reconcile hi ▸ hn)
    case status => exact h i (.storeGet _) _ (code_status hi ▸ hn)
  all_goals trivial

-- An `Install` runs to its end and is followed by a `Reconcile`. An `Uninstall` that comes while Helm
-- is at work is turned down.
def orderly : List (Pick Draw Caller) :=
  .start (caller .install 0) :: List.replicate 3 (.act 0 helmWorks) ++
  [.start (caller .uninstall 1), .act 1 helmWorks] ++ List.replicate 3 (.act 0 helmWorks) ++
  .start (caller .reconcile 2) :: List.replicate 4 (.act 2 helmWorks)

theorem exclusive_at_most_one_orderly :
    (pool bare).Throughout (fun c p => AtMostOne c.world ∧ Refuses bare c p)
      orderly ⟨World.start shelf, []⟩ ∧
    AtMostOne ((pool bare).run ⟨World.start shelf, []⟩ orderly).world := by
  have h : (pool bare).Throughout
      (fun c p => Fresh c p ∧ Meets (Exclusive bare) c p ∧ Meets Early c p)
      orderly ⟨World.start shelf, []⟩ := by decide
  exact exclusive_at_most_one (h.mono fun c p hc => ⟨hc.left, hc.right.left, .of_early hc.right.right⟩)

-- Nothing in `Install` stops it where the entry says that one is under way.
def twice : List (Pick Draw Caller) :=
  .start (caller .install 0) :: List.replicate 3 (.act 0 helmWorks) ++
  .start (caller .install 1) :: List.replicate 3 (.act 1 helmWorks)

theorem two_installs_at_once :
    ¬∀ d catalog ps,
      (pool d).Throughout (fun c p => Fresh c p ∧ Meets Unlocked c p)
        ps ⟨World.start catalog, []⟩ →
      (pool d).Throughout (fun c p => AtMostOne c.world ∧ Refuses d c p)
        ps ⟨World.start catalog, []⟩ ∧
      AtMostOne ((pool d).run ⟨World.start catalog, []⟩ ps).world := by
  intro h
  have hr : (pool bare).Throughout (fun c p => Fresh c p ∧ Meets Unlocked c p)
      twice ⟨World.start shelf, []⟩ := by decide
  have ht : ¬AtMostOne ((pool bare).run ⟨World.start shelf, []⟩ twice).world := by decide
  exact ht (h bare shelf twice hr).right

end Runs

end Components

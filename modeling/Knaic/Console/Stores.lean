import Mathlib.Data.Finset.Insert
import Mathlib.Logic.Function.Basic
import Knaic.Effects.Events
import Knaic.Js.Text

open Js Effects

-- The stores of the console. Each shows what the platform lists for some keys, and what has been asked for is answered
-- in any order.
namespace Console

-- What a store is made of: the slot that a key stands for, the slot that a row is in, and how a row is made of what is
-- listed.
structure Slots (Key Slot Item Row : Type) where
  wants : Key → Slot
  of    : Row → Slot
  fill  : Item → Row
  front : Bool

namespace Slots

variable {Key Slot Item Row : Type} (x : Slots Key Slot Item Row)

-- What the platform lists for a slot.
structure Listing (s : Slot) where
  items : List Item
  own   : ∀ i ∈ items, x.of (x.fill i) = s

def Listing.rows {x : Slots Key Slot Item Row} {s : Slot} (l : x.Listing s) : List Row :=
  l.items.map x.fill

-- How far a request is: the platform has not looked yet, its answer is under way, the answer is in the store, or there
-- is none.
inductive Phase (s : Slot)
  | sent
  | answered (l : x.Listing s)
  | shown (l : x.Listing s)
  | failed

-- `recent` is not in the source: nothing has changed in the slot since the request was made.
structure Request where
  key    : Key
  phase  : x.Phase (x.wants key)
  recent : Bool

structure Store where
  rows     : List Row
  loaded   : Finset Key
  requests : List x.Request
  listing  : (s : Slot) → x.Listing s

def Store.initial (rows : List Row) (listing : (s : Slot) → x.Listing s) : Store x where
  rows     := rows
  loaded   := ∅
  requests := []
  listing  := listing

-- Something is asked for unless it was, or asked for once more. The platform looks, its answer arrives or does not, and
-- what it lists changes. A row is put into the store or taken out where that has been done on the platform.
inductive Event
  | ensure (k : Key)
  | reload (k : Key)
  | look (n : Nat)
  | arrive (n : Nat)
  | fail (n : Nat)
  | edit (f : List Row → List Row)
  | change (s : Slot) (l : x.Listing s)

section Step

variable [DecidableEq Key] [DecidableEq Slot]

def merge (k : Key) (l : x.Listing (x.wants k)) (rows : List Row) : List Row :=
  let others := rows.filter fun r => x.of r ≠ x.wants k
  if x.front then l.rows ++ others else others ++ l.rows

namespace Store

variable {x} (w : x.Store)

def ensure (k : Key) : Store x :=
  if k ∈ w.loaded then w
  else { w with loaded := insert k w.loaded, requests := w.requests ++ [⟨k, .sent, true⟩] }

def reload (k : Key) : Store x :=
  { w with loaded := w.loaded.erase k }.ensure k

def put (n : Nat) (r : x.Request) : Store x :=
  { w with requests := w.requests.set n r }

def look (n : Nat) : Store x :=
  match w.requests[n]? with
  | some ⟨k, .sent, recent⟩ => w.put n ⟨k, .answered (w.listing (x.wants k)), recent⟩
  | _                       => w

def arrive (n : Nat) : Store x :=
  match w.requests[n]? with
  | some ⟨k, .answered l, recent⟩ => { w.put n ⟨k, .shown l, recent⟩ with rows := x.merge k l w.rows }
  | _                             => w

def fail (n : Nat) : Store x :=
  match w.requests[n]? with
  | some ⟨k, .sent, recent⟩ | some ⟨k, .answered _, recent⟩ =>
    { w.put n ⟨k, .failed, recent⟩ with loaded := w.loaded.erase k }
  | _ => w

def change (s : Slot) (l : x.Listing s) : Store x :=
  { w with
    listing  := Function.update w.listing s l
    requests := w.requests.map fun r => { r with recent := r.recent && x.wants r.key ≠ s } }

def step (w : x.Store) : x.Event → Store x
  | .ensure k   => w.ensure k
  | .reload k   => w.reload k
  | .look n     => w.look n
  | .arrive n   => w.arrive n
  | .fail n     => w.fail n
  | .edit f     => { w with rows := f w.rows }
  | .change s l => w.change s l

-- The rows of a slot.
def shown (s : Slot) : List Row :=
  w.rows.filter fun r => x.of r = s

end Store
end Step

section Marks

variable {x}

def Phase.isShown {s : Slot} : x.Phase s → Bool
  | .shown _ => true
  | _        => false

-- The slot of a request, and whether the store has its answer and nothing has changed behind that.
def Request.mark (r : x.Request) : Slot × Bool :=
  (x.wants r.key, r.recent && r.phase.isShown)

-- The last request for a slot is marked.
def SettledIn (s : Slot) (marks : List (Slot × Bool)) : Prop :=
  ∃ n : Nat, marks[n]? = some (s, true) ∧ ∀ (m : Nat) (b : Bool), n < m → marks[m]? ≠ some (s, b)

variable {s t : Slot} {b : Bool} {n : Nat} {marks : List (Slot × Bool)}

theorem SettledIn.of_append (h : SettledIn s (marks ++ [(t, false)])) : SettledIn s marks := by
  obtain ⟨n, hn, hl⟩ := h
  rw [List.getElem?_append] at hn
  split at hn
  case isTrue hlt  =>
    refine ⟨n, hn, fun m b hm he => hl m b hm ?_⟩
    rwa [List.getElem?_append_left (List.getElem?_eq_some_iff.mp he).choose]
  case isFalse hge =>
    rw [List.getElem?_singleton] at hn
    split at hn <;> cases hn

-- Of two requests for a slot the last one counts.
theorem SettledIn.of_set (hn : marks[n]? = some (t, false)) (h : SettledIn s (marks.set n (t, b))) :
    SettledIn s marks ∨ (s = t ∧ b) := by
  obtain ⟨i, hi, hl⟩ := h
  by_cases he : n = i
  case pos =>
    subst he
    rw [List.getElem?_set_self (List.getElem?_eq_some_iff.mp hn).choose] at hi
    cases hi
    exact .inr ⟨rfl, rfl⟩
  case neg =>
    rw [List.getElem?_set_ne he] at hi
    refine .inl ⟨i, hi, fun m c hm hc => ?_⟩
    by_cases hm' : n = m
    case pos =>
      subst hm'
      cases hn.symm.trans hc
      exact hl n b hm (List.getElem?_set_self (List.getElem?_eq_some_iff.mp hn).choose)
    case neg => exact hl m c hm (by rw [List.getElem?_set_ne hm', hc])

theorem SettledIn.set (hn : marks[n]? = some (t, false)) (h : SettledIn t marks) (b : Bool) :
    SettledIn t (marks.set n (t, b)) := by
  obtain ⟨i, hi, hl⟩ := h
  have hlt : n < i := by
    by_contra hge
    by_cases he : n = i
    case pos => cases he; cases hn.symm.trans hi
    case neg => exact hl n false (by omega) hn
  refine ⟨i, by rw [List.getElem?_set_ne (by omega), hi], fun m c hm => ?_⟩
  rw [List.getElem?_set_ne (by omega)]
  exact hl m c hm

theorem SettledIn.of_map [DecidableEq Slot] (h : SettledIn t (marks.map fun e => (e.1, e.2 && e.1 ≠ s))) :
    t ≠ s ∧ SettledIn t marks := by
  obtain ⟨i, hi, hl⟩ := h
  rw [List.getElem?_map] at hi
  obtain ⟨⟨t, c⟩, he, hi⟩ := Option.map_eq_some_iff.mp hi
  simp only [Prod.mk.injEq, Bool.and_eq_true, decide_eq_true_eq] at hi
  obtain ⟨rfl, rfl, hs⟩ := hi
  refine ⟨hs, i, he, fun m c hm hc => hl m (c && t ≠ s) hm ?_⟩
  rw [List.getElem?_map, hc]
  rfl

end Marks

section Current

variable {x}

namespace Store

variable {w : x.Store} {s : Slot} {n : Nat} {k : Key}

def marks (w : x.Store) : List (Slot × Bool) :=
  w.requests.map Request.mark

theorem marks_get {r : x.Request} (h : w.requests[n]? = some r) : w.marks[n]? = some r.mark := by
  rw [marks, List.getElem?_map, h]
  rfl

theorem marks_put (r : x.Request) : (w.put n r).marks = w.marks.set n r.mark :=
  List.map_set

-- A request that stays marked as it was.
theorem marks_put_same {r r' : x.Request} (h : w.requests[n]? = some r) (hm : r'.mark = r.mark) :
    (w.put n r').marks = w.marks := by
  have hg := List.getElem?_eq_some_iff.mp (marks_get h)
  rw [marks_put, hm, ← hg.choose_spec, List.set_getElem_self]

variable [DecidableEq Slot]

-- The answer to the last request for a slot is in the store, and nothing has changed in the slot since that was made.
def Settled (w : x.Store) (s : Slot) : Prop :=
  SettledIn s w.marks

-- What is settled is shown as it is listed.
def Current (w : x.Store) : Prop :=
  ∀ s, w.Settled s → w.shown s = (w.listing s).rows

-- An answer that comes after that of a later request still says the same, and an edit does what the platform has done.
def InTurn (w : x.Store) : x.Event → Prop
  | .arrive n => ∀ k l recent, w.requests[n]? = some ⟨k, .answered l, recent⟩ → w.Settled (x.wants k) →
    l.rows = (w.listing (x.wants k)).rows
  | .edit f   => ∀ s, w.Settled s → (f w.rows).filter (fun r => x.of r = s) = (w.listing s).rows
  | _         => True

structure Inv (w : x.Store) : Prop where
  current : w.Current
  told    : ∀ r ∈ w.requests, r.recent → ∀ l, r.phase = .answered l → l = w.listing (x.wants r.key)

theorem merge_own (l : x.Listing (x.wants k)) (rows : List Row) :
    (x.merge k l rows).filter (fun r => x.of r = x.wants k) = l.rows := by
  have hl : l.rows.filter (fun r => x.of r = x.wants k) = l.rows := by
    refine List.filter_eq_self.mpr fun r hr => ?_
    obtain ⟨i, hi, rfl⟩ := List.mem_map.mp hr
    exact decide_eq_true (l.own i hi)
  have ho : (rows.filter fun r => x.of r ≠ x.wants k).filter (fun r => x.of r = x.wants k) = [] := by
    simp [List.filter_filter]
  rw [merge]
  split <;> rw [List.filter_append, hl, ho]
  · exact List.append_nil _
  · exact List.nil_append _

-- Other slots are left alone.
theorem merge_other (h : s ≠ x.wants k) (l : x.Listing (x.wants k)) (rows : List Row) :
    (x.merge k l rows).filter (fun r => x.of r = s) = rows.filter fun r => x.of r = s := by
  have hl : l.rows.filter (fun r => x.of r = s) = [] := by
    refine List.filter_eq_nil_iff.mpr fun r hr => ?_
    obtain ⟨i, hi, rfl⟩ := List.mem_map.mp hr
    rw [l.own i hi]
    simpa using Ne.symm h
  have ho : (rows.filter fun r => x.of r ≠ x.wants k).filter (fun r => x.of r = s) = rows.filter fun r => x.of r = s := by
    rw [List.filter_filter]
    refine List.filter_congr fun r _ => ?_
    by_cases hr : x.of r = s <;> simp [hr, h]
  rw [merge]
  split <;> rw [List.filter_append, hl, ho]
  · exact List.nil_append _
  · exact List.append_nil _

theorem told_put (h : w.Inv) {r : x.Request} (hr : r.recent → ∀ l, r.phase = .answered l → l = w.listing (x.wants r.key)) :
    ∀ r' ∈ (w.put n r).requests, r'.recent → ∀ l, r'.phase = .answered l → l = w.listing (x.wants r'.key) := by
  intro r' hm
  rcases List.mem_or_eq_of_mem_set hm with hm | rfl
  · exact h.told r' hm
  · exact hr

theorem Inv.look (h : w.Inv) (n : Nat) : (w.look n).Inv := by
  unfold Store.look
  split
  case h_1 k recent hr =>
    have hm : Request.mark (⟨k, .answered (w.listing (x.wants k)), recent⟩ : x.Request) = Request.mark ⟨k, .sent, recent⟩ :=
      rfl
    refine ⟨fun s hs => h.current s ?_, told_put h fun _ l hl => (Phase.answered.inj hl).symm⟩
    rwa [Settled, marks_put_same hr hm] at hs
  case h_2             => exact h

theorem Inv.fail [DecidableEq Key] (h : w.Inv) (n : Nat) : (w.fail n).Inv := by
  have failed {k : Key} {phase : x.Phase (x.wants k)} {recent : Bool} (hr : w.requests[n]? = some ⟨k, phase, recent⟩)
      (hp : phase.isShown = false) : Inv { w.put n ⟨k, .failed, recent⟩ with loaded := w.loaded.erase k } := by
    have hm : Request.mark (⟨k, .failed, recent⟩ : x.Request) = Request.mark ⟨k, phase, recent⟩ := by
      rw [Request.mark, Request.mark, hp]
      rfl
    refine ⟨fun s hs => h.current s ?_, told_put h fun _ l hl => nomatch hl⟩
    have hs : SettledIn s (w.put n ⟨k, .failed, recent⟩).marks := hs
    rwa [marks_put_same hr hm] at hs
  unfold Store.fail
  split
  case h_1 hr => exact failed hr rfl
  case h_2 hr => exact failed hr rfl
  case h_3    => exact h

theorem Inv.ensure [DecidableEq Key] (h : w.Inv) (k : Key) : (w.ensure k).Inv := by
  unfold Store.ensure
  split
  case isTrue  => exact h
  case isFalse =>
    refine ⟨fun s hs => h.current s ?_, fun r hr => ?_⟩
    · have hm : marks { w with loaded := insert k w.loaded, requests := w.requests ++ [⟨k, .sent, true⟩] } =
          w.marks ++ [(x.wants k, false)] :=
        List.map_append
      rw [Settled, hm] at hs
      exact hs.of_append
    · rcases List.mem_append.mp hr with hr | hr
      · exact h.told r hr
      · rw [List.mem_singleton.mp hr]
        exact fun _ l hl => nomatch hl

theorem Inv.reload [DecidableEq Key] (h : w.Inv) (k : Key) : (w.reload k).Inv :=
  Inv.ensure (w := { w with loaded := w.loaded.erase k }) ⟨h.current, h.told⟩ k

theorem Inv.change (h : w.Inv) (s : Slot) (l : x.Listing s) : (w.change s l).Inv := by
  have hm : (w.change s l).marks = w.marks.map fun e => (e.1, e.2 && e.1 ≠ s) := by
    rw [marks, marks, List.map_map, Store.change, List.map_map]
    refine List.map_congr_left fun r _ => ?_
    exact congrArg (x.wants r.key, ·) (Bool.and_right_comm ..)
  refine ⟨fun t ht => ?_, fun r hr hrecent l' hl => ?_⟩
  · rw [Settled, hm] at ht
    obtain ⟨hn, ht⟩ := ht.of_map
    have hl : (w.change s l).listing t = w.listing t := Function.update_of_ne hn _ _
    rw [hl]
    exact h.current t ht
  · obtain ⟨r, hm, rfl⟩ := List.mem_map.mp hr
    rw [Bool.and_eq_true, decide_eq_true_eq] at hrecent
    exact (h.told r hm hrecent.left l' hl).trans (Function.update_of_ne hrecent.right _ _).symm

theorem arrive_eq {l : x.Listing (x.wants k)} {recent : Bool} (hr : w.requests[n]? = some ⟨k, .answered l, recent⟩) :
    w.arrive n = { w.put n ⟨k, .shown l, recent⟩ with rows := x.merge k l w.rows } := by
  rw [Store.arrive, hr]

theorem arrive_of_not (h : ¬∃ k l recent, w.requests[n]? = some ⟨k, .answered l, recent⟩) : w.arrive n = w := by
  unfold Store.arrive
  split
  case h_1 k l recent hr => exact absurd ⟨k, l, recent, hr⟩ h
  case h_2               => rfl

theorem settled_arrive {l : x.Listing (x.wants k)} {recent : Bool}
    (hr : w.requests[n]? = some ⟨k, .answered l, recent⟩) :
    w.marks[n]? = some (x.wants k, false) ∧ (w.arrive n).marks = w.marks.set n (x.wants k, recent) := by
  have hm := marks_get hr
  have hp := marks_put (w := w) (n := n) ⟨k, .shown l, recent⟩
  simp only [Request.mark, Phase.isShown, Bool.and_false, Bool.and_true] at hm hp
  exact ⟨hm, by rw [arrive_eq hr]; exact hp⟩

theorem Inv.arrive (h : w.Inv) (ha : w.InTurn (.arrive n)) : (w.arrive n).Inv := by
  by_cases he : ∃ k l recent, w.requests[n]? = some ⟨k, .answered l, recent⟩
  case neg =>
    rwa [arrive_of_not he]
  case pos =>
    obtain ⟨k, l, recent, hr⟩ := he
    obtain ⟨hm, hs⟩ := settled_arrive hr
    refine ⟨fun s hset => ?_, ?_⟩
    · rw [Settled, hs] at hset
      have hset := hset.of_set hm
      by_cases hk : s = x.wants k
      case pos =>
        subst hk
        have hl : l.rows = (w.listing (x.wants k)).rows := by
          rcases hset with hset | ⟨-, hrecent⟩
          · exact ha k l recent hr hset
          · exact congrArg Listing.rows (h.told _ (List.mem_of_getElem? hr) hrecent l rfl)
        rw [arrive_eq hr]
        exact (merge_own l w.rows).trans hl
      case neg =>
        rw [arrive_eq hr]
        exact (merge_other hk l w.rows).trans (h.current s (hset.resolve_right fun hn => hk hn.left))
    · rw [arrive_eq hr]
      exact told_put h fun _ l hl => nomatch hl

-- What comes out of turn is shown all the same.
theorem inTurn_of_current (hc : (w.arrive n).Current) : w.InTurn (.arrive n) := by
  intro k l recent hr hset
  obtain ⟨hm, hs⟩ := settled_arrive hr
  have hset : (w.arrive n).Settled (x.wants k) := by
    rw [Settled, hs]
    exact hset.set hm recent
  have hc := hc _ hset
  rw [arrive_eq hr] at hc
  exact (merge_own l w.rows).symm.trans hc

theorem Inv.initial (rows : List Row) (listing : (s : Slot) → x.Listing s) : (initial x rows listing).Inv := by
  refine ⟨fun s hs => ?_, List.forall_mem_nil _⟩
  obtain ⟨n, hn, -⟩ := hs
  cases hn

variable [DecidableEq Key]

theorem Inv.step {e : x.Event} (h : w.Inv) (ha : w.InTurn e) : (w.step e).Inv := by
  cases e
  case ensure k   => exact h.ensure k
  case reload k   => exact h.reload k
  case look n     => exact h.look n
  case arrive n   => exact h.arrive ha
  case fail n     => exact h.fail n
  case edit f     => exact ⟨ha, h.told⟩
  case change s l => exact h.change s l

end Store
end Current

-- How often something is asked for.
section Asked

variable {x}

def Phase.isFailed {s : Slot} : x.Phase s → Bool
  | .failed => true
  | _       => false

@[simp] theorem Phase.isFailed_failed {s : Slot} : (.failed : x.Phase s).isFailed = true := rfl
@[simp] theorem Phase.isFailed_sent {s : Slot} : (.sent : x.Phase s).isFailed = false := rfl

theorem countP_set {α : Type} {l : List α} {n : Nat} {a : α} (p : α → Bool) (h : l[n]? = some a) (b : α) :
    (l.set n b).countP p + (if p a then 1 else 0) = l.countP p + (if p b then 1 else 0) := by
  induction l generalizing n
  case nil         => cases h
  case cons c l hi =>
    cases n
    case zero   =>
      cases h
      simp only [List.set_cons_zero, List.countP_cons]
      omega
    case succ n =>
      have hi := hi h
      simp only [List.set_cons_succ, List.countP_cons]
      omega

namespace Store

variable [DecidableEq Key] {w : x.Store} {k : Key} {n : Nat}

-- The requests for a key that have not failed.
def live (w : x.Store) (k : Key) : Nat :=
  w.requests.countP fun r => r.key = k && !r.phase.isFailed

def reloads (k : Key) (es : List x.Event) : Nat :=
  es.countP fun
    | .reload k' => k' = k
    | _          => false

theorem live_put {r : x.Request} (h : w.requests[n]? = some r) (r' : x.Request) (hk : r'.key = r.key)
    (hp : r'.phase.isFailed = r.phase.isFailed) (k : Key) : (w.put n r').live k = w.live k := by
  have hc := countP_set (fun r : x.Request => r.key = k && !r.phase.isFailed) h r'
  simp only [hk, hp] at hc
  exact Nat.add_right_cancel hc

-- What a request that fails frees may be asked for again.
theorem live_failed {k : Key} {phase : x.Phase (x.wants k)} {recent : Bool} (h : w.requests[n]? = some ⟨k, phase, recent⟩)
    (hp : phase.isFailed = false) (k' : Key) :
    (w.put n ⟨k, .failed, recent⟩).live k' + (if k = k' then 1 else 0) = w.live k' := by
  have hc := countP_set (fun r : x.Request => r.key = k' && !r.phase.isFailed) h ⟨k, .failed, recent⟩
  simpa [hp, live, put] using hc

-- A key that is not loaded may be asked for once more than it was reloaded.
def Bounded (w : x.Store) (k : Key) (n : Nat) : Prop :=
  w.live k + (if k ∈ w.loaded then 0 else 1) ≤ n + 1

theorem Bounded.ensure (h : w.Bounded k n) (k' : Key) : (w.ensure k').Bounded k n := by
  unfold Store.ensure
  split
  case isTrue     => exact h
  case isFalse hn =>
    simp only [Bounded, live, List.countP_append, List.countP_singleton, Finset.mem_insert] at h ⊢
    by_cases hk : k' = k
    case pos =>
      subst hk
      simp only [hn, if_false] at h
      simpa using h
    case neg => simpa [hk, Ne.symm hk] using h

theorem Bounded.reload (h : w.Bounded k n) (k' : Key) : (w.reload k').Bounded k (n + if k' = k then 1 else 0) := by
  refine Bounded.ensure ?_ k'
  by_cases hk : k' = k
  case pos =>
    simp only [Bounded, live, hk, Finset.notMem_erase, if_true, if_false] at h ⊢
    omega
  case neg => simpa [Bounded, live, hk, Ne.symm hk] using h

theorem Bounded.look (h : w.Bounded k n) (m : Nat) : (w.look m).Bounded k n := by
  unfold Store.look
  split
  case h_1 k' recent hr =>
    have hl := live_put hr ⟨k', .answered (w.listing (x.wants k')), recent⟩ rfl rfl k
    exact (congrArg (· + _ ≤ _) hl).mpr h
  case h_2              => exact h

theorem Bounded.arrive [DecidableEq Slot] (h : w.Bounded k n) (m : Nat) : (w.arrive m).Bounded k n := by
  by_cases he : ∃ k l recent, w.requests[m]? = some ⟨k, .answered l, recent⟩
  case pos =>
    obtain ⟨k', l, recent, hr⟩ := he
    have hl := live_put hr ⟨k', .shown l, recent⟩ rfl rfl k
    rw [arrive_eq hr]
    exact (congrArg (· + _ ≤ _) hl).mpr h
  case neg =>
    rw [arrive_of_not he]
    exact h

theorem Bounded.fail (h : w.Bounded k n) (m : Nat) : (w.fail m).Bounded k n := by
  have failed {k' : Key} {phase : x.Phase (x.wants k')} {recent : Bool} (hr : w.requests[m]? = some ⟨k', phase, recent⟩)
      (hp : phase.isFailed = false) : Bounded { w.put m ⟨k', .failed, recent⟩ with loaded := w.loaded.erase k' } k n := by
    have hl := live_failed hr hp k
    change (w.put m ⟨k', .failed, recent⟩).live k + (if k ∈ w.loaded.erase k' then 0 else 1) ≤ n + 1
    rw [Bounded] at h
    by_cases hk : k' = k
    case pos =>
      subst hk
      rw [if_pos rfl] at hl
      rw [if_neg (Finset.notMem_erase _ _)]
      split at h <;> omega
    case neg =>
      rw [if_neg hk, Nat.add_zero] at hl
      simpa [hl, Ne.symm hk] using h
  unfold Store.fail
  split
  case h_1 hr => exact failed hr rfl
  case h_2 hr => exact failed hr rfl
  case h_3    => exact h

theorem Bounded.change [DecidableEq Slot] (h : w.Bounded k n) (s : Slot) (l : x.Listing s) : (w.change s l).Bounded k n := by
  have hl : (w.change s l).live k = w.live k := List.countP_map
  rw [Bounded, hl]
  exact h

theorem Bounded.step [DecidableEq Slot] (h : w.Bounded k n) (e : x.Event) :
    (w.step e).Bounded k (n + reloads k [e]) := by
  cases e
  case reload k'  =>
    have hc : reloads k [(.reload k' : x.Event)] = if k' = k then 1 else 0 := by simp [reloads, List.countP_singleton]
    rw [hc]
    exact h.reload k'
  case ensure k'  => exact h.ensure k'
  case look m     => exact h.look m
  case arrive m   => exact h.arrive m
  case fail m     => exact h.fail m
  case edit f     => exact h
  case change s l => exact h.change s l

end Store
end Asked
end Slots

-- The stores.
section Stores

variable {α ι : Type}

structure Row (α : Type) where
  id   : Str
  name : Str
  ns   : Str
  rest : α
deriving DecidableEq

def ensureId (kind : String) (fill : α → α) (r : Row α) : Row α where
  id   := if r.id ≠ [] then r.id else str kind ++ str "-" ++ r.ns ++ str "-" ++ r.name
  name := r.name
  ns   := r.ns
  rest := fill r.rest

-- `loadInto`
def namespaced (fill : Row α → Row α) : Slots Str Str (Row α) (Row α) where
  wants := id
  of    := Row.ns
  fill  := fill
  front := false

def deploymentsStore (fill : α → α) : Slots Str Str (Row α) (Row α) :=
  namespaced (ensureId "dep" fill)

def podsStore (fill : α → α) : Slots Str Str (Row α) (Row α) :=
  namespaced (ensureId "pod" fill)

def statefulSetsStore : Slots Str Str (Row α) (Row α) :=
  namespaced (ensureId "ss" id)

def pvcsStore : Slots Str Str (Row α) (Row α) :=
  namespaced (ensureId "pvc" id)

def k8sServicesStore : Slots Str Str (Row α) (Row α) :=
  namespaced (ensureId "svc" id)

def configMapsStore : Slots Str Str (Row α) (Row α) :=
  namespaced (ensureId "cm" id)

def secretsStore : Slots Str Str (Row α) (Row α) :=
  namespaced (ensureId "sec" id)

def servicesStore (fill : α → α) : Slots Str Str (Row α) (Row α) :=
  namespaced (ensureId "is" fill)

def notebooksStore (fill : α → α) : Slots Str Str (Row α) (Row α) :=
  namespaced (ensureId "nb" fill)

def rolesStore : Slots Str Str (Row α) (Row α) :=
  namespaced id

def bindingsStore : Slots Str Str (Row α) (Row α) :=
  namespaced id

-- A runtime that is built in belongs to no namespace.
def runtimesStore (builtin : α → Bool) (fill : α → α) : Slots Str (Option Str) (Row α) (Row α) where
  wants := some
  of r  := if builtin r.rest then none else some r.ns
  fill  := ensureId "sr" fill
  front := false

structure Scoped (α : Type) where
  isPrivate : Bool
  ns        : Option Str
  rest      : α

-- What is public is together, whatever its namespace.
def collectionsStore : Slots (Bool × Option Str) (Option (Option Str)) (Scoped α) (Scoped α) where
  wants k := if k.1 then some k.2 else none
  of r    := if r.isPrivate then some r.ns else none
  fill    := id
  front   := true

-- What is listed all at once.
def whole (fill : ι → α) : Slots Unit Unit ι α where
  wants := id
  of _  := ()
  fill  := fill
  front := false

def nodesStore : Slots Unit Unit α α :=
  whole id

def llmConfigsStore : Slots Unit Unit α α :=
  whole id

def gpuProfilesStore (fromDTO : ι → α) : Slots Unit Unit ι α :=
  whole fromDTO

def storageTargetsStore (fromDTO : ι → α) : Slots Unit Unit ι α :=
  whole fromDTO

def usersStore (normalizeUser : α → α) : Slots Unit Unit α α :=
  whole normalizeUser

-- What `deleteWorkload` does to a store once the platform has deleted the object.
def deleteRow (ns name : Str) (rows : List (Row α)) : List (Row α) :=
  rows.filter fun r => !(r.ns = ns && r.name = name)

-- A deletion is in turn unless the platform has an object of that name again.
theorem delete_inTurn {fill : Row α → Row α} {w : (namespaced fill).Store} (h : w.Current) {ns name : Str}
    (hn : ∀ r ∈ (w.listing ns).rows, r.name ≠ name) : w.InTurn (.edit (deleteRow ns name)) := by
  intro s hs
  rw [← h s hs, deleteRow, List.filter_filter, Slots.Store.shown]
  refine List.filter_congr fun r hr => ?_
  by_cases hk : r.ns = ns ∧ r.name = name
  case neg =>
    simp only [not_and] at hk
    by_cases hr : r.ns = ns <;> simp [hr, hk]
  case pos =>
    obtain ⟨rfl, rfl⟩ := hk
    have hne : (namespaced fill).of r ≠ s := by
      rintro rfl
      have hm : r ∈ w.shown r.ns := List.mem_filter.mpr ⟨hr, decide_eq_true rfl⟩
      exact hn r (h r.ns hs ▸ hm) rfl
    simp [hne]

-- The answer to the first of two requests, from before the change, comes last and stays.
example :
    let pods : Slots Str Str (Row Unit) (Row Unit) := podsStore id
    let pod : Row Unit := ⟨str "p", str "web", str "team", ()⟩
    let none (s : Str) : pods.Listing s := ⟨[], List.forall_mem_nil _⟩
    let one : pods.Listing (str "team") := ⟨[pod], List.forall_mem_singleton.mpr rfl⟩
    (Events.run Slots.Store.step (Slots.Store.initial pods [] none)
      [.ensure (str "team"), .look 0, .change (str "team") one, .reload (str "team"), .look 1, .arrive 1, .arrive 0]).rows =
      [] := by
  decide

end Stores
end Console

import Knaic.Effects.Extend
import Knaic.Effects.Prog

-- A list that is served in pages, and a client that asks for page after page.
namespace Effects

section Paging

variable {α : Type}

-- Pages are counted from one.
def pageOf (size page : Nat) (l : List α) : List α :=
  (l.drop ((page - 1) * size)).take size

variable {S : Signature} {ε : Type}

-- At most `n` pages from `page` on, up to the first one that is not full.
def collect (fetch : Nat → Call S ε (List α)) (size : Nat) : Nat → Nat → List α → Call S ε (List α)
  | 0, _, out        => return out
  | n + 1, page, out => do
    let batch ← fetch page
    if batch.length < size then return out ++ batch else collect fetch size n (page + 1) (out ++ batch)

theorem pageOf_length (size page : Nat) (l : List α) :
    (pageOf size page l).length = min size (l.length - (page - 1) * size) := by
  simp [pageOf]

-- Behind a page that is not full there is nothing.
theorem pageOf_short {size page n : Nat} {l : List α} (h : (pageOf size page l).length < size) :
    pageOf size page l = (l.drop ((page - 1) * size)).take ((n + 1) * size) := by
  rw [pageOf_length] at h
  have hs : size ≤ (n + 1) * size := Nat.le_mul_of_pos_left _ (Nat.succ_pos _)
  rw [pageOf, List.take_of_length_le (by simp; omega), List.take_of_length_le (by simp; omega)]

theorem pageOf_succ {size page n : Nat} (hp : 0 < page) (l : List α) :
    pageOf size page l ++ (l.drop (page * size)).take (n * size) =
      (l.drop ((page - 1) * size)).take ((n + 1) * size) := by
  obtain ⟨p, rfl⟩ := Nat.exists_eq_succ_of_ne_zero (Nat.pos_iff_ne_zero.mp hp)
  rw [pageOf, Nat.succ_mul n, Nat.add_comm (n * size), List.take_add, List.drop_drop]
  simp [Nat.succ_mul]

-- All pages together are the list, up to the number of pages that is asked for.
theorem collect_always {D σ : Type} {answer : (op : S.Op) → D → σ → S.Res op × σ} {l : List α}
    {fetch : Nat → Call S ε (List α)} {size : Nat} {s : σ}
    (hf : ∀ page, Prog.Always answer (fun r s' => s' = s ∧ ∀ b, r = .ok b → b = pageOf size page l)
      (fetch page : Prog S (Except ε (List α))) s)
    (n page : Nat) (hp : 0 < page) (out : List α) :
    Prog.Always answer
      (fun r s' => s' = s ∧ ∀ a, r = .ok a → a = out ++ (l.drop ((page - 1) * size)).take (n * size))
      (collect fetch size n page out : Prog S (Except ε (List α))) s := by
  induction n generalizing page out
  case zero      => exact ⟨rfl, fun _ h => by cases h; simp⟩
  case succ n hi =>
    rw [collect, Call.always_seq]
    refine (hf page).mono fun r s' h => ?_
    obtain ⟨rfl, hb⟩ := h
    cases r
    case error => exact ⟨rfl, fun _ h => by cases h⟩
    case ok b  =>
      cases hb b rfl
      simp only [Call.next]
      split
      case isTrue hl  => exact ⟨rfl, fun _ h => by cases h; rw [pageOf_short hl]⟩
      case isFalse    =>
        refine (hi (page + 1) (Nat.succ_pos _) _).mono fun r s' h => ⟨h.left, fun a ha => ?_⟩
        rw [h.right a ha, List.append_assoc, Nat.add_sub_cancel, pageOf_succ hp]

end Paging

namespace Prog

variable {S : Signature} {D σ α : Type} {answer : (op : S.Op) → D → σ → S.Res op × σ} {Q : α → σ → Prop} {s : σ}

theorem always_of_forall (p : Prog S α) (h : ∀ a s, Q a s) : p.Always answer Q s := by
  induction p generalizing s
  case ret     => exact h _ _
  case call hi => exact fun d => hi _

end Prog
end Effects

-- Calls that leave the world as it is and find something in it, where requests may also fail for reasons of their
-- own.
namespace Effects

section Among

variable {S : Signature} {D σ α : Type} {P : D → Prop} {answer : (op : S.Op) → D → σ → S.Res op × σ}
variable {Q : α → σ → Prop} {s : σ}

-- Only some of the draws.
def among (P : D → Prop) (answer : (op : S.Op) → D → σ → S.Res op × σ) (op : S.Op) (d : {d // P d}) : σ → S.Res op × σ :=
  answer op d.val

theorem play_among (p : Prog S α) (d : Nat → {d // P d}) (s : σ) :
    p.play (among P answer) d s = p.play answer (fun n => (d n).val) s := by
  induction p generalizing d s
  case ret     => rfl
  case call hi => exact hi _ _ _

theorem Prog.Always.play_among {p : Prog S α} (h : p.Always (among P answer) Q s) {d : Nat → D} (hd : ∀ n, P (d n)) :
    Q (p.play answer d s).1 (p.play answer d s).2 := by
  have := h.play fun n => ⟨d n, hd n⟩
  rwa [Effects.play_among] at this

end Among

section Reads

variable {S : Signature} {D σ α β ε : Type} {answer : (op : S.Op) → D → σ → S.Res op × σ}
variable {Fails : Prop} {t : Except ε α} {p : Call S ε α} {s : σ}

-- The result is `t`, or a failure where there may be one.
def Gives (Fails : Prop) (t r : Except ε α) : Prop :=
  r = t ∨ Fails ∧ ∃ e, r = .error e

def Reads (answer : (op : S.Op) → D → σ → S.Res op × σ) (Fails : Prop) (t : Except ε α) (p : Call S ε α) (s : σ) : Prop :=
  Prog.Always answer (fun r s' => s' = s ∧ Gives Fails t r) p s

theorem Gives.ok {r : Except ε α} {a : α} (h : Gives Fails t r) (hr : r = .ok a) : t = .ok a := by
  rcases h with rfl | ⟨_, e, rfl⟩
  · exact hr
  · cases hr

theorem Gives.error {r : Except ε α} {e : ε} (h : Gives Fails t r) (hr : r = .error e) : t = .error e ∨ Fails := by
  rcases h with rfl | ⟨hf, _⟩
  · exact .inl hr
  · exact .inr hf

theorem Gives.mapError {ε' : Type} {r : Except ε α} (h : Gives Fails t r) (f : ε → ε') :
    Gives Fails (t.mapError f) (r.mapError f) := by
  rcases h with rfl | ⟨hf, e, rfl⟩
  · exact .inl rfl
  · exact .inr ⟨hf, f e, rfl⟩

theorem Reads.pure (a : α) : Reads answer Fails (.ok a) (pure a : Call S ε α) s :=
  ⟨rfl, .inl rfl⟩

theorem Reads.of_except (t : Except ε α) : Reads answer Fails t (ExceptT.mk (Pure.pure t) : Call S ε α) s :=
  ⟨rfl, .inl rfl⟩

theorem Reads.bind {f : α → Call S ε β} {Q : Except ε β → σ → Prop} (h : Reads answer Fails t p s)
    (ho : ∀ a, t = .ok a → Prog.Always answer Q (f a : Prog S (Except ε β)) s)
    (he : ∀ e, t = .error e ∨ Fails → Q (.error e) s) : Prog.Always answer Q (p >>= f : Call S ε β) s := by
  rw [Call.always_seq]
  refine h.mono fun r s' hr => ?_
  obtain ⟨rfl, hr⟩ := hr
  cases r
  case ok a    => exact ho a (hr.ok rfl)
  case error e => exact he e (hr.error rfl)

theorem Reads.seq {f : α → Call S ε β} {u : α → Except ε β} (h : Reads answer Fails t p s)
    (ho : ∀ a, t = .ok a → Reads answer Fails (u a) (f a) s) : Reads answer Fails (t >>= u) (p >>= f) s := by
  refine h.bind (fun a ha => ?_) fun e he => ?_
  · rw [ha]
    exact ho a ha
  · refine ⟨rfl, ?_⟩
    rcases he with rfl | hf
    · exact .inl rfl
    · exact .inr ⟨hf, e, rfl⟩

end Reads
end Effects

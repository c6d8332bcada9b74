import Knaic.Hub.Provenance

open Go Effects

namespace Hub

open Auth

-- A request that `a` opened has been deleted by `b`.
def Withdrew (a b : User) (w : World) : Prop :=
  ∃ id r, w.opened.lookup id = some (some a, r) ∧ (id, some b) ∈ w.withdrawn

variable {authorizer : Bool} {parse : Str → Except Error (Str × Str)} {a b : User}

-- Only users of one name delete each other's requests.
theorem Inv.name_eq {w : World} (h : Inv w) (hb : ¬b.isPlatformAdmin) (hw : Withdrew a b w) :
    a.name = b.name := by
  have ⟨id, r, ho, hd⟩ := hw
  have ⟨u, hu, hn⟩ := h.withdrawn _ hd
  cases hu
  have ⟨u', r', ho', hn'⟩ := hn.resolve_left hb
  cases ho.symm.trans ho'
  exact hn'

section Namesake

abbrev State :=
  Config (ops.extend edits) World Kind (Except Error Unit)

variable {c : State} {d : Draw} {id : Str} {r : Publish.Request}

-- A call by itself that withdraws the request `id`.
def withdrawal (b : User) (id : Str) (n : Nat) (d : Draw) : List (Pick Draw Kind) :=
  [.start (.publish (.delete b id)), .act n d, .act n d]

theorem withdrawal_code (hn : r.requestedBy = b.name) (hs : r.status = .pending) :
    ∃ k, (pool authorizer parse).code (.publish (.delete b id)) =
      @Prog.call (ops.extend edits) _ (.inl (.requestGet id)) k ∧
      k (.ok r) = @Prog.call (ops.extend edits) _ (.inl (.requestDelete id)) .ret := by
  have hd : (if !b.isPlatformAdmin && (r.requestedBy ≠ b.name || r.status ≠ .pending) then
      throw Publish.errForbidden else requestDelete id) = requestDelete id :=
    if_neg (by simp [hn, hs])
  exact ⟨_, rfl, congrArg Prog.lift hd⟩

theorem withdrawal_run {r' : Publish.Request} (hd : d.failure = none)
    (hl : c.world.requests.lookup id = some r) (hn : r.requestedBy = b.name)
    (hs : r.status = .pending) (ho : c.world.opened.lookup id = some (some a, r')) :
    (pool authorizer parse).Allows FreshIDs (withdrawal b id c.calls.length d) c ∧
    Withdrew a b ((pool authorizer parse).run c (withdrawal b id c.calls.length d)).world := by
  have ⟨k, hc, hk⟩ := @withdrawal_code authorizer parse b id r hn hs
  have hg : (pool authorizer parse).answer (.publish (.delete b id)) (.inl (.requestGet id)) d
      c.world = (.ok r, c.world) := by
    simp [pool, answer, unlessFailed, hd, Publish.MemoryStore.get, hl, World.record]
  have hx : (pool authorizer parse).answer (.publish (.delete b id)) (.inl (.requestDelete id)) d
      c.world = (.ok (), { c.world.setRequests (c.world.requests.erase id) with
        withdrawn := (id, some b) :: c.world.withdrawn }) := by
    simp [pool, answer, unlessFailed, withRequests, hd, Publish.MemoryStore.delete, hl,
      World.record, World.setRequests, Kind.user]
  have h₁ : (pool authorizer parse).next c (.start (.publish (.delete b id))) =
      ⟨c.world, c.calls ++ [(.publish (.delete b id), .call (.inl (.requestGet id)) k)]⟩ := by
    simp only [Pool.next, hc]
  have h₂ : (pool authorizer parse).next ⟨c.world, c.calls ++
      [(.publish (.delete b id), .call (.inl (.requestGet id)) k)]⟩ (.act c.calls.length d) =
      ⟨c.world, c.calls ++ [(.publish (.delete b id), .call (.inl (.requestDelete id)) .ret)]⟩ := by
    refine Pool.next_last.trans ?_
    rw [hg, hk]
    rfl
  have h₃ : (pool authorizer parse).next ⟨c.world, c.calls ++
      [(.publish (.delete b id), .call (.inl (.requestDelete id)) .ret)]⟩ (.act c.calls.length d) =
      ⟨{ c.world.setRequests (c.world.requests.erase id) with
        withdrawn := (id, some b) :: c.world.withdrawn },
        c.calls ++ [(.publish (.delete b id), .ret (.ok ()))]⟩ := by
    refine Pool.next_last.trans ?_
    rw [hx]
    rfl
  refine ⟨⟨trivial, ?_, ?_, trivial⟩, ?_⟩
  case refine_1 =>
    intro i op k' hn
    rw [h₁] at hn
    simp only [List.getElem?_concat_length, Option.some.injEq, Prod.mk.injEq, Prog.call.injEq] at hn
    obtain ⟨_, rfl, _⟩ := hn
    trivial
  case refine_2 =>
    intro i op k' hn
    rw [h₁, h₂] at hn
    simp only [List.getElem?_concat_length, Option.some.injEq, Prod.mk.injEq] at hn
    cases hn.right
    trivial
  case refine_3 =>
    simp only [withdrawal, Pool.run_cons, Pool.run_nil, h₁, h₂, h₃]
    exact ⟨id, r', ho, .head _⟩

end Namesake

-- A private model is registered, and `a` asks for it.
def asking (a : User) : List (Pick Draw Kind) :=
  .start (.create root qwen) :: List.replicate 3 (.act 0 (draw 1)) ++
  .start (.publish (.create a ⟨str "m-00000001", str "qwen", [], []⟩)) ::
    List.replicate 5 (.act 1 (draw 2))

theorem asked (ha : ¬a.isPlatformAdmin) :
    ∃ ps, (pool true noURL).Allows FreshIDs ps start ∧
    ∃ id r r', ((pool true noURL).run start ps).world.requests.lookup id = some r ∧
      r.requestedBy = a.name ∧ r.status = .pending ∧
      ((pool true noURL).run start ps).world.opened.lookup id = some (some a, r') := by
  obtain ⟨s, e, n, g, _ | _⟩ := a
  case true => exact absurd rfl ha
  exact ⟨asking ⟨s, e, n, g, false⟩, of_decide_eq_true rfl, str "pub-00000002", _, _, rfl, rfl, rfl,
    rfl⟩

theorem namesake_withdraws (ha : ¬a.isPlatformAdmin) (hn : a.name = b.name) :
    ∃ ps, (pool true noURL).Allows FreshIDs ps start ∧
      Withdrew a b ((pool true noURL).run start ps).world := by
  have ⟨ps, hf, id, r, r', hl, hr, hs, ho⟩ := asked ha
  have ⟨hf', hw⟩ := @withdrawal_run true noURL a b _ (draw 3) id r r' rfl hl (hr.trans hn) hs ho
  exact ⟨_, Pool.throughout_append.mpr ⟨hf, hf'⟩, by rw [Pool.run_append]; exact hw⟩

-- For two users who are not administrators and have different subjects: the second one never
-- withdraws what the first one has opened exactly when their names are different.
theorem never_withdrawn_iff (a b : User) (ha : ¬a.isPlatformAdmin) (hb : ¬b.isPlatformAdmin)
    (_ : a.subject ≠ b.subject) :
    (∀ authorizer parse ps, (pool authorizer parse).Allows FreshIDs ps start →
      ¬Withdrew a b ((pool authorizer parse).run start ps).world) ↔ a.name ≠ b.name := by
  constructor
  case mpr =>
    intro hn authorizer parse ps h hw
    exact hn ((start_holds.run contract_keeps h).inv.name_eq hb hw)
  case mp =>
    intro h hn
    have ⟨ps, hf, hw⟩ := namesake_withdraws ha hn
    exact h true noURL ps hf hw

def ada : User where
  subject         := str "ada"
  email           := str "ada@example.com"
  name            := str "Ada"
  groups          := []
  isPlatformAdmin := false

-- Another user with the same display name.
def otherAda : User :=
  { ada with subject := str "ada2", email := str "ada@example.org" }

theorem never_withdrawn_iff_ada :
    (∀ authorizer parse ps, (pool authorizer parse).Allows FreshIDs ps start →
      ¬Withdrew ada otherAda ((pool authorizer parse).run start ps).world) ↔
    ada.name ≠ otherAda.name :=
  never_withdrawn_iff ada otherAda (by decide) (by decide) (by decide)

theorem namesake_withdrew : ¬∀ a b : User, ¬a.isPlatformAdmin → ¬b.isPlatformAdmin →
    a.subject ≠ b.subject → ∀ authorizer parse ps,
      (pool authorizer parse).Allows FreshIDs ps start →
      ¬Withdrew a b ((pool authorizer parse).run start ps).world := by
  intro h
  have ⟨ps, hf, hw⟩ := @namesake_withdraws ada otherAda (by decide) rfl
  exact h ada otherAda (by decide) (by decide) (by decide) true noURL ps hf hw

end Hub

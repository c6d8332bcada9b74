import Mathlib.Data.List.Infix
import Knaic.Auth.User
import Knaic.Effects.Pool
import Knaic.Go.Map
import Knaic.Kube.Objects

open Go Effects

namespace Auth

-- A ClusterRoleBinding, which has the same content as a RoleBinding.
abbrev ClusterRoleBinding :=
  Kube.RoleBindingBody

structure AdminSubjects where
  users           : Go.Map Bool
  groups          : Go.Map Bool
  serviceAccounts : Go.Map Bool

structure AdminResolver where
  roleNames  : List Str
  usernameFn : Option (User → Str)
  ttl        : Nat

def seconds (n : Nat) : Nat :=
  n * 1000000000

-- `typed` says whether there is a client.
def newAdminResolver (typed : Bool) (roleNames : List Str) (usernameFn : Option (User → Str)) :
    Option AdminResolver :=
  if !typed || roleNames.isEmpty then
    none
  else
    some ⟨roleNames.filter (· ≠ []), usernameFn, seconds 60⟩

namespace AdminResolver

def addSubject (b : AdminSubjects) (s : Kube.Subject) : AdminSubjects :=
  if s.kind = str "User" then { b with users := b.users.insert s.name true }
  else if s.kind = str "Group" then { b with groups := b.groups.insert s.name true }
  else if s.kind = str "ServiceAccount" then
    { b with serviceAccounts := b.serviceAccounts.insert (s.ns ++ str "/" ++ s.name) true }
  else b

def addBinding (r : AdminResolver) (b : AdminSubjects) (crb : ClusterRoleBinding) :
    AdminSubjects :=
  if crb.roleRef.kind ≠ str "ClusterRole" ∨ crb.roleRef.name ∉ r.roleNames then b
  else crb.subjects.foldl addSubject b

def subjects (r : AdminResolver) (list : List ClusterRoleBinding) : AdminSubjects :=
  list.foldl r.addBinding ⟨∅, ∅, ∅⟩

def grants (r : AdminResolver) (snap : AdminSubjects) (u : User) : Bool :=
  r.usernameFn.any (fun f => f u ≠ [] && (snap.users.lookup (f u)).getD false) ||
  u.groups.any fun g => (snap.groups.lookup g).getD false

-- The two sections under the lock, the second one with the snapshot that it leaves in the cache,
-- and the request to the API server between them.
inductive Op
  | fresh (ttl : Nat)
  | list
  | store (b : AdminSubjects)

abbrev ops : Signature where
  Op := Op
  Res
    | .fresh _ => Option AdminSubjects
    | .list    => Except Error (List ClusterRoleBinding)
    | .store _ => Unit

def perform (op : Op) : Prog ops (ops.Res op) :=
  @Prog.perform ops op

def snapshot (r : AdminResolver) : Call ops Error AdminSubjects := do
  match ← ExceptT.lift (perform (.fresh r.ttl)) with
  | some c => return c
  | none   =>
    let list ← (perform .list : Call ops Error (List ClusterRoleBinding))
    let b := r.subjects list
    ExceptT.lift (perform (.store b))
    return b

def isAdmin (r : Option AdminResolver) (u : Option User) : Prog ops Bool :=
  match r, u with
  | some r, some u => do
    match ← (r.snapshot : Prog ops (Except Error AdminSubjects)) with
    | .error _ => return false
    | .ok snap => return r.grants snap u
  | _, _ => return false

-- The time in nanoseconds, the bindings, and what the resolver keeps.
structure World where
  now      : Nat
  bindings : List ClusterRoleBinding
  cache    : Option (AdminSubjects × Nat)

-- How much time passes and which bindings there are after it, or whether a request fails.
structure Draw where
  elapsed  : Nat
  bindings : Option (List ClusterRoleBinding)
  failure  : Option Error

def answer (op : ops.Op) (d : Draw) (w : World) : ops.Res op × World :=
  match op with
  | .fresh ttl =>
    match w.cache with
    | some (c, cachedAt) => (if w.now - cachedAt < ttl then some c else none, w)
    | none               => (none, w)
  | .list      =>
    match d.failure with
    | some e => (.error e, w)
    | none   => (.ok w.bindings, w)
  | .store b   => ((), { w with cache := some (b, w.now) })

-- The pool of all checks of one resolver.
def pool (r : Option AdminResolver) : Pool ops Draw World (Option User) Bool where
  answer _   := answer
  env d w    := { w with now := w.now + d.elapsed, bindings := d.bindings.getD w.bindings }
  code       := isAdmin r

end AdminResolver
end Auth

namespace Auth.AdminResolver

variable {r : AdminResolver} {u : User} {w : World}

abbrev State :=
  Config ops World (Option User) Bool

-- The stages of a check, from its last one on.
def storing (r : AdminResolver) (u : User) (b : AdminSubjects) : Prog ops Bool :=
  .call (.store b) fun _ => .ret (r.grants b u)

def listed (r : AdminResolver) (u : User) :
    Except Error (List ClusterRoleBinding) → Prog ops Bool
  | .ok list => storing r u (r.subjects list)
  | .error _ => .ret false

def listing (r : AdminResolver) (u : User) : Prog ops Bool :=
  .call .list (listed r u)

def checked (r : AdminResolver) (u : User) : Option AdminSubjects → Prog ops Bool
  | some c => .ret (r.grants c u)
  | none   => listing r u

def checking (r : AdminResolver) (u : User) : Prog ops Bool :=
  .call (.fresh r.ttl) (checked r u)

theorem isAdmin_eq (r : AdminResolver) (u : User) : isAdmin r u = checking r u := by
  refine congrArg (Prog.call _) (funext fun c => ?_)
  cases c
  case some => rfl
  case none => exact congrArg (Prog.call _) (funext fun l => by cases l <;> rfl)

-- The call at position `n` is about to perform the operation.
def Performs (c : State) (n : Nat) (op : ops.Op) : Prop :=
  ∃ i k, c.calls[n]? = some (i, .call op k)

abbrev after (r : AdminResolver) (w : World) (ps : List (Pick Draw (Option User))) : State :=
  (pool r).run ⟨w, []⟩ ps

theorem after_append (ps : List (Pick Draw (Option User))) (p : Pick Draw (Option User)) :
    after r w (ps ++ [p]) = (pool r).next (after r w ps) p :=
  Pool.run_append

-- At some point of the run the API server is asked for the bindings by the call at position `n`, at
-- the time `t`, when they are `l`.
def Listed (r : AdminResolver) (w : World) (ps : List (Pick Draw (Option User))) (n : Nat)
    (l : List ClusterRoleBinding) (t : Nat) : Prop :=
  ∃ qs d rs, ps = qs ++ .act n d :: rs ∧ Performs (after r w qs) n .list ∧
  (after r w qs).world.bindings = l ∧ (after r w qs).world.now = t

-- At some point of the run, at the time `t'`, a call stores the subjects of the bindings `l` that
-- it was given at the time `t`.
def Refreshed (r : AdminResolver) (w : World) (ps : List (Pick Draw (Option User)))
    (l : List ClusterRoleBinding) (t t' : Nat) : Prop :=
  ∃ n qs d rs, ps = qs ++ .act n d :: rs ∧ Listed r w qs n l t ∧
  Performs (after r w qs) n (.store (r.subjects l)) ∧ (after r w qs).world.now = t'

section Runs

variable {ps : List (Pick Draw (Option User))} {p : Pick Draw (Option User)} {n : Nat}
  {l : List ClusterRoleBinding} {t t' : Nat}

theorem Listed.append (h : Listed r w ps n l t) (qs : List (Pick Draw (Option User))) :
    Listed r w (ps ++ qs) n l t := by
  have ⟨rs, d, ss, hs, h⟩ := h
  exact ⟨rs, d, ss ++ qs, by simp [hs], h⟩

theorem Refreshed.append (h : Refreshed r w ps l t t') (qs : List (Pick Draw (Option User))) :
    Refreshed r w (ps ++ qs) l t t' := by
  have ⟨n, rs, d, ss, hs, h⟩ := h
  exact ⟨n, rs, d, ss ++ qs, by simp [hs], h⟩

theorem answer_now (op : ops.Op) (d : Draw) (w : World) : (answer op d w).2.now = w.now := by
  cases op
  all_goals
    simp only [answer]
    try split
  all_goals rfl

theorem fresh_snd (ttl : Nat) (d : Draw) (w : World) : (answer (.fresh ttl) d w).2 = w := by
  simp only [answer]
  split <;> rfl

-- The cache is used for as long as the ttl.
theorem fresh_some {ttl : Nat} {d : Draw} (h : (answer (.fresh ttl) d w).1 = some b) :
    ∃ t', w.cache = some (b, t') ∧ w.now - t' < ttl := by
  simp only [answer] at h
  split at h
  case h_2 => cases h
  case h_1 c t' hc =>
    by_cases hl : w.now - t' < ttl
    case pos => exact ⟨t', by simpa [hl, hc] using h, hl⟩
    case neg => simp [hl] at h

theorem list_snd (d : Draw) (w : World) : (answer .list d w).2 = w := by
  simp only [answer]
  split <;> rfl

theorem list_ok {d : Draw} (h : (answer .list d w).1 = .ok l) : l = w.bindings := by
  simp only [answer] at h
  split at h
  case h_1 => cases h
  case h_2 => exact (Except.ok.inj h).symm

-- Time does not go back.
theorem next_now (c : State) (p : Pick Draw (Option User)) :
    c.world.now ≤ ((pool r).next c p).world.now := by
  cases p
  case start   => exact Nat.le_refl _
  case env d   => exact Nat.le_add_right ..
  case act n d =>
    cases (pool r).next_act_cases c n d
    case inr he => rw [he]
    case inl hn =>
      have ⟨i, op, k, hn⟩ := hn
      rw [Pool.next_act hn]
      exact (answer_now op d c.world).ge

theorem run_now (c : State) (ps : List (Pick Draw (Option User))) :
    c.world.now ≤ ((pool r).run c ps).world.now := by
  induction ps generalizing c
  case nil          => exact Nat.le_refl _
  case cons p ps hi => exact (next_now c p).trans (hi _)

theorem Listed.le (h : Listed r w ps n l t) : t ≤ (after r w ps).world.now := by
  have ⟨qs, d, rs, hs, _, _, ht⟩ := h
  rw [← ht, hs, after, after, Pool.run_append]
  exact run_now ..

theorem Refreshed.le (h : Refreshed r w ps l t t') : t ≤ t' ∧ t' ≤ (after r w ps).world.now := by
  have ⟨n, qs, d, rs, hs, hl, _, ht⟩ := h
  refine ⟨ht ▸ hl.le, ?_⟩
  rw [← ht, hs, after, after, Pool.run_append]
  exact run_now ..

-- How far a call has come: what it is about to store is what it was given.
inductive Stage (r : AdminResolver) (w : World) (ps : List (Pick Draw (Option User))) (n : Nat) :
    Option User → Prog ops Bool → Prop
  | ret (i : Option User) (b : Bool) : Stage r w ps n i (.ret b)
  | check (u : User)                 : Stage r w ps n (some u) (checking r u)
  | list (u : User)                  : Stage r w ps n (some u) (listing r u)
  | store (u : User) (l : List ClusterRoleBinding) (t : Nat) (h : Listed r w ps n l t) :
    Stage r w ps n (some u) (storing r u (r.subjects l))

theorem Stage.append {q : Prog ops Bool} (h : Stage r w ps n i q)
    (qs : List (Pick Draw (Option User))) : Stage r w (ps ++ qs) n i q := by
  cases h
  case ret       => exact .ret ..
  case check     => exact .check _
  case list      => exact .list _
  case store h   => exact .store _ _ _ (h.append qs)

theorem Stage.code (i : Option User) : Stage r w ps n i ((pool r).code i) := by
  cases i
  case none   => exact .ret none false
  case some u =>
    show Stage r w ps n (some u) (isAdmin r u)
    rw [isAdmin_eq]
    exact .check u

-- What the cache holds was stored by a refresh.
structure Inv (r : AdminResolver) (w : World) (ps : List (Pick Draw (Option User))) : Prop where
  cache : ∀ b t', (after r w ps).world.cache = some (b, t') →
          ∃ l t, Refreshed r w ps l t t' ∧ b = r.subjects l
  calls : ∀ n i q, (after r w ps).calls[n]? = some (i, q) → Stage r w ps n i q

-- A step of a call that leaves it at some stage, with what the cache holds after it.
theorem Inv.act {d : Draw} {op : ops.Op} {k : ops.Res op → Prog ops Bool} (h : Inv r w ps)
    (hn : (after r w ps).calls[n]? = some (i, .call op k))
    (hq : Stage r w (ps ++ [.act n d]) n i (k (answer op d (after r w ps).world).1))
    (hc : ∀ b t', (answer op d (after r w ps).world).2.cache = some (b, t') →
      ∃ l t, Refreshed r w (ps ++ [.act n d]) l t t' ∧ b = r.subjects l) :
    Inv r w (ps ++ [.act n d]) := by
  have he : after r w (ps ++ [.act n d]) = ⟨(answer op d (after r w ps).world).2,
      (after r w ps).calls.set n (i, k (answer op d (after r w ps).world).1)⟩ :=
    (after_append ps _).trans (Pool.next_act hn)
  refine ⟨by rw [he]; exact hc, fun m j q hm => ?_⟩
  rw [he, List.getElem?_set] at hm
  split at hm
  case isFalse => exact (h.calls m j q hm).append _
  case isTrue hnm =>
    subst hnm
    split at hm
    case isFalse => cases hm
    case isTrue  => cases hm; exact hq

theorem Inv.next (h : Inv r w ps) (p : Pick Draw (Option User)) : Inv r w (ps ++ [p]) := by
  have hs : ∀ b t', (after r w ps).world.cache = some (b, t') →
      ∃ l t, Refreshed r w (ps ++ [p]) l t t' ∧ b = r.subjects l := by
    intro b t' hb
    obtain ⟨l, t, hr, he⟩ := h.cache b t' hb
    exact ⟨l, t, hr.append _, he⟩
  cases p
  case env d =>
    refine ⟨fun b t' hb => hs b t' ?_, fun n i q hn => (h.calls n i q ?_).append _⟩
    all_goals rwa [after_append] at *
  case start i =>
    refine ⟨fun b t' hb => hs b t' ?_, fun n j q hn => ?_⟩
    case refine_1 => rwa [after_append] at hb
    case refine_2 =>
      rw [after_append] at hn
      simp only [Pool.next, List.getElem?_append] at hn
      split at hn
      case isTrue  => exact (h.calls n j q hn).append _
      case isFalse =>
        rw [List.getElem?_singleton] at hn
        split at hn
        case isTrue  => cases hn; exact .code i
        case isFalse => cases hn
  case act n d =>
    cases (pool r).next_act_cases (after r w ps) n d
    case inr he =>
      rw [← after_append] at he
      refine ⟨fun b t' hb => hs b t' (he ▸ hb), fun m i q hm => (h.calls m i q (he ▸ hm)).append _⟩
    case inl hn =>
      obtain ⟨i, op, k, hn⟩ := hn
      have hq := h.calls n i _ hn
      generalize hp : Prog.call op k = q at hq
      cases hq
      case ret => cases hp
      case check u =>
        cases hp
        refine h.act hn ?_ (by rwa [fresh_snd])
        cases (answer (.fresh r.ttl) d (after r w ps).world).1
        case some => exact .ret ..
        case none => exact .list u
      case list u =>
        cases hp
        refine h.act hn ?_ (by rwa [list_snd])
        cases hl : (answer .list d (after r w ps).world).1
        case error => exact .ret ..
        case ok l  => exact .store u l _ ⟨ps, d, [], rfl, ⟨_, _, hn⟩, (list_ok hl).symm, rfl⟩
      case store u l t hl =>
        cases hp
        refine h.act hn (.ret ..) fun b t' hb => ?_
        cases hb
        exact ⟨l, t, ⟨n, ps, d, [], rfl, hl, ⟨_, _, hn⟩, rfl⟩, rfl⟩

theorem Inv.run (hw : w.cache = none) (ps : List (Pick Draw (Option User))) : Inv r w ps := by
  induction ps using List.reverseRecOn
  case append_singleton hi => exact hi.next _
  case nil =>
    refine ⟨fun _ _ h => ?_, fun _ _ _ h => by cases h⟩
    cases hw.symm.trans h

end Runs

-- A user is told to be an administrator only if the bindings made the user one at some time `a`, and
-- a refresh that was given them at `a` stored them at a time `s` that is not longer ago than the ttl.
theorem granted_by_refresh (r : AdminResolver) (w : World) (hw : w.cache = none)
    (ps : List (Pick Draw (Option User))) (n : Nat) (u : User) (q : Prog ops Bool)
    (p : Pick Draw (Option User)) (hn : (after r w ps).calls[n]? = some (some u, q))
    (h : (pool r).Returns n true (after r w ps) p) :
    ∃ l a s, Refreshed r w (ps ++ [p]) l a s ∧ r.grants (r.subjects l) u ∧
      a ≤ s ∧ s ≤ (after r w ps).world.now ∧ (after r w ps).world.now ≤ s + r.ttl := by
  have hi : Inv r w ps := .run hw ps
  have ⟨d, i, op, k, hp, hc, hk⟩ := h
  subst hp
  have hu : i = some u := by
    cases hn.symm.trans hc
    rfl
  have hq := hi.calls n i _ hc
  generalize hg : Prog.call op k = q at hq
  cases hq
  case ret     => cases hg
  case list u' =>
    cases hg
    generalize ((pool r).answer _ Op.list d (after r w ps).world).1 = a at hk
    cases a <;> cases hk
  case check u' =>
    cases hg
    cases hu
    cases ha : (answer (.fresh r.ttl) d (after r w ps).world).1
    case none =>
      have hk : checked r u (answer (.fresh r.ttl) d (after r w ps).world).1 = _ := hk
      rw [ha] at hk
      cases hk
    case some b =>
      have hk : checked r u (answer (.fresh r.ttl) d (after r w ps).world).1 = _ := hk
      rw [ha] at hk
      have ⟨t', hb, ht⟩  := fresh_some ha
      have ⟨l, t, hr, he⟩ := hi.cache b t' hb
      have ⟨htt, htn⟩    := hr.le
      subst he
      exact ⟨l, t, t', hr.append _, Prog.ret.inj hk, htt, htn, by omega⟩
  case store u' l t hl =>
    cases hg
    cases hu
    have hr : Refreshed r w (ps ++ [.act n d]) l t (after r w ps).world.now :=
      ⟨n, ps, d, [], rfl, hl, ⟨_, _, hc⟩, rfl⟩
    exact ⟨l, t, _, hr, Prog.ret.inj hk, hl.le, Nat.le_refl _, Nat.le_add_right ..⟩

section Fixtures

def ada : User where
  subject         := str "ada"
  email           := str "ada@example.com"
  name            := str "Ada"
  groups          := []
  isPlatformAdmin := false

def byEmail : AdminResolver where
  roleNames  := [str "cluster-admin"]
  usernameFn := some (·.email)
  ttl        := seconds 60

def adaAdmin : ClusterRoleBinding where
  subjects := [⟨str "User", [], str "ada@example.com", []⟩]
  roleRef  := ⟨[], str "ClusterRole", str "cluster-admin"⟩

def beginning : World where
  now      := 0
  bindings := [adaAdmin]
  cache    := none

-- A check asks for the bindings. Then they are deleted, and a minute and a second go by.
def overtaken : List (Pick Draw (Option User)) :=
  let act := .act 0 ⟨0, none, none⟩
  [.start (some ada), act, act, .env ⟨0, some [], none⟩, .env ⟨seconds 61, none, none⟩]

end Fixtures

theorem overtaken_returns :
    (pool byEmail).Returns 0 true (after byEmail beginning overtaken) (.act 0 ⟨0, none, none⟩) :=
  ⟨_, some ada, _, _, rfl, rfl, rfl⟩

theorem granted_by_refresh_overtaken :
    ∃ l a s, Refreshed byEmail beginning (overtaken ++ [.act 0 ⟨0, none, none⟩]) l a s ∧
      byEmail.grants (byEmail.subjects l) ada ∧ a ≤ s ∧
      s ≤ (after byEmail beginning overtaken).world.now ∧
      (after byEmail beginning overtaken).world.now ≤ s + byEmail.ttl :=
  granted_by_refresh byEmail beginning rfl overtaken 0 ada _ (.act 0 ⟨0, none, none⟩) rfl
    overtaken_returns

-- The check tells that she is an administrator, which she has not been for longer than the ttl.
theorem granted_too_late :
    ¬∀ (r : AdminResolver) (w : World) (ps : List (Pick Draw (Option User))) (n : Nat) (u : User)
      (q : Prog ops Bool) (p : Pick Draw (Option User)), w.cache = none →
      (after r w ps).calls[n]? = some (some u, q) → (pool r).Returns n true (after r w ps) p →
      ∃ qs, qs <+: ps ∧ (after r w qs).world.now ≤ (after r w ps).world.now ∧
        (after r w ps).world.now ≤ (after r w qs).world.now + r.ttl ∧
        r.grants (r.subjects (after r w qs).world.bindings) u := by
  intro h
  have ⟨qs, hq, _, ht, hg⟩ := h byEmail beginning overtaken 0 ada _ (.act 0 ⟨0, none, none⟩) rfl rfl
    overtaken_returns
  have ha : ∀ qs ∈ overtaken.inits,
      ¬((after byEmail beginning overtaken).world.now ≤
          (after byEmail beginning qs).world.now + byEmail.ttl ∧
        byEmail.grants (byEmail.subjects (after byEmail beginning qs).world.bindings) ada) := by
    decide
  exact ha qs ((List.mem_inits _ _).mpr hq) ⟨ht, hg⟩

end Auth.AdminResolver

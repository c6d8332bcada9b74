import Knaic.Go.Url

open Go Go.Url

namespace Api

-- A part of a chi pattern between two slashes.
inductive Part
  | lit (s : Str)
  | param
deriving DecidableEq

-- A pattern of the routing tree, from its root. No pattern here ends in a parameter.
structure Route where
  parts : List Part
  wild  : Bool := false

-- What `chi.URLParam` reads: the parameters in their order, and `*`.
structure Match where
  params : List Str
  rest   : Str
deriving DecidableEq

-- The router looks at the raw path wherever there is one.
def routePath (u : URL) : Str :=
  if u.rawPath ≠ [] then u.rawPath else u.path

def Part.take : List Part → List Str → Option (List Str × List Str)
  | [], ws                => some ([], ws)
  | _ :: _, []            => none
  | .lit s :: ps, w :: ws => if w = s then take ps ws else none
  | .param :: ps, w :: ws => (take ps ws).map fun (vs, ws) => (w :: vs, ws)

def Match.of : Bool → List Str × List Str → Option Match
  | false, (vs, [])     => some ⟨vs, []⟩
  | true, (vs, w :: ws) => some ⟨vs, join (w :: ws)⟩
  | _, _                => none

def Route.find (r : Route) (path : Str) : Option Match :=
  match segments path with
  | [] :: ws => (Part.take r.parts ws).bind (Match.of r.wild)
  | _        => none

def Match.escape (m : Match) : Match :=
  ⟨m.params.map Url.escape, Url.escape m.rest⟩

-- A literal that looks the same when it is escaped.
def Part.Plain : Part → Prop
  | .lit s => escape s = s
  | .param => True

instance : DecidablePred Part.Plain
  | .lit _ => inferInstanceAs (Decidable (_ = _))
  | .param => inferInstanceAs (Decidable True)

def Route.Plain (r : Route) : Prop :=
  ∀ p ∈ r.parts, p.Plain

instance : DecidablePred Route.Plain :=
  fun r => inferInstanceAs (Decidable (∀ p ∈ r.parts, p.Plain))

theorem take_length {ps : List Part} {ws vs rest : List Str} (h : Part.take ps ws = some (vs, rest)) :
    ws.length = ps.length + rest.length := by
  fun_induction Part.take ps ws generalizing vs rest
  case case1 => simp_all
  case case2 => simp at h
  case case3 hi =>
    have hl := hi h
    simp_all
    omega
  case case4 => simp at h
  case case5 hi =>
    simp only [Option.map_eq_some_iff, Prod.exists, Prod.mk.injEq] at h
    have ⟨vs, rest, h, _, hr⟩ := h
    have hl := hi h
    simp_all
    omega

theorem take_mem {ps : List Part} {ws vs rest : List Str} (h : Part.take ps ws = some (vs, rest)) :
    ∀ w ∈ rest, w ∈ ws := by
  fun_induction Part.take ps ws generalizing vs rest
  case case1 => simp_all
  case case2 => simp at h
  case case3 hi =>
    intro w hw
    exact List.mem_cons_of_mem _ (hi h w hw)
  case case4 => simp at h
  case case5 hi =>
    simp only [Option.map_eq_some_iff, Prod.exists, Prod.mk.injEq] at h
    have ⟨vs, rest, h, _, hr⟩ := h
    intro w hw
    exact List.mem_cons_of_mem _ (hi h w (hr ▸ hw))

theorem take_escape {ps : List Part} (hp : ∀ p ∈ ps, p.Plain) (ws : List Str) :
    Part.take ps (ws.map escape) =
      (Part.take ps ws).map fun (vs, rest) => (vs.map escape, rest.map escape) := by
  fun_induction Part.take ps ws
  case case1 => simp [Part.take]
  case case2 => simp [Part.take]
  case case3 ps s ws hi =>
    simp only [List.mem_cons, forall_eq_or_imp] at hp
    have hs : escape s = s := hp.left
    simp [Part.take, hs, hi hp.right]
  case case4 s ps w ws hw =>
    simp only [List.mem_cons, forall_eq_or_imp] at hp
    have hs : escape s = s := hp.left
    have hn : escape w ≠ s := by
      intro h
      exact hw (escape_inj.mp (h.trans hs.symm))
    simp [Part.take, hn]
  case case5 ps w ws hi =>
    simp only [List.mem_cons, forall_eq_or_imp] at hp
    simp [Part.take, hi hp.right, Function.comp_def]

theorem find_spec {r : Route} {path : Str} {m : Match} (h : r.find path = some m) :
    ∃ ws rest, segments path = [] :: ws ∧ Part.take r.parts ws = some (m.params, rest) ∧
      m.rest = join rest ∧ (r.wild = true ↔ rest ≠ []) := by
  simp only [Route.find] at h
  split at h
  case h_1 ws hs =>
    simp only [Option.bind_eq_some_iff, Prod.exists] at h
    have ⟨vs, rest, ht, hm⟩ := h
    cases hw : r.wild <;> cases rest <;> simp [Match.of, hw] at hm
    all_goals
      cases hm
      exact ⟨_, _, hs, ht, rfl, by simp⟩
  case h_2 => simp at h

theorem find_escape {r : Route} (hp : r.Plain) (path : Str) :
    r.find (escape path) = (r.find path).map Match.escape := by
  have hf : ∀ w ∈ segments path, slash ∉ w := fun w hw => slash_not_mem_segments hw
  simp only [Route.find, segments_escape]
  cases hs : segments path
  case nil => rfl
  case cons w ws =>
    cases w
    case nil =>
      simp only [List.map_cons, escape_nil, take_escape hp]
      cases ht : Part.take r.parts ws
      case none => rfl
      case some m =>
        have ⟨vs, rest⟩ := m
        have hr : ∀ w ∈ rest, slash ∉ w := by
          intro w hw
          exact hf w (hs ▸ List.mem_cons_of_mem _ (take_mem ht w hw))
        have hj := join_escape hr
        cases r.wild <;> cases rest <;> simp_all [Match.of, Match.escape]
    case cons b w =>
      have hb := escape_eq_nil (s := b :: w)
      simp only [List.map_cons]
      split <;> simp_all

-- What is left for `*` is the path from the slash on that ends the parts.
theorem find_count {r : Route} {path : Str} {m : Match} (h : r.find path = some m)
    (hw : r.wild = true) : path.count slash = r.parts.length + 1 + m.rest.count slash := by
  have ⟨ws, rest, hs, ht, hr, hn⟩ := find_spec h
  have hf : ∀ w ∈ rest, slash ∉ w := by
    intro w hw
    exact slash_not_mem_segments (hs ▸ List.mem_cons_of_mem _ (take_mem ht w hw))
  have hp := segments_length path
  have hm := segments_length m.rest
  have hl := take_length ht
  rw [hr, segments_join hf (hn.mp hw)] at hm
  simp only [hs, List.length_cons] at hp
  simp only [hr]
  omega

end Api

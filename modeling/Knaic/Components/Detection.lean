import Knaic.Components.Exclusion

open Go Effects Pool

namespace Components

-- The installs that have been recorded since the scan began, the latest first.
def World.since (w : World) (s : Scan) : List Str :=
  w.recorded.take (w.recorded.length - s.taken)

namespace Detection

variable {d : Setup} {i j : Caller} {w w₁ w₂ w₃ : World} {x : Draw} {name : Str}

-- An `Install` has Helm install the component.
def Installing (w : World) (name : Str) : Prop :=
  ∃ i, (i, .install, name) ∈ w.running

-- A detection does not replace the mark of an `Install` that waits for Helm, and it does not report
-- as not installed what has been installed since its scan began.
def Respects (d : Setup) : Pool.Condition ops Draw World Caller
  | _, .storeUpdate name (.detected c s), _, w =>
    ∀ e ∈ w.entry name,
      let item := Mutation.apply d.systemNamespace e.item (.detected c s)
      (e.item.status = .installing → e.marked → Installing w name → item.status = .installing) ∧
      (item.status = .notInstalled → name ∉ w.since s)
  | _, _, _, _                                 => True

-- No `Install` has marked the entry or recorded its success since the detection read it, and no scan
-- begins between the end of an install, when the cache is emptied, and its record.
def Undisturbed : Pool.Condition ops Draw World Caller
  | _, .storeUpdate name (.detected c _), _, w => ∀ e ∈ w.entry name, e.installs = c.installs
  | _, .snapshotLock, _, w                     => w.scanning = none ∧ w.pending = []
  | _, .invalidateSnapshot, _, w               => w.scanning = none
  | _, _, _, _                                 => True

structure Inv (w : World) : Prop where
  marked   : ∀ n e, w.entry n = some e → e.marked → e.item.status = .installing
  pending  : w.pending ≠ [] → w.snap = none ∧ w.scanning = none
  cached   : ∀ s, w.snap = some s → s.taken = w.recorded.length
  scanning : ∀ i t, w.scanning = some (i, t) → t = w.recorded.length

-- How the entry of `name` has gone on while the installs `l` have been recorded.
structure Since (name : Str) (l : List Str) (e₁ e₂ : Entry) : Prop where
  installs : e₁.installs ≤ e₂.installs
  recorded : e₂.installs = e₁.installs → name ∉ l
  marked   : e₂.installs = e₁.installs → e₂.marked → e₁.marked

theorem Since.refl (name : Str) (e : Entry) : Since name [] e e :=
  ⟨le_rfl, fun _ => List.not_mem_nil, fun _ h => h⟩

theorem Since.trans {e₁ e₂ e₃ : Entry} (h₁ : Since name l₁ e₁ e₂) (h₂ : Since name l₂ e₂ e₃) :
    Since name (l₂ ++ l₁) e₁ e₃ := by
  have hle := h₁.installs
  have hle' := h₂.installs
  refine ⟨hle.trans hle', fun he hm => ?_, fun he hm => ?_⟩
  case refine_1 =>
    cases List.mem_append.mp hm
    case inl hm => exact h₂.recorded (by omega) hm
    case inr hm => exact h₁.recorded (by omega) hm
  case refine_2 => exact h₁.marked (by omega) (h₂.marked (by omega) hm)

-- Others leave alone the lock and the announcement of a call, and count their installs.
structure Rely (i : Caller) (w₁ w₂ : World) : Prop where
  pending  : i ∈ w₁.pending → i ∈ w₂.pending
  scanning : ∀ t, w₁.scanning = some (i, t) → w₂.scanning = some (i, t)
  entries  : ∀ n e₁, w₁.entry n = some e₁ →
             ∃ e₂ l, w₂.entry n = some e₂ ∧ w₂.recorded = l ++ w₁.recorded ∧ Since n l e₁ e₂

namespace Rely

theorem refl (i : Caller) (w : World) : Rely i w w where
  pending h      := h
  scanning _ h   := h
  entries n e he := ⟨e, [], he, rfl, .refl n e⟩

theorem trans (h₁ : Rely i w₁ w₂) (h₂ : Rely i w₂ w₃) : Rely i w₁ w₃ where
  pending h       := h₂.pending (h₁.pending h)
  scanning t h    := h₂.scanning t (h₁.scanning t h)
  entries n e₁ he := by
    have ⟨e₂, l₁, he₂, hl₁, hs₁⟩ := h₁.entries n e₁ he
    have ⟨e₃, l₂, he₃, hl₂, hs₂⟩ := h₂.entries n e₂ he₂
    exact ⟨e₃, l₂ ++ l₁, he₃, by simp [hl₂, hl₁], hs₁.trans hs₂⟩

theorem of_same (hi : w₂.items = w₁.items) (hr : w₂.recorded = w₁.recorded)
    (hp : i ∈ w₁.pending → i ∈ w₂.pending)
    (hs : ∀ t, w₁.scanning = some (i, t) → w₂.scanning = some (i, t)) : Rely i w₁ w₂ where
  pending        := hp
  scanning       := hs
  entries n e he := ⟨e, [], by simpa [World.entry, hi] using he, by simp [hr], .refl n e⟩

end Rely

-- Detections stay out of the way of installs.
def detection (d : Setup) : Pact (pool d) where
  inv             := Inv
  rely            := Rely
  idle _ _        := True
  keeps           := Respects d
  refl            := .refl
  trans           := .trans
  env_inv h       := h
  env_rely _      := .refl _ _
  idle_stable h _ := h

-- What is recorded has been announced, and while something is announced nothing is cached and nobody
-- scans.
theorem Inv.recorded (h : Inv w) (hm : ∀ ns, m = .installed ns → i ∈ w.pending) (name : Str)
    (e : Entry) :
    (w.update i name m e).recorded = w.recorded ∨ w.snap = none ∧ w.scanning = none := by
  cases m
  case installed ns => exact .inr (h.pending (List.ne_nil_of_mem (hm ns rfl)))
  all_goals exact .inl rfl

theorem Inv.update {e : Entry} (h : Inv w)
    (hm : ∀ ns, m = .installed ns → i ∈ w.pending) :
    Inv (w.update i name m (e.write d.systemNamespace i m x.now)) where
  marked n e' he hi := by
    rw [entry_update] at he
    split at he
    case isFalse => exact h.marked n e' he hi
    case isTrue  =>
      cases he
      cases m <;> simp_all [Entry.write, Mutation.apply]
  pending hp := by
    apply h.pending
    cases m
    case installed ns => exact List.ne_nil_of_mem (hm ns rfl)
    all_goals exact hp
  cached s hs := by
    have hs' : w.snap = some s := hs
    cases h.recorded hm name (e.write d.systemNamespace i m x.now)
    case inl hr => rw [hr]; exact h.cached s hs'
    case inr hn => cases hn.left.symm.trans hs'
  scanning j t hs := by
    have hs' : w.scanning = some (j, t) := hs
    cases h.recorded hm name (e.write d.systemNamespace i m x.now)
    case inl hr => rw [hr]; exact h.scanning j t hs'
    case inr hn => cases hn.right.symm.trans hs'

-- The entry that is written counts what is recorded.
theorem since_write (systemNamespace : Str) (i : Caller) (m : Mutation) (t : Time) (e : Entry)
    (w : World) (name : Str) :
    ∃ l, (w.update i name m (e.write systemNamespace i m t)).recorded = l ++ w.recorded ∧
      (∀ n, n ≠ name → n ∉ l) ∧ Since name l e (e.write systemNamespace i m t) := by
  cases m
  case installed ns => exact ⟨[name], rfl, by simp, ⟨by simp [Entry.write], by simp [Entry.write], by simp [Entry.write]⟩⟩
  case installing =>
    refine ⟨[], rfl, by simp, ?_, by simp, ?_⟩
    · simp only [Entry.write]
      split <;> omega
    · cases hi : i.installs <;> simp [Entry.write, hi]
  all_goals exact ⟨[], rfl, by simp, by simp [Entry.write], by simp, by simp [Entry.write]⟩

theorem rely_update {e : Entry} (he : w.entry name = some e) (hj : j ≠ i) :
    Rely j w (w.update i name m (e.write d.systemNamespace i m x.now)) where
  pending hp := by
    cases m
    case installed ns => exact (List.mem_erase_of_ne hj).mpr hp
    all_goals exact hp
  scanning t hs := hs
  entries n e₁ hn := by
    have ⟨l, hl, ho, hs⟩ := since_write d.systemNamespace i m x.now e w name
    by_cases hne : n = name
    case pos =>
      subst hne
      cases he.symm.trans hn
      exact ⟨_, l, by simp [entry_update], hl, hs⟩
    case neg =>
      exact ⟨e₁, l, by simp [entry_update, hne, hn], hl, le_rfl, fun _ => ho n hne, fun _ h => h⟩

section Steps

theorem does_update (h : Inv w) (hm : ∀ ns, m = .installed ns → i ∈ w.pending)
    (hk : Respects d i (.storeUpdate name m) x w) :
    (detection d).Does i (.storeUpdate name m) x w := by
  cases he : w.entry name
  case none =>
    refine ⟨hk, ?_, fun j _ => ?_⟩
    all_goals rw [storeUpdate_none he]
    · exact h
    · exact .refl j w
  case some e =>
    refine ⟨hk, ?_, fun j hj => ?_⟩
    all_goals rw [storeUpdate_some he]
    · exact h.update hm
    · exact rely_update he hj

theorem does_of_same {op : Op} (hk : Respects d i op x w)
    (hw : Inv ((pool d).answer i op x w).2)
    (hi : ((pool d).answer i op x w).2.items = w.items)
    (hr : ((pool d).answer i op x w).2.recorded = w.recorded)
    (hp : ∀ j ∈ w.pending, j ∈ ((pool d).answer i op x w).2.pending)
    (hs : w.scanning ≠ none → ((pool d).answer i op x w).2.scanning = w.scanning) :
    (detection d).Does i op x w where
  keeps    := hk
  inv      := hw
  rely j _ := by
    refine .of_same hi hr (hp j) fun t ht => ?_
    exact (hs (by simp [ht])).trans ht

-- The operations that go their way without regard to any of this.
def Free : Op → Prop
  | .storeUpdate _ (.installed _) | .storeUpdate _ (.detected _ _) | .snapshotUnlock _ => False
  | _                                                                                  => True

theorem respects_free {op : Op} (ho : Free op) : Respects d i op x w := by
  cases op
  case storeUpdate name m =>
    cases m
    case detected => exact ho.elim
    all_goals trivial
  all_goals trivial

theorem does_free {op : Op} (ho : Free op) (h : Inv w) (hu : Undisturbed i op x w) :
    (detection d).Does i op x w := by
  have hk : Respects d i op x w := respects_free ho
  cases op
  case storeUpdate name m =>
    have hm : ∀ ns, m ≠ .installed ns := by
      rintro ns rfl
      exact ho
    exact does_update h (fun ns hn => absurd hn (hm ns)) hk
  case storeGet name =>
    have hw : ((pool d).answer i (.storeGet name) x w).2 = w := by
      cases he : w.entry name
      case none   => rw [storeGet_none he]
      case some e => rw [storeGet_some he]
    apply does_of_same hk <;> rw [hw] <;> simp [h]
  case snapshotLock =>
    have ⟨hn, hp⟩ : w.scanning = none ∧ w.pending = [] := hu
    cases snapshotLock_cases d i x w
    case inl ha =>
      have ⟨s, _, ha⟩ := ha
      apply does_of_same hk <;> simp [ha, h]
    case inr ha =>
      have hw : Inv { w with scanning := some (i, w.recorded.length) } := {
        marked         := h.marked
        pending hne    := absurd hp hne
        cached         := h.cached
        scanning j t s := by cases s; rfl
      }
      apply does_of_same hk <;> simp [ha, hw, hn]
  case invalidateSnapshot =>
    have hn : w.scanning = none := hu
    have hw : Inv ((pool d).answer i .invalidateSnapshot x w).2 := {
      marked         := h.marked
      pending _      := ⟨rfl, hn⟩
      cached _ s     := by cases s
      scanning j t s := by cases hn.symm.trans s
    }
    apply does_of_same hk hw
    all_goals simp only [pool, answer]
    · intro j hj
      split
      · exact .tail _ hj
      · exact hj
    · simp
  case snapshotUnlock => exact ho.elim
  all_goals
    apply does_of_same hk
    · exact ⟨h.marked, h.pending, h.cached, h.scanning⟩
    all_goals simp [pool, answer]

end Steps

-- The programs.
section Programs

abbrev Safely (d : Setup) (i : Caller) (p : Prog ops α) (w : World) : Prop :=
  (detection d).Safe Undisturbed i (fun _ _ => True) p w

theorem safe_free {op : Op} {k : ops.Res op → Prog ops α} (ho : Free op)
    (hk : ∀ r w', Inv w' → Safely d i (k r) w') : Safely d i (.call (S := ops) op k) w := by
  intro w₁ _ hv x hx
  have hd : (detection d).Does i op x w₁ := does_free ho hv hx
  exact ⟨hd, hk _ _ hd.inv⟩

theorem safe_only {p : Prog ops α} (hp : p.Only Free) : Safely d i p w := by
  induction p generalizing w
  case ret     => exact fun _ _ _ => trivial
  case call hi => exact safe_free hp.left fun r w' _ => hi r (hp.right r)

theorem storeGet_free (name : Str) : (storeGet name).Only Free :=
  ⟨trivial, fun _ => trivial⟩

theorem helm_free (a : Action) (c : Component) : (helm a c).Only Free :=
  ⟨trivial, fun _ => ⟨trivial, fun _ => trivial⟩⟩

theorem uninstall_free (name : Str) : (uninstall name).Only Free := by
  refine ⟨trivial, fun r => ?_⟩
  cases r
  case error => trivial
  case ok c  =>
    simp only [Prog.bind]
    split
    case isTrue => trivial
    split
    case isTrue => trivial
    refine ⟨trivial, fun _ => (helm_free .uninstall c.item).bind fun r => ?_⟩
    cases r
    case error err => exact ⟨trivial, fun _ => storeGet_free name⟩
    case ok        => exact ⟨trivial, fun _ => ⟨trivial, fun _ => trivial⟩⟩

theorem reconcile_free (name : Str) : (reconcile name).Only Free := by
  refine ⟨trivial, fun r => ?_⟩
  cases r
  case error => trivial
  case ok c  =>
    simp only [Prog.bind]
    split
    case isTrue => trivial
    split
    case isTrue => trivial
    refine (helm_free .upgrade c.item).bind fun r => ?_
    cases r
    case error err => exact ⟨trivial, fun _ => storeGet_free name⟩
    case ok        => exact ⟨trivial, fun _ => trivial⟩

-- The install is recorded while it is announced.
theorem safe_install (hi : i.request = .install name) : Safely d i (install name) w := by
  have hget : Free (.storeGet name) := trivial
  apply safe_free hget
  intro c w hv
  cases c
  case error => exact fun _ _ _ => trivial
  case ok c  =>
    simp only [Prog.bind]
    split
    case isTrue => exact fun _ _ _ => trivial
    split
    case isTrue => exact fun _ _ _ => trivial
    have hmark : Free (.storeUpdate name .installing) := trivial
    have hstart : Free (.helmStart .install c.item) := trivial
    have hend : Free (.helmEnd .install c.item) := trivial
    refine safe_free hmark fun _ w hv => safe_free hstart fun _ w hv => safe_free hend fun r w hv => ?_
    cases r
    case error err =>
      have hp : (storeUpdate name (.failed err) >>= fun _ => storeGet name).Only Free :=
        ⟨trivial, fun _ => storeGet_free name⟩
      exact safe_only hp
    case ok rel    =>
      intro w₁ _ hv₁ x hx
      have hinvalidate : Free .invalidateSnapshot := trivial
      have hd : (detection d).Does i .invalidateSnapshot x w₁ := does_free hinvalidate hv₁ hx
      refine ⟨hd, fun w₂ hr hv₂ y _ => ?_⟩
      have hp : i ∈ w₂.pending := hr.pending (by simp [pool, answer, Caller.installs, hi])
      exact ⟨does_update hv₂ (fun _ _ => hp) trivial, fun _ _ _ => trivial⟩

-- What has been read is still there or has been written since.
def Read (name : Str) (c : Entry) (w : World) : Prop :=
  ∃ e, w.entry name = some e ∧ Since name [] c e

-- What a detection knows of the entry that it has read and the scan that it has got after that.
def Based (name : Str) (c : Entry) (s : Scan) (w : World) : Prop :=
  s.taken ≤ w.recorded.length ∧ ∃ e, w.entry name = some e ∧ Since name (w.since s) c e

theorem Read.stable {c : Entry} (h : Read name c w₁) (hr : Rely i w₁ w₂) : Read name c w₂ := by
  have ⟨e₁, he₁, h₁⟩ := h
  have ⟨e₂, l, he₂, _, h₂⟩ := hr.entries name e₁ he₁
  have h₃ := h₁.trans h₂
  exact ⟨e₂, he₂, h₃.installs, fun _ => List.not_mem_nil, h₃.marked⟩

theorem Read.based {c : Entry} {s : Scan} (h : Read name c w) (hs : s.taken = w.recorded.length) :
    Based name c s w := by
  have ⟨e, he, h⟩ := h
  have hn : w.since s = [] := by simp [World.since, hs]
  exact ⟨hs.le, e, he, hn ▸ h⟩

theorem Based.stable {c : Entry} {s : Scan} (h : Based name c s w₁) (hr : Rely i w₁ w₂) :
    Based name c s w₂ := by
  have ⟨hs, e₁, he₁, h₁⟩ := h
  have ⟨e₂, l, he₂, hl, h₂⟩ := hr.entries name e₁ he₁
  have hsince : w₂.since s = l ++ w₁.since s := by
    have hlen : (l ++ w₁.recorded).length - s.taken =
        l.length + (w₁.recorded.length - s.taken) := by
      rw [List.length_append]
      omega
    simp only [World.since, hl, hlen]
    exact List.take_length_add_append _
  refine ⟨?_, e₂, he₂, hsince ▸ h₁.trans h₂⟩
  rw [hl, List.length_append]
  omega

-- A call that holds the lock of the detector.
def Scanning (i : Caller) (name : Str) (c : Entry) (w : World) : Prop :=
  (∃ t, w.scanning = some (i, t)) ∧ Read name c w

theorem Scanning.stable {c : Entry} (h : Scanning i name c w₁) (hr : Rely i w₁ w₂) :
    Scanning i name c w₂ :=
  have ⟨⟨t, ht⟩, hn⟩ := h
  ⟨⟨t, hr.scanning t ht⟩, hn.stable hr⟩

theorem safe_unlock {c : Entry} (h : Scanning i name c w) (snap : ClusterSnapshot) :
    (detection d).Safe Undisturbed i (Based name c)
      (.perform (S := ops) (.snapshotUnlock snap)) w := by
  intro w₁ hr hv x _
  have ⟨⟨t, ht⟩, hn⟩ := h.stable hr
  have htaken : t = w₁.recorded.length := hv.scanning i t ht
  have ha := snapshotUnlock_eq (d := d) (i := i) (x := x) ht snap
  refine ⟨⟨trivial, ?_, fun j hj => ?_⟩, ?_⟩
  all_goals rw [ha]
  case refine_1 =>
    exact {
      marked         := hv.marked
      pending hp     := by cases ht.symm.trans (hv.pending hp).right
      cached s hs    := by cases hs; exact htaken
      scanning j t s := by cases s
    }
  case refine_2 =>
    refine .of_same rfl rfl (fun hp => hp) fun t' hs => ?_
    cases ht.symm.trans hs
    exact absurd rfl hj
  case refine_3 =>
    intro w₂ hr₂ _
    have hb : Based name c ⟨snap, t⟩ { w₁ with
        snap        := some ⟨snap, t⟩
        snapExpires := x.now.add snapTTL
        scanning    := none } := Read.based hn htaken
    exact hb.stable hr₂

theorem safe_list {op : Op} {c : Entry} {k : ops.Res op → Prog ops Scan}
    (ho : op = .helmListAll ∨ op = .listCSVs) (h : Scanning i name c w)
    (hk : ∀ r w', Scanning i name c w' → (detection d).Safe Undisturbed i (Based name c) (k r) w') :
    (detection d).Safe Undisturbed i (Based name c) (.call (S := ops) op k) w := by
  intro w₁ hr hv x hx
  have hw : ((pool d).answer i op x w₁).2 = w₁ := by
    obtain rfl | rfl := ho <;> rfl
  have hf : Free op := by
    obtain rfl | rfl := ho <;> trivial
  have hs : Scanning i name c ((pool d).answer i op x w₁).2 := by
    rw [hw]
    exact h.stable hr
  exact ⟨does_free hf hv hx, hk _ _ hs⟩

theorem safe_scan {c : Entry} (h : Scanning i name c w) :
    (detection d).Safe Undisturbed i (Based name c) (scan d) w := by
  have hcsvs : ∀ releases : Except Error (List Release), ∀ w, Scanning i name c w →
      (detection d).Safe Undisturbed i (Based name c) (do
        let csvs : Except Error (List CsvHit) ←
          if d.dyn then Prog.perform (S := ops) .listCSVs else pure (.ok [])
        Prog.perform (S := ops)
          (.snapshotUnlock (.scan (releases.toOption.getD []) (csvs.toOption.getD [])))) w := by
    intro releases w h
    cases d.dyn
    case true  => exact safe_list (.inr rfl) h fun _ _ h => safe_unlock h _
    case false => exact safe_unlock h _
  simp only [scan]
  cases d.helm
  case true  => exact safe_list (.inl rfl) h fun r w h => hcsvs r w h
  case false => exact hcsvs _ w h

theorem safe_snapshot {c : Entry} (h : Read name c w) :
    (detection d).Safe Undisturbed i (Based name c) (snapshot d) w := by
  intro w₁ hr hv x hx
  have hlock : Free .snapshotLock := trivial
  refine ⟨does_free hlock hv hx, ?_⟩
  have h := h.stable hr
  cases snapshotLock_cases d i x w₁
  case inl ha =>
    have ⟨s, hs, ha⟩ := ha
    rw [ha]
    exact fun w₂ hr₂ _ => (h.based (hv.cached s hs)).stable hr₂
  case inr ha =>
    rw [ha]
    exact safe_scan ⟨⟨_, rfl⟩, h⟩

theorem safe_detect : Safely d i (detect d name) w := by
  intro w₁ hr hv x hx
  have hget : Free (.storeGet name) := trivial
  refine ⟨does_free hget hv hx, ?_⟩
  cases he : w₁.entry name
  case none   => rw [storeGet_none he]; exact fun _ _ _ => trivial
  case some c =>
    rw [storeGet_some he]
    have hs : (detection d).Safe Undisturbed i (Based name c) (snapshot d) w₁ :=
      safe_snapshot ⟨c, he, .refl name c⟩
    refine hs.bind hv fun s w₂ hv₂ hb => ?_
    split
    case isTrue       => exact fun _ _ _ => trivial
    case isFalse hn =>
      intro w₃ hr₃ hv₃ y hy
      refine ⟨does_update hv₃ (by simp) ?_, fun _ _ _ => trivial⟩
      intro e he₃
      have ⟨_, e', he', hb⟩ := hb.stable hr₃
      cases he₃.symm.trans he'
      have hsame : e.installs = c.installs := hy e he₃
      refine ⟨fun _ hm _ => ?_, fun _ => hb.recorded hsame⟩
      have hcm : c.marked := hb.marked hsame hm
      exact absurd (hv.marked name c he hcm) hn

theorem keeps (d : Setup) : (detection d).Keeps Undisturbed := by
  intro i w _ _
  cases hi : i.request
  case install name   => exact code_install hi ▸ safe_install hi
  case uninstall name => exact code_uninstall hi ▸ safe_only (uninstall_free name)
  case reconcile name => exact code_reconcile hi ▸ safe_only (reconcile_free name)
  case status name    => exact code_status hi ▸ safe_detect

end Programs

theorem start_holds (d : Setup) (catalog : Catalog) :
    (detection d).Holds Undisturbed ⟨World.start catalog, []⟩ where
  inv := {
    marked n e he hm := by cases (catalog.fresh n e he).symm.trans hm
    pending h        := absurd rfl h
    cached s hs      := by cases hs
    scanning i t hs  := by cases hs
  }
  safe _ h := by cases h
  apart    := .nil
  idle _ _ := trivial

theorem undisturbed_respects {d : Setup} {catalog : Catalog} {ps : List (Pick Draw Caller)}
    (h : (pool d).Throughout (fun c p => Fresh c p ∧ Meets Undisturbed c p)
      ps ⟨World.start catalog, []⟩) :
    (pool d).Throughout (Meets (Respects d)) ps ⟨World.start catalog, []⟩ := by
  have ⟨ht, _⟩ := (start_holds d catalog).throughout (keeps d) h
  refine ht.mono fun c p hc => ?_
  have hd := hc.left.does hc.right
  exact hd.mono fun _ _ _ _ hd => hd.keeps

section Runs

instance (w : World) (name : Str) : Decidable (Installing w name) :=
  decidable_of_iff (∃ r ∈ w.running, r.2 = (.install, name))
    ⟨fun ⟨⟨i, _⟩, hr, he⟩ => ⟨i, he ▸ hr⟩, fun ⟨_, hr⟩ => ⟨_, hr, rfl⟩⟩

instance (i : Caller) (op : ops.Op) (x : Draw) (w : World) : Decidable (Undisturbed i op x w) :=
  match op with
  | .storeUpdate _ (.detected _ _) => inferInstanceAs (Decidable (∀ _ ∈ _, _))
  | .snapshotLock                  => inferInstanceAs (Decidable (_ ∧ _))
  | .invalidateSnapshot            => inferInstanceAs (Decidable (_ = _))
  | .storeUpdate _ .installing | .storeUpdate _ (.failed _) | .storeUpdate _ (.installed _)
  | .storeUpdate _ .uninstalled | .storeUpdate _ .reconciled | .storeGet _ | .helmStart _ _
  | .helmEnd _ _ | .helmListAll | .listCSVs | .snapshotUnlock _ => isTrue trivial

instance (d : Setup) (i : Caller) (op : ops.Op) (x : Draw) (w : World) :
    Decidable (Respects d i op x w) :=
  match op with
  | .storeUpdate _ (.detected _ _) =>
    inferInstanceAs (Decidable (∀ _ ∈ _, (_ → _ → _ → _) ∧ (_ → ¬_)))
  | .storeUpdate _ .installing | .storeUpdate _ (.failed _) | .storeUpdate _ (.installed _)
  | .storeUpdate _ .uninstalled | .storeUpdate _ .reconciled | .storeGet _ | .helmStart _ _
  | .helmEnd _ _ | .snapshotLock | .invalidateSnapshot | .helmListAll | .listCSVs
  | .snapshotUnlock _ => isTrue trivial

def wired : Setup where
  systemNamespace := str "knaic-system"
  helm            := true
  dyn             := true

-- What is listed once Helm is done.
def afterwards : Draw :=
  { helmWorks with releases := .ok [release] }

-- The status is asked for before and after an install.
def watched : List (Pick Draw Caller) :=
  .start (caller .status 0) :: List.replicate 6 (.act 0 helmWorks) ++
  .start (caller .install 1) :: List.replicate 6 (.act 1 helmWorks) ++
  .start (caller .status 2) :: List.replicate 6 (.act 2 afterwards)

theorem undisturbed_respects_watched :
    (pool wired).Throughout (Meets (Respects wired)) watched ⟨World.start shelf, []⟩ :=
  undisturbed_respects (by decide)

-- A detection has read the entry before an install marks it and goes on while Helm is at work.
def overtaken : List (Pick Draw Caller) :=
  [.start (caller .status 0), .act 0 helmWorks] ++
  .start (caller .install 1) :: List.replicate 3 (.act 1 helmWorks) ++
  List.replicate 5 (.act 0 helmWorks)

theorem overtaken_disrespects :
    ¬∀ d catalog ps,
      (pool d).Throughout (fun c p => Fresh c p ∧ Meets Unlocked c p)
        ps ⟨World.start catalog, []⟩ →
      (pool d).Throughout (Meets (Respects d)) ps ⟨World.start catalog, []⟩ := by
  intro h
  have hr : (pool wired).Throughout (fun c p => Fresh c p ∧ Meets Unlocked c p)
      overtaken ⟨World.start shelf, []⟩ := by decide
  have hn : ¬(pool wired).Throughout (Meets (Respects wired))
      overtaken ⟨World.start shelf, []⟩ := by decide
  exact hn (h wired shelf overtaken hr)

end Runs

end Detection
end Components

import Knaic.Hub.Catalogue

open Go Effects

namespace Hub

open Auth Contract Models

-- The model that first had the identifier is private and may be published.
def Publishable (id : Str) (w : World) : Prop :=
  ∃ m, w.first.lookup id = some m ∧ m.scope = .scopePrivate ∧ Publish.isPublicURI m.uri

structure Reviewable (w : World) : Prop where
  models   : ∀ id m, w.models.lookup id = some m → m.id = id ∧ m.Sound ∧
             ∃ m₀, w.first.lookup id = some m₀ ∧ m₀.SameEntry m
  requests : ∀ id r, w.requests.lookup id = some r → Publishable r.privateModelID w

-- The first holder of an identifier stays its first holder.
def Remembers (w w' : World) : Prop :=
  ∀ id m, w.first.lookup id = some m → w'.first.lookup id = some m

theorem Publishable.stable {id : Str} {w w' : World} (h : Publishable id w) (hr : Remembers w w') :
    Publishable id w' :=
  have ⟨m, hm, hp⟩ := h
  ⟨m, hr id m hm, hp⟩

theorem Reviewable.step {w w' : World} (h : Reviewable w) (hr : Remembers w w')
    (hm : ∀ id m, w'.models.lookup id = some m → w.models.lookup id = some m ∨
      m.id = id ∧ m.Sound ∧ ∃ m₀, w'.first.lookup id = some m₀ ∧ m₀.SameEntry m)
    (hq : ∀ id r, w'.requests.lookup id = some r → w.requests.lookup id = some r ∨
      Publishable r.privateModelID w') : Reviewable w' where
  models id m hl := by
    cases hm id m hl
    case inr hm => exact hm
    case inl hl =>
      have ⟨hid, hs, m₀, hf, he⟩ := h.models id m hl
      exact ⟨hid, hs, m₀, hr _ _ hf, he⟩
  requests id r hl := by
    cases hq id r hl
    case inr hq => exact hq
    case inl hl => exact (h.requests id r hl).stable hr

def reviews (authorizer : Bool) (parse : Str → Except Error (Str × Str)) :
    Contract (pool authorizer parse) where
  inv           := Reviewable
  rely          := Remembers
  guar i op d w :=
    let w' := ((pool authorizer parse).answer i op d w).2
    Reviewable w' ∧ Remembers w w'
  refl _ _ _ h  := h
  trans h₁ h₂   := fun id m h => h₂ id m (h₁ id m h)
  guar_inv h _  := h.left
  guar_rely h _ := h.right
  env_inv h     := h
  env_rely _    := fun _ _ h => h

section Steps

variable {authorizer : Bool} {parse : Str → Except Error (Str × Str)} {i : Kind} {d : Draw} {w : World}

theorem same_keeps {op : (ops.extend edits).Op} (hi : Reviewable w)
    (h : ((pool authorizer parse).answer i op d w).2 = w) : (reviews authorizer parse).guar i op d w := by
  show Reviewable _ ∧ Remembers _ _
  rw [h]
  exact ⟨hi, fun _ _ h => h⟩

theorem requestCreate_keeps {r : Publish.Request} (hi : Reviewable w)
    (hp : Publishable r.privateModelID w) :
    (reviews authorizer parse).guar i (.inl (.requestCreate r)) d w := by
  cases requestCreate_answer authorizer parse i d w r
  case inl h => obtain ⟨e, h⟩ := h; exact same_keeps hi (congrArg Prod.snd h)
  case inr h =>
    show Reviewable _ ∧ Remembers _ _
    rw [h]
    refine ⟨hi.step (fun _ _ h => h) (fun _ _ => .inl) fun id r' hl => ?_, fun _ _ h => h⟩
    cases Map.lookup_insert_some hl
    case inr hl => exact .inl hl
    case inl he => obtain ⟨rfl, rfl⟩ := he; exact .inr hp

theorem requestUpdate_keeps {id : Str} {f : Publish.Request → Except Error Publish.Request} (hi : Reviewable w)
    (ho : ∀ r r₁, f r = .ok r₁ → r₁.privateModelID = r.privateModelID) :
    (reviews authorizer parse).guar i (.inl (.requestUpdate id f)) d w := by
  cases requestUpdate_answer authorizer parse i d w id f
  case inl h => obtain ⟨e, h⟩ := h; exact same_keeps hi (congrArg Prod.snd h)
  case inr h =>
    obtain ⟨r, r₁, hl, hm, h⟩ := h
    show Reviewable _ ∧ Remembers _ _
    rw [h]
    refine ⟨hi.step (fun _ _ h => h) (fun _ _ => .inl) fun id' r' hl' => ?_, fun _ _ h => h⟩
    cases Map.lookup_insert_some hl'
    case inr hl' => exact .inl hl'
    case inl he =>
      obtain ⟨rfl, rfl⟩ := he
      exact .inr (ho r r₁ hm ▸ hi.requests id' r hl)

theorem requestDelete_keeps (id : Str) (hi : Reviewable w) :
    (reviews authorizer parse).guar i (.inl (.requestDelete id)) d w := by
  cases requestDelete_answer authorizer parse i d w id
  case inl h => obtain ⟨e, h⟩ := h; exact same_keeps hi (congrArg Prod.snd h)
  case inr h =>
    show Reviewable _ ∧ Remembers _ _
    rw [h]
    exact ⟨hi.step (fun _ _ h => h) (fun _ _ => .inl)
      fun _ _ hl => .inl (Map.lookup_erase_some hl), fun _ _ h => h⟩

theorem modelCreate_keeps {m : Model} (hi : Reviewable w) (hf : FreshIDs i (.inl (.modelCreate m)) d w)
    (ho : m.Sound) : (reviews authorizer parse).guar i (.inl (.modelCreate m)) d w := by
  cases modelCreate_answer authorizer parse i d w m
  case inl h => obtain ⟨e, h⟩ := h; exact same_keeps hi (congrArg Prod.snd h)
  case inr h =>
    show Reviewable _ ∧ Remembers _ _
    rw [h]
    have hr : Remembers w { w.setModels (w.models.insert m.id (MemoryStore.stamp m d.now)) with
        first     := w.first.insert m.id (MemoryStore.stamp m d.now)
        published := i.approves.toList.map (fun id => (id, MemoryStore.stamp m d.now)) ++
          w.published } :=
      fun _ _ => Map.lookup_insert_fresh hf
    refine ⟨hi.step hr (fun id m' hl => ?_) fun _ _ => .inl, hr⟩
    cases Map.lookup_insert_some hl
    case inr hl => exact .inl hl
    case inl he =>
      obtain ⟨rfl, rfl⟩ := he
      exact .inr ⟨rfl, ho.same (MemoryStore.stamp_same m d.now), _, Finmap.lookup_insert _,
        rfl, rfl, rfl, rfl, rfl, rfl⟩

theorem modelUpdate_keeps {id : Str} {f : Model → Except Error Model} (hi : Reviewable w)
    (ho : ∀ m m₁, f m = .ok m₁ → m.SameEntry m₁) :
    (reviews authorizer parse).guar i (.inr (.modelUpdate id f)) d w := by
  cases modelUpdate_answer authorizer parse i d w id f
  case inl h => obtain ⟨e, h⟩ := h; exact same_keeps hi (congrArg Prod.snd h)
  case inr h =>
    obtain ⟨m, m₁, hl, hm, h⟩ := h
    show Reviewable _ ∧ Remembers _ _
    rw [h]
    have hs := ho m m₁ hm
    have ⟨hid, hsound, m₀, hm₀, hs₀⟩ := hi.models id m hl
    refine ⟨hi.step (fun _ _ h => h) (fun id' m' hl' => ?_) fun _ _ => .inl, fun _ _ h => h⟩
    cases Map.lookup_insert_some hl'
    case inr hl' => exact .inl hl'
    case inl he =>
      obtain ⟨rfl, rfl⟩ := he
      have hs' : m.SameEntry { m₁ with updatedAt := d.now } :=
        ⟨hs.id, hs.name, hs.scope, hs.ns, hs.uri, hs.scheme⟩
      exact .inr ⟨hs'.id.trans hid, hsound.same hs', m₀, hm₀, hs₀.trans hs'⟩

theorem modelDelete_keeps (id : Str) (hi : Reviewable w) :
    (reviews authorizer parse).guar i (.inr (.modelDelete id)) d w := by
  cases modelDelete_answer authorizer parse i d w id
  case inl h => obtain ⟨e, h⟩ := h; exact same_keeps hi (congrArg Prod.snd h)
  case inr h =>
    show Reviewable _ ∧ Remembers _ _
    rw [h]
    exact ⟨hi.step (fun _ _ h => h) (fun _ _ hl => .inl (Map.lookup_erase_some hl))
      fun _ _ => .inl, fun _ _ h => h⟩

-- No other operation gives a request another subject, or an identifier another first holder.
theorem registers_keeps {op : (ops.extend edits).Op} (ho : Registers Model.Sound (fun _ => False) op)
    (hf : FreshIDs i op d w) (hi : Reviewable w) : (reviews authorizer parse).guar i op d w := by
  cases op
  case inl op =>
    cases op
    case modelGet | requestGet | canWritePrivateModel | now => exact same_keeps hi (reads_answer trivial)
    case newID            => exact same_keeps hi rfl
    case requestCreate    => exact ho.elim
    case modelCreate      => exact modelCreate_keeps hi hf ho
    case requestUpdate    => exact requestUpdate_keeps hi ho
    case requestDelete id => exact requestDelete_keeps id hi
  case inr op =>
    cases op
    case modelUpdate    => exact modelUpdate_keeps hi ho
    case modelDelete id => exact modelDelete_keeps id hi

end Steps

section Calls

variable {authorizer : Bool} {parse : Str → Except Error (Str × Str)} {i : Kind} {w : World}
  {u : Option User}

-- The contract as it is to calls that do not edit models.
abbrev plainReviews (authorizer : Bool) (parse : Str → Except Error (Str × Str)) :=
  (reviews authorizer parse).restrict fun _ => (.ret (.ok ()) : Prog ops (Except Error Unit))

theorem registers_safe {p : Prog (ops.extend edits) α}
    (h : p.Only (Registers Model.Sound fun _ => False)) :
    (reviews authorizer parse).Safe FreshIDs i (fun _ _ => True) p w :=
  Safe.of_only h fun _ ho _ _ hi _ hf => registers_keeps ho hf hi

theorem plainly_safe {p : Call α} (h : Prog.Only (Plainly Model.Sound fun _ => False) p) :
    (plainReviews authorizer parse).Safe Fresh i (Ok fun _ _ => True) p w :=
  (Safe.of_only h fun _ ho _ _ hi _ hf => registers_keeps ho hf hi).mono
    fun _ _ _ => Ok.intro fun _ _ => trivial

-- A model that is read as private is one that was private from the beginning.
theorem privateModel_safe (id : Str) (hi : Reviewable w) :
    (plainReviews authorizer parse).Safe Fresh i
      (Ok fun snap w => Publish.isPublicURI snap.uri → Publishable snap.id w)
      (Models.getPrivateForPublish authorizer u id) w := by
  have hget : (plainReviews authorizer parse).Safe Fresh i
      (Ok fun m w => m.scope = .scopePrivate → Publish.isPublicURI m.uri → Publishable m.id w)
      (modelGet id) w := by
    refine Safe.perform (fun _ _ hi _ hf => registers_keeps trivial hf hi) ?_
    intro w₁ _ hi d _ w₂ hr _
    have hw : ((pool authorizer parse).answer i (.inl (.modelGet id)) d w₁).2 = w₁ :=
      reads_answer trivial
    refine Ok.intro fun m he hs hu => ?_
    obtain ⟨hid, _, m₀, hf, hsame⟩ := hi.models id m (modelGet_ok he)
    have hp : Publishable m.id w₁ :=
      ⟨m₀, hid ▸ hf, hsame.scope.symm.trans hs, hsame.uri ▸ hu⟩
    exact hp.stable (hw ▸ hr)
  refine Safe.seq hget hi fun m w₁ _ hi₁ hm => ?_
  refine Safe.guard fun hs => ?_
  have hs : m.scope = .scopePrivate := not_not.mp hs
  refine Safe.seq (plainly_safe ((Publish.gateWrite_reads ..).mono fun _ => plainly_of_reads)) hi₁
    fun _ w₂ hr₂ _ _ => ?_
  exact Safe.pure fun _ hr _ hu => ((hm hs hu).stable hr₂).stable hr

theorem openRequest_safe (req : Publish.CreateRequest) (hi : Reviewable w) :
    (plainReviews authorizer parse).Safe Fresh i (Ok fun _ _ => True)
      (Publish.create authorizer u req) w := by
  unfold Publish.create
  split
  case h_1 => exact Safe.throw
  case h_2 u =>
    refine Safe.guard fun _ => ?_
    refine Safe.guard fun _ => ?_
    refine Safe.seq (privateModel_safe _ hi) hi fun snap w₁ _ hi₁ hs => ?_
    refine Safe.guard fun hu => ?_
    have hs := hs (by simpa using hu)
    refine Safe.guard fun _ => ?_
    refine Safe.seq (plainly_safe ((Publish.canWriteNamespace_reads ..).mono
      fun _ => plainly_of_reads)) hi₁ fun ok w₂ hr₂ hi₂ _ => ?_
    refine Safe.guard fun _ => ?_
    refine Safe.seq (plainly_safe ⟨trivial, fun _ => trivial⟩) hi₂ fun id w₃ hr₃ _ _ => ?_
    have hs₃ := (hs.stable hr₂).stable hr₃
    exact Safe.perform (fun w₄ hr hi _ _ => requestCreate_keeps hi (hs₃.stable hr))
      fun _ _ _ _ _ _ _ _ => Ok.intro fun _ _ => trivial

theorem reviews_keep : (reviews authorizer parse).Keeps FreshIDs := by
  intro i w hi
  cases i
  case publish k =>
    cases k
    case create u req      => exact Safe.lift_prog ((openRequest_safe req hi).void hi)
    case delete u id       => exact registers_safe (Prog.Only.lift (Publish.delete_only id))
    all_goals refine registers_safe (Prog.Only.lift (Call.only_seq ?_ fun _ => trivial))
    case reject u id body  => exact Publish.reject_only id body
    case approve u id body => exact Publish.approve_only fun _ _ hs _ _ => ⟨hs, .inr rfl⟩
  case patch u id req => exact registers_safe (Call.only_seq (patch_only id req) fun _ => trivial)
  case delete u id    => exact registers_safe (Models.delete_only id)
  all_goals refine registers_safe (Prog.Only.lift (Call.only_seq ?_ fun _ => trivial))
  case create u req      => exact create_only fun _ _ hs _ _ _ => ⟨hs, namespaceFor_sound⟩
  case importModel u req => exact import_only fun _ _ _ _ hs _ _ _ => ⟨hs, namespaceFor_sound⟩
  case upload u req      => exact upload_only fun _ _ hs _ _ _ => ⟨hs, namespaceFor_sound⟩

theorem start_reviewable : (reviews authorizer parse).Holds FreshIDs start where
  inv := {
    models _ _ h   := by cases (Finmap.lookup_empty _).symm.trans h
    requests _ _ h := by cases (Finmap.lookup_empty _).symm.trans h
  }
  safe _ h := by cases h

end Calls

-- The catalogue has a model of this name.
def Taken (name : Str) (s : MemoryStore) : Prop :=
  ∃ id m, s.lookup id = some m ∧ m.scope = .scopePublic ∧ m.name = name

-- A public model clashes with the public models of its name only, none of which has a namespace.
theorem publicModel_clashes {w : World} (hi : Reviewable w) {req : PublishCopy} {scheme : Scheme}
    {now : Time} {id : Str} :
    w.models.clashes (publicModel req scheme now id) ↔ Taken req.name w.models := by
  rw [MemoryStore.clashes_iff]
  constructor
  case mp =>
    rintro ⟨k, e, hk, hs, _, hn⟩
    exact ⟨k, e, hk, hs, hn⟩
  case mpr =>
    rintro ⟨k, e, hk, hs, hn⟩
    have ⟨_, hsound, _⟩ := hi.models k e hk
    refine ⟨k, e, hk, hs, ?_, hn⟩
    cases hsound.ns
    case inl hp => cases hs.symm.trans hp
    case inr hp => exact hp

-- The answers of stores that do not fail.
abbrev Steady :=
  { d : Draw // d.failure = none }

def steadyAnswer (op : ops.Op) (d : Steady) (s : Stores) : ops.Res op × Stores :=
  answer op d.val s

theorem play_steady {p : Prog ops α} {d : Nat → Draw} {s : Stores} (hd : ∀ n, (d n).failure = none) :
    p.play answer d s = p.play steadyAnswer (fun n => ⟨d n, hd n⟩) s := by
  induction p generalizing d s
  case ret     => rfl
  case call hi => exact hi _ fun n => hd (n + 1)

section Approve

variable {authorizer : Bool} {s : Stores} {u : User}

theorem snapshot_always {id : Str} (hm : s.models.lookup id = some m) (hs : m.scope = .scopePrivate)
    (hu : u.isPlatformAdmin) :
    Prog.Always steadyAnswer
      (fun a s' => s' = s ∧ ∃ snap, a = .ok snap ∧ snap.uri = m.uri)
      (getPrivateForPublish authorizer u id) s := by
  rw [getPrivateForPublish, Call.always_seq]
  intro ⟨d, hd⟩
  simp only [steadyAnswer, answer, unlessFailed, hd, MemoryStore.get, hm, Prog.Always, Call.next, hs]
  rw [if_neg (by simp), Call.always_seq]
  simp only [gateWrite, hu]
  exact ⟨rfl, _, rfl, rfl⟩

@[simp]
theorem steadyAnswer_now (d : Steady) : steadyAnswer .now d s = (d.val.now, s) :=
  rfl

@[simp]
theorem steadyAnswer_newID (pre : Str) (d : Steady) :
    steadyAnswer (.newID pre) d s = (pre ++ str "-" ++ hex d.val.random.toList, s) :=
  rfl

theorem modelCreate_taken {m : Model} (d : Steady) (h : s.models.clashes m) :
    steadyAnswer (.modelCreate m) d s = (.error errConflict, s) := by
  simp [steadyAnswer, answer, unlessFailed, d.property, withModels, MemoryStore.create, h]

theorem modelCreate_clear {m : Model} (d : Steady) (h : ¬s.models.clashes m) :
    steadyAnswer (.modelCreate m) d s = (.ok (MemoryStore.stamp m d.val.now),
      { s with models := s.models.insert m.id (MemoryStore.stamp m d.val.now) }) := by
  simp [steadyAnswer, answer, unlessFailed, d.property, withModels, MemoryStore.create, h]

theorem createPublic_always {req : PublishCopy} {scheme : Scheme} {taken : Prop}
    (hu : u.isPlatformAdmin) (hs : parseScheme req.uri = .ok scheme) (hp : isPublicSource req.uri)
    (hc : ∀ now id, s.models.clashes (publicModel req scheme now id) ↔ taken) :
    Prog.Always steadyAnswer
      (fun a s' => (taken → a = .error errConflict ∧ s' = s) ∧
        (¬taken → (∃ id, a = .ok id) ∧ s'.requests = s.requests))
      (createPublicFromRequest u req) s := by
  simp only [createPublicFromRequest, Option.any_some, hu, hs, hp, Bool.not_true, Bool.false_eq_true,
    if_false]
  intro d₁ d₂ d₃
  have hc := hc d₁.val.now (str "m" ++ str "-" ++ hex d₂.val.random.toList)
  simp only [steadyAnswer_now, steadyAnswer_newID]
  by_cases ht : taken
  case pos =>
    rw [modelCreate_taken d₃ (hc.mpr ht)]
    exact ⟨fun _ => ⟨rfl, rfl⟩, fun h => absurd ht h⟩
  case neg =>
    rw [modelCreate_clear d₃ (mt hc.mp ht)]
    exact ⟨fun h => absurd h ht, fun _ => ⟨⟨_, rfl⟩, rfl⟩⟩

theorem approve_always {id : Str} {body : Publish.ReviewRequest} {taken : Prop}
    (hr : s.requests.lookup id = some r) (hp : r.status = .pending)
    (hm : s.models.lookup r.privateModelID = some m) (hs : m.scope = .scopePrivate)
    (hu : u.isPlatformAdmin) (hpub : isPublicSource m.uri) {scheme : Scheme}
    (hsch : parseScheme m.uri = .ok scheme)
    (hc : ∀ req scheme now id, req.name = r.targetName →
      (s.models.clashes (publicModel req scheme now id) ↔ taken)) :
    Prog.Always steadyAnswer
      (fun a s' => (¬taken → ∃ r', a = .ok r' ∧ r'.status = .approved) ∧
        (taken → (a, s') = (.error (.wrap "create public model" errConflict), s)))
      (Publish.approve authorizer u id body) s := by
  simp only [Publish.approve, hu, Bool.not_true, Bool.false_eq_true, if_false]
  rw [Call.always_seq]
  intro ⟨d, hd⟩
  simp only [steadyAnswer, answer, unlessFailed, hd, Publish.MemoryStore.get, hr, Prog.Always, Call.next]
  rw [if_neg (by simp [hp]), Call.always_seq, Call.always_mapError]
  refine (snapshot_always hm hs hu).mono fun a s' ha => ?_
  obtain ⟨rfl, snap, rfl, hsnap⟩ := ha
  rw [Except.mapError, Call.next, Call.always_seq, Call.always_mapError]
  have hcopy : (Publish.publishCopy r snap).uri = m.uri := hsnap
  refine (createPublic_always hu (hcopy ▸ hsch) (hcopy ▸ hpub) fun _ _ => hc _ _ _ _ rfl).mono
    fun a s' ha => ?_
  by_cases ht : taken
  case pos =>
    obtain ⟨rfl, rfl⟩ := ha.left ht
    exact ⟨fun h => absurd ht h, fun _ => rfl⟩
  case neg =>
    obtain ⟨⟨id', rfl⟩, hq⟩ := ha.right ht
    intro ⟨d, hd⟩
    refine ⟨fun _ => ?_, fun h => absurd h ht⟩
    exact ⟨_, requestUpdate_found hd (hq ▸ hr) rfl, rfl⟩

end Approve

theorem approve_pending (authorizer : Bool) (parse : Str → Except Error (Str × Str))
    (ps : List (Pick Draw Kind)) (h : (pool authorizer parse).Allows FreshIDs ps start)
    {id : Str} {r : Publish.Request} {m : Model} {u : User} {d : Nat → Draw} (body : Publish.ReviewRequest)
    (hr : ((pool authorizer parse).run start ps).world.requests.lookup id = some r)
    (hp : r.status = .pending)
    (hm : ((pool authorizer parse).run start ps).world.models.lookup r.privateModelID = some m)
    (hu : u.isPlatformAdmin) (hd : ∀ n, (d n).failure = none) :
    let w := ((pool authorizer parse).run start ps).world
    let a := Prog.play answer (Publish.approve authorizer u id body) d w.stores
    (¬Taken r.targetName w.models → ∃ r', a.1 = .ok r' ∧ r'.status = .approved) ∧
    (Taken r.targetName w.models → a = (.error (.wrap "create public model" errConflict), w.stores)) := by
  have hi := (start_reviewable.run reviews_keep h).inv
  generalize ((pool authorizer parse).run start ps).world = w at hr hm hi ⊢
  obtain ⟨hid, hsound, m₀, hf, hsame⟩ := hi.models _ m hm
  obtain ⟨m₀', hf', hs₀, hu₀⟩ := hi.requests id r hr
  cases hf.symm.trans hf'
  have hs : m.scope = .scopePrivate := hsame.scope.trans hs₀
  have hpub : isPublicSource m.uri := hsame.uri ▸ hu₀
  dsimp only
  rw [play_steady hd]
  refine (approve_always hr hp hm hs hu hpub hsound.scheme fun req _ _ _ hn => ?_).play _
  exact hn ▸ publicModel_clashes hi

section Fixtures

-- A second request for the name under which the first one was approved.
def rival : List (Pick Draw Kind) :=
  .start (.publish (.create root ⟨str "m-00000001", str "qwen", [], []⟩)) ::
    List.replicate 3 (.act 3 (draw 4))

def pending (id : Str) (s : Stores) : Bool :=
  (s.requests.lookup id).any fun r =>
    r.status = .pending ∧ (s.models.lookup r.privateModelID).isSome

theorem pending_iff {id : Str} {s : Stores} :
    pending id s ↔ ∃ r m, s.requests.lookup id = some r ∧ r.status = .pending ∧
      s.models.lookup r.privateModelID = some m := by
  simp [pending, Option.any_eq_true, Option.isSome_iff_exists]

end Fixtures

theorem approve_pending_qwen : ∃ r m,
    let w := ((pool false noURL).run start (approval.take 8)).world
    let a := Prog.play answer (Publish.approve false root (str "pub-00000002") ⟨[]⟩) (fun _ => draw 5)
      w.stores
    (w.requests.lookup (str "pub-00000002") = some r ∧ r.status = .pending ∧
      w.models.lookup r.privateModelID = some m) ∧
    (¬Taken r.targetName w.models → ∃ r', a.1 = .ok r' ∧ r'.status = .approved) ∧
    (Taken r.targetName w.models →
      a = (.error (.wrap "create public model" errConflict), w.stores)) := by
  obtain ⟨r, m, hr, hp, hm⟩ := pending_iff.mp (by decide : pending (str "pub-00000002")
    ((pool false noURL).run start (approval.take 8)).world.stores)
  exact ⟨r, m, ⟨hr, hp, hm⟩, approve_pending false noURL _ (by decide) ⟨[]⟩ hr hp hm rfl fun _ => rfl⟩

theorem rival_refused :
    (pool false noURL).Allows FreshIDs (approval ++ rival) start ∧
    pending (str "pub-00000004") ((pool false noURL).run start (approval ++ rival)).world.stores ∧
    ((Publish.approve false root (str "pub-00000004") ⟨[]⟩).play answer (fun _ => draw 5)
      ((pool false noURL).run start (approval ++ rival)).world.stores).1 =
      .error (.wrap "create public model" errConflict) := by
  decide

end Hub

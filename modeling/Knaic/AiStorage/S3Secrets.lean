import Knaic.AiStorage.Viewer

open Go Effects

namespace Kube

-- Why a request fails, if not for an object that is missing. Its effect may take place all the same.
structure Outage where
  err      : Error
  takes    : Bool
  notFound : errNotFound.is err = false

-- What befalls a request, beside what it finds.
structure Fate where
  now    : Time
  text   : Str
  outage : Option Outage

def befall (op : ops.Op) (f : Fate) (c : Cluster) : ops.Res op × Cluster :=
  let done := answer op ⟨f.now, f.text, none⟩ c
  match f.outage with
  | none   => done
  | some o => ((answer op ⟨f.now, f.text, some o.err⟩ c).1, if o.takes then done.2 else c)

theorem befall_frame {op : Op} {k : Kind} {f : Fate} {c : Cluster} (h : op.writes ≠ some k) :
    (befall op f c).2 k = c k := by
  unfold befall
  cases f.outage
  case none   => exact answer_frame h
  case some o =>
    simp only
    split
    case isTrue  => exact answer_frame h
    case isFalse => rfl

-- A program that writes no object of a kind leaves all objects of that kind as they are.
theorem play_frame {α : Type} {p : Prog ops α} {k : Kind} {f : Nat → Fate} {c : Cluster}
    (h : p.Only fun op : Op => op.writes ≠ some k) : (p.play befall f c).2 k = c k := by
  induction p generalizing f c
  case ret          => rfl
  case call op g hi => exact (hi _ (h.right _)).trans (befall_frame h.left)

end Kube

namespace AiStorage

open Kube

structure S3Secret where
  name           : Str
  ns             : Str
  kind           : Str
  endpoint       : Str
  region         : Str
  useHTTPS       : Bool
  bucket         : Str
  serviceAccount : Str
  createdAt      : Str

structure CreateS3SecretRequest where
  name            : Str
  kind            : Str
  endpoint        : Str
  region          : Str
  useHTTPS        : Bool
  bucket          : Str
  accessKeyID     : Str
  secretAccessKey : Str
  serviceAccount  : Str

def labelKind : Str :=
  str "knaic.io/aistorage-kind"

def annS3Endpoint : Str :=
  str "serving.kserve.io/s3-endpoint"

def annS3UseHTTPS : Str :=
  str "serving.kserve.io/s3-usehttps"

def annS3Region : Str :=
  str "serving.kserve.io/s3-region"

def annKnaicKind : Str :=
  str "knaic.io/aistorage-s3-kind"

def annKnaicBucket : Str :=
  str "knaic.io/aistorage-s3-bucket"

def annKnaicSA : Str :=
  str "knaic.io/aistorage-s3-sa"

def validateS3Create (req : CreateS3SecretRequest) : Except Error Unit :=
  if req.name = [] then
    .error (.new "name is required")
  else if req.accessKeyID = [] ∨ req.secretAccessKey = [] then
    .error (.new "accessKeyId and secretAccessKey are required")
  else if req.kind = str "aws" then
    .ok ()
  else if req.kind = str "compatible" then
    if req.endpoint = [] then .error (.new "endpoint is required for S3-compatible secrets") else .ok ()
  else
    .error (.new "kind must be \"aws\" or \"compatible\"")

def boolStr01 (b : Bool) : Str :=
  if b then str "1" else str "0"

def s3Annotations (req : CreateS3SecretRequest) : Go.Map Str :=
  let annotations := .ofList [
    (annS3Endpoint, req.endpoint),
    (annS3UseHTTPS, boolStr01 req.useHTTPS),
    (annKnaicKind, req.kind),
    (annKnaicBucket, req.bucket)
  ]
  let annotations :=
    if req.region = [] then annotations else annotations.insert annS3Region req.region
  if req.serviceAccount = [] then annotations else annotations.insert annKnaicSA req.serviceAccount

def s3Secret (ns : Str) (req : CreateS3SecretRequest) : Secret where
  metadata := {
    name              := req.name
    ns                := ns
    labels            := .ofList [
      (labelManaged, str "true"),
      (labelComponent, componentValue),
      (labelKind, str "s3")
    ]
    annotations       := s3Annotations req
    creationTimestamp := Time.zero
    resourceVersion   := 0
  }
  body     := {
    type := str "Opaque"
    data := .ofList [
      (str "AWS_ACCESS_KEY_ID", req.accessKeyID),
      (str "AWS_SECRET_ACCESS_KEY", req.secretAccessKey)
    ]
  }

def serviceAccountFor (ns saName secretName : Str) : ServiceAccount where
  metadata := {
    name              := saName
    ns                := ns
    labels            := .ofList [(labelManaged, str "true"), (labelComponent, componentValue)]
    annotations       := ∅
    creationTimestamp := Time.zero
    resourceVersion   := 0
  }
  body     := { secrets := [secretName] }

def withSecret (sa : ServiceAccount) (secretName : Str) : ServiceAccount :=
  { sa with body := { secrets := sa.body.secrets ++ [secretName] } }

-- How linking goes on from what it finds.
def linkFound (ns saName secretName : Str) : Except Error ServiceAccount → Call Unit
  | .error err =>
    if errNotFound.is err then
      (create .serviceAccount (serviceAccountFor ns saName secretName)).void
    else
      throw err
  | .ok sa     =>
    if secretName ∈ sa.body.secrets then
      return
    else
      (update .serviceAccount (withSecret sa secretName)).void

def ensureServiceAccountForSecret (ns saName secretName : Str) : Call Unit := do
  let found ← attempt (get .serviceAccount (ns, saName))
  linkFound ns saName secretName found

def linkS3Secret (ns : Str) (req : CreateS3SecretRequest) : Call Unit :=
  if req.serviceAccount = [] then
    pure ()
  else
    (ensureServiceAccountForSecret ns req.serviceAccount req.name).mapError
      (.wrap "create/patch ServiceAccount %q")

namespace Service

variable (s : Service) (ns : Str) (req : CreateS3SecretRequest)

def projectS3Secret (sec : Secret) : S3Secret :=
  let a key := (sec.metadata.annotations.lookup key).getD []
  {
    name           := sec.metadata.name
    ns             := sec.metadata.ns
    kind           := a annKnaicKind
    endpoint       := a annS3Endpoint
    region         := a annS3Region
    useHTTPS       := a annS3UseHTTPS = str "1" || (a annS3UseHTTPS).toLower = str "true"
    bucket         := a annKnaicBucket
    serviceAccount := a annKnaicSA
    createdAt      := s.rfc3339 sec.metadata.creationTimestamp
  }

def createS3Secret : Call S3Secret := do
  match validateS3Create req with
  | .error err => throw err
  | .ok _      =>
    let created ← create .secret (s3Secret ns req)
    linkS3Secret ns req
    return s.projectS3Secret created

end Service

-- The ServiceAccount lists the secret already.
def Linked (ns : Str) (req : CreateS3SecretRequest) (c : Cluster) : Prop :=
  ∃ sa, (c .serviceAccount).lookup (ns, req.serviceAccount) = some sa ∧ req.name ∈ sa.body.secrets

-- If the secret is created, no request after that fails. If creating it fails, it is not created.
def Undisturbed (ns : Str) (req : CreateS3SecretRequest) (f : Nat → Fate) (c : Cluster) : Prop :=
  validateS3Create req = .ok () → (c .secret).lookup (ns, req.name) = none →
  match (f 0).outage with
  | some o => o.takes = false
  | none   =>
    req.serviceAccount = [] ∨
    (f 1).outage = none ∧ (Linked ns req c ∨ (f 2).outage = none)

section Runs

variable {s : Service} {ns saName secretName : Str} {req : CreateS3SecretRequest} {c : Cluster}
variable {f : Nat → Fate}

theorem befall_calm {op : Op} {d : Fate} (h : d.outage = none) :
    befall op d c = answer op ⟨d.now, d.text, none⟩ c := by
  simp only [befall, h]

theorem befall_outage {op : Op} {d : Fate} {o : Outage} (h : d.outage = some o) :
    befall op d c = ((answer op ⟨d.now, d.text, some o.err⟩ c).1,
      if o.takes then (answer op ⟨d.now, d.text, none⟩ c).2 else c) := by
  simp only [befall, h]

theorem linkFound_only (found : Except Error ServiceAccount) :
    Prog.Only (fun op : Op => op.writes ≠ some .secret) (linkFound ns saName secretName found) := by
  unfold linkFound
  cases found
  case error err =>
    by_cases hn : errNotFound.is err
    case pos => simpa [hn] using Call.only_void (Prog.Only.perform (by simp [Op.writes]))
    case neg => simp [hn]; trivial
  case ok sa =>
    by_cases hm : secretName ∈ sa.body.secrets
    case pos => simp [hm]; trivial
    case neg => simpa [hm] using Call.only_void (Prog.Only.perform (by simp [Op.writes]))

theorem ensure_only :
    Prog.Only (fun op : Op => op.writes ≠ some .secret)
      (ensureServiceAccountForSecret ns saName secretName) := by
  unfold ensureServiceAccountForSecret
  rw [attempt, Call.lift_bind]
  exact Prog.Only.bind (Prog.Only.perform (by simp [Op.writes])) linkFound_only

theorem befall_get {k : Kind} {key : Key} {d : Fate} : (befall (.get k key) d c).2 = c := by
  have h : ∀ d, (answer (.get k key) d c).2 = c := by
    intro d
    cases hf : d.failure
    case some => simp only [answer, hf]
    case none => simp only [answer, hf]; split <;> rfl
  unfold befall
  split
  case h_1 => exact h _
  case h_2 => simp only [h, ite_self]

theorem ensure_play :
    Prog.play befall (ensureServiceAccountForSecret ns saName secretName) f c =
    Prog.play befall
      (linkFound ns saName secretName (befall (.get .serviceAccount (ns, saName)) (f 0) c).1)
      (fun n => f (n + 1)) c := by
  unfold ensureServiceAccountForSecret
  rw [attempt, Call.lift_bind]
  change Prog.play _ _ _ (befall (.get .serviceAccount (ns, saName)) (f 0) c).2 = _
  rw [befall_get]
  rfl

theorem create_ok_iff {k : Kind} {o : Object k} (hl : (c k).lookup o.key = none) :
    (∀ e, (Prog.play befall ((create k o).void : Call Unit) f c).1 ≠ .error e) ↔
    (f 0).outage = none := by
  rw [Call.play_void]
  change (∀ e, Except.map _ (befall (.create k o) (f 0) c).1 ≠ .error e) ↔ _
  cases ho : (f 0).outage
  case none   => simp [befall_calm ho, answer, hl, Except.map]
  case some x => simp [befall_outage ho, answer, Except.map]

theorem update_ok_iff {k : Kind} {o : Object k} (old : Object k) (hl : (c k).lookup o.key = some old)
    (hv : o.metadata.resourceVersion = old.metadata.resourceVersion) :
    (∀ e, (Prog.play befall ((update k o).void : Call Unit) f c).1 ≠ .error e) ↔
    (f 0).outage = none := by
  rw [Call.play_void]
  change (∀ e, Except.map _ (befall (.update k o) (f 0) c).1 ≠ .error e) ↔ _
  cases ho : (f 0).outage
  case none   => simp [befall_calm ho, answer, hl, hv, Except.map]
  case some x => simp [befall_outage ho, answer, Except.map]

-- Linking succeeds exactly if no request that it needs fails.
theorem ensure_ok_iff (hc : c.Filed) :
    (∀ e, (Prog.play befall (ensureServiceAccountForSecret ns saName secretName) f c).1 ≠ .error e) ↔
    (f 0).outage = none ∧
      ((∃ sa, (c .serviceAccount).lookup (ns, saName) = some sa ∧ secretName ∈ sa.body.secrets) ∨
        (f 1).outage = none) := by
  rw [ensure_play]
  cases ho : (f 0).outage
  case some o =>
    simp only [befall_outage ho, answer, linkFound, o.notFound, Bool.false_eq_true, if_false]
    simp [Prog.play, throw, throwThe, MonadExceptOf.throw, ExceptT.mk]
  case none =>
    cases hl : (c .serviceAccount).lookup (ns, saName)
    case none =>
      have hf : (befall (.get .serviceAccount (ns, saName)) (f 0) c).1 = .error errNotFound := by
        simp only [befall_calm ho, answer, hl]
      have he : errNotFound.is errNotFound := by decide
      rw [hf]
      simp only [linkFound, he, if_true]
      rw [create_ok_iff (o := serviceAccountFor ns saName secretName) hl]
      simp
    case some sa =>
      have hf : (befall (.get .serviceAccount (ns, saName)) (f 0) c).1 = .ok sa := by
        simp only [befall_calm ho, answer, hl]
      rw [hf]
      simp only [linkFound]
      split
      case isTrue hm  => simp [hm, Prog.play, pure, ExceptT.pure, ExceptT.mk]
      case isFalse hm =>
        rw [update_ok_iff (o := withSecret sa secretName) sa (hc.found hl) rfl]
        simp [hm]

section Created

variable (hv : validateS3Create req = .ok ())
include hv

theorem createS3Secret_refused {e : Error}
    (h : (befall (.create .secret (s3Secret ns req)) (f 0) c).1 = .error e) :
    Prog.play befall (s.createS3Secret ns req) f c =
    (.error e, (befall (.create .secret (s3Secret ns req)) (f 0) c).2) := by
  simp only [Service.createS3Secret, hv]
  rw [Call.bind_eq]
  change Prog.play befall (Call.next _ (befall (.create .secret (s3Secret ns req)) (f 0) c).1) _ _ = _
  rw [h]
  rfl

theorem createS3Secret_created {o : Secret}
    (h : (befall (.create .secret (s3Secret ns req)) (f 0) c).1 = .ok o) :
    Prog.play befall (s.createS3Secret ns req) f c =
    Prog.play befall (linkS3Secret ns req >>= fun _ => pure (s.projectS3Secret o) : Call S3Secret)
      (fun n => f (n + 1)) (befall (.create .secret (s3Secret ns req)) (f 0) c).2 := by
  simp only [Service.createS3Secret, hv]
  rw [Call.bind_eq]
  change Prog.play befall (Call.next _ (befall (.create .secret (s3Secret ns req)) (f 0) c).1) _ _ = _
  rw [h]
  rfl

end Created

theorem link_only :
    Prog.Only (fun op : Op => op.writes ≠ some .secret) (linkS3Secret ns req) := by
  unfold linkS3Secret
  split
  case isTrue  => trivial
  case isFalse => exact Call.only_mapError ensure_only

theorem link_ok_iff (hc : c.Filed) :
    (∀ e, (Prog.play befall (linkS3Secret ns req) f c).1 ≠ .error e) ↔
    req.serviceAccount = [] ∨ (f 0).outage = none ∧ (Linked ns req c ∨ (f 1).outage = none) := by
  unfold linkS3Secret
  by_cases hs : req.serviceAccount = []
  case pos => simp [hs, Prog.play, pure, ExceptT.pure, ExceptT.mk]
  case neg =>
    rw [if_neg hs, Call.play_mapError, Linked, ← ensure_ok_iff hc]
    cases (Prog.play befall (ensureServiceAccountForSecret ns req.serviceAccount req.name) f c).1 <;>
      simp [hs, Except.mapError]

-- The cluster with the secret.
def stored (ns : Str) (req : CreateS3SecretRequest) (now : Time) (c : Cluster) : Cluster :=
  c.put (ns, req.name) ((s3Secret ns req).stamp now 1)

theorem stored_lookup {now : Time} :
    (stored ns req now c .secret).lookup (ns, req.name) = some ((s3Secret ns req).stamp now 1) :=
  Cluster.lookup_put _ _ _

theorem stored_filed {now : Time} (hc : c.Filed) : (stored ns req now c).Filed :=
  hc.put rfl

theorem stored_ne {now : Time} {c' : Cluster} (hl : (c .secret).lookup (ns, req.name) = none)
    (h : c' .secret = stored ns req now c .secret) : c' ≠ c := by
  rintro rfl
  rw [h, stored_lookup] at hl
  cases hl

theorem stored_linked {now : Time} : Linked ns req (stored ns req now c) ↔ Linked ns req c := by
  have h : stored ns req now c .serviceAccount = c .serviceAccount := by
    simp only [stored, Cluster.put]
    exact Function.update_of_ne (by decide) _ _
  rw [Linked, Linked, h]

-- Once the secret is there, linking must not fail.
theorem linked_atomic_iff {now : Time} (o : Secret) (hc : c.Filed)
    (hl : (c .secret).lookup (ns, req.name) = none) :
    (∀ e, (Prog.play befall (linkS3Secret ns req >>= fun _ => pure (s.projectS3Secret o) : Call S3Secret)
        f (stored ns req now c)).1 = .error e →
      (Prog.play befall (linkS3Secret ns req >>= fun _ => pure (s.projectS3Secret o) : Call S3Secret)
        f (stored ns req now c)).2 = c) ↔
    req.serviceAccount = [] ∨ (f 0).outage = none ∧ (Linked ns req c ∨ (f 1).outage = none) := by
  have hne : (Prog.play befall (linkS3Secret ns req) f (stored ns req now c)).2 ≠ c :=
    stored_ne hl (play_frame link_only)
  have hs : Linked ns req (stored ns req now c) ↔ Linked ns req c := stored_linked
  rw [← hs, ← link_ok_iff (stored_filed hc), Call.play_seq_pure]
  cases (Prog.play befall (linkS3Secret ns req) f (stored ns req now c)).1 <;>
    simp [Except.map, hne]

-- With the secret there, the call fails, also one that repeats the call that left it.
theorem createS3Secret_again {o : Secret} (hl : (c .secret).lookup (ns, req.name) = some o) :
    ∃ e, Prog.play befall (s.createS3Secret ns req) f c = (.error e, c) := by
  cases hv : validateS3Create req
  case error e => exact ⟨e, by simp only [Service.createS3Secret, hv]; rfl⟩
  case ok u =>
    have hk : (c .secret).lookup (s3Secret ns req).key = some o := hl
    have ht : ∃ e, befall (.create .secret (s3Secret ns req)) (f 0) c = (.error e, c) := by
      cases ho : (f 0).outage
      case none   => exact ⟨errAlreadyExists, by simp only [befall_calm ho, answer, hk]⟩
      case some x => exact ⟨x.err, by simp only [befall_outage ho, answer, hk, ite_self]⟩
    obtain ⟨e, he⟩ := ht
    exact ⟨e, by rw [createS3Secret_refused hv (congrArg Prod.fst he), he]⟩

theorem create_fresh {d : Fate} (hl : (c .secret).lookup (ns, req.name) = none) (ho : d.outage = none) :
    befall (.create .secret (s3Secret ns req)) d c =
    (.ok ((s3Secret ns req).stamp d.now 1), stored ns req d.now c) := by
  have hk : (c .secret).lookup (s3Secret ns req).key = none := hl
  simp only [befall_calm ho, answer, hk]
  rfl

theorem create_lost {d : Fate} {o : Outage} (hl : (c .secret).lookup (ns, req.name) = none)
    (ho : d.outage = some o) :
    befall (.create .secret (s3Secret ns req)) d c =
    (.error o.err, if o.takes then stored ns req d.now c else c) := by
  have hk : (c .secret).lookup (s3Secret ns req).key = none := hl
  simp only [befall_outage ho, answer, hk]
  rfl

end Runs

variable (s : Service) (ns : Str) (req : CreateS3SecretRequest) (f : Nat → Fate)

theorem createS3Secret_atomic_iff {c : Cluster} (hc : c.Filed) :
    (∀ e, (Prog.play befall (s.createS3Secret ns req) f c).1 = .error e →
      (Prog.play befall (s.createS3Secret ns req) f c).2 = c) ↔
    Undisturbed ns req f c := by
  cases hv : validateS3Create req
  case error e =>
    have hp : Prog.play befall (s.createS3Secret ns req) f c = (.error e, c) := by
      simp only [Service.createS3Secret, hv]
      rfl
    simp [hp, Undisturbed, hv]
  case ok u =>
    cases hl : (c .secret).lookup (ns, req.name)
    case some o =>
      obtain ⟨e, he⟩ := createS3Secret_again (s := s) (f := f) hl
      simp [he, Undisturbed, hl]
    case none =>
      cases ho : (f 0).outage
      case some o =>
        have hr := create_lost (d := f 0) hl ho
        rw [createS3Secret_refused hv (congrArg Prod.fst hr), hr]
        cases ht : o.takes
        case false => simp [Undisturbed, ho, ht]
        case true  => simpa [Undisturbed, ho, ht, hv, hl] using stored_ne hl rfl
      case none =>
        have hr := create_fresh (d := f 0) hl ho
        rw [createS3Secret_created hv (congrArg Prod.fst hr), hr, linked_atomic_iff _ hc hl]
        simp [Undisturbed, hv, hl, ho]

def bucketKey : CreateS3SecretRequest where
  name            := str "models"
  kind            := str "aws"
  endpoint        := []
  region          := []
  useHTTPS        := true
  bucket          := str "models"
  accessKeyID     := str "key"
  secretAccessKey := str "secret"
  serviceAccount  := str "default"

def plain : Service where
  opts    := ⟨[]⟩
  rfc3339 := fun _ => []

-- One request fails without effect.
def failsAt (n m : Nat) : Fate where
  now    := Time.zero
  text   := []
  outage := if m = n then some ⟨.foreign (str "etcdserver: request timed out"), false, by decide⟩ else none

theorem createS3Secret_refusedAtOnce :
    Undisturbed (str "ml") bucketKey (failsAt 0) (fun _ => ∅) ∧
    ∀ e, (Prog.play befall (plain.createS3Secret (str "ml") bucketKey) (failsAt 0) fun _ => ∅).1 =
        .error e →
      (Prog.play befall (plain.createS3Secret (str "ml") bucketKey) (failsAt 0) fun _ => ∅).2 =
      fun _ => ∅ := by
  have hu : Undisturbed (str "ml") bucketKey (failsAt 0) (fun _ => ∅) := fun _ _ => rfl
  exact ⟨hu, (createS3Secret_atomic_iff plain (str "ml") bucketKey (failsAt 0)
    fun _ _ _ hl => by cases hl).mpr hu⟩

theorem createS3Secret_leavesSecret :
    ¬∀ (s : Service) (ns : Str) (req : CreateS3SecretRequest) (f : Nat → Fate) (c : Cluster), c.Filed →
      ∀ e, (Prog.play befall (s.createS3Secret ns req) f c).1 = .error e →
        (Prog.play befall (s.createS3Secret ns req) f c).2 = c := by
  intro h
  have hc : Cluster.Filed fun _ => ∅ := fun _ _ _ hl => by cases hl
  have hr : befall (.create .secret (s3Secret (str "ml") bucketKey)) (failsAt 1 0) (fun _ => ∅) = _ :=
    create_fresh rfl rfl
  have hl := h plain (str "ml") bucketKey (failsAt 1) _ hc
  rw [createS3Secret_created rfl (congrArg Prod.fst hr), hr, linked_atomic_iff _ hc rfl] at hl
  obtain hs | ⟨ho, -⟩ := hl
  case inl => cases hs
  case inr => cases ho

end AiStorage

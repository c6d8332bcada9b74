import Knaic.AiStorage.S3Secrets

open Go Effects

-- Secrets of both kinds as they are created and patched, and the rules that they were created under.
namespace AiStorage

open Kube

structure PatchS3SecretRequest where
  endpoint        : Option Str
  region          : Option Str
  useHTTPS        : Option Bool
  bucket          : Option Str
  accessKeyID     : Str
  secretAccessKey : Str

structure GitLabConfig where
  name      : Str
  ns        : Str
  url       : Str
  username  : Str
  createdAt : Str

structure CreateGitLabConfigRequest where
  name     : Str
  url      : Str
  username : Str
  token    : Str

structure PatchGitLabConfigRequest where
  url      : Option Str
  username : Option Str
  token    : Str

def annGitLabURL : Str :=
  str "knaic.io/aistorage-gitlab-url"

def annGitLabUsername : Str :=
  str "knaic.io/aistorage-gitlab-username"

def accessKey : Str :=
  str "AWS_ACCESS_KEY_ID"

def secretKey : Str :=
  str "AWS_SECRET_ACCESS_KEY"

def gitlabToken : Str :=
  str "GITLAB_TOKEN"

def slash : UInt8 :=
  47

def isOurs (labels : Go.Map Str) (kind : Str) : Bool :=
  (labels.lookup labelComponent).getD [] = componentValue && (labels.lookup labelKind).getD [] = kind

-- `if v != nil { m[k] = *v }`
def setGiven (m : Go.Map Str) (k : Str) (v : Option Str) : Go.Map Str :=
  v.elim m (m.insert k)

-- `if v != "" { m[k] = v }`
def setNonempty (m : Go.Map Str) (k v : Str) : Go.Map Str :=
  if v ≠ [] then m.insert k v else m

def patchedS3 (req : PatchS3SecretRequest) (sec : Secret) : Secret :=
  let a := setGiven sec.metadata.annotations annS3Endpoint req.endpoint
  let a := setGiven a annS3Region req.region
  let a := setGiven a annS3UseHTTPS (req.useHTTPS.map boolStr01)
  let a := setGiven a annKnaicBucket req.bucket
  let d := setNonempty sec.body.data accessKey req.accessKeyID
  let d := setNonempty d secretKey req.secretAccessKey
  { sec with
    metadata := { sec.metadata with annotations := a }
    body     := { sec.body with data := d } }

def patchedGitLab (req : PatchGitLabConfigRequest) (sec : Secret) : Secret :=
  let a := setGiven sec.metadata.annotations annGitLabURL (req.url.map fun u => u.trimRight slash)
  let a := setGiven a annGitLabUsername req.username
  { sec with
    metadata := { sec.metadata with annotations := a }
    body     := { sec.body with data := setNonempty sec.body.data gitlabToken req.token } }

-- `parses` is what `url.ParseRequestURI` says of a text: the error, if there is one.
def validateGitLabCreate (parses : Str → Option Error) (req : CreateGitLabConfigRequest) : Except Error Unit :=
  if req.name = [] ∨ req.url = [] ∨ req.token = [] then
    .error (.new "name, url, and token are required")
  else
    match parses req.url with
    | some err => .error (.wrap "invalid url" err)
    | none     => .ok ()

def gitlabSecret (ns : Str) (req : CreateGitLabConfigRequest) : Secret where
  metadata := {
    name              := req.name
    ns                := ns
    labels            := .ofList [
      (labelManaged, str "true"),
      (labelComponent, componentValue),
      (labelKind, str "gitlab")
    ]
    annotations       := .ofList [
      (annGitLabURL, req.url.trimRight slash),
      (annGitLabUsername, req.username)
    ]
    creationTimestamp := Time.zero
    resourceVersion   := 0
  }
  body     := {
    type := str "Opaque"
    data := .ofList [(gitlabToken, req.token)]
  }

namespace Service

variable (s : Service) (parses : Str → Option Error) (ns name : Str)

def projectGitLabConfig (sec : Secret) : GitLabConfig where
  name      := sec.metadata.name
  ns        := sec.metadata.ns
  url       := (sec.metadata.annotations.lookup annGitLabURL).getD []
  username  := (sec.metadata.annotations.lookup annGitLabUsername).getD []
  createdAt := s.rfc3339 sec.metadata.creationTimestamp

def patchS3Secret (req : PatchS3SecretRequest) : Call S3Secret := do
  let sec ← get .secret (ns, name)
  if !isOurs sec.metadata.labels (str "s3") then
    throw (.new "not an AI-Storage S3 secret")
  else
    let updated ← update .secret (patchedS3 req sec)
    return s.projectS3Secret updated

def createGitLabConfig (req : CreateGitLabConfigRequest) : Call GitLabConfig := do
  match validateGitLabCreate parses req with
  | .error err => throw err
  | .ok _      =>
    let created ← create .secret (gitlabSecret ns req)
    return s.projectGitLabConfig created

def patchGitLabConfig (req : PatchGitLabConfigRequest) : Call GitLabConfig := do
  let sec ← get .secret (ns, name)
  if !isOurs sec.metadata.labels (str "gitlab") then
    throw (.new "not an AI-Storage GitLab secret")
  else
    let updated ← update .secret (patchedGitLab req sec)
    return s.projectGitLabConfig updated

end Service

-- A request that a secret could have been created with.
section Rules

variable (parses : Str → Option Error) (sec : Secret)

def annotationOf (k : Str) : Str :=
  (sec.metadata.annotations.lookup k).getD []

def datum (k : Str) : Str :=
  (sec.body.data.lookup k).getD []

def s3Request : CreateS3SecretRequest where
  name            := sec.metadata.name
  kind            := annotationOf sec annKnaicKind
  endpoint        := annotationOf sec annS3Endpoint
  region          := annotationOf sec annS3Region
  useHTTPS        := annotationOf sec annS3UseHTTPS = str "1"
  bucket          := annotationOf sec annKnaicBucket
  accessKeyID     := datum sec accessKey
  secretAccessKey := datum sec secretKey
  serviceAccount  := annotationOf sec annKnaicSA

def gitlabRequest : CreateGitLabConfigRequest where
  name     := sec.metadata.name
  url      := annotationOf sec annGitLabURL
  username := annotationOf sec annGitLabUsername
  token    := datum sec gitlabToken

-- Creation does not refuse what is stored.
structure KeepsRules : Prop where
  s3     : isOurs sec.metadata.labels (str "s3") → validateS3Create (s3Request sec) = .ok ()
  gitlab : isOurs sec.metadata.labels (str "gitlab") →
           validateGitLabCreate parses (gitlabRequest sec) = .ok ()

end Rules

-- Calls on secrets of any namespace.
inductive SecretCall
  | createS3 (ns : Str) (req : CreateS3SecretRequest)
  | patchS3 (ns name : Str) (req : PatchS3SecretRequest)
  | createGitLab (ns : Str) (req : CreateGitLabConfigRequest)
  | patchGitLab (ns name : Str) (req : PatchGitLabConfigRequest)

def secretPool (s : Service) (parses : Str → Option Error) :
    Pool Kube.ops Fate Cluster SecretCall (Except Error Unit) where
  answer _ op f c := befall op f c
  env _ c         := c
  code
    | .createS3 ns req         => (s.createS3Secret ns req).void
    | .patchS3 ns name req     => (s.patchS3Secret ns name req).void
    | .createGitLab ns req     => (s.createGitLabConfig parses ns req).void
    | .patchGitLab ns name req => (s.patchGitLabConfig ns name req).void

-- A URL without the slashes at its end.
def Accepted (parses : Str → Option Error) (url : Str) : Prop :=
  url.trimRight slash ≠ [] ∧ parses (url.trimRight slash) = none

-- The secret that is patched is not an S3-compatible one that the patch takes its endpoint from, and a URL
-- that is set is accepted without the slashes at its end.
def Sound (parses : Str → Option Error) : Pool.Condition Kube.ops Fate Cluster SecretCall
  | .createS3 _ _, _, _, _               => True
  | .createGitLab _ req, _, _, _         => Accepted parses req.url
  | .patchS3 ns name req, .get _ _, _, c =>
    ∀ sec ∈ (c .secret).lookup (ns, name), isOurs sec.metadata.labels (str "s3") →
      annotationOf sec annKnaicKind = str "compatible" → req.endpoint ≠ some []
  | .patchS3 _ _ _, _, _, _              => True
  | .patchGitLab ns name req, .get _ _, _, c =>
    ∀ sec ∈ (c .secret).lookup (ns, name), isOurs sec.metadata.labels (str "gitlab") →
      ∀ u ∈ req.url, Accepted parses u
  | .patchGitLab _ _ _, _, _, _          => True

instance (parses : Str → Option Error) (url : Str) : Decidable (Accepted parses url) :=
  inferInstanceAs (Decidable (_ ∧ _))

instance (parses : Str → Option Error) (i : SecretCall) (op : Op) (f : Fate) (c : Cluster) :
    Decidable (Sound parses i op f c) := by
  unfold Sound
  split <;> infer_instance

section Patches

variable {parses : Str → Option Error} {sec : Secret} {m : Go.Map Str} {k k' v : Str}

theorem lookup_setGiven (m : Go.Map Str) (k : Str) (v : Option Str) (k' : Str) :
    (setGiven m k v).lookup k' = if k' = k then v.or (m.lookup k') else m.lookup k' := by
  cases v
  case none   => simp [setGiven]
  case some v =>
    by_cases h : k' = k
    case pos =>
      subst h
      simp [setGiven, Finmap.lookup_insert]
    case neg => simp [setGiven, h, Finmap.lookup_insert_of_ne]

theorem lookup_setGiven_ne (h : k' ≠ k) (v : Option Str) : (setGiven m k v).lookup k' = m.lookup k' := by
  rw [lookup_setGiven, if_neg h]

theorem lookup_setNonempty_ne (h : k' ≠ k) (v : Str) : (setNonempty m k v).lookup k' = m.lookup k' := by
  unfold setNonempty
  split
  case isTrue  => exact Finmap.lookup_insert_of_ne _ h
  case isFalse => rfl

-- A patch takes no text away.
theorem setNonempty_ne_nil (h : (m.lookup k).getD [] ≠ []) (v : Str) :
    ((setNonempty m k v).lookup k).getD [] ≠ [] := by
  unfold setNonempty
  split
  case isTrue hv => simpa [Finmap.lookup_insert] using hv
  case isFalse   => exact h

theorem validateS3Create_ok_iff {req : CreateS3SecretRequest} : validateS3Create req = .ok () ↔
    req.name ≠ [] ∧ (req.accessKeyID ≠ [] ∧ req.secretAccessKey ≠ []) ∧
      (req.kind = str "aws" ∨ req.kind = str "compatible" ∧ req.endpoint ≠ []) := by
  unfold validateS3Create
  by_cases hn : req.name = []
  case pos => simp [hn]
  case neg =>
    by_cases hk : req.accessKeyID = [] ∨ req.secretAccessKey = []
    case pos => simp [hn, hk]; tauto
    case neg =>
      have ⟨ha, hs⟩ := not_or.mp hk
      by_cases haws : req.kind = str "aws"
      case pos => simp [hn, ha, hs, haws]
      case neg =>
        by_cases hc : req.kind = str "compatible"
        case pos => by_cases he : req.endpoint = [] <;> simp [hn, ha, hs, hc, he]
        case neg => simp [hn, ha, hs, haws, hc]

theorem validateGitLabCreate_ok_iff {req : CreateGitLabConfigRequest} :
    validateGitLabCreate parses req = .ok () ↔
      req.name ≠ [] ∧ req.url ≠ [] ∧ req.token ≠ [] ∧ parses req.url = none := by
  unfold validateGitLabCreate
  by_cases h : req.name = [] ∨ req.url = [] ∨ req.token = []
  case pos => simp [h]; tauto
  case neg =>
    have ⟨hn, h⟩ := not_or.mp h
    have ⟨hu, ht⟩ := not_or.mp h
    cases hp : parses req.url <;> simp [hn, hu, ht]

theorem KeepsRules.stamp (h : KeepsRules parses sec) (t : Time) (n : Nat) :
    KeepsRules parses (sec.stamp t n) where
  s3     := h.s3
  gitlab := h.gitlab

-- No secret is of both kinds.
theorem isOurs_apart (h : isOurs sec.metadata.labels (str "s3")) :
    ¬isOurs sec.metadata.labels (str "gitlab") := by
  simp only [isOurs, Bool.and_eq_true, decide_eq_true_eq] at h ⊢
  intro hg
  exact absurd (h.right.symm.trans hg.right) (by decide)

theorem patchedS3_kind (req : PatchS3SecretRequest) :
    annotationOf (patchedS3 req sec) annKnaicKind = annotationOf sec annKnaicKind := by
  simp only [annotationOf, patchedS3]
  rw [lookup_setGiven_ne (by decide), lookup_setGiven_ne (by decide), lookup_setGiven_ne (by decide),
    lookup_setGiven_ne (by decide)]

theorem patchedS3_endpoint (req : PatchS3SecretRequest) : annotationOf (patchedS3 req sec) annS3Endpoint =
    (req.endpoint.or (sec.metadata.annotations.lookup annS3Endpoint)).getD [] := by
  simp only [annotationOf, patchedS3]
  rw [lookup_setGiven_ne (by decide), lookup_setGiven_ne (by decide), lookup_setGiven_ne (by decide),
    lookup_setGiven, if_pos rfl]

theorem patchedS3_keeps_iff {req : PatchS3SecretRequest} (h : KeepsRules parses sec)
    (ho : isOurs sec.metadata.labels (str "s3")) : KeepsRules parses (patchedS3 req sec) ↔
      (annotationOf sec annKnaicKind = str "compatible" → req.endpoint ≠ some []) := by
  have ⟨hn, ⟨ha, hs⟩, hk⟩ := validateS3Create_ok_iff.mp (h.s3 ho)
  constructor
  case mp =>
    intro hp hkind he
    have ⟨_, _, hk⟩ := validateS3Create_ok_iff.mp (hp.s3 ho)
    simp only [s3Request, patchedS3_kind, patchedS3_endpoint, hkind, he] at hk
    cases hk
    case inl hk => exact absurd hk (by decide)
    case inr hk => exact hk.right rfl
  case mpr =>
    intro he
    refine ⟨fun _ => ?_, fun hg => absurd hg (isOurs_apart ho)⟩
    apply validateS3Create_ok_iff.mpr
    refine ⟨hn, ⟨?access, ?secret⟩, ?kind⟩
    case access =>
      simp only [s3Request, datum, patchedS3]
      rw [lookup_setNonempty_ne (by decide)]
      exact setNonempty_ne_nil ha _
    case secret =>
      simp only [s3Request, datum, patchedS3]
      apply setNonempty_ne_nil
      rw [lookup_setNonempty_ne (by decide)]
      exact hs
    case kind =>
      simp only [s3Request, patchedS3_kind, patchedS3_endpoint] at hk ⊢
      cases hk
      case inl hk => exact .inl hk
      case inr hk =>
        refine .inr ⟨hk.left, ?_⟩
        cases hr : req.endpoint
        case none   => exact hk.right
        case some u =>
          intro hu
          exact he hk.left (hr.trans (congrArg some hu))

theorem patchedGitLab_url (req : PatchGitLabConfigRequest) : annotationOf (patchedGitLab req sec) annGitLabURL =
    ((req.url.map fun u => u.trimRight slash).or (sec.metadata.annotations.lookup annGitLabURL)).getD [] := by
  simp only [annotationOf, patchedGitLab]
  rw [lookup_setGiven_ne (by decide), lookup_setGiven, if_pos rfl]

theorem patchedGitLab_keeps_iff {req : PatchGitLabConfigRequest} (h : KeepsRules parses sec)
    (ho : isOurs sec.metadata.labels (str "gitlab")) :
    KeepsRules parses (patchedGitLab req sec) ↔ ∀ u, req.url = some u → Accepted parses u := by
  have ⟨hn, hurl, ht, hp⟩ := validateGitLabCreate_ok_iff.mp (h.gitlab ho)
  constructor
  case mp =>
    intro hk u hu
    have ⟨_, hurl, _, hp⟩ := validateGitLabCreate_ok_iff.mp (hk.gitlab ho)
    simp only [gitlabRequest, patchedGitLab_url, hu] at hurl hp
    exact ⟨hurl, hp⟩
  case mpr =>
    intro hu
    have haccept : annotationOf (patchedGitLab req sec) annGitLabURL ≠ [] ∧
        parses (annotationOf (patchedGitLab req sec) annGitLabURL) = none := by
      rw [patchedGitLab_url]
      cases hr : req.url
      case none   => exact ⟨hurl, hp⟩
      case some u => exact hu u hr
    refine ⟨fun hs => absurd ho (isOurs_apart hs), fun _ => ?_⟩
    exact validateGitLabCreate_ok_iff.mpr ⟨hn, haccept.left, setNonempty_ne_nil ht _, haccept.right⟩

theorem lookup_unless {c : Prop} [Decidable c] (h : k' ≠ k) :
    (if c then m else m.insert k v).lookup k' = m.lookup k' := by
  split
  case isTrue  => rfl
  case isFalse => exact Finmap.lookup_insert_of_ne _ h

theorem s3Secret_keeps {ns : Str} {req : CreateS3SecretRequest} (h : validateS3Create req = .ok ()) :
    KeepsRules parses (s3Secret ns req) where
  gitlab hg := absurd hg (isOurs_apart (rfl : isOurs (s3Secret ns req).metadata.labels (str "s3")))
  s3 _      := by
    have hkind : annotationOf (s3Secret ns req) annKnaicKind = req.kind := by
      simp only [annotationOf, s3Secret, s3Annotations]
      rw [lookup_unless (by decide), lookup_unless (by decide)]
      rfl
    have hend : annotationOf (s3Secret ns req) annS3Endpoint = req.endpoint := by
      simp only [annotationOf, s3Secret, s3Annotations]
      rw [lookup_unless (by decide), lookup_unless (by decide)]
      rfl
    have ⟨hn, hkeys, hk⟩ := validateS3Create_ok_iff.mp h
    apply validateS3Create_ok_iff.mpr
    simp only [s3Request, hkind, hend]
    exact ⟨hn, hkeys, hk⟩

theorem gitlabSecret_keeps_iff {ns : Str} {req : CreateGitLabConfigRequest}
    (h : validateGitLabCreate parses req = .ok ()) :
    KeepsRules parses (gitlabSecret ns req) ↔ Accepted parses req.url := by
  have ho : isOurs (gitlabSecret ns req).metadata.labels (str "gitlab") := rfl
  have ⟨hn, _, ht, _⟩ := validateGitLabCreate_ok_iff.mp h
  constructor
  case mp =>
    intro hk
    have ⟨_, hu, _, hp⟩ := validateGitLabCreate_ok_iff.mp (hk.gitlab ho)
    exact ⟨hu, hp⟩
  case mpr =>
    intro hu
    refine ⟨fun hs => absurd ho (isOurs_apart hs), fun _ => ?_⟩
    exact validateGitLabCreate_ok_iff.mpr ⟨hn, hu.left, ht, hu.right⟩

end Patches

-- The rules as a property of all objects of a cluster.
def SecretRule (parses : Str → Option Error) : (k : Kind) → Key → Object k → Prop
  | .secret, _, sec => KeepsRules parses sec
  | _, _, _         => True

def secretContract (s : Service) (parses : Str → Option Error) : Contract (secretPool s parses) where
  inv           := Cluster.Everywhere (SecretRule parses)
  rely _ _      := True
  guar _ op f c := (befall op f c).2.Everywhere (SecretRule parses)
  refl _        := trivial
  trans _ _     := trivial
  guar_inv h _  := h
  guar_rely _ _ := trivial
  env_inv h     := h
  env_rely _    := trivial

section Calls

open Contract

variable {s : Service} {parses : Str → Option Error} {ns name : Str} {c : Cluster} {i : SecretCall}

-- Whether or not a request that fails takes place.
theorem everywhere_befall {φ : (k : Kind) → Key → Object k → Prop} {op : Op} {f : Fate}
    (h : c.Everywhere φ) (ho : Admits φ op) : (befall op f c).2.Everywhere φ := by
  unfold befall
  cases f.outage
  case none   => exact h.answer ho
  case some o =>
    simp only
    split
    case isTrue  => exact h.answer ho
    case isFalse => exact h

theorem admits_of_writes {op : Op} (h : op.writes ≠ some .secret) : Admits (SecretRule parses) op := by
  cases op
  case create k o   => cases k <;> first | exact absurd rfl h | exact fun _ _ => trivial
  case update k o   => cases k <;> first | exact absurd rfl h | exact fun _ _ => trivial
  case patch k _ _  => cases k <;> first | exact absurd rfl h | exact fun _ _ _ _ => trivial
  all_goals trivial

theorem befall_get_ok {k : Kind} {key : Key} {f : Fate} {o : Object k}
    (h : (befall (.get k key) f c).1 = .ok o) : (c k).lookup key = some o := by
  unfold befall at h
  cases hf : f.outage
  case none   => rw [hf] at h; exact get_ok h
  case some x => rw [hf] at h; simp [answer] at h

-- The secret that is found is as the rules say, and the patch of it is sound.
theorem get_safe : (secretContract s parses).Safe (Sound parses) i
    (Ok fun sec _ => KeepsRules parses sec ∧ ∃ f c, Sound parses i (.get .secret (ns, name)) f c ∧
      (c .secret).lookup (ns, name) = some sec)
    (get .secret (ns, name)) c := by
  apply Safe.perform
  case hg => exact fun _ _ hc _ _ => everywhere_befall hc trivial
  case hq =>
    intro c₁ _ hc f hs c₂ _ _
    apply Ok.intro
    intro sec hr
    have hl := befall_get_ok hr
    exact ⟨hc .secret _ _ hl, f, c₁, hs, hl⟩

-- What is written keeps the rules, whatever it is answered.
theorem only_safe {α : Type} {p : Call α} (hp : Prog.Only (Admits (SecretRule parses)) p) :
    (secretContract s parses).Safe (Sound parses) i (Ok fun _ _ => True) p c :=
  Safe.ok (Safe.of_only hp fun _ ho _ _ hc _ _ => everywhere_befall hc ho)

theorem createS3Secret_safe (req : CreateS3SecretRequest) :
    (secretContract s parses).Safe (Sound parses) i (Ok fun _ _ => True) (s.createS3Secret ns req) c := by
  apply only_safe
  unfold Service.createS3Secret
  split
  case h_1        => trivial
  case h_2 _ _ hv =>
    apply Call.only_seq
    case h  => exact Prog.Only.perform fun _ _ => (s3Secret_keeps hv).stamp _ _
    case hf =>
      intro _
      exact Call.only_seq (link_only.mono fun _ => admits_of_writes) fun _ => trivial

theorem createGitLabConfig_safe (hc : c.Everywhere (SecretRule parses)) (req : CreateGitLabConfigRequest) :
    (secretContract s parses).Safe (Sound parses) (.createGitLab ns req) (Ok fun _ _ => True)
      (s.createGitLabConfig parses ns req) c := by
  unfold Service.createGitLabConfig
  split
  case h_1        => exact Safe.throw
  case h_2 _ _ hv =>
    have hw : (secretContract s parses).Safe (Sound parses) (.createGitLab ns req) (fun _ _ => True)
        (create .secret (gitlabSecret ns req)) c := by
      apply Safe.perform
      case hg =>
        intro c₁ _ hc₁ f hs
        exact everywhere_befall hc₁ fun _ _ => ((gitlabSecret_keeps_iff hv).mpr hs).stamp _ _
      case hq => exact fun _ _ _ _ _ _ _ _ => trivial
    exact Safe.seq hw.ok hc fun _ _ _ _ _ => Safe.pure fun _ _ _ => trivial

theorem patchS3Secret_safe (hc : c.Everywhere (SecretRule parses)) (req : PatchS3SecretRequest) :
    (secretContract s parses).Safe (Sound parses) (.patchS3 ns name req) (Ok fun _ _ => True)
      (s.patchS3Secret ns name req) c := by
  apply Safe.seq get_safe hc
  intro sec c₁ _ hc₁ hsec
  obtain ⟨hk, f, c₀, hs, hl⟩ := hsec
  split
  case isTrue      => exact Safe.throw
  case isFalse hne =>
    have ho : isOurs sec.metadata.labels (str "s3") := by simpa using hne
    exact only_safe (Call.only_seq
      (Prog.Only.perform fun _ _ => ((patchedS3_keeps_iff hk ho).mpr (hs sec hl ho)).stamp _ _) fun _ => trivial)

theorem patchGitLabConfig_safe (hc : c.Everywhere (SecretRule parses)) (req : PatchGitLabConfigRequest) :
    (secretContract s parses).Safe (Sound parses) (.patchGitLab ns name req) (Ok fun _ _ => True)
      (s.patchGitLabConfig ns name req) c := by
  apply Safe.seq get_safe hc
  intro sec c₁ _ hc₁ hsec
  obtain ⟨hk, f, c₀, hs, hl⟩ := hsec
  split
  case isTrue      => exact Safe.throw
  case isFalse hne =>
    have ho : isOurs sec.metadata.labels (str "gitlab") := by simpa using hne
    exact only_safe (Call.only_seq
      (Prog.Only.perform fun _ _ => ((patchedGitLab_keeps_iff hk ho).mpr (hs sec hl ho)).stamp _ _) fun _ => trivial)

theorem secretContract_keeps (s : Service) (parses : Str → Option Error) :
    (secretContract s parses).Keeps (Sound parses) := by
  intro i c hc
  cases i
  case createS3 ns req         => exact (createS3Secret_safe req).void hc
  case patchS3 ns name req     => exact (patchS3Secret_safe hc req).void hc
  case createGitLab ns req     => exact (createGitLabConfig_safe hc req).void hc
  case patchGitLab ns name req => exact (patchGitLabConfig_safe hc req).void hc

end Calls

-- The secrets keep the rules in every state that calls reach which are sound.
theorem secrets_keep_rules (s : Service) (parses : Str → Option Error) {c : Cluster}
    (hc : c.Everywhere (SecretRule parses)) {ps : List (Pick Fate SecretCall)}
    (hp : (secretPool s parses).Allows (Sound parses) ps ⟨c, []⟩) :
    ((secretPool s parses).run ⟨c, []⟩ ps).world.Everywhere (SecretRule parses) := by
  have hh : (secretContract s parses).Holds (Sound parses) ⟨c, []⟩ := ⟨hc, List.forall_mem_nil _⟩
  exact (hh.run (secretContract_keeps s parses) hp).inv

def minio : CreateS3SecretRequest where
  name            := str "minio"
  kind            := str "compatible"
  endpoint        := str "minio:9000"
  region          := []
  useHTTPS        := false
  bucket          := str "models"
  accessKeyID     := str "key"
  secretAccessKey := str "secret"
  serviceAccount  := []

-- The secret is created, and then its endpoint is set.
def moved (endpoint : Str) : List (Pick Fate SecretCall) :=
  let calm : Fate := ⟨Time.zero, [], none⟩
  [.start (.createS3 (str "ml") minio), .act 0 calm,
    .start (.patchS3 (str "ml") (str "minio") ⟨some endpoint, none, none, none, [], []⟩),
    .act 1 calm, .act 1 calm]

theorem no_secrets (parses : Str → Option Error) : Cluster.Everywhere (SecretRule parses) fun _ => ∅ :=
  fun _ _ _ hl => by cases hl

theorem moved_keeps : ((secretPool plain fun _ => none).run ⟨fun _ => ∅, []⟩
    (moved (str "minio:9001"))).world.Everywhere (SecretRule fun _ => none) :=
  secrets_keep_rules plain _ (no_secrets _) (by decide)

theorem moved_nowhere : ¬∀ (s : Service) (parses : Str → Option Error) (c : Cluster)
    (ps : List (Pick Fate SecretCall)), c.Everywhere (SecretRule parses) →
      ((secretPool s parses).run ⟨c, []⟩ ps).world.Everywhere (SecretRule parses) := by
  intro h
  have hk := h plain (fun _ => none) _ (moved []) (no_secrets _) .secret (str "ml", str "minio")
  have hl : ∃ sec ∈ ((secretPool plain fun _ => none).run ⟨fun _ => ∅, []⟩
      (moved [])).world .secret |>.lookup (str "ml", str "minio"),
      isOurs sec.metadata.labels (str "s3") ∧ annotationOf sec annKnaicKind = str "compatible" ∧
      annotationOf sec annS3Endpoint = [] := by
    decide
  obtain ⟨sec, hm, ho, hkind, he⟩ := hl
  have ⟨_, _, hv⟩ := validateS3Create_ok_iff.mp ((hk sec hm).s3 ho)
  cases hv
  case inl hv => exact absurd (hkind.symm.trans hv) (by decide)
  case inr hv => exact hv.right he

end AiStorage

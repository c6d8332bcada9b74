import Knaic.AiStorage.SecretRules
import Knaic.Effects.Reads
import Knaic.Go.Delimited
import Knaic.Go.Sort
import Knaic.Go.UrlParse
import Knaic.Go.Utf8
import Knaic.Go.Values

open Go Effects Kube

-- The objects of a bucket, by the secret that names where it is.
namespace AiStorage.S3

structure S3Object where
  key          : Str
  size         : Nat
  lastModified : Str
  isPrefix     : Bool
deriving DecidableEq

-- `minio.Client` and `minio.ObjectInfo`
structure Client where
  host            : Str
  secure          : Bool
  region          : Str
  accessKeyID     : Str
  secretAccessKey : Str

structure ObjectInfo where
  key          : Str
  size         : Nat
  etag         : Str
  lastModified : Time

-- What an object store has for a key.
structure Stored where
  body         : Str
  contentType  : Str
  etag         : Str
  lastModified : Time
  tagged       : etag ≠ []

abbrev Bucket :=
  Go.Map Stored

-- The requests for which clients are needed at all, to the API server and to an object store.
inductive Op
  | clients
  | getSecret (key : Key)
  | listObjects (c : Client) (bucket pre : Str)
  | getObject (c : Client) (bucket key : Str)
  | putObject (c : Client) (bucket key body contentType : Str)
  | removeObject (c : Client) (bucket key : Str)

def Op.Answer : Op → Type
  | clients            => Unit
  | getSecret _        => Secret
  | listObjects _ _ _  => List ObjectInfo
  | getObject _ _ _    => Stored
  | putObject ..       => Unit
  | removeObject _ _ _ => Unit

abbrev ops : Signature where
  Op     := Op
  Res op := Except Error op.Answer

abbrev Call :=
  Effects.Call ops Error

def perform (op : Op) : Call op.Answer :=
  @Prog.perform ops op

structure World where
  cluster : Cluster
  stores  : Str → Str → Option Bucket

def World.store (w : World) (host bucket : Str) (b : Bucket) : World :=
  { w with stores := fun h n => if h = host ∧ n = bucket then some b else w.stores h n }

-- What befalls a request, beside what it finds: a listing comes in pages, and each page has its folders last.
structure Fate where
  outage : Option Error
  takes  : Bool
  now    : Time
  etag   : Str
  tagged : etag ≠ []
  pages  : List ObjectInfo → List ObjectInfo
  perm   : ∀ l, (pages l).Perm l

def errNoSuchBucket : Error :=
  .sentinel "minio" "NoSuchBucket"

def errNoSuchKey : Error :=
  .sentinel "minio" "NoSuchKey"

def slash : UInt8 :=
  47

def Stored.info (o : Stored) (key : Str) : ObjectInfo where
  key          := key
  size         := o.body.length
  etag         := o.etag
  lastModified := o.lastModified

def folderInfo (key : Str) : ObjectInfo where
  key          := key
  size         := 0
  etag         := []
  lastModified := Time.zero

def listing (b : Bucket) (pre : Str) : List ObjectInfo :=
  ((Delimited.files slash pre b.keyList).filterMap fun k => (b.lookup k).map (·.info k)) ++
    (Delimited.folders slash pre b.keyList).map folderInfo

def found (f : Fate) (w : World) : (op : Op) → Except Error op.Answer
  | .clients                  => .ok ()
  | .getSecret key            => ((w.cluster .secret).lookup key).elim (.error errNotFound) .ok
  | .listObjects c bucket pre =>
    (w.stores c.host bucket).elim (.error errNoSuchBucket) fun b => .ok (f.pages (listing b pre))
  | .getObject c bucket key   =>
    (w.stores c.host bucket).elim (.error errNoSuchBucket) fun b => (b.lookup key).elim (.error errNoSuchKey) .ok
  | .putObject c bucket ..    => (w.stores c.host bucket).elim (.error errNoSuchBucket) fun _ => .ok ()
  | .removeObject c bucket _  => (w.stores c.host bucket).elim (.error errNoSuchBucket) fun _ => .ok ()

def effect (f : Fate) (w : World) : Op → World
  | .putObject c bucket key body contentType =>
    (w.stores c.host bucket).elim w fun b =>
      w.store c.host bucket (b.insert key ⟨body, contentType, f.etag, f.now, f.tagged⟩)
  | .removeObject c bucket key               =>
    (w.stores c.host bucket).elim w fun b => w.store c.host bucket (b.erase key)
  | _                                        => w

def befall (op : ops.Op) (f : Fate) (w : World) : ops.Res op × World :=
  match f.outage with
  | none   => (found f w op, effect f w op)
  | some e => (.error e, if f.takes then effect f w op else w)

-- Code outside the repository: the error of `url.Parse`, and which hosts `minio.New` refuses.
structure Lib where
  urlError  : Str → Error
  newClient : Str → Option Error

section Service

variable (lib : Lib) (rfc3339 : Time → Str)

-- The host, and whether the endpoint asks for HTTPS itself.
def normalizeEndpoint (endpoint : Str) : Except Error (Str × Bool) :=
  let endpoint : Str := Utf8.trimSpace endpoint
  if endpoint = [] then
    .error (.new "endpoint is empty")
  else if !Str.hasInfix endpoint (str "://") then
    .ok (endpoint, false)
  else
    match Url.parse endpoint with
    | none   => .error (.wrap "invalid endpoint URL" (lib.urlError endpoint))
    | some u => .ok (u.host, u.scheme = str "https")

-- What a client is made for: native AWS has an endpoint for each region.
def endpointOf (sec : Secret) : Str × Bool :=
  let endpoint := annotationOf sec annS3Endpoint
  let region := annotationOf sec annS3Region
  let useSSL := annotationOf sec annS3UseHTTPS = str "1" || (annotationOf sec annS3UseHTTPS).toLower = str "true"
  if endpoint = [] ∧ annotationOf sec annKnaicKind = str "aws" then
    (if region ≠ [] then str "s3." ++ region ++ str ".amazonaws.com" else str "s3.amazonaws.com", true)
  else
    (endpoint, useSSL)

def clientOf (sec : Secret) : Except Error Client :=
  if !isOurs sec.metadata.labels (str "s3") then
    .error (.new "secret is not an AI-Storage S3 secret")
  else
    match normalizeEndpoint lib (endpointOf sec).1 with
    | .error err         => .error err
    | .ok (host, useSSL) =>
      match lib.newClient host with
      | some err => .error err
      | none     =>
        .ok {
          host            := host
          secure          := useSSL || (endpointOf sec).2
          region          := annotationOf sec annS3Region
          accessKeyID     := datum sec accessKey
          secretAccessKey := datum sec secretKey
        }

def s3Client (ns name : Str) : Call Client := do
  let sec ← perform (.getSecret (ns, name))
  ExceptT.mk (pure (clientOf lib sec))

def defaultBucketOf (sec : Secret) : Except Error Str :=
  if annotationOf sec annKnaicBucket = [] then
    .error (.new "no default bucket configured on this secret; pass ?bucket=...")
  else
    .ok (annotationOf sec annKnaicBucket)

def s3DefaultBucket (ns name : Str) : Call Str := do
  let sec ← perform (.getSecret (ns, name))
  ExceptT.mk (pure (defaultBucketOf sec))

def bucketOrDefault (ns name bucket : Str) : Call Str :=
  if bucket = [] then s3DefaultBucket ns name else pure bucket

def object (o : ObjectInfo) : S3Object where
  key          := o.key
  size         := o.size
  lastModified := if o.lastModified = Time.zero then [] else rfc3339 o.lastModified
  isPrefix     := o.key.hasSuffix (str "/") && o.size = 0 && o.etag = []

-- Folders come first.
def less (a b : S3Object) : Bool :=
  if a.isPrefix ≠ b.isPrefix then a.isPrefix else a.key < b.key

def sorted (l : List S3Object) : List S3Object :=
  l.mergeSort fun a b => !less b a

def s3List (ns name bucket pre : Str) : Call (List S3Object) := do
  let cli ← s3Client lib ns name
  let bucket ← bucketOrDefault ns name bucket
  let infos ← perform (.listObjects cli bucket pre)
  return sorted (infos.map (object rfc3339))

def s3Upload (ns name bucket key body contentType : Str) : Call Unit := do
  let cli ← s3Client lib ns name
  let bucket ← bucketOrDefault ns name bucket
  perform (.putObject cli bucket key body (if contentType = [] then str "application/octet-stream" else contentType))

def s3Download (ns name bucket key : Str) : Call Stored := do
  let cli ← s3Client lib ns name
  let bucket ← bucketOrDefault ns name bucket
  perform (.getObject cli bucket key)

def s3Delete (ns name bucket key : Str) : Call Unit := do
  let cli ← s3Client lib ns name
  let bucket ← bucketOrDefault ns name bucket
  perform (.removeObject cli bucket key)

-- How a handler refuses a request.
inductive Refusal
  | noClients (err : Error)
  | badRequest (err : Error)
  | badGateway (err : Error)

abbrev Reply :=
  Effects.Call ops Refusal

def refuse (as : Error → Refusal) (p : Call α) : Reply α :=
  Prog.bind p fun r => .ret (r.mapError as)

-- `r.URL.Query().Get`
def queryGet (query key : Str) : Str :=
  (((Url.Values.ofEntries (Url.parseQuery query)).get key).getD []).head?.getD []

-- Each handler needs clients for the user first.
def service : Reply Unit :=
  refuse .noClients (perform .clients)

def keyOf (query : Str) : Except Refusal Str :=
  if queryGet query (str "key") = [] then
    .error (.badRequest (.new "key is required"))
  else
    .ok (queryGet query (str "key"))

def listS3Objects (ns name query : Str) : Reply (List S3Object) := do
  service
  refuse .badGateway (s3List lib rfc3339 ns name (queryGet query (str "bucket")) (queryGet query (str "prefix")))

def uploadS3Object (ns name query contentType body : Str) : Reply Unit := do
  service
  let key ← ExceptT.mk (pure (keyOf query))
  refuse .badGateway (s3Upload lib ns name (queryGet query (str "bucket")) key body contentType)

def downloadS3Object (ns name query : Str) : Reply Stored := do
  service
  let key ← ExceptT.mk (pure (keyOf query))
  refuse .badGateway (s3Download lib ns name (queryGet query (str "bucket")) key)

def deleteS3Object (ns name query : Str) : Reply Unit := do
  service
  let key ← ExceptT.mk (pure (keyOf query))
  refuse .badGateway (s3Delete lib ns name (queryGet query (str "bucket")) key)

end Service

-- What the calls come to in a world that stays as it is while they run.
section Targets

variable (lib : Lib) (w : World) (ns name : Str)

def secretIn : Except Error Secret :=
  ((w.cluster .secret).lookup (ns, name)).elim (.error errNotFound) .ok

def clientIn : Except Error Client :=
  secretIn w ns name >>= clientOf lib

def bucketNameIn (bucket : Str) : Except Error Str :=
  if bucket = [] then secretIn w ns name >>= defaultBucketOf else .ok bucket

structure Place where
  host     : Str
  bucket   : Str
  contents : Bucket

def contentsIn (host bucket : Str) : Except Error Place :=
  (w.stores host bucket).elim (.error errNoSuchBucket) fun b => .ok ⟨host, bucket, b⟩

def placeIn (bucket : Str) : Except Error Place := do
  let c ← clientIn lib w ns name
  let n ← bucketNameIn w ns name bucket
  contentsIn w c.host n

end Targets

def rowsOf (rfc3339 : Time → Str) (b : Bucket) (pre : Str) : List S3Object :=
  sorted ((listing b pre).map (object rfc3339))

-- The row of an object, and the one of a folder.
def fileRow (rfc3339 : Time → Str) (key : Str) (o : Stored) : S3Object :=
  { object rfc3339 (o.info key) with isPrefix := false }

def folderRow (key : Str) : S3Object where
  key          := key
  size         := 0
  lastModified := []
  isPrefix     := true

-- The rows are those of a folder: what stands in it, and what its folders are, each once and in order.
structure Shows (rfc3339 : Time → Str) (b : Bucket) (pre : Str) (rows : List S3Object) : Prop where
  ordered : rows.Pairwise fun x y => less x y
  mem_iff : ∀ x, x ∈ rows ↔
    (∃ k o, b.lookup k = some o ∧ Delimited.parent slash k = pre ∧ x = fileRow rfc3339 k o) ∨
    (∃ k u t, slash ∉ u ∧ k = pre ++ u ++ [slash] ∧ (b.lookup (k ++ t)).isSome ∧ x = folderRow k)

section Specs

variable {lib : Lib} {rfc3339 : Time → Str} {w : World} {ns name bucket pre : Str} {P : Fate → Prop} {b : Bucket} {α ε : Type}

-- Whether a request may fail for a reason of its own.
def Faulty (P : Fate → Prop) : Prop :=
  ∃ f, P f ∧ f.outage ≠ none

theorem less_iff (a b : S3Object) : less a b ↔ toLex (!a.isPrefix, a.key) < toLex (!b.isPrefix, b.key) := by
  have := flagged_iff S3Object.isPrefix S3Object.key a b
  rwa [less]

theorem preorder : StableSort.Preorder fun a b => !less b a where
  trans := (trans_of_rank less_iff).trans
  total := fun a b => by
    have := (total_of_rank less_iff).total a b
    simpa using this

theorem reads_perform {op : Op} {t : Except Error op.Answer} (he : ∀ f, effect f w op = w) (hf : ∀ f, found f w op = t) :
    Reads (among P befall) (Faulty P) t (perform op) w := by
  intro f
  cases ho : f.val.outage
  case none   =>
    refine ⟨?_, .inl ?_⟩
    · simp only [among, befall, ho, he]
    · simp only [among, befall, ho, hf]
  case some e =>
    refine ⟨?_, .inr ⟨⟨f.val, f.property, by simp [ho]⟩, e, ?_⟩⟩
    · simp only [among, befall, ho, he, ite_self]
    · simp only [among, befall, ho]

theorem reads_secret : Reads (among P befall) (Faulty P) (secretIn w ns name) (perform (.getSecret (ns, name))) w :=
  reads_perform (fun _ => rfl) fun _ => rfl

theorem reads_client : Reads (among P befall) (Faulty P) (clientIn lib w ns name) (s3Client lib ns name) w :=
  reads_secret.seq fun _ _ => .of_except _

theorem reads_bucketName :
    Reads (among P befall) (Faulty P) (bucketNameIn w ns name bucket) (bucketOrDefault ns name bucket) w := by
  unfold bucketOrDefault bucketNameIn
  split
  case isTrue  => exact reads_secret.seq fun _ _ => .of_except _
  case isFalse => exact .pure bucket

theorem mem_listing {i : ObjectInfo} : i ∈ listing b pre ↔
    (∃ k o, b.lookup k = some o ∧ k ∈ Delimited.files slash pre b.keyList ∧ i = o.info k) ∨
    ∃ k ∈ Delimited.folders slash pre b.keyList, i = folderInfo k := by
  simp only [listing, List.mem_append, List.mem_filterMap, List.mem_map, Option.map_eq_some_iff]
  refine or_congr ⟨?_, ?_⟩ (exists_congr fun k => and_congr_right fun _ => eq_comm)
  · exact fun ⟨k, hk, o, ho, hi⟩ => ⟨k, o, ho, hk, hi.symm⟩
  · exact fun ⟨k, o, ho, hk, hi⟩ => ⟨k, hk, o, ho, hi.symm⟩

theorem listing_inj {i j : ObjectInfo} (hi : i ∈ listing b pre) (hj : j ∈ listing b pre) (h : i.key = j.key) : i = j := by
  rcases mem_listing.mp hi with ⟨k, o, ho, hk, rfl⟩ | ⟨k, hk, rfl⟩
  · rcases mem_listing.mp hj with ⟨k', o', ho', hk', rfl⟩ | ⟨k', hk', rfl⟩
    · cases (h : k = k')
      cases ho.symm.trans ho'
      rfl
    · cases (h : k = k')
      exact absurd hk (Delimited.folders_files_disjoint hk')
  · rcases mem_listing.mp hj with ⟨k', o', ho', hk', rfl⟩ | ⟨k', hk', rfl⟩
    · cases (h : k = k')
      exact absurd hk' (Delimited.folders_files_disjoint hk)
    · cases (h : k = k')
      rfl

-- Rows that tie have the same key.
theorem key_of_tie {x y : S3Object} (h : !less y x) (h' : !less x y) : x.key = y.key ∧ x.isPrefix = y.isPrefix := by
  have he := le_antisymm ((not_less_iff less_iff x y).mp h) ((not_less_iff less_iff y x).mp h')
  simp only [EmbeddingLike.apply_eq_iff_eq, Prod.mk.injEq, Bool.not_inj_iff] at he
  exact ⟨he.right, he.left⟩

theorem rows_inj {x y : S3Object} (hx : x ∈ (listing b pre).map (object rfc3339))
    (hy : y ∈ (listing b pre).map (object rfc3339)) (h : x.key = y.key) : x = y := by
  obtain ⟨i, hi, rfl⟩ := List.mem_map.mp hx
  obtain ⟨j, hj, rfl⟩ := List.mem_map.mp hy
  rw [listing_inj hi hj h]

-- How the listing is cut into pages leaves no trace.
theorem sorted_pages {l : List ObjectInfo} (h : l.Perm (listing b pre)) :
    sorted (l.map (object rfc3339)) = rowsOf rfc3339 b pre :=
  StableSort.eq_of_perm preorder (h.map _) fun _ hx _ hy hxy hyx =>
    rows_inj ((h.map _).mem_iff.mp hx) ((h.map _).mem_iff.mp hy) (key_of_tie hxy hyx).left

theorem listing_nodup (b : Bucket) (pre : Str) : (listing b pre).Nodup := by
  refine List.Nodup.append ?_ ?_ ?_
  · refine ((Map.nodup_keyList b).filter _).filterMap fun k k' i hk hk' => ?_
    have ⟨o, _, ho⟩ := Option.map_eq_some_iff.mp hk
    have ⟨o', _, ho'⟩ := Option.map_eq_some_iff.mp hk'
    exact congrArg ObjectInfo.key (ho.trans ho'.symm)
  · exact (Delimited.folders_nodup ..).map fun k k' h => congrArg ObjectInfo.key h
  · intro i hi hi'
    have ⟨k, hk, he⟩ := List.mem_filterMap.mp hi
    have ⟨o, _, ho⟩ := Option.map_eq_some_iff.mp he
    have ⟨k', hk', he'⟩ := List.mem_map.mp hi'
    have hkk : k' = k := congrArg ObjectInfo.key (he'.trans ho.symm)
    exact Delimited.folders_files_disjoint hk' (hkk ▸ hk)

theorem object_file (k : Str) (o : Stored) : object rfc3339 (o.info k) = fileRow rfc3339 k o := by
  simp [fileRow, object, Stored.info, o.tagged]

theorem object_folder {k u : Str} (h : k = pre ++ u ++ [slash]) : object rfc3339 (folderInfo k) = folderRow k := by
  have hs : Str.hasSuffix k (str "/") := List.isSuffixOf_iff_suffix.mpr ⟨pre ++ u, h.symm⟩
  simp [object, folderInfo, folderRow, hs]

theorem mem_rowsOf {x : S3Object} : x ∈ rowsOf rfc3339 b pre ↔
    (∃ k o, b.lookup k = some o ∧ k ∈ Delimited.files slash pre b.keyList ∧ x = fileRow rfc3339 k o) ∨
    ∃ k ∈ Delimited.folders slash pre b.keyList, x = folderRow k := by
  simp only [rowsOf, sorted, List.mem_mergeSort, List.mem_map, mem_listing, or_and_right, exists_or]
  refine or_congr ⟨?_, ?_⟩ ⟨?_, ?_⟩
  · rintro ⟨_, ⟨k, o, ho, hk, rfl⟩, rfl⟩
    exact ⟨k, o, ho, hk, object_file k o⟩
  · rintro ⟨k, o, ho, hk, rfl⟩
    exact ⟨_, ⟨k, o, ho, hk, rfl⟩, object_file k o⟩
  · rintro ⟨_, ⟨k, hk, rfl⟩, rfl⟩
    have ⟨_, _, _, hu, _⟩ := Delimited.mem_folders.mp hk
    exact ⟨k, hk, object_folder hu⟩
  · rintro ⟨k, hk, rfl⟩
    have ⟨_, _, _, hu, _⟩ := Delimited.mem_folders.mp hk
    exact ⟨_, ⟨k, hk, rfl⟩, object_folder hu⟩

theorem rows_ordered (b : Bucket) (pre : Str) : (rowsOf rfc3339 b pre).Pairwise fun x y => less x y := by
  have hn : ((listing b pre).map (object rfc3339)).Nodup := by
    refine List.Nodup.map_on (fun i hi j hj h => ?_) (listing_nodup b pre)
    exact listing_inj hi hj (congrArg S3Object.key h)
  have hs := List.pairwise_mergeSort preorder.trans preorder.total ((listing b pre).map (object rfc3339))
  refine ((hs.and ((List.mergeSort_perm ..).nodup_iff.mpr hn)).imp_of_mem ?_)
  intro x y hx hy ⟨hxy, hne⟩
  by_contra hl
  have hyx : (!less x y) = true := by simpa using hl
  exact hne (rows_inj (List.mem_mergeSort.mp hx) (List.mem_mergeSort.mp hy) (key_of_tie hxy hyx).left)

theorem shows_rows (hp : Delimited.IsFolder slash pre) : Shows rfc3339 b pre (rowsOf rfc3339 b pre) where
  ordered := rows_ordered b pre
  mem_iff := by
    intro x
    rw [mem_rowsOf]
    refine or_congr ?_ ⟨?_, ?_⟩
    · refine exists_congr fun k => exists_congr fun o => and_congr_right fun ho => and_congr_left fun _ => ?_
      rw [Delimited.mem_files_iff hp, Map.mem_keyList, ho]
      exact and_iff_right rfl
    · rintro ⟨k, hk, rfl⟩
      have ⟨u, t, hu, he, hm⟩ := Delimited.mem_folders.mp hk
      exact ⟨k, u, t, hu, he, Map.mem_keyList.mp hm, rfl⟩
    · rintro ⟨k, u, t, hu, he, hm, rfl⟩
      exact ⟨k, Delimited.mem_folders.mpr ⟨u, t, hu, he, Map.mem_keyList.mpr hm⟩, rfl⟩

theorem reads_list : Reads (among P befall) (Faulty P)
    (placeIn lib w ns name bucket >>= fun pl => .ok (rowsOf rfc3339 pl.contents pre))
    (s3List lib rfc3339 ns name bucket pre) w := by
  rw [placeIn, s3List, bind_assoc]
  refine reads_client.seq fun c _ => ?_
  rw [bind_assoc]
  refine reads_bucketName.seq fun n _ f => ?_
  cases ho : f.val.outage
  case some e =>
    simp only [among, befall, ho, effect, ite_self]
    exact ⟨rfl, .inr ⟨⟨f.val, f.property, by simp [ho]⟩, e, rfl⟩⟩
  case none   =>
    simp only [among, befall, ho, effect, found, contentsIn]
    cases w.stores c.host n
    case none   => exact ⟨rfl, .inl rfl⟩
    case some b => exact ⟨rfl, .inl (congrArg Except.ok (sorted_pages (f.val.perm _)))⟩

theorem reads_download {key : Str} : Reads (among P befall) (Faulty P)
    (placeIn lib w ns name bucket >>= fun pl => (pl.contents.lookup key).elim (.error errNoSuchKey) .ok)
    (s3Download lib ns name bucket key) w := by
  rw [placeIn, s3Download, bind_assoc]
  refine reads_client.seq fun c _ => ?_
  rw [bind_assoc]
  refine reads_bucketName.seq fun n _ => reads_perform (fun _ => rfl) fun f => ?_
  simp only [found, contentsIn]
  cases w.stores c.host n <;> rfl

-- A write takes place where there is a place for it. It may take place all the same where it is said to have failed.
def Writes (Fails : Prop) (w : World) (t : Except Error Place) (change : Place → World → Prop) (r : Except ε α)
    (w' : World) : Prop :=
  (∃ pl a, t = .ok pl ∧ change pl w' ∧ Gives Fails (.ok a) r) ∨
  w' = w ∧ (∃ e, r = .error e) ∧ (Fails ∨ ∃ e, t = .error e)

theorem writes_placed {change : Place → World → Prop} (k : Client → Str → Call α)
    (hk : ∀ c n, Prog.Always (among P befall) (fun r w' => Writes (Faulty P) w (contentsIn w c.host n) change r w')
      (k c n : Prog ops (Except Error α)) w) :
    Prog.Always (among P befall) (fun r w' => Writes (Faulty P) w (placeIn lib w ns name bucket) change r w')
      (s3Client lib ns name >>= fun c => bucketOrDefault ns name bucket >>= fun n => k c n : Call α) w := by
  refine reads_client.bind (fun c hc => reads_bucketName.bind (fun n hn => ?_) fun e he => ?_) fun e he => ?_
  · have hp : placeIn lib w ns name bucket = contentsIn w c.host n := by
      rw [placeIn, hc, hn]
      rfl
    rw [hp]
    exact hk c n
  · refine .inr ⟨rfl, ⟨e, rfl⟩, he.symm.imp_right fun he => ⟨e, ?_⟩⟩
    rw [placeIn, hc]
    exact congrArg (· >>= _) he
  · refine .inr ⟨rfl, ⟨e, rfl⟩, he.symm.imp_right fun he => ⟨e, ?_⟩⟩
    rw [placeIn, he]
    rfl

def Puts (key body : Str) (w : World) (pl : Place) (w' : World) : Prop :=
  ∃ o : Stored, o.body = body ∧ w' = w.store pl.host pl.bucket (pl.contents.insert key o)

def Removes (key : Str) (w : World) (pl : Place) (w' : World) : Prop :=
  w' = w.store pl.host pl.bucket (pl.contents.erase key)

theorem writes_perform {op : Op} {c : Client} {n : Str} {change : Place → World → Prop}
    (hm : w.stores c.host n = none → ∀ f, effect f w op = w ∧ ∃ e, found f w op = .error e)
    (hs : ∀ b, w.stores c.host n = some b → ∀ f, change ⟨c.host, n, b⟩ (effect f w op) ∧ ∃ a, found f w op = .ok a) :
    Prog.Always (among P befall) (fun r w' => Writes (Faulty P) w (contentsIn w c.host n) change r w')
      (perform op : Prog ops (Except Error op.Answer)) w := by
  intro f
  have hf : ∀ e, f.val.outage = some e → Faulty P := fun e he => ⟨f.val, f.property, by simp [he]⟩
  cases hb : w.stores c.host n
  case none =>
    have ⟨he, e, hr⟩ := hm hb f.val
    have hc : contentsIn w c.host n = .error errNoSuchBucket := by rw [contentsIn, hb]; rfl
    rw [hc]
    cases ho : f.val.outage
    case none    =>
      simp only [among, befall, ho, he, hr]
      exact .inr ⟨rfl, ⟨e, rfl⟩, .inr ⟨_, rfl⟩⟩
    case some e' =>
      simp only [among, befall, ho, he, ite_self]
      exact .inr ⟨rfl, ⟨e', rfl⟩, .inl (hf e' ho)⟩
  case some b =>
    have ⟨hd, a, hr⟩ := hs b hb f.val
    have hc : contentsIn w c.host n = .ok ⟨c.host, n, b⟩ := by rw [contentsIn, hb]; rfl
    rw [hc]
    cases ho : f.val.outage
    case none    =>
      simp only [among, befall, ho, hr]
      exact .inl ⟨_, a, rfl, hd, .inl rfl⟩
    case some e' =>
      simp only [among, befall, ho]
      split
      case isTrue  => exact .inl ⟨_, a, rfl, hd, .inr ⟨hf e' ho, e', rfl⟩⟩
      case isFalse => exact .inr ⟨rfl, ⟨e', rfl⟩, .inl (hf e' ho)⟩

theorem writes_upload {key body contentType : Str} : Prog.Always (among P befall)
    (fun r w' => Writes (Faulty P) w (placeIn lib w ns name bucket) (Puts key body w) r w')
    (s3Upload lib ns name bucket key body contentType : Prog ops (Except Error Unit)) w := by
  refine writes_placed _ fun c n => writes_perform (fun hm f => ?_) fun b hs f => ?_
  · simp only [effect, found, hm]
    exact ⟨rfl, _, rfl⟩
  · simp only [effect, found, hs]
    exact ⟨⟨_, rfl, rfl⟩, (), rfl⟩

theorem writes_delete {key : Str} : Prog.Always (among P befall)
    (fun r w' => Writes (Faulty P) w (placeIn lib w ns name bucket) (Removes key w) r w')
    (s3Delete lib ns name bucket key : Prog ops (Except Error Unit)) w := by
  refine writes_placed _ fun c n => writes_perform (fun hm f => ?_) fun b hs f => ?_
  · simp only [effect, found, hm]
    exact ⟨rfl, _, rfl⟩
  · simp only [effect, found, hs]
    exact ⟨rfl, (), rfl⟩

-- What the handlers make of a call.
section Handlers

theorem always_refuse {as : Error → Refusal} {p : Call α} {Q : Except Refusal α → World → Prop}
    (h : Prog.Always (among P befall) (fun r w' => Q (r.mapError as) w') (p : Prog ops (Except Error α)) w) :
    Prog.Always (among P befall) Q (refuse as p : Prog ops (Except Refusal α)) w := by
  rw [refuse, Prog.always_bind]
  exact h

theorem reads_refuse {as : Error → Refusal} {p : Call α} {t : Except Error α}
    (h : Reads (among P befall) (Faulty P) t p w) :
    Reads (among P befall) (Faulty P) (t.mapError as) (refuse as p) w :=
  always_refuse (h.mono fun _ _ hr => ⟨hr.left, hr.right.mapError as⟩)

theorem Writes.mapError {Fails : Prop} {t : Except Error Place} {change : Place → World → Prop} {r : Except Error α}
    {w' : World} (h : Writes Fails w t change r w') (as : Error → Refusal) : Writes Fails w t change (r.mapError as) w' := by
  rcases h with ⟨pl, a, ht, hc, hr⟩ | ⟨hw, ⟨e, rfl⟩, hf⟩
  · exact .inl ⟨pl, a, ht, hc, hr.mapError as⟩
  · exact .inr ⟨hw, ⟨as e, rfl⟩, hf⟩

theorem reads_service : Reads (among P befall) (Faulty P) (.ok ()) service w := by
  have h : Reads (among P befall) (Faulty P) (.ok ()) (perform .clients) w :=
    reads_perform (fun _ => rfl) fun _ => rfl
  exact reads_refuse h

variable {query : Str}

theorem reads_listObjects : Reads (among P befall) (Faulty P)
    ((placeIn lib w ns name (queryGet query (str "bucket")) >>= fun pl =>
      .ok (rowsOf rfc3339 pl.contents (queryGet query (str "prefix")))).mapError .badGateway)
    (listS3Objects lib rfc3339 ns name query) w :=
  reads_service.seq fun _ _ => reads_refuse reads_list

theorem writes_keyed {change : Place → World → Prop} (k : Str → Call α) (hq : queryGet query (str "key") ≠ [])
    (hk : Prog.Always (among P befall)
      (fun r w' => Writes (Faulty P) w (placeIn lib w ns name bucket) change r w')
      (k (queryGet query (str "key")) : Prog ops (Except Error α)) w) :
    Prog.Always (among P befall)
      (fun r w' => Writes (Faulty P) w (placeIn lib w ns name bucket) change r w')
      (service >>= fun _ => ExceptT.mk (pure (keyOf query)) >>= fun key => refuse .badGateway (k key) : Reply α) w := by
  refine reads_service.bind (fun _ _ => ?_) fun e he => .inr ⟨rfl, ⟨e, rfl⟩, .inl (he.resolve_left (fun h => by cases h))⟩
  have ho : keyOf query = .ok (queryGet query (str "key")) := if_neg hq
  rw [ho]
  exact always_refuse (hk.mono fun _ _ hr => hr.mapError _)

theorem reads_downloadObject {key : Str} {o : Stored} {pl : Place} (hk : queryGet query (str "key") = key ∧ key ≠ [])
    (hb : queryGet query (str "bucket") = bucket) (hp : placeIn lib w ns name bucket = .ok pl)
    (ho : pl.contents.lookup key = some o) :
    Reads (among P befall) (Faulty P) (.ok o) (downloadS3Object lib ns name query) w := by
  obtain ⟨rfl, hk⟩ := hk
  subst hb
  refine reads_service.bind (fun _ _ => ?_) fun e he => ⟨rfl, .inr ⟨he.resolve_left (fun h => by cases h), e, rfl⟩⟩
  have hq : keyOf query = .ok (queryGet query (str "key")) := if_neg hk
  rw [hq]
  have h : Reads (among P befall) (Faulty P) _
      (s3Download lib ns name (queryGet query (str "bucket")) (queryGet query (str "key"))) w := reads_download
  rw [hp] at h
  change Reads _ _ (Option.elim (pl.contents.lookup _) _ _) _ _ at h
  rw [ho] at h
  exact reads_refuse h

end Handlers

theorem store_store (w : World) (host bucket : Str) (b b' : Bucket) :
    (w.store host bucket b).store host bucket b' = w.store host bucket b' := by
  rw [World.store, World.store, World.store]
  congr 1
  funext h n
  simp only
  split <;> rfl

-- Where a place is, it stays when its contents change.
theorem placeIn_store {pl : Place} (h : placeIn lib w ns name bucket = .ok pl) (b : Bucket) :
    placeIn lib (w.store pl.host pl.bucket b) ns name bucket = .ok { pl with contents := b } := by
  unfold placeIn at h ⊢
  change (clientIn lib w ns name >>= _) = _ at h
  change (clientIn lib w ns name >>= _) = _
  cases hc : clientIn lib w ns name
  case error e => rw [hc] at h; cases h
  case ok c    =>
    rw [hc] at h
    change (bucketNameIn w ns name bucket >>= _) = _ at h
    change (bucketNameIn w ns name bucket >>= _) = _
    cases hn : bucketNameIn w ns name bucket
    case error e => rw [hn] at h; cases h
    case ok n    =>
      rw [hn] at h
      change contentsIn w c.host n = _ at h
      change contentsIn _ c.host n = _
      unfold contentsIn at h ⊢
      cases hs : w.stores c.host n
      case none   => rw [hs] at h; cases h
      case some o =>
        rw [hs] at h
        cases h
        simp [World.store]
end Specs
end AiStorage.S3

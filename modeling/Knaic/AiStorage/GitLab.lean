import Knaic.Effects.Prog
import Knaic.Go.Query
import Knaic.Go.Strconv
import Knaic.Go.Utf8

open Go Effects

namespace AiStorage

-- What is read of a body, and the error that it ends with if it breaks off.
structure Stream where
  bytes : Str
  err   : Option Error

namespace GitLab

-- What is committed to a branch of a project.
structure Commit where
  branch  : Str
  message : Str
  content : Str

structure LfsBatchReq where
  operation : String
  transfers : List String
  oid       : Str
  size      : Int

-- A link that the LFS server gives out, by the object that it is for.
structure LfsAction where
  oid : Str

structure LfsError where
  code    : Nat
  message : Str

structure LfsObject where
  oid      : Str
  size     : Int
  download : Option LfsAction
  upload   : Option LfsAction
  verify   : Option LfsAction
  error    : Option LfsError

-- The file that a path is answered with, and the header with its length.
structure RawFile where
  body          : Stream
  contentLength : Str

structure LfsResponse where
  statusCode : Nat
  body       : Stream

-- The requests about one project. The path of a file is one escaped segment of a URL, and its query is
-- as it is written. A request that is answered with a code from 400 on has failed, except behind the
-- links of the LFS server.
inductive Op
  | client
  | rawFile (path query : Str)
  | createFile (path : Str) (c : Commit)
  | updateFile (path : Str) (c : Commit)
  | project
  | batch (repo : Str) (req : LfsBatchReq)
  | download (act : LfsAction)
  | upload (act : LfsAction) (content : Str)
  | verify (act : LfsAction) (oid : Str) (size : Int)

abbrev ops : Signature where
  Op := Op
  Res
    | .client         => Except Error Unit
    | .rawFile _ _    => Except Error RawFile
    | .createFile _ _ => Except Error Unit
    | .updateFile _ _ => Except Error Unit
    | .project        => Except Error Str
    | .batch _ _      => Except Error (List LfsObject)
    | .download _     => Except Error LfsResponse
    | .upload _ _     => Except Error LfsResponse
    | .verify _ _ _   => Except Error LfsResponse

abbrev Call :=
  Effects.Call ops Error

def perform (op : Op) : Prog ops (ops.Res op) :=
  @Prog.perform ops op

def gitlabClient : Call Unit :=
  perform .client

def rawFile (path query : Str) : Call RawFile :=
  perform (.rawFile path query)

def createFile (path : Str) (c : Commit) : Call Unit :=
  perform (.createFile path c)

def updateFile (path : Str) (c : Commit) : Call Unit :=
  perform (.updateFile path c)

def attributes : Str :=
  str ".gitattributes"

def pointerVersion : Str :=
  str "version https://git-lfs.github.com/spec/v1"

def pointerProbe : Nat :=
  200

-- 64 KiB.
def attributesLimit : Nat :=
  65536

-- Created or, if that fails, updated. If both fail, the first error is the one that counts.
def commitFile (branch path msg content : Str) : Call Unit := do
  let c : Commit := { branch := branch, message := msg, content := content }
  let created ← ExceptT.lift (createFile path c : Prog ops (Except Error Unit))
  match created with
  | .ok ()     => return
  | .error err =>
    let updated ← ExceptT.lift (updateFile path c : Prog ops (Except Error Unit))
    match updated with
    | .ok ()   => return
    | .error _ => throw err

def projectPath : Call Str := do
  let path ← (perform .project : Call Str)
  if path = [] then
    throw (.new "project has no path_with_namespace")
  else
    return path

def lfsBatch (operation : String) (oid : Str) (size : Int) : Call (List LfsObject) := do
  let pathWithNs ← projectPath
  perform (.batch (str "/" ++ pathWithNs ++ str ".git/info/lfs/objects/batch") {
    operation := operation
    transfers := ["basic"]
    oid       := oid
    size      := size
  })

def refused (context : String) (res : LfsResponse) : Error :=
  .errorf (context ++ ": %s — %s") [decimal res.statusCode, res.body.bytes.take 1024]

def lfsDownload (oid : Str) (size : Int) : Call (Stream × Int) := do
  let objects ← lfsBatch "download" oid size
  match objects.head?.bind LfsObject.download with
  | none     => throw (.new "LFS batch returned no download action")
  | some act =>
    let res ← (perform (.download act) : Call LfsResponse)
    if 400 ≤ res.statusCode then
      throw (refused "LFS download" res)
    else
      return (res.body, size)

def lfsUpload (oid : Str) (size : Int) (content : Str) : Call Unit := do
  let objects ← lfsBatch "upload" oid size
  match objects with
  | []       => throw (.new "LFS batch returned no objects")
  | obj :: _ =>
    match obj.error, obj.upload with
    | some err, _        => throw (.errorf "LFS batch error %d: %s" [decimal err.code, err.message])
    | none, none         => return
    | none, some upload  =>
      let res ← (perform (.upload upload content) : Call LfsResponse)
      if 400 ≤ res.statusCode then
        throw (refused "LFS upload" res)
      else
        match obj.verify with
        | none        => return
        | some verify =>
          -- The answer is closed unread.
          let _ ← (perform (.verify verify oid size) : Call LfsResponse)
          return

def isLFSPointer (b : Str) : Bool :=
  b.hasPrefix pointerVersion

def parseLine (acc : Str × Int) (line : Str) : Except Error (Str × Int) :=
  if line.hasPrefix (str "oid sha256:") then
    .ok (line.trimPrefix (str "oid sha256:"), acc.2)
  else if line.hasPrefix (str "size ") then
    match Strconv.parseInt (line.trimPrefix (str "size ")) with
    | (v, none)     => .ok (acc.1, v)
    | (_, some err) => .error err
  else
    .ok acc

def parseLFSPointer (b : Str) : Except Error (Str × Int) := do
  let p ← (b.splitOn 10).foldlM parseLine ([], 0)
  if p.1 = [] ∨ p.2 = 0 then
    throw (.new "not a valid LFS pointer")
  else
    return p

def buildLFSPointer (oid : Str) (size : Int) : Str :=
  pointerVersion ++ str "\noid sha256:" ++ oid ++ str "\nsize " ++ Strconv.itoa size ++ str "\n"

-- Whether the line already says of the path that it is kept with LFS.
def tracks (pat line : Str) : Bool :=
  (Utf8.fields (Utf8.trimSpace line)).head? = some pat && line.hasInfix (str "filter=lfs")

def tracked (pat existing : Str) : Bool :=
  (existing.splitOn 10).any (tracks pat)

def withNewline (b : Str) : Str :=
  if b ≠ [] ∧ b.getLast? ≠ some 10 then b ++ [10] else b

def updated (existing pat : Str) : Str :=
  withNewline existing ++ pat ++ str " filter=lfs diff=lfs merge=lfs -text\n"

def ensureLFSPattern (branch path : Str) : Call Unit := do
  let resp ← ExceptT.lift (rawFile attributes (str "ref=" ++ branch) : Prog ops (Except Error RawFile))
  let commit (existing : Str) : Call Unit :=
    commitFile branch attributes (str "Mark " ++ path ++ str " as LFS via knaic AI Storage") (updated existing path)
  match resp with
  | .error _ => commit []
  | .ok f    =>
    let existing := f.body.bytes.take attributesLimit
    if tracked path existing then return else commit existing

-- `GitLabDownload` for a project that is given.
def gitLabDownload (path ref : Str) : Call (Stream × Int) := do
  gitlabClient
  let resp ← rawFile path (Url.encodeValues [(str "ref", if ref ≠ [] then ref else str "HEAD")])
  let head := resp.body.bytes.take pointerProbe
  if isLFSPointer head then
    let p ← ExceptT.mk (pure ((parseLFSPointer head).mapError (.wrap "parse LFS pointer")))
    lfsDownload p.1 p.2
  else
    match Strconv.parseInt resp.contentLength with
    | (v, none)   => return (resp.body, v)
    | (_, some _) => return (resp.body, -1)

def defaultBranch (branch : Str) : Str :=
  if branch = [] then str "main" else branch

-- `GitLabUpload` of a body that is read as a whole, with the hash that names LFS objects.
def gitLabUpload (sha256 : Str → Vector UInt8 32) (path branch commitMsg : Str) (body : Except Error Str)
    (markAsLFS : Bool) : Call Unit := do
  gitlabClient
  let commitMsg := if commitMsg = [] then str "Upload " ++ path ++ str " via knaic AI Storage" else commitMsg
  let branch := defaultBranch branch
  let buf ← ExceptT.mk (pure body)
  if markAsLFS then
    let oidHex := hex (sha256 buf).toList
    lfsUpload oidHex buf.length buf
    commitFile branch path commitMsg (buildLFSPointer oidHex buf.length)
    ensureLFSPattern branch path
  else
    commitFile branch path commitMsg buf

-- What GitLab keeps: the files by branch and path, the objects behind the LFS links, and how many
-- commits it has made.
structure World where
  files   : Str → Str → Option Str
  objects : Str → Option Str
  commits : Nat

-- How a request goes: whether it fails, and takes effect all the same, where a body breaks off, and what
-- GitLab says beside what it keeps.
structure Draw where
  failure : Option Error
  takes   : Bool
  cut     : Option Nat
  status  : Nat
  repo    : Str
  bare    : Bool
  refusal : Option LfsError
  verify  : Bool

namespace Draw

variable (d : Draw)

def outcome : Except Error Unit :=
  match d.failure with
  | none     => .ok ()
  | some err => .error err

def stream (b : Str) : Stream :=
  match d.cut with
  | none   => ⟨b, none⟩
  | some n => ⟨b.take n, some (.foreign (str "unexpected EOF"))⟩

-- Whether a request that asks for a change brings it about.
def effective : Bool :=
  d.failure.isNone || d.takes

end Draw

namespace World

variable (w : World)

def put (branch path content : Str) : World :=
  { w with
    files   := Function.update w.files branch (Function.update (w.files branch) path (some content))
    commits := w.commits + 1 }

def commit (d : Draw) (branch path content : Str) : Except Error Unit × World :=
  (d.outcome, if d.effective then w.put branch path content else w)

-- The links for an object, by whether it is there.
def object (d : Draw) (req : LfsBatchReq) : LfsObject where
  oid      := req.oid
  size     := req.size
  download := if (w.objects req.oid).isSome then some ⟨req.oid⟩ else none
  upload   := if (w.objects req.oid).isSome then none else some ⟨req.oid⟩
  verify   := if d.verify then some ⟨req.oid⟩ else none
  error    := d.refusal

end World

-- A text in JSON is read as far as it is one. How a query is read, if it is accepted, is up to GitLab.
def answer (refOf : Str → Option Str) (op : ops.Op) (d : Draw) (w : World) : ops.Res op × World :=
  match op with
  | .client              => (d.outcome, w)
  | .rawFile path query  =>
    match d.failure, refOf query with
    | some err, _       => (.error err, w)
    | none, none        => (.error (.foreign (str "400 Bad Request")), w)
    | none, some branch =>
      match w.files branch path with
      | none   => (.error (.foreign (str "404 Not Found")), w)
      | some b => (.ok ⟨d.stream b, decimal b.length⟩, w)
  | .createFile path c   =>
    if (w.files (Utf8.toValid c.branch) path).isSome then
      (.error (.foreign (str "400 Bad Request")), w)
    else
      w.commit d (Utf8.toValid c.branch) path c.content
  | .updateFile path c   =>
    if (w.files (Utf8.toValid c.branch) path).isNone then
      (.error (.foreign (str "400 Bad Request")), w)
    else
      w.commit d (Utf8.toValid c.branch) path c.content
  | .project             => (d.outcome.map fun _ => d.repo, w)
  | .batch _ req         => (d.outcome.map fun _ => if d.bare then [] else [w.object d req], w)
  | .download act        =>
    match d.failure, w.objects act.oid with
    | some err, _  => (.error err, w)
    | none, none   => (.ok ⟨404, ⟨[], none⟩⟩, w)
    | none, some b => (.ok ⟨d.status, d.stream b⟩, w)
  | .upload act content  =>
    let stored := { w with objects := Function.update w.objects act.oid (some content) }
    match d.failure with
    | some err => (.error err, if d.takes then stored else w)
    | none     => (.ok ⟨d.status, ⟨[], none⟩⟩, if 400 ≤ d.status then w else stored)
  | .verify _ _ _        => (d.outcome.map fun _ => ⟨d.status, ⟨[], none⟩⟩, w)

-- A query as it is commonly read, up to a fragment and by its first entry for the ref.
def refOfQuery (query : Str) : Option Str :=
  ((Url.parseQuery (query.takeWhile (· ≠ Url.hash))).find? fun e => e.1 = str "ref").map Prod.snd

-- A request that succeeds, with the whole body.
def fine : Draw where
  failure := none
  takes   := false
  cut     := none
  status  := 200
  repo    := str "ml/models"
  bare    := false
  refusal := none
  verify  := false

-- Whether GitLab makes no commit when a file is created or updated with these draws.
def Refused (w : World) (branch path : Str) (create update : Draw) : Prop :=
  match w.files (Utf8.toValid branch) path with
  | none   => create.effective = false
  | some _ => update.effective = false

instance (w : World) (branch path : Str) (create update : Draw) :
    Decidable (Refused w branch path create update) := by
  unfold Refused
  split <;> infer_instance

section Commit

variable {refOf : Str → Option Str} {w : World} {branch path msg content : Str} {d : Nat → Draw}

@[simp]
theorem put_files (w : World) (branch path content : Str) :
    (w.put branch path content).files branch path = some content := by
  simp [World.put]

theorem put_files_ne {path' : Str} (h : path' ≠ path) (w : World) (branch content branch' : Str) :
    (w.put branch path content).files branch' path' = w.files branch' path' := by
  by_cases hb : branch' = branch
  case pos => subst hb; simp [World.put, Function.update_of_ne h]
  case neg => simp [World.put, Function.update_of_ne hb]

theorem commitFile_eq : (commitFile branch path msg content : Prog ops (Except Error Unit)) =
    .call (.createFile path ⟨branch, msg, content⟩) fun
      | .ok ()     => .ret (.ok ())
      | .error err => .call (.updateFile path ⟨branch, msg, content⟩) fun
        | .ok ()   => .ret (.ok ())
        | .error _ => .ret (.error err) := by
  refine congrArg (Prog.call _) (funext fun created => ?_)
  cases created
  case ok      => rfl
  case error e =>
    refine congrArg (Prog.call _) (funext fun updated => ?_)
    cases updated <;> rfl

-- How a commit ends, by whether there is the file before.
theorem commitFile_some (hf : (w.files (Utf8.toValid branch) path).isSome) :
    (commitFile branch path msg content).play (answer refOf) d w =
      (match (d 1).failure with
        | none   => .ok ()
        | some _ => .error (.foreign (str "400 Bad Request")),
      if (d 1).effective then w.put (Utf8.toValid branch) path content else w) := by
  have hn : (w.files (Utf8.toValid branch) path).isNone = false := by simpa using hf
  rw [commitFile_eq]
  simp only [Prog.play, answer, hf, hn, if_true, World.commit, Draw.outcome]
  cases (d 1).failure <;> rfl

theorem commitFile_none (hf : (w.files (Utf8.toValid branch) path).isNone) :
    (commitFile branch path msg content).play (answer refOf) d w =
      match (d 0).failure with
      | none     => (.ok (), w.put (Utf8.toValid branch) path content)
      | some err =>
        if (d 0).takes then
          (match (d 1).failure with
            | none   => .ok ()
            | some _ => .error err,
          if (d 1).effective then
            (w.put (Utf8.toValid branch) path content).put (Utf8.toValid branch) path content
          else w.put (Utf8.toValid branch) path content)
        else (.error err, w) := by
  have hs : (w.files (Utf8.toValid branch) path).isSome = false := by simpa using hf
  rw [commitFile_eq]
  cases hd : (d 0).failure
  case none     => simp [Prog.play, answer, hs, World.commit, Draw.outcome, Draw.effective, hd]
  case some err =>
    cases ht : (d 0).takes
    case false => simp [Prog.play, answer, hs, hf, World.commit, Draw.outcome, Draw.effective, hd, ht]
    case true  =>
      cases he : (d 1).failure <;>
        simp [Prog.play, answer, hs, World.commit, Draw.outcome, Draw.effective, hd, ht, he]

theorem commitFile_ok (h : ((commitFile branch path msg content).play (answer refOf) d w).1 = .ok ()) :
    ((commitFile branch path msg content).play (answer refOf) d w).2.files (Utf8.toValid branch) path =
      some content := by
  cases hf : w.files (Utf8.toValid branch) path
  case some =>
    rw [commitFile_some (by simp [hf])] at h ⊢
    cases he : (d 1).failure
    case none   => simp [Draw.effective, he]
    case some e => simp [he] at h
  case none =>
    rw [commitFile_none (by simp [hf])] at h ⊢
    cases hd : (d 0).failure
    case none     => simp
    case some err =>
      cases ht : (d 0).takes
      case false => simp [hd, ht] at h
      case true  => cases he : (d 1).effective <;> simp

-- A commit is made unless it is refused.
theorem commitFile_commits :
    ((commitFile branch path msg content).play (answer refOf) d w).2.commits = w.commits ↔
      Refused w branch path (d 0) (d 1) := by
  unfold Refused
  cases hf : w.files (Utf8.toValid branch) path
  case some =>
    rw [commitFile_some (by simp [hf])]
    cases he : (d 1).effective <;> simp [World.put]
  case none =>
    rw [commitFile_none (by simp [hf])]
    cases hd : (d 0).failure
    case none     => simp [World.put, Draw.effective, hd]
    case some err =>
      cases ht : (d 0).takes
      case false => simp [Draw.effective, hd, ht]
      case true  =>
        have hne : w.commits + 1 + 1 ≠ w.commits := by omega
        cases he : (d 1).effective <;> simp [World.put, Draw.effective, hd, ht, hne]

theorem commitFile_refused (h : Refused w branch path (d 0) (d 1)) :
    ((commitFile branch path msg content).play (answer refOf) d w).2 = w := by
  unfold Refused at h
  cases hf : w.files (Utf8.toValid branch) path
  case some =>
    rw [hf] at h
    rw [commitFile_some (by simp [hf])]
    simp only [h]
    rfl
  case none =>
    rw [hf] at h
    rw [commitFile_none (by simp [hf])]
    have ⟨hd, ht⟩ := Bool.or_eq_false_iff.mp h
    cases hd' : (d 0).failure
    case none => simp [hd'] at hd
    case some => simp [ht]

end Commit
end GitLab
end AiStorage

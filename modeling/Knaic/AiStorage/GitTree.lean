import Knaic.AiStorage.LfsPatterns
import Knaic.Effects.Reads

open Go Effects

namespace AiStorage.GitTree

open GitLab LfsPatterns

structure GitLabProject where
  id            : Int
  pathWithNs    : Str
  defaultBranch : Str
  webURL        : Str
  lfsEnabled    : Bool

structure GitLabTreeEntry where
  name  : Str
  path  : Str
  type  : Str
  mode  : Str
  isLFS : Bool
  size  : Int

-- An entry as the REST API gives it.
structure TreeNode where
  name : Str
  path : Str
  type : Str
  mode : Str

-- The requests for lists. A value that is empty is not part of the query, and without a number it is the
-- first page that is asked for.
inductive ListOp
  | tree (path ref : Option Str) (perPage : Nat) (page : Option Nat)
  | projects (perPage page : Nat)

abbrev listing : Signature where
  Op := ListOp
  Res
    | .tree _ _ _ _ => Except Error (List TreeNode)
    | .projects _ _ => Except Error (List GitLabProject)

abbrev Listed :=
  Effects.Call (ops.extend listing) Error

def nonempty (s : Str) : Option Str :=
  if s = [] then none else some s

def entryOf (lfsPatterns : List Str) (e : TreeNode) : GitLabTreeEntry where
  name  := e.name
  path  := e.path
  type  := e.type
  mode  := e.mode
  isLFS := e.type = str "blob" && lfsPatterns.any (matchLFSPattern · e.path)
  size  := 0

def treeLess (a b : GitLabTreeEntry) : Bool :=
  if a.type ≠ b.type then a.type = str "tree" else a.name < b.name

def treePage (path ref : Option Str) : Listed (List TreeNode) :=
  @Prog.extra ops listing (.tree path ref 100 none)

def gitLabListTree (path ref : Str) : Listed (List GitLabTreeEntry) := do
  gitlabClient.lift
  let batch ← treePage (nonempty path) (nonempty ref)
  let lfsPatterns ← ExceptT.lift (Prog.lift (fetchLFSPatterns ref))
  return (batch.map (entryOf lfsPatterns)).insertionSort fun a b => !treeLess b a

def maxPages : Nat :=
  50

def projectPage (page : Nat) : Listed (List GitLabProject) :=
  @Prog.extra ops listing (.projects 100 page)

def gitLabListProjects : Listed (List GitLabProject) := do
  gitlabClient.lift
  let out ← collect projectPage 100 maxPages 1 []
  return out.insertionSort fun a b => !(b.pathWithNs < a.pathWithNs : Bool)

-- A directory has directories, files, and other repositories at one of their commits.
inductive Kind
  | tree
  | blob
  | commit
deriving DecidableEq

def Kind.text : Kind → Str
  | tree   => str "tree"
  | blob   => str "blob"
  | commit => str "commit"

theorem Kind.text_inj {a b : Kind} (h : a.text = b.text) : a = b := by
  revert h
  cases a <;> cases b <;> decide

structure Entry where
  name    : Str
  path    : Str
  kind    : Kind
  mode    : Str
  lfsOid  : Option Str
  rawSize : Option Str

-- What GitLab has to list: the directories by ref, where the empty one is the default branch, and the
-- projects that a token reaches.
structure Repo where
  tree     : Str → Str → Option (List Entry)
  projects : List GitLabProject

def Entry.node (e : Entry) : TreeNode where
  name := e.name
  path := e.path
  type := e.kind.text
  mode := e.mode

-- What is to be the same in all listings.
def Entry.key (e : Entry) : Str × Str × Str :=
  (e.name, e.path, e.kind.text)

def GitLabTreeEntry.key (e : GitLabTreeEntry) : Str × Str × Str :=
  (e.name, e.path, e.type)

-- No page has more than a hundred entries.
def pageLimit : Nat :=
  100

def served {α : Type} (perPage page : Nat) (l : List α) : List α :=
  pageOf (min perPage pageLimit) page l

def listingAnswer (r : Repo) (op : listing.Op) (d : Draw) : listing.Res op :=
  match op with
  | .tree path ref perPage page =>
    match d.failure, r.tree (ref.getD []) (path.getD []) with
    | some err, _    => .error err
    | none, none     => .error (.foreign (str "404 Not Found"))
    | none, some dir => .ok ((served perPage (page.getD 1) dir).map Entry.node)
  | .projects perPage page      => d.outcome.map fun _ => served perPage page r.projects

def answerAll (refOf : Str → Option Str) (r : Repo) (op : (ops.extend listing).Op) (d : Draw) (w : World) :
    (ops.extend listing).Res op × World :=
  match op with
  | .inl op => answer refOf op d w
  | .inr op => (listingAnswer r op d, w)

section Tree

variable {refOf : Str → Option Str} {r : Repo} {w : World} {path ref : Str} {dir : List Entry}

theorem getD_nonempty (s : Str) : (nonempty s).getD [] = s := by
  unfold nonempty
  split
  case isTrue h => simp [h]
  case isFalse  => rfl

theorem entryOf_key (patterns : List Str) (e : Entry) : (entryOf patterns e.node).key = e.key :=
  rfl

-- However GitLab is asked for the token's secret first, that leaves it as it is.
theorem client_always : Prog.Always (answerAll refOf r) (fun _ s => s = w)
    (gitlabClient.lift : Prog (ops.extend listing) (Except Error Unit)) w :=
  fun _ => rfl

theorem listingAnswer_tree (hd : r.tree ref path = some dir) (d : Draw) :
    listingAnswer r (.tree (nonempty path) (nonempty ref) 100 none) d =
      d.outcome.map fun _ => (dir.take pageLimit).map Entry.node := by
  simp only [listingAnswer, getD_nonempty, hd, Draw.outcome]
  cases d.failure <;> rfl

-- A listing has the entries of the first page.
theorem listTree_always (hd : r.tree ref path = some dir) : Prog.Always (answerAll refOf r)
    (fun a _ => ∀ out, a = .ok out → (out.map GitLabTreeEntry.key).Perm ((dir.take pageLimit).map Entry.key))
    (gitLabListTree path ref : Prog (ops.extend listing) (Except Error (List GitLabTreeEntry))) w := by
  rw [gitLabListTree, Call.always_seq]
  refine client_always.mono fun a w' h => ?_
  subst h
  cases a
  case error => exact fun _ h => by cases h
  case ok    =>
    simp only [Call.next]
    rw [Call.always_seq]
    intro d
    simp only [answerAll, listingAnswer_tree hd]
    cases d.outcome
    case error => exact fun _ h => by cases h
    case ok    =>
      simp only [Except.map, Prog.Always, Call.next]
      rw [Call.lift_bind, Prog.always_bind]
      refine Prog.always_of_forall _ fun patterns _ => ?_
      rintro out ⟨⟩
      have hperm := List.perm_insertionSort (fun a b => !treeLess b a)
        (((dir.take pageLimit).map Entry.node).map (entryOf patterns))
      refine (hperm.map _).trans ?_
      simp [Function.comp_def, entryOf_key]

theorem listTree_fine (w : World) (hd : r.tree ref path = some dir) :
    ∃ out, ((gitLabListTree path ref).play (answerAll refOf r) (fun _ => fine) w).1 = .ok out := by
  have hc : (gitlabClient.lift : Listed Unit).play (answerAll refOf r) (fun _ => fine) w = (.ok (), w) := rfl
  have ht : (treePage (nonempty path) (nonempty ref)).play (answerAll refOf r) (fun _ => fine) w =
      (.ok ((dir.take pageLimit).map Entry.node), w) :=
    congrArg (fun a => (a, w)) (listingAnswer_tree hd fine)
  rw [gitLabListTree, Call.bind_eq, Prog.play_bind_const, hc, Call.next, Call.bind_eq, Prog.play_bind_const, ht,
    Call.next, Call.lift_bind, Prog.play_bind_const]
  exact ⟨_, rfl⟩

end Tree
section Projects

variable {refOf : Str → Option Str} {r : Repo} {w : World}

theorem projectPage_always (page : Nat) : Prog.Always (answerAll refOf r)
    (fun a s => s = w ∧ ∀ b, a = .ok b → b = pageOf 100 page r.projects)
    (projectPage page : Prog (ops.extend listing) (Except Error (List GitLabProject))) w := by
  intro d
  refine ⟨rfl, fun b h => ?_⟩
  simp only [answerAll, listingAnswer] at h
  cases hd : d.outcome
  case error => simp [hd, Except.map] at h
  case ok    =>
    simp only [hd, Except.map, Except.ok.injEq] at h
    exact h.symm

-- The list of projects follows the pages, as far as it goes.
theorem listProjects_always : Prog.Always (answerAll refOf r)
    (fun a _ => ∀ out, a = .ok out → out.Perm (r.projects.take (maxPages * 100)))
    (gitLabListProjects : Prog (ops.extend listing) (Except Error (List GitLabProject))) w := by
  rw [gitLabListProjects, Call.always_seq]
  refine client_always.mono fun a w' h => ?_
  subst h
  cases a
  case error => exact fun _ h => by cases h
  case ok    =>
    simp only [Call.next]
    rw [Call.always_seq]
    refine (collect_always projectPage_always maxPages 1 (by decide) []).mono fun a s h => ?_
    cases a
    case error  => exact fun _ h => by cases h
    case ok out =>
      cases h.right out rfl
      rintro _ ⟨⟩
      exact List.perm_insertionSort ..

end Projects
end AiStorage.GitTree

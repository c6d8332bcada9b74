import Knaic.AiStorage.GitTree
import Knaic.Go.Float64

open Go Effects AiStorage AiStorage.GitTree

-- The directories of a project as the browser lists them, with one query for the entries and one for the
-- sizes.
namespace Console.GitTree

structure ApiError where
  status  : Nat
  message : Str

-- `data` is missing where the query could not be answered.
structure GraphQLResponse (α : Type) where
  data   : Option α
  errors : List Str

inductive RawSize
  | text (s : Str)
  | number (x : Float64)
  | null

structure BlobNode where
  name   : Str
  path   : Str
  mode   : Option Str
  lfsOid : Option Str

structure SubtreeNode where
  name : Str
  path : Str
  mode : Option Str

structure Tree where
  trees : List SubtreeNode
  blobs : List BlobNode

structure BlobSize where
  path    : Str
  rawSize : RawSize

-- The queries, each with its variables. A project, repository or tree that is null is no tree.
inductive Query
  | treeAtPath (projectPath path ref : Str)
  | blobSizes (projectPath : Str) (paths : List Str) (ref : Str)

abbrev graphQL : Signature where
  Op := Query
  Res
    | .treeAtPath _ _ _ => Except ApiError (GraphQLResponse (Option Tree))
    | .blobSizes _ _ _  => Except ApiError (GraphQLResponse (List BlobSize))

abbrev Request :=
  Effects.Call graphQL ApiError

structure GitLabTreeEntryDTO where
  name  : Str
  path  : Str
  type  : Str
  mode  : Option Str
  isLfs : Bool
  size  : Option Float64

def dataOf {α : Type} (res : GraphQLResponse α) : Except ApiError α :=
  if res.errors ≠ [] then .error ⟨0, (str "; ").intercalate res.errors⟩
  else
    match res.data with
    | none   => .error ⟨0, str "graphql: empty data"⟩
    | some a => .ok a

def gitlabGraphQL {α : Type} (q : Request (GraphQLResponse α)) : Request α := do
  let res ← q
  ExceptT.mk (pure (dataOf res))

def treeAtPath (projectPath path ref : Str) : Request (GraphQLResponse (Option Tree)) :=
  @Prog.perform graphQL (.treeAtPath projectPath path ref)

def blobSizes (projectPath : Str) (paths : List Str) (ref : Str) : Request (GraphQLResponse (List BlobSize)) :=
  @Prog.perform graphQL (.blobSizes projectPath paths ref)

def SubtreeNode.entry (t : SubtreeNode) : GitLabTreeEntryDTO where
  name  := t.name
  path  := t.path
  type  := str "tree"
  mode  := t.mode
  isLfs := false
  size  := none

def BlobNode.entry (b : BlobNode) : GitLabTreeEntryDTO where
  name  := b.name
  path  := b.path
  type  := str "blob"
  mode  := b.mode
  isLfs := b.lfsOid.any (· ≠ [])
  size  := none

def entries (tree : Tree) : List GitLabTreeEntryDTO :=
  tree.trees.map SubtreeNode.entry ++ tree.blobs.map BlobNode.entry

def isFinite (x : Float64) : Bool :=
  x.exponent ≠ 0x7ff

section Browser

-- `Number` of a text, and how two names compare where the browser is.
variable (number : Str → Float64) (localeCompare : Str → Str → Int)

def RawSize.value : RawSize → Option Float64
  | .text s   => some (number s)
  | .number x => some x
  | .null     => none

-- The last finite size that is given for a path.
def sizeMap (nodes : List BlobSize) (path : Str) : Option Float64 :=
  nodes.foldl (fun acc n => if n.path = path then ((n.rawSize.value number).filter isFinite).or acc else acc) none

def withSizes (nodes : List BlobSize) (e : GitLabTreeEntryDTO) : GitLabTreeEntryDTO :=
  if e.type = str "blob" then { e with size := sizeMap number nodes e.path } else e

def compare (a b : GitLabTreeEntryDTO) : Int :=
  if a.type ≠ b.type then (if a.type = str "tree" then -1 else 1) else localeCompare a.name b.name

def sized (projectPath ref : Str) (es : List GitLabTreeEntryDTO) : Prog graphQL (List GitLabTreeEntryDTO) := do
  let blobPaths := (es.filter fun e => e.type = str "blob").map GitLabTreeEntryDTO.path
  if blobPaths = [] then return es
  else
    let sizeData ← (gitlabGraphQL (blobSizes projectPath blobPaths ref) : Prog graphQL (Except ApiError _))
    match sizeData with
    | .error _  => return es
    | .ok nodes => return es.map (withSizes number nodes)

def listGitLabTreeViaGraphQL (projectPath path ref : Str) : Request (List GitLabTreeEntryDTO) := do
  let treeData ← gitlabGraphQL (treeAtPath projectPath path ref)
  match treeData with
  | none      => return []
  | some tree =>
    let es ← ExceptT.lift (sized number projectPath ref (entries tree))
    return es.insertionSort fun a b => compare localeCompare a b ≤ 0

end Browser

def GitLabTreeEntryDTO.key (e : GitLabTreeEntryDTO) : Str × Str × Str :=
  (e.name, e.path, e.type)

-- How a query goes: whether it fails on the way, and with what errors it comes back.
structure Draw where
  failure : Option ApiError
  errors  : List Str
  data    : Bool

def treeOf (dir : List Entry) : Tree where
  trees := (served pageLimit 1 (dir.filter (·.kind = .tree))).map fun e => ⟨e.name, e.path, none⟩
  blobs := (served pageLimit 1 (dir.filter (·.kind = .blob))).map fun e => ⟨e.name, e.path, some e.mode, e.lfsOid⟩

def sizesOf (files : List Entry) (paths : List Str) : List BlobSize :=
  (served pageLimit 1 (files.filter (·.path ∈ paths))).map fun e => ⟨e.path, (e.rawSize.map RawSize.text).getD .null⟩

-- GitLab answers with the first page of each list. All files of a ref are asked for their sizes by path.
def answer (r : Repo) (filesOf : Str → List Entry) (q : graphQL.Op) (d : Draw) (u : Unit) : graphQL.Res q × Unit :=
  match q with
  | .treeAtPath _ path ref =>
    match d.failure with
    | some err => (.error err, u)
    | none     => (.ok ⟨if d.data then some ((r.tree ref path).map treeOf) else none, d.errors⟩, u)
  | .blobSizes _ paths ref =>
    match d.failure with
    | some err => (.error err, u)
    | none     => (.ok ⟨if d.data then some (sizesOf (filesOf ref) paths) else none, d.errors⟩, u)

section Listing

variable {number : Str → Float64} {localeCompare : Str → Str → Int} {r : Repo} {filesOf : Str → List Entry}
         {projectPath path ref : Str} {dir : List Entry}

-- The entries that the first pages have.
def firstPages (dir : List Entry) : List Entry :=
  (dir.filter (·.kind = .tree)).take pageLimit ++ (dir.filter (·.kind = .blob)).take pageLimit

theorem served_first {α : Type} (l : List α) : served pageLimit 1 l = l.take pageLimit := by
  simp [served, pageOf]

theorem entries_key (dir : List Entry) :
    (entries (treeOf dir)).map GitLabTreeEntryDTO.key = (firstPages dir).map Entry.key := by
  have ht : ∀ e ∈ (dir.filter (·.kind = .tree)).take pageLimit,
      (SubtreeNode.entry ⟨e.name, e.path, none⟩).key = e.key := by
    intro e he
    have hk := List.of_mem_filter (List.mem_of_mem_take he)
    simp only [decide_eq_true_eq] at hk
    simp [GitLabTreeEntryDTO.key, Entry.key, SubtreeNode.entry, hk, Kind.text]
  have hb : ∀ e ∈ (dir.filter (·.kind = .blob)).take pageLimit,
      (BlobNode.entry ⟨e.name, e.path, some e.mode, e.lfsOid⟩).key = e.key := by
    intro e he
    have hk := List.of_mem_filter (List.mem_of_mem_take he)
    simp only [decide_eq_true_eq] at hk
    simp [GitLabTreeEntryDTO.key, Entry.key, BlobNode.entry, hk, Kind.text]
  simp only [entries, treeOf, served_first, firstPages, List.map_append, List.map_map]
  exact congrArg₂ _ (List.map_congr_left ht) (List.map_congr_left hb)

theorem withSizes_key (nodes : List BlobSize) (e : GitLabTreeEntryDTO) : (withSizes number nodes e).key = e.key := by
  unfold withSizes
  split <;> rfl

-- The sizes change nothing else, and without them the entries are there all the same.
theorem sized_always (es : List GitLabTreeEntryDTO) : Prog.Always (answer r filesOf)
    (fun es' _ => es'.map GitLabTreeEntryDTO.key = es.map GitLabTreeEntryDTO.key)
    (sized number projectPath ref es) () := by
  unfold sized
  dsimp only
  split
  case isTrue  => rfl
  case isFalse =>
    apply Prog.always_bind.mpr
    refine Prog.always_of_forall _ fun a _ => ?_
    cases a
    case error    => rfl
    case ok nodes => simp [Prog.Always, Function.comp_def, withSizes_key]

theorem treeData_eq (hd : r.tree ref path = some dir) : Prog.Always (answer r filesOf)
    (fun a _ => ∀ t, a = .ok t → t = some (treeOf dir))
    (gitlabGraphQL (treeAtPath projectPath path ref) : Prog graphQL (Except ApiError (Option Tree))) () := by
  rw [gitlabGraphQL, Call.always_seq]
  intro d
  simp only [answer, hd, Option.map_some]
  cases d.failure
  case some => exact fun _ h => by cases h
  case none =>
    intro t h
    simp only [dataOf] at h
    cases hl : d.errors
    case cons => simp [hl] at h
    case nil  => cases hx : d.data <;> simp_all

theorem list_always (hd : r.tree ref path = some dir) : Prog.Always (answer r filesOf)
    (fun a _ => ∀ out, a = .ok out → (out.map GitLabTreeEntryDTO.key).Perm ((firstPages dir).map Entry.key))
    (listGitLabTreeViaGraphQL number localeCompare projectPath path ref :
      Prog graphQL (Except ApiError (List GitLabTreeEntryDTO))) () := by
  rw [listGitLabTreeViaGraphQL, Call.always_seq]
  refine (treeData_eq hd).mono fun a _ h => ?_
  cases a
  case error => exact fun _ h => by cases h
  case ok t  =>
    cases h t rfl
    simp only [Call.next]
    rw [Call.lift_bind, Prog.always_bind]
    refine (sized_always _).mono fun es _ he => ?_
    rintro out ⟨⟩
    refine ((List.perm_insertionSort _ es).map _).trans ?_
    rw [he, entries_key]

theorem firstPages_kind {e : Entry} (h : e ∈ firstPages dir) : e.kind ≠ .commit := by
  intro hk
  obtain h | h := List.mem_append.mp h
  all_goals
    have hf := List.of_mem_filter (List.mem_of_mem_take h)
    simp [hk] at hf

-- A query that nothing stands in the way of.
def fine : Draw where
  failure := none
  errors  := []
  data    := true

theorem list_fine (hd : r.tree ref path = some dir) :
    ∃ out, ((listGitLabTreeViaGraphQL number localeCompare projectPath path ref).play (answer r filesOf)
      (fun _ => fine) ()).1 = .ok out := by
  have ht : (gitlabGraphQL (treeAtPath projectPath path ref)).play (answer r filesOf) (fun _ => fine) () =
      (.ok (some (treeOf dir)), ()) := by
    rw [gitlabGraphQL, Call.bind_eq, Prog.play_bind_const]
    simp only [treeAtPath, Prog.perform, Prog.play, answer, fine, hd]
    rfl
  rw [listGitLabTreeViaGraphQL, Call.bind_eq, Prog.play_bind_const, ht, Call.next]
  dsimp only
  rw [Call.lift_bind, Prog.play_bind_const]
  exact ⟨_, rfl⟩

theorem firstPages_perm (hl : dir.length ≤ pageLimit) (hc : ∀ e ∈ dir, e.kind ≠ .commit) :
    (firstPages dir).Perm dir := by
  have hb : ∀ e ∈ dir, (e.kind = .blob ↔ ¬e.kind = .tree) := by
    intro e he
    have hk := hc e he
    cases hx : e.kind <;> simp_all
  rw [firstPages, List.take_of_length_le ((List.length_filter_le ..).trans hl),
    List.take_of_length_le ((List.length_filter_le ..).trans hl)]
  have hf : dir.filter (·.kind = .blob) = dir.filter fun e => !decide (e.kind = .tree) := by
    refine List.filter_congr fun e he => ?_
    simp [hb e he]
  rw [hf]
  exact List.filter_append_perm ..

end Listing

-- Whatever the requests come to: where both list the directory, each has every entry once.
structure Complete (number : Str → Float64) (localeCompare : Str → Str → Int) (refOf : Str → Option Str) (r : Repo)
    (filesOf : Str → List Entry) (projectPath path ref : Str) (dir : List Entry) : Prop where
  backend : ∀ w d out, ((gitLabListTree path ref).play (answerAll refOf r) d w).1 = .ok out →
    (out.map GitLabTreeEntry.key).Perm (dir.map Entry.key)
  browser : ∀ d out, ((listGitLabTreeViaGraphQL number localeCompare projectPath path ref).play
      (answer r filesOf) d ()).1 = .ok out →
    (out.map GitLabTreeEntryDTO.key).Perm (dir.map Entry.key)
  agree   : ∀ w d d' out out', ((gitLabListTree path ref).play (answerAll refOf r) d w).1 = .ok out →
    ((listGitLabTreeViaGraphQL number localeCompare projectPath path ref).play (answer r filesOf) d' ()).1 =
      .ok out' →
    (out.map GitLabTreeEntry.key).Perm (out'.map GitLabTreeEntryDTO.key)

section Necessary

variable {number : Str → Float64} {localeCompare : Str → Str → Int} {refOf : Str → Option Str} {r : Repo}
         {filesOf : Str → List Entry} {projectPath path ref : Str} {dir : List Entry}

theorem Complete.length (hd : r.tree ref path = some dir)
    (h : Complete number localeCompare refOf r filesOf projectPath path ref dir) : dir.length ≤ pageLimit := by
  obtain ⟨out, ho⟩ := @listTree_fine refOf r path ref dir GitAttributes.project hd
  have hp := ((listTree_always hd).play _ out ho).symm.trans (h.backend _ _ _ ho)
  have hl := hp.length_eq
  rw [List.length_map, List.length_map, List.length_take] at hl
  omega

theorem Complete.kinds (hd : r.tree ref path = some dir)
    (h : Complete number localeCompare refOf r filesOf projectPath path ref dir) : ∀ e ∈ dir, e.kind ≠ .commit := by
  intro e he hk
  obtain ⟨out, ho⟩ := @list_fine number localeCompare r filesOf projectPath path ref dir hd
  have hp := ((list_always hd).play _ out ho).symm.trans (h.browser _ _ ho)
  obtain ⟨e', he', hkey⟩ := List.mem_map.mp (hp.mem_iff.mpr (List.mem_map_of_mem he))
  exact firstPages_kind he' (Kind.text_inj ((congrArg (·.2.2) hkey).trans (congrArg Kind.text hk)))

theorem complete_of (hd : r.tree ref path = some dir) (hl : dir.length ≤ pageLimit)
    (hc : ∀ e ∈ dir, e.kind ≠ .commit) :
    Complete number localeCompare refOf r filesOf projectPath path ref dir := by
  have hb (w d out) (ho : ((gitLabListTree path ref).play (answerAll refOf r) d w).1 = .ok out) :
      (out.map GitLabTreeEntry.key).Perm (dir.map Entry.key) := by
    have hp := (listTree_always hd).play d out ho
    rwa [List.take_of_length_le hl] at hp
  have hg (d out) (ho : ((listGitLabTreeViaGraphQL number localeCompare projectPath path ref).play
      (answer r filesOf) d ()).1 = .ok out) : (out.map GitLabTreeEntryDTO.key).Perm (dir.map Entry.key) :=
    ((list_always hd).play d out ho).trans ((firstPages_perm hl hc).map _)
  exact ⟨hb, hg, fun w d d' out out' ho ho' => (hb w d out ho).trans (hg d' out' ho').symm⟩

end Necessary

-- Both listings are complete if and only if one page has all entries and no other repository is among them.
theorem listings_complete_iff (number : Str → Float64) (localeCompare : Str → Str → Int) (refOf : Str → Option Str)
    (r : Repo) (filesOf : Str → List Entry) (projectPath path ref : Str) (dir : List Entry)
    (hd : r.tree ref path = some dir) :
    Complete number localeCompare refOf r filesOf projectPath path ref dir ↔
      dir.length ≤ pageLimit ∧ ∀ e ∈ dir, e.kind ≠ .commit :=
  ⟨fun h => ⟨h.length hd, h.kinds hd⟩, fun h => complete_of hd h.left h.right⟩

section Shards

-- The files that a large model comes in.
def shard (n : Nat) : Entry where
  name    := decimal n
  path    := str "weights/" ++ decimal n
  kind    := .blob
  mode    := str "100644"
  lfsOid  := none
  rawSize := none

def shards (n : Nat) : Repo where
  tree ref path := if ref = str "main" ∧ path = str "weights" then some ((List.range n).map shard) else none
  projects      := []

def byteOrder (a b : Str) : Int :=
  if a < b then -1 else if a = b then 0 else 1

theorem shards_weights {n : Nat} :
    (shards n).tree (str "main") (str "weights") = some ((List.range n).map shard) := by
  simp [shards]

theorem three_shards_complete : Complete (fun _ => 0) byteOrder GitLab.refOfQuery (shards 3) (fun _ => []) (str "ml/models")
    (str "weights") (str "main") ((List.range 3).map shard) :=
  (listings_complete_iff _ _ _ _ _ _ _ _ _ shards_weights).mpr (by decide)

-- What comes after a hundred files is not listed.
theorem shards_incomplete : ¬∀ number localeCompare refOf r filesOf projectPath path ref dir,
    r.tree ref path = some dir → Complete number localeCompare refOf r filesOf projectPath path ref dir := by
  intro h
  have hl := (h (fun _ => 0) byteOrder GitLab.refOfQuery (shards 101) (fun _ => []) (str "ml/models") _ _ _ shards_weights).length
    shards_weights
  rw [List.length_map, List.length_range] at hl
  exact absurd hl (by decide)

end Shards
end Console.GitTree

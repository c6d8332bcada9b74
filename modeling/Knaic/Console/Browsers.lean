import Knaic.Effects.Events
import Knaic.Js.Text
import Mathlib.Data.List.InsertIdx

open Js Effects Listing

namespace Console.Browsers

-- The page of the S3 object store.
namespace S3

structure S3Secret where
  name   : Str
  bucket : Option Str

structure S3Object where
  key      : Str
  isPrefix : Bool

-- `pre` is the source's `prefix`.
structure Selection where
  secretName : Str
  bucket     : Option Str
  pre        : Str
deriving DecidableEq

-- `requests` are the listings under way, and `tasks` the uploads and deletions, each with the selection
-- that its handler has captured. `shown` is not in the source: what the items were listed for.
structure Page where
  secrets    : List S3Secret
  secretName : Option Str
  bucket     : Option Str
  pre        : Str
  items      : List S3Object
  requests   : List Selection
  tasks      : List Selection
  shown      : Option Selection

def Page.initial : Page where
  secrets    := []
  secretName := none
  bucket     := none
  pre        := []
  items      := []
  requests   := []
  tasks      := []
  shown      := none

inductive Event
  | secretsLoaded (secrets : List S3Secret)
  | pickSecret (name : Str)
  | pickBucket (name : Str)
  | pickPrefix (pre : Str)
  | refresh
  | startTask
  | endTask (i : Nat)
  | listed (i : Nat) (items : List S3Object)
  | failed (i : Nat)

namespace Page

def selection (s : Page) : Option Selection :=
  s.secretName.map fun name => ⟨name, s.bucket, s.pre⟩

def reload (s : Page) : Option Selection → Page
  | none   => s
  | some x => { s with requests := s.requests ++ [x] }

-- The effect on `[secretName, bucket, prefix]`.
def changed (s s' : Page) : Page :=
  if s'.secretName = s.secretName ∧ s'.bucket = s.bucket ∧ s'.pre = s.pre then s'
  else s'.reload s'.selection

-- What the handlers and effects make of the selection.
def select (s : Page) : Event → Page
  | .secretsLoaded secrets =>
    match s.secretName, secrets with
    | none, first :: _ => { s with secrets, secretName := some first.name, bucket := first.bucket }
    | _, _             => { s with secrets }
  | .pickSecret name       =>
    { s with
      secretName := some name
      pre        := []
      bucket     := (s.secrets.find? (·.name = name)).bind S3Secret.bucket }
  | .pickBucket name       => { s with bucket := some name, pre := [] }
  | .pickPrefix pre        => { s with pre }
  | _                      => s

def answer (s : Page) (i : Nat) (items : List S3Object) : Page :=
  match s.requests[i]? with
  | none   => s
  | some x => { s with items, shown := some x, requests := s.requests.eraseIdx i }

def step (s : Page) (e : Event) : Page :=
  match e with
  | .refresh        => s.reload s.selection
  | .startTask      => { s with tasks := s.tasks ++ s.selection.toList }
  | .endTask i      => { s with tasks := s.tasks.eraseIdx i }.reload s.tasks[i]?
  | .listed i items => s.answer i items
  | .failed i       => s.answer i []
  | _               => s.changed (s.select e)

end Page

-- What Download and Delete of a row are sent for.
def target (s : Page) (r : S3Object) : Option Str × Option Str × Str :=
  (s.secretName, s.bucket, r.key)

-- The rows that have these buttons.
def files (items : List S3Object) : List S3Object :=
  items.filter fun r => !r.isPrefix

structure Faithful (s : Page) : Prop where
  settled : s.requests = [] → s.shown = s.selection
  offers  : ∀ r ∈ files s.items, ∃ x, s.shown = some x ∧
    target s r = (some x.secretName, x.bucket, r.key)

-- With rows that have buttons, the selected secret and bucket stay. A listing that arrives with such
-- rows is one of the selected secret and bucket, and any listing that arrives is timely.
def InTurn (s : Page) : Event → Prop
  | .listed i items =>
    Timely s.selection s.requests i ∧
    (files items = [] ∨ ∀ x ∈ s.requests[i]?, s.secretName = some x.secretName ∧ s.bucket = x.bucket)
  | .failed i       => Timely s.selection s.requests i
  | e               =>
    files s.items = [] ∨ (s.select e).secretName = s.secretName ∧ (s.select e).bucket = s.bucket

instance (s : Page) : (e : Event) → Decidable (InTurn s e)
  | .listed i items =>
    inferInstanceAs (Decidable (Timely s.selection s.requests i ∧
      (files items = [] ∨ ∀ x ∈ s.requests[i]?,
        s.secretName = some x.secretName ∧ s.bucket = x.bucket)))
  | .failed i => inferInstanceAs (Decidable (Timely s.selection s.requests i))
  | .secretsLoaded _ | .pickSecret _ | .pickBucket _ | .pickPrefix _ | .refresh | .startTask
  | .endTask _ => inferInstanceAs (Decidable (_ = [] ∨ _ = s.secretName ∧ _ = s.bucket))

structure Inv (s : Page) : Prop where
  due    : Due s.selection s.shown s.requests
  offers : ∀ r ∈ files s.items, ∃ x, s.shown = some x ∧
    target s r = (some x.secretName, x.bucket, r.key)

section Steps

variable {s s' : Page}

theorem Inv.reload (h : Inv s) (x : Option Selection) : Inv (s.reload x) := by
  cases x
  case none   => exact h
  case some x => exact ⟨h.due.ask x, h.offers⟩

theorem Inv.changed (h : Inv s) (hshown : s'.shown = s.shown) (hreq : s'.requests = s.requests)
    (hitems : s'.items = s.items) (hn : s'.secretName = none → s.secretName = none)
    (ht : files s.items = [] ∨ s'.secretName = s.secretName ∧ s'.bucket = s.bucket) :
    Inv (s.changed s') := by
  have hoff : ∀ r ∈ files s'.items, ∃ x, s'.shown = some x ∧
      target s' r = (some x.secretName, x.bucket, r.key) := by
    rw [hitems, hshown]
    intro r hr
    obtain hf | ⟨hs, hb⟩ := ht
    case inl =>
      rw [hf] at hr
      cases hr
    case inr =>
      simp only [target, hs, hb]
      exact h.offers r hr
  unfold Page.changed
  split
  case isTrue hd =>
    obtain ⟨hs, hb, hp⟩ := hd
    have hsel : s'.selection = s.selection := by simp only [Page.selection, hs, hb, hp]
    exact ⟨by rw [hsel, hshown, hreq]; exact h.due, hoff⟩
  case isFalse =>
    cases hs : s'.secretName
    case some name =>
      have hsel : s'.selection = some ⟨name, s'.bucket, s'.pre⟩ := by
        simp only [Page.selection, hs]
        rfl
      rw [hsel]
      refine ⟨?_, hoff⟩
      change Due s'.selection s'.shown (s'.requests ++ [_])
      rw [hsel]
      exact due_asked _ _ _
    case none =>
      have hsel : s'.selection = none := by simp only [Page.selection, hs]; rfl
      have hsel' : s.selection = none := by simp only [Page.selection, hn hs]; rfl
      rw [hsel]
      exact ⟨by rw [Page.reload, hsel, hshown, hreq, ← hsel']; exact h.due, hoff⟩

theorem Inv.answer (h : Inv s) {i : Nat} {items : List S3Object} (ht : Timely s.selection s.requests i)
    (hf : files items = [] ∨ ∀ x ∈ s.requests[i]?,
      s.secretName = some x.secretName ∧ s.bucket = x.bucket) :
    Inv (s.answer i items) := by
  unfold Page.answer
  split
  case h_1      => exact h
  case h_2 x hx =>
    refine ⟨Due.answer hx ht, fun r hr => ⟨x, rfl, ?_⟩⟩
    obtain hf | hf := hf
    case inl => rw [hf] at hr; cases hr
    case inr =>
      obtain ⟨hs, hb⟩ := hf x hx
      simp only [target, hs, hb]

theorem Inv.step {e : Event} (h : Inv s) (ha : InTurn s e) : Inv (s.step e) := by
  cases e
  case refresh   => exact h.reload _
  case startTask => exact ⟨h.due, h.offers⟩
  case endTask i =>
    have hi : Inv { s with tasks := s.tasks.eraseIdx i } := ⟨h.due, h.offers⟩
    exact hi.reload _
  case listed    => exact h.answer ha.left ha.right
  case failed    => exact h.answer ha (.inl rfl)
  case pickSecret name => exact h.changed rfl rfl rfl (fun hn => by cases hn) ha
  case pickBucket name => exact h.changed rfl rfl rfl (fun hn => hn) ha
  case pickPrefix pre  => exact h.changed rfl rfl rfl (fun hn => hn) ha
  case secretsLoaded secrets =>
    have hn : (s.select (.secretsLoaded secrets)).secretName = none → s.secretName = none := by
      simp only [Page.select]
      split
      case h_1 => exact fun hn => by cases hn
      case h_2 => exact fun hn => hn
    refine h.changed ?_ ?_ ?_ hn ha
    all_goals
      simp only [Page.select]
      split <;> rfl

theorem Inv.faithful (h : Inv s) : Faithful s where
  settled hr := by
    have hd := h.due
    rw [hr] at hd
    exact hd.settled
  offers     := h.offers

theorem faithful (es : List Event) (h : Events.Taken Page.step InTurn Page.initial es) :
    Events.Reached Page.step Faithful Page.initial es :=
  (h.reached ⟨.inl rfl, fun r hr => by cases hr⟩ fun _ _ => Inv.step).mono fun _ => Inv.faithful

end Steps

end S3

-- The page of a GitLab project.
namespace GitLab

structure Project where
  pathWithNamespace : Str
  defaultBranch     : Option Str

structure Selection where
  project : Str
  path    : Str
  ref     : Str
deriving DecidableEq

-- The entries of the tree by their paths. `tasks` are the uploads under way.
structure Page where
  project     : Option Project
  path        : Str
  refOverride : Str
  tree        : List Str
  requests    : List Selection
  tasks       : List Selection
  shown       : Option Selection

def Page.initial (path refOverride : Str) : Page where
  project     := none
  path        := path
  refOverride := refOverride
  tree        := []
  requests    := []
  tasks       := []
  shown       := none

inductive Event
  | projectLoaded (p : Project)
  | setPath (next : Str)
  | setRef (next : Str)
  | navigate (path refOverride : Str)
  | refresh
  | startTask
  | endTask (i : Nat)
  | listed (i : Nat) (tree : List Str)
  | failed (i : Nat)

-- `refOverride || project?.defaultBranch || 'main'`
def refOf (p : Project) (refOverride : Str) : Str :=
  if refOverride ≠ [] then refOverride
  else
    match p.defaultBranch with
    | none | some [] => str "main"
    | some branch    => branch

namespace Page

def selection (s : Page) : Option Selection :=
  s.project.map fun p => ⟨p.pathWithNamespace, s.path, refOf p s.refOverride⟩

def reload (s : Page) : Option Selection → Page
  | none   => s
  | some x => { s with requests := s.requests ++ [x] }

-- The effect on `[project, path, ref, configName]` after a change of the search parameters.
def setSearch (s : Page) (path refOverride : Str) : Page :=
  let s' := { s with path, refOverride }
  if s'.selection = s.selection then s' else s'.reload s'.selection

def answer (s : Page) (i : Nat) (tree : List Str) : Page :=
  match s.requests[i]? with
  | none   => s
  | some x => { s with tree, shown := some x, requests := s.requests.eraseIdx i }

def step (s : Page) : Event → Page
  | .projectLoaded p           =>
    { s with project := some p }.reload { s with project := some p }.selection
  | .setPath next              => s.setSearch next s.refOverride
  | .setRef next               =>
    s.setSearch [] (if some next = s.project.bind Project.defaultBranch then [] else next)
  | .navigate path refOverride => s.setSearch path refOverride
  | .refresh                   => s.reload s.selection
  | .startTask                 => { s with tasks := s.tasks ++ s.selection.toList }
  | .endTask i                 => { s with tasks := s.tasks.eraseIdx i }.reload s.tasks[i]?
  | .listed i tree             => s.answer i tree
  | .failed i                  => s.answer i []

end Page

def Settled (s : Page) : Prop :=
  s.requests = [] → s.shown = s.selection

def InTurn (s : Page) : Event → Prop
  | .listed i _ | .failed i => Timely s.selection s.requests i
  | _                       => True

instance (s : Page) : (e : Event) → Decidable (InTurn s e)
  | .listed i _ | .failed i => inferInstanceAs (Decidable (Timely s.selection s.requests i))
  | .projectLoaded _ | .setPath _ | .setRef _ | .navigate _ _ | .refresh | .startTask
  | .endTask _ => .isTrue trivial

section Steps

variable {s : Page}

def Inv (s : Page) : Prop :=
  Due s.selection s.shown s.requests

theorem Inv.reload (h : Inv s) (x : Option Selection) : Inv (s.reload x) := by
  cases x
  case none   => exact h
  case some x => exact Due.ask h x

-- What is selected now is asked for.
theorem inv_reload (hp : s.project ≠ none) : Inv (s.reload s.selection) := by
  obtain ⟨p, hp⟩ := Option.ne_none_iff_exists'.mp hp
  have hs : s.selection = some ⟨p.pathWithNamespace, s.path, refOf p s.refOverride⟩ := by
    simp only [Page.selection, hp]
    rfl
  rw [hs]
  change Due s.selection s.shown (s.requests ++ [_])
  rw [hs]
  exact due_asked _ _ _

theorem Inv.setSearch (h : Inv s) (path refOverride : Str) : Inv (s.setSearch path refOverride) := by
  unfold Page.setSearch
  simp only
  split
  case isTrue hs => exact (congrArg (Due · s.shown s.requests) hs).mpr h
  case isFalse hs =>
    cases hp : s.project
    case some => exact inv_reload fun hn => by cases hn
    case none => exact absurd (by simp [Page.selection, hp]) hs

theorem Inv.answer (h : Inv s) {i : Nat} {tree : List Str} (ht : Timely s.selection s.requests i) :
    Inv (s.answer i tree) := by
  unfold Page.answer
  split
  case h_1      => exact h
  case h_2 x hx => exact Due.answer hx ht

theorem Inv.step {e : Event} (h : Inv s) (ha : InTurn s e) : Inv (s.step e) := by
  cases e
  case projectLoaded p => exact inv_reload fun hn => by cases hn
  case setPath         => exact h.setSearch _ _
  case setRef          => exact h.setSearch _ _
  case navigate        => exact h.setSearch _ _
  case refresh         => exact h.reload _
  case startTask       => exact h
  case listed          => exact h.answer ha
  case failed          => exact h.answer ha
  case endTask i       =>
    have hi : Inv { s with tasks := s.tasks.eraseIdx i } := h
    exact hi.reload _

theorem settled (path refOverride : Str) (es : List Event)
    (h : Events.Taken Page.step InTurn (Page.initial path refOverride) es) :
    Events.Reached Page.step Settled (Page.initial path refOverride) es := by
  refine (h.reached (I := Inv) (.inl rfl) fun _ _ => Inv.step).mono fun s hs hr => ?_
  rw [Inv, hr] at hs
  exact hs.settled

end Steps

end GitLab

-- The dialog that imports a cluster runtime.
namespace Import

-- The request for a manifest, with the selection and the name that its handler has captured.
structure Request where
  selected : Str
  name     : Str

structure Page where
  selected : Option Str
  preview  : Str
  name     : Str
  requests : List Request
  shown    : Option Str

def Page.initial : Page where
  selected := none
  preview  := []
  name     := []
  requests := []
  shown    := none

inductive Event
  | opened
  | pick (v : Str)
  | rename (name : Str)
  | edit (text : Str)
  | fetched (i : Nat) (text : Str)
  | failed (i : Nat)

-- `name || selected`
def targetName (name selected : Str) : Str :=
  if name = [] then selected else name

namespace Page

-- `convertClusterToNamespaced` and `rewriteNameAndNamespace` in the namespace of the dialog.
variable (convert rewrite : Str → Str → Str)

-- The effect on `[name]`.
def setName (s : Page) (name : Str) : Page :=
  match s.selected with
  | none          => { s with name }
  | some selected =>
    if name = s.name ∨ s.preview = [] then { s with name }
    else { s with name, preview := rewrite s.preview (targetName name selected) }

-- Both are set at once, and the effect on `[selected, namespace, message]` sees the new name.
def pick (s : Page) (v : Str) : Page :=
  let s' := { s with selected := some v }.setName rewrite []
  if some v = s.selected then s' else { s' with requests := s'.requests ++ [⟨v, s'.name⟩] }

def answer (s : Page) (i : Nat) (preview : Request → Str) : Page :=
  match s.requests[i]? with
  | none   => s
  | some r =>
    { s with preview := preview r, shown := some r.selected, requests := s.requests.eraseIdx i }

def step (s : Page) : Event → Page
  | .opened         => { s with selected := none, preview := [], name := [], shown := none }
  | .pick v         => s.pick rewrite v
  | .rename name    => s.setName rewrite name
  | .edit text      => { s with preview := text }
  | .fetched i text => s.answer i fun r => convert text (targetName r.name r.selected)
  | .failed i       => s.answer i fun _ => []

end Page

def pending (s : Page) : List Str :=
  s.requests.map Request.selected

def Settled (s : Page) : Prop :=
  s.requests = [] → s.shown = s.selected

def InTurn (s : Page) : Event → Prop
  | .fetched i _ | .failed i => Timely s.selected (pending s) i
  | _                        => True

instance (s : Page) : (e : Event) → Decidable (InTurn s e)
  | .fetched i _ | .failed i => inferInstanceAs (Decidable (Timely s.selected (pending s) i))
  | .opened | .pick _ | .rename _ | .edit _ => .isTrue trivial

section Steps

variable {convert rewrite : Str → Str → Str} {s : Page}

def Inv (s : Page) : Prop :=
  Due s.selected s.shown (pending s)

-- A new name changes the text only.
theorem setName_rest (rewrite : Str → Str → Str) (s : Page) (name : Str) :
    (s.setName rewrite name).selected = s.selected ∧ (s.setName rewrite name).shown = s.shown ∧
      (s.setName rewrite name).requests = s.requests := by
  unfold Page.setName
  split
  case h_1 => exact ⟨rfl, rfl, rfl⟩
  case h_2 => split <;> exact ⟨rfl, rfl, rfl⟩

theorem Inv.rename (h : Inv s) (name : Str) : Inv (s.setName rewrite name) := by
  obtain ⟨hs, hsh, hr⟩ := setName_rest rewrite s name
  rw [Inv, pending, hs, hsh, hr]
  exact h

theorem Inv.pick (h : Inv s) (v : Str) : Inv (s.pick rewrite v) := by
  obtain ⟨hs, hsh, hr⟩ := setName_rest rewrite { s with selected := some v } []
  unfold Page.pick
  simp only
  split
  case isTrue heq =>
    rw [Inv, pending, hs, hsh, hr, heq]
    exact h
  case isFalse =>
    rw [Inv, pending, hs, hsh, hr, List.map_append]
    exact due_asked _ _ _

theorem Inv.answer (h : Inv s) {i : Nat} {preview : Request → Str}
    (ht : Timely s.selected (pending s) i) : Inv (s.answer i preview) := by
  unfold Page.answer
  split
  case h_1      => exact h
  case h_2 r hr =>
    have hp : (pending s)[i]? = some r.selected := by simp [pending, hr]
    have hd := Due.answer hp ht
    rwa [pending, List.eraseIdx_map] at hd

theorem Inv.step {e : Event} (h : Inv s) (ha : InTurn s e) : Inv (s.step convert rewrite e) := by
  cases e
  case opened  => exact .inl rfl
  case pick    => exact h.pick _
  case rename  => exact h.rename _
  case edit    => exact h
  case fetched => exact h.answer ha
  case failed  => exact h.answer ha

theorem settled (es : List Event)
    (h : Events.Taken (Page.step convert rewrite) InTurn Page.initial es) :
    Events.Reached (Page.step convert rewrite) Settled Page.initial es := by
  refine (h.reached (I := Inv) (.inl rfl) fun _ _ => Inv.step).mono fun s hs hr => ?_
  rw [Inv, pending, hr] at hs
  exact hs.settled

end Steps

end Import

-- Each browser follows its selection throughout a run whose events are in turn.
theorem browsers_follow (convert rewrite : Str → Str → Str) (path refOverride : Str) :
    (∀ es, Events.Taken S3.Page.step S3.InTurn .initial es →
      Events.Reached S3.Page.step S3.Faithful .initial es) ∧
    (∀ es, Events.Taken GitLab.Page.step GitLab.InTurn (.initial path refOverride) es →
      Events.Reached GitLab.Page.step GitLab.Settled (.initial path refOverride) es) ∧
    (∀ es, Events.Taken (Import.Page.step convert rewrite) Import.InTurn .initial es →
      Events.Reached (Import.Page.step convert rewrite) Import.Settled .initial es) :=
  ⟨S3.faithful, GitLab.settled path refOverride, Import.settled⟩

-- A folder of the same bucket, another folder of the tree and another runtime to import, each listed
-- after what was selected before.
theorem browsers_follow_inTurn :
    Events.Reached S3.Page.step S3.Faithful .initial
      [.secretsLoaded [⟨str "a", some (str "x")⟩], .listed 0 [⟨str "k", false⟩],
        .pickPrefix (str "p"), .listed 0 []] ∧
    Events.Reached GitLab.Page.step GitLab.Settled (.initial [] [])
      [.projectLoaded ⟨str "g", none⟩, .setPath (str "p"), .listed 0 [str "p"], .listed 0 []] ∧
    Events.Reached (Import.Page.step (fun t _ => t) fun t _ => t) Import.Settled .initial
      [.pick (str "a"), .pick (str "b"), .fetched 0 (str "x"), .fetched 0 (str "y")] :=
  have h := browsers_follow (fun t _ => t) (fun t _ => t) [] []
  ⟨h.left _ (by decide), h.right.left _ (by decide), h.right.right _ (by decide)⟩

-- The file of one bucket is still shown when another is picked, and is deleted there.
theorem browsers_act_on_another :
    ¬ ((∀ es, Events.Reached S3.Page.step S3.Faithful .initial es) ∧
      (∀ es, Events.Reached GitLab.Page.step GitLab.Settled (.initial [] []) es) ∧
      (∀ es, Events.Reached (Import.Page.step (fun t _ => t) fun t _ => t) Import.Settled
        .initial es)) := by
  intro h
  have hr := (h.left [.secretsLoaded [⟨str "a", some (str "x")⟩], .listed 0 [⟨str "k", false⟩],
    .pickBucket (str "y")]).last
  obtain ⟨x, hx, ht⟩ := hr.offers ⟨str "k", false⟩ (.head _)
  cases hx
  exact absurd ht (by decide)

end Console.Browsers

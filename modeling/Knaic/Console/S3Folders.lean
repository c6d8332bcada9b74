import Knaic.AiStorage.S3Objects
import Knaic.Effects.Reads

open Go Effects AiStorage.S3

-- The page of the S3 object store, which shows the flat keys of a bucket as folders.
namespace Console.S3Folders

structure Page where
  ns         : Str
  secretName : Str
  bucket     : Option Str
  pre        : Str
  items      : List S3Object

structure Crumb where
  key   : Str
  label : Str
  goto  : Str

-- `q.set` where there is something to set.
def given (key : String) (value : Str) : List (Str × Str) :=
  if value = [] then [] else [(str key, value)]

def segments (pre : Str) : List Str :=
  ((Str.trim pre slash).splitOn slash).filter (· ≠ [])

def crumbs (pre : Str) : List Crumb :=
  ⟨[], str "/", []⟩ :: (List.range (segments pre).length).map fun i => {
    key   := [slash].intercalate ((segments pre).take (i + 1))
    label := (segments pre).getD i []
    goto  := [slash].intercalate ((segments pre).take (i + 1)) ++ str "/"
  }

-- Where a file is uploaded to.
def uploadKey (pre name : Str) : Str :=
  (if pre = [] then [] else if pre.hasSuffix (str "/") then pre else pre ++ str "/") ++ name

inductive Event
  | folder (key : Str)
  | crumb (i : Nat)
  | pickSecret (name : Str) (bucket : Option Str)
  | pickBucket (name : Str)
  | refresh
  | upload (name contentType body : Str)
  | delete (key : Str)

namespace Page

variable (lib : Lib) (rfc3339 : Time → Str) (s : Page)

def listQuery : Str :=
  Url.searchParams (given "bucket" (s.bucket.getD []) ++ given "prefix" s.pre)

def keyQuery (key : Str) : Str :=
  Url.searchParams ((str "key", key) :: given "bucket" (s.bucket.getD []))

def reload : Prog ops Page :=
  Prog.bind (listS3Objects lib rfc3339 s.ns s.secretName s.listQuery) fun
    | .ok rows => .ret { s with items := rows }
    | .error _ => .ret { s with items := [] }

-- The effect on `[secretName, bucket, prefix]`.
def go (secretName : Str) (bucket : Option Str) (pre : Str) : Prog ops Page :=
  if secretName = s.secretName ∧ bucket = s.bucket ∧ pre = s.pre then
    .ret s
  else
    reload lib rfc3339 { s with secretName, bucket, pre }

-- What the page does after an upload or a deletion.
def finish (p : Reply Unit) : Prog ops Page :=
  Prog.bind p fun
    | .ok _    => s.reload lib rfc3339
    | .error _ => .ret s

def handle : Event → Prog ops Page
  | .folder key                   =>
    if ∃ x ∈ s.items, x.isPrefix ∧ x.key = key then s.go lib rfc3339 s.secretName s.bucket key else .ret s
  | .crumb i                      =>
    match (crumbs s.pre)[i]? with
    | none   => .ret s
    | some c => s.go lib rfc3339 s.secretName s.bucket c.goto
  | .pickSecret name bucket       => s.go lib rfc3339 name bucket []
  | .pickBucket name              => s.go lib rfc3339 s.secretName (some name) []
  | .refresh                      => s.reload lib rfc3339
  | .upload name contentType body =>
    s.finish lib rfc3339
      (uploadS3Object lib s.ns s.secretName (s.keyQuery (uploadKey s.pre name)) contentType body)
  | .delete key                   =>
    if ∃ x ∈ s.items, !x.isPrefix ∧ x.key = key then
      s.finish lib rfc3339 (deleteS3Object lib s.ns s.secretName (s.keyQuery key))
    else
      .ret s

end Page

-- What is there when the first secret is chosen.
def Page.opened (ns secretName : Str) (bucket : Option Str) : Page where
  ns         := ns
  secretName := secretName
  bucket     := bucket
  pre        := []
  items      := []

-- What happens next: the user does something, or the world changes elsewhere.
inductive Move
  | event (e : Event) (fates : Nat → Fate)
  | elsewhere (w : World)

variable (lib : Lib) (rfc3339 : Time → Str)

def step (s : Page × World) : Move → Page × World
  | .event e fates => (s.1.handle lib rfc3339 e).play befall fates s.2
  | .elsewhere w   => (s.1, w)

def after (s : Page × World) (moves : List Move) : Page × World :=
  moves.foldl (step lib rfc3339) s

namespace Page

def place (s : Page) (w : World) : Except Error Place :=
  placeIn lib w s.ns s.secretName (s.bucket.getD [])

-- One is always in a folder, and sees none but folders to go to.
structure Proper (s : Page) : Prop where
  folder : Delimited.IsFolder slash s.pre
  rows   : ∀ x ∈ s.items, x.isPrefix → Delimited.IsFolder slash x.key

end Page

section Queries

theorem queryGet_searchParams (l : List (Str × Str)) (k : Str) :
    queryGet (Url.searchParams l) k = (Url.valuesOf l k).head?.getD [] := by
  rw [queryGet, ← Url.parseValues_some (Url.parseValues_searchParams l), Url.valuesOf_ofEntries]

theorem valuesOf_given (key : String) (value k : Str) :
    Url.valuesOf (given key value) k = if k = str key ∧ value ≠ [] then [value] else [] := by
  by_cases hv : value = []
  case pos => simp [given, hv, Url.valuesOf]
  case neg =>
    by_cases hk : str key = k
    case pos => simp [given, hv, Url.valuesOf, hk]
    case neg => simp [given, hv, Url.valuesOf, hk, Ne.symm hk]

theorem given_head (value : Str) : (if value = [] then [] else [value]).head?.getD [] = value := by
  cases value <;> rfl

variable (s : Page)

theorem listQuery_bucket : queryGet s.listQuery (str "bucket") = s.bucket.getD [] := by
  have hk : str "bucket" ≠ str "prefix" := by decide
  rw [Page.listQuery, queryGet_searchParams, Url.valuesOf_append, valuesOf_given, valuesOf_given]
  simp [hk]
  exact given_head _

theorem listQuery_prefix : queryGet s.listQuery (str "prefix") = s.pre := by
  have hk : str "prefix" ≠ str "bucket" := by decide
  rw [Page.listQuery, queryGet_searchParams, Url.valuesOf_append, valuesOf_given, valuesOf_given]
  simp [hk]
  exact given_head _

theorem keyQuery_key (key : Str) : queryGet (s.keyQuery key) (str "key") = key := by
  rw [Page.keyQuery, queryGet_searchParams, Url.valuesOf_cons, if_pos rfl]
  rfl

theorem keyQuery_bucket (key : Str) : queryGet (s.keyQuery key) (str "bucket") = s.bucket.getD [] := by
  have hk : str "key" ≠ str "bucket" := by decide
  rw [Page.keyQuery, queryGet_searchParams, Url.valuesOf_cons, if_neg hk, valuesOf_given]
  simp
  exact given_head _

end Queries

section Runs

variable {lib : Lib} {rfc3339 : Time → Str} {s : Page} {w : World} {P : Fate → Prop}

-- What a load makes of the page.
def Loads (lib : Lib) (rfc3339 : Time → Str) (Fails : Prop) (s : Page) (w : World) (s' : Page) : Prop :=
  (∃ pl, s.place lib w = .ok pl ∧ s' = { s with items := rowsOf rfc3339 pl.contents s.pre }) ∨
  s' = { s with items := [] } ∧ (Fails ∨ ∃ e, s.place lib w = .error e)

theorem reload_always : Prog.Always (among P befall) (fun s' w' => w' = w ∧ Loads lib rfc3339 (Faulty P) s w s')
    (s.reload lib rfc3339) w := by
  have h : Reads (among P befall) (Faulty P) ((s.place lib w >>= fun pl =>
      .ok (rowsOf rfc3339 pl.contents s.pre)).mapError .badGateway)
      (listS3Objects lib rfc3339 s.ns s.secretName s.listQuery) w := by
    rw [Page.place, ← listQuery_bucket, ← listQuery_prefix]
    exact reads_listObjects
  rw [Page.reload, Prog.always_bind]
  refine h.mono fun r w' hr => ?_
  obtain ⟨rfl, hr⟩ := hr
  cases hp : s.place lib w'
  case ok pl   =>
    rw [hp] at hr
    rcases hr with rfl | ⟨hf, e, rfl⟩
    · exact ⟨rfl, .inl ⟨pl, hp, rfl⟩⟩
    · exact ⟨rfl, .inr ⟨rfl, .inl hf⟩⟩
  case error e =>
    rw [hp] at hr
    rcases hr with rfl | ⟨hf, e, rfl⟩
    · exact ⟨rfl, .inr ⟨rfl, .inr ⟨e, hp⟩⟩⟩
    · exact ⟨rfl, .inr ⟨rfl, .inl hf⟩⟩

theorem Loads.proper {Fails : Prop} {s' : Page} (h : Loads lib rfc3339 Fails s w s')
    (hf : Delimited.IsFolder slash s.pre) : s'.Proper := by
  rcases h with ⟨pl, _, rfl⟩ | ⟨rfl, _⟩
  · refine ⟨hf, fun x hx hp => ?_⟩
    rcases ((shows_rows hf).mem_iff x).mp hx with ⟨k, o, _, _, rfl⟩ | ⟨k, u, t, _, rfl, _, rfl⟩
    · cases hp
    · exact .inr ⟨s.pre ++ u, rfl⟩
  · exact ⟨hf, fun x hx => by cases hx⟩

theorem reload_proper (hf : Delimited.IsFolder slash s.pre) :
    Prog.Always (among P befall) (fun s' _ => s'.Proper) (s.reload lib rfc3339) w :=
  reload_always.mono fun _ _ h => h.right.proper hf

theorem go_proper (hs : s.Proper) {secretName pre : Str} {bucket : Option Str} (hf : Delimited.IsFolder slash pre) :
    Prog.Always (among P befall) (fun s' _ => s'.Proper) (s.go lib rfc3339 secretName bucket pre) w := by
  rw [Page.go]
  split
  case isTrue  => exact hs
  case isFalse => exact reload_proper hf

theorem finish_proper (hs : s.Proper) (p : Reply Unit) :
    Prog.Always (among P befall) (fun s' _ => s'.Proper) (s.finish lib rfc3339 p) w := by
  rw [Page.finish, Prog.always_bind]
  refine (Prog.always_of_forall p fun r w' => ?_)
  cases r
  case ok    => exact reload_proper hs.folder
  case error => exact hs

theorem crumb_folder {pre : Str} {c : Crumb} (h : c ∈ crumbs pre) : Delimited.IsFolder slash c.goto := by
  rw [crumbs, List.mem_cons] at h
  rcases h with rfl | h
  · exact .inl rfl
  · have ⟨i, _, hc⟩ := List.mem_map.mp h
    exact .inr ⟨_, (congrArg Crumb.goto hc).symm⟩

theorem handle_proper (hs : s.Proper) (e : Event) :
    Prog.Always (among P befall) (fun s' _ => s'.Proper) (s.handle lib rfc3339 e) w := by
  cases e
  case folder key              =>
    rw [Page.handle]
    split
    case isTrue h  =>
      obtain ⟨x, hx, hp, rfl⟩ := h
      exact go_proper hs (hs.rows x hx hp)
    case isFalse   => exact hs
  case crumb i                 =>
    rw [Page.handle]
    split
    case h_1       => exact hs
    case h_2 c hc  => exact go_proper hs (crumb_folder (List.mem_of_getElem? hc))
  case pickSecret name bucket  => exact go_proper hs (.inl rfl)
  case pickBucket name         => exact go_proper hs (.inl rfl)
  case refresh                 => exact reload_proper hs.folder
  case upload name type body   => exact finish_proper hs _
  case delete key              =>
    rw [Page.handle]
    split
    case isTrue  => exact finish_proper hs _
    case isFalse => exact hs

theorem step_proper {t : Page × World} (ht : t.1.Proper) (m : Move) : (step lib rfc3339 t m).1.Proper := by
  cases m
  case event e fates =>
    have h : Prog.Always (among (fun _ => True) befall) (fun s' _ => s'.Proper) (t.1.handle lib rfc3339 e) t.2 :=
      handle_proper ht e
    exact h.play_among fun _ => trivial
  case elsewhere     => exact ht

theorem after_proper {t : Page × World} (ht : t.1.Proper) (moves : List Move) : (after lib rfc3339 t moves).1.Proper := by
  induction moves generalizing t
  case nil            => exact ht
  case cons m moves hi => exact hi (step_proper ht m)

theorem opened_proper (ns secretName : Str) (bucket : Option Str) : (Page.opened ns secretName bucket).Proper :=
  ⟨.inl rfl, fun _ hx => by cases hx⟩

end Runs

-- Requests that fail for no reason of their own.
section Calm

variable {lib : Lib} {rfc3339 : Time → Str} {s : Page} {w : World} {pl : Place}

def Calm (f : Fate) : Prop :=
  f.outage = none

def calm : Fate where
  outage := none
  takes  := false
  now    := Time.zero
  etag   := str "0"
  tagged := by decide
  pages  := id
  perm   := List.Perm.refl

-- A secret as it is created, and a bucket with two objects.
section Team

def team : Str :=
  str "team"

def teamSecret : Kube.Secret :=
  AiStorage.s3Secret team {
    name            := str "data"
    kind            := str "compatible"
    endpoint        := str "minio:9000"
    region          := []
    useHTTPS        := false
    bucket          := str "models"
    accessKeyID     := str "k"
    secretAccessKey := str "s"
    serviceAccount  := []
  }

def weights : Stored where
  body         := str "w"
  contentType  := str "application/octet-stream"
  etag         := str "0"
  lastModified := Time.zero
  tagged       := by decide

def teamPlace : Place where
  host     := str "minio:9000"
  bucket   := str "models"
  contents := .ofList [(str "a/b", weights), (str "c", weights)]

def teamWorld : World where
  cluster := fun
    | .secret => Finmap.singleton (team, str "data") teamSecret
    | _       => ∅
  stores host bucket := if host = teamPlace.host ∧ bucket = teamPlace.bucket then some teamPlace.contents else none

def teamLib : Lib where
  urlError _  := .new "invalid URL"
  newClient _ := none

theorem team_place : (Page.opened team (str "data") none).place teamLib teamWorld = .ok teamPlace := by
  rfl

end Team

theorem not_faulty : ¬Faulty Calm :=
  fun ⟨_, hf, ho⟩ => ho hf

theorem gives_ok {α ε : Type} {t r : Except ε α} (h : Gives (Faulty Calm) t r) : r = t :=
  h.resolve_right fun hf => not_faulty hf.left

theorem loads_calm {s' : Page} (h : Loads lib rfc3339 (Faulty Calm) s w s') (hp : s.place lib w = .ok pl) :
    s' = { s with items := rowsOf rfc3339 pl.contents s.pre } := by
  rcases h with ⟨pl', hp', he⟩ | ⟨_, hf | ⟨e, he⟩⟩
  · cases hp.symm.trans hp'
    exact he
  · cases not_faulty hf
  · cases hp.symm.trans he

theorem writes_calm {α ε : Type} {change : Place → World → Prop} {r : Except ε α} {w' : World}
    (h : Writes (Faulty Calm) w (.ok pl) change r w') : change pl w' ∧ ∃ a, r = .ok a := by
  rcases h with ⟨pl', a, he, hc, hr⟩ | ⟨_, _, hf | ⟨e, he⟩⟩
  · cases he
    exact ⟨hc, a, gives_ok hr⟩
  · cases not_faulty hf
  · cases he

theorem uploadKey_folder {pre name : Str} (h : Delimited.IsFolder slash pre) : uploadKey pre name = pre ++ name := by
  rcases h with rfl | ⟨u, rfl⟩
  · rfl
  · have hs : Str.hasSuffix (u ++ [slash]) (str "/") := List.isSuffixOf_iff_suffix.mpr ⟨u, rfl⟩
    rw [uploadKey, if_neg (by simp), if_pos hs]

-- A write, and the load that follows it.
theorem finish_always {p : Reply Unit} {change : Place → World → Prop} (hp : s.place lib w = .ok pl)
    (h : Prog.Always (among Calm befall) (fun r w' => Writes (Faulty Calm) w (s.place lib w) change r w')
      (p : Prog ops (Except Refusal Unit)) w) :
    Prog.Always (among Calm befall)
      (fun s' w' => change pl w' ∧ Loads lib rfc3339 (Faulty Calm) s w' s') (s.finish lib rfc3339 p) w := by
  rw [Page.finish, Prog.always_bind]
  refine h.mono fun r w' hr => ?_
  rw [hp] at hr
  have ⟨hc, a, ha⟩ := writes_calm hr
  subst ha
  exact reload_always.mono fun s' w'' ⟨hw, hl⟩ => hw ▸ ⟨hc, hl⟩

theorem upload_calm (hs : s.Proper) (hp : s.place lib w = .ok pl) {name contentType body : Str}
    (hn : name ≠ []) {fates : Nat → Fate} (hc : ∀ n, Calm (fates n)) : ∃ o : Stored, o.body = body ∧
    step lib rfc3339 (s, w) (.event (.upload name contentType body) fates) =
      ({ s with items := rowsOf rfc3339 (pl.contents.insert (s.pre ++ name) o) s.pre },
        w.store pl.host pl.bucket (pl.contents.insert (s.pre ++ name) o)) := by
  have hk : s.pre ++ name ≠ [] := fun h => hn (List.append_eq_nil_iff.mp h).right
  have h : Prog.Always (among Calm befall)
      (fun s' w' => Puts (s.pre ++ name) body w pl w' ∧ Loads lib rfc3339 (Faulty Calm) s w' s')
      (s.handle lib rfc3339 (.upload name contentType body)) w := by
    refine finish_always hp ?_
    rw [uploadKey_folder hs.folder]
    refine writes_keyed _ (by rwa [keyQuery_key]) ?_
    rw [keyQuery_key, keyQuery_bucket]
    exact writes_upload
  have ⟨⟨o, hb, hw⟩, hl⟩ := h.play_among hc
  have hp' := placeIn_store hp (pl.contents.insert (s.pre ++ name) o)
  rw [← hw] at hp'
  exact ⟨o, hb, Prod.ext (loads_calm hl hp') hw⟩

theorem delete_calm (hp : s.place lib w = .ok pl) {key : Str} (hk : key ≠ []) (hr : ∃ x ∈ s.items, !x.isPrefix ∧ x.key = key)
    {fates : Nat → Fate} (hc : ∀ n, Calm (fates n)) : step lib rfc3339 (s, w) (.event (.delete key) fates) =
    ({ s with items := rowsOf rfc3339 (pl.contents.erase key) s.pre },
      w.store pl.host pl.bucket (pl.contents.erase key)) := by
  have h : Prog.Always (among Calm befall)
      (fun s' w' => Removes key w pl w' ∧ Loads lib rfc3339 (Faulty Calm) s w' s')
      (s.handle lib rfc3339 (.delete key)) w := by
    rw [Page.handle, if_pos hr]
    refine finish_always hp ?_
    refine writes_keyed _ (by rwa [keyQuery_key]) ?_
    rw [keyQuery_key, keyQuery_bucket]
    exact writes_delete
  have ⟨hw, hl⟩ := h.play_among hc
  have hp' := placeIn_store hp (pl.contents.erase key)
  rw [← hw] at hp'
  exact Prod.ext (loads_calm hl hp') hw

theorem download_calm (hp : s.place lib w = .ok pl) {key : Str} (hk : key ≠ []) {o : Stored}
    (ho : pl.contents.lookup key = some o) {fates : Nat → Fate} (hc : ∀ n, Calm (fates n)) :
    Prog.play befall (downloadS3Object lib s.ns s.secretName (s.keyQuery key) : Prog ops (Except Refusal Stored)) fates w =
      (.ok o, w) := by
  have h : Reads (among Calm befall) (Faulty Calm) (.ok o) (downloadS3Object lib s.ns s.secretName (s.keyQuery key)) w :=
    reads_downloadObject ⟨keyQuery_key s key, hk⟩ (keyQuery_bucket s key) hp ho
  have ⟨hw, hr⟩ := h.play_among hc
  exact Prod.ext (gives_ok hr) hw

-- What is uploaded is shown where the user is, is downloaded as it was uploaded, and is gone when it is deleted. All
-- other objects stay as they are.
theorem uploaded_kept (lib : Lib) (rfc3339 : Time → Str) (ns secretName : Str) (bucket : Option Str) (w : World)
    (moves : List Move) (name contentType body : Str) (hn : name ≠ [] ∧ slash ∉ name) (up down gone : Nat → Fate)
    (hu : ∀ n, Calm (up n)) (hd : ∀ n, Calm (down n)) (hg : ∀ n, Calm (gone n)) (pl : Place) :
    let t := after lib rfc3339 (Page.opened ns secretName bucket, w) moves
    let key := t.1.pre ++ name
    let t₁ := step lib rfc3339 t (.event (.upload name contentType body) up)
    let t₂ := step lib rfc3339 t₁ (.event (.delete key) gone)
    t.1.place lib t.2 = .ok pl →
    ∃ o : Stored, o.body = body ∧
      t₁.2 = t.2.store pl.host pl.bucket (pl.contents.insert key o) ∧
      Shows rfc3339 (pl.contents.insert key o) t.1.pre t₁.1.items ∧ fileRow rfc3339 key o ∈ t₁.1.items ∧
      Prog.play befall (downloadS3Object lib t₁.1.ns t₁.1.secretName (t₁.1.keyQuery key) : Prog ops _) down t₁.2 =
        (.ok o, t₁.2) ∧
      t₂.2 = t.2.store pl.host pl.bucket (pl.contents.erase key) ∧
      Shows rfc3339 (pl.contents.erase key) t.1.pre t₂.1.items := by
  intro t key t₁ t₂ hp
  have ht : t.1.Proper := after_proper (opened_proper ns secretName bucket) moves
  have hk : key ≠ [] := fun h => hn.left (List.append_eq_nil_iff.mp h).right
  obtain ⟨o, hb, h₁⟩ : ∃ o : Stored, o.body = body ∧
      t₁ = ({ t.1 with items := rowsOf rfc3339 (pl.contents.insert key o) t.1.pre },
        t.2.store pl.host pl.bucket (pl.contents.insert key o)) := upload_calm ht hp hn.left hu
  have hs₁ : Shows rfc3339 (pl.contents.insert key o) t.1.pre t₁.1.items := by
    rw [h₁]
    exact shows_rows ht.folder
  have hr₁ : fileRow rfc3339 key o ∈ t₁.1.items :=
    (hs₁.mem_iff _).mpr (.inl ⟨key, o, Finmap.lookup_insert _, Delimited.parent_append hn.right ht.folder, rfl⟩)
  have hp₁ : t₁.1.place lib t₁.2 = .ok ⟨pl.host, pl.bucket, pl.contents.insert key o⟩ := by
    rw [h₁]
    exact placeIn_store hp _
  have h₂ : t₂ = ({ t₁.1 with items := rowsOf rfc3339 ((pl.contents.insert key o).erase key) t₁.1.pre },
      t₁.2.store pl.host pl.bucket ((pl.contents.insert key o).erase key)) :=
    delete_calm hp₁ hk ⟨_, hr₁, rfl, rfl⟩ hg
  have he : (pl.contents.insert key o).erase key = pl.contents.erase key :=
    Finmap.ext_lookup fun k => by
      by_cases h : k = key
      case pos => rw [h, Finmap.lookup_erase, Finmap.lookup_erase]
      case neg => rw [Finmap.lookup_erase_ne h, Finmap.lookup_erase_ne h, Finmap.lookup_insert_of_ne _ h]
  refine ⟨o, hb, by rw [h₁], hs₁, hr₁, download_calm hp₁ hk (Finmap.lookup_insert _) hd, ?_, ?_⟩
  · rw [h₂, h₁]
    simp only [he, store_store]
  · rw [h₂, h₁]
    simp only [he]
    exact shows_rows ht.folder

theorem notes_kept : ∃ x ∈ (step teamLib (fun _ => []) (Page.opened team (str "data") none, teamWorld)
    (.event (.upload (str "d") [] (str "x")) fun _ => calm)).1.items, x.key = str "d" ∧ x.size = 1 := by
  have hc : ∀ n : Nat, Calm ((fun _ => calm) n) := fun _ => rfl
  have ⟨o, hb, _, _, hr, _⟩ := uploaded_kept teamLib (fun _ => []) team (str "data") none teamWorld [] (str "d") []
    (str "x") (by decide) (fun _ => calm) (fun _ => calm) (fun _ => calm) hc hc hc teamPlace team_place
  exact ⟨_, hr, rfl, congrArg List.length hb⟩

-- Folders that are opened one after the other, while nothing else happens.
inductive Entered (lib : Lib) (rfc3339 : Time → Str) (w : World) : Page → List Str → Page → Prop
  | here (s : Page) : Entered lib rfc3339 w s [] s
  | folder {s s' : Page} {f : Str} {fs : List Str} {fates : Nat → Fate} (hx : ∃ x ∈ s.items, x.isPrefix ∧ x.key = f)
      (hc : ∀ n, Calm (fates n))
      (h : Entered lib rfc3339 w (step lib rfc3339 (s, w) (.event (.folder f) fates)).1 fs s') :
      Entered lib rfc3339 w s (f :: fs) s'

-- The page as it is after a load.
def Page.loaded (rfc3339 : Time → Str) (pl : Place) (s : Page) (pre : Str) : Page :=
  { s with pre, items := rowsOf rfc3339 pl.contents pre }

theorem row_folder {pre f : Str} {b : AiStorage.S3.Bucket} :
    (∃ x ∈ rowsOf rfc3339 b pre, x.isPrefix ∧ x.key = f) ↔ f ∈ Delimited.folders slash pre b.keyList := by
  simp only [mem_rowsOf]
  constructor
  case mp =>
    rintro ⟨x, ⟨k, o, _, _, rfl⟩ | ⟨k, hk, rfl⟩, hp, rfl⟩
    · cases hp
    · exact hk
  case mpr => exact fun hk => ⟨folderRow f, .inr ⟨f, hk, rfl⟩, rfl, rfl⟩

theorem row_file {pre k : Str} {b : AiStorage.S3.Bucket} :
    (∃ x ∈ rowsOf rfc3339 b pre, !x.isPrefix ∧ x.key = k) ↔ k ∈ Delimited.files slash pre b.keyList := by
  simp only [mem_rowsOf]
  constructor
  case mp =>
    rintro ⟨x, ⟨k, o, _, hk, rfl⟩ | ⟨k, hk, rfl⟩, hp, rfl⟩
    · exact hk
    · cases hp
  case mpr =>
    intro hk
    have ⟨o, ho⟩ := Option.isSome_iff_exists.mp (Map.mem_keyList.mp (List.mem_of_mem_filter hk))
    exact ⟨fileRow rfc3339 k o, .inl ⟨k, o, ho, hk, rfl⟩, rfl, rfl⟩

theorem folder_calm (hp : s.place lib w = .ok pl) {f : Str} {fates : Nat → Fate} (hc : ∀ n, Calm (fates n))
    (hf : f ∈ Delimited.folders slash s.pre pl.contents.keyList) (hs : s = s.loaded rfc3339 pl s.pre) :
    step lib rfc3339 (s, w) (.event (.folder f) fates) = (s.loaded rfc3339 pl f, w) := by
  have hx : ∃ x ∈ s.items, x.isPrefix ∧ x.key = f := by
    rw [hs]
    exact row_folder.mpr hf
  have hne : f ≠ s.pre := by
    have ⟨u, t, _, he, _⟩ := Delimited.mem_folders.mp hf
    intro h
    have := congrArg List.length (he.symm.trans h)
    simp at this
  have h : Prog.Always (among Calm befall)
      (fun s' w' => w' = w ∧ Loads lib rfc3339 (Faulty Calm) { s with pre := f } w s')
      (s.handle lib rfc3339 (.folder f)) w := by
    rw [Page.handle, if_pos hx, Page.go, if_neg fun h => hne h.right.right]
    exact reload_always
  have ⟨hw, hl⟩ := h.play_among hc
  exact Prod.ext (loads_calm hl hp) hw

theorem entered_iff (hp : s.place lib w = .ok pl) (hs : s = s.loaded rfc3339 pl s.pre) {fs : List Str} {s' : Page} :
    Entered lib rfc3339 w s fs s' ↔
      ∃ q, Delimited.enter slash pl.contents.keyList s.pre fs = some q ∧ s' = s.loaded rfc3339 pl q := by
  induction fs generalizing s
  case nil =>
    constructor
    case mp =>
      rintro ⟨⟩
      exact ⟨_, rfl, hs⟩
    case mpr =>
      rintro ⟨q, hq, rfl⟩
      cases hq
      rw [← hs]
      exact .here s
  case cons f fs hi =>
    rw [Delimited.enter]
    constructor
    case mp =>
      rintro (_ | ⟨hx, hc, h⟩)
      rw [hs] at hx
      have hf := row_folder.mp hx
      rw [folder_calm hp hc hf hs] at h
      rw [if_pos hf]
      exact (hi (s := s.loaded rfc3339 pl f) hp rfl).mp h
    case mpr =>
      rintro ⟨q, hq, he⟩
      split at hq
      case isFalse   => cases hq
      case isTrue hf =>
        have hn : ∀ n : Nat, Calm ((fun _ => calm) n) := fun _ => rfl
        refine .folder (hs ▸ row_folder.mpr hf) hn ?_
        rw [folder_calm hp hn hf hs]
        exact (hi (s := s.loaded rfc3339 pl f) hp rfl).mpr ⟨q, hq, he⟩

-- A bucket that is there is loaded when the page is opened.
theorem refresh_calm (hp : s.place lib w = .ok pl) {fates : Nat → Fate} (hc : ∀ n, Calm (fates n)) :
    step lib rfc3339 (s, w) (.event .refresh fates) = (s.loaded rfc3339 pl s.pre, w) := by
  have h : Prog.Always (among Calm befall) (fun s' w' => w' = w ∧ Loads lib rfc3339 (Faulty Calm) s w s')
      (s.reload lib rfc3339) w := reload_always
  have ⟨hw, hl⟩ := h.play_among hc
  exact Prod.ext (loads_calm hl hp) hw

-- Each object is found at the end of one way through the folders, which is the way that its key says, and nothing else
-- is found.
theorem found_once (lib : Lib) (rfc3339 : Time → Str) (ns secretName : Str) (bucket : Option Str) (w : World) (pl : Place)
    (fates : Nat → Fate) (hc : ∀ n, Calm (fates n)) (hp : (Page.opened ns secretName bucket).place lib w = .ok pl) :
    let s := (step lib rfc3339 (Page.opened ns secretName bucket, w) (.event .refresh fates)).1
    ∀ fs k, (∃ s', Entered lib rfc3339 w s fs s' ∧ ∃ x ∈ s'.items, !x.isPrefix ∧ x.key = k) ↔
      (pl.contents.lookup k).isSome ∧ fs = Delimited.path slash [] k := by
  intro s fs k
  have hs : s = (Page.opened ns secretName bucket).loaded rfc3339 pl [] := congrArg Prod.fst (refresh_calm hp hc)
  have he : (∃ q, Delimited.enter slash pl.contents.keyList [] fs = some q ∧
      k ∈ Delimited.files slash q pl.contents.keyList) ↔ _ := Delimited.enter_iff
  simp only [List.nil_append, exists_eq_left', Map.mem_keyList] at he
  rw [← he, hs]
  constructor
  case mp =>
    rintro ⟨s', h, hx⟩
    have ⟨q, hq, hs'⟩ := (entered_iff (s := Page.loaded rfc3339 pl _ []) hp rfl).mp h
    subst hs'
    exact ⟨q, hq, row_file.mp hx⟩
  case mpr =>
    rintro ⟨q, hq, hk⟩
    exact ⟨_, (entered_iff (s := Page.loaded rfc3339 pl _ []) hp rfl).mpr ⟨q, hq, rfl⟩, row_file.mpr hk⟩

theorem weights_found : ∃ s', Entered teamLib (fun _ => []) teamWorld
    (step teamLib (fun _ => []) (Page.opened team (str "data") none, teamWorld) (.event .refresh fun _ => calm)).1
    [str "a/"] s' ∧ ∃ x ∈ s'.items, !x.isPrefix ∧ x.key = str "a/b" :=
  (found_once teamLib (fun _ => []) team (str "data") none teamWorld teamPlace (fun _ => calm) (fun _ => rfl) team_place
    [str "a/"] (str "a/b")).mpr ⟨by decide, by decide⟩

theorem segments_join {ws : List Str} (hw : ∀ v ∈ ws, slash ∉ v) :
    segments (Delimited.join slash ws) = ws.filter (· ≠ []) := by
  rw [← Delimited.names_join hw, ← Delimited.names_dropWhile slash (Delimited.join slash ws),
    ← Delimited.names_dropWhile_reverse slash (List.dropWhile _ _)]
  rfl

theorem crumbs_goto (pre : Str) : (crumbs pre).map Crumb.goto = [] ::
    (List.range (segments pre).length).map fun i => Delimited.join slash ((segments pre).take (i + 1)) := by
  rw [crumbs, List.map_cons, List.map_map]
  refine congrArg _ (List.map_congr_left fun i hi => Delimited.join_eq fun h => ?_)
  rw [List.mem_range] at hi
  have := congrArg List.length h
  simp at this
  simp [this] at hi

-- The crumbs lead back through the folders that were opened exactly where none of them has an empty name.
theorem crumbs_lead_back (lib : Lib) (rfc3339 : Time → Str) (ns secretName : Str) (bucket : Option Str) (w : World)
    (pl : Place) (fates : Nat → Fate) (hc : ∀ n, Calm (fates n))
    (hp : (Page.opened ns secretName bucket).place lib w = .ok pl) :
    let s := (step lib rfc3339 (Page.opened ns secretName bucket, w) (.event .refresh fates)).1
    ∀ fs s', Entered lib rfc3339 w s fs s' →
      ((crumbs s'.pre).map Crumb.goto = [] :: fs ↔ ¬str "//" <:+: str "/" ++ s'.pre) := by
  intro s fs s' h
  have hs : s = (Page.opened ns secretName bucket).loaded rfc3339 pl [] := congrArg Prod.fst (refresh_calm hp hc)
  rw [hs] at h
  have ⟨q, hq, hs'⟩ := (entered_iff (s := Page.loaded rfc3339 pl _ []) hp rfl).mp h
  obtain ⟨ws, hw, hj, hfs⟩ : ∃ ws, (∀ v ∈ ws, slash ∉ v) ∧ q = Delimited.join slash ws ∧
    fs = Delimited.path slash [] (Delimited.join slash ws) := Delimited.path_of_enter hq
  subst hs' hfs
  change (crumbs q).map Crumb.goto = _ ↔ ¬[slash, slash] <:+: slash :: q
  rw [hj, Delimited.doubled_iff hw, crumbs_goto, segments_join hw, Delimited.path_join hw]
  simp only [List.cons.injEq, true_and, List.nil_append]
  have hn : ws.filter (· ≠ []) = ws ↔ [] ∉ ws := by
    simp [List.filter_eq_self]
    grind
  rw [← hn]
  constructor
  case mp =>
    intro he
    have hl := congrArg List.length he
    simp only [List.length_map, List.length_range] at hl
    exact List.filter_sublist.eq_of_length hl
  case mpr => exact fun he => by rw [he]

theorem weights_crumbs : (crumbs (str "a/")).map Crumb.goto = [[], str "a/"] := by
  have hc : ∀ n : Nat, Calm ((fun _ => calm) n) := fun _ => rfl
  have hf : str "a/" ∈ Delimited.folders slash [] teamPlace.contents.keyList := by decide
  have he : Entered teamLib (fun _ => []) teamWorld
      (step teamLib (fun _ => []) (Page.opened team (str "data") none, teamWorld) (.event .refresh fun _ => calm)).1
      [str "a/"] ((Page.opened team (str "data") none).loaded (fun _ => []) teamPlace (str "a/")) := by
    rw [refresh_calm team_place hc]
    exact (entered_iff (s := Page.loaded _ teamPlace _ []) team_place rfl).mpr ⟨str "a/", if_pos hf, rfl⟩
  exact (crumbs_lead_back teamLib (fun _ => []) team (str "data") none teamWorld teamPlace (fun _ => calm) hc team_place
    [str "a/"] _ he).mpr (by decide)

end Calm

end Console.S3Folders

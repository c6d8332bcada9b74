import Knaic.Effects.Prog
import Knaic.Go.Path
import Knaic.Go.Utf8

open Go Effects

-- The console, which the server has in a directory.
namespace Api.Static

inductive Node
  | file (content : Str)
  | dir
deriving DecidableEq

inductive Op
  | stat (path : Str)
  | openFile (path : Str)

def Op.path : Op → Str
  | stat p | openFile p => p

abbrev files : Signature where
  Op    := Op
  Res _ := Option Node

abbrev Call :=
  Prog files

def stat (path : Str) : Call (Option Node) :=
  @Prog.perform files (.stat path)

def openFile (path : Str) : Call (Option Node) :=
  @Prog.perform files (.openFile path)

inductive Reply
  | notFound
  | badRequest
  | failed
  | moved (place : Str)
  | content (text : Str)
  | listing
deriving DecidableEq

section NetHttp

-- What `filepath.Localize` takes of a clean path.
def localizable (path : Str) : Bool :=
  Utf8.toValid path = path && !path.contains 0

-- `http.Dir.Open`.
def dirOpen (dir name : Str) : Call (Option Node) :=
  let path := (Path.clean (Url.slash :: name)).tail
  let path := if path = [] then Path.dot else path
  if localizable path then
    openFile (Path.join (if dir = [] then Path.dot else dir) path)
  else
    return none

def indexName : Str :=
  str "index.html"

def indexPage : Str :=
  Url.slash :: indexName

-- `path.Base`.
def base (p : Str) : Str :=
  if p = [] then Path.dot else (((Url.segments p).filter (· ≠ [])).getLast?).getD [Url.slash]

def serveFile (dir name url : Str) (redirect : Bool) : Call Reply := do
  if url.hasSuffix indexPage then
    return .moved (str "./")
  else
    match ← dirOpen dir name with
    | none              => return .failed
    | some (.file text) =>
      if redirect ∧ url.hasSuffix [Url.slash] then
        if base url = [Url.slash] ∨ base url = Path.dot then
          return .failed
        else
          return .moved (str "../" ++ base url)
      else
        return .content text
    | some .dir         =>
      if url.hasSuffix [Url.slash] then
        match ← dirOpen dir (Str.trimSuffix name [Url.slash] ++ indexPage) with
        | some (.file text) => return .content text
        | _                 => return .listing
      else
        return .moved (base url ++ [Url.slash])

-- `http.FileServer`.
def fileServer (root url : Str) : Call Reply :=
  let upath := if url.hasPrefix [Url.slash] then url else Url.slash :: url
  serveFile root (Path.clean upath) upath true

def containsDotDot (url : Str) : Bool :=
  (url.splitOnP fun b => b = 47 || b = 92).contains Path.dotdot

-- `http.ServeFile`.
def serveNamed (name url : Str) : Call Reply :=
  if containsDotDot url then return .badRequest else serveFile (Path.split name).1 (Path.split name).2 url false

end NetHttp

def reserved (url : Str) : Bool :=
  url.hasPrefix (str "/api/") || url = str "/healthz" || url = str "/readyz"

def handle (rootDir url : Str) : Call Reply :=
  if reserved url then
    return .notFound
  else
    let clean := Str.trimPrefix (Path.clean (Url.slash :: url)) [Url.slash]
    let full  := Path.join rootDir clean
    match Path.rel rootDir full with
    | none     => return .notFound
    | some rel =>
      if rel.hasPrefix Path.dotdot then
        return .notFound
      else do
        match ← stat full with
        | some (.file _) => fileServer rootDir url
        | _              => serveNamed (Path.join rootDir indexName) url

-- There is no handler where there is no console.
def staticHandler (rootDir : Str) : Call (Option (Str → Call Reply)) :=
  if rootDir = [] then
    return none
  else do
    match ← stat (Path.join rootDir indexName) with
    | some (.file _) => return some (handle rootDir)
    | _              => return none

-- The router, where none of its routes is for a request.
def notFound : Option (Str → Call Reply) → Str → Call Reply
  | none, _   => return .notFound
  | some h, r => h r

def answered (h : Option (Str → Call Reply)) : List Str → Call (List Reply)
  | []          => return []
  | url :: urls => do
    let reply ← notFound h url
    return reply :: (← answered h urls)

def serve (rootDir : Str) (urls : List Str) : Call (List Reply) := do
  answered (← staticHandler rootDir) urls

-- Where names below the directory are.
def place (root : Str) (vs : List Str) : Str :=
  Path.spell (Path.isRooted root) (Path.reduce (Path.isRooted root) (Path.elements root) ++ vs)

-- The names that a request is about.
def requested (url : Str) : List Str :=
  Path.reduce true (Path.elements url)

variable {root url : Str} {vs : List Str}

section Places

theorem names_requested : ∀ w ∈ requested url, Path.Name w :=
  Path.names_rooted url

theorem name_index : Path.Name indexName :=
  ⟨by decide, by decide, by decide, by decide⟩

theorem join_index (hr : root ≠ []) : Path.join root indexName = place root [indexName] := by
  have hj := Path.join_names hr (List.forall_mem_singleton.mpr name_index)
  rwa [Path.join_singleton] at hj

theorem join_place (hr : root ≠ []) (h : ∀ w ∈ vs, Path.Name w) : Path.join root (Url.join vs) = place root vs :=
  Path.join_names hr h

theorem trimPrefix_clean (url : Str) :
    Str.trimPrefix (Path.clean (Url.slash :: url)) [Url.slash] = Url.join (requested url) := by
  rw [Path.clean_rooted]
  exact Str.trimPrefix_append [Url.slash] _

theorem requested_place (h : ∀ w ∈ vs, Path.Name w) : requested (Url.slash :: Url.join vs) = vs := by
  have hr : Path.reduce true ([] ++ vs) = Path.reduce true [] ++ vs := Path.reduce_append h
  rw [requested, Path.elements_slash, Path.elements_join fun w hw => (h w hw).element]
  exact hr

-- What `http.Dir` makes of names.
def relative (vs : List Str) : Str :=
  if vs = [] then Path.dot else Url.join vs

theorem elements_relative (h : ∀ w ∈ vs, Path.Name w) : Path.elements (relative vs) = vs := by
  by_cases hv : vs = []
  case pos =>
    subst hv
    decide
  case neg =>
    rw [relative, if_neg hv]
    exact Path.elements_join fun w hw => (h w hw).element

theorem dirOpen_eq (d name : Str) : dirOpen d name =
    if localizable (relative (requested name)) then openFile (place d (requested name)) else return none := by
  have hj : (Path.clean (Url.slash :: name)).tail = Url.join (requested name) := by
    rw [Path.clean_rooted]
    rfl
  have hd : (if Url.join (requested name) = [] then Path.dot else Url.join (requested name)) = relative (requested name) := by
    have hn : Url.join (requested name) = [] ↔ requested name = [] := by
      constructor
      case mp =>
        intro hn
        have hv : Path.elements (Url.join (requested name)) = requested name :=
          Path.elements_join fun w hw => (names_requested w hw).element
        rw [hn] at hv
        exact hv.symm
      case mpr => exact fun hn => hn ▸ rfl
    simp only [hn, relative]
  have hp : Path.join (if d = [] then Path.dot else d) (relative (requested name)) = place d (requested name) := by
    rw [Path.join_dir, elements_relative names_requested, Path.reduce_append names_requested]
    rfl
  simp only [dirOpen, hj, hd, hp]

-- The index is split into the directory and its own name.
theorem split_index (hr : root ≠ []) : (Path.split (Path.join root indexName)).2 = indexName ∧
    ∀ vs, place (Path.split (Path.join root indexName)).1 vs = place root vs := by
  have hb := Path.reduced_clean root
  obtain ⟨h2, he, hi⟩ : (Path.split (place root [indexName])).2 = indexName ∧
      Path.elements (Path.split (place root [indexName])).1 = Path.reduce (Path.isRooted root) (Path.elements root) ∧
      Path.isRooted (Path.split (place root [indexName])).1 = Path.isRooted root :=
    Path.split_spell hb.element name_index.element
  rw [join_index hr]
  refine ⟨h2, fun vs => ?_⟩
  have hp (d : Str) : place d vs = Path.spell (Path.isRooted d) (Path.reduce (Path.isRooted d) (Path.elements d) ++ vs) := rfl
  rw [hp, hi, he, hb.reduce, hp]

end Places

section Confinement

-- The operation is on the directory or on something below it.
def Below (root : Str) (op : Op) : Prop :=
  ∃ vs, (∀ w ∈ vs, Path.Name w) ∧ op.path = place root vs

theorem dirOpen_below (d name : Str) : (dirOpen d name).Only (Below d) := by
  rw [dirOpen_eq]
  split
  case isTrue  => exact .perform ⟨_, names_requested, rfl⟩
  case isFalse => trivial

theorem serveFile_below (d name url : Str) (redirect : Bool) : (serveFile d name url redirect).Only (Below d) := by
  unfold serveFile
  split
  case isTrue  => trivial
  case isFalse =>
    refine .bind (dirOpen_below d name) fun r => ?_
    cases r
    case none   => trivial
    case some n =>
      cases n
      case file text =>
        dsimp only
        split
        case isTrue  => split <;> trivial
        case isFalse => trivial
      case dir       =>
        dsimp only
        split
        case isTrue  =>
          refine .bind (dirOpen_below d _) fun r => ?_
          rcases r with _ | _ | _ <;> trivial
        case isFalse => trivial

theorem handle_below (hr : root ≠ []) (url : Str) : (handle root url).Only (Below root) := by
  have hi (url : Str) : (serveNamed (Path.join root indexName) url).Only (Below root) := by
    unfold serveNamed
    split
    case isTrue  => trivial
    case isFalse =>
      refine (serveFile_below _ _ url false).mono fun op h => ?_
      obtain ⟨vs, hn, hp⟩ := h
      exact ⟨vs, hn, hp.trans ((split_index hr).right vs)⟩
  simp only [handle, trimPrefix_clean, join_place hr names_requested]
  split
  case isTrue  => trivial
  case isFalse =>
    split
    case h_1 => trivial
    case h_2 =>
      split
      case isTrue  => trivial
      case isFalse =>
        refine .bind (.perform ⟨_, names_requested, rfl⟩) fun r => ?_
        rcases r with _ | _ | _
        case none       => exact hi url
        case some.file  => exact serveFile_below ..
        case some.dir   => exact hi url

theorem answered_below {h : Option (Str → Call Reply)} (hb : ∀ url, (notFound h url).Only (Below root)) (urls : List Str) :
    (answered h urls).Only (Below root) := by
  induction urls
  case nil              => trivial
  case cons url urls hi => exact .bind (hb url) fun _ => .bind hi fun _ => trivial

-- Whatever is asked for, and whatever the file system answers, nothing is looked at outside of the directory.
theorem serve_below (root : Str) (urls : List Str) : (serve root urls).Only (Below root) := by
  have ha : ∀ url, (notFound none url).Only (Below root) := fun _ => trivial
  have hn : (answered none urls).Only (Below root) := answered_below ha urls
  by_cases hr : root = []
  case pos =>
    subst hr
    exact hn
  case neg =>
    rw [serve, staticHandler, if_neg hr, join_index hr, Prog.bind_assoc]
    refine .bind (.perform ⟨_, List.forall_mem_singleton.mpr name_index, rfl⟩) fun r => ?_
    rcases r with _ | _ | _
    case none      => exact hn
    case some.file => exact answered_below (handle_below hr) urls
    case some.dir  => exact hn

end Confinement

section Serving

-- The file system answers from a state that does not change.
def answer (op : Op) (disk : Str → Option Node) : Option Node × (Str → Option Node) :=
  (disk op.path, disk)

def get (disk : Str → Option Node) (root url : Str) : Reply :=
  ((handle root url).run answer disk).1

def replies (disk : Str → Option Node) (root : Str) (urls : List Str) : List Reply :=
  ((serve root urls).run answer disk).1

def isFile : Option Node → Bool
  | some (.file _) => true
  | _              => false

theorem isFile_iff {n : Option Node} : isFile n ↔ ∃ text, n = some (.file text) := by
  rcases n with _ | _ | _ <;> simp [isFile]

-- The names that are refused: the first of them begins like a way up.
def hidden (vs : List Str) : Bool :=
  (vs.headD []).hasPrefix Path.dotdot

def fromRoot (url : Str) : Str :=
  if url.hasPrefix [Url.slash] then url else Url.slash :: url

def shown (name url : Str) (redirect : Bool) (text : Str) : Reply :=
  if url.hasSuffix indexPage then
    .moved (str "./")
  else if ¬localizable (relative (requested name)) then
    .failed
  else if redirect ∧ url.hasSuffix [Url.slash] then
    if base url = [Url.slash] ∨ base url = Path.dot then .failed else .moved (str "../" ++ base url)
  else
    .content text

variable {disk : Str → Option Node} {index text : Str}

theorem hidden_relative (h : ∀ w ∈ vs, Path.Name w) : (relative vs).hasPrefix Path.dotdot = hidden vs := by
  cases vs
  case nil       => decide
  case cons v vs =>
    have hn := (h v (.head _)).nonempty
    cases vs
    case nil       =>
      rw [relative, if_neg (List.cons_ne_nil _ _), Path.join_singleton]
      rfl
    case cons u us =>
      rw [relative, if_neg (List.cons_ne_nil _ _), Path.join_cons_cons, hidden, List.headD_cons]
      have hd : Path.dotdot = [46, 46] := by decide
      -- the second byte is of the first name, or it is a slash
      rcases v with _ | ⟨a, _ | ⟨b, v⟩⟩
      · exact absurd rfl hn
      · simp [Str.hasPrefix, hd, Url.slash, List.isPrefixOf]
      · simp [Str.hasPrefix, hd, List.isPrefixOf]

theorem run_after {α β : Type} {p : Call α} {a : α} (hp : p.run answer disk = (a, disk)) (f : α → Call β) :
    (p >>= f).run answer disk = (f a).run answer disk := by
  have hb : (p >>= f).run answer disk = (f (p.run answer disk).1).run answer (p.run answer disk).2 :=
    Prog.run_bind p f disk
  rw [hb, hp]

-- Nothing is written.
theorem run_still {α : Type} (p : Call α) : p.run answer disk = ((p.run answer disk).1, disk) := by
  induction p
  case ret       => rfl
  case call k hi => exact hi _

theorem run_dirOpen (d name : Str) : (dirOpen d name).run answer disk =
    (if localizable (relative (requested name)) then disk (place d (requested name)) else none, disk) := by
  rw [dirOpen_eq]
  split <;> rfl

theorem serveFile_file {d name : Str} {redirect : Bool} (hf : disk (place d (requested name)) = some (.file text)) :
    ((serveFile d name url redirect).run answer disk).1 = shown name url redirect text := by
  unfold serveFile shown
  split
  case isTrue  => rfl
  case isFalse =>
    rw [run_after (run_dirOpen d name), hf]
    by_cases hl : localizable (relative (requested name))
    case neg =>
      rw [if_neg hl, if_pos hl]
      rfl
    case pos =>
      rw [if_pos hl, if_neg (not_not.mpr hl)]
      dsimp only
      split
      case isTrue  => split <;> rfl
      case isFalse => rfl

theorem requested_fromRoot (url : Str) : requested (Path.clean (fromRoot url)) = requested url := by
  have hc (t : Str) : requested (Path.clean (Url.slash :: t)) = requested t := by
    rw [Path.clean_rooted]
    exact requested_place names_requested
  unfold fromRoot
  split
  case isTrue h  =>
    obtain ⟨t, rfl⟩ := Str.hasPrefix_iff.mp h
    refine (hc t).trans ?_
    rw [requested, requested, List.singleton_append, Path.elements_slash]
  case isFalse h => exact hc url

theorem requested_index : requested indexName = [indexName] := by
  decide

theorem localizable_index : localizable (relative [indexName]) := by
  decide

theorem get_eq (hr : root ≠ []) (hi : disk (place root [indexName]) = some (.file index)) (url : Str) :
    get disk root url =
      if reserved url ∨ hidden (requested url) then .notFound
      else match disk (place root (requested url)) with
        | some (.file text) => shown (Path.clean (fromRoot url)) (fromRoot url) true text
        | _                 =>
          if containsDotDot url then .badRequest
          else if url.hasSuffix indexPage then .moved (str "./")
          else .content index := by
  have hl : Path.rel root (Path.join root (Url.join (requested url))) = some (relative (requested url)) :=
    Path.rel_join hr names_requested
  have named : ((serveNamed (Path.join root indexName) url).run answer disk).1 =
      if containsDotDot url then .badRequest else if url.hasSuffix indexPage then .moved (str "./") else .content index := by
    obtain ⟨h2, hp⟩ := split_index hr
    unfold serveNamed
    split
    case isTrue  => rfl
    case isFalse =>
      have hf : disk (place (Path.split (Path.join root indexName)).1 (requested (Path.split (Path.join root indexName)).2)) =
          some (.file index) := by
        rw [h2, requested_index, hp, hi]
      refine (serveFile_file hf).trans ?_
      rw [h2, shown, requested_index, if_neg (not_not.mpr localizable_index)]
      simp
  unfold get handle
  by_cases hv : reserved url
  case pos =>
    rw [if_pos hv, if_pos (.inl hv)]
    rfl
  case neg =>
    rw [if_neg hv]
    simp only [trimPrefix_clean, hl, hidden_relative names_requested]
    by_cases hh : hidden (requested url)
    case pos =>
      rw [if_pos hh, if_pos (.inr hh)]
      rfl
    case neg =>
      rw [if_neg hh, if_neg (not_or.mpr ⟨hv, hh⟩), join_place hr names_requested]
      have hs : (stat (place root (requested url))).run answer disk = (disk (place root (requested url)), disk) := rfl
      rw [run_after hs]
      have hf := requested_fromRoot url
      rcases hd : disk (place root (requested url)) with _ | _ | _
      case none      => exact named
      case some.dir  => exact named
      case some.file =>
        rw [← hf] at hd
        exact serveFile_file hd

theorem run_requests (h : Option (Str → Call Reply)) (urls : List Str) : (answered h urls).run answer disk =
    (urls.map fun url => ((notFound h url).run answer disk).1, disk) := by
  induction urls
  case nil              => rfl
  case cons url urls hi =>
    rw [answered, run_after (run_still _), run_after hi]
    rfl

-- What the requests are answered, each by itself.
theorem replies_eq (root : Str) (urls : List Str) : replies disk root urls = urls.map fun url =>
    if root ≠ [] ∧ isFile (disk (place root [indexName])) then get disk root url else .notFound := by
  have hn : ((answered none urls).run answer disk).1 = urls.map fun _ => .notFound :=
    congrArg Prod.fst (run_requests none urls)
  by_cases hr : root = []
  case pos =>
    subst hr
    exact hn
  case neg =>
    have hs : (stat (place root [indexName])).run answer disk = (disk (place root [indexName]), disk) := rfl
    rw [replies, serve, staticHandler, if_neg hr, join_index hr, Prog.bind_assoc, run_after hs]
    rcases disk (place root [indexName]) with _ | _ | _
    case none      => simpa [isFile] using hn
    case some.dir  => simpa [isFile] using hn
    case some.file =>
      have hg : ((answered (some (handle root)) urls).run answer disk).1 = urls.map (get disk root) :=
        congrArg Prod.fst (run_requests (some (handle root)) urls)
      simpa [isFile, hr] using hg

variable {urls : List Str} {i : Nat}

-- Only where there is a console is there anything but a refusal.
theorem replied_iff {r : Reply} (hu : urls[i]? = some url) (hn : r ≠ .notFound) : (replies disk root urls)[i]? = some r ↔
    root ≠ [] ∧ isFile (disk (place root [indexName])) ∧ get disk root url = r := by
  rw [replies_eq, List.getElem?_map, hu, Option.map_some, Option.some.injEq, ← and_assoc]
  split
  case isTrue h  => exact (and_iff_right h).symm
  case isFalse h => exact ⟨fun he => absurd he.symm hn, fun hg => absurd hg.left h⟩

theorem get_booted_iff {page : Str} (hr : root ≠ []) (hp : disk (place root [indexName]) = some (.file page))
    (hf : ¬isFile (disk (place root (requested url)))) : get disk root url = .content index ↔ page = index ∧
      ¬reserved url ∧ ¬hidden (requested url) ∧ ¬containsDotDot url ∧ ¬url.hasSuffix indexPage := by
  rw [get_eq hr hp]
  rcases hd : disk (place root (requested url)) with _ | _ | _
  case some.file => exact absurd (hd ▸ rfl) hf
  all_goals
    by_cases hv : reserved url <;> by_cases hh : hidden (requested url) <;> by_cases hc : containsDotDot url <;>
      by_cases hs : url.hasSuffix indexPage <;> simp [hv, hh, hc, hs]

-- Where no file is meant, the console itself comes.
theorem booted_iff (hu : urls[i]? = some url) (hf : ¬isFile (disk (place root (requested url)))) :
    (replies disk root urls)[i]? = some (.content index) ↔
      root ≠ [] ∧ disk (place root [indexName]) = some (.file index) ∧
        ¬reserved url ∧ ¬hidden (requested url) ∧ ¬containsDotDot url ∧ ¬url.hasSuffix indexPage := by
  rw [replied_iff hu Reply.noConfusion]
  constructor
  case mp =>
    intro ⟨hr, hi, hg⟩
    obtain ⟨page, hp⟩ := isFile_iff.mp hi
    obtain ⟨rfl, h⟩ := (get_booted_iff hr hp hf).mp hg
    exact ⟨hr, hp, h⟩
  case mpr =>
    intro ⟨hr, hp, h⟩
    exact ⟨hr, isFile_iff.mpr ⟨index, hp⟩, (get_booted_iff hr hp hf).mpr ⟨rfl, h⟩⟩

-- A console of two files.
def shipped (path : Str) : Option Node :=
  if path = str "/app/index.html" then some (.file (str "<html>"))
  else if path = str "/app/js/main.js" then some (.file (str "main()"))
  else none

theorem runs_booted : (replies shipped (str "/app") [str "/readyz", str "/runs/7"])[1]? = some (.content (str "<html>")) ∧
    (replies shipped (str "/app") [str "/..runs"])[0]? ≠ some (.content (str "<html>")) :=
  ⟨(booted_iff rfl (by decide)).mpr ⟨by decide, by decide, by decide, by decide, by decide, by decide⟩,
    fun h => ((booted_iff rfl (by decide)).mp h).2.2.2.1 (by decide)⟩

-- A file of the console comes as it is.
theorem asset_iff (hu : urls[i]? = some (Url.slash :: Url.join vs)) (h : ∀ w ∈ vs, Path.Name w) (hv : vs ≠ [])
    (hf : disk (place root vs) = some (.file text)) : (replies disk root urls)[i]? = some (.content text) ↔
      root ≠ [] ∧ isFile (disk (place root [indexName])) ∧ ¬reserved (Url.slash :: Url.join vs) ∧ ¬hidden vs ∧
        vs.getLast hv ≠ indexName ∧ localizable (Url.join vs) := by
  have he : ∀ w ∈ vs, Path.Element w := fun w hw => (h w hw).element
  have hq : requested (Url.slash :: Url.join vs) = vs := requested_place h
  have hc : Path.clean (Url.slash :: Url.join vs) = Url.slash :: Url.join vs := Path.clean_slash_join h
  have hp : fromRoot (Url.slash :: Url.join vs) = Url.slash :: Url.join vs := if_pos (Str.hasPrefix_append [Url.slash] _)
  have hl : Str.hasSuffix (Url.slash :: Url.join vs) indexPage ↔ vs.getLast hv = indexName :=
    Path.hasSuffix_slash_join he hv (by decide)
  have hd : ¬Str.hasSuffix (Url.slash :: Url.join vs) [Url.slash] := fun hs =>
    (h _ (List.getLast_mem hv)).nonempty ((Path.hasSuffix_slash_join he hv (List.not_mem_nil)).mp hs)
  rw [replied_iff hu Reply.noConfusion]
  refine and_congr_right fun hr => and_congr_right fun hi => ?_
  obtain ⟨page, hx⟩ := isFile_iff.mp hi
  rw [get_eq hr hx, hq, hf]
  simp only [shown, hc, hp, hq, hl, hd, relative, if_neg hv]
  by_cases ha : reserved (Url.slash :: Url.join vs) <;> by_cases hh : hidden vs <;>
    by_cases hi : vs.getLast hv = indexName <;> by_cases ho : localizable (Url.join vs) <;> simp [ha, hh, hi, ho]

theorem names_main : ∀ w ∈ [str "js", str "main.js"], Path.Name w :=
  List.forall_mem_cons.mpr ⟨⟨by decide, by decide, by decide, by decide⟩,
    List.forall_mem_singleton.mpr ⟨by decide, by decide, by decide, by decide⟩⟩

theorem main_answered : (replies shipped (str "/app") [str "/js/main.js"])[0]? = some (.content (str "main()")) :=
  (asset_iff (by decide) names_main (by decide) (by decide)).mpr
    ⟨by decide, by decide, by decide, by decide, by decide, by decide⟩

end Serving

end Api.Static

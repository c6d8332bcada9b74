import Knaic.Go.Fields
import Knaic.Go.UrlParse
import Knaic.Models.Service

open Go Effects

namespace Models

open Go.Url

-- What `normaliseImportURL` uses of a URL. The text of an error is not kept.
def parseImport (lower : Str → Str) (raw : Str) : Except Error (Str × Str) :=
  match Url.parse raw with
  | none   => .error (.foreign [])
  | some u => .ok (Utf8.toLower lower u.host, u.path)

-- The two sites with pages of models, and where a model has its page there.
inductive Site
  | huggingFace
  | modelScope
deriving DecidableEq

namespace Site

def domain : Site → Str
  | huggingFace => str "huggingface.co"
  | modelScope  => str "modelscope.cn"

def scheme : Site → Str
  | huggingFace => str "hf://"
  | modelScope  => str "modelscope://"

def model (site : Site) (path : Str) : Str :=
  match site with
  | huggingFace => path.trim slash
  | modelScope  => (path.trim slash).trimPrefix (str "models/")

-- A host belongs to a site where its last labels are those of the domain.
def Has (site : Site) (host : Str) : Prop :=
  site.domain.splitOn 46 <:+ host.toLower.splitOn 46

-- The host and the front of the path of the pages that `publicSourceURL` names.
def webHost : Site → Str
  | huggingFace => str "huggingface.co"
  | modelScope  => str "www.modelscope.cn"

def lead : Site → Str
  | huggingFace => []
  | modelScope  => str "models/"

def page (site : Site) (name : Str) : Str :=
  str "https" ++ colon :: (str "//" ++ (site.webHost ++ slash :: (site.lead ++ name)))

end Site

-- The page of a model that a URL denotes.
def Denotes (raw : Str) (site : Site) (model : Str) : Prop :=
  ∃ u, Url.parse raw = some u ∧ site.Has u.host ∧ site.model u.path = model

-- What is in front of the domain in a host, which is written in ASCII, is nothing or ends in a dot.
def Delimited (host : Str) : Prop :=
  ∃ site : Site, ∃ sub, host.toLower = sub ++ site.domain ∧ (sub = [] ∨ sub.getLast? = some 46)

-- What a path can hold and be written into a URL as it is.
def Literal (path : Str) : Prop :=
  ∀ b ∈ path, b ≠ question ∧ b ≠ hash ∧ b ≠ percent ∧ isControl b = false

section Sites

variable {site site' : Site} {host name path : Str}

theorem delimited_iff : Delimited host ↔ ∃ site : Site, site.Has host := by
  unfold Delimited Site.Has
  simp only [Utf8.splitOn_suffix_iff]
  refine exists_congr fun site => ⟨?_, ?_⟩
  · rintro ⟨sub, hs, rfl | hd⟩
    · exact .inl hs
    · have ⟨t, ht⟩ := List.getLast?_eq_some_iff.mp hd
      exact .inr ⟨t, by rw [hs, ht, List.append_assoc]; rfl⟩
  · rintro (hs | ⟨t, ht⟩)
    · exact ⟨[], hs, .inl rfl⟩
    · exact ⟨t ++ [46], by rw [ht, List.append_assoc]; rfl, .inr (by simp)⟩

theorem has_suffix (h : site.Has host) : site.domain <:+ host.toLower := by
  rcases Utf8.splitOn_suffix_iff.mp h with he | ⟨t, ht⟩
  · exact he ▸ List.suffix_refl _
  · exact ⟨t ++ [46], by rw [ht, List.append_assoc]; rfl⟩

-- The texts of a site, as far as the reading of its pages rests on them.
structure Site.Written (site : Site) : Prop where
  ne_nil    : site.domain ≠ []
  ascii     : ∀ b ∈ site.domain, b < 0x80
  labels    : site.domain.splitOn 46 <:+ site.webHost.toLower.splitOn 46
  authority : parseAuthority site.webHost = some (none, site.webHost)
  slash     : slash ∉ site.webHost
  hash      : hash ∉ str "//" ++ (site.webHost ++ Url.slash :: site.lead)
  percent   : percent ∉ Url.slash :: site.lead

theorem site_written (site : Site) : site.Written := by
  have h : site.domain ≠ [] ∧ (∀ b ∈ site.domain, b < 0x80) ∧
      site.domain.splitOn 46 <:+ site.webHost.toLower.splitOn 46 ∧
      parseAuthority site.webHost = some (none, site.webHost) ∧ slash ∉ site.webHost ∧
      hash ∉ str "//" ++ (site.webHost ++ slash :: site.lead) ∧ percent ∉ slash :: site.lead := by
    cases site <;> decide +kernel
  have ⟨hn, ha, hl, hp, hs, hh, hc⟩ := h
  exact ⟨hn, ha, hl, hp, hs, hh, hc⟩

theorem has_lower (lower : Str → Str) (h : site.Has host) : site.domain <:+ Utf8.toLower lower host :=
  Utf8.toLower_suffix lower (site_written site).ne_nil (site_written site).ascii (has_suffix h)

-- A domain is not the end of the other one.
theorem site_unique {s : Str} (h : site.domain <:+ s) (h' : site'.domain <:+ s) : site = site' := by
  rcases List.suffix_or_suffix_of_suffix h h' with hs | hs
  all_goals
    revert hs
    cases site <;> cases site' <;> decide

-- What `normaliseImportURL` makes of a URL of a site, of any other one, and what it accepts.
section Normalise

variable {parse : Str → Except Error (Str × Str)} {raw uri : Str} (hp : parse raw = .ok (host, path))

include hp

theorem normalise_site (hs : site.domain <:+ host) : normaliseImportURL parse raw =
    if site.model path = [] then .error (.new "URL must include the model owner/name path")
    else .ok (site.scheme ++ site.model path, site.model path) := by
  unfold normaliseImportURL
  rw [hp]
  have hh := List.isSuffixOf_iff_suffix.mpr hs
  cases site
  case huggingFace => exact if_pos hh
  case modelScope  =>
    have hn : ¬host.hasSuffix (str "huggingface.co") := by
      intro hf
      have hf : Site.huggingFace.domain <:+ host := List.isSuffixOf_iff_suffix.mp hf
      cases site_unique hs hf
    exact (if_neg hn).trans (if_pos hh)

theorem normalise_other (hs : ∀ site : Site, ¬site.domain <:+ host) : normaliseImportURL parse raw =
    .error (.new "URL must be from huggingface.co or modelscope.cn") := by
  have hn (site : Site) : ¬host.hasSuffix site.domain := fun h => hs site (List.isSuffixOf_iff_suffix.mp h)
  unfold normaliseImportURL
  rw [hp]
  exact (if_neg (hn .huggingFace)).trans (if_neg (hn .modelScope))

omit hp in
theorem normalise_ok_iff :
    normaliseImportURL parse raw = .ok (uri, name) ↔ ∃ host path, parse raw = .ok (host, path) ∧
      ∃ site : Site, site.domain <:+ host ∧ name = site.model path ∧ name ≠ [] ∧ uri = site.scheme ++ name := by
  constructor
  · intro h
    cases hp : parse raw
    case error e =>
      unfold normaliseImportURL at h
      rw [hp] at h
      cases h
    case ok r =>
      obtain ⟨host, path⟩ := r
      by_cases hs : ∃ site : Site, site.domain <:+ host
      case neg =>
        rw [normalise_other hp (not_exists.mp hs)] at h
        cases h
      case pos =>
        have ⟨site, hs⟩ := hs
        rw [normalise_site hp hs] at h
        split at h
        case isTrue    => cases h
        case isFalse hn =>
          cases h
          exact ⟨host, path, rfl, site, hs, rfl, hn, rfl⟩
  · rintro ⟨host, path, hp, site, hs, rfl, hn, rfl⟩
    rw [normalise_site hp hs, if_neg hn]

end Normalise

theorem publicSourceURL_site (site : Site) (name : Str) :
    publicSourceURL (site.scheme ++ name) = site.page name := by
  cases site <;> rfl

-- What the name of a model is once the slashes around it are gone.
structure Trimmed (site : Site) (name : Str) : Prop where
  ne_nil : name ≠ []
  right  : name.trimRight slash = name
  left   : site = .huggingFace → name.trimLeft slash = name

theorem trimmed_model (site : Site) (hn : site.model path ≠ []) : Trimmed site (site.model path) := by
  refine ⟨hn, ?_, ?_⟩
  · refine Str.trimRight_suffix (s := path.trim slash) ?_ (Str.trim_trimRight ..)
    cases site
    case huggingFace => exact List.suffix_refl _
    case modelScope  =>
      simp only [Site.model, Str.trimPrefix]
      split
      case isTrue  => exact List.drop_suffix ..
      case isFalse => exact List.suffix_refl _
  · rintro rfl
    exact Str.trim_trimLeft ..

-- What `model` reads in a path of the kind that `page` writes.
theorem model_lead (site : Site) (q : Str) : site.model (slash :: (site.lead ++ q)) =
    match site with
    | .huggingFace => q.trim slash
    | .modelScope  => if q.trimRight slash = [] then str "models" else q.trimRight slash := by
  cases site
  case huggingFace => exact Str.trim_cons ..
  case modelScope  =>
    have hl : Str.trimLeft (str "models/" ++ q) slash = str "models/" ++ q := rfl
    show Str.trimPrefix (Str.trim (slash :: (str "models/" ++ q)) slash) _ = _
    rw [Str.trim_cons, Str.trim, hl, Str.trimRight_append]
    dsimp only
    split
    case isTrue  => decide
    case isFalse => exact Str.trimPrefix_append ..

theorem model_page (h : Trimmed site name) : site.model (slash :: (site.lead ++ name)) = name := by
  rw [model_lead]
  cases site
  case huggingFace => rw [Str.trim, h.left rfl, h.right]
  case modelScope  => rw [h.right, if_neg h.ne_nil]

theorem model_shorter {q : Str} (hl : q.length < name.length) (hn : name ≠ str "models") :
    site.model (slash :: (site.lead ++ q)) ≠ name := by
  rw [model_lead]
  rintro rfl
  cases site
  case huggingFace => exact absurd hl (Nat.not_lt.mpr (Str.trim_length q slash))
  case modelScope  =>
    dsimp only at hl hn
    split at hn
    case isTrue     => exact hn rfl
    case isFalse he =>
      rw [if_neg he] at hl
      exact absurd hl (Nat.not_lt.mpr (Str.trimRight_length q slash))

theorem https_scheme : IsScheme (str "https") :=
  ⟨⟨104, rfl, by decide⟩, List.all_eq_true.mp (by decide)⟩

theorem webHost_has (site : Site) : site.Has site.webHost :=
  (site_written site).labels

theorem front_page (site : Site) (name : Str) :
    front (str "//" ++ (site.webHost ++ slash :: (site.lead ++ name))) =
      str "//" ++ (site.webHost ++ slash :: (site.lead ++ front name)) := by
  cases site <;> rfl

-- What is read where a page of a site is asked for.
theorem page_parsed {u : Reference} (h : Url.parse (site.page name) = some u) :
    u.host = site.webHost ∧ (name.takeWhile (· ≠ hash)).any isControl = false ∧
    ∃ q, unescape (front name) = some q ∧ u.path = slash :: (site.lead ++ q) := by
  have ⟨hc, w, hw, he, hh⟩ := parse_scheme https_scheme h
  have hs := site_written site
  rw [front_page, parseRest_authority https_scheme.toLower.ne_nil hs.slash hs.authority] at hw
  have ⟨v, hv, hw⟩ := Option.map_eq_some_iff.mp hw
  have hp := (setPath_some hv).left
  rw [← List.cons_append, unescape_append hs.percent] at hp
  have ⟨q, hq, hp⟩ := Option.map_eq_some_iff.mp hp
  subst hw
  refine ⟨hh, ?_, q, hq, ?_⟩
  · have ht : (str "//" ++ (site.webHost ++ slash :: (site.lead ++ name))).takeWhile (· ≠ hash) =
        str "//" ++ (site.webHost ++ slash :: (site.lead ++ name.takeWhile (· ≠ hash))) := by
      cases site <;> rfl
    rw [ht] at hc
    simp only [List.any_append, List.any_cons, Bool.or_eq_false_iff] at hc
    exact hc.right.right.right.right.right.right
  · rw [congrArg URL.path he, ← hp]
    rfl

theorem page_literal (site : Site) (h : Literal name) :
    ∃ u, Url.parse (site.page name) = some u ∧ u.host = site.webHost ∧
      u.path = slash :: (site.lead ++ name) := by
  have hs := site_written site
  have hc : (site.page name).any isControl = false := by
    have hn : name.any isControl = false := by simpa using fun b hb => (h b hb).right.right.right
    cases site <;> exact hn
  have hq : front name = name := by
    rw [front, (cut_none fun hm => (h hash hm).right.left rfl).left,
      (cut_none fun hm => (h question hm).left rfl).left]
  have hh : hash ∉ str "//" ++ (site.webHost ++ slash :: (site.lead ++ name)) := by
    have hn : hash ∉ name := fun hm => (h hash hm).right.left rfl
    have hx := hs.hash
    simp only [List.mem_append, List.mem_cons, not_or] at hx ⊢
    exact ⟨hx.left, hx.right.left, hx.right.right.left, hx.right.right.right, hn⟩
  have hp : percent ∉ slash :: (site.lead ++ name) := by
    have hn : percent ∉ name := fun hm => (h percent hm).right.right.left rfl
    have hx := hs.percent
    simp only [List.mem_append, List.mem_cons, not_or] at hx ⊢
    exact ⟨hx.left, hx.right, hn⟩
  obtain ⟨v, hv⟩ : ∃ v, URL.setPath (slash :: (site.lead ++ name)) = some v := by
    rw [URL.setPath, unescape_of_no_percent hp]
    exact ⟨_, rfl⟩
  have hw : parseRest (str "https").toLower
      (front (str "//" ++ (site.webHost ++ slash :: (site.lead ++ name)))) =
      some { v with scheme := (str "https").toLower, user := none, host := site.webHost } := by
    rw [front_page, hq, parseRest_authority https_scheme.toLower.ne_nil hs.slash hs.authority, hv]
    rfl
  obtain ⟨u, hu, he, hh⟩ := parse_of_rest https_scheme hh hc hw
  have hx := (setPath_some hv).left
  rw [unescape_of_no_percent hp] at hx
  exact ⟨u, hu, hh, (congrArg URL.path he).trans (Option.some.inj hx).symm⟩

theorem literal_models : Literal (str "models/") := by
  have h : (str "models/").all (fun b => b ≠ question ∧ b ≠ hash ∧ b ≠ percent ∧ isControl b = false) := by
    decide
  exact fun b hb => of_decide_eq_true (List.all_eq_true.mp h b hb)

-- What makes the page of a name another one makes the path that is read shorter.
theorem page_back (ht : Trimmed site name) :
    (∃ u, Url.parse (site.page name) = some u ∧ site.model u.path = name) ↔ Literal name := by
  constructor
  · rintro ⟨u, hu, hm⟩
    have ⟨_, hc, q, hq, hp⟩ := page_parsed hu
    rw [hp] at hm
    have hl := unescape_length hq
    have hf : front name <+: name.takeWhile (· ≠ hash) := List.takeWhile_prefix _
    have hh : name.takeWhile (· ≠ hash) <+: name := List.takeWhile_prefix _
    have hfl := hf.length_le
    have hhl := hh.length_le
    by_cases hs : q.length < name.length
    case pos =>
      have hn : name = str "models" := by
        by_contra hn
        exact model_shorter hs hn hm
      rw [hn]
      exact fun b hb => literal_models b (List.mem_append_left [slash] hb)
    case neg =>
      have he := hh.eq_of_length (by omega)
      have hk : front name = name := (hf.trans hh).eq_of_length (by omega)
      rw [he] at hc
      intro b hb
      refine ⟨?_, ?_, ?_, ?_⟩
      · rintro rfl
        rw [← hk] at hb
        exact absurd (List.mem_takeWhile_imp hb) (by decide)
      · rintro rfl
        rw [← he] at hb
        exact absurd (List.mem_takeWhile_imp hb) (by decide)
      · rintro rfl
        rw [← hk] at hb
        have hn := List.count_pos_iff.mpr hb
        omega
      · exact Bool.eq_false_iff.mpr (List.any_eq_false.mp hc b hb)
  · intro h
    have ⟨u, hu, _, hp⟩ := page_literal site h
    exact ⟨u, hu, by rw [hp, model_page ht]⟩

theorem literal_model (site : Site) : Literal (site.model path) ↔ Literal path := by
  have hs : slash ≠ question ∧ slash ≠ hash ∧ slash ≠ percent ∧ isControl slash = false := by decide
  have trim : Literal (path.trim slash) ↔ Literal path := by
    refine ⟨fun h b hb => ?_, fun h b hb => ?_⟩
    · by_cases he : b = slash
      case pos => exact he ▸ hs
      case neg => exact h b ((Str.mem_trim he).mpr hb)
    · by_cases he : b = slash
      case pos => exact he ▸ hs
      case neg => exact h b ((Str.mem_trim he).mp hb)
  cases site
  case huggingFace => exact trim
  case modelScope  =>
    rw [Site.model, Str.trimPrefix, ← trim]
    split
    case isFalse => rfl
    case isTrue h =>
      obtain ⟨t, ht⟩ := Str.hasPrefix_iff.mp h
      rw [← ht, List.drop_left]
      have hm := literal_models
      simp only [Literal, List.forall_mem_append] at hm ⊢
      exact ⟨fun h => ⟨hm, h⟩, And.right⟩

end Sites

section Import

variable (lower : Str → Str) {raw uri name : Str}

theorem normalise_import_iff : normaliseImportURL (parseImport lower) raw = .ok (uri, name) ↔
    ∃ u, Url.parse raw = some u ∧ ∃ site : Site, site.domain <:+ Utf8.toLower lower u.host ∧
      name = site.model u.path ∧ name ≠ [] ∧ uri = site.scheme ++ name := by
  rw [normalise_ok_iff]
  unfold parseImport
  cases Url.parse raw
  case none   => simp
  case some u =>
    constructor
    · rintro ⟨_, _, he, h⟩
      cases he
      exact ⟨u, rfl, h⟩
    · rintro ⟨_, he, h⟩
      cases he
      exact ⟨_, _, rfl, h⟩

theorem webHost_lower (site : Site) : site.domain <:+ Utf8.toLower lower site.webHost :=
  has_lower lower (webHost_has site)

-- The host of a URL that is taken is one of a site or its subdomains where it is delimited, and the page
-- and the URI are found again where besides the path can be written as it is.
theorem import_url_exact_iff (h : normaliseImportURL (parseImport lower) raw = .ok (uri, name)) :
    ∃ u, Url.parse raw = some u ∧
      ((∃ site : Site, site.Has u.host) ↔ Delimited u.host) ∧
      ((∃ site model, Denotes raw site model ∧ Denotes (publicSourceURL uri) site model) ↔
        Delimited u.host ∧ Literal u.path) ∧
      ((normaliseImportURL (parseImport lower) (publicSourceURL uri)).map (·.1) = .ok uri ↔ Literal u.path) := by
  have ⟨u, hu, site, hd, hm, hn, huri⟩ := (normalise_import_iff lower).mp h
  have ht : Trimmed site name := hm ▸ trimmed_model site (hm ▸ hn)
  have hp : publicSourceURL uri = site.page name := huri ▸ publicSourceURL_site site name
  have hl : Literal name ↔ Literal u.path := hm ▸ literal_model site
  refine ⟨u, hu, delimited_iff.symm, ?_, ?_⟩
  · rw [hp, delimited_iff]
    constructor
    · rintro ⟨site', model, ⟨v, hv, hh, hvm⟩, w, hw, hwh, hwm⟩
      cases hu.symm.trans hv
      have hs : site' = site := by
        rw [(page_parsed hw).left] at hwh
        exact site_unique (has_suffix hwh) (has_suffix (webHost_has site))
      subst hs
      rw [← hl, ← page_back ht]
      exact ⟨⟨_, hh⟩, w, hw, hwm.trans (hvm.symm.trans hm.symm)⟩
    · rintro ⟨⟨site', hh⟩, hlit⟩
      have hs : site' = site := site_unique (has_lower lower hh) hd
      subst hs
      have ⟨w, hw, hwh, hwp⟩ := page_literal site' (hl.mpr hlit)
      exact ⟨site', name, ⟨u, hu, hh, hm.symm⟩, w, hw, hwh ▸ webHost_has site', by rw [hwp, model_page ht]⟩
  · rw [hp, ← hl, ← page_back ht]
    constructor
    · intro hb
      cases hr : normaliseImportURL (parseImport lower) (site.page name)
      case error e =>
        rw [hr] at hb
        cases hb
      case ok r =>
        obtain ⟨uri', name'⟩ := r
        have ⟨w, hw, site', hd', hm', _, huri'⟩ := (normalise_import_iff lower).mp hr
        have hs : site' = site := by
          rw [(page_parsed hw).left] at hd'
          exact site_unique hd' (webHost_lower lower site)
        subst hs
        rw [hr] at hb
        have he : uri' = uri := Except.ok.inj hb
        rw [huri', huri] at he
        exact ⟨w, hw, hm'.symm.trans (List.append_cancel_left he)⟩
    · rintro ⟨w, hw, hwm⟩
      have hr := (normalise_import_iff lower).mpr
        ⟨w, hw, site, (page_parsed hw).left ▸ webHost_lower lower site, hwm.symm, hn, huri⟩
      rw [hr]
      rfl

theorem import_url_exact_plain : ∃ u, Url.parse (str "https://huggingface.co/a/b") = some u ∧
    ((∃ site : Site, site.Has u.host) ↔ Delimited u.host) ∧
    ((∃ site model, Denotes (str "https://huggingface.co/a/b") site model ∧
      Denotes (publicSourceURL (str "hf://a/b")) site model) ↔ Delimited u.host ∧ Literal u.path) ∧
    ((normaliseImportURL (parseImport id) (publicSourceURL (str "hf://a/b"))).map (·.1) = .ok (str "hf://a/b") ↔
      Literal u.path) := by
  have h : normaliseImportURL (parseImport id) (str "https://huggingface.co/a/b") =
      .ok (str "hf://a/b", str "a/b") := by
    decide +kernel
  exact import_url_exact_iff id h

-- A host that only ends like one of the sites, and a question mark that was escaped.
theorem look_alike_taken :
    (normaliseImportURL (parseImport id) (str "https://nothuggingface.co/a/b") =
        .ok (str "hf://a/b", str "a/b") ∧
      ∀ u, Url.parse (str "https://nothuggingface.co/a/b") = some u → ∀ site : Site, ¬site.Has u.host) ∧
    (normaliseImportURL (parseImport id) (str "https://huggingface.co/a%3Fb") =
        .ok (str "hf://a?b", str "a?b") ∧
      normaliseImportURL (parseImport id) (publicSourceURL (str "hf://a?b")) =
        .ok (str "hf://a", str "a")) := by
  refine ⟨⟨by decide +kernel, fun u hu site hs => ?_⟩, by decide +kernel, by decide +kernel⟩
  have hp : Url.parse (str "https://nothuggingface.co/a/b") = some
      { path := str "/a/b", scheme := str "https", host := str "nothuggingface.co" } := by
    decide +kernel
  cases hp.symm.trans hu
  revert hs
  unfold Site.Has
  cases site <;> decide +kernel

end Import
end Models

import Knaic.Go.JsonAny
import Knaic.Go.UrlParse
import Knaic.Go.Values

open Go Go.JsonText

-- What a browser asks of the issuer goes through the platform: the discovery document, and the exchange of tokens.
namespace Auth

def proxyTokenPath : Str :=
  str "/api/v1/auth/token"

def keyTokenEndpoint : Str :=
  str "token_endpoint"

def keyClientID : Str :=
  str "client_id"

def keyClientSecret : Str :=
  str "client_secret"

-- What the standard library makes of numbers, and of what it cannot read.
structure ProxyLib extends Floats where
  urlError    : Str → Error
  decodeError : Str → Error
  formError   : Str → Error

-- What comes of a request to the issuer.
inductive Fetched
  | refused (err : Error)
  | broken (err : Error)
  | answer (status : Nat) (body : Str)

structure Proxy where
  issuer       : Str
  discovery    : Str
  tokenURL     : Str
  clientID     : Str
  clientSecret : Str

-- What is read of a body, and what ends it when that is not its end.
structure Body where
  text : Str
  err  : Option Error

-- `io.ReadAll` of what `io.LimitReader` lets through. The limit ends a body as its end does.
def Body.readUpTo (limit : Nat) (body : Body) : Except Error Str :=
  match body.err with
  | some err => if body.text.length < limit then .error err else .ok (body.text.take limit)
  | none     => .ok (body.text.take limit)

structure TokenRequest where
  url           : Str
  contentType   : Str
  contentLength : Nat
  body          : Str

structure TokenAnswer where
  status      : Nat
  contentType : Str
  body        : Str

-- What is written, with the content type where one is set.
inductive ProxyReply
  | failed (status : Nat) (err : Error)
  | copied (status : Nat) (contentType : Option Str) (body : Str)

section Proxy

variable (lib : ProxyLib)

-- `json.Unmarshal` into a map of any values
def readDocument (body : Str) : Option (Entries Json) :=
  match parse body with
  | some (.object fields) => toAnyFields lib.toFloats [] fields
  | some .null            => some []
  | _                     => none

def tokenEndpoint (doc : Entries Json) : Str :=
  ((doc.get keyTokenEndpoint).bind Json.string?).getD []

def rewritten (doc : Entries Json) : Entries Json :=
  doc.set keyTokenEndpoint (.string proxyTokenPath)

def discoveryURL (issuer : Str) : Str :=
  issuer.trimRight 47 ++ str "/.well-known/openid-configuration"

def newProxy (fetch : Str → Fetched) (issuer clientID clientSecret : Str) : Except Error (Option Proxy) :=
  if issuer = [] then
    .ok none
  else if (Url.parse (discoveryURL issuer)).isNone then
    .error (.wrap "oidc discovery request" (lib.urlError (discoveryURL issuer)))
  else
    match fetch (discoveryURL issuer) with
    | .refused err        => .error (.wrap "oidc discovery fetch" err)
    | .broken err         => .error (.wrap "oidc discovery read" err)
    | .answer status body =>
      if status / 100 ≠ 2 then
        .error (.errorf "oidc discovery HTTP %d" [decimal status])
      else
        match readDocument lib body with
        | none     => .error (.wrap "oidc discovery decode" (lib.decodeError body))
        | some doc =>
          if tokenEndpoint doc = [] then
            .error (.new "oidc discovery missing token_endpoint")
          else
            .ok (some {
              issuer       := issuer
              discovery    := print (ofAny lib.toFloats (.object (rewritten doc)))
              tokenURL     := tokenEndpoint doc
              clientID     := clientID
              clientSecret := clientSecret
            })

namespace Proxy

def maxForm : Nat :=
  1048576

variable (p : Proxy)

-- What the platform says in place of the browser, where it has anything to say.
def putting (key value : Str) (form : Url.Values) : Url.Values :=
  if value ≠ [] then form.set key [value] else form

def stamp (form : Url.Values) : Url.Values :=
  putting keyClientSecret p.clientSecret (putting keyClientID p.clientID form)

def request (method : Str) (body : Body) : Except ProxyReply TokenRequest :=
  if method ≠ str "POST" then
    .error (.failed 405 (.new "method not allowed"))
  else
    match body.readUpTo maxForm with
    | .error err => .error (.failed 400 (.wrap "read body" err))
    | .ok body   =>
      match Url.parseValues body with
      | none      => .error (.failed 400 (.wrap "parse form" (lib.formError body)))
      | some form =>
        if (Url.parse p.tokenURL).isNone then
          .error (.failed 500 (.wrap "build upstream request" (lib.urlError p.tokenURL)))
        else
          .ok {
            url           := p.tokenURL
            contentType   := str "application/x-www-form-urlencoded"
            contentLength := (p.stamp form).encode.length
            body          := (p.stamp form).encode
          }

def token (send : TokenRequest → Except Error TokenAnswer) (method : Str) (body : Body) : ProxyReply :=
  match p.request lib method body with
  | .error reply => reply
  | .ok req      =>
    match send req with
    | .error err => .failed 502 (.wrap "token endpoint" err)
    | .ok res    => .copied res.status (if res.contentType ≠ [] then some res.contentType else none) res.body

end Proxy
end Proxy

namespace Proxy

variable {lib : ProxyLib} {p : Proxy} {doc : Entries Json} {issuer clientID clientSecret : Str} {fetch : Str → Fetched}

-- The value that the issuer reads for a key, whatever the browser says.
def stamped (p : Proxy) (key : Str) : Option Str :=
  if key = keyClientSecret ∧ p.clientSecret ≠ [] then some p.clientSecret
  else if key = keyClientID ∧ p.clientID ≠ [] then some p.clientID
  else none

theorem get_putting (key value : Str) (form : Url.Values) (k : Str) : ((putting key value form).get k).getD [] =
    if k = key ∧ value ≠ [] then [value] else (form.get k).getD [] := by
  rw [putting]
  by_cases hv : value = []
  case pos => simp [hv]
  case neg =>
    rw [if_pos hv, Entries.get_set]
    by_cases hk : k = key <;> simp [hk, hv]

theorem get_stamp (form : Url.Values) (key : Str) : ((p.stamp form).get key).getD [] =
    ((p.stamped key).map fun v => [v]).getD ((form.get key).getD []) := by
  rw [stamp, get_putting, get_putting, stamped]
  split
  case isTrue  => rfl
  case isFalse => split <;> rfl

theorem putting_ok {form : Url.Values} (h : form.Ok) (key value : Str) : (putting key value form).Ok := by
  rw [putting]
  split
  case isTrue  => exact h.set _ (List.cons_ne_nil _ _)
  case isFalse => exact h

theorem readUpTo_ok {limit : Nat} {body : Body} {s : Str} (h : body.readUpTo limit = .ok s) : s = body.text.take limit := by
  unfold Body.readUpTo at h
  split at h
  case h_1 =>
    split at h
    case isTrue  => cases h
    case isFalse => exact (Except.ok.inj h).symm
  case h_2 => exact (Except.ok.inj h).symm

-- The form that the issuer reads, for the one that was posted.
def Carried (p : Proxy) (l : List (Str × Str)) (sent : TokenRequest) : Prop :=
  sent.url = p.tokenURL ∧ sent.contentLength = sent.body.length ∧ ∃ form, Url.parseValues sent.body = some form ∧
    ∀ key, (form.get key).getD [] = ((p.stamped key).map fun v => [v]).getD (Url.valuesOf l key)

-- Nothing else is sent.
theorem request_ok {method : Str} {body : Body} {sent : TokenRequest} (h : p.request lib method body = .ok sent) :
    method = str "POST" ∧ p.Carried (Url.parseQuery (body.text.take maxForm)) sent := by
  unfold request at h
  split at h
  case isTrue     => cases h
  case isFalse hm =>
    split at h
    case h_1       => cases h
    case h_2 hb    =>
      split at h
      case h_1         => cases h
      case h_2 form hf =>
        split at h
        case isTrue  => cases h
        case isFalse =>
          cases h
          have he := Url.parseValues_some hf
          have hp : (p.stamp form).Ok := putting_ok (putting_ok (he ▸ Url.ofEntries_ok _) _ _) _ _
          refine ⟨not_not.mp hm, rfl, rfl, p.stamp form, Url.parseValues_encode hp, fun key => ?_⟩
          rw [get_stamp, he, Url.valuesOf_ofEntries, readUpTo_ok hb]

-- What a browser posts is sent, unless it is cut.
theorem request_searchParams {l : List (Str × Str)} (hl : (Url.searchParams l).length ≤ maxForm)
    (hu : (Url.parse p.tokenURL).isSome) : ∃ sent, p.request lib (str "POST") ⟨Url.searchParams l, none⟩ = .ok sent ∧
    p.Carried l sent := by
  have hr : Body.readUpTo maxForm ⟨Url.searchParams l, none⟩ = .ok (Url.searchParams l) :=
    congrArg Except.ok (List.take_of_length_le hl)
  have hn : ¬(Url.parse p.tokenURL).isNone := by
    rw [Option.isNone_iff_eq_none]
    exact Option.isSome_iff_ne_none.mp hu
  have hp : (p.stamp (.ofEntries l)).Ok := putting_ok (putting_ok (Url.ofEntries_ok l) _ _) _ _
  refine ⟨⟨p.tokenURL, str "application/x-www-form-urlencoded", (p.stamp (.ofEntries l)).encode.length,
    (p.stamp (.ofEntries l)).encode⟩, ?_, rfl, rfl, _, Url.parseValues_encode hp, fun key => ?_⟩
  · rw [request, if_neg (not_not.mpr rfl), hr]
    simp only [Url.parseValues_searchParams, if_neg hn]
  · rw [get_stamp, Url.valuesOf_ofEntries]

-- The document that a browser reads is the one of the issuer, but for where tokens are.
theorem readDocument_rewritten (hl : lib.Exact) {body : Str} (h : readDocument lib body = some doc) :
    readDocument lib (print (ofAny lib.toFloats (.object (rewritten doc)))) = some (rewritten doc) := by
  have hs : Utf8.toValid proxyTokenPath = proxyTokenPath ∧ Utf8.toValid keyTokenEndpoint = keyTokenEndpoint := by decide
  have hd : FieldsRead lib.toFloats 1 doc ∧ AllAgain lib.toFloats doc := by
    unfold readDocument at h
    split at h
    case h_1 fields hp =>
      have hv := parse_read hp
      exact ⟨toAnyFields_read hl 1 fields [] doc h .nil hv.left.right (Value.object.inj hv.right),
        toAnyFields_again hl fields [] doc h ⟨.nil, List.forall_mem_nil _⟩⟩
    case h_2           =>
      cases h
      exact ⟨.nil, .nil, List.forall_mem_nil _⟩
    case h_3           => cases h
  have hr : FieldsRead lib.toFloats 1 (rewritten doc) := hd.left.set hs.right ⟨trivial, congrArg Value.string hs.left⟩
  have ha : AllAgain lib.toFloats (rewritten doc) := by
    refine ⟨hd.right.sorted.set _ _, fun e he => ?_⟩
    obtain rfl | he := Entries.mem_set he
    case inl => rfl
    case inr => exact hd.right.again e he
  have hp : (ofAny lib.toFloats (.object (rewritten doc))).Read 0 :=
    ⟨⟨by decide, hr.left⟩, congrArg Value.object hr.right⟩
  have hf : ((toAnyFields lib.toFloats [] (ofAnyFields lib.toFloats (rewritten doc))).map Json.object) = some (.object _) :=
    ha.object
  obtain ⟨m, hm, he⟩ := Option.map_eq_some_iff.mp hf
  rw [readDocument, parse_print_read hp]
  exact hm.trans (congrArg some (Json.object.inj he))

theorem newProxy_some (h : newProxy lib fetch issuer clientID clientSecret = .ok (some p)) :
    ∃ status body doc, fetch (discoveryURL issuer) = .answer status body ∧ readDocument lib body = some doc ∧
      tokenEndpoint doc ≠ [] ∧ p = ⟨issuer, print (ofAny lib.toFloats (.object (rewritten doc))), tokenEndpoint doc,
        clientID, clientSecret⟩ := by
  unfold newProxy at h
  split at h
  case isTrue  => cases h
  split at h
  case isTrue  => cases h
  split at h
  case h_1          => cases h
  case h_2          => cases h
  case h_3 status body hb =>
    split at h
    case isTrue  => cases h
    split at h
    case h_1        => cases h
    case h_2 doc hd =>
      split at h
      case isTrue     => cases h
      case isFalse ht =>
        cases h
        exact ⟨status, body, doc, hb, hd, ht, rfl⟩

-- A browser is told to exchange its tokens with the platform, and is told all else that the issuer says. What it posts
-- there goes to where the issuer exchanges tokens, with every key that it has, but for those that the platform says
-- itself. Nothing else goes there.
theorem exchange_proxied (lib : ProxyLib) (hl : lib.Exact) (fetch : Str → Fetched) (issuer clientID clientSecret : Str)
    (p : Proxy) (h : newProxy lib fetch issuer clientID clientSecret = .ok (some p)) :
    (∃ status body doc, fetch (discoveryURL issuer) = .answer status body ∧ readDocument lib body = some doc ∧
      doc.get keyTokenEndpoint = some (.string p.tokenURL) ∧ readDocument lib p.discovery = some (rewritten doc)) ∧
    ((Url.parse p.tokenURL).isSome → ∀ l, (Url.searchParams l).length ≤ maxForm →
      ∃ sent, p.request lib (str "POST") ⟨Url.searchParams l, none⟩ = .ok sent ∧ p.Carried l sent) ∧
    ∀ method body sent, p.request lib method body = .ok sent →
      method = str "POST" ∧ p.Carried (Url.parseQuery (body.text.take maxForm)) sent := by
  obtain ⟨status, body, doc, hb, hd, ht, rfl⟩ := newProxy_some h
  refine ⟨⟨status, body, doc, hb, hd, ?_, readDocument_rewritten hl hd⟩, fun hu l hl => request_searchParams hl hu,
    fun method body sent => request_ok⟩
  rw [tokenEndpoint] at ht ⊢
  generalize doc.get keyTokenEndpoint = v at ht ⊢
  match v with
  | some (.string s) => rfl
  | none | some .null | some (.bool _) | some (.number _) | some (.array _) | some (.object _) => exact absurd rfl ht

-- Enough for a document without numbers.
def proxyLib : ProxyLib where
  parse _       := none
  format _      := str "0"
  urlError _    := .new "invalid URL"
  decodeError _ := .new "unexpected end of JSON input"
  formError _   := .new "invalid URL escape"

def dexDocument : Entries Json :=
  [(str "issuer", .string (str "https://dex")), (keyTokenEndpoint, .string (str "https://dex/token"))]

def dexText : Str :=
  print (ofAny proxyLib.toFloats (.object dexDocument))

def dexProxy : Proxy where
  issuer       := str "https://dex"
  discovery    := print (ofAny proxyLib.toFloats (.object (rewritten dexDocument)))
  tokenURL     := str "https://dex/token"
  clientID     := str "knaic"
  clientSecret := str "s3cret"

def dexFetch (url : Str) : Fetched :=
  if url = str "https://dex/.well-known/openid-configuration" then .answer 200 dexText else .answer 404 []

def login : List (Str × Str) :=
  [(str "grant_type", str "authorization_code"), (keyClientID, str "console"), (str "code", str "a b&c")]

theorem dexText_read : readDocument proxyLib dexText = some dexDocument := by
  have hf : FieldsRead proxyLib.toFloats 1 dexDocument :=
    fieldsRead_cons.mpr ⟨⟨by decide, trivial, congrArg Value.string (by decide)⟩,
      fieldsRead_cons.mpr ⟨⟨by decide, trivial, congrArg Value.string (by decide)⟩, .nil⟩⟩
  have hp : (ofAny proxyLib.toFloats (.object dexDocument)).Read 0 :=
    ⟨⟨by decide, hf.left⟩, congrArg Value.object hf.right⟩
  rw [readDocument, dexText, parse_print_read hp]
  rfl

theorem login_proxied : ∃ sent, dexProxy.request proxyLib (str "POST") ⟨Url.searchParams login, none⟩ = .ok sent ∧
    dexProxy.Carried login sent := by
  have hl : proxyLib.Exact := ⟨fun _ _ h => (nomatch h), fun _ _ h => (nomatch h)⟩
  have hu : discoveryURL (str "https://dex") = str "https://dex/.well-known/openid-configuration" := by decide
  have hp : (Url.parse (str "https://dex/.well-known/openid-configuration")).isNone = false := by
    decide +kernel
  have h : newProxy proxyLib dexFetch (str "https://dex") (str "knaic") (str "s3cret") = .ok (some dexProxy) := by
    rw [newProxy, if_neg (by decide), hu, hp, if_neg (by decide), dexFetch, if_pos rfl]
    simp only [dexText_read]
    rfl
  have ht : (Url.parse dexProxy.tokenURL).isSome := by
    decide +kernel
  exact (exchange_proxied proxyLib hl dexFetch (str "https://dex") (str "knaic") (str "s3cret") dexProxy h).right.left
    ht login (by decide)

end Proxy
end Auth

import Mathlib.Data.Set.Basic
import Knaic.Go.Map
import Knaic.Go.Url

namespace Go.Http

def validHeaderFieldByte (b : UInt8) : Bool :=
  Url.isAlnum b || (str "!#$%&'*+-.^_`|~").contains b

def canonicalLetters : Bool → Str → Str
  | _, []         => []
  | upper, b :: s =>
    let c :=
      if upper ∧ 97 ≤ b ∧ b ≤ 122 then b - 32
      else if ¬upper ∧ 65 ≤ b ∧ b ≤ 90 then b + 32
      else b
    c :: canonicalLetters (c == 45) s

def canonicalHeaderKey (s : Str) : Str :=
  if s.all validHeaderFieldByte then canonicalLetters true s else s

-- Whether a comma-separated value has the token among its parts.
def isOWS (b : UInt8) : Bool :=
  b == 32 || b == 9

def trimOWS (s : Str) : Str :=
  ((s.dropWhile isOWS).reverse.dropWhile isOWS).reverse

def tokenEqual (s token : Str) : Bool :=
  s.all (· < 128) && s.toLower == token.toLower

def headerValuesContainsToken (values : List Str) (token : Str) : Bool :=
  values.any fun v => (v.splitOn 44).any fun s => tokenEqual (trimOWS s) token

-- `textproto.TrimString`
def isASCIISpace (b : UInt8) : Bool :=
  b == 32 || b == 9 || b == 10 || b == 13

def trimString (s : Str) : Str :=
  ((s.dropWhile isASCIISpace).reverse.dropWhile isASCIISpace).reverse

abbrev Header :=
  Go.Map (List Str)

namespace Header

-- The values under a key that is written as it is.
def values (h : Header) (key : Str) : List Str :=
  (h.lookup key).getD []

def get (h : Header) (key : Str) : Str :=
  (h.values (canonicalHeaderKey key)).headD []

def set (h : Header) (key value : Str) : Header :=
  h.insert (canonicalHeaderKey key) [value]

def del (h : Header) (key : Str) : Header :=
  h.erase (canonicalHeaderKey key)

def delAll (h : Header) (keys : List Str) : Header :=
  keys.foldl del h

end Header

-- A request as it is sent.
structure Message where
  method   : Str
  scheme   : Str
  urlHost  : Str
  url      : Url.URL
  rawQuery : Str
  host     : Str
  header   : Header
  body     : Str

-- A request as it is served, with the address that it came from.
structure Request extends Message where
  remoteAddr : Str

-- What `url.Parse` gives for the address of another server.
structure Target where
  scheme   : Str
  host     : Str
  url      : Url.URL
  rawQuery : Str

-- `net.SplitHostPort`: the host in front of the last colon, and the port behind it.
def splitHostPort (s : Str) : Option (Str × Str) :=
  match s.reverse.dropWhile (· ≠ 58) with
  | []        => none
  | _ :: host =>
    let host := host.reverse
    let port := (s.reverse.takeWhile (· ≠ 58)).reverse
    match s with
    | 91 :: t =>
      let addr := t.takeWhile (· ≠ 93)
      if host = 91 :: addr ++ [93] ∧ 91 ∉ t ∧ 93 ∉ port then some (addr, port) else none
    | _       =>
      if 58 ∉ host ∧ 91 ∉ s ∧ 93 ∉ s then some (host, port) else none

-- `httputil.ReverseProxy`
section ReverseProxy

def upgradeType (h : Header) : Str :=
  if headerValuesContainsToken (h.values (str "Connection")) (str "Upgrade") then
    h.get (str "Upgrade")
  else
    []

-- The headers that the sender wants to be dropped on the way.
def connectionNames (h : Header) : List Str :=
  (h.values (str "Connection")).flatMap fun f =>
    ((f.splitOn 44).map trimString).filter (· ≠ [])

def hopHeaders : List Str :=
  [str "Connection", str "Proxy-Connection", str "Keep-Alive", str "Proxy-Authenticate",
    str "Proxy-Authorization", str "Te", str "Trailer", str "Transfer-Encoding", str "Upgrade"]

def removeHopByHopHeaders (h : Header) : Header :=
  (h.delAll (connectionNames h)).delAll hopHeaders

-- An entry without values asks for the header to be left out.
def appendForwardedFor (h : Header) (clientIP : Str) : Header :=
  match h.lookup (str "X-Forwarded-For") with
  | none       => h.set (str "X-Forwarded-For") clientIP
  | some []    => h
  | some prior =>
    h.set (str "X-Forwarded-For") ((str ", ").intercalate prior ++ str ", " ++ clientIP)

-- What the sender asked for goes on to the next hop: trailers, and another protocol.
def restoreUpgrade (trailers : Bool) (reqUpType : Str) (h : Header) : Header :=
  let h := if trailers then h.set (str "Te") (str "trailers") else h
  if reqUpType ≠ [] then
    (h.set (str "Connection") (str "Upgrade")).set (str "Upgrade") reqUpType
  else
    h

def clientIP (remoteAddr : Str) : Option Str :=
  (splitHostPort remoteAddr).map Prod.fst

def addForwardedFor (remoteAddr : Str) (h : Header) : Header :=
  match clientIP remoteAddr with
  | some ip => appendForwardedFor h ip
  | none    => h

-- An empty value keeps the client of net/http from setting its own.
def defaultAgent (h : Header) : Header :=
  if (h.lookup (str "User-Agent")).isNone then h.set (str "User-Agent") [] else h

-- What becomes of the headers after the director is done with them.
def outgoingHeader (req : Request) (h : Header) : Header :=
  let trailers := headerValuesContainsToken (req.header.values (str "Te")) (str "trailers")
  defaultAgent <| addForwardedFor req.remoteAddr <| restoreUpgrade trailers (upgradeType h) <|
    removeHopByHopHeaders h

-- The request that is sent for the one that is served, unless it asks for an invalid protocol.
def serveHTTP (director : Message → Message) (req : Request) : Option Message :=
  let outreq := director req.toMessage
  if (upgradeType outreq.header).all fun b => 32 ≤ b && b ≤ 126 then
    some { outreq with header := outgoingHeader req outreq.header }
  else
    none

-- The director of `httputil.NewSingleHostReverseProxy`.
def singleHostDirector (target : Target) (req : Message) : Message :=
  { req with
    scheme   := target.scheme
    urlHost  := target.host
    url      := Url.director target.url req.url
    rawQuery :=
      if target.rawQuery = [] ∨ req.rawQuery = [] then
        target.rawQuery ++ req.rawQuery
      else
        target.rawQuery ++ str "&" ++ req.rawQuery }

end ReverseProxy

-- Where two headers differ, and how that spreads from step to step.
section Difference

def diff (h₁ h₂ : Header) : Set Str :=
  { k | h₁.lookup k ≠ h₂.lookup k }

variable {h₁ h₂ : Header} {k key v : Str}

theorem diff_eq_empty : diff h₁ h₂ = ∅ ↔ h₁ = h₂ := by
  rw [Set.eq_empty_iff_forall_notMem]
  constructor
  case mp  => exact fun h => Finmap.ext_lookup fun k => not_not.mp (h k)
  case mpr => rintro rfl k hk; exact hk rfl

theorem values_congr (h : k ∉ diff h₁ h₂) : h₁.values k = h₂.values k := by
  simp only [Header.values, not_not.mp h]

theorem get_congr (h : canonicalHeaderKey k ∉ diff h₁ h₂) : h₁.get k = h₂.get k := by
  simp only [Header.get, values_congr h]

theorem upgradeType_congr (hc : str "Connection" ∉ diff h₁ h₂)
    (hu : canonicalHeaderKey (str "Upgrade") ∉ diff h₁ h₂) : upgradeType h₁ = upgradeType h₂ := by
  simp only [upgradeType, values_congr hc, get_congr hu]

theorem diff_set : diff (h₁.set key v) (h₂.set key v) = diff h₁ h₂ \ {canonicalHeaderKey key} := by
  ext k
  by_cases hk : k = canonicalHeaderKey key
  case pos => simp [diff, Header.set, hk]
  case neg => simp [diff, Header.set, Finmap.lookup_insert_of_ne _ hk, hk]

theorem diff_set_subset (h : Header) (key v w : Str) :
    diff (h.set key v) (h.set key w) ⊆ {canonicalHeaderKey key} := by
  intro k hk
  by_contra hne
  refine hk ?_
  simp only [Header.set]
  rw [Finmap.lookup_insert_of_ne _ hne, Finmap.lookup_insert_of_ne _ hne]

theorem diff_del : diff (h₁.del key) (h₂.del key) = diff h₁ h₂ \ {canonicalHeaderKey key} := by
  ext k
  by_cases hk : k = canonicalHeaderKey key
  case pos => simp [diff, Header.del, hk]
  case neg => simp [diff, Header.del, Finmap.lookup_erase_ne hk, hk]

theorem diff_delAll (keys : List Str) : diff (h₁.delAll keys) (h₂.delAll keys) =
    diff h₁ h₂ \ { k | k ∈ keys.map canonicalHeaderKey } := by
  induction keys generalizing h₁ h₂
  case nil => simp [Header.delAll]
  case cons key keys hi =>
    have he : diff ((h₁.del key).delAll keys) ((h₂.del key).delAll keys) = _ := hi
    rw [diff_del] at he
    refine he.trans ?_
    ext k
    simp only [Set.mem_sdiff, Set.mem_singleton_iff, Set.mem_ofPred_eq, List.map_cons, List.mem_cons]
    tauto

theorem canonical_self : ∀ k ∈ [str "Te", str "Connection", str "Upgrade", str "X-Forwarded-For",
    str "User-Agent"], canonicalHeaderKey k = k := by
  decide

theorem lookup_set_ne (h : k ≠ canonicalHeaderKey key) : (h₁.set key v).lookup k = h₁.lookup k :=
  Finmap.lookup_insert_of_ne _ h

theorem lookup_set (h₁ : Header) (key v : Str) :
    (h₁.set key v).lookup (canonicalHeaderKey key) = some [v] :=
  Finmap.lookup_insert _

theorem lookup_del (h₁ : Header) (key : Str) :
    (h₁.del key).lookup (canonicalHeaderKey key) = none :=
  Finmap.lookup_erase ..

theorem lookup_delAll_ne {keys : List Str} (hk : k ∉ keys.map canonicalHeaderKey) :
    (h₁.delAll keys).lookup k = h₁.lookup k := by
  induction keys generalizing h₁
  case nil => rfl
  case cons key keys hi =>
    simp only [List.map_cons, List.mem_cons, not_or] at hk
    exact (hi hk.right).trans (Finmap.lookup_erase_ne hk.left)

theorem lookup_delAll {keys : List Str} (hk : k ∈ keys.map canonicalHeaderKey) :
    (h₁.delAll keys).lookup k = none := by
  induction keys generalizing h₁
  case nil => simp at hk
  case cons key keys hi =>
    by_cases hm : k ∈ keys.map canonicalHeaderKey
    case pos => exact hi hm
    case neg =>
      have he : k = canonicalHeaderKey key := by simp_all
      refine (lookup_delAll_ne hm).trans ?_
      rw [he]
      exact lookup_del h₁ key

theorem lookup_delAll_none (keys : List Str) (h : h₁.lookup k = none) :
    (h₁.delAll keys).lookup k = none := by
  by_cases hk : k ∈ keys.map canonicalHeaderKey
  case pos => exact lookup_delAll hk
  case neg => exact (lookup_delAll_ne hk).trans h

-- The same value under a key on which the two agree.
theorem diff_set_same (h : canonicalHeaderKey key ∉ diff h₁ h₂) :
    diff (h₁.set key v) (h₂.set key v) = diff h₁ h₂ := by
  rw [diff_set]
  exact Set.sdiff_singleton_eq_self h

-- The headers that a message asks the next hop to drop, and all that are not sent on.
def Named (h : Header) : Set Str :=
  { k | k ∈ (connectionNames h).map canonicalHeaderKey }

def Dropped (h : Header) : Set Str :=
  { k | k ∈ Named h ∨ k ∈ hopHeaders.map canonicalHeaderKey }

theorem diff_removeHopByHop (h : str "Connection" ∉ diff h₁ h₂) :
    diff (removeHopByHopHeaders h₁) (removeHopByHopHeaders h₂) = diff h₁ h₂ \ Dropped h₁ := by
  have hn : connectionNames h₁ = connectionNames h₂ := by
    simp only [connectionNames, values_congr h]
  simp only [removeHopByHopHeaders, ← hn, diff_delAll]
  ext k
  simp only [Dropped, Named, Set.mem_sdiff, Set.mem_ofPred_eq]
  tauto

theorem diff_restoreUpgrade {trailers : Bool} {up : Str} (ht : str "Te" ∉ diff h₁ h₂)
    (hc : str "Connection" ∉ diff h₁ h₂) (hu : str "Upgrade" ∉ diff h₁ h₂) :
    diff (restoreUpgrade trailers up h₁) (restoreUpgrade trailers up h₂) = diff h₁ h₂ := by
  have hcanon := canonical_self
  simp only [List.mem_cons, forall_eq_or_imp] at hcanon
  have ⟨hct, hcc, hcu, _⟩ := hcanon
  have hd : diff (if trailers then h₁.set (str "Te") (str "trailers") else h₁)
      (if trailers then h₂.set (str "Te") (str "trailers") else h₂) = diff h₁ h₂ := by
    cases trailers
    case false => rfl
    case true  => exact diff_set_same (hct ▸ ht)
  simp only [restoreUpgrade]
  by_cases he : up = []
  case pos => simp [he, hd]
  case neg =>
    simp only [if_pos he, ne_eq]
    have hset : canonicalHeaderKey (str "Connection") ∉
        diff (if trailers then h₁.set (str "Te") (str "trailers") else h₁)
          (if trailers then h₂.set (str "Te") (str "trailers") else h₂) := by
      rw [hd, hcc]; exact hc
    rw [diff_set_same, diff_set_same hset, hd]
    rw [diff_set_same hset, hd, hcu]
    exact hu

theorem lookup_restoreUpgrade {trailers : Bool} {up : Str}
    (hk : k ∉ [str "Te", str "Connection", str "Upgrade"]) :
    (restoreUpgrade trailers up h₁).lookup k = h₁.lookup k := by
  have hcanon := canonical_self
  simp only [List.mem_cons, forall_eq_or_imp] at hcanon
  have ⟨hct, hcc, hcu, _⟩ := hcanon
  simp only [List.mem_cons, List.not_mem_nil, or_false, not_or] at hk
  have ⟨hkt, hkc, hku⟩ := hk
  have ht : (if trailers then h₁.set (str "Te") (str "trailers") else h₁).lookup k = h₁.lookup k := by
    cases trailers
    case false => rfl
    case true  => exact lookup_set_ne (hct.symm ▸ hkt)
  simp only [restoreUpgrade]
  split
  case isFalse => exact ht
  case isTrue =>
    exact (lookup_set_ne (hcu.symm ▸ hku)).trans ((lookup_set_ne (hcc.symm ▸ hkc)).trans ht)

theorem diff_passedOn (trailers : Bool) (up : Str) (ht : str "Te" ∉ diff h₁ h₂)
    (hc : str "Connection" ∉ diff h₁ h₂) (hu : str "Upgrade" ∉ diff h₁ h₂) :
    diff (restoreUpgrade trailers up (removeHopByHopHeaders h₁))
      (restoreUpgrade trailers up (removeHopByHopHeaders h₂)) = diff h₁ h₂ \ Dropped h₁ := by
  have hr := diff_removeHopByHop hc
  have ht' : str "Te" ∉ diff (removeHopByHopHeaders h₁) (removeHopByHopHeaders h₂) :=
    hr ▸ fun hm => ht hm.left
  have hc' : str "Connection" ∉ diff (removeHopByHopHeaders h₁) (removeHopByHopHeaders h₂) :=
    hr ▸ fun hm => hc hm.left
  have hu' : str "Upgrade" ∉ diff (removeHopByHopHeaders h₁) (removeHopByHopHeaders h₂) :=
    hr ▸ fun hm => hu hm.left
  exact (diff_restoreUpgrade ht' hc' hu').trans hr

theorem diff_defaultAgent (h : str "User-Agent" ∉ diff h₁ h₂) :
    diff (defaultAgent h₁) (defaultAgent h₂) = diff h₁ h₂ := by
  have hcanon := canonical_self (str "User-Agent") (by simp)
  have he : h₁.lookup (str "User-Agent") = h₂.lookup (str "User-Agent") := not_not.mp h
  simp only [defaultAgent, he]
  split
  case isTrue  => exact diff_set_same (hcanon ▸ h)
  case isFalse => rfl

theorem diff_addForwardedFor (addr : Str) (h : str "X-Forwarded-For" ∉ diff h₁ h₂) :
    diff (addForwardedFor addr h₁) (addForwardedFor addr h₂) = diff h₁ h₂ := by
  have hcanon := canonical_self (str "X-Forwarded-For") (by simp)
  have he : h₁.lookup (str "X-Forwarded-For") = h₂.lookup (str "X-Forwarded-For") := not_not.mp h
  simp only [addForwardedFor, appendForwardedFor, he]
  split
  case h_2 => rfl
  case h_1 =>
    split
    case h_1 => exact diff_set_same (hcanon ▸ h)
    case h_2 => rfl
    case h_3 => exact diff_set_same (hcanon ▸ h)

-- Without a prior value the header is the address of the client alone.
theorem lookup_addForwardedFor {addr : Str} (h : h₁.lookup (str "X-Forwarded-For") = none) :
    (addForwardedFor addr h₁).lookup (str "X-Forwarded-For") = (clientIP addr).map fun ip => [ip] := by
  have hcanon := canonical_self (str "X-Forwarded-For") (by simp)
  simp only [addForwardedFor, appendForwardedFor, h]
  split
  case h_2 hi    => rw [hi, Option.map_none, h]
  case h_1 ip hi =>
    have hl := lookup_set h₁ (str "X-Forwarded-For") ip
    rw [hcanon] at hl
    rw [hi, Option.map_some, hl]

theorem lookup_addForwardedFor_ne {addr : Str} (hk : k ≠ str "X-Forwarded-For") :
    (addForwardedFor addr h₁).lookup k = h₁.lookup k := by
  have hcanon := canonical_self (str "X-Forwarded-For") (by simp)
  simp only [addForwardedFor, appendForwardedFor]
  split
  case h_2 => rfl
  case h_1 =>
    split
    case h_1 => exact lookup_set_ne (hcanon ▸ hk)
    case h_2 => rfl
    case h_3 => exact lookup_set_ne (hcanon ▸ hk)

theorem defaultAgent_inj (h : str "User-Agent" ∉ diff h₁ h₂) :
    defaultAgent h₁ = defaultAgent h₂ ↔ h₁ = h₂ := by
  rw [← diff_eq_empty, diff_defaultAgent h, diff_eq_empty]

-- Headers that agree on all that the library goes by differ as before, but for what is not sent on.
theorem diff_outgoing {req₁ req₂ : Request} (haddr : req₁.remoteAddr = req₂.remoteAddr)
    (hv : req₁.header.values (str "Te") = req₂.header.values (str "Te"))
    (ht : str "Te" ∉ diff h₁ h₂) (hc : str "Connection" ∉ diff h₁ h₂) (hu : str "Upgrade" ∉ diff h₁ h₂)
    (hx : str "X-Forwarded-For" ∉ diff h₁ h₂) (ha : str "User-Agent" ∉ diff h₁ h₂) :
    diff (outgoingHeader req₁ h₁) (outgoingHeader req₂ h₂) = diff h₁ h₂ \ Dropped h₁ := by
  have hcanon := canonical_self (str "Upgrade") (by simp)
  have hup := upgradeType_congr hc (hcanon.symm ▸ hu)
  have hp := diff_passedOn
    (headerValuesContainsToken (req₂.header.values (str "Te")) (str "trailers")) (upgradeType h₂) ht hc hu
  simp only [outgoingHeader, hv, hup, haddr]
  generalize restoreUpgrade _ _ (removeHopByHopHeaders h₁) = f₁ at *
  generalize restoreUpgrade _ _ (removeHopByHopHeaders h₂) = f₂ at *
  have hfx : str "X-Forwarded-For" ∉ diff f₁ f₂ := hp ▸ fun hm => hx hm.left
  have hfa : str "User-Agent" ∉ diff f₁ f₂ := hp ▸ fun hm => ha hm.left
  have hf := diff_addForwardedFor req₂.remoteAddr hfx
  have hfa' := hf.symm ▸ hfa
  exact (diff_defaultAgent hfa').trans (hf.trans hp)

-- Nothing else is written behind the director but the address of the client.
theorem forwarded_eq_iff {a₁ a₂ : Str} (h₁' : h₁.lookup (str "X-Forwarded-For") = none)
    (h₂' : h₂.lookup (str "X-Forwarded-For") = none) :
    addForwardedFor a₁ h₁ = addForwardedFor a₂ h₂ ↔ h₁ = h₂ ∧ clientIP a₁ = clientIP a₂ := by
  constructor
  case mp =>
    intro h
    constructor
    case left =>
      refine Finmap.ext_lookup fun k => ?_
      by_cases hk : k = str "X-Forwarded-For"
      case pos => rw [hk, h₁', h₂']
      case neg =>
        have hl := congrArg (·.lookup k) h
        simpa only [lookup_addForwardedFor_ne hk] using hl
    case right =>
      have hl := congrArg (·.lookup (str "X-Forwarded-For")) h
      simp only [lookup_addForwardedFor h₁', lookup_addForwardedFor h₂'] at hl
      exact Option.map_injective (fun _ _ => List.head_eq_of_cons_eq) hl
  case mpr =>
    rintro ⟨rfl, ha⟩
    simp only [addForwardedFor, ha]

theorem lookup_defaultAgent (hk : k ≠ str "User-Agent") :
    (defaultAgent h₁).lookup k = h₁.lookup k := by
  have hcanon := canonical_self (str "User-Agent") (by simp)
  simp only [defaultAgent]
  split
  case isTrue  => exact lookup_set_ne (hcanon ▸ hk)
  case isFalse => rfl

-- What a director leaves of a header is sent on as it is, or not at all.
theorem lookup_outgoing (req : Request) (h : Header) (hk : k ∉ [str "Te", str "Connection",
    str "Upgrade"]) (hx : k ≠ str "X-Forwarded-For") (hu : k ≠ str "User-Agent") :
    (outgoingHeader req h).lookup k = none ∨ (outgoingHeader req h).lookup k = h.lookup k := by
  have ho : (outgoingHeader req h).lookup k = (removeHopByHopHeaders h).lookup k :=
    (lookup_defaultAgent hu).trans ((lookup_addForwardedFor_ne hx).trans (lookup_restoreUpgrade hk))
  rw [ho, removeHopByHopHeaders]
  by_cases hh : k ∈ hopHeaders.map canonicalHeaderKey
  case pos => exact .inl (lookup_delAll hh)
  case neg =>
    rw [lookup_delAll_ne hh]
    by_cases hc : k ∈ (connectionNames h).map canonicalHeaderKey
    case pos => exact .inl (lookup_delAll hc)
    case neg => exact .inr (lookup_delAll_ne hc)

end Difference
end Go.Http

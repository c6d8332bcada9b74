import Mathlib.Data.List.Nodup
import Knaic.Effects.Events
import Knaic.Js.Text

open Js Effects

-- Signing in: the login that waits in the session storage, and the callbacks that come back for one.
namespace Console.OidcLogin

structure PendingLogin where
  state        : Str
  nonce        : Str
  codeVerifier : Str
  returnTo     : Str
deriving DecidableEq

-- The random values of a login.
structure Draw where
  state        : Str
  nonce        : Str
  codeVerifier : Str

-- The parameters of a callback.
structure Callback where
  error            : Option Str
  errorDescription : Option Str
  code             : Option Str
  state            : Option Str

structure TokenResponse where
  accessToken  : Option Str
  refreshToken : Option Str
  idToken      : Option Str
  tokenType    : Option Str
  expiresIn    : Option Int
  scope        : Option Str

structure TokenSet where
  accessToken  : Str
  refreshToken : Option Str
  idToken      : Option Str
  tokenType    : Str
  expiresAt    : Int
  scope        : Option Str

-- An empty text counts as missing.
def given (s : Option Str) : Option Str :=
  s.filter (· ≠ [])

def pendingLogin (draw : Draw) (returnTo : Str) : PendingLogin where
  state        := draw.state
  nonce        := draw.nonce
  codeVerifier := draw.codeVerifier
  returnTo     := if (str "/auth/callback").isPrefixOf returnTo then str "/" else (given returnTo).getD (str "/")

-- Which login a callback is for.
def pendingFor (pending : Option PendingLogin) (url : Callback) : Except Str PendingLogin :=
  match given url.error, given url.code, given url.state with
  | some error, _, _             =>
    match given url.errorDescription with
    | some description => .error (error ++ str ": " ++ description)
    | none             => .error error
  | none, some _, some state     =>
    match pending with
    | some login =>
      if login.state = state then .ok login
      else .error (str "OIDC callback state does not match this session")
    | none       => .error (str "OIDC callback state does not match this session")
  | _, _, _                      => .error (str "OIDC callback is missing code or state")

def toTokenSet (token : TokenResponse) (now : Int) : Except Str TokenSet :=
  match given token.accessToken with
  | none             => .error (str "OIDC token response did not include an access token")
  | some accessToken => .ok {
      accessToken  := accessToken
      refreshToken := token.refreshToken
      idToken      := token.idToken
      tokenType    := token.tokenType.getD (str "Bearer")
      expiresAt    := now + token.expiresIn.getD 3600 * 1000
      scope        := token.scope
    }

-- A callback that has asked for its tokens. `latest` is not in the source: the login that was begun last at that time.
structure Exchange where
  callback : Callback
  login    : PendingLogin
  latest   : Option PendingLogin
  result   : Option (Except Str (TokenSet × Str))

-- The storage of the session, and the callbacks. `begun` is not in the source: the logins that have been stored.
structure Session where
  pending   : Option PendingLogin
  exchanges : List Exchange
  begun     : List PendingLogin

def Session.initial : Session :=
  ⟨none, [], []⟩

-- A login is begun when it is stored, before the page is left. The token endpoint answers the callbacks in any order,
-- or never.
inductive Event
  | beginOIDCLogin (draw : Draw) (returnTo : Str)
  | completeOIDCCallback (url : Callback)
  | answer (n : Nat) (response : Except Str TokenResponse) (now : Int)
  | clearStoredAuth

namespace Session

-- What a callback returns once the token endpoint has answered.
def finish (login : PendingLogin) (response : Except Str TokenResponse) (now : Int) : Except Str (TokenSet × Str) := do
  let token ← response
  let tokens ← toTokenSet token now
  return (tokens, (given login.returnTo).getD (str "/"))

def answer (s : Session) (n : Nat) (e : Exchange) (response : Except Str TokenResponse) (now : Int) : Session :=
  { s with exchanges := s.exchanges.set n { e with result := some (finish e.login response now) } }

def step (s : Session) : Event → Session
  | .beginOIDCLogin draw returnTo =>
    let login := pendingLogin draw returnTo
    { s with pending := some login, begun := s.begun ++ [login] }
  | .completeOIDCCallback url     =>
    match pendingFor s.pending url with
    | .ok login => { s with
        pending   := none
        exchanges := s.exchanges ++ [⟨url, login, s.begun.getLast?, none⟩]
      }
    | .error _  => s
  | .answer n response now        =>
    match s.exchanges[n]? with
    | some e => if e.result.isNone then s.answer n e response now else s
    | none   => s
  | .clearStoredAuth              => { s with pending := none }

end Session

-- The random state of a login is not that of one before.
def Fresh (s : Session) : Event → Prop
  | .beginOIDCLogin draw _ => ∀ login ∈ s.begun, login.state ≠ draw.state
  | _                      => True

section Bound

-- `nonceOf` reads the nonce of an id token.
variable (nonceOf : Str → Option Str)

-- A callback that returns tokens had the state of the login that was begun last, no callback before it was for that
-- login, and an id token has the nonce of the login. No login is used by two callbacks.
structure Bound (s : Session) : Prop where
  returned : ∀ n e tokens returnTo, s.exchanges[n]? = some e → e.result = some (.ok (tokens, returnTo)) →
    ∃ login, e.latest = some login ∧ e.callback.state = some login.state ∧
      login ∉ (s.exchanges.take n).map Exchange.login ∧
      ∀ idToken, tokens.idToken = some idToken → nonceOf idToken = some login.nonce
  once     : (s.exchanges.map Exchange.login).Nodup

-- An id token that comes with an access token has the nonce of the login that it is for.
def Carries (s : Session) : Event → Prop
  | .answer n response _ => ∀ e token idToken, s.exchanges[n]? = some e → e.result = none → response = .ok token →
      given token.accessToken ≠ none → token.idToken = some idToken → nonceOf idToken = some e.login.nonce
  | _                    => True

structure Inv (s : Session) : Prop where
  pending   : ∀ login, s.pending = some login →
    s.begun.getLast? = some login ∧ ∀ e ∈ s.exchanges, e.login.state ≠ login.state
  begun     : ∀ e ∈ s.exchanges, e.login ∈ s.begun
  once      : (s.exchanges.map fun e => e.login.state).Nodup
  exchanges : ∀ e ∈ s.exchanges, e.latest = some e.login ∧ e.callback.state = some e.login.state
  nonce     : ∀ e ∈ s.exchanges, ∀ tokens returnTo idToken, e.result = some (.ok (tokens, returnTo)) →
    tokens.idToken = some idToken → nonceOf idToken = some e.login.nonce

variable {nonceOf} {s : Session} {e : Exchange} {login : PendingLogin} {url : Callback} {n : Nat}

theorem given_some {a : Option Str} {b : Str} (h : given a = some b) : a = some b :=
  (Option.filter_eq_some_iff.mp h).left

-- A login is given out for its own state only.
theorem pendingFor_ok {pending : Option PendingLogin} (h : pendingFor pending url = .ok login) :
    pending = some login ∧ url.state = some login.state := by
  unfold pendingFor at h
  split at h
  case h_1 => split at h <;> cases h
  case h_2 hs =>
    split at h
    case h_2           => cases h
    case h_1 p =>
      split at h
      case isFalse   => cases h
      case isTrue he =>
        cases h
        exact ⟨rfl, he ▸ given_some hs⟩
  case h_3 => cases h

theorem toTokenSet_ok {token : TokenResponse} {now : Int} {tokens : TokenSet} (h : toTokenSet token now = .ok tokens) :
    given token.accessToken ≠ none ∧ tokens.idToken = token.idToken := by
  unfold toTokenSet at h
  split at h
  case h_1    => cases h
  case h_2 ha =>
    cases h
    exact ⟨by simp [ha], rfl⟩

theorem toTokenSet_of {token : TokenResponse} (h : given token.accessToken ≠ none) (now : Int) :
    ∃ tokens, toTokenSet token now = .ok tokens := by
  have ⟨accessToken, ha⟩ := Option.ne_none_iff_exists'.mp h
  exact ⟨_, by rw [toTokenSet, ha]⟩

-- Tokens that are returned have the id token of an answer with an access token.
theorem finish_ok {response : Except Str TokenResponse} {now : Int} {tokens : TokenSet} {returnTo : Str}
    (h : Session.finish login response now = .ok (tokens, returnTo)) :
    ∃ token, response = .ok token ∧ given token.accessToken ≠ none ∧ tokens.idToken = token.idToken := by
  cases response
  case error => cases h
  case ok token =>
    cases ht : toTokenSet token now
    case error =>
      simp only [Session.finish, bind, Except.bind, ht] at h
      cases h
    case ok =>
      simp only [Session.finish, bind, Except.bind, ht] at h
      cases h
      exact ⟨token, rfl, toTokenSet_ok ht⟩

theorem finish_of {token : TokenResponse} (h : given token.accessToken ≠ none) (login : PendingLogin) (now : Int) :
    ∃ tokens returnTo, Session.finish login (.ok token) now = .ok (tokens, returnTo) ∧
      tokens.idToken = token.idToken := by
  have ⟨tokens, ht⟩ := toTokenSet_of h now
  refine ⟨tokens, (given login.returnTo).getD (str "/"), ?_, (toTokenSet_ok ht).right⟩
  simp only [Session.finish, bind, Except.bind, ht]
  rfl

theorem Inv.bound (h : Inv nonceOf s) : Bound nonceOf s := by
  have ho : (s.exchanges.map Exchange.login).Nodup := by
    refine .of_map PendingLogin.state ?_
    rw [List.map_map]
    exact h.once
  refine ⟨fun n e tokens returnTo he hr => ?_, ho⟩
  have hm := List.mem_of_getElem? he
  have ⟨hl, hc⟩ := h.exchanges e hm
  refine ⟨e.login, hl, hc, fun hb => ?_, fun idToken => h.nonce e hm tokens returnTo idToken hr⟩
  have ⟨hn, hg⟩ := List.getElem?_eq_some_iff.mp he
  rw [← List.take_append_drop n s.exchanges, List.drop_eq_getElem_cons hn, hg, List.map_append, List.map_cons,
    List.nodup_append] at ho
  exact ho.right.right _ hb _ (.head _) rfl

theorem Inv.initial : Inv nonceOf Session.initial := by
  constructor
  case once => exact List.nodup_nil
  all_goals
    intro _ h
    cases h

theorem Inv.begin (h : Inv nonceOf s) {draw : Draw} (hf : ∀ login ∈ s.begun, login.state ≠ draw.state)
    (returnTo : Str) : Inv nonceOf (s.step (.beginOIDCLogin draw returnTo)) := by
  constructor
  case pending =>
    intro login hl
    cases hl
    exact ⟨List.getLast?_concat, fun e hm => hf e.login (h.begun e hm)⟩
  case begun     => exact fun e hm => List.mem_append_left _ (h.begun e hm)
  case once      => exact h.once
  case exchanges => exact h.exchanges
  case nonce     => exact h.nonce

theorem Inv.clear (h : Inv nonceOf s) : Inv nonceOf { s with pending := none } := by
  constructor
  case pending   => nofun
  case begun     => exact h.begun
  case once      => exact h.once
  case exchanges => exact h.exchanges
  case nonce     => exact h.nonce

theorem Inv.callback (h : Inv nonceOf s) (url : Callback) : Inv nonceOf (s.step (.completeOIDCCallback url)) := by
  simp only [Session.step]
  split
  case h_2          => exact h
  case h_1 login hp =>
    have ⟨hl, hs⟩ := pendingFor_ok hp
    have ⟨hb, hn⟩ := h.pending login hl
    have of_new {P : Exchange → Prop} (ho : ∀ e ∈ s.exchanges, P e) (hp : P ⟨url, login, s.begun.getLast?, none⟩) :
        ∀ e ∈ s.exchanges ++ [⟨url, login, s.begun.getLast?, none⟩], P e := by
      intro e hm
      rcases List.mem_append.mp hm with hm | hm
      · exact ho e hm
      · rw [List.mem_singleton.mp hm]
        exact hp
    constructor
    case pending   => nofun
    case begun     => exact of_new h.begun (List.mem_of_getLast? hb)
    case once      =>
      rw [List.map_append, List.map_singleton, ← List.concat_eq_append, List.nodup_concat]
      refine ⟨fun hm => ?_, h.once⟩
      have ⟨e, hm, he⟩ := List.mem_map.mp hm
      exact hn e hm he
    case exchanges => exact of_new h.exchanges ⟨hb, hs⟩
    case nonce     => exact of_new h.nonce nofun

theorem Inv.answer (h : Inv nonceOf s) {response : Except Str TokenResponse} {now : Int}
    (he : s.exchanges[n]? = some e)
    (hc : ∀ tokens returnTo idToken, Session.finish e.login response now = .ok (tokens, returnTo) →
      tokens.idToken = some idToken → nonceOf idToken = some e.login.nonce) :
    Inv nonceOf (s.answer n e response now) := by
  have hm := List.mem_of_getElem? he
  have ⟨hn, hg⟩ := List.getElem?_eq_some_iff.mp he
  let e' : Exchange := { e with result := some (Session.finish e.login response now) }
  have of_set {P : Exchange → Prop} (ho : ∀ e ∈ s.exchanges, P e) (hp : P e') : ∀ e ∈ s.exchanges.set n e', P e := by
    intro e hm
    rcases List.mem_or_eq_of_mem_set hm with hm | rfl
    · exact ho e hm
    · exact hp
  constructor
  case pending   => exact fun login hl => (h.pending login hl).imp_right fun hs => of_set hs (hs e hm)
  case begun     => exact of_set h.begun (h.begun e hm)
  case once      =>
    have hs := @List.set_getElem_self _ (s.exchanges.map fun e => e.login.state) n (by simpa using hn)
    rw [List.getElem_map, hg] at hs
    change ((s.exchanges.set n e').map fun e => e.login.state).Nodup
    rw [List.map_set, hs]
    exact h.once
  case exchanges => exact of_set h.exchanges (h.exchanges e hm)
  case nonce     =>
    refine of_set h.nonce fun tokens returnTo idToken hr => ?_
    exact hc tokens returnTo idToken (Option.some.inj hr)

theorem Inv.step (h : Inv nonceOf s) {event : Event} (hf : Fresh s event) (hc : Carries nonceOf s event) :
    Inv nonceOf (s.step event) := by
  cases event
  case beginOIDCLogin draw returnTo => exact h.begin hf returnTo
  case completeOIDCCallback url     => exact h.callback url
  case clearStoredAuth              => exact h.clear
  case answer n response now        =>
    simp only [Session.step]
    split
    case h_2      => exact h
    case h_1 e he =>
      split
      case isFalse   => exact h
      case isTrue hw =>
        refine h.answer he fun tokens returnTo idToken hr hi => ?_
        have ⟨token, ht, ha, hid⟩ := finish_ok hr
        exact hc e token idToken he (Option.isNone_iff_eq_none.mp hw) ht ha (hid ▸ hi)

theorem Inv.lost (h : Inv nonceOf s) {event : Event} (hc : ¬Carries nonceOf s event) :
    ¬Bound nonceOf (s.step event) := by
  cases event
  case answer n response now =>
    intro hb
    refine hc fun e token idToken he hw ht ha hi => ?_
    subst ht
    have ⟨tokens, returnTo, hr, hid⟩ := finish_of ha e.login now
    have ⟨hn, _⟩ := List.getElem?_eq_some_iff.mp he
    simp only [Session.step, he, hw, Option.isNone_none, if_true] at hb
    have ⟨login, hl, _, _, ho⟩ := hb.returned n _ tokens returnTo (List.getElem?_set_self hn) (congrArg some hr)
    cases hl.symm.trans (h.exchanges e (List.mem_of_getElem? he)).left
    exact ho idToken (hid ▸ hi)
  all_goals exact absurd trivial hc

end Bound

-- Callbacks are bound to their logins in all of a run, whatever is called in whatever order, if and only if every id
-- token that is taken has the nonce of the login.
theorem callbacks_bound_iff (nonceOf : Str → Option Str) (es : List Event)
    (h : Events.Taken Session.step Fresh Session.initial es) :
    Events.Reached Session.step (Bound nonceOf) Session.initial es ↔
      Events.Taken Session.step (Carries nonceOf) Session.initial es :=
  Events.reached_iff_taken_of h Inv.initial (fun _ => Inv.bound) (fun _ _ hi hf => hi.step hf) fun _ _ hi _ => hi.lost

-- Two id tokens, which have the nonces n0 and n1.
def idToken (payload : String) : Str :=
  str "eyJhbGciOiJSUzI1NiJ9." ++ str payload ++ str ".c2ln"

def nonceIn (token : Str) : Option Str :=
  if token = idToken "eyJub25jZSI6Im4wIn0" then some (str "n0")
  else if token = idToken "eyJub25jZSI6Im4xIn0" then some (str "n1")
  else none

-- The second of two logins is finished with an id token, and its callback comes once more.
def signedIn (payload : String) : List Event :=
  let url : Callback := ⟨none, none, some (str "c1"), some (str "s1")⟩
  let token : TokenResponse := ⟨some (str "a1"), none, some (idToken payload), none, some 300, none⟩
  [
    .beginOIDCLogin ⟨str "s0", str "n0", str "v0"⟩ (str "/models"), .beginOIDCLogin ⟨str "s1", str "n1", str "v1"⟩ [],
    .completeOIDCCallback url, .answer 0 (.ok token) 1000, .completeOIDCCallback url
  ]

theorem signedIn_fresh (payload : String) : Events.Taken Session.step Fresh Session.initial (signedIn payload) := by
  refine ⟨nofun, fun login hl => ?_, trivial, trivial, trivial, trivial⟩
  rw [List.mem_singleton.mp hl]
  decide

theorem own_nonce_bound :
    Events.Reached Session.step (Bound nonceIn) Session.initial (signedIn "eyJub25jZSI6Im4xIn0") := by
  refine (callbacks_bound_iff nonceIn _ (signedIn_fresh _)).mpr ⟨trivial, trivial, trivial, ?_, trivial, trivial⟩
  intro e token idToken he _ ht _ hi
  cases he
  cases ht
  cases hi
  decide

-- An id token of the login before is taken.
theorem other_nonce_taken : ∃ es, Events.Taken Session.step Fresh Session.initial es ∧
    ¬Events.Reached Session.step (Bound nonceIn) Session.initial es := by
  refine ⟨signedIn "eyJub25jZSI6Im4wIn0", signedIn_fresh _, fun h => ?_⟩
  have ⟨login, hl, _, _, hn⟩ := h.last.returned 0 _ _ _ rfl rfl
  cases hl
  have hn := hn (idToken "eyJub25jZSI6Im4wIn0") rfl
  revert hn
  decide

end Console.OidcLogin

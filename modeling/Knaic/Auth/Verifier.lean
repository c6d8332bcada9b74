import Knaic.Auth.User
import Knaic.Go.Http

open Go Go.Http

namespace Auth

-- `Request.Cookie` of net/http: the first cookie of that name.
section Cookies

def validCookieValueByte (b : UInt8) : Bool :=
  32 ≤ b && b < 127 && b != 34 && b != 59 && b != 92

def parseCookieValue (raw : Str) : Option Str :=
  let val :=
    match raw with
    | 34 :: t => if t.getLast? = some 34 then t.dropLast else raw
    | _       => raw
  if val.all validCookieValueByte then some val else none

-- The pairs of the lines of a Cookie header, as text.
def cookieParts (lines : List Str) : List Str :=
  (lines.flatMap fun line => ((trimString line).splitOn 59).map trimString).filter (· ≠ [])

def cookieName (part : Str) : Str :=
  trimString (part.takeWhile (· ≠ 61))

def isToken (s : Str) : Bool :=
  s ≠ [] && s.all validHeaderFieldByte

def readCookie (name part : Str) : Option Str :=
  if isToken (cookieName part) ∧ cookieName part = name then
    parseCookieValue ((part.dropWhile (· ≠ 61)).drop 1)
  else
    none

def cookie (h : Header) (name : Str) : Option Str :=
  (cookieParts (h.values (str "Cookie"))).findSome? (readCookie name)

end Cookies

def grantCookieName : Str :=
  str "knaic_grant"

-- `verify` is what the OIDC library and the look at the admins make of a token, and a grant store
-- verifies a grant for a path.
structure Verifier where
  disabled   : Bool
  adminGroup : Str
  verify     : Str → Option User
  grants     : Option (Str → Str → Option User)

def bearer (h : Header) : Str :=
  let v := h.get (str "Authorization")
  match v.splitOn 32 with
  | scheme :: _ :: _ =>
    if Str.toLower scheme = str "bearer" then (v.dropWhile (· ≠ 32)).drop 1 else []
  | _                => []

def fromRequest (verify : Str → Str → Option User) (r : Request) : Option User :=
  (cookie r.header grantCookieName).bind fun token => verify token r.url.path

def devUser (adminGroup : Str) : User where
  subject         := str "dev"
  email           := str "dev@knaic.local"
  name            := str "dev"
  groups          := [adminGroup]
  isPlatformAdmin := true

-- The user that the middleware puts into the context of the request, if it passes it on.
def Verifier.middleware (v : Verifier) (r : Request) : Option User :=
  if v.disabled then
    some (devUser v.adminGroup)
  else
    let raw := bearer r.header
    if raw = [] then v.grants.bind (fromRequest · r) else v.verify raw

end Auth

import Knaic.Auth.Verifier
import Knaic.Go.Base64
import Knaic.Go.JsonText
import Knaic.Go.Time

open Go Go.Http Go.JsonText

namespace Auth

-- `Time.Unix` and `time.Unix`: seconds are counted from 1970 on.
def unixToInternal : Int64 :=
  62135596800

def unix (t : Time) : Int64 :=
  t.sec - unixToInternal

def ofUnix (sec : Int64) : Time :=
  ⟨sec + unixToInternal, 0⟩

-- The second that an instant lies in.
def wholeSeconds (t : Time) : Time :=
  ⟨t.sec, 0⟩

-- A user as JSON carries one.
def User.valid (u : User) : User where
  subject         := Utf8.toValid u.subject
  email           := Utf8.toValid u.email
  name            := Utf8.toValid u.name
  groups          := u.groups.map Utf8.toValid
  isPlatformAdmin := u.isPlatformAdmin

-- `mac` is HMAC-SHA256 under the secret of the process.
structure GrantStore where
  mac : Str → Str

structure GrantPayload where
  subject : Str
  email   : Str
  name    : Str
  groups  : List Str
  isAdmin : Bool
  scope   : Str
  expUnix : Int64
deriving DecidableEq

namespace GrantPayload

inductive Field
  | subject | email | name | groups | isAdmin | scope | exp
deriving DecidableEq

namespace Field

def key : Field → Str
  | subject => str "sub"
  | email   => str "email"
  | name    => str "name"
  | groups  => str "groups"
  | isAdmin => str "isAdmin"
  | scope   => str "scope"
  | exp     => str "exp"

def all : List Field :=
  [subject, email, name, groups, isAdmin, scope, exp]

end Field

def zero : GrantPayload where
  subject := []
  email   := []
  name    := []
  groups  := []
  isAdmin := false
  scope   := []
  expUnix := 0

-- What `omitempty` leaves out.
def omitempty (empty : Bool) (f : Field) (v : Value) : List (Str × Value) :=
  if empty then [] else [(f.key, v)]

def fields (p : GrantPayload) : List (Str × Value) :=
  (Field.subject.key, .string p.subject) ::
    (omitempty p.email.isEmpty .email (.string p.email) ++ (omitempty p.name.isEmpty .name (.string p.name) ++
      (omitempty p.groups.isEmpty .groups (.array (p.groups.map .string)) ++
        (omitempty (!p.isAdmin) .isAdmin (.bool p.isAdmin) ++
          [(Field.scope.key, .string p.scope), (Field.exp.key, .number (Strconv.itoa p.expUnix.toInt))]))))

def marshal (p : GrantPayload) : Str :=
  print (.object p.fields)

def set (p : GrantPayload) (v : Value) : Field → Option GrantPayload
  | .subject => (stringOver p.subject v).map fun s => { p with subject := s }
  | .email   => (stringOver p.email v).map fun s => { p with email := s }
  | .name    => (stringOver p.name v).map fun s => { p with name := s }
  | .groups  => (stringsOver p.groups v).map fun l => { p with groups := l }
  | .isAdmin => (boolOver p.isAdmin v).map fun b => { p with isAdmin := b }
  | .scope   => (stringOver p.scope v).map fun s => { p with scope := s }
  | .exp     => (intOver p.expUnix v).map fun n => { p with expUnix := n }

def unmarshal (raw : Str) : Option GrantPayload :=
  (parse raw).bind (decodeFields Field.all Field.key set zero)

-- What comes back, where bytes that are part of no rune have been replaced.
def valid (p : GrantPayload) : GrantPayload where
  subject := Utf8.toValid p.subject
  email   := Utf8.toValid p.email
  name    := Utf8.toValid p.name
  groups  := p.groups.map Utf8.toValid
  isAdmin := p.isAdmin
  scope   := Utf8.toValid p.scope
  expUnix := p.expUnix

section RoundTrip

variable {p q : GrantPayload} {empty : Bool} {f : Field} {v : Value}

theorem omitempty_readable {n : Nat} (hv : v.Readable n) (empty : Bool) (f : Field) :
    FieldsReadable n (omitempty empty f v) := by
  cases empty
  case true  => trivial
  case false => exact ⟨hv, trivial⟩

theorem fields_readable (p : GrantPayload) : FieldsReadable 1 p.fields := by
  have hs (s : Str) : (Value.string s).Readable 1 := trivial
  have hb (b : Bool) : (Value.bool b).Readable 1 := trivial
  have hg : (Value.array (p.groups.map .string)).Readable 1 := ⟨by decide, allReadable_strings 2 p.groups⟩
  have he := omitempty_readable (hs p.email) p.email.isEmpty .email
  have hn := omitempty_readable (hs p.name) p.name.isEmpty .name
  have hl := omitempty_readable hg p.groups.isEmpty .groups
  have ha := omitempty_readable (hb p.isAdmin) (!p.isAdmin) .isAdmin
  exact ⟨trivial, he.append (hn.append (hl.append (ha.append ⟨trivial, isNumber_itoa _, trivial⟩)))⟩

-- How one member is decoded.
abbrev setField : GrantPayload → Str × Value → Option GrantPayload :=
  setMember Field.all Field.key set

theorem setField_key (p : GrantPayload) (f : Field) (v : Value) : setField p (Utf8.toValid f.key, v) = p.set v f := by
  have hf : Field.all.find? (fun g => foldName (Utf8.toValid f.key) = Str.toUpper g.key) = some f := by
    cases f <;> decide
  rw [setField, setMember, hf]

-- A field that was left out is as it is to be already.
theorem set_omitempty (he : empty = true → q = p) (hs : p.set v.valid f = some q) (l : List (Str × Value)) :
    (validFields (omitempty empty f v ++ l)).foldlM setField p = (validFields l).foldlM setField q := by
  cases empty
  case true  => rw [he rfl]; rfl
  case false =>
    rw [omitempty, if_neg (by decide), List.singleton_append, validFields, List.foldlM_cons, setField_key, hs]
    rfl

theorem set_field (hs : p.set v.valid f = some q) (l : List (Str × Value)) :
    (validFields ((f.key, v) :: l)).foldlM setField p = (validFields l).foldlM setField q := by
  have he : false = true → q = p := nofun
  exact set_omitempty he hs l

theorem allOver_strings (l : List Str) : allOver [] (l.map .string) = some l := by
  induction l
  case nil         => rfl
  case cons s l hi =>
    rw [List.map_cons, allOver, stringOver, Option.bind_some, hi]
    rfl

theorem isEmpty_valid {s : Str} (h : s.isEmpty) : Utf8.toValid s = [] := by
  rw [List.isEmpty_iff.mp h]
  rfl

theorem unmarshal_marshal (p : GrantPayload) : unmarshal p.marshal = some p.valid := by
  have hr : (Value.object p.fields).Readable 0 := ⟨by decide, fields_readable p⟩
  rw [unmarshal, marshal, parse_print hr, Option.bind_some]
  show (validFields p.fields).foldlM setField zero = some p.valid
  let p₁ : GrantPayload := { zero with subject := Utf8.toValid p.subject }
  let p₂ : GrantPayload := { p₁ with email := Utf8.toValid p.email }
  let p₃ : GrantPayload := { p₂ with name := Utf8.toValid p.name }
  let p₄ : GrantPayload := { p₃ with groups := p.groups.map Utf8.toValid }
  let p₅ : GrantPayload := { p₄ with isAdmin := p.isAdmin }
  let p₆ : GrantPayload := { p₅ with scope := Utf8.toValid p.scope }
  have h₂ : p.email.isEmpty = true → p₂ = p₁ := fun h => by simp only [p₂, isEmpty_valid h]; rfl
  have h₃ : p.name.isEmpty = true → p₃ = p₂ := fun h => by simp only [p₃, isEmpty_valid h]; rfl
  have h₄ : p.groups.isEmpty = true → p₄ = p₃ := fun h => by simp only [p₄, List.isEmpty_iff.mp h]; rfl
  have h₅ : (!p.isAdmin) = true → p₅ = p₄ := fun h => by
    have hf : p.isAdmin = false := by simpa using h
    simp only [p₅, hf]
    rfl
  have hg : p₃.set (Value.array (p.groups.map .string)).valid .groups = some p₄ := by
    rw [Value.valid, validAll_strings, set, stringsOver]
    exact congrArg (Option.map _) (allOver_strings _)
  have hx : p₆.set (Value.number (Strconv.itoa p.expUnix.toInt)).valid .exp = some p.valid := by
    have hn (w : Str) : (Value.number w).valid = .number w := rfl
    rw [hn, set, intOver, parseInt_itoa (Int64.le_toInt _) (Int64.toInt_lt _)]
    simp only [Int64.ofInt_toInt]
    rfl
  rw [fields, set_field (q := p₁) rfl, set_omitempty h₂ rfl, set_omitempty h₃ rfl, set_omitempty h₄ hg,
    set_omitempty h₅ rfl, set_field (q := p₆) rfl, set_field hx]
  rfl

end RoundTrip
end GrantPayload

namespace GrantStore

variable (g : GrantStore)

def sign (payload : Str) : Str :=
  Base64.encode (g.mac payload)

def tokenOf (p : GrantPayload) : Str :=
  let payload := Base64.encode p.marshal
  str "v1." ++ payload ++ str "." ++ g.sign payload

def errDecode : Error :=
  .foreign (str "illegal base64 data")

def errParse : Error :=
  .foreign (str "invalid JSON")

-- `now` is what the clock of the store says.
def mint (now : Time) (u : Option User) (scope : Str) (ttl : Duration) : Except Error (Str × Time) :=
  match u with
  | none   => .error (.new "grant: user is required")
  | some u =>
    if scope = [] then .error (.new "grant: scope is required")
    else
      let exp := now.add ttl
      let body : GrantPayload :=
        { subject := u.subject
          email   := u.email
          name    := u.name
          groups  := u.groups
          isAdmin := u.isPlatformAdmin
          scope   := scope
          expUnix := unix exp }
      .ok (g.tokenOf body, exp)

def verify (now : Time) (token scopeReq : Str) : Except Error User :=
  match token.splitOn 46 with
  | [v, payload, mac] =>
    if v ≠ str "v1" then .error (.new "grant: bad token shape")
    else if mac ≠ g.sign payload then .error (.new "grant: signature mismatch")
    else
      match Base64.decode payload with
      | none     => .error (.wrap "grant: payload decode" errDecode)
      | some raw =>
        match GrantPayload.unmarshal raw with
        | none   => .error (.wrap "grant: payload parse" errParse)
        | some p =>
          if (ofUnix p.expUnix).before now then .error (.new "grant: expired")
          else if scopeReq ≠ [] ∧ !scopeReq.hasPrefix p.scope then .error (.new "grant: scope mismatch")
          else
            .ok { subject         := p.subject
                  email           := p.email
                  name            := p.name
                  groups          := p.groups
                  isPlatformAdmin := p.isAdmin }
  | _                 => .error (.new "grant: bad token shape")

variable {g : GrantStore} {u : User} {scope : Str} {ttl : Duration}

theorem splitOn_tokenOf (g : GrantStore) (p : GrantPayload) :
    (g.tokenOf p).splitOn 46 = [str "v1", Base64.encode p.marshal, g.sign (Base64.encode p.marshal)] := by
  have hv : str "v1." = str "v1" ++ [46] := by decide
  have hd : str "." = [46] := by decide
  have hm : 46 ∉ g.sign (Base64.encode p.marshal) := Base64.dot_not_mem_encode _
  rw [tokenOf, hv, hd]
  simp only [List.append_assoc, List.cons_append, List.nil_append]
  rw [List.splitOn_append_cons_self_of_not_mem (by decide),
    List.splitOn_append_cons_self_of_not_mem (Base64.dot_not_mem_encode _), List.splitOn_eq_singleton hm]

-- What verifying a token of the store comes to.
theorem verify_tokenOf (g : GrantStore) (now : Time) (p : GrantPayload) (path : Str) :
    g.verify now (g.tokenOf p) path =
      if (ofUnix p.expUnix).before now then .error (.new "grant: expired")
      else if path ≠ [] ∧ !path.hasPrefix p.valid.scope then .error (.new "grant: scope mismatch")
      else
        .ok { subject         := p.valid.subject
              email           := p.valid.email
              name            := p.valid.name
              groups          := p.valid.groups
              isPlatformAdmin := p.isAdmin } := by
  rw [verify, splitOn_tokenOf]
  simp only [ne_eq, not_true_eq_false, if_false, Base64.decode_encode, GrantPayload.unmarshal_marshal]
  rfl

theorem ofUnix_unix (t : Time) : ofUnix (unix t) = wholeSeconds t := by
  simp [ofUnix, unix, wholeSeconds]

-- A token that was minted is accepted up to the second of its expiry, on the paths that begin with its scope. Bytes of a
-- text that are part of no rune do not come back.
theorem verify_minted {m exp : Time} {token : Str} (h : g.mint m (some u) scope ttl = .ok (token, exp)) (t : Time)
    (path : Str) : g.verify t token path =
      if (wholeSeconds exp).before t then .error (.new "grant: expired")
      else if path ≠ [] ∧ !path.hasPrefix (Utf8.toValid scope) then .error (.new "grant: scope mismatch")
      else .ok u.valid := by
  simp only [mint] at h
  split at h
  case isTrue  => cases h
  case isFalse =>
    cases h
    rw [verify_tokenOf, ofUnix_unix]
    rfl

theorem verify_ok_iff {m exp t : Time} {token path : Str} {v : User} (h : g.mint m (some u) scope ttl = .ok (token, exp))
    (hp : path ≠ []) :
    g.verify t token path = .ok v ↔ v = u.valid ∧ ¬(wholeSeconds exp).before t ∧ Utf8.toValid scope <+: path := by
  rw [verify_minted h, ← Str.hasPrefix_iff]
  split
  case isTrue hx  => exact ⟨nofun, fun hv => absurd hx hv.right.left⟩
  case isFalse hx =>
    split
    case isTrue hs  => exact ⟨nofun, fun hv => by simp [hv.right.right] at hs⟩
    case isFalse hs =>
      have hs : path.hasPrefix (Utf8.toValid scope) := by simpa [hp] using hs
      exact ⟨fun hv => ⟨(Except.ok.inj hv).symm, hx, hs⟩, fun hv => congrArg _ hv.left.symm⟩

-- What a cookie holds as it is.
def Plain (s : Str) : Prop :=
  ∀ b ∈ s, validCookieValueByte b ∧ isASCIISpace b = false

theorem plain_of_all {s : Str} (h : s.all fun b => validCookieValueByte b && !isASCIISpace b) : Plain s := by
  intro b hb
  simpa using List.all_eq_true.mp h b hb

theorem plain_encode (s : Str) : Plain (Base64.encode s) := by
  have hd : ∀ n < 64, validCookieValueByte (Base64.digit n) ∧ isASCIISpace (Base64.digit n) = false := by
    decide
  intro b hb
  obtain ⟨n, hn, rfl⟩ := Base64.mem_encode hb
  exact hd n hn

theorem plain_mint {m exp : Time} {token : Str} (h : g.mint m (some u) scope ttl = .ok (token, exp)) : Plain token := by
  simp only [mint] at h
  split at h
  case isTrue  => cases h
  case isFalse =>
    cases h
    simp only [tokenOf, Plain, List.forall_mem_append]
    exact ⟨⟨⟨plain_of_all (by decide), plain_encode _⟩, plain_of_all (by decide)⟩, plain_encode _⟩

theorem trimString_of_no_space {s : Str} (h : ∀ b ∈ s, isASCIISpace b = false) : trimString s = s := by
  have hd {l : Str} (hl : ∀ b ∈ l, isASCIISpace b = false) : l.dropWhile isASCIISpace = l := by
    cases l
    case nil  => rfl
    case cons => exact List.dropWhile_cons_of_neg (by simp [hl _ (.head _)])
  have hr : ∀ b ∈ s.reverse, isASCIISpace b = false := fun b hb => h b (List.mem_reverse.mp hb)
  rw [trimString, hd h, hd hr, List.reverse_reverse]

theorem parseCookieValue_plain {s : Str} (h : Plain s) : parseCookieValue s = some s := by
  have hq : ∀ t, s = 34 :: t → False := by
    rintro t rfl
    exact absurd (h 34 (.head _)).left (by decide)
  rw [parseCookieValue.eq_2 s hq, if_pos (List.all_eq_true.mpr fun b hb => (h b hb).left)]

-- A token goes through a cookie as it is.
theorem cookie_plain {token : Str} (h : Plain token) :
    cookie (Header.set ∅ (str "Cookie") (grantCookieName ++ str "=" ++ token)) grantCookieName = some token := by
  have hn : ∀ b ∈ grantCookieName, b ≠ 59 ∧ b ≠ 61 ∧ isASCIISpace b = false := by
    have ha : grantCookieName.all fun b => b ≠ 59 && b ≠ 61 && !isASCIISpace b := by decide
    intro b hb
    simpa [and_assoc] using List.all_eq_true.mp ha b hb
  have ht : isToken grantCookieName := by decide
  generalize hg : grantCookieName = name at hn ht
  have he : str "=" = [61] := rfl
  have hp : ∀ b ∈ name ++ [61] ++ token, b ≠ 59 ∧ isASCIISpace b = false := by
    simp only [List.forall_mem_append, List.forall_mem_singleton]
    refine ⟨⟨fun b hb => ⟨(hn b hb).left, (hn b hb).right.right⟩, by decide⟩, fun b hb => ⟨?_, (h b hb).right⟩⟩
    rintro rfl
    exact absurd (h _ hb).left (by decide)
  have hl := trimString_of_no_space fun b hb => (hp b hb).right
  have hv : (Header.set ∅ (str "Cookie") (name ++ [61] ++ token)).values (str "Cookie") = [name ++ [61] ++ token] := by
    have hk : canonicalHeaderKey (str "Cookie") = str "Cookie" := by decide
    rw [Header.values, Header.set, hk, Finmap.lookup_insert]
    rfl
  have hc : cookieParts [name ++ [61] ++ token] = [name ++ [61] ++ token] := by
    rw [cookieParts, List.flatMap_singleton, hl, List.splitOn_eq_singleton fun hm => (hp _ hm).left rfl,
      List.map_singleton, hl]
    simp
  have hd : ∀ b ∈ name, decide (b ≠ 61) = true := fun b hb => decide_eq_true (hn b hb).right.left
  have hw : cookieName (name ++ [61] ++ token) = name := by
    rw [cookieName, List.append_assoc, List.takeWhile_append_of_pos hd, List.singleton_append,
      List.takeWhile_cons_of_neg (by decide), List.append_nil]
    exact trimString_of_no_space fun b hb => (hn b hb).right.right
  have hr : readCookie name (name ++ [61] ++ token) = some token := by
    rw [readCookie, hw, if_pos ⟨ht, rfl⟩, List.append_assoc, List.dropWhile_append_of_pos hd, List.singleton_append,
      List.dropWhile_cons_of_neg (by decide)]
    exact parseCookieValue_plain h
  rw [he, cookie, hv, hc, List.findSome?_cons, hr]

end GrantStore
end Auth

import Knaic.Go.Float64
import Knaic.Go.Time
import Knaic.Go.Utf8
import Knaic.Sql.Table

open Go

namespace Sql

def numericValueOutOfRange : Code :=
  str "22003"

def characterNotInRepertoire : Code :=
  str "22021"

def datetimeFieldOverflow : Code :=
  str "22008"

-- What a text column takes: UTF-8 without a zero byte.
def storableText (s : Str) : Bool :=
  !s.contains 0 && (Utf8.pieces s).all fun
    | .rune _ => true
    | .bad _  => false

-- What a timestamp column keeps as it is: whole microseconds from 4714 BC to the end of 294276.
def storableTime (t : Time) : Bool :=
  t.nsec.val % 1000 == 0 && decide (-148731206400 ≤ t.sec) && decide (t.sec < 9286453612800)

-- A `DOUBLE PRECISION` column keeps every number, but there is only one that is none.
def storableFloat (f : Float64) : Bool :=
  f.exponent ≠ 0x7ff || f.mantissa = 0

def storableInteger (n : Int64) : Bool :=
  decide (-2147483648 ≤ n) && decide (n ≤ 2147483647)

-- What is left to the server and its driver: why they refuse a text, what they make of an instant
-- and of a number, and the collation.
structure Database where
  refuses : Str → Option Code
  instant : Time → Except Code Time
  double  : Float64 → Float64
  less    : Str → Str → Bool

namespace Database

-- What is written about it: values that fit a column are kept as they are.
structure Documented (db : Database) : Prop where
  text    : ∀ s, storableText s → db.refuses s = none
  instant : ∀ t, storableTime t → db.instant t = .ok t
  double  : ∀ f, storableFloat f → db.double f = f

-- The collation "C"
def Bytewise (db : Database) : Prop :=
  ∀ s s', db.less s s' = decide (s < s')

-- The parameters of a statement are read before it is run.
def texts (db : Database) (ss : List Str) : Except Code Unit :=
  match ss.findSome? db.refuses with
  | some c => .error c
  | none   => .ok ()

-- A query for the row under a primary key.
def find (db : Database) (t : Table Row) (id : Str) : Except Code (Option Row) := do
  db.texts [id]
  return t.lookup id

def integer (n : Int64) : Except Code Int64 :=
  if storableInteger n then .ok n else .error numericValueOutOfRange

variable {db : Database} {Row : Type}

theorem texts_ok (h : db.Documented) {ss : List Str} (hs : ∀ s ∈ ss, storableText s) :
    db.texts ss = .ok () := by
  have : ss.findSome? db.refuses = none :=
    List.findSome?_eq_none_iff.mpr fun s hm => h.text s (hs s hm)
  simp [texts, this]

theorem find_ok (h : db.Documented) {id : Str} (hs : storableText id) (t : Table Row) :
    db.find t id = .ok (t.lookup id) := by
  have hi : db.texts [id] = .ok () := texts_ok h (by simpa using hs)
  simp only [find, hi, ok_bind]
  rfl

-- A server that keeps what fits and refuses the rest.
def plain : Database where
  refuses s := if storableText s then none else some characterNotInRepertoire
  instant t := if storableTime t then .ok t else .error datetimeFieldOverflow
  double f  := f
  less s s' := decide (s < s')

theorem plain_documented : plain.Documented where
  text _ h    := if_pos h
  instant _ h := if_pos h
  double _ _  := rfl

theorem plain_bytewise : plain.Bytewise :=
  fun _ _ => rfl

end Database
end Sql

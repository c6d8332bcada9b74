import Mathlib.Data.List.TakeWhile
import Knaic.Go.Basic

namespace Go.Scanner

def errTooLong : Error :=
  .sentinel "bufio" "bufio.Scanner: token too long"

def dropCR (line : Str) : Str :=
  if line.getLast? = some 13 then line.dropLast else line

-- What stands between the line feeds. The last line may lack one.
def rawLines (s : Str) : List Str :=
  let ls := s.splitOn 10
  if ls.getLast? = some [] then ls.dropLast else ls

-- What a scanner yields, and what stopped it if that was not the end.
structure Scan where
  lines : List Str
  err   : Option Error
deriving DecidableEq

-- `ScanLines` over a buffer of `max` bytes, which a line has to fit in together with its line
-- feed. `readErr` is the error that came after the last byte, if any.
def scanLines (max : Nat) (s : Str) (readErr : Option Error) : Scan where
  lines := ((rawLines s).takeWhile fun l => l.length < max).map dropCR
  err   := if (rawLines s).all fun l => l.length < max then readErr else some errTooLong

-- The text of some lines, each with its end.
def unlines (ls : List Str) : Str :=
  ls.flatMap fun l => l ++ [10]

theorem splitOn_unlines {ls : List Str} (h : ∀ l ∈ ls, 10 ∉ l) :
    (unlines ls).splitOn 10 = ls ++ [[]] := by
  induction ls
  case nil          => rfl
  case cons l ls hi =>
    have hl := hi fun m hm => h m (.tail _ hm)
    rw [unlines] at hl
    rw [unlines, List.flatMap_cons, List.append_assoc, List.singleton_append,
      List.splitOn_append_cons_self_of_not_mem (h l (.head _)), hl, List.cons_append]

theorem dropCR_of_not_mem {l : Str} (h : 13 ∉ l) : dropCR l = l :=
  if_neg fun hl => h (List.mem_of_getLast? hl)

-- Lines without line ends in them are scanned as they are while they fit.
theorem scanLines_unlines {max : Nat} {ls : List Str} (hn : ∀ l ∈ ls, 10 ∉ l)
    (hr : ∀ l ∈ ls, 13 ∉ l) (hm : ∀ l ∈ ls, l.length < max) (readErr : Option Error) :
    scanLines max (unlines ls) readErr = ⟨ls, readErr⟩ := by
  have hraw : rawLines (unlines ls) = ls := by
    simp [rawLines, splitOn_unlines hn]
  have hall : ∀ l ∈ ls, decide (l.length < max) = true := by
    simpa using hm
  have hcr : ls.map dropCR = ls := by
    rw [List.map_congr_left fun l hl => dropCR_of_not_mem (hr l hl), List.map_id']
  rw [scanLines, hraw, List.takeWhile_eq_self_iff.mpr hall, hcr, if_pos (List.all_eq_true.mpr hall)]

end Go.Scanner

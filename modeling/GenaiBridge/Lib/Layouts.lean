/-
Instants in layouts other than RFC 3339.

`parseLocal` reads a date and a time of day without a zone, as UTC.  `parseDateText`
reads the layout `Mon Jan 02 2006 15:04:05 GMT-0700`: the names in any case, one or more
blanks where the layout has one, and a fraction of a second although the layout has
none.  The name of the day is not compared with the date.
-/
import GenaiBridge.Lib.Rfc3339

namespace Lib.Rfc3339

/-- Layout `2006-01-02T15:04:05.999999999`. -/
def parseLocal (l : List Char) : Option Int := do
  let ((y, m, d), l) ← readDate l
  let l ← expect 'T' l
  let (clock, l) ← readClock l
  if l.isEmpty then some (ofCivil y m d * nanosPerDay + clock) else none

/-- Blanks, or the end of the text. -/
def skipBlanks : List Char → Option (List Char)
  | [] => some []
  | c :: l => if c = ' ' then some (l.dropWhile (· = ' ')) else none

/-- One of some names of three letters: its place among them. -/
def readName (names : List String) (l : List Char) : Option (Nat × List Char) :=
  let word := (l.take 3).map Char.toLower
  (names.findIdx? fun name => name.toList.map Char.toLower = word).map fun i => (i, l.drop 3)

def dayNames : List String := ["Sun", "Mon", "Tue", "Wed", "Thu", "Fri", "Sat"]

def monthNames : List String :=
  ["Jan", "Feb", "Mar", "Apr", "May", "Jun", "Jul", "Aug", "Sep", "Oct", "Nov", "Dec"]

/-- A zone offset without a colon, in minutes east of UTC. -/
def readOffset : List Char → Option (Int × List Char)
  | sign :: l => do
      let (h, l) ← readFixed 2 l
      let (m, l) ← readFixed 2 l
      if 24 < h ∨ 60 < m then none
      else if sign = '+' then some (60 * (h : Int) + m, l)
      else if sign = '-' then some (-(60 * (h : Int) + m), l)
      else none
  | [] => none

/-- Layout `Mon Jan 02 2006 15:04:05 GMT-0700`. -/
def parseDateText (l : List Char) : Option Int := do
  let (_, l) ← readName dayNames l
  let (month, l) ← readName monthNames (← skipBlanks l)
  let (d, l) ← readFixed 2 (← skipBlanks l)
  let (y, l) ← readFixed 4 (← skipBlanks l)
  let (clock, l) ← readClock (← skipBlanks l)
  let l ← expect 'T' (← expect 'M' (← expect 'G' (← skipBlanks l)))
  let (zone, l) ← readOffset l
  let m := month + 1
  if l.isEmpty ∧ 1 ≤ d ∧ (d : Int) ≤ daysIn (isLeap y) m then
    some (ofCivil y m d * nanosPerDay + clock - zone * 60 * nanosPerSecond)
  else none

end Lib.Rfc3339

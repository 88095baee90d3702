/-
Raw records of an upstream: JSON objects whose values are not decoded yet.

A raw record is a map from names to JSON values, as `json.Unmarshal` leaves one.  An
attribute of a log record is rendered from a scalar value; a number is read as a
`float64` and written with the fewest digits.
-/
import GenaiBridge.Bridge.Model
import GenaiBridge.Lib.Binary64
import GenaiBridge.Lib.Json

namespace GenaiBridge

open Lib (Json)

/-- `map[string]json.RawMessage`. -/
abbrev RawRecord := Lib.SortedMap String Json

/-- The map of the members of an object: a later member replaces an earlier one of its name. -/
def rawMembers (ms : List (List Char × Json)) : RawRecord :=
  ms.foldl (fun raw m => raw.insert (String.ofList (Json.unquote m.1)) m.2) .empty

/-- `json.Unmarshal` of a value into a raw record. -/
def unmarshalRaw (v : Json) : Option RawRecord := v.members.map rawMembers

/-- `json.Unmarshal` of a value into a text that is not empty. -/
def unmarshalText (v : Json) : Option String :=
  (v.readText.map String.ofList).filter (· ≠ "")

/-- `scalarValue`: a scalar as a text. -/
def scalarValue : Json → Option String
  | .str literal => some (String.ofList (Json.unquote literal))
  | .num literal => (Lib.Binary64.ofDecimal literal).map fun x => String.ofList x.shortest
  | .bool b => some (if b then "true" else "false")
  | .null | .arr _ | .obj _ => none

/-- `sourceAttrKey`. -/
def sourceAttrKey : String := "source"

/-- `stampSource`. -/
def stampSource (sourceAttrValue : String) (lr : LogRecord) : LogRecord :=
  { lr with recordAttributes := lr.recordAttributes.insert sourceAttrKey sourceAttrValue }

end GenaiBridge

/-
Functions of `strings` that several packages use.
-/
import Mathlib.Data.List.Infix

namespace GenaiBridge

/-- `strings.Contains`. -/
def containsText (s sub : String) : Bool := sub.toList <:+: s.toList

/-- The loop of `strings.ReplaceAll`; the first argument is what is left of an occurrence. -/
def replaceChars (old new : List Char) : Nat → List Char → List Char
  | _, [] => []
  | 0, c :: l =>
    if old.isPrefixOf (c :: l) then new ++ replaceChars old new (old.length - 1) l
    else c :: replaceChars old new 0 l
  | skip + 1, _ :: l => replaceChars old new skip l

/-- `strings.ReplaceAll`, of a text that is not empty. -/
def replaceAll (s old new : String) : String :=
  String.ofList (replaceChars old.toList new.toList 0 s.toList)

/-- What `strings` asks of `unicode`: the lower case of a letter, and one letter for all that
`unicode.SimpleFold` takes for the same. -/
structure Casing where
  lower : Char → Char
  fold : Char → Char

namespace Casing

/-- `strings.ToLower`. -/
def toLower (c : Casing) (s : String) : String := String.ofList (s.toList.map c.lower)

/-- `strings.EqualFold`. -/
def equalFold (c : Casing) (s t : String) : Bool := s.toList.map c.fold = t.toList.map c.fold

end Casing

end GenaiBridge

import CachedViews.Text.Split
import CachedViews.Text.Wordlike

/-
# Integers in texts

An integer is written with digits, in which single underscores may stand between
two of them; a sign may stand in front, and blanks around it.

Key definitions: `isGrouped`, `integer?`.
-/

namespace CachedViews.Text

/-- Digits, in which single underscores may stand between two digits. -/
def isGrouped (s : List Char) : Bool :=
  (splitOn '_' s).all fun group => group ≠ [] && group.all isDigit

/-- The integer that a text writes, with blanks around it and a sign in front. -/
def integer? (s : List Char) : Option Int :=
  let bare := ((s.dropWhile isBlank).reverse.dropWhile isBlank).reverse
  let (negative, digits) := match bare with
    | '-' :: r => (true, r)
    | '+' :: r => (false, r)
    | r => (false, r)
  if isGrouped digits then
    let n : Int := (numeral 10 digits : Nat)
    some (if negative then -n else n)
  else none

end CachedViews.Text

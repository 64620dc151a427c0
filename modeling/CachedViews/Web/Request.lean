import CachedViews.Value
import CachedViews.Text.Hex
import CachedViews.Text.Split
import CachedViews.Text.Utf8

/-
# Requests

A request asks for a target with a method. The target names a path, which ends
where a query or a fragment begins, and in which any octet may be written as an
escape: a percent sign and two digits. `pathOf` reads the escapes; some
characters may be kept as they were written, so that a path with an escaped
slash is no path with a slash.

Key definitions: `Web.Request`, `Web.readEscapes`, `Web.pathOf`, `Request.path`,
`Request.routePath`, `Request.value`.
-/

namespace CachedViews.Web

open CachedViews.Text

/-- A character of a target, or an octet that an escape stands for. -/
inductive Piece where
  | plain (c : Char)
  | octet (b : UInt8)
  deriving Repr, BEq, DecidableEq

/-- Is the character a digit in base sixteen? -/
def isHexDigit (c : Char) : Bool :=
  ('0' ≤ c && c ≤ '9') || ('a' ≤ c && c ≤ 'f') || ('A' ≤ c && c ≤ 'F')

/-- The characters and escapes of a text. A percent sign without two digits is a
character. -/
def pieces : List Char → List Piece
  | '%' :: a :: b :: r =>
    if isHexDigit a && isHexDigit b then .octet (UInt8.ofNat (hexValue [a, b])) :: pieces r
    else .plain '%' :: pieces (a :: b :: r)
  | c :: r => .plain c :: pieces r
  | [] => []

/-- An octet as an escape, in capitals. -/
def escapeOctet (b : UInt8) : List Char :=
  '%' :: (hexFixed 2 b.toNat).map Char.toUpper

/-- The octets at the beginning of pieces. -/
def leadingOctets : List Piece → List UInt8
  | .octet b :: r => b :: leadingOctets r
  | _ => []

/-- The character that an octet begins together with those that follow, and the
number of those. -/
def characterAt? (b : UInt8) (r : List Piece) : Option (Char × Nat) :=
  let more := if b.toNat < 0x80 then 0 else ((leadOctet? b).map (·.1)).getD 0
  match decodeUtf8 (b :: (leadingOctets r).take more) with
  | .ok [c] => some (c, more)
  | _ => none

/-- The text of pieces without the first `skip`. Octets that make up no character
stay escapes, and so do the characters that are to be kept. -/
def textOf (kept : List Char) : Nat → List Piece → List Char
  | _, [] => []
  | skip + 1, _ :: r => textOf kept skip r
  | 0, .plain c :: r => c :: textOf kept 0 r
  | 0, .octet b :: r =>
    match characterAt? b r with
    | some (c, more) =>
      (if kept.contains c then escapeOctet b else [c]) ++ textOf kept more r
    | none => escapeOctet b ++ textOf kept 0 r

/-- The text with its escapes read, except for those of the characters to be kept. -/
def readEscapes (kept s : List Char) : List Char := textOf kept 0 (pieces s)

/-- What follows the name of a host, if two slashes announce one. -/
def withoutHost : List Char → List Char
  | '/' :: '/' :: r => r.dropWhile fun c => c ≠ '/' && c ≠ '?' && c ≠ '#'
  | s => s

/-- The path in a target, as it is written there. Line breaks and tabs do not count. -/
def writtenPath (target : List Char) : List Char :=
  let shown := target.filter fun c => c ≠ '\t' && c ≠ '\n' && c ≠ '\r'
  (withoutHost (shown.dropWhile (· ≤ ' '))).takeWhile fun c => c ≠ '?' && c ≠ '#'

/-- The path of a target. -/
def pathOf (kept : List Char) (target : String) : String :=
  String.ofList (readEscapes kept (writtenPath target.toList))

/-- A request. -/
structure Request where
  method : String := "GET"
  target : String := "/"
  deriving Repr, BEq, DecidableEq, Inhabited

namespace Request

/-- The path that is asked for. -/
def path (r : Request) : String := pathOf ['+'] r.target

/-- The path that decides who answers: an escaped slash or percent sign stays one. -/
def routePath (r : Request) : String := pathOf ['+', '/', '%'] r.target

/-- What templates see of a request. -/
def value (r : Request) : Value :=
  .record .request [("path", .str r.path), ("method", .str r.method)]

end Request

end CachedViews.Web

import DialogTable.Text.Blank
import DialogTable.Text.Numeral
import DialogTable.Text.Split

/-!
# Paths

A path is a list of segments. Reading one resolves the segments of dots: one dot stands for nothing,
two dots take back the segment before them. At the end of a path both leave an empty segment, so
that the path ends with a slash. Segments are kept encoded.
-/

namespace DialogTable.Http

/-- Characters that stand for themselves in a path. Others are encoded byte by byte. -/
def isPathChar (c : Char) : Bool :=
  0x20 < c.toNat && c.toNat < 0x7F && !(c ∈ ['"', '<', '>', '\x60', '\x7b', '\x7d'])

/-- Encodes a character. -/
def encodeChar (c : Char) : List Char :=
  if isPathChar c then [c]
  else c.toString.toUTF8.data.toList.flatMap fun byte =>
    '%' :: Text.hexDigits 2 byte.toNat Text.hexDigitUpper

/-- Encodes a segment. -/
def encodeSegment (segment : List Char) : List Char :=
  segment.flatMap encodeChar

/-- Slashes of either kind separate segments. -/
def isSlash (c : Char) : Bool :=
  c = '/' || c = '\\'

/-- Whether a segment is one dot. A dot may be encoded. -/
def isDot (segment : List Char) : Bool :=
  .ofList (Text.foldCase segment) ∈ [".", "%2e"]

/-- Whether a segment is two dots. -/
def isDoubleDot (segment : List Char) : Bool :=
  .ofList (Text.foldCase segment) ∈ ["..", "%2e.", ".%2e", "%2e%2e"]

/-- Whether a segment names a drive: a letter and a colon or a bar. -/
def isDrive : List Char → Bool
  | [letter, mark] => letter.isAlpha && (mark = ':' || mark = '|')
  | _ => false

/-- Takes back the last segment, which is the head of the list. A drive stays. -/
def takeBack : List (List Char) → List (List Char)
  | [] => []
  | segment :: before => if isDrive segment then segment :: before else before

/-- Adds a segment in front of those before it. -/
def addSegment (before : List (List Char)) (segment : List Char) : List (List Char) :=
  if isDot segment then before
  else if isDoubleDot segment then takeBack before
  else encodeSegment segment :: before

/-- Whether the last of some segments is made of dots. -/
def endsInDots (segments : List (List Char)) : Bool :=
  segments.getLast?.any fun segment => isDot segment || isDoubleDot segment

/-- The segments of a path without dots, encoded. -/
def resolve (segments : List (List Char)) : List (List Char) :=
  let added := segments.foldl addSegment []
  (if endsInDots segments then [] :: added else added).reverse

/-- Reads a path, with or without a slash in front. -/
def readPath (text : List Char) : List (List Char) :=
  resolve (Text.splitAt isSlash (match text with
    | [] => []
    | c :: rest => if isSlash c then rest else c :: rest))

/-- Writes a path. -/
def writePath (segments : List (List Char)) : String :=
  .ofList (segments.flatMap ('/' :: ·))

end DialogTable.Http

import Mathlib.Data.List.DropRight

/-!
# Words — the words of a text

`str::split_whitespace`, `str::trim`, `str::trim_end_matches` and `str::to_ascii_uppercase` on texts.  A
text is split at every character that is white space in Unicode, and pieces between two such characters
are dropped if they are empty.
-/

namespace PgCat.Lib

/-- `char::is_whitespace`. -/
def isWhitespace (c : Char) : Bool :=
  let n := c.toNat
  (9 ≤ n && n ≤ 13) || n == 32 || n == 133 || n == 160 || n == 5760 || (8192 ≤ n && n ≤ 8202) ||
    n == 8232 || n == 8233 || n == 8239 || n == 8287 || n == 12288

def splitWhitespace (text : String) : List String :=
  ((text.toList.splitOnP isWhitespace).filter fun piece => piece ≠ []).map String.ofList

def trim (text : String) : String :=
  String.ofList ((text.toList.dropWhile isWhitespace).rdropWhile isWhitespace)

def trimEndMatches (c : Char) (text : String) : String :=
  String.ofList (text.toList.rdropWhile (· == c))

/-- Letters outside of ASCII stay as they are. -/
def toAsciiUppercase (text : String) : String :=
  String.ofList (text.toList.map Char.toUpper)

end PgCat.Lib

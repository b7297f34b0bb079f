/-!
# Blank characters

The characters that count as blank space when values are trimmed or read as numbers: the ASCII
and Unicode spaces, the byte order mark and every line terminator.
-/

namespace AccountRegistry.Blank

/-- The characters that end a line. -/
def isLineEnd (c : Char) : Bool :=
  c == '\n' || c == '\r' || c == '\u2028' || c == '\u2029'

/-- Blank space: tabs, line ends, the space separators of Unicode and the byte order mark. -/
def isBlank (c : Char) : Bool :=
  isLineEnd c || c == '\t' || c == '\x0b' || c == '\x0c' || c == ' ' || c == '\u00a0' ||
    c == '\u1680' || ('\u2000' ≤ c && c ≤ '\u200a') || c == '\u202f' || c == '\u205f' ||
    c == '\u3000' || c == '\ufeff'

/-- Text without the blank space at its two ends. -/
def trim (text : List Char) : List Char :=
  ((text.dropWhile isBlank).reverse.dropWhile isBlank).reverse

end AccountRegistry.Blank

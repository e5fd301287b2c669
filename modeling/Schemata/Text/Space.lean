/-!
White space: the characters of every script that only keep words apart, line ends included.
-/
namespace Schemata.Text

def isSpace (c : Char) : Bool :=
  c = ' ' || c = '\t' || c = '\n' || c = '\r' || c = '\x0b' || c = '\x0c' || c = '\x85' ||
    c = '\xa0' || c = '\u1680' || ('\u2000' ≤ c && c ≤ '\u200a') || c = '\u2028' || c = '\u2029' ||
    c = '\u202f' || c = '\u205f' || c = '\u3000'

def skipSpace (cs : List Char) : List Char := cs.dropWhile isSpace

def trimEnd (cs : List Char) : List Char := (skipSpace cs.reverse).reverse

def trim (cs : List Char) : List Char := trimEnd (skipSpace cs)

end Schemata.Text

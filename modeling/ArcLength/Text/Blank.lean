/-!
# Blanks

Two notions of white space and the words between blanks. The wide one counts the information
separators too.
-/

namespace ArcLength.Text

/-- Characters with the property White_Space. -/
def isWhiteSpace (c : Char) : Bool :=
  let n := c.toNat
  (9 ≤ n && n ≤ 13) || n == 0x20 || n == 0x85 || n == 0xA0 || n == 0x1680 ||
    (0x2000 ≤ n && n ≤ 0x200A) || n == 0x2028 || n == 0x2029 || n == 0x202F || n == 0x205F ||
    n == 0x3000

/-- White space and the four information separators. -/
def isBlank (c : Char) : Bool := isWhiteSpace c || (0x1C ≤ c.toNat && c.toNat ≤ 0x1F)

/-- Number of words, which are the longest runs without a blank. The first argument says whether a
word is under way. -/
def countWords : Bool → List Char → Nat
  | _, [] => 0
  | inside, c :: rest =>
    if isBlank c then countWords false rest
    else if inside then countWords true rest
    else countWords true rest + 1

def wordCount (text : String) : Nat := countWords false text.toList

/-- A text without the characters of a class at its ends. -/
def trim (drop : Char → Bool) (text : List Char) : List Char :=
  ((text.dropWhile drop).reverse.dropWhile drop).reverse

end ArcLength.Text

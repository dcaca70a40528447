/-!
# Blanks and trimming

    `isBlankChar` is the property White_Space of characters; `trim`, `trimStart` and
    `trimEnd` cut such characters from the ends of a text. -/

namespace ModelOperator

/-- A character with the property White_Space. -/
def isBlankChar (c : Char) : Bool :=
  let n := c.toNat
  (9 ≤ n && n ≤ 13) || n == 0x20 || n == 0x85 || n == 0xa0 || n == 0x1680 ||
  (0x2000 ≤ n && n ≤ 0x200a) || n == 0x2028 || n == 0x2029 || n == 0x202f ||
  n == 0x205f || n == 0x3000

namespace Blank

/-- The characters without the blanks in front. -/
def trimStartChars (cs : List Char) : List Char := cs.dropWhile isBlankChar

/-- The characters without the blanks at the end. -/
def trimEndChars (cs : List Char) : List Char := (trimStartChars cs.reverse).reverse

/-- The characters without the blanks at both ends. -/
def trimChars (cs : List Char) : List Char := trimEndChars (trimStartChars cs)

end Blank

/-- A text without the blanks at both ends. -/
def trimText (s : String) : String := String.ofList (Blank.trimChars s.toList)

/-- A text without the blanks at its end. -/
def trimTextEnd (s : String) : String := String.ofList (Blank.trimEndChars s.toList)

end ModelOperator

/-!
# Blanks

White space is that of Unicode together with the four separators U+001C to U+001F. Texts are
trimmed of it at both ends; what is left begins and ends with a character that is not blank.
-/

namespace DocGraph.Text

/-- White space: all of Unicode's, and the four ASCII separators. -/
def isBlank (c : Char) : Bool :=
  let n := c.toNat
  (0x9 ≤ n && n ≤ 0xD) || (0x1C ≤ n && n ≤ 0x20) || n == 0x85 || n == 0xA0 || n == 0x1680 ||
    (0x2000 ≤ n && n ≤ 0x200A) || n == 0x2028 || n == 0x2029 || n == 0x202F || n == 0x205F ||
    n == 0x3000

/-! ### Trimming -/

/-- The characters before the trailing blanks. -/
def dropBlankEnd (s : List Char) : List Char := (s.reverse.dropWhile isBlank).reverse

/-- A list of characters without its leading and trailing blanks. -/
def trimChars (s : List Char) : List Char := dropBlankEnd (s.dropWhile isBlank)

/-- A text without its leading and trailing blanks. -/
def trim (s : String) : String := String.ofList (trimChars s.toList)

@[simp] theorem toList_trim (s : String) : (trim s).toList = trimChars s.toList := by
  simp [trim]

end DocGraph.Text

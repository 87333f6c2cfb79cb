/-!
# Halves

In UTF-16 a character beyond U+FFFF takes two units, and an escape can name one unit without the other.
Such a half is no character, yet a text can hold it. Texts are kept as strings of characters all the
same: a half as the private character that is as far behind the first one as the half is behind the
first half. The characters that make room for the halves are kept as two, a mark and another private
character, so that no two texts are kept alike.
-/

namespace DocGraph.Text

/-! ### Units -/

/-- The first unit that is only half of a character. -/
def firstHalf : Nat := 0xD800

/-- The character that stands for the half with the given unit. -/
def ofHalf (unit : Nat) : Char := Char.ofNat (unit + 0x800)

/-- The unit of a half. -/
def unit? (c : Char) : Option Nat :=
  if 0xE000 ≤ c.toNat ∧ c.toNat ≤ 0xE7FF then some (c.toNat - 0x800) else none

/-- Whether a character stands for a half. -/
def isHalf (c : Char) : Bool := (unit? c).isSome

/-! ### Code points -/

/-- What a text is made of: whole characters, and halves by their place among all halves. -/
inductive CodePoint
  | char (c : Char)
  | half (n : Fin 0x800)
  deriving DecidableEq, Repr, Inhabited

/-- What stands before a character that makes room for a half, or for the mark itself. -/
def mark : Char := '\uE800'

/-- Whether a character stands for something else than itself. -/
def isTaken (c : Char) : Bool := isHalf c || c == mark

namespace CodePoint

/-- The number of a code point. -/
def number : CodePoint → Nat
  | .char c => c.toNat
  | .half n => firstHalf + n

/-- The half with a unit. -/
def ofUnit (unit : Nat) : CodePoint := .half ⟨(unit - firstHalf) % 0x800, Nat.mod_lt _ (by decide)⟩

/-- The code point with a number. -/
def ofNumber (n : Nat) : CodePoint := if n.isValidChar then .char (Char.ofNat n) else ofUnit n

/-- The bytes that a code point takes in a path. A half stands for a byte that is no character. -/
def byteSize : CodePoint → Nat
  | .char c => c.utf8Size
  | .half _ => 1

/-- The characters that a code point is kept as. -/
def kept : CodePoint → List Char
  | .char c => if isTaken c then [mark, Char.ofNat (c.toNat + 0x801)] else [c]
  | .half n => [ofHalf (firstHalf + n)]

/-- The code point that one character is kept for. -/
def ofKept (c : Char) : CodePoint :=
  match unit? c with
  | some unit => ofUnit unit
  | none => .char c

end CodePoint

/-- The text that is made of some code points. -/
def keep (ps : List CodePoint) : String := String.ofList (ps.flatMap CodePoint.kept)

/-- The text that is made of the characters of a string. -/
def ofString (s : String) : String := keep (s.toList.map .char)

/-- The code points that some characters are kept for. -/
def pointsOf : List Char → List CodePoint
  | [] => []
  | [c] => [.ofKept c]
  | c :: d :: s =>
    if c = mark then .char (Char.ofNat (d.toNat - 0x801)) :: pointsOf s
    else .ofKept c :: pointsOf (d :: s)

/-- The code points of a text. -/
def points (s : String) : List CodePoint := pointsOf s.toList

/-- The bytes that a text takes in a path. -/
def byteSize (s : String) : Nat := (points s).foldl (fun n p => n + p.byteSize) 0

end DocGraph.Text

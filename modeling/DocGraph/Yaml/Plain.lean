import DocGraph.Yaml.Cursor

/-!
# Plain scalars

A plain scalar is a row of words. A word ends at a gap or at a colon before a gap, and inside brackets
also at the characters that structure them. Spaces between two words stay; a line break between them
is folded like in quoted scalars. Outside brackets a word of a later line belongs to the scalar only
if it is indented further than the surrounding block.
-/

namespace DocGraph.Yaml

/-- Characters that end a word inside brackets. -/
def isBracketStop (c : Char) : Bool :=
  c == ',' || c == '?' || c == '[' || c == ']' || c == '\x7b' || c == '\x7d'

/-- Whether a colon before `s` ends a word. -/
def endsKey (bracketed : Bool) (s : List Char) : Bool :=
  isGap s || (bracketed && match s with
    | [] => false
    | c :: _ => isBracketStop c && c != '?')

/-- The word that begins here, and what is left after it. -/
def plainWord (bracketed : Bool) : List Char → List Char × List Char
  | [] => ([], [])
  | c :: s =>
    if isSpaceOrTab c || isBreak c || (c == ':' && endsKey bracketed s) ||
        (bracketed && isBracketStop c) then ([], c :: s)
    else
      let (word, rest) := plainWord bracketed s
      (c :: word, rest)

/-- What stands between two words. -/
structure PlainGap where
  /-- What the gap stands for; nothing if the scalar ends here. -/
  text : List Char
  rest : List Char
  /-- The column of the next word, if it stands on a later line. -/
  column : Option Nat

/-- The line breaks after a first one: the breaks, what is left, the column reached, and whether a mark
between documents stands there. -/
def laterBreaks (column : Nat) : List Char → List Char × List Char × Nat × Bool
  | [] => ([], [], column, false)
  | c :: s =>
    if c = ' ' then laterBreaks (column + 1) s
    else if isBreak c then
      if startsMark s then ([], s, 0, true)
      else
        let (breaks, rest, column, marked) := laterBreaks 0 s
        (c :: breaks, rest, column, marked)
    else ([], c :: s, column, false)

/-- The gap that begins here. -/
def plainGap (s : List Char) : PlainGap :=
  let spaces := s.takeWhile (· = ' ')
  match s.dropWhile (· = ' ') with
  | [] => ⟨spaces, [], none⟩
  | b :: rest =>
    if isBreak b then
      if startsMark rest then ⟨[], rest, some 0⟩
      else
        let (breaks, rest, column, marked) := laterBreaks 0 rest
        let text :=
          if marked then []
          else if b ≠ '\n' then b :: breaks
          else if breaks.isEmpty then [' '] else breaks
        ⟨text, rest, some column⟩
    else ⟨spaces, b :: rest, none⟩

/-- A plain scalar as read: its text, what is left after it, and whether a line break stands before
what is left. -/
structure PlainText where
  text : List Char
  rest : List Char
  broken : Bool

/-- Words and gaps from here on. Each round takes at least one character. -/
def plainWords (bracketed : Bool) (indent : Nat) : Nat → List Char → PlainText
  | 0, s => ⟨[], s, false⟩
  | rounds + 1, s =>
    if s.head? = some '#' then ⟨[], s, false⟩
    else
      let (word, rest) := plainWord bracketed s
      if word.isEmpty then ⟨[], s, false⟩
      else
        let gap := plainGap rest
        let shallow := !bracketed && gap.column.any (· < indent)
        let alone : PlainText := ⟨word, gap.rest, gap.column.isSome⟩
        if gap.text.isEmpty || gap.rest.head? = some '#' || shallow then alone
        else
          let more := plainWords bracketed indent rounds gap.rest
          if more.text.isEmpty then alone
          else ⟨word ++ gap.text ++ more.text, more.rest, more.broken⟩

/-- The plain scalar that begins here. Words of later lines need the column `indent` at least. -/
def plainScalar (bracketed : Bool) (indent : Nat) (s : List Char) : PlainText :=
  plainWords bracketed indent s.length s

/-- Whether a plain scalar may begin here: with a character that structures nothing, or with a hyphen,
and outside brackets a question mark or colon, that no gap follows. -/
def startsPlain (bracketed : Bool) : List Char → Bool
  | [] => false
  | c :: s =>
    !(isGap [c] || isBracketStop c || ['-', ':', '#', '&', '*', '!', '|', '>', '\'', '"', '%', '@',
      '`'].contains c) ||
      (!isGap s && (c == '-' || (!bracketed && (c == '?' || c == ':'))))

end DocGraph.Yaml

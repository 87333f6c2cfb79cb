import DocGraph.Yaml.Block
import DocGraph.Yaml.Plain
import DocGraph.Yaml.Quoted
import DocGraph.Yaml.Word

/-!
# Tokens

The tokens of a YAML text. Indentation becomes tokens that open and close blocks. Whether something is
the key of a mapping shows only at the colon behind it, so every place at which a key may begin is
remembered as *pending*; the colon then puts the key's tokens there. A key that needs no question mark
has to end on its line and within 1024 characters.

A token is certain only if no pending key may still put something before it. Where a fault ends the
tokens, only the certain ones come before it.
-/

namespace DocGraph.Yaml

/-- The smallest meaningful part of a text. -/
inductive Token
  | directive (d : Directive)
  | documentStart
  | documentEnd
  | blockSequence
  | blockMapping
  | blockEnd
  | openSequence
  | closeSequence
  | openMapping
  | closeMapping
  /-- The hyphen before an item of a block sequence. -/
  | item
  /-- The comma between two parts in brackets. -/
  | comma
  | key
  | value
  | alias (name : String)
  | anchor (name : String)
  | tag (t : TagText)
  | scalar (plain : Bool) (text : String)
  deriving DecidableEq, Repr

/-- A place at which a key may have begun. -/
structure PendingKey where
  /-- How many tokens stand before it. -/
  index : Nat
  /-- Whether nothing but a key can stand there. -/
  required : Bool
  offset : Nat
  line : Nat
  column : Nat

/-- What has been read of a text so far. -/
structure Lexer where
  cursor : Cursor
  /-- How many brackets are open. -/
  depth : Nat
  /-- The columns of the open blocks, innermost first. -/
  indents : List Nat
  /-- Whether a key may begin here. -/
  keyAllowed : Bool
  /-- The pending keys by bracket depth. -/
  pending : List (Nat × PendingKey)
  tokens : Array Token

namespace Lexer

/-- At the beginning of a text. -/
def start (s : List Char) : Lexer := ⟨.start s, 0, [], true, [], #[]⟩

/-- Whether brackets are open. -/
def bracketed (l : Lexer) : Bool := l.depth != 0

/-- Add a token. -/
def push (l : Lexer) (t : Token) : Lexer := { l with tokens := l.tokens.push t }

/-- Move on to where `rest` is left. -/
def upTo (l : Lexer) (rest : List Char) : Lexer := { l with cursor := l.cursor.upTo rest }

/-- Move on by `n` characters. -/
def skip (l : Lexer) (n : Nat) : Lexer := { l with cursor := l.cursor.skip n }

/-! ### Blanks -/

/-- What is left after spaces, comments and line breaks, and whether there was a line break. -/
def pastBlanks (inComment : Bool) : List Char → List Char × Bool
  | [] => ([], false)
  | c :: s =>
    if isBreak c then ((pastBlanks false s).1, true)
    else if inComment then pastBlanks true s
    else if c = ' ' then pastBlanks false s
    else if c = '#' then pastBlanks true s
    else (c :: s, false)

/-- Move on to the next token. After a line break outside brackets a key may begin. -/
def toToken (l : Lexer) : Lexer :=
  let l := if l.cursor.offset = 0 ∧ l.cursor.rest.head? = some '\uFEFF' then l.skip 1 else l
  let (rest, broken) := pastBlanks false l.cursor.rest
  let l := l.upTo rest
  if broken && !l.bracketed then { l with keyAllowed := true } else l

/-! ### Pending keys -/

/-- Whether a pending key can no longer become one. -/
def isStale (l : Lexer) (k : PendingKey) : Bool :=
  k.line != l.cursor.line || l.cursor.offset - k.offset > 1024

/-- Forget the pending keys that can no longer become one. -/
def dropStale (l : Lexer) : Except Fault Lexer :=
  if l.pending.any fun p => l.isStale p.2 && p.2.required then .error .malformed
  else .ok { l with pending := l.pending.filter fun p => !l.isStale p.2 }

/-- Forget the pending key at the present depth. -/
def dropPending (l : Lexer) : Except Fault Lexer :=
  match l.pending.lookup l.depth with
  | none => .ok l
  | some k =>
    if k.required then .error .malformed
    else .ok { l with pending := l.pending.filter (·.1 != l.depth) }

/-- Remember that a key may begin here. -/
def notePending (l : Lexer) : Except Fault Lexer :=
  if l.keyAllowed then do
    let l ← l.dropPending
    let c := l.cursor
    let required := !l.bracketed && l.indents.head? == some c.column
    return { l with
      pending := (l.depth, ⟨l.tokens.size, required, c.offset, c.line, c.column⟩) :: l.pending }
  else .ok l

/-! ### Blocks -/

/-- Close the blocks that are indented further than the given column; all of them if there is none. -/
def closeBlocks (l : Lexer) (column : Option Nat) : Lexer :=
  if l.bracketed then l
  else
    let deeper (i : Nat) : Bool := column.all (· < i)
    let closed := l.indents.takeWhile deeper
    { l with
      indents := l.indents.dropWhile deeper
      tokens := l.tokens ++ (closed.map fun _ => Token.blockEnd).toArray }

/-- Whether a block at the given column would be inside the open ones. -/
def opensBlock (l : Lexer) (column : Nat) : Bool := l.indents.head?.all (· < column)

/-- Open a block at the given column, if none is open there, with its token at the given place. -/
def openBlock (l : Lexer) (column index : Nat) (t : Token) : Lexer :=
  if l.opensBlock column then
    { l with
      indents := column :: l.indents
      tokens := l.tokens.insertIdxIfInBounds index t }
  else l

/-! ### Steps -/

/-- A mark between documents. -/
def documentMark (l : Lexer) (t : Token) : Except Fault Lexer := do
  let l ← (l.closeBlocks none).dropPending
  return ({ l with keyAllowed := false }.skip 3).push t

/-- An opening bracket. -/
def openBracket (l : Lexer) (t : Token) : Except Fault Lexer := do
  let l ← l.notePending
  return ({ l with depth := l.depth + 1, keyAllowed := true }.skip 1).push t

/-- A closing bracket. -/
def closeBracket (l : Lexer) (t : Token) : Except Fault Lexer := do
  let l ← l.dropPending
  return ({ l with depth := l.depth - 1, keyAllowed := false }.skip 1).push t

/-- A hyphen before an item. -/
def itemMark (l : Lexer) : Except Fault Lexer := do
  if !l.bracketed && !l.keyAllowed then .error .malformed
  let l := if l.bracketed then l else l.openBlock l.cursor.column l.tokens.size .blockSequence
  let l ← { l with keyAllowed := true }.dropPending
  return (l.skip 1).push .item

/-- A question mark before a key. -/
def keyMark (l : Lexer) : Except Fault Lexer := do
  if !l.bracketed && !l.keyAllowed then .error .malformed
  let l := if l.bracketed then l else l.openBlock l.cursor.column l.tokens.size .blockMapping
  let l ← { l with keyAllowed := !l.bracketed }.dropPending
  return (l.skip 1).push .key

/-- A colon before a value. If a key is pending, its tokens go where it began. -/
def valueMark (l : Lexer) : Except Fault Lexer := do
  match l.pending.lookup l.depth with
  | some k =>
    let l := { l with
      pending := l.pending.filter (·.1 != l.depth)
      tokens := l.tokens.insertIdxIfInBounds k.index .key
      keyAllowed := false }
    let l := if l.bracketed then l else l.openBlock k.column k.index .blockMapping
    return (l.skip 1).push .value
  | none =>
    if !l.bracketed && !l.keyAllowed then .error .malformed
    let l := if l.bracketed then l else l.openBlock l.cursor.column l.tokens.size .blockMapping
    let l ← { l with keyAllowed := !l.bracketed }.dropPending
    return (l.skip 1).push .value

/-- A token that may be a key or its beginning, with what is left after it. -/
def mayBeKey (l : Lexer) (read : Except Fault (Token × List Char)) : Except Fault Lexer := do
  let l ← l.notePending
  let (t, rest) ← read
  return ({ l with keyAllowed := false }.upTo rest).push t

/-- A block scalar. -/
def blockText (l : Lexer) (folded : Bool) (s : List Char) : Except Fault Lexer := do
  let l ← { l with keyAllowed := true }.dropPending
  let (text, rest) ← blockScalar folded (max 1 ((l.indents.head?.map (· + 1)).getD 0)) s
  return (l.upTo rest).push (.scalar false (String.ofList text))

/-- A plain scalar. After a line break behind it a key may begin. -/
def plainText (l : Lexer) (s : List Char) : Except Fault Lexer := do
  let l ← l.notePending
  let p := plainScalar l.bracketed ((l.indents.head?.map (· + 1)).getD 0) s
  return ({ l with keyAllowed := p.broken }.upTo p.rest).push (.scalar true (String.ofList p.text))

/-- Read the next token, which begins with `c` before `s`. -/
def readToken (l : Lexer) (c : Char) (s : List Char) : Except Fault Lexer :=
  let lineStart := l.cursor.column = 0
  let ends := l.bracketed || isGap s
  if lineStart ∧ c = '%' then do
    let l ← (l.closeBlocks none).dropPending
    let (d, rest) ← directive s
    return ({ l with keyAllowed := false }.upTo rest).push (.directive d)
  else if lineStart ∧ startsMark (c :: s) then
    l.documentMark (if c = '-' then .documentStart else .documentEnd)
  else if c = '[' then l.openBracket .openSequence
  else if c = '\x7b' then l.openBracket .openMapping
  else if c = ']' then l.closeBracket .closeSequence
  else if c = '\x7d' then l.closeBracket .closeMapping
  else if c = ',' then do
    let l ← { l with keyAllowed := true }.dropPending
    return (l.skip 1).push .comma
  else if c = '-' ∧ isGap s then l.itemMark
  else if c = '?' ∧ ends then l.keyMark
  else if c = ':' ∧ ends then l.valueMark
  else if c = '*' then l.mayBeKey ((anchorName s).map fun p => (.alias p.1, p.2))
  else if c = '&' then l.mayBeKey ((anchorName s).map fun p => (.anchor p.1, p.2))
  else if c = '!' then l.mayBeKey ((tagText s).map fun p => (.tag p.1, p.2))
  else if (c = '|' ∨ c = '>') ∧ !l.bracketed then l.blockText (c = '>') s
  else if c = '\'' ∨ c = '"' then
    l.mayBeKey ((quotedScalar (c = '"') s).map fun p => (.scalar false (String.ofList p.1), p.2))
  else if startsPlain l.bracketed (c :: s) then l.plainText (c :: s)
  else .error .malformed

/-- Read the next token; nothing if the text is at its end. -/
def step (l : Lexer) : Except Fault (Option Lexer) := do
  let l ← l.toToken.dropStale
  let l := l.closeBlocks (some l.cursor.column)
  match l.cursor.rest with
  | [] => return none
  | c :: s => return some (← l.readToken c s)

/-- The tokens that no pending key can still put something before. -/
def certain (l : Lexer) : Array Token :=
  let standing := l.pending.filter fun p => !l.isStale p.2
  l.tokens.take (standing.foldl (fun n p => min n p.2.index) l.tokens.size)

/-- The tokens at the end of a text. -/
def finish (l : Lexer) : Array Token × Option Fault :=
  match (l.toToken.closeBlocks none).dropPending with
  | .ok l => (l.tokens, none)
  | .error e => (l.certain, some e)

/-- Read on to the end, or to the first fault. Each step takes at least one character. -/
def run : Nat → Lexer → Array Token × Option Fault
  | 0, l => l.finish
  | n + 1, l =>
    match l.step with
    | .ok (some l') => run n l'
    | .ok none => l.finish
    | .error e => (l.certain, some e)

end Lexer

/-- The tokens of a text up to its end or its first fault. -/
def Token.ofText (s : String) : List Token × Option Fault :=
  let cs := s.toList
  if cs.all isAllowed then
    let cs := unifyBreaks cs
    let (tokens, fault) := (Lexer.start cs).run (cs.length + 1)
    (tokens.toList, fault)
  else ([], some .malformed)

end DocGraph.Yaml

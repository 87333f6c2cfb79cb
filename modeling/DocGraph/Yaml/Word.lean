import DocGraph.Fault
import DocGraph.Yaml.Cursor

/-!
# Names, tags and directives

Anchors and aliases are names. A tag is a handle, which stands for the beginning of a longer name,
and a suffix. Directives stand before a document and give meanings to handles.
-/

namespace DocGraph.Yaml

/-! ### Anchors -/

/-- The name of an anchor or alias, and what is left after it. -/
def anchorName (s : List Char) : Except Fault (String × List Char) :=
  let name := s.takeWhile isNameChar
  let rest := s.dropWhile isNameChar
  let ended := isGap rest || match rest with
    | [] => true
    | c :: _ => ['?', ':', ',', ']', '\x7d', '%', '@', '`'].contains c
  if name.isEmpty || !ended then .error .malformed else .ok (String.ofList name, rest)

/-! ### Tags -/

/-- A tag as written. Without a handle the suffix is the whole name. -/
structure TagText where
  handle : Option String
  suffix : String
  deriving DecidableEq, Repr

/-- Characters of the long names of tags. -/
def isUriChar (c : Char) : Bool :=
  isNameChar c || [';', '/', '?', ':', '@', '&', '=', '+', '$', ',', '.', '!', '~', '*', '\'', '(',
    ')', '[', ']', '%'].contains c

/-- The bytes written as percent signs with two digits each, and what is left after them. -/
def uriBytes : List Char → Except Fault (List UInt8 × List Char)
  | '%' :: a :: b :: s =>
    if isHexDigit a && isHexDigit b then do
      let (bytes, rest) ← uriBytes s
      return ((hexValue [a, b]).toUInt8 :: bytes, rest)
    else .error .malformed
  | '%' :: _ => .error .malformed
  | s => .ok ([], s)

/-- A part of the name of a tag, and what is left after it. Each round takes at least one character. -/
def uriChars : Nat → List Char → Except Fault (List Char × List Char)
  | 0, s => .ok ([], s)
  | _, [] => .ok ([], [])
  | rounds + 1, c :: s =>
    if c = '%' then do
      let (bytes, rest) ← uriBytes (c :: s)
      match String.fromUTF8? (ByteArray.mk bytes.toArray) with
      | none => .error .malformed
      | some part =>
        let (more, rest) ← uriChars rounds rest
        return ((Text.ofString part).toList ++ more, rest)
    else if isUriChar c then do
      let (more, rest) ← uriChars rounds s
      return (c :: more, rest)
    else .ok ([], c :: s)

/-- The name of a tag, which may not be empty, and what is left after it. -/
def uri (s : List Char) : Except Fault (String × List Char) := do
  let (name, rest) ← uriChars s.length s
  if rest.length = s.length then .error .malformed else return (String.ofList name, rest)

/-- A handle: an exclamation mark, alone before a space or else closed by a second one. -/
def tagHandle : List Char → Except Fault (String × List Char)
  | '!' :: s =>
    if s.head? = some ' ' then .ok ("!", s)
    else
      match s.dropWhile isNameChar with
      | '!' :: rest => .ok (String.ofList ('!' :: s.takeWhile isNameChar ++ ['!']), rest)
      | _ => .error .malformed
  | _ => .error .malformed

/-- The tag after its exclamation mark, and what is left after it. -/
def tagText (s : List Char) : Except Fault (TagText × List Char) := do
  let (tag, rest) ←
    match s with
    | '<' :: s =>
      match ← uri s with
      | (suffix, '>' :: rest) => pure (TagText.mk none suffix, rest)
      | _ => .error .malformed
    | s =>
      if isGap s then pure (TagText.mk none "!", s)
      else if (s.takeWhile fun c => !(c == ' ' || isBreak c)).contains '!' then do
        let (handle, s) ← tagHandle ('!' :: s)
        let (suffix, rest) ← uri s
        pure (TagText.mk (some handle) suffix, rest)
      else do
        let (suffix, rest) ← uri s
        pure (TagText.mk (some "!") suffix, rest)
  if endsWord rest then return (tag, rest) else .error .malformed

/-! ### Directives -/

/-- A directive before a document. -/
inductive Directive
  | version (major : Nat)
  | tag (handle meaning : String)
  | other
  deriving DecidableEq, Repr

/-- A run of ASCII digits, which may not be empty, and what is left after it. -/
def versionNumber (s : List Char) : Except Fault (Nat × List Char) :=
  let ds := s.takeWhile fun c => '0' ≤ c ∧ c ≤ '9'
  if ds.isEmpty then .error .malformed
  else .ok (ds.foldl (fun n c => 10 * n + (c.toNat - '0'.toNat)) 0, s.drop ds.length)

/-- Major and minor version with a point between them. -/
def versionDirective (s : List Char) : Except Fault (Directive × List Char) := do
  let (major, s) ← versionNumber (s.dropWhile (· = ' '))
  match s with
  | '.' :: s =>
    let (_, rest) ← versionNumber s
    if endsWord rest then return (.version major, rest) else .error .malformed
  | _ => .error .malformed

/-- A handle and the name that it stands for. -/
def tagDirective (s : List Char) : Except Fault (Directive × List Char) := do
  let (handle, s) ← tagHandle (s.dropWhile (· = ' '))
  if s.head? ≠ some ' ' then .error .malformed
  let (meaning, rest) ← uri (s.dropWhile (· = ' '))
  if endsWord rest then return (.tag handle meaning, rest) else .error .malformed

/-- The directive after its percent sign, and what is left after its line. Directives with other names
have no meaning. -/
def directive (s : List Char) : Except Fault (Directive × List Char) := do
  let name := s.takeWhile isNameChar
  let rest := s.dropWhile isNameChar
  if name.isEmpty || !endsWord rest then .error .malformed
  let (found, rest) ←
    if name = "YAML".toList then versionDirective rest
    else if name = "TAG".toList then tagDirective rest
    else pure (.other, rest.dropWhile (!isBreak ·))
  let rest := rest.dropWhile (· = ' ')
  let rest := if rest.head? = some '#' then rest.dropWhile (!isBreak ·) else rest
  if endsLine rest then return (found, rest.tail) else .error .malformed

end DocGraph.Yaml

import DocGraph.Text.Digit

/-!
# Grammars of command lines

The words of a command line are options, values of options, and operands. A grammar tells which
options there are and what each does. An option may be cut short as long as only one option begins
that way, and its value may be attached with an equals sign; a bare `--` attached to it is no value.
After a separating `--` all words are operands. Operands are taken where they first stand in a row; any
that stand elsewhere are too many.
-/

namespace DocGraph.CommandLine

/-- What an option does. -/
inductive Action (α : Type)
  /-- Ask for help, which ends the reading. -/
  | help
  | mark (f : α → α)
  /-- Take a value, which may be missing or unusable. -/
  | take (f : Option String → α → Option α)

/-- An option and what it does. -/
structure OptionRule (α : Type) where
  name : String
  action : Action α

/-- The options of a command line, and what is done with its operands, if it has any. -/
structure Grammar (α : Type) where
  options : List (OptionRule α)
  operands : Option (List String → α → α)

/-- A word of a command line. -/
inductive Word (α : Type)
  | operand (text : String)
  | separator
  /-- An option, with the value attached to it. -/
  | option (action : Action α) (attached : Option String)
  /-- The short option for help with further letters behind it. -/
  | cluster (letters : List Char)
  /-- An option with a value that it does not take. -/
  | unusable
  | unknown

/-- How the reading of a command line ends. -/
inductive Reading (α : Type)
  | help
  | invalid
  | arguments (a : α)

variable {α : Type}

/-! ### Words -/

/-- Whether characters are a negative number: a minus sign, and digits with at most one point before
the last of them. A line feed may follow. -/
def isNegativeNumber (s : List Char) : Bool :=
  let isDigit (c : Char) : Bool := (Text.digitValue? c).isSome
  match s with
  | '-' :: s =>
    let s := if s.getLast? = some '\n' then s.dropLast else s
    let rest := s.dropWhile isDigit
    let fraction := rest.drop 1
    if rest.isEmpty then !s.isEmpty
    else rest.head? = some '.' && !fraction.isEmpty && fraction.all isDigit
  | _ => false

/-- A word that looks like an option but is none. -/
def notAnOption (s : String) : Word α :=
  if isNegativeNumber s.toList || s.toList.contains ' ' then .operand s else .unknown

/-- The text before the first equals sign, and the one after it if there is one. -/
def splitAttached (s : String) : String × Option String :=
  let name := s.toList.takeWhile (· ≠ '=')
  (String.ofList name,
    if s.toList.contains '=' then some (String.ofList (s.toList.drop (name.length + 1))) else none)

namespace Grammar

/-- The option of the given name. -/
def option? (g : Grammar α) (name : String) : Option (OptionRule α) :=
  g.options.find? (·.name = name)

/-- The options that begin with the given text. -/
def beginning (g : Grammar α) (text : String) : List (OptionRule α) :=
  g.options.filter fun o => text.toList.isPrefixOf o.name.toList

/-- The word that a text with two dashes in front is, unless it is an option in full; none if it stands
for several options. -/
def shortened? (g : Grammar α) (s : String) : Option (Word α) :=
  let (name, attached) := splitAttached s
  match g.beginning name with
  | [] => some (notAnOption s)
  | [o] => some (.option o.action attached)
  | _ => none

/-- The word that a text is; none if it stands for several options. -/
def word? (g : Grammar α) (s : String) : Option (Word α) :=
  match s.toList with
  | '-' :: c :: letters =>
    let (name, attached) := splitAttached s
    match g.option? s, g.option? name with
    | some o, _ => some (.option o.action none)
    | none, some o =>
      match o.action, attached with
      | .help, some letters => some (if c = '-' then .unusable else .cluster letters.toList)
      | action, attached => some (.option action attached)
    | none, none =>
      if c = '-' then g.shortened? s
      else if (g.option? (String.ofList ['-', c])).isSome then some (.cluster letters)
      else some (notAnOption s)
  | _ => some (.operand s)

/-- The words of a command line. -/
def words? (g : Grammar α) : List String → Option (List (Word α))
  | [] => some []
  | s :: rest =>
    if s = "--" then some (.separator :: rest.map .operand)
    else do return (← g.word? s) :: (← g.words? rest)

end Grammar

/-! ### Reading -/

/-- Whether letters behind the short option for help are nothing but more of its kind. -/
def helpStands (letters : List Char) : Bool := !letters.isEmpty && letters.all (· = 'h')

/-- The value that is attached to an option, unless it is the separator. -/
def attachedValue (s : String) : Option String := if s = "--" then none else some s

/-- The text of an operand. -/
def Word.operand? : Word α → Option String
  | .operand s => some s
  | _ => none

/-- Whether a word is an operand or the separator before operands. -/
def Word.inRow : Word α → Bool
  | .operand _ | .separator => true
  | _ => false

/-- What has been read so far. -/
structure Progress (α : Type) where
  arguments : α
  /-- The operands have been taken. -/
  taken : Bool := false
  /-- Some words are of no use. -/
  leftOver : Bool := false

namespace Grammar

/-- Take the operands of a row. -/
def takeRow (g : Grammar α) (row : List (Word α)) (p : Progress α) : Progress α :=
  let texts := row.filterMap Word.operand?
  match g.operands, p.taken || texts.isEmpty with
  | some f, false => { p with arguments := f texts p.arguments, taken := true }
  | _, _ => { p with leftOver := true }

/-- The end of the reading. -/
def finish (g : Grammar α) (p : Progress α) : Reading α :=
  if p.leftOver || (g.operands.isSome && !p.taken) then .invalid else .arguments p.arguments

/-- Read words one after the other. -/
def readWords (g : Grammar α) (p : Progress α) : List (Word α) → Reading α
  | [] => g.finish p
  | .operand s :: ws =>
    readWords g (g.takeRow (.operand s :: ws.takeWhile Word.inRow) p) (ws.dropWhile Word.inRow)
  | .separator :: ws =>
    readWords g (g.takeRow (.separator :: ws.takeWhile Word.inRow) p) (ws.dropWhile Word.inRow)
  | .unknown :: ws => readWords g { p with leftOver := true } ws
  | .cluster letters :: _ => if helpStands letters then .help else .invalid
  | .option .help none :: _ => .help
  | .option (.mark f) none :: ws => readWords g { p with arguments := f p.arguments } ws
  | .option (.take f) (some s) :: ws =>
    match f (attachedValue s) p.arguments with
    | some a => readWords g { p with arguments := a } ws
    | none => .invalid
  | .option (.take f) none :: .operand s :: ws =>
    match f (some s) p.arguments with
    | some a => readWords g { p with arguments := a } ws
    | none => .invalid
  | .unusable :: _ | .option _ _ :: _ => .invalid
termination_by ws => ws.length
decreasing_by
  all_goals
    have := (List.dropWhile_sublist Word.inRow (l := ws)).length_le
    simp only [List.length_cons]
    omega

/-- Read a command line. -/
def read (g : Grammar α) (initial : α) (line : List String) : Reading α :=
  match g.words? line with
  | none => .invalid
  | some ws => g.readWords { arguments := initial } ws

end Grammar

end DocGraph.CommandLine

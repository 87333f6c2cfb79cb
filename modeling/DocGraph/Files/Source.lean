import DocGraph.Fragment.Document

/-!
# Sources of documents

The contents of a file: its bytes, its text, or the value that its document has.
-/

namespace DocGraph

/-- What a document is read from. -/
inductive Source
  | value (v : Value)
  | text (s : String)
  | bytes (bs : ByteArray)

namespace Source

/-- The text of a file of bytes, with its line endings as line feeds. -/
def decode (bs : ByteArray) : Except Fault String :=
  match String.fromUTF8? bs with
  | some s => .ok (Text.ofString (String.ofList (Text.unifyNewlines s.toList)))
  | none => .error .undecodable

/-- The value of the document. -/
def document : Source → Except Fault Value
  | .value v => .ok v
  | .text s => Yaml.Document.read s
  | .bytes bs => do Yaml.Document.read (← decode bs)

/-- The fragments of the document, which may begin with a type line. -/
def fragments (file : String) : Source → Except Fault (List Fragment)
  | .value v => Fragment.ofDocument v file
  | .text s => Fragment.ofText s file
  | .bytes bs => do Fragment.ofText (← decode bs) file

end Source

end DocGraph

import Warband.Toml.Scalar

/-!
# Reading documents

A reader takes a value off the front of a text and returns it with what is left,
or refuses the text. Values nest to a limited depth, which also bounds the
recursion; a list of parts is read with the length of the text as the bound on
its number of parts.
-/
namespace Warband.Toml

abbrev Text := List Char

/-- Reads something off the front of a text. -/
abbrev Reader (α : Type) := Text → Option (α × Text)

namespace Text

def isBlank (c : Char) : Bool := c == ' ' || c == '\t'

def skipBlanks (s : Text) : Text := s.dropWhile isBlank

/-- A character that may stand in comments and, unless it is a mark there, in
strings. -/
def printable (c : Char) : Bool :=
  c == '\t' || (' ' ≤ c && c ≤ '~') || 0x80 ≤ c.toNat

def newline? : Text → Option Text
  | '\n' :: rest => some rest
  | '\r' :: '\n' :: rest => some rest
  | _ => none

/-- What is left behind a comment, if there is one. -/
def skipComment : Text → Text
  | '#' :: rest => rest.dropWhile printable
  | s => s

/-- The end of a line: blanks, a comment, and then a new line or the end of the
text. -/
def endLine? (s : Text) : Option Text :=
  match skipComment (skipBlanks s) with
  | [] => some []
  | rest => newline? rest

/-- Skips blanks, comments and new lines. A comment must end in a new line. -/
def skipLines (s : Text) : Option Text :=
  go false s
where
  go : Bool → Text → Option Text
    | inComment, [] => if inComment then none else some []
    | _, '\n' :: rest => go false rest
    | _, '\r' :: '\n' :: rest => go false rest
    | true, c :: rest => if printable c then go true rest else none
    | false, c :: rest =>
      if isBlank c then go false rest
      else if c = '#' then go true rest
      else if c = '\r' then none
      else some (c :: rest)

end Text

/-! ## Strings -/

namespace Quoted

/-- The character of a hexadecimal code point. -/
def scalar? (cs : List Char) : Option Char := do
  let n ← cs.foldlM (fun n c => (Scalar.digit? 16 c).map (n * 16 + ·)) 0
  if n.isValidChar then some (Char.ofNat n) else none

/-- The character that a short escape stands for. -/
def escape? : Char → Option Char
  | 'b' => some '\x08'
  | 't' => some '\t'
  | 'n' => some '\n'
  | 'f' => some '\x0c'
  | 'r' => some '\r'
  | '"' => some '"'
  | '\\' => some '\\'
  | _ => none

/-- Puts a character in front of what is read next. -/
def cons (c : Option Char) (next : Option (List Char × Text)) : Option (List Char × Text) := do
  let c ← c
  let (text, rest) ← next
  return (c :: text, rest)

/-- The body of a string on one line, up to its closing quotation mark. -/
def basic : Reader (List Char)
  | [] => none
  | '"' :: rest => some ([], rest)
  | '\\' :: 'u' :: a :: b :: c :: d :: rest => cons (scalar? [a, b, c, d]) (basic rest)
  | '\\' :: 'U' :: a :: b :: c :: d :: e :: f :: g :: h :: rest =>
    cons (scalar? [a, b, c, d, e, f, g, h]) (basic rest)
  | '\\' :: c :: rest => cons (escape? c) (basic rest)
  | c :: rest => if Text.printable c then cons (some c) (basic rest) else none

/-- Where the reader of a string over several lines stands. -/
inductive Mode where
  | text
  /-- Behind a backslash and blanks, before the end of the line. -/
  | breaking
  /-- On the lines that a backslash at the end of a line skips. -/
  | skipping
deriving DecidableEq, Repr

/-- The body of a string over several lines. Up to two quotation marks may stand
right before the closing ones. -/
def multiline : Mode → Reader (List Char)
  | _, [] => none
  | .breaking, '\r' :: '\n' :: rest => multiline .skipping rest
  | .breaking, c :: rest =>
    if Text.isBlank c then multiline .breaking rest
    else if c = '\n' then multiline .skipping rest else none
  | .skipping, ' ' :: rest => multiline .skipping rest
  | .skipping, '\t' :: rest => multiline .skipping rest
  | .skipping, '\n' :: rest => multiline .skipping rest
  | .skipping, '\r' :: '\n' :: rest => multiline .skipping rest
  | _, '"' :: '"' :: '"' :: '"' :: '"' :: rest => some (['"', '"'], rest)
  | _, '"' :: '"' :: '"' :: '"' :: rest => some (['"'], rest)
  | _, '"' :: '"' :: '"' :: rest => some ([], rest)
  | _, '\\' :: 'u' :: a :: b :: c :: d :: rest => cons (scalar? [a, b, c, d]) (multiline .text rest)
  | _, '\\' :: 'U' :: a :: b :: c :: d :: e :: f :: g :: h :: rest =>
    cons (scalar? [a, b, c, d, e, f, g, h]) (multiline .text rest)
  | _, '\\' :: '\n' :: rest => multiline .skipping rest
  | _, '\\' :: '\r' :: '\n' :: rest => multiline .skipping rest
  | _, '\\' :: c :: rest =>
    if Text.isBlank c then multiline .breaking rest else cons (escape? c) (multiline .text rest)
  | _, '\r' :: '\n' :: rest => cons (some '\n') (multiline .text rest)
  | _, c :: rest =>
    if c = '\n' || Text.printable c then cons (some c) (multiline .text rest) else none

/-- The body of a string without escapes, on one line. -/
def literal : Reader (List Char)
  | [] => none
  | c :: rest =>
    if c = '\x27' then some ([], rest)
    else if Text.printable c then cons (some c) (literal rest) else none

/-- The body of a string without escapes, over several lines. -/
def literalLines : Reader (List Char)
  | [] => none
  | '\x27' :: '\x27' :: '\x27' :: '\x27' :: '\x27' :: rest => some (['\x27', '\x27'], rest)
  | '\x27' :: '\x27' :: '\x27' :: '\x27' :: rest => some (['\x27'], rest)
  | '\x27' :: '\x27' :: '\x27' :: rest => some ([], rest)
  | '\r' :: '\n' :: rest => cons (some '\n') (literalLines rest)
  | c :: rest =>
    if c = '\n' || Text.printable c then cons (some c) (literalLines rest) else none

/-- A new line right behind the opening quotation marks does not count. -/
def openLines (s : Text) : Text := (Text.newline? s).getD s

/-- A string of any of the four kinds. -/
def read? : Reader String := fun s =>
  let body := match s with
    | '"' :: '"' :: '"' :: rest => multiline .text (openLines rest)
    | '"' :: rest => basic rest
    | '\x27' :: '\x27' :: '\x27' :: rest => literalLines (openLines rest)
    | '\x27' :: rest => literal rest
    | _ => none
  body.map fun (text, rest) => (String.ofList text, rest)

end Quoted

/-! ## Keys -/

namespace Key

def bareChar (c : Char) : Bool := c.isAlphanum || c == '-' || c == '_'

/-- One name of a key, bare or a string on one line. -/
def name? : Reader String
  | '"' :: rest => (Quoted.basic rest).map fun (text, rest) => (String.ofList text, rest)
  | '\x27' :: rest => (Quoted.literal rest).map fun (text, rest) => (String.ofList text, rest)
  | s =>
    let bare := s.takeWhile bareChar
    if bare.isEmpty then none else some (String.ofList bare, s.drop bare.length)

/-- The names of a dotted key, blanks around each of them. -/
def names? : Nat → Reader (List String)
  | 0, _ => none
  | fuel + 1, s => do
    let (name, rest) ← name? (Text.skipBlanks s)
    match Text.skipBlanks rest with
    | '.' :: rest => do
      let (names, rest) ← names? fuel rest
      return (name :: names, rest)
    | rest => return ([name], rest)

/-- Keys have fewer names, and values less depth, than this. -/
def depthLimit : Nat := 80

def read? : Reader Key := fun s => do
  let (names, rest) ← names? (depthLimit - 1) s
  return (← ofNames? names, rest)

end Key

/-! ## Values -/

namespace Node

/-- The items of an array behind its opening bracket, up to and with the closing
one. A comma may stand behind the last item. -/
def items? (item : Reader Node) : Nat → Reader (List Node)
  | 0, _ => none
  | fuel + 1, s => do
    match ← Text.skipLines s with
    | ']' :: rest => return ([], rest)
    | s =>
      let (node, rest) ← item s
      match ← Text.skipLines rest with
      | ',' :: rest =>
        let (nodes, rest) ← items? item fuel rest
        return (node :: nodes, rest)
      | ']' :: rest => return ([node], rest)
      | _ => none

/-- A key and its value. -/
def assignment? (value : Reader Node) : Reader (Key × Node) := fun s => do
  match ← Key.read? s with
  | (key, '=' :: rest) =>
    let (node, rest) ← value (Text.skipBlanks rest)
    return ((key, node), rest)
  | _ => none

/-- The entries of a table in braces, up to and with the closing brace. No comma
may stand behind the last entry. -/
def entries? (value : Reader Node) : Nat → Reader Entries
  | 0, _ => none
  | fuel + 1, s => do
    let (entry, rest) ← assignment? value s
    match Text.skipBlanks rest with
    | ',' :: rest =>
      let (entries, rest) ← entries? value fuel rest
      return (entry :: entries, rest)
    | c :: rest => if c = '\x7d' then return ([entry], rest) else none
    | [] => none

/-- A table in braces behind its opening brace. -/
def braces? (value : Reader Node) : Reader Node := fun s => do
  match Text.skipBlanks s with
  | [] => none
  | c :: rest =>
    if c = '\x7d' then return (.table .inline [], rest)
    else
      let (entries, rest) ← entries? value (s.length + 1) s
      return (.table .inline (← Fields.addAll? [] entries), rest)

/-- A string or a word. -/
def scalar? : Reader Node := fun s =>
  match Quoted.read? s with
  | some (text, rest) => some (.string text, rest)
  | none =>
    let word := Scalar.word s
    (Scalar.ofWord? word).map fun node => (node, s.drop word.length)

/-- A value in which arrays and braces nest at most `depth` deep. -/
def value? : Nat → Reader Node
  | 0, s => scalar? s
  | _ + 1, [] => none
  | depth + 1, c :: rest =>
    if c = '[' then
      (items? (value? depth) (rest.length + 1) rest).map fun (nodes, rest) => (.array nodes, rest)
    else if c = '\x7b' then braces? (value? depth) rest
    else scalar? (c :: rest)

def read? : Reader Node := value? (Key.depthLimit - 1)

end Node

/-! ## Documents -/

namespace Document

/-- The statements of a document: entries, and headers that start sections. -/
inductive Statement where
  | entry (key : Key) (node : Node)
  | header (key : Key) (repeated : Bool)

/-- The header behind its opening bracket. -/
def header? : Reader Statement
  | '[' :: rest => do
    match ← Key.read? rest with
    | (key, ']' :: ']' :: rest) => return (.header key true, ← Text.endLine? rest)
    | _ => none
  | rest => do
    match ← Key.read? rest with
    | (key, ']' :: rest) => return (.header key false, ← Text.endLine? rest)
    | _ => none

/-- The statements of a text, at most `fuel` lines of it. -/
def statements? : Nat → Text → Option (List Statement)
  | 0, s => if s.isEmpty then some [] else none
  | fuel + 1, s =>
    match Text.skipBlanks s with
    | [] => some []
    | '[' :: rest => do
      let (statement, rest) ← header? rest
      return statement :: (← statements? fuel rest)
    | s@(c :: _) => do
      if c = '#' ∨ c = '\n' ∨ c = '\r' then statements? fuel (← Text.endLine? s)
      else
        let ((key, node), rest) ← Node.assignment? Node.read? s
        return .entry key node :: (← statements? fuel (← Text.endLine? rest))

/-- Splits statements into the entries before any header and the sections. -/
def split : List Statement → Entries × List Section
  | [] => ([], [])
  | .entry key node :: rest =>
    let (entries, sections) := split rest
    ((key, node) :: entries, sections)
  | .header key repeated :: rest =>
    let (entries, sections) := split rest
    ([], ⟨key, repeated, entries⟩ :: sections)

/-- A byte order mark in front does not count. -/
def skipMark : Text → Text
  | '\ufeff' :: rest => rest
  | s => s

/-- The fields of a document. -/
def read? (text : String) : Option Fields := do
  let s := skipMark text.toList
  let (entries, sections) := split (← statements? (s.length + 1) s)
  document? entries sections

end Document

end Warband.Toml

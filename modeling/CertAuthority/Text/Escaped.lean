import CertAuthority.Text.Blank
import CertAuthority.Text.ParseError

/-!
# Separated, quoted and escaped texts

A list of components is written with separators between them. Inside a component a backslash takes
the next character literally and double quotes protect separators. `split` cuts a text at the
separators that are neither escaped nor quoted and keeps escapes and quotes in the pieces;
`unescape` turns one raw value into the value it stands for.
-/

namespace CertAuthority.Text

/-- Puts a character in front of the first piece. -/
def pushFront (c : Char) : List (List Char) → List (List Char)
  | [] => [[c]]
  | piece :: pieces => (c :: piece) :: pieces

/-- Cuts a text at every separator that is neither escaped nor inside quotes; the flag says whether
the text starts inside quotes. -/
def splitFrom (sep : Char) : Bool → List Char → Except ParseError (List (List Char))
  | true, [] => .error .unterminatedQuote
  | false, [] => .ok [[]]
  | _, ['\\'] => .error .danglingEscape
  | inside, '\\' :: c :: rest => do
    let pieces ← splitFrom sep inside rest
    return pushFront '\\' (pushFront c pieces)
  | inside, '"' :: rest => do
    let pieces ← splitFrom sep (!inside) rest
    return pushFront '"' pieces
  | inside, c :: rest => do
    let pieces ← splitFrom sep inside rest
    return if c = sep && !inside then [] :: pieces else pushFront c pieces

/-- Cuts a text at every separator that is neither escaped nor inside quotes. There is always one
piece more than there are such separators. -/
def split (sep : Char) (cs : List Char) : Except ParseError (List (List Char)) :=
  splitFrom sep false cs

/-- The value behind an opening quote. It ends at the first unescaped quote, and that must be the
last character. -/
def unescapeQuoted : List Char → Except ParseError (List Char)
  | [] => .error .unterminatedQuote
  | ['"'] => .ok []
  | '"' :: _ :: _ => .error .unterminatedQuote
  | ['\\'] => .error .danglingEscape
  | '\\' :: c :: rest => (c :: ·) <$> unescapeQuoted rest
  | c :: rest => (c :: ·) <$> unescapeQuoted rest

/-- The value of a text without an opening quote; later quotes stand for nothing. -/
def unescapeBare : List Char → Except ParseError (List Char)
  | [] => .ok []
  | '"' :: rest => unescapeBare rest
  | ['\\'] => .error .danglingEscape
  | '\\' :: c :: rest => (c :: ·) <$> unescapeBare rest
  | c :: rest => (c :: ·) <$> unescapeBare rest

/-- The value that a raw component stands for: surrounding blanks and quotes dropped, escapes
resolved. -/
def unescape (raw : List Char) : Except ParseError (List Char) :=
  match trim raw with
  | '"' :: rest => unescapeQuoted rest
  | cs => unescapeBare cs

/-- The text before the first `sep` and the text after it. -/
def splitOnce (sep : Char) : List Char → Option (List Char × List Char)
  | [] => none
  | c :: rest =>
    if c = sep then some ([], rest)
    else (splitOnce sep rest).map fun p => (c :: p.1, p.2)

/-- Reads the pieces of a list one after the other, skipping blank ones. Each other piece is a label,
an equals sign and a raw value; `entry` gets the label without surrounding blanks. -/
def readComponents {α : Type} (entry : String → List Char → Except ParseError α) :
    List (List Char) → Except ParseError (List α)
  | [] => .ok []
  | piece :: pieces =>
    if isAllBlank piece then readComponents entry pieces
    else
      match splitOnce '=' piece with
      | none => .error (.missingEquals (String.ofList piece))
      | some (label, raw) => do
        let first ← entry (String.ofList (trim label)) raw
        return first :: (← readComponents entry pieces)

/-- Reads a comma separated list of `LABEL=raw` components, in order. The list is cut first, so a
broken quote or escape anywhere is reported before what is wrong with a component. -/
def components {α : Type} (entry : String → List Char → Except ParseError α) (text : String) :
    Except ParseError (List α) := do
  readComponents entry (← split ',' text.toList)

/-- The value of a component that may not be empty. -/
def nonemptyValue (label : String) (raw : List Char) : Except ParseError String := do
  let value ← unescape raw
  if value.isEmpty then .error (.emptyValue label) else return String.ofList value

/-- The pieces of a text between separators, without regard to quotes and escapes. -/
def cut (sep : Char) : List Char → List (List Char)
  | [] => [[]]
  | c :: rest => if c = sep then [] :: cut sep rest else pushFront c (cut sep rest)

/-- The entries of a `;` separated list, blanks around them and blank entries dropped. -/
def entries (text : String) : List String :=
  ((cut ';' text.toList).map trim).filterMap fun cs =>
    if cs.isEmpty then none else some (String.ofList cs)

end CertAuthority.Text

import CertAuthority.Text.Hex
import CertAuthority.Toml.Value

/-!
# Texts, blanks and keys of TOML

The four ways to write a text and what may stand between tokens. Line endings are single line feeds
here: `normalized` replaces the other form before a text is read.
-/

namespace CertAuthority.Toml

/-- A text with line feeds for its line endings. -/
def normalized : List Char → List Char
  | [] => []
  | '\r' :: '\n' :: rest => '\n' :: normalized rest
  | c :: rest => c :: normalized rest

/-- Whether a character separates within a line. -/
def isSpace (c : Char) : Bool :=
  c == ' ' || c == '\t'

/-- What may stand in a comment or in a literal text, apart from its quotes. -/
def isPlain (c : Char) : Bool :=
  c == '\t' || (' ' ≤ c && c ≤ '~') || '\x80' ≤ c

/-- A text without leading spaces. -/
def skipSpaces (cs : List Char) : List Char :=
  cs.dropWhile isSpace

/-- What follows a comment, if one starts here. A character that no comment can hold is left. -/
def skipComment : List Char → List Char
  | '#' :: rest => rest.dropWhile isPlain
  | cs => cs

/-- What follows the rest of a line that holds at most a comment. -/
def endLine? (cs : List Char) : Option (List Char) :=
  match skipComment (skipSpaces cs) with
  | [] => some []
  | '\n' :: rest => some rest
  | _ => none

/-- A text without leading spaces, line endings and comments; the flag says whether it starts inside
a comment. -/
def skipBlankFrom : Bool → List Char → List Char
  | _, [] => []
  | _, '\n' :: rest => skipBlankFrom false rest
  | true, c :: rest => if isPlain c then skipBlankFrom true rest else c :: rest
  | false, '#' :: rest => skipBlankFrom true rest
  | false, c :: rest => if isSpace c then skipBlankFrom false rest else c :: rest

/-- A text without leading spaces, line endings and comments. -/
def skipBlank (cs : List Char) : List Char :=
  skipBlankFrom false cs

/-- The character whose number hexadecimal digits write. -/
def numbered? (digits : List Char) : Option Char := do
  let ds ← digits.mapM Text.hexDigit?
  let n := ds.foldl (fun n d => n * 16 + d) 0
  if n.isValidChar then some (Char.ofNat n) else none

/-- The character that one letter after a backslash stands for. -/
def escaped? : Char → Option Char
  | 'b' => some '\x08'
  | 't' => some '\t'
  | 'n' => some '\n'
  | 'f' => some '\x0c'
  | 'r' => some '\r'
  | '"' => some '"'
  | '\\' => some '\\'
  | _ => none

/-- Puts a character in front of a text that was read. -/
def push (c : Char) (r : List Char × List Char) : List Char × List Char :=
  (c :: r.1, r.2)

/-- A text up to its closing quote, with escapes. -/
def basicText? : List Char → Option (List Char × List Char)
  | [] => none
  | '"' :: rest => some ([], rest)
  | '\\' :: 'u' :: a :: b :: c :: d :: rest => do
    return push (← numbered? [a, b, c, d]) (← basicText? rest)
  | '\\' :: 'U' :: a :: b :: c :: d :: e :: f :: g :: h :: rest => do
    return push (← numbered? [a, b, c, d, e, f, g, h]) (← basicText? rest)
  | '\\' :: c :: rest => do return push (← escaped? c) (← basicText? rest)
  | c :: rest => if isPlain c && c != '\\' then push c <$> basicText? rest else none

/-- What follows a backslash that joins two lines: spaces, a line ending and all blanks after it. -/
def joined? (cs : List Char) : Option (List Char) :=
  match skipSpaces cs with
  | '\n' :: rest => some (rest.dropWhile fun c => isSpace c || c == '\n')
  | _ => none

/-- A text of several lines up to its three closing quotes, with escapes; the number bounds the
steps. One or two quotes may stand in front of the closing ones. -/
def basicLines? : Nat → List Char → Option (List Char × List Char)
  | 0, _ => none
  | _, [] => none
  | _, '"' :: '"' :: '"' :: '"' :: '"' :: rest => some (['"', '"'], rest)
  | _, '"' :: '"' :: '"' :: '"' :: rest => some (['"'], rest)
  | _, '"' :: '"' :: '"' :: rest => some ([], rest)
  | n + 1, '\\' :: 'u' :: a :: b :: c :: d :: rest => do
    return push (← numbered? [a, b, c, d]) (← basicLines? n rest)
  | n + 1, '\\' :: 'U' :: a :: b :: c :: d :: e :: f :: g :: h :: rest => do
    return push (← numbered? [a, b, c, d, e, f, g, h]) (← basicLines? n rest)
  | n + 1, '\\' :: c :: rest =>
    match joined? (c :: rest) with
    | some rest => basicLines? n rest
    | none => do return push (← escaped? c) (← basicLines? n rest)
  | n + 1, c :: rest =>
    if c == '\n' || (isPlain c && c != '\\') then push c <$> basicLines? n rest else none

/-- Reads the rest of a text in which nothing is escaped. -/
def literalText? : List Char → Option (List Char × List Char)
  | [] => none
  | '\'' :: rest => some ([], rest)
  | c :: rest => if isPlain c then push c <$> literalText? rest else none

/-- A text of several lines up to its three closing apostrophes, with one or two in front of
them. -/
def literalLines? : List Char → Option (List Char × List Char)
  | [] => none
  | '\'' :: '\'' :: '\'' :: '\'' :: '\'' :: rest => some (['\'', '\''], rest)
  | '\'' :: '\'' :: '\'' :: '\'' :: rest => some (['\''], rest)
  | '\'' :: '\'' :: '\'' :: rest => some ([], rest)
  | c :: rest => if c == '\n' || isPlain c then push c <$> literalLines? rest else none

/-- A text without one leading line ending. -/
def dropNewline : List Char → List Char
  | '\n' :: rest => rest
  | cs => cs

/-- Reads a quoted text on one line. -/
def quotedText? : List Char → Option (List Char × List Char)
  | '"' :: rest => basicText? rest
  | '\'' :: rest => literalText? rest
  | _ => none

/-- Reads a text in one of its four forms. -/
def text? : List Char → Option (List Char × List Char)
  | '"' :: '"' :: '"' :: rest => basicLines? rest.length (dropNewline rest)
  | '\'' :: '\'' :: '\'' :: rest => literalLines? (dropNewline rest)
  | cs => quotedText? cs

/-- Whether a character may stand in a key without quotes. -/
def isKeyChar (c : Char) : Bool :=
  c.isAlphanum || c == '_' || c == '-'

/-- Reads one part of a key, with or without quotes. -/
def keyPart? (cs : List Char) : Option (String × List Char) :=
  match cs with
  | [] => none
  | c :: _ =>
    if isKeyChar c then some (String.ofList (cs.takeWhile isKeyChar), cs.dropWhile isKeyChar)
    else (quotedText? cs).map fun r => (String.ofList r.1, r.2)

/-- Reads a key of one or more parts with dots between them; the number bounds the parts. -/
def key? : Nat → List Char → Option (List String × List Char)
  | 0, _ => none
  | n + 1, cs => do
    let (part, rest) ← keyPart? (skipSpaces cs)
    match skipSpaces rest with
    | '.' :: rest => do
      let (parts, rest) ← key? n rest
      return (part :: parts, rest)
    | rest => return ([part], rest)

end CertAuthority.Toml

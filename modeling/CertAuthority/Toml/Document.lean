import CertAuthority.Toml.Number

/-!
# TOML documents

A document is read in two steps: into lines, which are keys with values and headers of tables, and
from lines into one table. The second step keeps the rules on what may be defined twice.
-/

namespace CertAuthority.Toml

/-- How deep values may be nested, and how many parts a key may have. -/
def maxDepth : Nat := 79

/-! ## Adding to tables -/

/-- Replaces what stands under a name; the function gets what was there. -/
def alter (key : String) (f : Option Value → Option Value) : Entries → Option Entries
  | [] => (f none).map fun v => [(key, v)]
  | (k, v) :: rest =>
    if k = key then (f (some v)).map fun v => (k, v) :: rest
    else (alter key f rest).map ((k, v) :: ·)

/-- Changes the table at the end of a path. Tables on the way are made as needed; those that are
there may be passed, unless they are inline or a dotted key meets a table with its own header. In a
growing list the way goes through the last table. -/
def within (dotted : Bool) (f : TableForm → Entries → Option Entries) :
    List String → TableForm → Entries → Option Entries
  | [], form, entries => f form entries
  | key :: path, _, entries =>
    let step (form : TableForm) (inner : Entries) : Option Value :=
      (within dotted f path form inner).map (.table form)
    alter key (fun old =>
      match old with
      | none => step (if dotted then .dotted else .implied) []
      | some (.table form inner) =>
        if form = .inline || (dotted && form = .header) then none else step form inner
      | some (.array true values) =>
        match values.getLast? with
        | some (.table form inner) => (step form inner).map fun t => .array true (values.dropLast ++ [t])
        | _ => none
      | some _ => none) entries

/-- Puts a value under a name that is not taken. -/
def insertNew (key : String) (v : Value) : Entries → Option Entries :=
  alter key fun old => if old.isSome then none else some v

/-- Adds the value of a dotted key to a table. A key of several parts adds only to tables that such
keys made. -/
def addPair (form : TableForm) (entries : Entries) (path : List String) (v : Value) :
    Option Entries := do
  let last ← path.getLast?
  let init := path.dropLast
  within true (fun form inner =>
    if (form = .dotted) = init.isEmpty then none else insertNew last v inner) init form entries

/-- Adds several values to a table, in order. -/
def addPairs (form : TableForm) : Entries → List (List String × Value) → Option Entries
  | entries, [] => some entries
  | entries, (path, v) :: pairs => do addPairs form (← addPair form entries path v) pairs

/-! ## Values -/

/-- Reads the elements of a list up to its closing bracket; the number bounds the elements. -/
def elements? (value? : List Char → Option (Value × List Char)) :
    Nat → List Char → Option (List Value × List Char)
  | 0, _ => none
  | n + 1, cs =>
    match skipBlank cs with
    | ']' :: rest => some ([], rest)
    | cs => do
      let (v, rest) ← value? cs
      match skipBlank rest with
      | ']' :: rest => return ([v], rest)
      | ',' :: rest => do
        let (vs, rest) ← elements? value? n rest
        return (v :: vs, rest)
      | _ => none

/-- Reads a key with its value. -/
def pair? (value? : List Char → Option (Value × List Char)) (cs : List Char) :
    Option ((List String × Value) × List Char) := do
  let (path, rest) ← key? maxDepth cs
  match rest with
  | '=' :: rest => do
    let (v, rest) ← value? (skipSpaces rest)
    return ((path, v), rest)
  | _ => none

/-- Reads the pairs of an inline table up to its closing brace; the number bounds the pairs. -/
def pairs? (value? : List Char → Option (Value × List Char)) :
    Nat → List Char → Option (List (List String × Value) × List Char)
  | 0, _ => none
  | n + 1, cs => do
    let (p, rest) ← pair? value? cs
    match skipSpaces rest with
    | '\x7d' :: rest => return ([p], rest)
    | ',' :: rest => do
      let (ps, rest) ← pairs? value? n rest
      return (p :: ps, rest)
    | _ => none

/-- Reads a value whose lists and tables are nested at most as deep as the number says. -/
def value? : Nat → List Char → Option (Value × List Char)
  | depth + 1, '[' :: rest => do
    let (vs, rest) ← elements? (value? depth) (rest.length + 1) rest
    return (.array false vs, rest)
  | depth + 1, '\x7b' :: rest =>
    match skipSpaces rest with
    | '\x7d' :: rest => some (.table .inline [], rest)
    | rest => do
      let (ps, rest) ← pairs? (value? depth) (rest.length + 1) rest
      return (.table .inline (← addPairs .inline [] ps), rest)
  | _, cs =>
    match cs with
    | '"' :: _ => (text? cs).map fun r => (.text (String.ofList r.1), r.2)
    | '\'' :: _ => (text? cs).map fun r => (.text (String.ofList r.1), r.2)
    | _ => bare? cs

/-! ## Lines -/

/-- A line of a document that is not blank. -/
inductive Line where
  | pair (path : List String) (v : Value)
  | header (path : List String)
  /-- The header of one more table of a list. -/
  | arrayHeader (path : List String)
deriving Repr

/-- Reads the path of a header up to its closing brackets. -/
def path? (closing : List Char) (cs : List Char) : Option (List String × List Char) := do
  let (path, rest) ← key? maxDepth cs
  if closing.isPrefixOf rest then return (path, rest.drop closing.length) else none

/-- Reads one line that is not blank. -/
def line? : List Char → Option (Line × List Char)
  | '[' :: '[' :: rest => (path? [']', ']'] rest).map fun r => (.arrayHeader r.1, r.2)
  | '[' :: rest => (path? [']'] rest).map fun r => (.header r.1, r.2)
  | cs => (pair? (value? maxDepth) cs).map fun r => (.pair r.1.1 r.1.2, r.2)

/-- Reads the lines of a document; the number bounds the lines. -/
def lines? : Nat → List Char → Option (List Line)
  | 0, _ => none
  | n + 1, cs =>
    match skipBlank cs with
    | [] => some []
    | cs => do
      let (line, rest) ← line? cs
      return line :: (← lines? n (← endLine? rest))

/-! ## Documents -/

/-- The pairs up to the next header, and the lines from there. -/
def leadingPairs : List Line → List (List String × Value) × List Line
  | .pair path v :: lines =>
    let (pairs, rest) := leadingPairs lines
    ((path, v) :: pairs, rest)
  | lines => ([], lines)

/-- Adds the table of a header. The table may be there already if only headers inside it needed it. -/
def addTable (root : Entries) (path : List String) (pairs : List (List String × Value)) :
    Option Entries := do
  let last ← path.getLast?
  within false (fun _ entries =>
    alter last (fun old =>
      match old with
      | none => (addPairs .header [] pairs).map (.table .header)
      | some (.table .implied inner) => (addPairs .header inner pairs).map (.table .header)
      | some _ => none) entries) path.dropLast .header root

/-- Adds one more table to the list of a double header. -/
def addElement (root : Entries) (path : List String) (pairs : List (List String × Value)) :
    Option Entries := do
  let last ← path.getLast?
  let element ← (addPairs .header [] pairs).map (.table .header)
  within false (fun _ entries =>
    alter last (fun old =>
      match old with
      | none => some (.array true [element])
      | some (.array true values) => some (.array true (values ++ [element]))
      | some _ => none) entries) path.dropLast .header root

/-- Adds the tables of all headers, each with the pairs that follow it. The pairs of a header are
passed over when their turn comes. -/
def addTables : Entries → List Line → Option Entries
  | root, [] => some root
  | root, .pair .. :: lines => addTables root lines
  | root, .header path :: lines => do
    addTables (← addTable root path (leadingPairs lines).1) lines
  | root, .arrayHeader path :: lines => do
    addTables (← addElement root path (leadingPairs lines).1) lines

/-- The characters of a document without a byte order mark. -/
def characters (text : String) : List Char :=
  match normalized text.toList with
  | '\uFEFF' :: cs => cs
  | cs => cs

/-- Reads a document; the pairs before its first header belong to the document itself. -/
def parse (text : String) : Option Entries := do
  let cs := characters text
  let lines ← lines? (cs.length + 1) cs
  addTables (← addPairs .header [] (leadingPairs lines).1) lines

end CertAuthority.Toml

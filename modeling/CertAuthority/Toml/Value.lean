import CertAuthority.Octets

/-!
# TOML values

A configuration text is a table of values. Tables remember how they came to be, because that decides
whether later lines of the text may add to them.
-/

namespace CertAuthority.Toml

/-- How a table came to be. -/
inductive TableForm where
  /-- Written in braces; nothing can be added. -/
  | inline
  /-- Opened by a header of its own. -/
  | header
  /-- Needed by the header of a table inside it. -/
  | implied
  | dotted
deriving DecidableEq, Repr

/-- A value. -/
inductive Value where
  | text (s : String)
  | integer (n : Int)
  | boolean (b : Bool)
  /-- A number with a fraction or exponent; no setting uses one. -/
  | float
  /-- A date, a time of day or both; no setting uses one. -/
  | date
  /-- A list of values; it is growing if it consists of the tables under double headers. -/
  | array (growing : Bool) (values : List Value)
  /-- Values under names, in the order of the text. -/
  | table (form : TableForm) (entries : List (String × Value))
deriving Repr, Inhabited

/-- The members of a table, in the order in which they were found. -/
abbrev Entries := List (String × Value)

namespace Value

/-- The entries of a record with the given member names. A table has them by name, a list in the order
of the names. -/
def members? (names : List String) : Value → Option Entries
  | table _ entries => some entries
  | array _ values => some (names.zip values)
  | _ => none

/-- The name that stands for one of several constants: a text, or a table that has just that name with
nothing in it. -/
def constant? : Value → Option String
  | text s => some s
  | table _ [(name, array _ [])] => some name
  | table _ [(name, table _ [])] => some name
  | _ => none

end Value

end CertAuthority.Toml

import CertAuthority.Toml.Document

/-!
# Settings

A configuration type is a structure of settings. Each setting has a name under which it stands in a
table and a codec for its type; the settings of a type decide together how a table is read over
defaults and how a configuration is shown as a table.
-/

namespace CertAuthority.Toml

/-- How the values of a type are written and read. -/
structure Codec (α : Type) where
  write : α → Value
  read : Value → Option α

namespace Codec

/-- Texts, as they are. -/
def text : Codec String where
  write := .text
  read
    | .text s => some s
    | _ => none

/-- Truth values. -/
def boolean : Codec Bool where
  write := .boolean
  read
    | .boolean b => some b
    | _ => none

/-- Numbers from zero up to, but not including, a bound. -/
def below (bound : Nat) : Codec Nat where
  write n := .integer n
  read
    | .integer (.ofNat n) => if n < bound then some n else none
    | _ => none

/-- Whole numbers with a sign, of 64 bits. -/
def signed : Codec Int where
  write := .integer
  read
    | .integer n => inRange n
    | _ => none

/-- Constants by their names. -/
def named {α : Type} [BEq α] (names : List (String × α)) : Codec α where
  write a := .text (((names.find? fun p => p.2 == a).map Prod.fst).getD "")
  read v := v.constant?.bind fun name => names.lookup name

/-- Lists of values of one kind. -/
def list {α : Type} (codec : Codec α) : Codec (List α) where
  write as := .array false (as.map codec.write)
  read
    | .array _ vs => vs.mapM codec.read
    | _ => none

end Codec

/-- A setting of a configuration type. -/
structure Setting (σ : Type) where
  name : String
  /-- The form of the present value. -/
  write : σ → Value
  /-- Reads a new value over the present one. -/
  read : Value → σ → Option σ

/-- The setting with a name and codec for a member of a structure. -/
def Setting.member {σ α : Type} (name : String) (codec : Codec α) (get : σ → α) (put : α → σ → σ) :
    Setting σ where
  name := name
  write s := codec.write (get s)
  read v s := (codec.read v).map fun a => put a s

/-- Reads the settings that are present over a configuration; entries under other names are passed
over. -/
def readSettings {σ : Type} (entries : Entries) : List (Setting σ) → σ → Option σ
  | [], s => some s
  | setting :: rest, s =>
    match entries.lookup setting.name with
    | none => readSettings entries rest s
    | some v => do readSettings entries rest (← setting.read v s)

/-- The table with the values of all settings. -/
def writeSettings {σ : Type} (settings : List (Setting σ)) (s : σ) : Value :=
  .table .inline (settings.map fun setting => (setting.name, setting.write s))

/-- The settings of a part of a configuration as one setting; what is not given keeps its value from
the defaults of the part. -/
def Setting.group {σ α : Type} (name : String) (settings : List (Setting α)) (default : α)
    (get : σ → α) (put : α → σ → σ) : Setting σ where
  name := name
  write s := writeSettings settings (get s)
  read v s := do
    let entries ← v.members? (settings.map Setting.name)
    return put (← readSettings entries settings default) s

end CertAuthority.Toml

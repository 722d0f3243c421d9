import CertAuthority.Extension.Plugin

/-!
# Registered extensions

Plugins are registered under numbers, and profiles name them by number. Resolving a profile parses
its texts and looks its numbers up, so that issuing needs neither texts nor numbers.
-/

namespace CertAuthority

open Toml

/-- Plugins by number. -/
structure Registry where
  /-- The plugins, in ascending order of their numbers. -/
  plugins : List (Nat × Plugin) := []

namespace Registry

/-- The plugin under a number. -/
def find? (r : Registry) (id : Nat) : Option Plugin :=
  r.plugins.lookup id

/-- Puts a plugin in its place. -/
def insert (id : Nat) (plugin : Plugin) : List (Nat × Plugin) → List (Nat × Plugin)
  | [] => [(id, plugin)]
  | p :: rest => if id < p.1 then (id, plugin) :: p :: rest else p :: insert id plugin rest

/-- Adds a plugin under a number that is not taken. If it is taken there is no new registry, and whoever
called keeps the old one. -/
def register (r : Registry) (id : Nat) (plugin : Plugin) : Except Error Registry :=
  if (r.find? id).isSome then
    .error (.invalidProfile ("extension id " ++ toString id ++ " registered twice"))
  else .ok ⟨insert id plugin r.plugins⟩

/-- A plugin as it stands in a configuration text. -/
structure Entry where
  id : Nat
  oid : String
  critical : Bool
  encoding : ValueEncoding
  value : String
deriving DecidableEq, Repr

/-- Reads an entry; two of its members may be left out. -/
def Entry.read? (v : Value) : Option Entry := do
  let members ← v.members? ["id", "oid", "critical", "encoding", "value"]
  let optional {α : Type} (codec : Codec α) (name : String) (default : α) : Option α :=
    match members.lookup name with
    | none => some default
    | some v => codec.read v
  return {
    id := ← (← members.lookup "id") |> (Codec.below UInt32.size).read
    oid := ← (← members.lookup "oid") |> Codec.text.read
    critical := ← optional .boolean "critical" false
    encoding := ← (← members.lookup "encoding") |> (Codec.named ValueEncoding.names).read
    value := ← optional .text "value" "" }

/-- The plugin that an entry stands for. -/
def Entry.plugin (e : Entry) : Except Error Plugin :=
  match Oid.parse (Text.trimmed e.oid) with
  | .error cause =>
    .error (.invalidProfile
      ("extension " ++ toString e.id ++ ": OID " ++ Text.quoted e.oid ++ ": " ++ cause.message))
  | .ok oid => Plugin.fixed oid e.critical e.encoding e.value

/-- Registers the plugins of entries, in order. -/
def addEntries : Registry → List Entry → Except Error Registry
  | r, [] => .ok r
  | r, e :: rest => do addEntries (← r.register e.id (← e.plugin)) rest

/-- The entries that a configuration text lists; there may be none. -/
def entries? (text : String) : Option (List Entry) := do
  match (← Toml.parse text).lookup "extension" with
  | none => some []
  | some (.array _ values) => values.mapM Entry.read?
  | some _ => none

/-- Reads plugins with fixed values from a configuration text. -/
def ofToml (text : String) : Except Error Registry :=
  match entries? text with
  | none => .error (.configuration "not a list of extensions")
  | some entries => addEntries {} entries

/-- The form of a registry in reports. -/
def summary (r : Registry) : String :=
  "\x7b" ++ ", ".intercalate (r.plugins.map fun p => toString p.1 ++ ": " ++ p.2.oid.summary) ++
    "\x7d"

end Registry

/-- A profile that is ready to be used. -/
structure ResolvedProfile where
  profile : Profile
  parsed : ParsedProfile
  plugins : List Plugin

namespace ResolvedProfile

/-- The plugins that a profile names by their numbers. -/
def pluginsOf (registry : Registry) (p : Profile) : Except Error (List Plugin) :=
  p.certificateExtensions.mapM fun id =>
    match registry.find? id with
    | some plugin => .ok plugin
    | none =>
      .error (.invalidProfile
        ("profile " ++ Text.quoted p.name ++ " references unknown extension id " ++ toString id))

/-- Makes a profile ready: its texts are parsed and its plugins looked up. -/
def resolve (registry : Registry) (profile : Profile) : Except Error ResolvedProfile := do
  let parsed ← profile.parse
  return { profile, parsed, plugins := ← pluginsOf registry profile }

/-- The name of the profile and the identifiers of its plugins. -/
def summary (p : ResolvedProfile) : String :=
  "ResolvedProfile \x7b profile: " ++ Text.quoted p.profile.name ++ ", plugins: [" ++
    ", ".intercalate (p.plugins.map fun plugin => plugin.oid.summary) ++ "] \x7d"

end ResolvedProfile

end CertAuthority

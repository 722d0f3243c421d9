import CertAuthority.Text.Quoted

/-!
# What can be wrong with a text

The textual forms of names, alternative names, directory attributes and object identifiers share one
type of error. Each constructor is one cause; `ParseError.message` holds the wording.
-/

namespace CertAuthority

/-- Why a text of a name or one of its parts is refused. -/
inductive ParseError where
  /-- A component has no equals sign. -/
  | missingEquals (component : String)
  /-- The type label of a name component is not known. -/
  | unknownAttribute (name : String)
  /-- A component has an empty value. -/
  | emptyValue (label : String)
  /-- A quote is not closed, or something follows the closing quote. -/
  | unterminatedQuote
  | danglingEscape
  /-- A value leaves the alphabet of its string type. -/
  | invalidString (label value kind : String)
  /-- The label of an alternative name is not known. -/
  | unknownAltName (name : String)
  | invalidIpAddress (value : String)
  /-- A text is no object identifier. -/
  | invalidOid (value : String)
  /-- The label of a directory attribute is not known. -/
  | unknownDirectoryAttribute (name : String)
  /-- A directory attribute has a value outside its form. -/
  | invalidDirectoryAttribute (label value : String)
deriving DecidableEq, Repr

namespace ParseError

/-- The wording of an error. -/
def message : ParseError → String
  | missingEquals component => "component " ++ Text.quoted component ++ " is missing '='"
  | unknownAttribute name => "unknown DN attribute type " ++ Text.quoted name
  | emptyValue label => "empty value for " ++ label
  | unterminatedQuote => "unterminated quoted value"
  | danglingEscape => "dangling escape at end of input"
  | invalidString label value kind =>
    "value " ++ Text.quoted value ++ " for " ++ label ++ " is not a valid " ++ kind
  | unknownAltName name => "unknown alternative name type " ++ Text.quoted name
  | invalidIpAddress value => "invalid IP address " ++ Text.quoted value
  | invalidOid value => "invalid object identifier " ++ Text.quoted value
  | unknownDirectoryAttribute name => "unknown directory attribute " ++ Text.quoted name
  | invalidDirectoryAttribute label value =>
    "invalid " ++ label ++ " value " ++ Text.quoted value

end ParseError

end CertAuthority

import CertAuthority.Extension.DirectoryAttribute
import CertAuthority.Proofs.Name.Printed
import CertAuthority.Proofs.Text.Spaced

/-!
# Joined lists

Names, alternative names and directory attributes are read by one scanner, which only hands the label and
the raw value of each component to the reader of its kind. None of these readers depends on the blanks
around a raw value, and the labels that they know are words (`isEntryReader_readAttribute` and its
siblings). So texts that are joined by commas are read one after the other, and blanks may be put in
wherever a component starts, ends or has its first equals sign (`isListParser_parse`).
-/

namespace CertAuthority

open Text (IsEntryReader Spreads)

namespace Text

/-- Outer blanks of a raw value do not matter to its escapes. -/
lemma unescape_eq_of_trim_eq {raw raw' : List Char} (h : trim raw = trim raw') :
    unescape raw = unescape raw' := by
  rw [unescape, unescape, h]

/-- Outer blanks of a raw value do not matter to the value. -/
lemma nonemptyValue_eq_of_trim_eq {raw raw' : List Char} (label : String) (h : trim raw = trim raw') :
    nonemptyValue label raw = nonemptyValue label raw' := by
  rw [nonemptyValue, nonemptyValue, unescape_eq_of_trim_eq h]

/-- A parser of comma separated texts for which joining texts is joining lists and which passes over blanks
between the parts of a text. -/
structure IsListParser {α : Type} (parse : String → Except ParseError (List α)) : Prop where
  joins : ∀ s t as bs, parse s = .ok as → parse t = .ok bs → parse (s ++ "," ++ t) = .ok (as ++ bs)
  spreads : ∀ s t as, Relation.ReflTransGen Spreads s.toList t.toList →
    parse s = .ok as → parse t = .ok as

/-- A reader of entries makes a parser of lists, which may be joined and spread out. -/
lemma IsEntryReader.isListParser {α : Type} {entry : String → List Char → Except ParseError α}
    (h : IsEntryReader entry) : IsListParser (components entry) where
  joins _ _ _ _ := components_append
  spreads _ _ _ := components_of_spreads h

end Text

/-- The attributes of names are read as entries. -/
lemma DistinguishedName.isEntryReader_readAttribute : IsEntryReader readAttribute where
  trims label raw raw' h := by
    rw [readAttribute, readAttribute, Text.nonemptyValue_eq_of_trim_eq label h]
  plain label raw a h := by
    have hlabels := AttributeType.oid?_eq_ok_iff.1 (readAttribute_eq_ok_iff.1 h).1
    have hword := (AttributeType.isWord_of_labels hlabels).plain
    rw [Text.trimmed, String.toList_ofList] at hword
    exact Text.plain_of_trim hword

/-- Alternative names are read as entries. -/
lemma AltName.isEntryReader_read : IsEntryReader AltName.read where
  trims label raw raw' h := by
    rw [read, read, Text.nonemptyValue_eq_of_trim_eq label h]
  plain label raw a h := by
    rw [read] at h
    split at h
    · cases h
    · rename_i kind hkind
      obtain ⟨front, back, hlabels, -⟩ := List.lookup_eq_some_iff.1 hkind
      have hmem : (Text.lowered label, kind) ∈ AltNameKind.labels := hlabels ▸ List.mem_append_cons_self
      exact (AltNameKind.isWord_of_mem hmem).plain

namespace DirectoryAttribute

/-- The labels of attributes are words. -/
lemma isAlphanum_forms : ∀ label ∈ forms.map Prod.fst, label.toList.all Char.isAlphanum = true := by
  decide +kernel

/-- Directory attributes are read as entries. -/
lemma isEntryReader_read : IsEntryReader read where
  trims label raw raw' h := by
    rw [read, read, Text.unescape_eq_of_trim_eq h]
  plain label raw a h := by
    obtain ⟨value, -, h⟩ := bind_eq_ok_iff.1 h
    dsimp only at h
    split at h
    · cases h
    · rename_i type form hform
      obtain ⟨front, back, hforms, -⟩ := List.lookup_eq_some_iff.1 hform
      have hmem : Text.lowered label ∈ forms.map Prod.fst := by
        rw [hforms, List.map_append, List.map_cons]
        exact List.mem_append_cons_self
      exact (isWord_of_lowered (isAlphanum_forms _ hmem)).plain

end DirectoryAttribute

namespace Text

/-- Names, alternative names and directory attributes that are joined by a comma are read one after the
other, and they are read as before however they are spread out. -/
theorem isListParser_parse :
    IsListParser (fun s => DistinguishedName.attributes <$> DistinguishedName.parse s) ∧
      IsListParser AltName.parse ∧ IsListParser DirectoryAttribute.parse := by
  have hname : (fun s => DistinguishedName.attributes <$> DistinguishedName.parse s) =
      components DistinguishedName.readAttribute := by
    funext s
    rw [DistinguishedName.parse]
    cases components DistinguishedName.readAttribute s <;> rfl
  rw [hname]
  exact ⟨DistinguishedName.isEntryReader_readAttribute.isListParser,
    AltName.isEntryReader_read.isListParser, DirectoryAttribute.isEntryReader_read.isListParser⟩

/-- A name with a quoted separator before one with an escaped separator, and a name that is spread out by
blanks before its first equals sign and by a blank component. -/
theorem sample_joined_spread :
    DistinguishedName.attributes <$> DistinguishedName.parse "CN=\"Doe, J\",O=a\\,b" =
        .ok [⟨.commonName, "Doe, J"⟩, ⟨⟨[85, 4, 10], rfl⟩, "a,b"⟩] ∧
      DistinguishedName.attributes <$> DistinguishedName.parse "CN =\"a,b\", " =
        .ok [⟨.commonName, "a,b"⟩] := by
  constructor
  · exact isListParser_parse.1.joins "CN=\"Doe, J\"" "O=a\\,b" [⟨.commonName, "Doe, J"⟩]
      [⟨⟨[85, 4, 10], rfl⟩, "a,b"⟩] (by decide +kernel) (by decide +kernel)
  · have hlabel : HasLabel [] ['C', 'N'] ['"', 'a', ',', 'b', '"'] :=
      ⟨.first, ⟨['"', 'a', ',', 'b', '"'], [], by decide +kernel⟩, by decide⟩
    have hblank : Spreads "CN=\"a,b\"".toList "CN =\"a,b\"".toList :=
      @Spreads.blanks ['C', 'N'] ['=', '"', 'a', ',', 'b', '"'] [' '] (by decide) (.beforeEquals hlabel)
    have hcomponent : Spreads "CN =\"a,b\"".toList "CN =\"a,b\", ".toList := by
      have h := @Spreads.componentBehind "CN =\"a,b\"".toList [] [' '] (by decide) .last
      rw [List.append_nil] at h
      exact h
    exact isListParser_parse.1.spreads "CN=\"a,b\"" "CN =\"a,b\", " _
      (.tail (.single hblank) hcomponent) (by decide +kernel)

end Text

end CertAuthority

import CertAuthority.Proofs.Name.Label
import CertAuthority.Proofs.Text.Enclosed

/-!
# Printed names

The printed form of a name escapes the characters with a meaning, but not the blanks at the ends of a
value, and a reader trims a value before it resolves the escapes. So a printed name is read as the same
name without these blanks, and not at all if a value has nothing else (`parse_text_iff`).
-/

namespace CertAuthority

/-- An attribute without the blanks around its value. -/
def TypedValue.trimmed (a : TypedValue) : TypedValue :=
  { a with value := Text.trimmed a.value }

/-- Trimming leaves an attribute as it is exactly if its value has no outer blanks. -/
lemma TypedValue.trimmed_eq_self_iff {a : TypedValue} :
    a.trimmed = a ↔ Text.trimmed a.value = a.value := by
  cases a
  simp [TypedValue.trimmed]

namespace DistinguishedName

/-- An attribute is read exactly if its label stands for a type and its value is not empty. -/
lemma readAttribute_eq_ok_iff {label : String} {raw : List Char} {a : TypedValue} :
    readAttribute label raw = .ok a ↔
      AttributeType.oid? label = .ok a.type ∧ Text.nonemptyValue label raw = .ok a.value := by
  simp only [readAttribute, bind_eq_ok_iff, pure_eq_ok_iff]
  constructor
  · rintro ⟨type, htype, value, hvalue, rfl⟩
    exact ⟨htype, hvalue⟩
  · rintro ⟨htype, hvalue⟩
    exact ⟨a.type, htype, a.value, hvalue, rfl⟩

/-- A name is read exactly if its components are. -/
lemma parse_eq_ok_iff {s : String} {dn : DistinguishedName} :
    parse s = .ok dn ↔ Text.components readAttribute s = .ok dn.attributes := by
  rw [parse, bind_eq_ok_iff]
  constructor
  · rintro ⟨attributes, h, heq⟩
    cases heq
    exact h
  · exact fun h => ⟨dn.attributes, h, rfl⟩

/-- Every attribute that is read has a label and a value. -/
lemma exists_labels_of_parse {s : String} {dn : DistinguishedName} (h : parse s = .ok dn) {a : TypedValue}
    (ha : a ∈ dn.attributes) : (∃ label, AttributeType.Labels label a.type) ∧ a.value ≠ "" := by
  obtain ⟨label, raw, hread⟩ := Text.exists_of_components (parse_eq_ok_iff.1 h) ha
  obtain ⟨htype, hvalue⟩ := readAttribute_eq_ok_iff.1 hread
  obtain ⟨cs, hunescape, -⟩ := bind_eq_ok_iff.1 hvalue
  obtain ⟨hne, hcs⟩ := (Text.nonemptyValue_eq_ok_iff hunescape).1 hvalue
  refine ⟨⟨_, AttributeType.oid?_eq_ok_iff.1 htype⟩, ?_⟩
  rw [← hcs, ne_eq, String.ofList_eq_empty_iff]
  exact hne

/-- None of the characters that are escaped is a blank. -/
lemma isBlank_special : ∀ c ∈ special, Text.isBlank c = false := by
  -- as a `∀`, it may be decided by going through all characters that there are
  have hall : special.all (fun c => !Text.isBlank c) = true := by decide
  intro c hc
  simpa using List.all_eq_true.1 hall c hc

/-- A printed value stays in one piece. -/
lemma isPiece_escapeValue (cs : List Char) : Text.IsPiece ',' (escapeValue cs) :=
  @Text.isPiece_escape special ',' (by decide) (by decide) (by decide) cs

/-- A name is printed as the labels and escaped values of its attributes. -/
lemma text_eq (dn : DistinguishedName) : dn.text = Text.componentsText
    (dn.attributes.map fun a => (AttributeType.label a.type, escapeValue a.value.toList)) := by
  rw [text, Text.componentsText, List.map_map]
  rfl

/-- A printed attribute is read without the blanks around its value, if anything is left of it. -/
lemma readAttribute_printed_iff {label : String} {a b : TypedValue}
    (hlabel : AttributeType.Labels label a.type) :
    readAttribute label (escapeValue a.value.toList) = .ok b ↔
      Text.HasContent a.value.toList ∧ a.trimmed = b := by
  have hvalue : Text.unescape (escapeValue a.value.toList) = .ok (Text.trim a.value.toList) :=
    Text.unescape_escape isBlank_special (by decide) (by decide) _
  rw [readAttribute_eq_ok_iff, AttributeType.oid?_of_labels hlabel, Text.nonemptyValue_eq_ok_iff hvalue, ne_eq,
    Text.trim_eq_nil_iff, not_not]
  cases b
  simp [TypedValue.trimmed, Text.trimmed, and_left_comm]

/-- A printed name is read attribute by attribute. -/
lemma parse_text_eq_ok_iff {dn dn' : DistinguishedName}
    (h : ∀ a ∈ dn.attributes, ∃ label, AttributeType.Labels label a.type) :
    parse dn.text = .ok dn' ↔
      (∀ a ∈ dn.attributes, Text.HasContent a.value.toList) ∧
        ⟨dn.attributes.map TypedValue.trimmed⟩ = dn' := by
  have hlabel : ∀ a ∈ dn.attributes, AttributeType.Labels (AttributeType.label a.type) a.type := by
    intro a ha
    obtain ⟨label, hlabel⟩ := h a ha
    exact AttributeType.labels_label hlabel
  have hattributes : (⟨dn.attributes.map TypedValue.trimmed⟩ : DistinguishedName) = dn' ↔
      dn.attributes.map TypedValue.trimmed = dn'.attributes := by
    cases dn' with
    | mk attributes => rw [mk.injEq]
  rw [hattributes, parse_eq_ok_iff, text_eq, Text.components_text, List.mapM_map]
  · exact mapM_eq_ok_iff_of_forall fun a ha b => readAttribute_printed_iff (hlabel a ha)
  · exact List.forall_mem_map.2 fun a ha => AttributeType.isWord_of_labels (hlabel a ha)
  · exact List.forall_mem_map.2 fun a _ =>
      isPiece_escapeValue a.value.toList

/-- A name that was read is read from its printed form exactly if no value has blanks at its ends. If it
is read at all, from values that have something else, then without these blanks. -/
theorem parse_text_iff {s : String} {dn : DistinguishedName} (h : parse s = .ok dn) :
    (parse dn.text = .ok dn ↔ ∀ a ∈ dn.attributes, Text.trimmed a.value = a.value) ∧
      ((∃ dn', parse dn.text = .ok dn') ↔ ∀ a ∈ dn.attributes, Text.HasContent a.value.toList) ∧
      ∀ dn', parse dn.text = .ok dn' → dn' = ⟨dn.attributes.map TypedValue.trimmed⟩ := by
  have hread : ∀ dn', parse dn.text = .ok dn' ↔ (∀ a ∈ dn.attributes, Text.HasContent a.value.toList) ∧
      ⟨dn.attributes.map TypedValue.trimmed⟩ = dn' := fun dn' =>
    parse_text_eq_ok_iff fun a ha => (exists_labels_of_parse h ha).1
  refine ⟨?_, ?_, ?_⟩
  · have hmap : (⟨dn.attributes.map TypedValue.trimmed⟩ : DistinguishedName) = dn ↔
        ∀ a ∈ dn.attributes, Text.trimmed a.value = a.value := by
      cases dn with
      | mk attributes =>
        have hself : attributes.map TypedValue.trimmed = attributes.map id ↔
            ∀ a ∈ attributes, a.trimmed = a := List.map_inj_left
        rw [List.map_id] at hself
        simp only [mk.injEq, hself, TypedValue.trimmed_eq_self_iff]
    rw [hread, hmap, and_iff_right_iff_imp]
    intro htrimmed a ha
    rw [← Text.isEmpty_trimmed_iff, htrimmed a ha, Bool.eq_false_iff, ne_eq, String.isEmpty_iff]
    exact (exists_labels_of_parse h ha).2
  · constructor
    · rintro ⟨dn', hdn⟩
      exact ((hread dn').1 hdn).1
    · exact fun hcontent => ⟨_, (hread _).2 ⟨hcontent, rfl⟩⟩
  · exact fun dn' hdn => ((hread dn').1 hdn).2.symm

/-- A name with separators and quotes in its values, which is read from its printed form. -/
theorem sample_printed :
    parse "CN=\"Doe, \\\"J\\\" \", 1.2.3.4=a\\+b" =
        .ok ⟨[⟨.commonName, "Doe, \"J\" "⟩, ⟨⟨[42, 3, 4], rfl⟩, "a+b"⟩]⟩ ∧
      parse (⟨[⟨.commonName, "Doe, \"J\" "⟩, ⟨⟨[42, 3, 4], rfl⟩, "a+b"⟩]⟩ : DistinguishedName).text =
        .ok ⟨[⟨.commonName, "Doe, \"J\""⟩, ⟨⟨[42, 3, 4], rfl⟩, "a+b"⟩]⟩ := by
  have h : parse "CN=\"Doe, \\\"J\\\" \", 1.2.3.4=a\\+b" =
      .ok ⟨[⟨.commonName, "Doe, \"J\" "⟩, ⟨⟨[42, 3, 4], rfl⟩, "a+b"⟩]⟩ := by
    decide +kernel
  obtain ⟨dn', hdn⟩ := (parse_text_iff h).2.1.2 (by decide +kernel)
  refine ⟨h, hdn.trans ?_⟩
  rw [(parse_text_iff h).2.2 dn' hdn]
  decide +kernel

/-- Quotes keep a blank at the start of a value, and the printed form has no quotes. -/
theorem exists_parse_text_ne : ∃ dn, parse "CN=\" a\"" = .ok dn ∧
    parse dn.text = .ok ⟨[⟨.commonName, "a"⟩]⟩ ∧ parse dn.text ≠ .ok dn :=
  ⟨⟨[⟨.commonName, " a"⟩]⟩, by decide +kernel, by decide +kernel, by decide +kernel⟩

end DistinguishedName

end CertAuthority

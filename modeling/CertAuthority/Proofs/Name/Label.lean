import CertAuthority.AltName.Basic
import CertAuthority.Proofs.Oid.Text
import CertAuthority.Proofs.Text.Pieces

/-!
# Labels of values

The labels of attribute types and of the kinds of alternative names are words of letters, digits and full
stops, so they are neither cut nor trimmed. `AttributeType.Labels` says which words stand for a type.
-/

namespace CertAuthority

open Text (IsWord)

/-- A label that is a word of letters and digits in lower case is one in either case. -/
lemma isWord_of_lowered {label : String} (h : (Text.lowered label).toList.all Char.isAlphanum = true) :
    IsWord label := by
  intro c hc
  have hmem : c.toLower ∈ (Text.lowered label).toList := by
    rw [Text.lowered, String.toList_map]
    exact List.mem_map_of_mem hc
  exact .inl (Text.isAlphanum_of_isAlphanum_toLower (List.all_eq_true.1 h _ hmem))

namespace AttributeType

/-! ### Names and dotted labels -/

/-- The marks that may stand before a dotted label. -/
def marks : List String :=
  ["", "OID.", "oid."]

/-- The labels of an attribute type: its names in either case and its dotted forms. -/
inductive Labels : String → Oid → Prop where
  | name {label : String} {t : AttributeType} :
    t ∈ table →
    Text.uppered label ∈ t.names →
    Labels label t.oid
  | dotted {mark text : String} {oid : Oid} :
    mark ∈ marks →
    Oid.parse text = .ok oid →
    Labels (mark ++ text) oid

/-- A name belongs to one type and has letters in upper case only. -/
lemma names_table : ∀ t ∈ table, ∀ n ∈ t.names, table.find? (fun t => t.names.contains n) = some t ∧
    Text.uppered n = n ∧ n.toList.all Char.isAlpha = true := by
  decide +kernel

/-- Every type has a name. -/
lemma names_ne_nil : ∀ t ∈ table, t.names ≠ [] := by
  decide +kernel

/-- A name of a type has letters only, in either case. -/
lemma isAlpha_of_name {label : String} {t : AttributeType} (ht : t ∈ table)
    (h : Text.uppered label ∈ t.names) : ∀ c ∈ label.toList, c.isAlpha = true := by
  intro c hc
  apply Text.isAlpha_of_isAlpha_toUpper
  apply List.all_eq_true.1 (names_table t ht _ h).2.2
  rw [Text.uppered, String.toList_map]
  exact List.mem_map_of_mem hc

/-- A label with a digit is no name. -/
lemma ofName?_eq_none {label : String} {c : Char} (hc : c ∈ label.toList) (hdigit : c.isDigit = true) :
    ofName? label = none := by
  refine List.find?_eq_none.2 fun t ht hname => ?_
  have halpha := isAlpha_of_name ht (List.contains_iff_mem.1 hname) c hc
  rw [Text.isAlpha_eq_false_of_isDigit hdigit] at halpha
  cases halpha

/-- The labels of types are words. -/
lemma isWord_of_labels {label : String} {oid : Oid} (h : Labels label oid) : IsWord label := by
  cases h with
  | name ht hname =>
    intro c hc
    have halpha := isAlpha_of_name ht hname c hc
    exact .inl (by rw [Char.isAlphanum, halpha, Bool.true_or])
  | @dotted mark text _ hmark hparse =>
    have hmarks : ∀ m ∈ marks, m.toList.all (fun c => c.isAlphanum || c == '.') = true := by
      decide +kernel
    intro c hc
    rw [String.toList_append, List.mem_append] at hc
    cases hc with
    | inl hc => simpa using List.all_eq_true.1 (hmarks mark hmark) c hc
    | inr hc =>
      cases Oid.isDigit_or_eq_of_parse hparse c hc with
      | inl hdigit => exact .inl (by rw [Char.isAlphanum, hdigit, Bool.or_true])
      | inr hdot => exact .inr hdot

/-- What stands after a mark is found. -/
lemma dropMark_append {mark : String} {cs : List Char} {c : Char} (hmark : mark ∈ marks)
    (hdigit : c.isDigit = true) : dropMark (mark.toList ++ c :: cs) = c :: cs := by
  simp only [marks, List.mem_cons, List.not_mem_nil, or_false] at hmark
  rcases hmark with rfl | rfl | rfl
  · apply dropMark.eq_3
    · rintro rest ⟨rfl, -⟩
      cases hdigit
    · rintro rest ⟨rfl, -⟩
      cases hdigit
  · rfl
  · rfl

/-- A label has one of the marks in front of what is read without it, be it the empty one. -/
lemma exists_mark (cs : List Char) : ∃ mark ∈ marks, cs = mark.toList ++ dropMark cs := by
  unfold dropMark
  split
  · exact ⟨"OID.", by decide, rfl⟩
  · exact ⟨"oid.", by decide, rfl⟩
  · exact ⟨"", by decide, rfl⟩

/-- The labels of a type are those that stand for it. -/
theorem oid?_eq_ok_iff {label : String} {oid : Oid} :
    oid? label = .ok oid ↔ Labels (Text.trimmed label) oid := by
  rw [oid?]
  generalize Text.trimmed label = name
  constructor
  · intro h
    split at h
    · rename_i known hname
      cases h
      rw [ofName?] at hname
      have hcontains := List.find?_some hname
      exact .name (List.mem_of_find?_eq_some hname) (List.contains_iff_mem.1 hcontains)
    · simp only at h
      split at h
      · split at h
        · rename_i oid' hparse
          cases h
          obtain ⟨mark, hmark, heq⟩ := exists_mark name.toList
          have hname : name = mark ++ String.ofList (dropMark name.toList) := by
            rw [← String.toList_inj, String.toList_append, String.toList_ofList]
            exact heq
          rw [hname]
          exact .dotted hmark hparse
        · cases h
      · cases h
  · intro h
    cases h with
    | name ht hname =>
      have hknown := (names_table _ ht _ hname).1
      rw [ofName?, hknown]
    | @dotted mark text _ hmark hparse =>
      -- Behind its mark a dotted label starts with a digit, and no name does.
      obtain ⟨c, cs, hcs, hdigit⟩ := Oid.exists_digit_of_parse hparse
      have hnone : ofName? (mark ++ text) = none :=
        ofName?_eq_none (by rw [String.toList_append, hcs]; simp) hdigit
      have hdotted : dropMark (mark ++ text).toList = text.toList := by
        rw [String.toList_append, hcs, dropMark_append hmark hdigit]
      simp only [hnone, hdotted, String.ofList_toList, hparse]
      rw [hcs, List.headD_cons, if_pos hdigit]

/-- A label of a type stands for it. -/
lemma oid?_of_labels {label : String} {oid : Oid} (h : Labels label oid) : oid? label = .ok oid := by
  rw [oid?_eq_ok_iff, (isWord_of_labels h).trimmed_eq]
  exact h

/-- The label that is printed for a type that has labels is one of them. -/
theorem labels_label {label : String} {oid : Oid} (h : Labels label oid) :
    Labels (AttributeType.label oid) oid := by
  rw [AttributeType.label]
  split
  · rename_i known hknown
    have ht := List.mem_of_find?_eq_some hknown
    obtain ⟨first, names, hnames⟩ := List.exists_cons_of_ne_nil (names_ne_nil known ht)
    have hmem : first ∈ known.names := hnames ▸ List.mem_cons_self
    have hupper := (names_table known ht first hmem).2.1
    have hoid : known.oid = oid := by simpa using List.find?_some hknown
    rw [hnames, List.headD_cons, ← hoid]
    exact .name ht (hupper.symm ▸ hmem)
  · rename_i hnone
    cases h with
    | @name _ t ht _ =>
      have hne := List.find?_eq_none.1 hnone t ht
      exact absurd (beq_self_eq_true t.oid) hne
    | dotted _ hparse => exact @Labels.dotted "" oid.text oid (by decide) (Oid.parse_text hparse)

end AttributeType

namespace AltNameKind

/-- Every kind of alternative names is found under its labels, which have letters and digits only. -/
lemma lookup_labels : ∀ e ∈ labels, labels.lookup e.1 = some e.2 ∧
    e.1.toList.all Char.isAlphanum = true := by
  decide +kernel

/-- A label of a kind stands for it, in either case. -/
lemma ofLabel?_of_mem {label : String} {kind : AltNameKind} (h : (Text.lowered label, kind) ∈ labels) :
    ofLabel? label = some kind :=
  (lookup_labels _ h).1

/-- The labels of kinds are words. -/
lemma isWord_of_mem {label : String} {kind : AltNameKind} (h : (Text.lowered label, kind) ∈ labels) :
    IsWord label :=
  isWord_of_lowered (lookup_labels _ h).2

end AltNameKind

end CertAuthority

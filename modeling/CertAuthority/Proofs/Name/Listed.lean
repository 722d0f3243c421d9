import CertAuthority.Proofs.Name.Printed
import CertAuthority.Proofs.Text.Entries

/-!
# Printed names in lists with semicolons

The printed form of a name escapes semicolons, but a list is cut at a semicolon whether it is escaped or not. A
printed name without semicolons is one entry of a list (`DistinguishedName.IsWritable.entries_text`). One with a
semicolon is broken off behind the backslash, so that its first entry is no name
(`DistinguishedName.IsWritable.exists_entries_text`).
-/

namespace CertAuthority

open Text (IsWord IsPiece escape)

/-! ### Scanning up to an error -/

namespace Text

/-- Characters that the scanner passes over, so that an error behind them is found. -/
def Passes (cs : List Char) : Prop :=
  ∀ rest e, split ',' rest = .error e → split ',' (cs ++ rest) = .error e

/-- The scanner passes over what stays in one piece. -/
lemma IsPiece.passes {cs : List Char} (h : IsPiece ',' cs) : Passes cs := by
  intro rest e hrest
  rw [split] at hrest ⊢
  rw [h, hrest]
  rfl

/-- The scanner passes over a comma, where it cuts. -/
lemma passes_comma : Passes [','] := by
  intro rest e hrest
  rw [List.singleton_append, split_comma, hrest]
  rfl

/-- Two rows of characters that the scanner passes over make up one. -/
lemma Passes.append {cs ds : List Char} (hcs : Passes cs) (hds : Passes ds) : Passes (cs ++ ds) := by
  intro rest e hrest
  rw [List.append_assoc]
  exact hcs _ e (hds rest e hrest)

/-- An escape at the end has nothing to stand for. -/
lemma split_backslash : split ',' ['\\'] = .error .danglingEscape := by
  rw [split, splitFrom]

/-- Escaping adds escape marks and no other character. -/
lemma mem_escape {marked cs : List Char} {c : Char} (hc : c ≠ '\\') : c ∈ escape marked cs ↔ c ∈ cs := by
  induction cs with
  | nil => rfl
  | cons d cs ih =>
    by_cases hd : d ∈ marked
    · rw [escape_cons_of_mem hd, List.mem_cons, List.mem_cons, ih, List.mem_cons, or_iff_right hc]
    · rw [escape_cons_of_not_mem hd, List.mem_cons, ih, List.mem_cons]

/-- Words have no semicolon among their characters. -/
lemma IsWord.semicolon_not_mem {s : String} (h : IsWord s) : ';' ∉ s.toList := by
  intro hc
  have hword := h ';' hc
  revert hword
  decide

end Text

open Text (Passes)

/-! ### Printed attributes -/

/-- An attribute that the textual form has room for: its type has a label, and its value is not empty and has no
blanks around it. -/
structure TypedValue.IsWritable (a : TypedValue) : Prop where
  labels : ∃ label, AttributeType.Labels label a.type
  nonempty : a.value ≠ ""
  trimmed : Text.trimmed a.value = a.value

namespace DistinguishedName

variable {a : TypedValue} {as : List TypedValue}

/-- The characters of a printed attribute up to the end of some front of its value. -/
def printedFront (a : TypedValue) (cs : List Char) : List Char :=
  (AttributeType.label a.type).toList ++ '=' :: escapeValue cs

/-- A printed attribute has its whole value behind the equals sign. -/
lemma toList_attributeText (a : TypedValue) : (attributeText a).toList = printedFront a a.value.toList := by
  simp [attributeText, printedFront]

/-- The label of an attribute that can be written is a word. -/
lemma isWord_label (h : a.IsWritable) : IsWord (AttributeType.label a.type) := by
  obtain ⟨label, hlabel⟩ := h.labels
  exact AttributeType.isWord_of_labels (AttributeType.labels_label hlabel)

/-- The scanner of components does not cut within a printed attribute. -/
lemma isPiece_printedFront (h : a.IsWritable) (cs : List Char) : IsPiece ',' (printedFront a cs) := by
  have hequals : IsPiece ',' ['='] := Text.isPiece_singleton (by decide) (by decide) (by decide)
  exact (isWord_label h).isPiece.append (hequals.append (isPiece_escapeValue cs))

/-- The semicolons of a printed attribute are those of its value. -/
lemma semicolon_mem_printedFront (h : a.IsWritable) {cs : List Char} :
    ';' ∈ printedFront a cs ↔ ';' ∈ cs := by
  have hescape : ';' ∈ escapeValue cs ↔ ';' ∈ cs := Text.mem_escape (by decide)
  rw [printedFront, List.mem_append, List.mem_cons, hescape, or_iff_right (isWord_label h).semicolon_not_mem,
    or_iff_right (by decide)]

/-- A printed attribute starts with a character of its label or with the equals sign. -/
lemma isBlank_head_printedFront (h : a.IsWritable) (cs rest : List Char) :
    ∀ c ∈ (printedFront a cs ++ rest).head?, Text.isBlank c = false := by
  have hword := isWord_label h
  rw [IsWord] at hword
  rw [printedFront]
  intro c hc
  cases hlabel : (AttributeType.label a.type).toList with
  | nil =>
    rw [hlabel] at hc
    cases hc
    decide
  | cons d label =>
    rw [hlabel] at hc hword
    cases hc
    exact (IsWord.not_special (hword c List.mem_cons_self)).1

/-- A printed attribute ends with the last character of its value. -/
lemma isBlank_getLast_attributeText (h : a.IsWritable) :
    ∀ c ∈ (attributeText a).toList.getLast?, Text.isBlank c = false := by
  have hvalue : Text.trim a.value.toList = a.value.toList := by
    simpa [Text.trimmed] using congrArg String.toList h.trimmed
  have htrim : Text.trim (escapeValue a.value.toList) = escapeValue a.value.toList := by
    have hescape := Text.trim_escape isBlank_special a.value.toList
    rwa [hvalue] at hescape
  have hne : escapeValue a.value.toList ≠ [] := by
    obtain ⟨c, cs, hcs⟩ := List.exists_cons_of_ne_nil (mt String.toList_eq_nil_iff.1 h.nonempty)
    rw [hcs, escapeValue, List.flatMap_cons]
    split <;> exact List.cons_ne_nil _ _
  have hsplit : (attributeText a).toList =
      (AttributeType.label a.type).toList ++ ['='] ++ escapeValue a.value.toList := by
    rw [toList_attributeText, printedFront, List.append_assoc, List.singleton_append]
  rw [hsplit, List.getLast?_append_of_ne_nil _ hne]
  exact fun c => Text.isBlank_getLast_of_trim htrim

/-! ### Printed names -/

/-- Printed attributes are joined by commas. -/
lemma text_cons (hne : as ≠ []) : text ⟨a :: as⟩ = attributeText a ++ "," ++ text ⟨as⟩ := by
  have hmap : as.map attributeText ≠ [] := by simpa using hne
  exact String.intercalate_cons_of_ne_nil hmap

/-- The first attribute of a printed name stands in front of a comma and the others. -/
lemma toList_text_cons (hne : as ≠ []) :
    (text ⟨a :: as⟩).toList = printedFront a a.value.toList ++ ',' :: (text ⟨as⟩).toList := by
  rw [text_cons hne, String.toList_append, String.toList_append, toList_attributeText, List.append_assoc]
  rfl

/-- A name with one attribute is printed as the attribute. -/
lemma toList_text_singleton (a : TypedValue) : (text ⟨[a]⟩).toList = printedFront a a.value.toList := by
  rw [← toList_attributeText, text, List.map_singleton, String.intercalate_singleton]

/-- A printed name starts with its first attribute. -/
lemma exists_toList_text (a : TypedValue) (as : List TypedValue) :
    ∃ rest, (text ⟨a :: as⟩).toList = printedFront a a.value.toList ++ rest := by
  by_cases has : as = []
  · subst has
    exact ⟨[], by rw [toList_text_singleton, List.append_nil]⟩
  · exact ⟨_, toList_text_cons has⟩

/-- A name with attributes is not printed as the empty text. -/
lemma toList_text_ne_nil (hne : as ≠ []) : (text ⟨as⟩).toList ≠ [] := by
  obtain ⟨a, as, rfl⟩ := List.exists_cons_of_ne_nil hne
  obtain ⟨rest, htext⟩ := exists_toList_text a as
  rw [htext, printedFront]
  simp

/-- A printed name does not end in a blank. -/
lemma isBlank_getLast_text (hne : as ≠ []) (h : ∀ a ∈ as, a.IsWritable) :
    ∀ c ∈ (text ⟨as⟩).toList.getLast?, Text.isBlank c = false := by
  induction as with
  | nil => exact absurd rfl hne
  | cons a as ih =>
    by_cases has : as = []
    · subst has
      rw [toList_text_singleton, ← toList_attributeText]
      exact isBlank_getLast_attributeText (h a List.mem_cons_self)
    · rw [toList_text_cons has, ← List.singleton_append, ← List.append_assoc,
        List.getLast?_append_of_ne_nil _ (toList_text_ne_nil has)]
      exact ih has fun b hb => h b (List.mem_cons_of_mem _ hb)

/-- Nothing is trimmed off a printed name. -/
lemma trim_text (hne : as ≠ []) (h : ∀ a ∈ as, a.IsWritable) :
    Text.trim (text ⟨as⟩).toList = (text ⟨as⟩).toList := by
  refine Text.trim_eq_self ?_ (isBlank_getLast_text hne h)
  obtain ⟨a, as, rfl⟩ := List.exists_cons_of_ne_nil hne
  obtain ⟨rest, htext⟩ := exists_toList_text a as
  rw [htext]
  exact isBlank_head_printedFront (h a List.mem_cons_self) _ rest

/-- A printed name has a semicolon where a value has one. -/
lemma semicolon_mem_text_iff (h : ∀ a ∈ as, a.IsWritable) :
    ';' ∈ (text ⟨as⟩).toList ↔ ∃ a ∈ as, ';' ∈ a.value.toList := by
  induction as with
  | nil => simp [text]
  | cons a as ih =>
    have ha := h a List.mem_cons_self
    have ih := ih fun b hb => h b (List.mem_cons_of_mem _ hb)
    by_cases has : as = []
    · subst has
      rw [toList_text_singleton, semicolon_mem_printedFront ha]
      simp
    · rw [toList_text_cons has, List.mem_append, semicolon_mem_printedFront ha, List.mem_cons, ih,
        or_iff_right (by decide : ';' ≠ ','), List.exists_mem_cons_iff]

/-- A name with a semicolon in a value is printed with a backslash before the first one, and up to there the scanner
finds no error. -/
lemma exists_front_of_semicolon (h : ∀ a ∈ as, a.IsWritable) (hmem : ∃ a ∈ as, ';' ∈ a.value.toList) :
    ∃ front back, (text ⟨as⟩).toList = front ++ '\\' :: ';' :: back ∧ ';' ∉ front ∧ Passes front ∧
      ∀ rest, ∀ c ∈ (front ++ rest).head?, Text.isBlank c = false := by
  induction as with
  | nil => simp at hmem
  | cons a as ih =>
    have ha := h a List.mem_cons_self
    by_cases hvalue : ';' ∈ a.value.toList
    · -- The name is broken off in its first value.
      obtain ⟨cs, ds, hsplit, hcs⟩ := List.eq_append_cons_of_mem hvalue
      have hprinted : printedFront a a.value.toList = printedFront a cs ++ '\\' :: ';' :: escapeValue ds := by
        rw [hsplit, printedFront, escapeValue, List.flatMap_append, printedFront, List.append_assoc]
        rfl
      obtain ⟨rest, htext⟩ := exists_toList_text a as
      refine ⟨printedFront a cs, escapeValue ds ++ rest, ?_, (semicolon_mem_printedFront ha).not.2 hcs,
        (isPiece_printedFront ha cs).passes, isBlank_head_printedFront ha cs⟩
      rw [htext, hprinted, List.append_assoc]
      rfl
    · -- It is broken off behind its first attribute.
      have hmem : ∃ b ∈ as, ';' ∈ b.value.toList := by
        rwa [List.exists_mem_cons_iff, or_iff_right hvalue] at hmem
      have has : as ≠ [] := by
        rintro rfl
        simp at hmem
      obtain ⟨front, back, htext, hfront, hpasses, -⟩ := ih (fun b hb => h b (List.mem_cons_of_mem _ hb)) hmem
      refine ⟨printedFront a a.value.toList ++ ([','] ++ front), back, ?_, ?_, ?_, fun rest => ?_⟩
      · rw [toList_text_cons has, htext]
        simp
      · rw [List.mem_append, List.mem_append, semicolon_mem_printedFront ha]
        simp [hvalue, hfront]
      · exact (isPiece_printedFront ha _).passes.append (Text.passes_comma.append hpasses)
      · rw [List.append_assoc]
        exact isBlank_head_printedFront ha _ _

end DistinguishedName

/-! ### Entries -/

/-- A name with attributes, all of which the textual form has room for. -/
structure DistinguishedName.IsWritable (dn : DistinguishedName) : Prop where
  nonempty : dn.attributes ≠ []
  attributes : ∀ a ∈ dn.attributes, a.IsWritable

namespace DistinguishedName

variable {dn : DistinguishedName} {dns : List DistinguishedName}

/-- Whether a value has a semicolon. -/
def HasSemicolon (dn : DistinguishedName) : Prop :=
  ∃ a ∈ dn.attributes, ';' ∈ a.value.toList

/-- The printed forms of names, joined by semicolons. -/
def listText (dns : List DistinguishedName) : String :=
  ";".intercalate (dns.map text)

/-- A name is read from its printed form. -/
lemma IsWritable.parse_text (h : dn.IsWritable) : parse dn.text = .ok dn := by
  have hlabels : ∀ a ∈ dn.attributes, ∃ label, AttributeType.Labels label a.type :=
    fun a ha => (h.attributes a ha).labels
  refine (parse_text_eq_ok_iff hlabels).2 ⟨fun a ha => ?_, ?_⟩
  · rw [← Text.isEmpty_trimmed_iff, (h.attributes a ha).trimmed, Bool.eq_false_iff, ne_eq, String.isEmpty_iff]
    exact (h.attributes a ha).nonempty
  · have hself : dn.attributes.map TypedValue.trimmed = dn.attributes.map id :=
      List.map_congr_left fun a ha => TypedValue.trimmed_eq_self_iff.2 (h.attributes a ha).trimmed
    rw [hself, List.map_id]

/-- A name that was read is such a name, if it has attributes and no blanks around their values. -/
lemma isWritable_of_parse {s : String} (h : parse s = .ok dn) (hne : dn.attributes ≠ [])
    (htrim : ∀ a ∈ dn.attributes, Text.trimmed a.value = a.value) : dn.IsWritable where
  nonempty := hne
  attributes a ha := ⟨(exists_labels_of_parse h ha).1, (exists_labels_of_parse h ha).2, htrim a ha⟩

/-- A printed name without semicolons is one entry of a list. -/
lemma IsWritable.entries_text (h : dn.IsWritable) (hsemicolon : ¬ dn.HasSemicolon) :
    Text.entries dn.text = [dn.text] := by
  apply Text.entries_of_not_mem
  · rwa [semicolon_mem_text_iff h.attributes]
  · exact mt String.toList_eq_nil_iff.2 (toList_text_ne_nil h.nonempty)
  · exact trim_text h.nonempty h.attributes

/-- The first entry of a printed name with a semicolon ends in a backslash. -/
lemma IsWritable.exists_entries_text (h : dn.IsWritable) (hsemicolon : dn.HasSemicolon) :
    ∃ entry rest, Text.entries dn.text = entry :: rest ∧ parse entry = .error .danglingEscape := by
  obtain ⟨front, back, htext, hfront, hpasses, hblank⟩ := exists_front_of_semicolon h.attributes hsemicolon
  have htrim : Text.trim (front ++ ['\\']) = front ++ ['\\'] := by
    refine Text.trim_eq_self (hblank _) ?_
    rw [List.getLast?_concat]
    rintro c ⟨⟩
    decide
  have hchars : dn.text.toList = front ++ ['\\'] ++ ';' :: back := by
    rw [htext, List.append_assoc, List.singleton_append]
  have hmem : ';' ∉ front ++ ['\\'] := by simpa using hfront
  obtain ⟨rest, hentries⟩ := Text.exists_entries_eq_cons hchars hmem (by simp) htrim
  refine ⟨_, rest, hentries, ?_⟩
  have hsplit : Text.split ',' (front ++ ['\\']) = .error .danglingEscape :=
    hpasses _ _ Text.split_backslash
  rw [parse, Text.components, String.toList_ofList, hsplit]
  rfl

/-- The entries of joined names are those of each of them in a row. -/
lemma entries_listText_eq_flatMap (dns : List DistinguishedName) :
    Text.entries (listText dns) = dns.flatMap fun dn => Text.entries dn.text := by
  rw [listText, Text.entries_intercalate, List.flatMap_map]

/-- Names without semicolons are the entries of their list. -/
lemma entries_listText (h : ∀ dn ∈ dns, dn.IsWritable) (hsemicolon : ∀ dn ∈ dns, ¬ dn.HasSemicolon) :
    Text.entries (listText dns) = dns.map text := by
  rw [entries_listText_eq_flatMap, ← List.flatMap_pure_eq_map]
  exact List.flatMap_congr fun dn hdn => (h dn hdn).entries_text (hsemicolon dn hdn)

/-- A list of names of which some have semicolons has an entry that is no name, behind entries that are names of the
list. -/
lemma exists_entries_listText (h : ∀ dn ∈ dns, dn.IsWritable) (hsemicolon : ∃ dn ∈ dns, dn.HasSemicolon) :
    ∃ (before : List DistinguishedName) (entry : String) (rest : List String),
      Text.entries (listText dns) = before.map text ++ entry :: rest ∧
      (∀ dn ∈ before, dn ∈ dns) ∧ parse entry = .error .danglingEscape := by
  rw [entries_listText_eq_flatMap]
  induction dns with
  | nil => simp at hsemicolon
  | cons dn dns ih =>
    have hdn := h dn List.mem_cons_self
    by_cases hfirst : dn.HasSemicolon
    · obtain ⟨entry, rest, hentries, hentry⟩ := hdn.exists_entries_text hfirst
      exact ⟨[], entry, rest ++ dns.flatMap fun dn => Text.entries dn.text, by simp [hentries], nofun, hentry⟩
    · have hrest : ∃ dn ∈ dns, dn.HasSemicolon := by
        rwa [List.exists_mem_cons_iff, or_iff_right hfirst] at hsemicolon
      obtain ⟨before, entry, rest, hentries, hbefore, hentry⟩ :=
        ih (fun dn hdn => h dn (List.mem_cons_of_mem _ hdn)) hrest
      refine ⟨dn :: before, entry, rest, ?_, ?_, hentry⟩
      · rw [List.flatMap_cons, hdn.entries_text hfirst, hentries]
        rfl
      · exact List.forall_mem_cons.2 ⟨List.mem_cons_self, fun dn hdn => List.mem_cons_of_mem _ (hbefore dn hdn)⟩

end DistinguishedName

end CertAuthority

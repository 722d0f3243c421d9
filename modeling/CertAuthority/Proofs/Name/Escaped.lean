import CertAuthority.Proofs.Name.Joined

/-!
# Values with every character escaped

A backslash takes the next character literally, so every value can be written with a backslash before each of
its characters. The text is cut as if the value were not there, but it is trimmed before the escapes are
resolved: of an escaped blank at its end only the backslash is left (`unescape_escapeEach`). So such a value is
read as it is exactly if it does not end with a blank, alone and anywhere in a list, and is refused otherwise
(`readsEscaped_parse`).
-/

namespace CertAuthority

namespace Text

/-! ### Values -/

/-- A value with a backslash before each character. -/
def escapeEach (cs : List Char) : List Char :=
  cs.flatMap fun c => ['\\', c]

/-- Whether a value ends with a blank. -/
def EndsInBlank (cs : List Char) : Prop :=
  cs.getLast?.any isBlank = true

instance : DecidablePred EndsInBlank := fun cs =>
  inferInstanceAs (Decidable (cs.getLast?.any isBlank = true))

/-- A text with all characters escaped stays in one piece, whatever the separator is. -/
lemma isPiece_escapeEach {sep : Char} (cs : List Char) : IsPiece sep (escapeEach cs) :=
  isPiece_flatMap fun c _ => isPiece_escaped c

/-- The escaped characters in front of a text are taken over. -/
lemma unescapeBare_escapeEach (cs rest : List Char) :
    unescapeBare (escapeEach cs ++ rest) = (cs ++ ·) <$> unescapeBare rest := by
  induction cs with
  | nil => simp [escapeEach]
  | cons c cs ih =>
    have hfirst : escapeEach (c :: cs) ++ rest = '\\' :: c :: (escapeEach cs ++ rest) := by
      simp [escapeEach]
    rw [hfirst, unescapeBare, ih, Functor.map_map]
    rfl

/-- What stands before a last backslash starts with a backslash. -/
lemma exists_escapeEach_append (cs tail : List Char) :
    ∃ rest, escapeEach cs ++ '\\' :: tail = '\\' :: rest := by
  cases cs with
  | nil => exact ⟨tail, rfl⟩
  | cons c cs => exact ⟨_, rfl⟩

/-- Trimming takes a blank at the end of a value away from its backslash. -/
lemma trim_escapeEach_concat (cs : List Char) (c : Char) :
    trim (escapeEach (cs ++ [c])) = escapeEach cs ++ '\\' :: if isBlank c then [] else [c] := by
  have hsplit : escapeEach (cs ++ [c]) = escapeEach cs ++ ['\\', c] := by
    simp [escapeEach]
  obtain ⟨rest, hfirst⟩ := exists_escapeEach_append cs [c]
  have hescape : ¬ isBlank '\\' = true := by decide
  have hfront : (escapeEach cs ++ ['\\', c]).dropWhile isBlank = escapeEach cs ++ ['\\', c] := by
    rw [hfirst, List.dropWhile_cons_of_neg hescape]
  rw [hsplit, trim, hfront, List.reverse_append]
  cases hc : isBlank c <;> simp [hc, hescape]

/-- A value with every character escaped stands for itself, unless it ends with a blank. Then its last escape
is broken off. -/
theorem unescape_escapeEach (cs : List Char) :
    unescape (escapeEach cs) = if EndsInBlank cs then .error .danglingEscape else .ok cs := by
  obtain rfl | ⟨front, c, rfl⟩ := List.eq_nil_or_concat cs
  · have hblank : ¬ EndsInBlank [] := by simp [EndsInBlank]
    rw [if_neg hblank]
    rfl
  · rw [List.concat_eq_append]
    have hblank : EndsInBlank (front ++ [c]) ↔ isBlank c = true := by
      simp [EndsInBlank]
    obtain ⟨rest, hfirst⟩ := exists_escapeEach_append front (if isBlank c then [] else [c])
    have hbare : unescape (escapeEach (front ++ [c])) =
        unescapeBare (escapeEach front ++ '\\' :: if isBlank c then [] else [c]) := by
      rw [unescape, trim_escapeEach_concat, hfirst]
      rfl
    rw [hbare, unescapeBare_escapeEach]
    cases hc : isBlank c with
    | true =>
      rw [if_pos rfl, if_pos (hblank.2 hc), unescapeBare]
      rfl
    | false =>
      have hend : ¬ EndsInBlank (front ++ [c]) := by rw [hblank, hc]; exact Bool.false_ne_true
      rw [if_neg Bool.false_ne_true, if_neg hend, unescapeBare, unescapeBare]
      rfl

/-- A value with all characters escaped is read as it is unless it ends in a blank. -/
lemma nonemptyValue_escapeEach {label value : String} (h : value ≠ "") :
    nonemptyValue label (escapeEach value.toList) =
      if EndsInBlank value.toList then .error .danglingEscape else .ok value := by
  rw [nonemptyValue, unescape_escapeEach]
  split
  · rfl
  · have hne : value.toList.isEmpty = false := by simpa using h
    rw [ok_bind, hne, if_neg Bool.false_ne_true, String.ofList_toList]
    rfl

/-! ### Components in lists -/

section

variable {α : Type} {entry : String → List Char → Except ParseError α}

/-- Texts that are cut are read one after the other where they were joined, and the first error counts. -/
lemma components_intercalate {ts : List String} (hne : ts ≠ [])
    (h : ∀ t ∈ ts, ∃ ps, split ',' t.toList = .ok ps) :
    (∃ ps, split ',' (",".intercalate ts).toList = .ok ps) ∧
      components entry (",".intercalate ts) = List.flatten <$> ts.mapM (components entry) := by
  induction ts with
  | nil => exact absurd rfl hne
  | cons t ts ih =>
    rw [List.forall_mem_cons] at h
    cases ts with
    | nil =>
      rw [String.intercalate_singleton]
      refine ⟨h.1, ?_⟩
      rw [List.mapM_cons, List.mapM_nil]
      cases components entry t with
      | error e => rfl
      | ok as => exact congrArg Except.ok (List.append_nil as).symm
    | cons u ts =>
      obtain ⟨ps, hps⟩ := h.1
      obtain ⟨⟨qs, hqs⟩, hread⟩ := ih (List.cons_ne_nil u ts) h.2
      have hjoined := split_joined hps hqs
      rw [String.intercalate_cons_cons]
      refine ⟨⟨_, hjoined⟩, ?_⟩
      rw [components, hqs, ok_bind] at hread
      have hall : (t :: u :: ts).mapM (components entry) = (do
          let as ← readComponents entry ps
          let ass ← (u :: ts).mapM (components entry)
          return as :: ass) := by
        rw [List.mapM_cons, components, hps, ok_bind]
      -- Both sides read the first text and then the others, and stop at the first error.
      rw [components, hjoined, ok_bind, readComponents_append, hread, hall]
      cases readComponents entry ps with
      | error e => rfl
      | ok as => cases (u :: ts).mapM (components entry) <;> rfl

/-- The component with a label and a value with every character escaped. -/
def escapedComponent (label value : String) : String :=
  label ++ "=" ++ String.ofList (escapeEach value.toList)

/-- The scanner goes over such a component as a whole. -/
lemma exists_split_escapedComponent {label value : String} (hword : IsWord label) :
    ∃ ps, split ',' (escapedComponent label value).toList = .ok ps := by
  have hequals : IsPiece ',' ['='] := isPiece_singleton (by decide) (by decide) (by decide)
  have hpiece := hword.isPiece.append (hequals.append (isPiece_escapeEach value.toList))
  have hchars : (escapedComponent label value).toList = label.toList ++ (['='] ++ escapeEach value.toList) := by
    simp [escapedComponent]
  have hsplit := split_intercalate (by decide) (by decide) (List.cons_ne_nil _ []) (List.forall_mem_singleton.2 hpiece)
  rw [List.intercalate_singleton, ← hchars] at hsplit
  exact ⟨_, hsplit⟩

/-- By itself such a component is read as its entry is. -/
lemma components_escapedComponent {label value : String} (hword : IsWord label) :
    components entry (escapedComponent label value) =
      (fun a => [a]) <$> entry label (escapeEach value.toList) := by
  have htext : escapedComponent label value = componentsText [(label, escapeEach value.toList)] := by
    simp [escapedComponent, componentsText]
  rw [htext, components_text]
  · rw [List.mapM_cons]
    cases entry label (escapeEach value.toList) <;> rfl
  · exact List.forall_mem_singleton.2 hword
  · exact List.forall_mem_singleton.2 (isPiece_escapeEach _)

/-- Texts that are read are cut. -/
lemma exists_split_of_mapM {ts : List String} {ass : List (List α)} (h : ts.mapM (components entry) = .ok ass) :
    ∀ t ∈ ts, ∃ ps, split ',' t.toList = .ok ps := by
  intro t ht
  obtain ⟨as, has⟩ := exists_mapM_eq_ok_iff.1 ⟨ass, h⟩ t ht
  obtain ⟨ps, hps, -⟩ := bind_eq_ok_iff.1 has
  exact ⟨ps, hps⟩

/-- In the place of such a component in a list of texts that are read, a parser reads what the value stands for,
or finds that its last escape is broken off. -/
def ReadsEscaped (parse : String → Except ParseError (List α)) (label value : String) (a : α) : Prop :=
  ∀ before after as bs, before.mapM parse = .ok as → after.mapM parse = .ok bs →
    parse (",".intercalate (before ++ escapedComponent label value :: after)) =
      if EndsInBlank value.toList then .error .danglingEscape else .ok (as.flatten ++ a :: bs.flatten)

/-- A parser that reads the value under the label reads the component anywhere in a list. -/
lemma readsEscaped_components {label value : String} {a : α} (hword : IsWord label)
    (hentry : entry label (escapeEach value.toList) =
      if EndsInBlank value.toList then .error .danglingEscape else .ok a) :
    ReadsEscaped (components entry) label value a := by
  intro before after as bs hbefore hafter
  have hsplit : ∀ t ∈ before ++ escapedComponent label value :: after, ∃ ps, split ',' t.toList = .ok ps := by
    rw [List.forall_mem_append, List.forall_mem_cons]
    exact ⟨exists_split_of_mapM hbefore, exists_split_escapedComponent hword, exists_split_of_mapM hafter⟩
  rw [(components_intercalate (by simp) hsplit).2, List.mapM_append, hbefore, ok_bind, List.mapM_cons,
    components_escapedComponent hword, hentry]
  split
  · rfl
  · rw [hafter]
    simp [Functor.map, Except.map, pure, Except.pure, bind, Except.bind]

end

end Text

open Text (ReadsEscaped EndsInBlank escapeEach escapedComponent)

/-- A name is read as the components of its text. -/
lemma DistinguishedName.attributes_parse (s : String) :
    attributes <$> parse s = Text.components readAttribute s := by
  rw [parse]
  cases Text.components readAttribute s <;> rfl

/-- An attribute of a name with all characters of its value escaped is read unless the value ends in a blank. -/
lemma DistinguishedName.readAttribute_escapeEach {label value : String} {type : Oid}
    (h : AttributeType.Labels label type) (hvalue : value ≠ "") :
    readAttribute label (escapeEach value.toList) =
      if EndsInBlank value.toList then .error .danglingEscape else .ok ⟨type, value⟩ := by
  rw [readAttribute, AttributeType.oid?_of_labels h, ok_bind, Text.nonemptyValue_escapeEach hvalue]
  split <;> rfl

/-- An alternative name with all characters of its value escaped is read unless the value ends in a blank. -/
lemma AltName.read_escapeEach {label value : String} {kind : AltNameKind}
    (h : (Text.lowered label, kind) ∈ AltNameKind.labels) (hvalue : value ≠ "") :
    read label (escapeEach value.toList) =
      if EndsInBlank value.toList then .error .danglingEscape else .ok ⟨kind, value⟩ := by
  rw [read, AltNameKind.ofLabel?_of_mem h]
  simp only [Text.nonemptyValue_escapeEach hvalue]
  split <;> rfl

namespace DirectoryAttribute

/-- The attribute of a place of birth. -/
def bornIn (place : String) : DirectoryAttribute :=
  ⟨Oid.placeOfBirth, .ofText Der.Tag.utf8String place⟩

/-- A place of birth with all characters escaped is read unless it ends in a blank. -/
lemma read_escapeEach {label value : String} (h : Text.lowered label = "placeofbirth") (hvalue : value ≠ "") :
    read label (escapeEach value.toList) =
      if EndsInBlank value.toList then .error .danglingEscape else .ok (bornIn value) := by
  have hform : forms.lookup "placeofbirth" = some (Oid.placeOfBirth, placeTlv?) := rfl
  have hplace : placeTlv? value = some (.ofText Der.Tag.utf8String value) := by
    rw [placeTlv?, if_neg (by simpa using hvalue)]
  rw [read, Text.unescape_escapeEach, h, hform]
  split
  · rfl
  · rw [ok_bind]
    simp only [String.ofList_toList, hplace]
    rfl

end DirectoryAttribute

namespace Text

/-- Under every label of a name and of an alternative name and under that of a place of birth, a value with every
character escaped is read as it is, alone and anywhere in a list, unless it ends with a blank. Then it is
refused for a broken escape. -/
theorem readsEscaped_parse {value : String} (hvalue : value ≠ "") :
    (∀ label type, AttributeType.Labels label type →
      ReadsEscaped (fun s => DistinguishedName.attributes <$> DistinguishedName.parse s) label value
        ⟨type, value⟩) ∧
    (∀ label kind, (lowered label, kind) ∈ AltNameKind.labels →
      ReadsEscaped AltName.parse label value ⟨kind, value⟩) ∧
    ∀ label, lowered label = "placeofbirth" →
      ReadsEscaped DirectoryAttribute.parse label value (DirectoryAttribute.bornIn value) := by
  refine ⟨fun label type hlabel => ?_, fun label kind hlabel => ?_, fun label hlabel => ?_⟩
  · rw [funext DistinguishedName.attributes_parse]
    exact readsEscaped_components (AttributeType.isWord_of_labels hlabel)
      (DistinguishedName.readAttribute_escapeEach hlabel hvalue)
  · exact readsEscaped_components (AltNameKind.isWord_of_mem hlabel) (AltName.read_escapeEach hlabel hvalue)
  · have hword : IsWord label := isWord_of_lowered (by rw [hlabel]; decide)
    exact readsEscaped_components hword (DirectoryAttribute.read_escapeEach hlabel hvalue)

/-- A value of separators, quotes and a leading blank between two other attributes, a separator before a blank
component, and a place that ends with a backslash. -/
theorem sample_escaped :
    DistinguishedName.attributes <$> DistinguishedName.parse
        (",".intercalate ["O=b", escapedComponent "cn" " \"=,", "C=SE"]) =
      .ok [⟨⟨[85, 4, 10], rfl⟩, "b"⟩, ⟨.commonName, " \"=,"⟩, ⟨⟨[85, 4, 6], rfl⟩, "SE"⟩] ∧
    AltName.parse (",".intercalate [escapedComponent "DNS" "a,", ""]) = .ok [⟨.dnsName, "a,"⟩] ∧
    DirectoryAttribute.parse (",".intercalate [escapedComponent "placeOfBirth" "a\\"]) =
      .ok [DirectoryAttribute.bornIn "a\\"] := by
  have hcn : AttributeType.Labels "cn" .commonName :=
    @AttributeType.Labels.name "cn" ⟨["CN", "COMMONNAME"], .commonName, .directory⟩
      (by decide +kernel) (by decide +kernel)
  have hname := (@readsEscaped_parse " \"=," (by decide)).1 "cn" .commonName hcn
  have halt := (@readsEscaped_parse "a," (by decide)).2.1 "DNS" .dnsName (by decide +kernel)
  have hplace := (@readsEscaped_parse "a\\" (by decide)).2.2 "placeOfBirth" (by decide +kernel)
  refine ⟨?_, ?_, ?_⟩
  · exact (hname ["O=b"] ["C=SE"] [[⟨⟨[85, 4, 10], rfl⟩, "b"⟩]] [[⟨⟨[85, 4, 6], rfl⟩, "SE"⟩]]
      (by decide +kernel) (by decide +kernel)).trans (if_neg (by decide))
  · exact (halt [] [""] [] [[]] rfl (by decide +kernel)).trans (if_neg (by decide))
  · exact (hplace [] [] [] [] rfl rfl).trans (if_neg (by decide))

/-- Values that end with a blank are not read as they are. -/
theorem exists_escaped_not_read :
    DistinguishedName.parse (escapedComponent "CN" "a ") = .error .danglingEscape ∧
      AltName.parse (escapedComponent "dnsName" "a ") = .error .danglingEscape ∧
      DirectoryAttribute.parse (escapedComponent "placeOfBirth" "a ") = .error .danglingEscape := by
  decide +kernel

end Text

end CertAuthority

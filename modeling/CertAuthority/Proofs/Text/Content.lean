import Mathlib.Data.List.TakeWhile
import CertAuthority.Proofs.Error
import CertAuthority.Text.Escaped

/-!
# Texts with content

Settings are texts, and a text of blanks counts as none. What is left of a text after trimming, of a list
after its blank entries are dropped and of a list of components after reading is there exactly if there is
something other than blanks.
-/

namespace CertAuthority.Text

/-- A text that has something other than blanks. -/
def HasContent (cs : List Char) : Prop :=
  ∃ c ∈ cs, isBlank c = false

instance : DecidablePred HasContent :=
  List.decidableBEx fun c => isBlank c = false

/-- A text has content exactly if it is not blank. -/
lemma isAllBlank_eq_false_iff {cs : List Char} : isAllBlank cs = false ↔ HasContent cs := by
  simp [isAllBlank, HasContent]

/-- Nothing is left without the blanks in front exactly if there is no content. -/
lemma dropWhile_isBlank_eq_nil_iff {cs : List Char} :
    cs.dropWhile isBlank = [] ↔ ¬ HasContent cs := by
  simp [List.dropWhile_eq_nil_iff, HasContent]

/-- The blanks in front are no content. -/
lemma hasContent_dropWhile {cs : List Char} : HasContent (cs.dropWhile isBlank) ↔ HasContent cs := by
  induction cs with
  | nil => rfl
  | cons c cs ih =>
    cases hc : isBlank c with
    | true => simpa [List.dropWhile_cons, HasContent, hc] using ih
    | false => simp [hc]

/-- Something is left after trimming exactly if there was something other than blanks. -/
lemma trim_eq_nil_iff {cs : List Char} : trim cs = [] ↔ ¬ HasContent cs := by
  have hreverse : HasContent (cs.dropWhile isBlank).reverse ↔ HasContent cs := by
    have hfront : HasContent (cs.dropWhile isBlank) ↔ HasContent cs := hasContent_dropWhile
    rw [← hfront]
    simp [HasContent]
  rw [trim, List.reverse_eq_nil_iff, dropWhile_isBlank_eq_nil_iff, hreverse]

/-- A text has content exactly if it is not empty without its outer blanks. -/
lemma isEmpty_trimmed_iff {s : String} : (trimmed s).isEmpty = false ↔ HasContent s.toList := by
  rw [Bool.eq_false_iff, ne_eq, String.isEmpty_iff, trimmed, String.ofList_eq_empty_iff, trim_eq_nil_iff,
    not_not]

/-- Reading a list of components gives something exactly if a component has content. -/
lemma readComponents_ne_nil_iff {α : Type} {entry : String → List Char → Except ParseError α}
    {pieces : List (List Char)} {as : List α} (h : readComponents entry pieces = .ok as) :
    as ≠ [] ↔ ∃ piece ∈ pieces, HasContent piece := by
  induction pieces generalizing as with
  | nil =>
    cases h
    simp
  | cons piece pieces ih =>
    rw [readComponents] at h
    cases hblank : isAllBlank piece with
    | true =>
      have hpiece : ¬ HasContent piece := by simp [← isAllBlank_eq_false_iff, hblank]
      rw [hblank, if_pos rfl] at h
      simpa [hpiece] using ih h
    | false =>
      have hpiece := isAllBlank_eq_false_iff.1 hblank
      rw [hblank, if_neg Bool.false_ne_true] at h
      split at h
      · cases h
      · obtain ⟨first, -, h⟩ := bind_eq_ok_iff.1 h
        obtain ⟨rest, -, h⟩ := bind_eq_ok_iff.1 h
        cases h
        simp [hpiece]

/-- Whether a list separated by semicolons has an entry with content. -/
def HasEntry (text : String) : Prop :=
  ∃ piece ∈ cut ';' text.toList, HasContent piece

instance : DecidablePred HasEntry := fun text =>
  List.decidableBEx HasContent (cut ';' text.toList)

/-- A text has entries exactly if there is content between its semicolons. -/
lemma entries_ne_nil_iff {text : String} : entries text ≠ [] ↔ HasEntry text := by
  have hentry (piece : List Char) :
      (if (trim piece).isEmpty then none else some (String.ofList (trim piece))) = none ↔
        ¬ HasContent piece := by
    rw [← trim_eq_nil_iff, ← List.isEmpty_iff]
    simp
  simp only [entries, ne_eq, List.filterMap_eq_nil_iff, List.forall_mem_map, hentry, HasEntry]
  simp

/-- The pieces between the commas of a text, or nothing if a quote or an escape is broken. -/
def pieces (text : String) : List (List Char) :=
  (split ',' text.toList).toOption.getD []

/-- Whether a comma separated text has a component with content. -/
def HasComponent (text : String) : Prop :=
  ∃ piece ∈ pieces text, HasContent piece

instance : DecidablePred HasComponent := fun text =>
  List.decidableBEx HasContent (pieces text)

/-- Something is read of a text exactly if one of its components has content. -/
lemma components_ne_nil_iff {α : Type} {entry : String → List Char → Except ParseError α} {text : String}
    {as : List α} (h : components entry text = .ok as) : as ≠ [] ↔ HasComponent text := by
  obtain ⟨found, hfound, h⟩ := bind_eq_ok_iff.1 h
  have hpieces : pieces text = found := by
    rw [pieces, hfound]
    rfl
  rw [readComponents_ne_nil_iff h, HasComponent, hpieces]

end CertAuthority.Text

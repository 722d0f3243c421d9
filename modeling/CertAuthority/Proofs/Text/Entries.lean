import Mathlib.Data.List.DropRight
import CertAuthority.Proofs.Text.Spaced

/-!
# Lists with semicolons

A list of texts is cut at every semicolon, escaped or not. So a list that is joined has the entries of its parts
(`entries_intercalate`). A trimmed part without semicolons is one entry (`entries_of_not_mem`), and one that has a
semicolon is broken off there (`exists_entries_eq_cons`).
-/

namespace CertAuthority.Text

/-! ### Cutting -/

/-- Entries are cut at every separator. -/
lemma cut_eq_splitOn (sep : Char) (cs : List Char) : cut sep cs = cs.splitOn sep := by
  induction cs with
  | nil => rfl
  | cons c cs ih =>
    obtain ⟨piece, pieces, hpieces⟩ := List.exists_cons_of_ne_nil (List.splitOnP_ne_nil (· == sep) cs)
    rw [List.splitOn_eq_splitOnP] at ih ⊢
    rw [cut, ih, List.splitOnP_cons_eq_if_modifyHead, hpieces, pushFront, List.modifyHead_cons]
    simp only [beq_iff_eq]

/-- A text that is joined by a separator is cut there. -/
lemma cut_append (sep : Char) (as bs : List Char) : cut sep (as ++ sep :: bs) = cut sep as ++ cut sep bs := by
  simp only [cut_eq_splitOn, List.splitOn_eq_splitOnP]
  exact List.splitOnP_append_cons as bs (beq_self_eq_true sep)

/-- A text without the separator is not cut. -/
lemma cut_of_not_mem {sep : Char} {cs : List Char} (h : sep ∉ cs) : cut sep cs = [cs] := by
  rw [cut_eq_splitOn, List.splitOn_eq_splitOnP]
  exact List.splitOnP_eq_singleton fun c hc => beq_eq_false_iff_ne.2 fun e => h (e ▸ hc)

/-! ### Trimming -/

/-- Trimming leaves a text as it is if its first and its last character are no blanks. -/
lemma trim_eq_self {cs : List Char} (hfirst : ∀ c ∈ cs.head?, isBlank c = false)
    (hlast : ∀ c ∈ cs.getLast?, isBlank c = false) : trim cs = cs := by
  have hdrop : ∀ ds : List Char, (∀ c ∈ ds.head?, isBlank c = false) → ds.dropWhile isBlank = ds := by
    intro ds hds
    cases ds with
    | nil => rfl
    | cons d ds => exact List.dropWhile_cons_of_neg (Bool.eq_false_iff.1 (hds d rfl))
  rw [← List.head?_reverse] at hlast
  rw [trim, hdrop cs hfirst, hdrop cs.reverse hlast, List.reverse_reverse]

/-- The last character of what is left after trimming is no blank. -/
lemma isBlank_getLast_trim {cs : List Char} {c : Char} (hc : c ∈ (trim cs).getLast?) : isBlank c = false := by
  rw [trim, List.getLast?_reverse] at hc
  have hnot := List.head?_dropWhile_not isBlank (cs.dropWhile isBlank).reverse
  rw [Option.mem_def.1 hc] at hnot
  simpa using hnot

/-- The last character of a trimmed text is no blank. -/
lemma isBlank_getLast_of_trim {cs : List Char} {c : Char} (h : trim cs = cs) (hc : c ∈ cs.getLast?) :
    isBlank c = false :=
  isBlank_getLast_trim (h.symm ▸ hc)

/-- Trimming leaves nothing to trim. -/
lemma trim_trim (cs : List Char) : trim (trim cs) = trim cs := by
  refine trim_eq_self (fun c hc => ?_) fun c hc => isBlank_getLast_trim hc
  obtain ⟨rest, hrest⟩ : trim cs <+: cs.dropWhile isBlank := List.rdropWhile_prefix isBlank _
  have hfirst : (cs.dropWhile isBlank).head? = some c := by
    rw [← hrest, List.head?_append, Option.mem_def.1 hc, Option.some_or]
  have hnot := List.head?_dropWhile_not isBlank cs
  rw [hfirst] at hnot
  simpa using hnot

/-- Trimming twice is trimming once. -/
lemma trimmed_trimmed (s : String) : trimmed (trimmed s) = trimmed s := by
  rw [trimmed, trimmed, String.toList_ofList, trim_trim]

/-! ### Entries -/

/-- The entries of texts that are joined by a semicolon are those of both. -/
lemma entries_append (s t : String) : entries (s ++ ";" ++ t) = entries s ++ entries t := by
  have hchars : (s ++ ";" ++ t).toList = s.toList ++ ';' :: t.toList := by
    rw [String.toList_append, String.toList_append, List.append_assoc]
    rfl
  rw [entries, hchars, cut_append, List.map_append, List.filterMap_append, entries, entries]

/-- A joined list has the entries of its parts. -/
lemma entries_intercalate (texts : List String) : entries (";".intercalate texts) = texts.flatMap entries := by
  induction texts with
  | nil => rfl
  | cons s texts ih =>
    cases texts with
    | nil => simp
    | cons t texts =>
      rw [String.intercalate_cons_cons, entries_append, ih]
      rfl

/-- A text whose first part, up to a semicolon, is trimmed has this part as its first entry. -/
lemma exists_entries_eq_cons {text : String} {front back : List Char} (htext : text.toList = front ++ ';' :: back)
    (hmem : ';' ∉ front) (hne : front ≠ []) (htrim : trim front = front) :
    ∃ rest, entries text = String.ofList front :: rest := by
  have hfront : front.isEmpty = false := List.isEmpty_eq_false_iff.2 hne
  rw [entries, htext, cut_append, cut_of_not_mem hmem, List.singleton_append, List.map_cons, htrim,
    List.filterMap_cons, hfront]
  exact ⟨_, rfl⟩

/-- A trimmed text without semicolons is an entry. -/
lemma entries_of_not_mem {text : String} (hmem : ';' ∉ text.toList) (hne : text ≠ "")
    (htrim : trim text.toList = text.toList) : entries text = [text] := by
  rw [entries, cut_of_not_mem hmem, List.map_singleton, htrim]
  simp [hne]

end CertAuthority.Text

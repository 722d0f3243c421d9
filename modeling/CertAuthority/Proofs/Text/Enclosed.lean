import CertAuthority.Proofs.Text.Pieces

/-!
# Values that are written with escapes

A value is written bare, with a backslash before each character that has a meaning, or between double
quotes, with a backslash before each quote and each backslash. Both are pieces. The enclosed form carries
every value (`unescape_enclose`), the bare form every value without its outer blanks (`unescape_escape`).
-/

namespace CertAuthority.Text

/-- A value whose escapes are complete is read exactly if it is not empty. -/
lemma nonemptyValue_eq_ok_iff {label : String} {raw cs : List Char} {value : String}
    (h : unescape raw = .ok cs) :
    nonemptyValue label raw = .ok value ↔ cs ≠ [] ∧ String.ofList cs = value := by
  rw [nonemptyValue, h, ok_bind]
  cases cs with
  | nil => simp
  | cons c cs => simp [pure_eq_ok_iff]

/-! ### Outer blanks -/

/-- A replacement of characters that leaves the blanks and puts something other than blanks in the place
of the others. -/
def KeepsBlanks (f : Char → List Char) : Prop :=
  ∀ c, if isBlank c then f c = [c] else f c ≠ [] ∧ ∀ d ∈ f c, isBlank d = false

section

variable {f : Char → List Char}

/-- The replacement may be read from behind. -/
lemma KeepsBlanks.reverse (h : KeepsBlanks f) : KeepsBlanks (List.reverse ∘ f) := by
  simpa only [KeepsBlanks, Function.comp_apply, List.reverse_eq_cons_iff, List.reverse_nil, List.nil_append,
    List.mem_reverse, ne_eq, List.reverse_eq_nil_iff] using h

/-- The replacement and dropping blanks in front may change places. -/
lemma KeepsBlanks.dropWhile (h : KeepsBlanks f) (cs : List Char) :
    (cs.flatMap f).dropWhile isBlank = (cs.dropWhile isBlank).flatMap f := by
  induction cs with
  | nil => rfl
  | cons c cs ih =>
    have hc := h c
    cases hb : isBlank c with
    | true =>
      rw [hb, if_pos rfl] at hc
      rw [List.flatMap_cons, hc, List.singleton_append, List.dropWhile_cons_of_pos hb, ih,
        List.dropWhile_cons_of_pos hb]
    | false =>
      rw [hb, if_neg Bool.false_ne_true] at hc
      obtain ⟨d, ds, hd⟩ := List.exists_cons_of_ne_nil hc.1
      have hfirst : isBlank d = false := hc.2 d (hd ▸ List.mem_cons_self)
      simp [hb, hd, hfirst]

/-- Such a replacement and trimming may change places. -/
lemma KeepsBlanks.trim (h : KeepsBlanks f) (cs : List Char) :
    trim (cs.flatMap f) = (Text.trim cs).flatMap f := by
  rw [Text.trim, h.dropWhile, List.reverse_flatMap, h.reverse.dropWhile, List.reverse_flatMap, Text.trim]
  congr 1
  funext c
  exact List.reverse_reverse (f c)

end

/-! ### Escapes -/

/-- A value with a backslash before each marked character. -/
def escape (marked cs : List Char) : List Char :=
  cs.flatMap fun c => if marked.contains c then ['\\', c] else [c]

section

variable {marked : List Char}

/-- There is nothing to escape in an empty text. -/
lemma escape_nil : escape marked [] = [] :=
  rfl

/-- A marked character is escaped. -/
lemma escape_cons_of_mem {c : Char} (h : c ∈ marked) (cs : List Char) :
    escape marked (c :: cs) = '\\' :: c :: escape marked cs := by
  simp [escape, h]

/-- Any other character stays as it is. -/
lemma escape_cons_of_not_mem {c : Char} (h : c ∉ marked) (cs : List Char) :
    escape marked (c :: cs) = c :: escape marked cs := by
  simp [escape, h]

/-- A value whose quotes and backslashes are escaped is what its escaped form stands for. -/
lemma unescapeBare_escape (hquote : '"' ∈ marked) (hescape : '\\' ∈ marked) (cs : List Char) :
    unescapeBare (escape marked cs) = .ok cs := by
  induction cs with
  | nil => rw [escape_nil, unescapeBare]
  | cons c cs ih =>
    by_cases hc : c ∈ marked
    · rw [escape_cons_of_mem hc, unescapeBare, ih]
      rfl
    · have hcq : c ≠ '"' := fun e => hc (e ▸ hquote)
      have hce : c ≠ '\\' := fun e => hc (e ▸ hescape)
      rw [escape_cons_of_not_mem hc, unescapeBare, ih]
      · rfl
      · simpa using hcq
      · simp [hce]
      · simp [hce]

/-- Before a closing quote such a form stands for the same value. -/
lemma unescapeQuoted_escape (hquote : '"' ∈ marked) (hescape : '\\' ∈ marked) (cs : List Char) :
    unescapeQuoted (escape marked cs ++ ['"']) = .ok cs := by
  induction cs with
  | nil => rw [escape_nil, List.nil_append, unescapeQuoted]
  | cons c cs ih =>
    by_cases hc : c ∈ marked
    · rw [escape_cons_of_mem hc, List.cons_append, List.cons_append, unescapeQuoted, ih]
      rfl
    · have hcq : c ≠ '"' := fun e => hc (e ▸ hquote)
      have hce : c ≠ '\\' := fun e => hc (e ▸ hescape)
      rw [escape_cons_of_not_mem hc, List.cons_append, unescapeQuoted, ih]
      · rfl
      · simp [hcq]
      · simp [hcq]
      · simp [hce]
      · simp [hce]

/-- The outer blanks of a value are those of its escaped form. -/
lemma trim_escape (h : ∀ c ∈ marked, isBlank c = false) (cs : List Char) :
    trim (escape marked cs) = escape marked (trim cs) := by
  apply KeepsBlanks.trim
  intro c
  by_cases hc : c ∈ marked
  · simpa [hc, h c hc] using (by decide : isBlank '\\' = false)
  · simp [hc]

/-- An escaped form stands for its value without outer blanks. -/
lemma unescape_escape (h : ∀ c ∈ marked, isBlank c = false) (hquote : '"' ∈ marked)
    (hescape : '\\' ∈ marked) (cs : List Char) : unescape (escape marked cs) = .ok (trim cs) := by
  rw [unescape, trim_escape h]
  split
  case h_1 rest hfirst =>
    cases ht : trim cs with
    | nil => simp [ht, escape_nil] at hfirst
    | cons c cs =>
      by_cases hc : c ∈ marked
      · simp [ht, escape_cons_of_mem hc] at hfirst
      · rw [ht, escape_cons_of_not_mem hc, List.cons.injEq] at hfirst
        exact absurd (hfirst.1 ▸ hquote) hc
  case h_2 => exact unescapeBare_escape hquote hescape _

/-- An escaped text stays in one piece if the separator, quotes and backslashes are escaped. -/
lemma isPiece_escape {sep : Char} (hsep : sep ∈ marked) (hquote : '"' ∈ marked)
    (hescape : '\\' ∈ marked) (cs : List Char) : IsPiece sep (escape marked cs) := by
  apply isPiece_flatMap
  intro c _
  cases hc : marked.contains c with
  | true => exact isPiece_escaped c
  | false =>
    have hc : c ∉ marked := by simpa using hc
    exact isPiece_singleton (fun e => hc (e ▸ hsep)) (fun e => hc (e ▸ hescape))
      (fun e => hc (e ▸ hquote))

end

/-! ### Quotes -/

/-- The characters with a meaning between quotes. -/
def enclosedMarks : List Char :=
  ['"', '\\']

/-- A value between double quotes. -/
def enclose (cs : List Char) : List Char :=
  '"' :: (escape enclosedMarks cs ++ ['"'])

/-- An enclosed text has no outer blanks. -/
lemma trim_enclose (cs : List Char) : trim (enclose cs) = enclose cs := by
  have hquote : ¬ isBlank '"' = true := by decide
  simp [trim, enclose, hquote]

/-- The enclosed form of a value stands for the value. -/
lemma unescape_enclose (cs : List Char) : unescape (enclose cs) = .ok cs := by
  rw [unescape, trim_enclose]
  exact unescapeQuoted_escape (by decide) (by decide) cs

/-- Inside quotes an escaped value is scanned without an end or a cut. -/
lemma splitFrom_escape {sep : Char} (cs rest : List Char) :
    splitFrom sep true (escape enclosedMarks cs ++ rest) =
      ((escape enclosedMarks cs).foldr pushFront ·) <$> splitFrom sep true rest := by
  induction cs with
  | nil => simp [escape_nil]
  | cons c cs ih =>
    by_cases hc : c ∈ enclosedMarks
    · rw [escape_cons_of_mem hc, List.cons_append, List.cons_append, splitFrom_escaped, ih,
        Functor.map_map]
      rfl
    · have hne : c ≠ '"' ∧ c ≠ '\\' := by simpa [enclosedMarks] using hc
      rw [escape_cons_of_not_mem hc, List.cons_append, splitFrom_cons _ hne.2 hne.1, ih,
        Functor.map_map]
      simp

/-- An enclosed text stays in one piece, whatever the separator is. -/
lemma isPiece_enclose {sep : Char} (cs : List Char) : IsPiece sep (enclose cs) := by
  intro rest
  rw [enclose, List.cons_append, splitFrom_quote, List.append_assoc, Bool.not_false, splitFrom_escape,
    List.singleton_append, splitFrom_quote, Functor.map_map, Functor.map_map, Bool.not_true]
  simp only [List.foldr_cons, List.foldr_append, List.foldr_nil]

end CertAuthority.Text

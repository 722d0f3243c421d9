import Mathlib.Data.List.Induction
import Mathlib.Data.Nat.Bits
import Mathlib.Data.Set.Card
import Mathlib.Order.Lattice.Nat
import CertAuthority.Proofs.Text.Pieces

/-!
# Texts and the pieces they are cut into

Which quotes of a text count and which escapes are complete is said here without the scanner (`HasQuotes`). A text
is cut exactly if its escapes are complete and its quotes are closed. The pieces are then the only ones that have
no place for a cut themselves and are joined to the text (`split_decomposes`).
-/

namespace CertAuthority.Text

/-! ### Quotes and escapes -/

/-- Every escape of a text is complete, and so many of its quotes are not escaped. -/
inductive HasQuotes : List Char → Nat → Prop where
  | nil :
    HasQuotes [] 0
  | escaped {c : Char} {cs : List Char} {n : Nat} :
    HasQuotes cs n →
    HasQuotes ('\\' :: c :: cs) n
  | quote {cs : List Char} {n : Nat} :
    HasQuotes cs n →
    HasQuotes ('"' :: cs) (n + 1)
  | plain {c : Char} {cs : List Char} {n : Nat} :
    c ≠ '\\' →
    c ≠ '"' →
    HasQuotes cs n →
    HasQuotes (c :: cs) n

/-- The last character of a text is a backslash with nothing left to escape. -/
def EndsInEscape (cs : List Char) : Prop :=
  ∃ front n, HasQuotes front n ∧ cs = front ++ ['\\']

/-- Every escape of a text is complete and every quote is closed. -/
def IsBalanced (cs : List Char) : Prop :=
  ∃ n, HasQuotes cs n ∧ Even n

/-- The places of the separators of a text that are neither escaped nor between quotes. -/
def cutPlaces (sep : Char) (cs : List Char) : Set Nat :=
  {i | cs[i]? = some sep ∧ IsBalanced (cs.take i)}

section

variable {as bs cs : List Char} {c sep : Char} {m n : Nat}

/-- An escape and the character behind it have no quote that counts. -/
lemma hasQuotes_escaped_iff : HasQuotes ('\\' :: c :: cs) n ↔ HasQuotes cs n := by
  refine ⟨fun h => ?_, .escaped⟩
  generalize e : '\\' :: c :: cs = ds at h
  cases h with
  | nil => cases e
  | escaped h =>
    simp only [List.cons.injEq, true_and] at e
    exact e.2 ▸ h
  | quote => simp at e
  | plain hescape => exact absurd (List.cons.inj e).1.symm hescape

/-- A quote that is not escaped counts. -/
lemma hasQuotes_quote_iff : HasQuotes ('"' :: cs) n ↔ ∃ m, HasQuotes cs m ∧ n = m + 1 := by
  constructor
  · intro h
    generalize e : '"' :: cs = ds at h
    cases h with
    | nil => cases e
    | escaped => simp at e
    | quote h =>
      obtain rfl := (List.cons.inj e).2
      exact ⟨_, h, rfl⟩
    | plain _ hquote => exact absurd (List.cons.inj e).1.symm hquote
  · rintro ⟨m, h, rfl⟩
    exact .quote h

/-- Any other character neither counts nor escapes. -/
lemma hasQuotes_plain_iff (hescape : c ≠ '\\') (hquote : c ≠ '"') : HasQuotes (c :: cs) n ↔ HasQuotes cs n := by
  refine ⟨fun h => ?_, .plain hescape hquote⟩
  generalize e : c :: cs = ds at h
  cases h with
  | nil => cases e
  | escaped => exact absurd (List.cons.inj e).1 hescape
  | quote => exact absurd (List.cons.inj e).1 hquote
  | plain _ _ h => exact (List.cons.inj e).2 ▸ h

/-- Behind complete escapes a text is read as it is by itself. -/
lemma HasQuotes.append_iff (h : HasQuotes as m) : HasQuotes (as ++ bs) n ↔ ∃ k, HasQuotes bs k ∧ n = m + k := by
  induction h generalizing n with
  | nil => simp
  | escaped _ ih => rw [List.cons_append, List.cons_append, hasQuotes_escaped_iff, ih]
  | @quote cs m _ ih =>
    rw [List.cons_append, hasQuotes_quote_iff]
    constructor
    · rintro ⟨l, hl, rfl⟩
      obtain ⟨k, hk, rfl⟩ := ih.1 hl
      exact ⟨k, hk, Nat.add_right_comm m k 1⟩
    · rintro ⟨k, hk, rfl⟩
      exact ⟨m + k, ih.2 ⟨k, hk, rfl⟩, Nat.add_right_comm m 1 k⟩
  | plain hescape hquote _ ih => rw [List.cons_append, hasQuotes_plain_iff hescape hquote, ih]

/-- The escapes of a text are complete up to its end, or the last one is not. -/
lemma exists_hasQuotes_or_endsInEscape (cs : List Char) : (∃ n, HasQuotes cs n) ∨ EndsInEscape cs := by
  -- A backslash takes two characters at once.
  induction cs using List.twoStepInduction with
  | nil => exact .inl ⟨0, .nil⟩
  | singleton c =>
    by_cases hescape : c = '\\'
    · subst hescape
      exact .inr ⟨[], 0, .nil, rfl⟩
    by_cases hquote : c = '"'
    · subst hquote
      exact .inl ⟨1, .quote .nil⟩
    · exact .inl ⟨0, .plain hescape hquote .nil⟩
  | cons_cons c d cs ihEscaped ih =>
    by_cases hescape : c = '\\'
    · subst hescape
      rcases ihEscaped with ⟨n, h⟩ | ⟨front, n, h, rfl⟩
      · exact .inl ⟨n, .escaped h⟩
      · exact .inr ⟨'\\' :: d :: front, n, .escaped h, rfl⟩
    by_cases hquote : c = '"'
    · subst hquote
      rcases ih d with ⟨n, h⟩ | ⟨front, n, h, hfront⟩
      · exact .inl ⟨n + 1, .quote h⟩
      · exact .inr ⟨'"' :: front, n + 1, .quote h, by rw [hfront, List.cons_append]⟩
    · rcases ih d with ⟨n, h⟩ | ⟨front, n, h, hfront⟩
      · exact .inl ⟨n, .plain hescape hquote h⟩
      · exact .inr ⟨c :: front, n, .plain hescape hquote h, by rw [hfront, List.cons_append]⟩

/-- A number is even if its lowest bit is not set. -/
lemma even_iff_bodd : Even n ↔ n.bodd = false := by
  rw [Nat.even_iff, Nat.mod_two_of_bodd]
  cases n.bodd <;> simp

/-- Behind a balanced text the balance is that of the rest. -/
lemma IsBalanced.append_iff (h : IsBalanced as) : IsBalanced (as ++ bs) ↔ IsBalanced bs := by
  obtain ⟨m, hm, heven⟩ := h
  simp only [IsBalanced, hm.append_iff]
  constructor
  · rintro ⟨_, ⟨k, hk, rfl⟩, hsum⟩
    exact ⟨k, hk, (Nat.even_add.1 hsum).1 heven⟩
  · rintro ⟨k, hk, hk'⟩
    exact ⟨m + k, ⟨k, hk, rfl⟩, heven.add hk'⟩

/-- A separator in front does not change the balance. -/
lemma isBalanced_separator_cons_iff (hescape : sep ≠ '\\') (hquote : sep ≠ '"') :
    IsBalanced (sep :: cs) ↔ IsBalanced cs := by
  simp only [IsBalanced, hasQuotes_plain_iff hescape hquote]

/-! ### Scanning -/

/-- Behind complete escapes the scanner fails as it fails there, inside quotes or outside. -/
lemma HasQuotes.splitFrom_append_eq_error_iff (h : HasQuotes cs n) (inside : Bool) (rest : List Char)
    {e : ParseError} :
    splitFrom sep inside (cs ++ rest) = .error e ↔ splitFrom sep (inside ^^ n.bodd) rest = .error e := by
  have hmap {f : List (List Char) → List (List Char)} {x : Except ParseError (List (List Char))} :
      f <$> x = .error e ↔ x = .error e := bind_pure_eq_error_iff
  induction h generalizing inside with
  | nil => simp
  | escaped _ ih =>
    rw [List.cons_append, List.cons_append, splitFrom_escaped, hmap]
    exact ih inside
  | quote _ ih =>
    rw [List.cons_append, splitFrom_quote, hmap, Nat.bodd_succ, Bool.xor_not, ← Bool.not_xor]
    exact ih !inside
  | plain hescape hquote _ ih =>
    rw [List.cons_append, splitFrom_cons _ hescape hquote, hmap]
    exact ih inside

/-- Where no separator is free the scanner cuts nothing off. -/
lemma HasQuotes.splitFrom_append (h : HasQuotes cs n) (inside : Bool) (rest : List Char)
    (hnone : ∀ before after m, cs = before ++ sep :: after → HasQuotes before m → (inside ^^ m.bodd) = true) :
    splitFrom sep inside (cs ++ rest) = (cs.foldr pushFront ·) <$> splitFrom sep (inside ^^ n.bodd) rest := by
  induction h generalizing inside with
  | nil => simp
  | @escaped c cs n _ ih =>
    have htail := ih inside fun before after m hcs hbefore =>
      hnone ('\\' :: c :: before) after m (by rw [hcs]; rfl) (.escaped hbefore)
    rw [List.cons_append, List.cons_append, splitFrom_escaped, htail, Functor.map_map]
    rfl
  | @quote cs n _ ih =>
    have htail := ih (!inside) fun before after m hcs hbefore => by
      have := hnone ('"' :: before) after (m + 1) (by rw [hcs]; rfl) (.quote hbefore)
      rwa [Nat.bodd_succ, Bool.xor_not, ← Bool.not_xor] at this
    rw [List.cons_append, splitFrom_quote, htail, Functor.map_map, Nat.bodd_succ, Bool.not_xor, Bool.xor_not]
    rfl
  | @plain c cs n hescape hquote _ ih =>
    have htail := ih inside fun before after m hcs hbefore =>
      hnone (c :: before) after m (by rw [hcs]; rfl) (.plain hescape hquote hbefore)
    have hkeep : ¬ (decide (c = sep) && !inside) = true := by
      intro hcut
      simp only [Bool.and_eq_true, decide_eq_true_eq, Bool.not_eq_true'] at hcut
      have := hnone [] cs 0 (by rw [hcut.1]; rfl) .nil
      simp [hcut.2] at this
    rw [List.cons_append, splitFrom_cons _ hescape hquote, htail, Functor.map_map]
    simp [hkeep]

/-! ### Whole pieces -/

/-- A balanced text without a place for a cut. -/
structure IsWhole (sep : Char) (p : List Char) : Prop where
  balanced : IsBalanced p
  uncut : cutPlaces sep p = ∅

variable {p : List Char} {ps : List (List Char)}

/-- The scanner comes out of a whole piece as it went in. -/
lemma IsWhole.isPiece (h : IsWhole sep p) : IsPiece sep p := by
  obtain ⟨n, hn, heven⟩ := h.balanced
  have hnone : ∀ before after m, p = before ++ sep :: after → HasQuotes before m → (false ^^ m.bodd) = true := by
    intro before after m hp hbefore
    rw [Bool.false_xor]
    by_contra hodd
    have hplace : before.length ∈ cutPlaces sep p := by
      refine ⟨by simp [hp], m, ?_, even_iff_bodd.2 (Bool.eq_false_iff.2 hodd)⟩
      rw [hp, List.take_left]
      exact hbefore
    rw [h.uncut] at hplace
    exact hplace
  intro rest
  rw [hn.splitFrom_append false rest hnone, even_iff_bodd.1 heven, Bool.false_xor]

/-- A whole piece is not cut. -/
lemma IsWhole.split_eq (h : IsWhole sep p) : split sep p = .ok [p] := by
  have hend : splitFrom sep false [] = .ok [[]] := by rw [splitFrom]
  rw [split, ← List.append_nil p, h.isPiece, hend, List.append_nil]
  simp [Functor.map, Except.map, foldr_pushFront]

/-- What is in front of the first place for a cut is a whole piece, and the rest may be cut again. -/
lemma exists_first_piece (hescape : sep ≠ '\\') (hquote : sep ≠ '"') (h : IsBalanced cs)
    (hcut : (cutPlaces sep cs).Nonempty) :
    ∃ p rest, cs = p ++ sep :: rest ∧ IsWhole sep p ∧ IsBalanced rest := by
  obtain ⟨hsep, hbalanced⟩ := Nat.sInf_mem hcut
  have hleast : ∀ j < sInf (cutPlaces sep cs), j ∉ cutPlaces sep cs := fun j => Nat.notMem_of_lt_sInf
  generalize sInf (cutPlaces sep cs) = i at hsep hbalanced hleast
  have hcs : cs = cs.take i ++ sep :: cs.drop (i + 1) := by
    obtain ⟨hi, hget⟩ := List.getElem?_eq_some_iff.1 hsep
    rw [← hget, ← List.drop_eq_getElem_cons hi, List.take_append_drop]
  refine ⟨cs.take i, cs.drop (i + 1), hcs, ⟨hbalanced, ?_⟩, ?_⟩
  · refine Set.eq_empty_iff_forall_notMem.2 fun j hj => ?_
    obtain ⟨hget, hfront⟩ := hj
    rw [List.getElem?_take, Option.ite_none_right_eq_some] at hget
    rw [List.take_take, Nat.min_eq_left hget.1.le] at hfront
    exact hleast j hget.1 ⟨hget.2, hfront⟩
  · rw [hcs, hbalanced.append_iff, isBalanced_separator_cons_iff hescape hquote] at h
    exact h

/-- A balanced text is joined from whole pieces. -/
lemma exists_pieces (hescape : sep ≠ '\\') (hquote : sep ≠ '"') (h : IsBalanced cs) :
    ∃ ps, ps ≠ [] ∧ List.intercalate [sep] ps = cs ∧ ∀ p ∈ ps, IsWhole sep p := by
  -- By the length of the text: what follows the first cut is shorter.
  induction hlength : cs.length using Nat.strong_induction_on generalizing cs with
  | _ n ih =>
    rcases (cutPlaces sep cs).eq_empty_or_nonempty with hnone | hcut
    · exact ⟨[cs], List.cons_ne_nil _ _, List.intercalate_singleton, List.forall_mem_singleton.2 ⟨h, hnone⟩⟩
    · obtain ⟨p, rest, rfl, hp, hrest⟩ := exists_first_piece hescape hquote h hcut
      have hshorter : rest.length < n := by
        rw [← hlength, List.length_append, List.length_cons]
        omega
      obtain ⟨ps, hne, hjoined, hps⟩ := ih rest.length hshorter hrest rfl
      obtain ⟨q, qs, rfl⟩ := List.exists_cons_of_ne_nil hne
      refine ⟨p :: q :: qs, List.cons_ne_nil _ _, ?_, List.forall_mem_cons.2 ⟨hp, hps⟩⟩
      rw [List.intercalate_cons_cons, hjoined, List.append_assoc, List.singleton_append]

/-- The places for a cut behind a whole piece and a separator are the separator and the places of the rest. -/
lemma cutPlaces_append (hescape : sep ≠ '\\') (hquote : sep ≠ '"') (h : IsWhole sep p) :
    cutPlaces sep (p ++ sep :: cs) = insert p.length ((p.length + 1 + ·) '' cutPlaces sep cs) := by
  ext i
  rw [Set.mem_insert_iff, Set.mem_image]
  -- A place is inside the piece, at the separator or behind it.
  rcases lt_trichotomy i p.length with hi | rfl | hi
  · have hpiece : i ∈ cutPlaces sep (p ++ sep :: cs) ↔ i ∈ cutPlaces sep p := by
      change _ ∧ _ ↔ _ ∧ _
      rw [List.getElem?_append_left hi, List.take_append_of_le_length hi.le]
    rw [hpiece, h.uncut]
    constructor
    · exact False.elim
    · rintro (rfl | ⟨j, -, rfl⟩) <;> omega
  · have hplace : p.length ∈ cutPlaces sep (p ++ sep :: cs) :=
      ⟨by simp, by rw [List.take_left]; exact h.balanced⟩
    simp [hplace]
  · obtain ⟨j, rfl⟩ := Nat.exists_eq_add_of_le (Nat.succ_le_of_lt hi)
    have hrest : p.length + 1 + j ∈ cutPlaces sep (p ++ sep :: cs) ↔ j ∈ cutPlaces sep cs := by
      have hfront : (p ++ sep :: cs).take (p.length + 1 + j) = p ++ sep :: cs.take j := by
        rw [Nat.add_assoc, List.take_length_add_append, Nat.add_comm 1, List.take_succ_cons]
      change _ ∧ _ ↔ _ ∧ _
      rw [hfront, h.balanced.append_iff, isBalanced_separator_cons_iff hescape hquote, Nat.add_assoc,
        List.getElem?_append_right (Nat.le_add_right _ _), Nat.add_sub_cancel_left, Nat.add_comm 1,
        List.getElem?_cons_succ]
    rw [Nat.succ_eq_add_one, hrest]
    constructor
    · exact fun hj => .inr ⟨j, hj, rfl⟩
    · rintro (hj | ⟨k, hk, hj⟩)
      · omega
      · exact Nat.add_left_cancel hj ▸ hk

/-- A text has finitely many places for a cut. -/
lemma finite_cutPlaces : (cutPlaces sep cs).Finite :=
  (Set.finite_lt_nat cs.length).subset fun _ hi => (List.getElem?_eq_some_iff.1 hi.1).1

/-- Whole pieces are one more than the places for cuts in the text that they are joined to. -/
lemma length_eq_of_isWhole (hescape : sep ≠ '\\') (hquote : sep ≠ '"') (hne : ps ≠ [])
    (h : ∀ p ∈ ps, IsWhole sep p) : ps.length = (cutPlaces sep (List.intercalate [sep] ps)).ncard + 1 := by
  induction ps with
  | nil => exact absurd rfl hne
  | cons p ps ih =>
    rw [List.forall_mem_cons] at h
    cases ps with
    | nil => rw [List.intercalate_singleton, h.1.uncut, Set.ncard_empty, List.length_singleton]
    | cons q ps =>
      have hfresh : p.length ∉ (p.length + 1 + ·) '' cutPlaces sep (List.intercalate [sep] (q :: ps)) := by
        rintro ⟨j, -, hj⟩
        simp only at hj
        omega
      rw [List.intercalate_cons_cons, List.append_assoc, List.singleton_append,
        cutPlaces_append hescape hquote h.1, Set.ncard_insert_of_notMem hfresh (finite_cutPlaces.image _),
        Set.ncard_image_of_injective _ (add_right_injective _), List.length_cons, ih (List.cons_ne_nil q ps) h.2]

/-- The scanner finds the whole pieces of a balanced text. -/
lemma exists_split_eq (hescape : sep ≠ '\\') (hquote : sep ≠ '"') (h : IsBalanced cs) :
    ∃ ps, split sep cs = .ok ps ∧ ps ≠ [] ∧ List.intercalate [sep] ps = cs ∧ ∀ p ∈ ps, IsWhole sep p := by
  obtain ⟨ps, hne, rfl, hps⟩ := exists_pieces hescape hquote h
  exact ⟨ps, split_intercalate hescape hquote hne fun p hp => (hps p hp).isPiece, hne, rfl, hps⟩

/-- Whole are the texts that are cut into nothing but themselves. -/
lemma isWhole_iff (hescape : sep ≠ '\\') (hquote : sep ≠ '"') :
    IsWhole sep p ↔ IsBalanced p ∧ split sep p = .ok [p] := by
  constructor
  · exact fun h => ⟨h.balanced, h.split_eq⟩
  · rintro ⟨hbalanced, hsplit⟩
    obtain ⟨ps, hps, -, -, hwhole⟩ := exists_split_eq hescape hquote hbalanced
    cases hsplit.symm.trans hps
    exact hwhole p List.mem_cons_self

/-! ### Failures -/

/-- An escape that is broken off is reported. -/
lemma EndsInEscape.split_eq (h : EndsInEscape cs) : split sep cs = .error .danglingEscape := by
  obtain ⟨front, n, hn, rfl⟩ := h
  rw [split, hn.splitFrom_append_eq_error_iff]
  cases (false ^^ n.bodd) <;> rw [splitFrom]

/-- A quote that is not closed is reported. -/
lemma HasQuotes.split_eq_of_odd (h : HasQuotes cs n) (hodd : Odd n) :
    split sep cs = .error .unterminatedQuote := by
  have hinside : (false ^^ n.bodd) = true := by
    rw [Bool.false_xor, ← Bool.not_eq_false, ← even_iff_bodd]
    exact Nat.not_even_iff_odd.2 hodd
  rw [split, ← List.append_nil cs, h.splitFrom_append_eq_error_iff, hinside, splitFrom]

/-- The three ends of a scan: an escape that is broken off, a quote that is open, or neither. -/
lemma endsInEscape_or_odd_or_isBalanced (cs : List Char) :
    EndsInEscape cs ∨ (∃ n, HasQuotes cs n ∧ Odd n) ∨ IsBalanced cs := by
  rcases exists_hasQuotes_or_endsInEscape cs with ⟨n, h⟩ | h
  · rcases Nat.even_or_odd n with heven | hodd
    · exact .inr (.inr ⟨n, h, heven⟩)
    · exact .inr (.inl ⟨n, h, hodd⟩)
  · exact .inl h

end

/-- Pieces with complete escapes and closed quotes, each of which is cut into itself only, are joined to a text. -/
structure IsDecomposition (sep : Char) (cs : List Char) (ps : List (List Char)) : Prop where
  ne_nil : ps ≠ []
  joined : List.intercalate [sep] ps = cs
  balanced : ∀ p ∈ ps, IsBalanced p
  single : ∀ p ∈ ps, split sep p = .ok [p]

/-- A text is refused exactly if it ends in an escape or, with complete escapes, leaves a quote open. Otherwise
there is one decomposition of it, and this is what it is cut into. There is one piece more than there are
separators that are neither escaped nor between quotes. -/
theorem split_decomposes {sep : Char} (hescape : sep ≠ '\\') (hquote : sep ≠ '"') (cs : List Char) :
    (∀ e, split sep cs = .error e ↔
      e = .danglingEscape ∧ EndsInEscape cs ∨ e = .unterminatedQuote ∧ ∃ n, HasQuotes cs n ∧ Odd n) ∧
    (¬ EndsInEscape cs → (¬ ∃ n, HasQuotes cs n ∧ Odd n) →
      ∃ ps, split sep cs = .ok ps ∧ (∀ qs, IsDecomposition sep cs qs ↔ qs = ps) ∧
        ps.length = (cutPlaces sep cs).ncard + 1) := by
  constructor
  · intro e
    constructor
    · intro h
      rcases endsInEscape_or_odd_or_isBalanced cs with hescaped | ⟨n, hn, hodd⟩ | hbalanced
      · cases hescaped.split_eq.symm.trans h
        exact .inl ⟨rfl, hescaped⟩
      · cases (hn.split_eq_of_odd hodd).symm.trans h
        exact .inr ⟨rfl, n, hn, hodd⟩
      · obtain ⟨ps, hps, -⟩ := exists_split_eq hescape hquote hbalanced
        cases hps.symm.trans h
    · rintro (⟨rfl, hescaped⟩ | ⟨rfl, n, hn, hodd⟩)
      · exact hescaped.split_eq
      · exact hn.split_eq_of_odd hodd
  · intro hescaped hopen
    have hbalanced : IsBalanced cs :=
      ((endsInEscape_or_odd_or_isBalanced cs).resolve_left hescaped).resolve_left hopen
    obtain ⟨ps, hps, hne, rfl, hwhole⟩ := exists_split_eq hescape hquote hbalanced
    refine ⟨ps, hps, fun qs => ⟨fun h => ?_, ?_⟩, length_eq_of_isWhole hescape hquote hne hwhole⟩
    · -- The scanner finds any pieces that are joined, so it cannot have found others.
      have hqs := split_intercalate hescape hquote h.ne_nil fun q hq =>
        ((isWhole_iff hescape hquote).2 ⟨h.balanced q hq, h.single q hq⟩).isPiece
      rw [h.joined, hps, Except.ok.injEq] at hqs
      exact hqs.symm
    · rintro rfl
      exact ⟨hne, rfl, fun p hp => (hwhole p hp).balanced, fun p hp => (hwhole p hp).split_eq⟩

/-- A text with an escaped separator, separators between quotes and an escaped quote. -/
def sampleList : List Char :=
  ['a', '\\', ',', 'b', ',', '"', 'c', ',', '\\', '"', ',', '"', ',']

/-- Two separators of the text count, and the last piece is empty. -/
theorem sample_decomposition :
    split ',' sampleList = .ok [['a', '\\', ',', 'b'], ['"', 'c', ',', '\\', '"', ',', '"'], []] ∧
      IsDecomposition ',' sampleList [['a', '\\', ',', 'b'], ['"', 'c', ',', '\\', '"', ',', '"'], []] ∧
      (cutPlaces ',' sampleList).ncard = 2 := by
  have hsplit : split ',' sampleList =
      .ok [['a', '\\', ',', 'b'], ['"', 'c', ',', '\\', '"', ',', '"'], []] := by decide +kernel
  obtain ⟨hfails, hcut⟩ := @split_decomposes ',' (by decide) (by decide) sampleList
  have hescaped : ¬ EndsInEscape sampleList := by
    intro h
    cases hsplit.symm.trans ((hfails _).2 (.inl ⟨rfl, h⟩))
  have hopen : ¬ ∃ n, HasQuotes sampleList n ∧ Odd n := by
    intro h
    cases hsplit.symm.trans ((hfails _).2 (.inr ⟨rfl, h⟩))
  obtain ⟨ps, hps, hunique, hcount⟩ := hcut hescaped hopen
  cases hsplit.symm.trans hps
  exact ⟨hsplit, (hunique _).2 rfl, Nat.succ.inj hcount.symm⟩

end CertAuthority.Text

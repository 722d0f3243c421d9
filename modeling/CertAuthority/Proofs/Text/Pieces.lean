import Mathlib.Tactic.Lemma
import CertAuthority.Proofs.Text.Content

/-!
# Texts that are cut where they were joined

A scanner that runs over a whole piece comes out of it as it went in: outside quotes, with every escape
complete, and without having cut anything. Such pieces are found again in the text that they were joined
to (`split_intercalate`), and a text of labels and raw values is read component by component
(`components_text`).
-/

namespace CertAuthority.Text

/-! ### Pieces -/

/-- Characters that stay in one piece, whatever follows them. -/
def IsPiece (sep : Char) (cs : List Char) : Prop :=
  ∀ rest, splitFrom sep false (cs ++ rest) = (cs.foldr pushFront ·) <$> splitFrom sep false rest

section

variable {sep : Char}

/-- Characters that are put in front one by one stand in front of the first piece. -/
lemma foldr_pushFront (cs piece : List Char) (pieces : List (List Char)) :
    cs.foldr pushFront (piece :: pieces) = (cs ++ piece) :: pieces := by
  induction cs with
  | nil => rfl
  | cons c cs ih => rw [List.foldr_cons, ih, pushFront, List.cons_append]

/-- What follows an escaped character is scanned as if the two were not there. -/
lemma splitFrom_escaped (inside : Bool) (c : Char) (rest : List Char) :
    splitFrom sep inside ('\\' :: c :: rest) =
      (['\\', c].foldr pushFront ·) <$> splitFrom sep inside rest := by
  cases inside <;> rw [splitFrom] <;> rfl

/-- A quote is kept and turns the scanner from the inside to the outside or back. -/
lemma splitFrom_quote (inside : Bool) (rest : List Char) :
    splitFrom sep inside ('"' :: rest) = (pushFront '"' ·) <$> splitFrom sep (!inside) rest := by
  cases inside <;> rw [splitFrom] <;> rfl

/-- An ordinary character is kept unless it is the separator outside quotes. -/
lemma splitFrom_cons {inside : Bool} {c : Char} (rest : List Char) (hescape : c ≠ '\\') (hquote : c ≠ '"') :
    splitFrom sep inside (c :: rest) =
      (fun pieces => if c = sep && !inside then [] :: pieces else pushFront c pieces) <$>
        splitFrom sep inside rest := by
  cases inside <;> simp [splitFrom, hescape]

/-- No characters are a piece. -/
lemma isPiece_nil : IsPiece sep [] := fun rest => by simp

/-- Two pieces make up one. -/
lemma IsPiece.append {as bs : List Char} (ha : IsPiece sep as) (hb : IsPiece sep bs) :
    IsPiece sep (as ++ bs) := by
  intro rest
  rw [List.append_assoc, ha, hb, Functor.map_map]
  simp only [List.foldr_append]

/-- An escape and the character behind it stay in one piece, whatever the character is. -/
lemma isPiece_escaped (c : Char) : IsPiece sep ['\\', c] :=
  splitFrom_escaped false c

/-- A character without a meaning of its own. -/
lemma isPiece_singleton {c : Char} (hsep : c ≠ sep) (hescape : c ≠ '\\') (hquote : c ≠ '"') :
    IsPiece sep [c] := by
  intro rest
  rw [List.singleton_append, splitFrom_cons rest hescape hquote]
  simp [hsep]

/-- Pieces in a row make up one. -/
lemma isPiece_flatMap {α : Type} {f : α → List Char} {as : List α} (h : ∀ a ∈ as, IsPiece sep (f a)) :
    IsPiece sep (as.flatMap f) := by
  induction as with
  | nil => exact isPiece_nil
  | cons a as ih =>
    rw [List.flatMap_cons]
    exact (h a List.mem_cons_self).append (ih fun a ha => h a (List.mem_cons_of_mem _ ha))

/-- Pieces are found again where they were joined. -/
lemma split_intercalate {ps : List (List Char)} (hescape : sep ≠ '\\') (hquote : sep ≠ '"')
    (hne : ps ≠ []) (h : ∀ p ∈ ps, IsPiece sep p) : split sep (List.intercalate [sep] ps) = .ok ps := by
  induction ps with
  | nil => exact absurd rfl hne
  | cons p ps ih =>
    have hp : IsPiece sep p := h p List.mem_cons_self
    cases ps with
    | nil =>
      have hend : splitFrom sep false [] = .ok [[]] := by rw [splitFrom]
      rw [List.intercalate_singleton, ← List.append_nil p, split, hp, hend]
      simp [foldr_pushFront]
    | cons q ps =>
      have hrest : splitFrom sep false (List.intercalate [sep] (q :: ps)) = .ok (q :: ps) :=
        ih (List.cons_ne_nil q ps) fun p hp => h p (List.mem_cons_of_mem _ hp)
      rw [List.intercalate_cons_cons, List.append_assoc, List.singleton_append, split, hp,
        splitFrom_cons _ hescape hquote, hrest]
      simp [foldr_pushFront]

end

/-! ### Letters in either case -/

/-- The letters of ASCII by their numbers. -/
lemma isAlpha_iff_toNat {c : Char} :
    c.isAlpha = true ↔ (65 ≤ c.toNat ∧ c.toNat ≤ 90) ∨ (97 ≤ c.toNat ∧ c.toNat ≤ 122) := by
  unfold Char.isAlpha Char.isUpper Char.isLower
  simp only [Bool.or_eq_true, Bool.and_eq_true, decide_eq_true_eq, UInt32.le_iff_toNat_le, ge_iff_le]
  exact Iff.rfl

/-- The letters and digits of ASCII by their numbers. -/
lemma isAlphanum_iff_toNat {c : Char} :
    c.isAlphanum = true ↔ ((65 ≤ c.toNat ∧ c.toNat ≤ 90) ∨ (97 ≤ c.toNat ∧ c.toNat ≤ 122)) ∨
      (48 ≤ c.toNat ∧ c.toNat ≤ 57) := by
  rw [Char.isAlphanum, Bool.or_eq_true, isAlpha_iff_toNat, Char.isDigit_iff_toNat]
  exact Iff.rfl

/-- A capital letter becomes the one 32 places behind it, and nothing else is changed. -/
lemma toNat_toLower (c : Char) :
    c.toLower.toNat = if 65 ≤ c.toNat ∧ c.toNat ≤ 90 then c.toNat + 32 else c.toNat := by
  have h : (c.val ≥ 'A'.val ∧ c.val ≤ 'Z'.val) ↔ (65 ≤ c.toNat ∧ c.toNat ≤ 90) := by
    rw [ge_iff_le, UInt32.le_iff_toNat_le, UInt32.le_iff_toNat_le]
    exact Iff.rfl
  unfold Char.toLower
  split
  · rename_i hupper
    have hsmall := h.1 hupper
    have hsum : (c.val + ('a'.val - 'A'.val)).toNat = (c.toNat + 32) % 4294967296 := UInt32.toNat_add _ _
    rw [if_pos hsmall]
    exact hsum.trans (Nat.mod_eq_of_lt (by omega))
  · rename_i hupper
    rw [if_neg (hupper ∘ h.2)]

/-- A letter in lower case becomes the one 32 places before it, and nothing else is changed. -/
lemma toNat_toUpper (c : Char) :
    c.toUpper.toNat = if 97 ≤ c.toNat ∧ c.toNat ≤ 122 then c.toNat - 32 else c.toNat := by
  have h : (c.val ≥ 'a'.val ∧ c.val ≤ 'z'.val) ↔ (97 ≤ c.toNat ∧ c.toNat ≤ 122) := by
    rw [ge_iff_le, UInt32.le_iff_toNat_le, UInt32.le_iff_toNat_le]
    exact Iff.rfl
  unfold Char.toUpper
  split
  · rename_i hlower
    have hsmall := h.1 hlower
    -- 32 is taken away by adding what is missing to the modulus
    have hsum : (c.val + ('A'.val - 'a'.val)).toNat = (c.toNat + 4294967264) % 4294967296 :=
      UInt32.toNat_add _ _
    rw [if_pos hsmall]
    exact hsum.trans (by omega)
  · rename_i hlower
    rw [if_neg (hlower ∘ h.2)]

/-- What is a letter or digit in lower case is one as it stands. -/
lemma isAlphanum_of_isAlphanum_toLower {c : Char} (h : c.toLower.isAlphanum = true) : c.isAlphanum = true := by
  rw [isAlphanum_iff_toNat, toNat_toLower] at h
  rw [isAlphanum_iff_toNat]
  split at h <;> omega

/-- What is a letter in upper case is one as it stands. -/
lemma isAlpha_of_isAlpha_toUpper {c : Char} (h : c.toUpper.isAlpha = true) : c.isAlpha = true := by
  rw [isAlpha_iff_toNat, toNat_toUpper] at h
  rw [isAlpha_iff_toNat]
  split at h <;> omega

/-- The letters are what becomes a capital letter in upper case. -/
lemma isUpper_toUpper_iff {c : Char} : c.toUpper.isUpper = true ↔ c.isAlpha = true := by
  have hupper : c.toUpper.isUpper = true ↔ 65 ≤ c.toUpper.toNat ∧ c.toUpper.toNat ≤ 90 := by
    unfold Char.isUpper
    simp only [decide_eq_true_eq, UInt32.le_iff_toNat_le, ge_iff_le]
    exact Iff.rfl
  rw [hupper, toNat_toUpper, isAlpha_iff_toNat]
  split <;> omega

/-- A digit is no letter. -/
lemma isAlpha_eq_false_of_isDigit {c : Char} (h : c.isDigit = true) : c.isAlpha = false := by
  refine Bool.eq_false_iff.2 fun halpha => ?_
  rw [isAlpha_iff_toNat] at halpha
  have hbounds : 48 ≤ c.toNat ∧ c.toNat ≤ 57 := Char.isDigit_iff_toNat.1 h
  omega

/-- A character in upper case comes from itself or from its lower case. -/
lemma eq_or_eq_of_toUpper {c u : Char} (h : c.toUpper = u) : c = u ∨ c = u.toLower := by
  have hnumber := congrArg Char.toNat h
  rw [toNat_toUpper] at hnumber
  rw [← Char.toNat_inj, ← Char.toNat_inj, toNat_toLower]
  split at hnumber
  · right
    split <;> omega
  · exact .inl hnumber

/-! ### Words -/

/-- A word of letters, digits and full stops. -/
def IsWord (s : String) : Prop :=
  ∀ c ∈ s.toList, c.isAlphanum = true ∨ c = '.'

namespace IsWord

variable {s : String}

/-- What a word has no use for. -/
lemma not_special {c : Char} (h : c.isAlphanum = true ∨ c = '.') :
    isBlank c = false ∧ c ≠ ',' ∧ c ≠ '=' ∧ c ≠ '"' ∧ c ≠ '\\' := by
  cases h with
  | inl h =>
    rw [isAlphanum_iff_toNat] at h
    refine ⟨?_, ?_, ?_, ?_, ?_⟩
    · simp only [isBlank, Bool.or_eq_false_iff, Bool.and_eq_false_iff, decide_eq_false_iff_not,
        beq_eq_false_iff_ne]
      omega
    all_goals
      rintro rfl
      revert h
      decide
  | inr h =>
    subst h
    decide

/-- Nothing is trimmed off a word. -/
lemma trimmed_eq (h : IsWord s) : trimmed s = s := by
  have hfirst : s.toList.dropWhile isBlank = s.toList := by
    cases hs : s.toList with
    | nil => rfl
    | cons c cs =>
      have hc := not_special (h c (hs ▸ List.mem_cons_self))
      exact List.dropWhile_cons_of_neg (by simp [hc.1])
  have hlast : s.toList.reverse.dropWhile isBlank = s.toList.reverse := by
    cases hs : s.toList.reverse with
    | nil => rfl
    | cons c cs =>
      have hc := not_special (h c (List.mem_reverse.1 (hs ▸ List.mem_cons_self)))
      exact List.dropWhile_cons_of_neg (by simp [hc.1])
  rw [trimmed, trim, hfirst, hlast, List.reverse_reverse, String.ofList_toList]

/-- A word stays in one piece. -/
lemma isPiece (h : IsWord s) : IsPiece ',' s.toList := by
  rw [← List.flatMap_singleton' s.toList]
  apply isPiece_flatMap
  intro c hc
  obtain ⟨-, hcomma, -, hquote, hescape⟩ := not_special (h c hc)
  exact isPiece_singleton hcomma hescape hquote

/-- There is no equals sign in a word. -/
lemma equals_not_mem (h : IsWord s) : '=' ∉ s.toList :=
  fun hc => (not_special (h '=' hc)).2.2.1 rfl

end IsWord

/-! ### Components -/

/-- The text of a list of labels and raw values. -/
def componentsText (es : List (String × List Char)) : String :=
  ",".intercalate (es.map fun e => e.1 ++ "=" ++ String.ofList e.2)

/-- A text without the separator is cut off in front of the first separator. -/
lemma splitOnce_append {sep : Char} {cs : List Char} (h : sep ∉ cs) (rest : List Char) :
    splitOnce sep (cs ++ sep :: rest) = some (cs, rest) := by
  induction cs with
  | nil => simp [splitOnce]
  | cons c cs ih =>
    rw [List.mem_cons, not_or] at h
    rw [List.cons_append, splitOnce, if_neg (Ne.symm h.1), ih h.2]
    rfl

section

variable {α : Type} {entry : String → List Char → Except ParseError α} {es : List (String × List Char)}

/-- Components are read one after the other, each split at its first equals sign. -/
lemma readComponents_map (h : ∀ e ∈ es, IsWord e.1) :
    readComponents entry (es.map fun e => e.1.toList ++ '=' :: e.2) = es.mapM fun e => entry e.1 e.2 := by
  induction es with
  | nil => rfl
  | cons e es ih =>
    have hword := h e List.mem_cons_self
    have hlabel : String.ofList (trim e.1.toList) = e.1 := hword.trimmed_eq
    have hblank : isAllBlank (e.1.toList ++ '=' :: e.2) = false :=
      isAllBlank_eq_false_iff.2 ⟨'=', by simp, by decide⟩
    rw [List.map_cons, readComponents, hblank, if_neg Bool.false_ne_true,
      splitOnce_append hword.equals_not_mem, List.mapM_cons, ih fun e he => h e (List.mem_cons_of_mem _ he)]
    simp only [hlabel]

/-- A text of labels and raw values is read component by component. -/
lemma components_text (hword : ∀ e ∈ es, IsWord e.1) (hpiece : ∀ e ∈ es, IsPiece ',' e.2) :
    components entry (componentsText es) = es.mapM fun e => entry e.1 e.2 := by
  have htext : (componentsText es).toList =
      List.intercalate [','] (es.map fun e => e.1.toList ++ '=' :: e.2) := by
    simp [componentsText, String.toList_intercalate, Function.comp_def]
  have hequals : IsPiece ',' ['='] := isPiece_singleton (by decide) (by decide) (by decide)
  have hcomponent : ∀ e ∈ es, IsPiece ',' (e.1.toList ++ '=' :: e.2) := fun e he =>
    (hword e he).isPiece.append (hequals.append (hpiece e he))
  rw [components, htext]
  cases es with
  | nil => rfl
  | cons e es =>
    rw [split_intercalate (by decide) (by decide) (by simp) (List.forall_mem_map.2 hcomponent), ok_bind,
      readComponents_map hword]

/-- Whatever is read of components comes from a label and a raw value. -/
lemma exists_of_readComponents {pieces : List (List Char)} {as : List α}
    (h : readComponents entry pieces = .ok as) {a : α} (ha : a ∈ as) :
    ∃ label raw, entry label raw = .ok a := by
  induction pieces generalizing as with
  | nil =>
    cases h
    cases ha
  | cons piece pieces ih =>
    rw [readComponents] at h
    split at h
    · exact ih h ha
    · split at h
      · cases h
      · rename_i label raw _
        obtain ⟨first, hfirst, h⟩ := bind_eq_ok_iff.1 h
        obtain ⟨rest, hrest, h⟩ := bind_eq_ok_iff.1 h
        cases h
        cases ha with
        | head => exact ⟨_, raw, hfirst⟩
        | tail _ ha => exact ih hrest ha

/-- What is read was read from some component. -/
lemma exists_of_components {text : String} {as : List α} (h : components entry text = .ok as) {a : α}
    (ha : a ∈ as) : ∃ label raw, entry label raw = .ok a := by
  obtain ⟨pieces, -, h⟩ := bind_eq_ok_iff.1 h
  exact exists_of_readComponents h ha

end

end CertAuthority.Text

import Mathlib.Logic.Relation
import CertAuthority.Proofs.Text.Pieces

/-!
# Lists that are joined and spread out

After a list that is read the scanner is outside quotes and no escape is left open, so that a comma and
another list may follow (`components_append`). Blanks at the ends of a component and around the equals sign
after its label are trimmed off, and blank components are skipped, so that a list may be spread out by them
(`components_of_spreads`).
-/

namespace CertAuthority.Text

/-! ### Blanks -/

section

variable {ws cs : List Char}

/-- Characters are all blank if each of them is. -/
lemma isAllBlank_iff : isAllBlank ws = true ↔ ∀ c ∈ ws, isBlank c = true := by
  simp [isAllBlank]

/-- One character is enough for a text not to be blank. -/
lemma isAllBlank_eq_false {c : Char} (hc : c ∈ cs) (hblank : isBlank c = false) : isAllBlank cs = false :=
  isAllBlank_eq_false_iff.2 ⟨c, hc, hblank⟩

/-- Blanks in front are trimmed off. -/
lemma trim_append_left (h : isAllBlank ws = true) : trim (ws ++ cs) = trim cs := by
  rw [trim, List.dropWhile_append_of_pos (isAllBlank_iff.1 h), trim]

/-- Blanks behind are trimmed off. -/
lemma trim_append_right (h : isAllBlank ws = true) : trim (cs ++ ws) = trim cs := by
  have hws := isAllBlank_iff.1 h
  have hnil : ws.dropWhile isBlank = [] := List.dropWhile_eq_nil_iff.2 hws
  rw [trim, List.dropWhile_append, hnil, trim]
  cases hcs : cs.dropWhile isBlank with
  | nil => rfl
  | cons c cs =>
    have hreverse : ∀ c ∈ ws.reverse, isBlank c = true := fun c hc => hws c (List.mem_reverse.1 hc)
    rw [List.isEmpty_cons, if_neg Bool.false_ne_true, List.reverse_append,
      List.dropWhile_append_of_pos hreverse]

/-- Trimming takes blanks away and nothing else. -/
lemma isBlank_or_mem_trim {c : Char} (hc : c ∈ cs) : isBlank c = true ∨ c ∈ trim cs := by
  have hdrop : ∀ ds : List Char, c ∈ ds → isBlank c = true ∨ c ∈ ds.dropWhile isBlank := by
    intro ds hds
    rw [← List.takeWhile_append_dropWhile (p := isBlank) (l := ds), List.mem_append] at hds
    exact hds.imp_left List.mem_takeWhile_imp
  rcases hdrop cs hc with hblank | hc
  · exact .inl hblank
  · rw [trim, List.mem_reverse]
    exact hdrop _ (List.mem_reverse.2 hc)

end

/-- Characters that the scanner passes over. -/
def Plain (cs : List Char) : Prop :=
  ∀ c ∈ cs, c ≠ ',' ∧ c ≠ '\\' ∧ c ≠ '"'

/-- Characters that the scanner passes over stay in one piece. -/
lemma Plain.isPiece {cs : List Char} (h : Plain cs) : IsPiece ',' cs := by
  rw [← List.flatMap_singleton' cs]
  exact isPiece_flatMap fun c hc => isPiece_singleton (h c hc).1 (h c hc).2.1 (h c hc).2.2

/-- Two rows of characters that the scanner passes over make up one. -/
lemma Plain.append {cs ds : List Char} (hcs : Plain cs) (hds : Plain ds) : Plain (cs ++ ds) :=
  fun c hc => (List.mem_append.1 hc).elim (hcs c) (hds c)

/-- The scanner passes over the equals sign, which is looked for later. -/
lemma plain_equals : Plain ['='] := by
  intro c hc
  rw [List.mem_singleton.1 hc]
  decide

/-- A blank is none of the characters that the scanner stops at. -/
lemma plain_of_isBlank {c : Char} (h : isBlank c = true) : c ≠ ',' ∧ c ≠ '\\' ∧ c ≠ '"' := by
  refine ⟨?_, ?_, ?_⟩ <;>
  · rintro rfl
    revert h
    decide

/-- Blanks have no equals sign among them. -/
lemma equals_not_mem_of_isAllBlank {ws : List Char} (h : isAllBlank ws = true) : '=' ∉ ws :=
  fun hc => absurd (isAllBlank_iff.1 h '=' hc) (by decide)

/-- The scanner passes over blanks. -/
lemma plain_of_isAllBlank {ws : List Char} (h : isAllBlank ws = true) : Plain ws :=
  fun c hc => plain_of_isBlank (isAllBlank_iff.1 h c hc)

/-- What the scanner stops at is not trimmed off. -/
lemma plain_of_trim {cs : List Char} (h : Plain (trim cs)) : Plain cs := by
  intro c hc
  rcases isBlank_or_mem_trim hc with hblank | hc
  · exact plain_of_isBlank hblank
  · exact h c hc

/-- The scanner passes over words. -/
lemma IsWord.plain {s : String} (h : IsWord s) : Plain s.toList := by
  intro c hc
  obtain ⟨-, hcomma, -, hquote, hescape⟩ := not_special (h c hc)
  exact ⟨hcomma, hescape, hquote⟩

/-! ### Scanning a text in two parts -/

/-- Characters from which pieces are cut off and after which a piece goes on, outside quotes. -/
def Cuts (inside : Bool) (cs : List Char) (ps : List (List Char)) (p : List Char) : Prop :=
  ∀ rest, splitFrom ',' inside (cs ++ rest) =
    (fun qs => ps ++ p.foldr pushFront qs) <$> splitFrom ',' false rest

section

variable {cs rest p q : List Char} {ps qs : List (List Char)}

/-- There is one piece, an empty one, where nothing is left. -/
lemma splitFrom_nil : splitFrom ',' false [] = .ok [[]] := by
  rw [splitFrom]

/-- A comma ends an empty piece. -/
lemma split_comma (rest : List Char) : split ',' (',' :: rest) = ([] :: ·) <$> split ',' rest := by
  rw [split, splitFrom_cons rest (by decide) (by decide)]
  rfl

/-- Characters in front of what is scanned are in front of the first piece. -/
lemma exists_foldr_pushFront (front : List Char) (ps : List (List Char)) (p : List Char) :
    ∃ (ps' : List (List Char)) (p' : List Char), ∀ qs,
      front.foldr pushFront (ps ++ p.foldr pushFront qs) = ps' ++ p'.foldr pushFront qs := by
  cases ps with
  | nil => exact ⟨[], front ++ p, fun qs => by simp⟩
  | cons p' ps => exact ⟨(front ++ p') :: ps, p, fun qs => by simp [foldr_pushFront]⟩

/-- Characters that stay in one piece may stand in front of others, and these are still cut. -/
lemma Cuts.push {inside inside' : Bool} {front : List Char} (h : Cuts inside cs ps p)
    (hfront : ∀ rest, splitFrom ',' inside' (front ++ rest) =
      (front.foldr pushFront ·) <$> splitFrom ',' inside rest) :
    ∃ ps' p', Cuts inside' (front ++ cs) ps' p' := by
  obtain ⟨ps', p', hpush⟩ := exists_foldr_pushFront front ps p
  refine ⟨ps', p', fun rest => ?_⟩
  rw [List.append_assoc, hfront, h, Functor.map_map]
  simp only [hpush]

/-- A text that is scanned to its end leaves the scanner outside quotes, with every escape complete. -/
lemma exists_cuts {inside : Bool} (h : splitFrom ',' inside cs = .ok ps) :
    ∃ ps p, Cuts inside cs ps p := by
  -- Along the scanner's own recursion: the front is pushed to what the rest cuts off, inside quotes or outside.
  fun_induction splitFrom ',' inside cs generalizing ps with
  | case1 => cases h
  | case2 => exact ⟨[], [], fun rest => by simp⟩
  | case3 => cases h
  | case4 inside c rest ih =>
    obtain ⟨pieces, hrest, -⟩ := bind_eq_ok_iff.1 h
    obtain ⟨ps, p, hcuts⟩ := ih hrest
    exact @Cuts.push _ _ _ _ inside ['\\', c] hcuts fun rest => splitFrom_escaped inside c rest
  | case5 inside rest ih =>
    obtain ⟨pieces, hrest, -⟩ := bind_eq_ok_iff.1 h
    obtain ⟨ps, p, hcuts⟩ := ih hrest
    exact @Cuts.push _ _ _ _ inside ['"'] hcuts fun rest => splitFrom_quote inside rest
  | case6 inside c rest hlast hescape hquote ih =>
    obtain ⟨pieces, hrest, -⟩ := bind_eq_ok_iff.1 h
    obtain ⟨ps, p, hcuts⟩ := ih hrest
    have hne : c ≠ '\\' := by
      rintro rfl
      cases rest with
      | nil => exact hlast rfl rfl
      | cons d rest => exact hescape d rest rfl rfl
    have hstep := fun rest => @splitFrom_cons ',' inside c rest hne hquote
    -- A separator outside quotes ends a piece, so that the rest cuts off one more.
    by_cases hcut : (decide (c = ',') && !inside) = true
    · refine ⟨[] :: ps, p, fun rest => ?_⟩
      rw [List.cons_append, hstep, hcuts, Functor.map_map]
      simp [hcut]
    · refine @Cuts.push _ _ _ _ inside [c] hcuts fun rest => ?_
      rw [List.singleton_append, hstep]
      simp [hcut]

/-- The pieces of a text with something behind it are its own and those of the rest, joined where they meet. -/
lemma Cuts.split_append (h : Cuts false cs ps p) (rest : List Char) :
    split ',' (cs ++ rest) = (fun qs => ps ++ p.foldr pushFront qs) <$> split ',' rest :=
  h rest

end

/-! ### Places in a list -/

/-- Characters after which no quote is open and no escape is pending, so that a comma after them
separates. -/
def Closed (cs : List Char) : Prop :=
  ∃ pieces, split ',' cs = .ok pieces

/-- A component starts after these characters. -/
inductive StartsAfter : List Char → Prop where
  | first :
    StartsAfter []
  | next {cs : List Char} :
    Closed cs →
    StartsAfter (cs ++ [','])

/-- A component ends between these characters. -/
inductive EndsBetween : List Char → List Char → Prop where
  | last {cs : List Char} :
    EndsBetween cs []
  | next {cs rest : List Char} :
    Closed cs →
    EndsBetween cs (',' :: rest)

/-- The component that starts after `before` has a label: what stands in front of its first equals sign. -/
structure HasLabel (before label after : List Char) : Prop where
  starts : StartsAfter before
  component : ∃ raw pieces, split ',' (label ++ '=' :: after) = .ok ((label ++ '=' :: raw) :: pieces)
  first : '=' ∉ label

/-- The places where blanks do not count: the ends of the components and both sides of the equals sign
after a label. -/
inductive Gap : List Char → List Char → Prop where
  | start {before after : List Char} :
    StartsAfter before →
    Gap before after
  | finish {before after : List Char} :
    EndsBetween before after →
    Gap before after
  | beforeEquals {before label after : List Char} :
    HasLabel before label after →
    Gap (before ++ label) ('=' :: after)
  | afterEquals {before label after : List Char} :
    HasLabel before label after →
    Gap (before ++ label ++ ['=']) after

/-- A text is spread out by blanks in a gap or by a blank component. -/
inductive Spreads : List Char → List Char → Prop where
  | blanks {before after ws : List Char} :
    isAllBlank ws = true →
    Gap before after →
    Spreads (before ++ after) (before ++ ws ++ after)
  | componentInFront {before after ws : List Char} :
    isAllBlank ws = true →
    StartsAfter before →
    Spreads (before ++ after) (before ++ ws ++ ',' :: after)
  | componentBehind {before after ws : List Char} :
    isAllBlank ws = true →
    EndsBetween before after →
    Spreads (before ++ after) (before ++ ',' :: ws ++ after)

section

variable {cs before after : List Char} {ps : List (List Char)}

/-- A text after which nothing is open has pieces of its own and a last one that goes on. -/
lemma Closed.exists_cuts (h : Closed cs) : ∃ ps p, Cuts false cs ps p := by
  obtain ⟨ps, hps⟩ := h
  exact Text.exists_cuts hps

/-- Where nothing follows, the piece that goes on is the last one. -/
lemma Cuts.eq_of_split {p : List Char} {front : List (List Char)} (hcuts : Cuts false cs front p)
    (h : split ',' cs = .ok ps) : ps = front ++ [p] := by
  have hend : split ',' (cs ++ []) = .ok (front ++ [p]) := by
    rw [hcuts.split_append, split, splitFrom_nil]
    simp [Functor.map, Except.map, foldr_pushFront]
  rwa [List.append_nil, h, Except.ok.injEq] at hend

/-- Splitting gives at least one piece. -/
lemma exists_cons_of_split (h : split ',' cs = .ok ps) : ∃ q qs, ps = q :: qs := by
  obtain ⟨front, p, hcuts⟩ := Text.exists_cuts h
  exact List.exists_cons_of_ne_nil (by simp [hcuts.eq_of_split h])

/-- After a text that is cut and a comma the scanner starts anew. -/
lemma split_append_comma (h : split ',' cs = .ok ps) (rest : List Char) :
    split ',' (cs ++ ',' :: rest) = (ps ++ ·) <$> split ',' rest := by
  obtain ⟨front, p, hcuts⟩ := Text.exists_cuts h
  rw [hcuts.split_append, split_comma, Functor.map_map, hcuts.eq_of_split h]
  simp [foldr_pushFront]

/-- What stands in front of the start of a piece is cut off as a whole. -/
lemma StartsAfter.exists_split_append (h : StartsAfter before) :
    ∃ ps, ∀ rest, split ',' (before ++ rest) = (ps ++ ·) <$> split ',' rest := by
  cases h with
  | first => exact ⟨[], fun rest => by simp⟩
  | @next cs hclosed =>
    obtain ⟨ps, hps⟩ := hclosed
    refine ⟨ps, fun rest => ?_⟩
    rw [List.append_assoc, List.singleton_append, split_append_comma hps]

/-- Where a component starts a text is cut into what was cut before and what comes after. -/
lemma StartsAfter.exists_pieces (h : StartsAfter before) (hsplit : split ',' (before ++ after) = .ok ps) :
    ∃ front q qs, ps = front ++ q :: qs ∧ split ',' after = .ok (q :: qs) ∧
      ∀ rest, split ',' (before ++ rest) = (front ++ ·) <$> split ',' rest := by
  obtain ⟨front, hfront⟩ := h.exists_split_append
  rw [hfront, map_eq_ok_iff] at hsplit
  obtain ⟨qs, hafter, rfl⟩ := hsplit
  obtain ⟨q, qs, rfl⟩ := exists_cons_of_split hafter
  exact ⟨front, q, qs, rfl, hafter, hfront⟩

/-- Where a component ends nothing is left of its piece. -/
lemma EndsBetween.exists_pieces (h : EndsBetween before after) (hsplit : split ',' (before ++ after) = .ok ps) :
    ∃ front p qs, ps = front ++ p :: qs ∧ split ',' after = .ok ([] :: qs) ∧ Cuts false before front p := by
  have hend : Closed before ∧ ∃ qs, split ',' after = .ok ([] :: qs) := by
    cases h with
    | last =>
      rw [List.append_nil] at hsplit
      exact ⟨⟨ps, hsplit⟩, [], splitFrom_nil⟩
    | @next rest hclosed =>
      obtain ⟨front, p, hcuts⟩ := hclosed.exists_cuts
      rw [hcuts.split_append, map_eq_ok_iff] at hsplit
      obtain ⟨qs, hqs, -⟩ := hsplit
      obtain ⟨rs, hrs, rfl⟩ := map_eq_ok_iff.1 ((split_comma rest).symm.trans hqs)
      exact ⟨hclosed, rs, hqs⟩
  obtain ⟨hclosed, qs, hafter⟩ := hend
  obtain ⟨front, p, hcuts⟩ := hclosed.exists_cuts
  refine ⟨front, p, qs, ?_, hafter, hcuts⟩
  rw [hcuts.split_append, hafter] at hsplit
  cases hsplit
  simp [foldr_pushFront]

/-- Characters that the scanner passes over stand in front of the first piece. -/
lemma Plain.split_append_iff {q : List Char} {qs : List (List Char)} (h : Plain cs) :
    split ',' (cs ++ after) = .ok ((cs ++ q) :: qs) ↔ split ',' after = .ok (q :: qs) := by
  rw [split, h.isPiece, ← split, map_eq_ok_iff]
  constructor
  · rintro ⟨ps, hps, hpush⟩
    obtain ⟨p, ps, rfl⟩ := exists_cons_of_split hps
    rw [foldr_pushFront, List.cons.injEq, List.append_cancel_left_eq] at hpush
    rw [hps, hpush.1, hpush.2]
  · exact fun hafter => ⟨q :: qs, hafter, foldr_pushFront cs q qs⟩

end

/-! ### Reading a list in parts -/

section

variable {α : Type} {entry : String → List Char → Except ParseError α}

/-- Components are read one after the other. -/
lemma readComponents_append (ps qs : List (List Char)) : readComponents entry (ps ++ qs) = (do
    let as ← readComponents entry ps
    let bs ← readComponents entry qs
    return as ++ bs) := by
  induction ps with
  | nil =>
    rw [List.nil_append, readComponents, ok_bind]
    cases readComponents entry qs <;> rfl
  | cons p ps ih =>
    rw [List.cons_append, readComponents, readComponents]
    split
    · exact ih
    · split
      · rfl
      · rename_i label raw _
        rw [ih]
        cases entry (String.ofList (trim label)) raw with
        | error e => rfl
        | ok a =>
          cases readComponents entry ps with
          | error e => rfl
          | ok as => cases readComponents entry qs <;> rfl

/-- Two rows of components can be read exactly if each of them can. -/
lemma readComponents_append_eq_ok_iff {ps qs : List (List Char)} {cs : List α} :
    readComponents entry (ps ++ qs) = .ok cs ↔ ∃ as bs,
      readComponents entry ps = .ok as ∧ readComponents entry qs = .ok bs ∧ as ++ bs = cs := by
  simp only [readComponents_append, bind_eq_ok_iff, pure_eq_ok_iff]
  constructor
  · rintro ⟨as, has, bs, hbs, h⟩
    exact ⟨as, bs, has, hbs, h⟩
  · rintro ⟨as, bs, has, hbs, h⟩
    exact ⟨as, has, bs, hbs, h⟩

/-- A component with a label is read with the blanks around the label trimmed off. -/
lemma readComponents_labelled {label raw : List Char} (h : '=' ∉ label) :
    readComponents entry [label ++ '=' :: raw] =
      (fun a => [a]) <$> entry (String.ofList (trim label)) raw := by
  have hblank : isAllBlank (label ++ '=' :: raw) = false :=
    isAllBlank_eq_false (c := '=') (by simp) (by decide)
  rw [readComponents, hblank, if_neg Bool.false_ne_true, splitOnce_append h]
  simp only [readComponents]
  cases entry (String.ofList (trim label)) raw <;> rfl

/-- A blank component gives nothing. -/
lemma readComponents_blank {ws : List Char} (h : isAllBlank ws = true) :
    readComponents entry [ws] = .ok [] := by
  rw [readComponents, if_pos h, readComponents]

/-- A text is cut at the first separator. -/
lemma eq_of_splitOnce {sep : Char} {cs l r : List Char} (h : splitOnce sep cs = some (l, r)) :
    sep ∉ l ∧ cs = l ++ sep :: r := by
  induction cs generalizing l with
  | nil => cases h
  | cons c cs ih =>
    rw [splitOnce] at h
    split at h
    · rename_i hc
      cases h
      exact ⟨List.not_mem_nil, by rw [hc, List.nil_append]⟩
    · rename_i hc
      obtain ⟨⟨l, r⟩, hsplit, heq⟩ := Option.map_eq_some_iff.1 h
      cases heq
      obtain ⟨hsep, rfl⟩ := ih hsplit
      exact ⟨by simp [hsep, Ne.symm hc], rfl⟩

/-- A component that can be read is blank or has a label. -/
lemma blank_or_labelled {p : List Char} {as : List α} (h : readComponents entry [p] = .ok as) :
    isAllBlank p = true ∨ ∃ label raw, '=' ∉ label ∧ p = label ++ '=' :: raw := by
  rw [readComponents] at h
  split at h
  · rename_i hblank
    exact .inl hblank
  · split at h
    · cases h
    · rename_i label raw hsplit
      exact .inr ⟨label, raw, eq_of_splitOnce hsplit⟩

/-- Pieces are read exactly if each one that is not blank has a label and its entry is read. -/
lemma readComponents_eq_ok_iff {ps : List (List Char)} {as : List α} :
    readComponents entry ps = .ok as ↔
      List.Forall₂ (fun p a => ∃ label raw, '=' ∉ label ∧ p = label ++ '=' :: raw ∧
        entry (String.ofList (trim label)) raw = .ok a) (ps.filter fun p => HasContent p) as := by
  induction ps generalizing as with
  | nil => simp [readComponents, eq_comm]
  | cons p ps ih =>
    cases hblank : isAllBlank p with
    | true =>
      have hp : ¬ HasContent p := by simp [← isAllBlank_eq_false_iff, hblank]
      rw [List.filter_cons_of_neg (by simpa using hp), ← ih, readComponents, if_pos hblank]
    | false =>
      have hp : HasContent p := isAllBlank_eq_false_iff.1 hblank
      have hfirst : p :: ps = [p] ++ ps := rfl
      rw [List.filter_cons_of_pos (by simpa using hp), List.forall₂_cons_left_iff, hfirst,
        readComponents_append_eq_ok_iff]
      constructor
      · rintro ⟨as, bs, hread, hps, rfl⟩
        obtain hall | ⟨label, raw, hlabel, rfl⟩ := blank_or_labelled hread
        · exact absurd hall (by simp [hblank])
        · rw [readComponents_labelled hlabel, map_eq_ok_iff] at hread
          obtain ⟨a, ha, rfl⟩ := hread
          exact ⟨a, bs, ⟨label, raw, hlabel, rfl, ha⟩, ih.1 hps, rfl⟩
      · rintro ⟨a, bs, ⟨label, raw, hlabel, rfl, ha⟩, hps, rfl⟩
        refine ⟨[a], bs, ?_, ih.2 hps, rfl⟩
        rw [readComponents_labelled hlabel, ha]
        rfl

end

/-- A reader of components that does not depend on the blanks around raw values and knows labels only that the
scanner passes over. -/
structure IsEntryReader {α : Type} (entry : String → List Char → Except ParseError α) : Prop where
  trims : ∀ label raw raw', trim raw = trim raw' → entry label raw = entry label raw'
  plain : ∀ label raw a, entry label raw = .ok a → Plain label.toList

namespace IsEntryReader

variable {α : Type} {entry : String → List Char → Except ParseError α} {ws p label raw : List Char}
  {as : List α}

/-- Blanks in front of a component do not matter. -/
lemma blanks_in_front (h : readComponents entry [p] = .ok as) (hws : isAllBlank ws = true) :
    readComponents entry [ws ++ p] = .ok as := by
  rcases blank_or_labelled h with hp | ⟨label, raw, hfirst, rfl⟩
  · have hboth : isAllBlank (ws ++ p) = true := by simp_all [isAllBlank]
    rw [readComponents_blank hp] at h
    rw [readComponents_blank hboth, h]
  · have hfirst' : '=' ∉ ws ++ label := by simp [hfirst, equals_not_mem_of_isAllBlank hws]
    rw [readComponents_labelled hfirst] at h
    rw [← List.append_assoc, readComponents_labelled hfirst', trim_append_left hws, h]

/-- Blanks behind a component do not matter to a reader of entries. -/
lemma blanks_behind (hentry : IsEntryReader entry) (h : readComponents entry [p] = .ok as)
    (hws : isAllBlank ws = true) : readComponents entry [p ++ ws] = .ok as := by
  rcases blank_or_labelled h with hp | ⟨label, raw, hfirst, rfl⟩
  · have hboth : isAllBlank (p ++ ws) = true := by simp_all [isAllBlank]
    rw [readComponents_blank hp] at h
    rw [readComponents_blank hboth, h]
  · rw [readComponents_labelled hfirst] at h
    rw [List.append_assoc, List.cons_append, readComponents_labelled hfirst,
      hentry.trims _ _ raw (trim_append_right hws), h]

/-- Blanks in front of the equals sign belong to the label, and blanks behind it to the raw value. -/
lemma blanks_at_equals (hentry : IsEntryReader entry) (hfirst : '=' ∉ label)
    (h : readComponents entry [label ++ '=' :: raw] = .ok as) (hws : isAllBlank ws = true) :
    readComponents entry [label ++ ws ++ '=' :: raw] = .ok as ∧
      readComponents entry [label ++ '=' :: (ws ++ raw)] = .ok as := by
  have hfirst' : '=' ∉ label ++ ws := by simp [hfirst, equals_not_mem_of_isAllBlank hws]
  rw [readComponents_labelled hfirst] at h
  rw [readComponents_labelled hfirst', readComponents_labelled hfirst, trim_append_right hws,
    hentry.trims _ _ raw (trim_append_left hws)]
  exact ⟨h, h⟩

/-- A label that a reader of entries takes has nothing that the scanner stops at. -/
lemma plain_label (hentry : IsEntryReader entry) (hfirst : '=' ∉ label)
    (h : readComponents entry [label ++ '=' :: raw] = .ok as) : Plain label := by
  rw [readComponents_labelled hfirst, map_eq_ok_iff] at h
  obtain ⟨a, ha, -⟩ := h
  have hplain := hentry.plain _ _ _ ha
  rw [String.toList_ofList] at hplain
  exact plain_of_trim hplain

end IsEntryReader

section

variable {α : Type} {entry : String → List Char → Except ParseError α} {as bs : List α}

/-- A piece may be replaced by pieces that are read as the same. -/
lemma read_of_replaced {cs ds p : List Char} {front ps qs : List (List Char)}
    (hold : split ',' cs = .ok (front ++ p :: qs)) (hnew : split ',' ds = .ok (front ++ (ps ++ qs)))
    (hread : ∀ as, readComponents entry [p] = .ok as → readComponents entry ps = .ok as)
    (h : (split ',' cs >>= readComponents entry) = .ok as) :
    (split ',' ds >>= readComponents entry) = .ok as := by
  have hp : front ++ p :: qs = front ++ ([p] ++ qs) := by rw [List.singleton_append]
  rw [hold, ok_bind, hp] at h
  rw [hnew, ok_bind]
  simp only [readComponents_append_eq_ok_iff] at h ⊢
  obtain ⟨as, _, hfront, ⟨bs, cs, hpiece, hqs, rfl⟩, rfl⟩ := h
  exact ⟨as, _, hfront, ⟨bs, cs, hread bs hpiece, hqs, rfl⟩, rfl⟩

/-- Each of the components of a list that can be read can be read alone. -/
lemma readComponents_of_mem {p : List Char} {front qs : List (List Char)}
    (h : readComponents entry (front ++ p :: qs) = .ok as) : ∃ bs, readComponents entry [p] = .ok bs := by
  have hp : front ++ p :: qs = front ++ ([p] ++ qs) := by rw [List.singleton_append]
  rw [hp] at h
  obtain ⟨_, _, -, h, -⟩ := readComponents_append_eq_ok_iff.1 h
  obtain ⟨bs, _, h, -⟩ := readComponents_append_eq_ok_iff.1 h
  exact ⟨bs, h⟩

/-- The parts of a list that is read around a label in it: the scanner starts anew in front of the label,
passes over it, and cuts the raw value off behind the equals sign. -/
lemma HasLabel.exists_pieces (hentry : IsEntryReader entry) {before label after : List Char}
    {ps : List (List Char)} (h : HasLabel before label after)
    (hsplit : split ',' (before ++ (label ++ '=' :: after)) = .ok ps) (hread : readComponents entry ps = .ok as) :
    ∃ front raw qs bs, ps = front ++ (label ++ '=' :: raw) :: qs ∧
      (∀ rest, split ',' (before ++ rest) = (front ++ ·) <$> split ',' rest) ∧
      Plain label ∧ split ',' after = .ok (raw :: qs) ∧
      readComponents entry [label ++ '=' :: raw] = .ok bs := by
  obtain ⟨raw, qs, hcomponent⟩ := h.component
  obtain ⟨front, hfront⟩ := h.starts.exists_split_append
  have hps : ps = front ++ (label ++ '=' :: raw) :: qs := by
    rw [hfront, hcomponent] at hsplit
    cases hsplit
    rfl
  subst hps
  obtain ⟨bs, hbs⟩ := readComponents_of_mem hread
  have hplain := hentry.plain_label h.first hbs
  have hequals : Plain (label ++ ['=']) := hplain.append plain_equals
  refine ⟨front, raw, qs, bs, rfl, hfront, hplain, ?_, hbs⟩
  rw [List.append_cons, List.append_cons label '=' raw] at hcomponent
  exact hequals.split_append_iff.1 hcomponent

/-- Blanks in a gap do not change what is read. -/
lemma read_of_gap (hentry : IsEntryReader entry) {before after ws : List Char} (hws : isAllBlank ws = true)
    (hgap : Gap before after) (h : (split ',' (before ++ after) >>= readComponents entry) = .ok as) :
    (split ',' (before ++ ws ++ after) >>= readComponents entry) = .ok as := by
  have hplain := plain_of_isAllBlank hws
  obtain ⟨ps, hsplit, hread⟩ := bind_eq_ok_iff.1 h
  rw [List.append_assoc]
  -- Wherever the gap is, the blanks come into one piece, whose reader trims them off again.
  cases hgap with
  | start hstart =>
    obtain ⟨front, q, qs, rfl, hafter, hbefore⟩ := hstart.exists_pieces hsplit
    have hnew : split ',' (before ++ (ws ++ after)) = .ok (front ++ ([ws ++ q] ++ qs)) := by
      rw [hbefore, hplain.split_append_iff.2 hafter]
      rfl
    exact read_of_replaced hsplit hnew (fun _ hq => IsEntryReader.blanks_in_front hq hws) h
  | finish hfinish =>
    obtain ⟨front, p, qs, rfl, hafter, hcuts⟩ := hfinish.exists_pieces hsplit
    have hnew : split ',' (before ++ (ws ++ after)) = .ok (front ++ ([p ++ ws] ++ qs)) := by
      rw [hcuts.split_append, hplain.split_append_iff.2 hafter]
      simp [Functor.map, Except.map, foldr_pushFront]
    exact read_of_replaced hsplit hnew (fun _ hp => hentry.blanks_behind hp hws) h
  | @beforeEquals before label after hlabel =>
    rw [List.append_assoc] at hsplit h ⊢
    obtain ⟨front, raw, qs, _, rfl, hbefore, hlabelPlain, hafter, -⟩ := hlabel.exists_pieces hentry hsplit hread
    have hnew : split ',' (before ++ (label ++ (ws ++ '=' :: after))) =
        .ok (front ++ ([label ++ ws ++ '=' :: raw] ++ qs)) := by
      -- The scanner passes over the label, as it does over the blanks, for the label was read.
      have hpassed : Plain (label ++ ws ++ ['=']) := (hlabelPlain.append hplain).append plain_equals
      have hpiece := hpassed.split_append_iff.2 hafter
      rw [hbefore, ← List.append_assoc, List.append_cons, hpiece]
      simp [Functor.map, Except.map]
    exact read_of_replaced hsplit hnew
      (fun _ hp => (hentry.blanks_at_equals hlabel.first hp hws).1) h
  | @afterEquals before label after hlabel =>
    rw [List.append_assoc, List.append_assoc, List.singleton_append] at hsplit h
    obtain ⟨front, raw, qs, _, rfl, hbefore, hlabelPlain, hafter, -⟩ := hlabel.exists_pieces hentry hsplit hread
    have hnew : split ',' (before ++ label ++ ['='] ++ (ws ++ after)) =
        .ok (front ++ ([label ++ '=' :: (ws ++ raw)] ++ qs)) := by
      have hpassed : Plain (label ++ ['='] ++ ws) := (hlabelPlain.append plain_equals).append hplain
      have hpiece := hpassed.split_append_iff.2 hafter
      rw [List.append_assoc, List.append_assoc, hbefore, ← List.append_assoc, ← List.append_assoc, hpiece]
      simp [Functor.map, Except.map]
    exact read_of_replaced hsplit hnew
      (fun _ hp => (hentry.blanks_at_equals hlabel.first hp hws).2) h

/-- A list that is spread out is read as before. -/
lemma read_of_spreads (hentry : IsEntryReader entry) {cs ds : List Char} (hspread : Spreads cs ds)
    (h : (split ',' cs >>= readComponents entry) = .ok as) :
    (split ',' ds >>= readComponents entry) = .ok as := by
  obtain ⟨ps, hsplit, hread⟩ := bind_eq_ok_iff.1 h
  cases hspread with
  | blanks hws hgap => exact read_of_gap hentry hws hgap h
  | @componentInFront before after ws hws hstart =>
    obtain ⟨front, q, qs, rfl, hafter, hbefore⟩ := hstart.exists_pieces hsplit
    have hnew : split ',' (before ++ ws ++ ',' :: after) = .ok (front ++ ([ws, q] ++ qs)) := by
      have hcomma : split ',' (',' :: after) = .ok ([] :: q :: qs) := by
        rw [split_comma, hafter]
        rfl
      rw [List.append_assoc, hbefore, (plain_of_isAllBlank hws).split_append_iff.2 hcomma, List.append_nil]
      rfl
    refine read_of_replaced hsplit hnew (fun as hq => ?_) h
    exact readComponents_append_eq_ok_iff.2 ⟨[], as, readComponents_blank hws, hq, rfl⟩
  | @componentBehind before after ws hws hfinish =>
    obtain ⟨front, p, qs, rfl, hafter, hcuts⟩ := hfinish.exists_pieces hsplit
    have hnew : split ',' (before ++ ',' :: ws ++ after) = .ok (front ++ ([p, ws] ++ qs)) := by
      have hblank := (plain_of_isAllBlank hws).split_append_iff.2 hafter
      rw [List.append_assoc, List.cons_append, hcuts.split_append, split_comma, hblank]
      simp [Functor.map, Except.map, foldr_pushFront]
    refine read_of_replaced hsplit hnew (fun as hp => ?_) h
    exact readComponents_append_eq_ok_iff.2 ⟨as, [], hp, readComponents_blank hws, List.append_nil as⟩

/-- However often a list is spread out, it is read as before. -/
lemma components_of_spreads (hentry : IsEntryReader entry) {s t : String}
    (hspread : Relation.ReflTransGen Spreads s.toList t.toList) (h : components entry s = .ok as) :
    components entry t = .ok as := by
  have hread : ∀ cs, Relation.ReflTransGen Spreads s.toList cs →
      (split ',' cs >>= readComponents entry) = .ok as := by
    intro cs hcs
    induction hcs with
    | refl => exact h
    | tail _ hstep ih => exact read_of_spreads hentry hstep ih
  exact hread _ hspread

/-- Texts that are cut are cut where they were joined. -/
lemma split_joined {s t : String} {ps qs : List (List Char)} (hs : split ',' s.toList = .ok ps)
    (ht : split ',' t.toList = .ok qs) : split ',' (s ++ "," ++ t).toList = .ok (ps ++ qs) := by
  have htext : (s ++ "," ++ t).toList = s.toList ++ ',' :: t.toList := by simp
  rw [htext, split_append_comma hs, ht]
  rfl

/-- Lists that are joined by a comma are read one after the other. -/
lemma components_append {s t : String} (hs : components entry s = .ok as) (ht : components entry t = .ok bs) :
    components entry (s ++ "," ++ t) = .ok (as ++ bs) := by
  obtain ⟨ps, hps, has⟩ := bind_eq_ok_iff.1 hs
  obtain ⟨qs, hqs, hbs⟩ := bind_eq_ok_iff.1 ht
  rw [components, split_joined hps hqs, ok_bind]
  exact readComponents_append_eq_ok_iff.2 ⟨as, bs, has, hbs, rfl⟩

end

end CertAuthority.Text

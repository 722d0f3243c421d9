import CertAuthority.Oid
import CertAuthority.Proofs.Error
import CertAuthority.Proofs.Octets

/-!
# The dotted form of an object identifier

The arcs that a text gives are held in base 128 (`arcs_encodeArcs`), and the dotted form of arcs that were
once accepted is accepted again (`readArcs_dotted`). So an identifier that was read from a text is read
from its own dotted form (`parse_text`).
-/

namespace CertAuthority

/-! ### Octets of a text -/

/-- The octets of a text are those of its characters in a row. -/
lemma Octets.ofString_ofList (cs : List Char) :
    Octets.ofString (String.ofList cs) = cs.flatMap String.utf8EncodeChar := by
  simp [Octets.ofString, List.utf8Encode]

/-- An ASCII character is one octet. -/
lemma utf8EncodeChar_of_lt {c : Char} (h : c.toNat < 128) :
    String.utf8EncodeChar c = [UInt8.ofNat c.toNat] := by
  have hle : c.val.toNat ≤ 127 := Nat.le_of_lt_succ h
  simp only [String.utf8EncodeChar, if_pos hle]
  rfl

/-- A character above ASCII starts with a high octet. -/
lemma utf8EncodeChar_of_not_lt {c : Char} (h : ¬ c.toNat < 128) :
    ∃ n rest, 128 ≤ n ∧ n < 256 ∧ String.utf8EncodeChar c = UInt8.ofNat n :: rest := by
  have hle : ¬ c.val.toNat ≤ 127 := fun hle => h (Nat.lt_succ_of_le hle)
  simp only [String.utf8EncodeChar, if_neg hle]
  split
  · exact ⟨c.val.toNat / 64 % 32 + 192, _, by omega, by omega, rfl⟩
  · split
    · exact ⟨c.val.toNat / 4096 % 16 + 224, _, by omega, by omega, rfl⟩
    · exact ⟨c.val.toNat / 262144 % 8 + 240, _, by omega, by omega, rfl⟩

/-- A character above ASCII has high octets only. -/
lemma le_of_mem_utf8EncodeChar {c : Char} {b : UInt8} (h : ¬ c.toNat < 128) (hb : b ∈ String.utf8EncodeChar c) :
    128 ≤ b.toNat := by
  have hle : ¬ c.val.toNat ≤ 127 := fun hle => h (Nat.lt_succ_of_le hle)
  have hoctet {n : Nat} (hlow : 128 ≤ n) (hhigh : n < 256) : 128 ≤ (UInt8.ofNat n).toNat := by
    rw [Octets.toNat_ofNat_octet hhigh]
    exact hlow
  simp only [String.utf8EncodeChar, if_neg hle] at hb
  split at hb
  · simp only [List.mem_cons, List.not_mem_nil, or_false] at hb
    rcases hb with rfl | rfl <;> exact hoctet (by omega) (by omega)
  · split at hb
    · simp only [List.mem_cons, List.not_mem_nil, or_false] at hb
      rcases hb with rfl | rfl | rfl <;> exact hoctet (by omega) (by omega)
    · simp only [List.mem_cons, List.not_mem_nil, or_false] at hb
      rcases hb with rfl | rfl | rfl | rfl <;> exact hoctet (by omega) (by omega)

/-- A low octet of a text is one of its characters. -/
lemma Octets.exists_of_mem_ofString {s : String} {b : UInt8} (h : b ∈ ofString s) (hlow : b.toNat < 128) :
    ∃ c ∈ s.toList, c.toNat = b.toNat := by
  rw [← String.ofList_toList (s := s), ofString_ofList] at h
  obtain ⟨c, hc, hb⟩ := List.mem_flatMap.1 h
  refine ⟨c, hc, ?_⟩
  by_cases hlt : c.toNat < 128
  · rw [utf8EncodeChar_of_lt hlt, List.mem_singleton] at hb
    rw [hb]
    exact (toNat_ofNat_octet (by omega)).symm
  · have hhigh := le_of_mem_utf8EncodeChar hlt hb
    omega

namespace Oid

/-! ### Base 128 -/

/-- The high digits of a number do not depend on what stands behind them. -/
lemma base128High_append (n : Nat) (tail rest : Octets) :
    base128High n tail ++ rest = base128High n (tail ++ rest) := by
  induction n, tail using base128High.induct with
  | case1 tail => simp [base128High]
  | case2 n tail hn ih =>
    rw [base128High, if_neg hn, ih, List.cons_append]
    conv_rhs => rw [base128High, if_neg hn]

/-- The higher digits are read before what follows them. -/
lemma readBase128_base128High (n : Nat) (tail : Octets) :
    readBase128 0 (base128High n tail) = readBase128 (n % UInt32.size) tail := by
  induction n, tail using base128High.induct with
  | case1 tail => simp [base128High]
  | case2 n tail hn ih =>
    have hoctet : (UInt8.ofNat (128 + n % 128)).toNat = 128 + n % 128 := Octets.toNat_ofNat_octet (by omega)
    have hhigh : ¬ UInt8.ofNat (128 + n % 128) < 128 := by
      rw [UInt8.lt_iff_toNat_lt, hoctet]
      simp
    have hnumber : (n / 128 % UInt32.size * 128 + (128 + n % 128) % 128) % UInt32.size =
        n % UInt32.size := by
      simp only [UInt32.size]
      omega
    rw [base128High, if_neg hn, ih, readBase128, if_neg hhigh, hoctet, hnumber]

/-- A number that was written in base 128 is read again in front of others. -/
lemma readBase128_base128 {n : Nat} (h : n < UInt32.size) (rest : Octets) :
    readBase128 0 (base128 n ++ rest) = n :: readBase128 0 rest := by
  have hoctet : (UInt8.ofNat (n % 128)).toNat = n % 128 := Octets.toNat_ofNat_octet (by omega)
  have hlow : UInt8.ofNat (n % 128) < 128 := by
    rw [UInt8.lt_iff_toNat_lt, hoctet]
    exact Nat.mod_lt n (by decide)
  have hnumber : (n / 128 % UInt32.size * 128 + n % 128 % 128) % UInt32.size = n := by
    simp only [UInt32.size] at h ⊢
    omega
  rw [base128, base128High_append, readBase128_base128High, List.singleton_append, readBase128, if_pos hlow,
    hoctet, hnumber]

/-- Numbers that were written in base 128 in a row are read again. -/
lemma readBase128_flatMap {arcs : List Nat} (h : ∀ a ∈ arcs, a < UInt32.size) :
    readBase128 0 (arcs.flatMap base128) = arcs := by
  induction arcs with
  | nil => rfl
  | cons a arcs ih =>
    rw [List.flatMap_cons, readBase128_base128 (h a List.mem_cons_self),
      ih fun a ha => h a (List.mem_cons_of_mem _ ha)]

/-! ### Accepted arcs -/

/-- Arcs that can be taken one after the other. -/
structure Accepted (arcs : List Nat) : Prop where
  pushed : arcs.foldlM pushArc [] = .ok arcs
  small : ∀ a ∈ arcs, a < UInt32.size

/-- An arc that is accepted is put behind the others. -/
lemma eq_append_of_pushArc {arcs arcs' : List Nat} {arc : Nat} (h : pushArc arcs arc = .ok arcs') :
    arcs' = arcs ++ [arc] := by
  unfold pushArc at h
  split at h <;> split at h <;> cases h <;> rfl

/-- There is nothing to accept before the first arc. -/
lemma accepted_nil : Accepted [] :=
  ⟨rfl, by simp⟩

/-- Arcs that were accepted with one more are accepted. -/
lemma Accepted.push {arcs arcs' : List Nat} {arc : Nat} (ha : Accepted arcs) (harc : arc < UInt32.size)
    (h : pushArc arcs arc = .ok arcs') : Accepted arcs' := by
  have heq := eq_append_of_pushArc h
  constructor
  · conv_lhs => rw [heq]
    rw [List.foldlM_append, ha.pushed, ok_bind, List.foldlM_cons, h, ok_bind]
    rfl
  · rw [heq]
    intro a hmem
    cases List.mem_append.1 hmem with
    | inl hmem => exact ha.small a hmem
    | inr hmem => exact List.mem_singleton.1 hmem ▸ harc

/-- Only arcs that can be taken are read. -/
lemma Accepted.readArcs {arcs out : List Nat} {current : Nat} {bs : Octets} (ha : Accepted arcs)
    (hcurrent : current < UInt32.size) (h : readArcs arcs current bs = .ok out) : Accepted out := by
  induction bs generalizing arcs current with
  | nil => exact ha.push hcurrent h
  | cons b bs ih =>
    rw [Oid.readArcs] at h
    split at h
    · simp only at h
      split at h
      · cases h
      · rename_i hnext
        exact ih ha (Nat.lt_of_not_le hnext) h
    · split at h
      · split at h
        · cases h
        · split at h
          · cases h
          · rename_i hpush
            exact ih (ha.push hcurrent hpush) (by decide) h
      · cases h

/-- The first two arcs of an identifier fit one octet. -/
lemma Accepted.first_le {a b : Nat} {arcs : List Nat} (ha : Accepted (a :: b :: arcs)) :
    a ≤ 2 ∧ b ≤ 39 := by
  have h := ha.pushed
  rw [List.foldlM_cons] at h
  obtain ⟨first, hfirst, h⟩ := bind_eq_ok_iff.1 h
  rw [List.foldlM_cons] at h
  obtain ⟨second, hsecond, -⟩ := bind_eq_ok_iff.1 h
  cases eq_append_of_pushArc hfirst
  constructor
  · by_contra hle
    simp [pushArc, Nat.lt_of_not_le hle] at hfirst
  · by_contra hle
    simp [pushArc, Nat.lt_of_not_le hle] at hsecond

/-- The arcs that an identifier was made of are its arcs. -/
lemma arcs_encodeArcs {arcs : List Nat} {oid : Oid} (ha : Accepted arcs) (hlength : ¬ arcs.length < 3)
    (h : ofOctets? (encodeArcs arcs) = some oid) : oid.arcs = arcs := by
  have hoctets : oid.octets = encodeArcs arcs := by
    unfold ofOctets? at h
    split at h
    · cases h
      rfl
    · cases h
  obtain _ | ⟨a, _ | ⟨b, arcs⟩⟩ := arcs
  · exact absurd (show 0 < 3 by decide) hlength
  · exact absurd (show 1 < 3 by decide) hlength
  · have hfirst := ha.first_le
    have hoctet : (UInt8.ofNat (a * 40 + b)).toNat = a * 40 + b := Octets.toNat_ofNat_octet (by omega)
    have hrest : readBase128 0 (arcs.flatMap base128) = arcs :=
      readBase128_flatMap fun c hc => ha.small c (List.mem_cons_of_mem _ (List.mem_cons_of_mem _ hc))
    simp only [Oid.arcs, hoctets, encodeArcs, hoctet, hrest]
    congr 1
    · omega
    · congr 1
      omega

/-! ### Dotted form -/

/-- Arcs in decimal with full stops between them. -/
def dotted (arcs : List Nat) : List Char :=
  List.intercalate ['.'] (arcs.map (Nat.toDigits 10))

/-- The dotted form of an identifier is that of its arcs. -/
lemma text_eq (oid : Oid) : oid.text = String.ofList (dotted oid.arcs) := by
  have hdigits : String.toList ∘ toString = Nat.toDigits 10 := funext fun _ => Nat.toList_repr
  rw [← String.toList_inj, text, String.toList_intercalate, List.map_map, hdigits]
  simp only [String.toList_ofList, dotted]
  rfl

/-- The octet of an ASCII character is a digit exactly if the character is. -/
lemma isDigit_ofNat {c : Char} (h : c.toNat < 128) :
    isDigit (UInt8.ofNat c.toNat) = true ↔ c.isDigit = true := by
  have hoctet : (UInt8.ofNat c.toNat).toNat = c.toNat := Octets.toNat_ofNat_octet (by omega)
  simp only [isDigit, Char.isDigit, Bool.and_eq_true, decide_eq_true_eq, UInt8.le_iff_toNat_le, hoctet,
    UInt32.le_iff_toNat_le, ge_iff_le]
  rfl

/-- The dotted form begins with a digit. -/
lemma exists_dotted_eq_cons (a : Nat) (arcs : List Nat) :
    ∃ c cs, c.isDigit = true ∧ dotted (a :: arcs) = c :: cs := by
  obtain ⟨c, cs, hc⟩ := List.exists_cons_of_ne_nil (Nat.toDigits_ne_nil : Nat.toDigits 10 a ≠ [])
  have hdigit : c.isDigit = true :=
    Nat.isDigit_of_mem_toDigits (by decide) (by decide) (hc ▸ List.mem_cons_self : c ∈ Nat.toDigits 10 a)
  cases arcs with
  | nil => exact ⟨c, cs, hdigit, by rw [dotted, List.map_singleton, List.intercalate_singleton, hc]⟩
  | cons b arcs =>
    refine ⟨c, cs ++ ['.'] ++ dotted (b :: arcs), hdigit, ?_⟩
    rw [dotted, List.map_cons, List.map_cons, List.intercalate_cons_cons, hc]
    rfl

/-- Further digits make a number no smaller. -/
lemma le_ofDigitChars (cs : List Char) (n : Nat) : n ≤ Nat.ofDigitChars 10 cs n := by
  induction cs generalizing n with
  | nil => exact Nat.le_refl n
  | cons c cs ih =>
    rw [Nat.ofDigitChars_cons]
    have hstep := ih (10 * n + (c.toNat - '0'.toNat))
    omega

/-- Digits are read as the number that they write after the one that was begun. -/
lemma readArcs_digits {cs : List Char} {current : Nat} (arcs : List Nat) (rest : Octets)
    (hdigit : ∀ c ∈ cs, c.isDigit = true) (hsmall : Nat.ofDigitChars 10 cs current < UInt32.size) :
    readArcs arcs current (cs.flatMap String.utf8EncodeChar ++ rest) =
      readArcs arcs (Nat.ofDigitChars 10 cs current) rest := by
  induction cs generalizing current with
  | nil => rfl
  | cons c cs ih =>
    have hbounds : 48 ≤ c.toNat ∧ c.toNat ≤ 57 := Char.isDigit_iff_toNat.1 (hdigit c List.mem_cons_self)
    have hoctet : (UInt8.ofNat c.toNat).toNat = c.toNat := Octets.toNat_ofNat_octet (by omega)
    have hnext : current * 10 + (c.toNat - 48) = 10 * current + (c.toNat - '0'.toNat) := by
      rw [Nat.mul_comm]
      rfl
    rw [Nat.ofDigitChars_cons] at hsmall ⊢
    have hle : ¬ UInt32.size ≤ 10 * current + (c.toNat - '0'.toNat) :=
      Nat.not_le_of_lt (Nat.lt_of_le_of_lt (le_ofDigitChars cs _) hsmall)
    rw [List.flatMap_cons, utf8EncodeChar_of_lt (by omega), List.singleton_append, List.cons_append, readArcs,
      if_pos (isDigit_ofNat (by omega) |>.2 (hdigit c List.mem_cons_self)), hoctet]
    simp only [hnext]
    rw [if_neg hle, ih (fun c hc => hdigit c (List.mem_cons_of_mem _ hc)) hsmall]

/-- The digits of an arc are read as the arc. -/
lemma readArcs_toDigits {arc : Nat} (arcs : List Nat) (rest : Octets) (h : arc < UInt32.size) :
    readArcs arcs 0 ((Nat.toDigits 10 arc).flatMap String.utf8EncodeChar ++ rest) =
      readArcs arcs arc rest := by
  have hnumber : Nat.ofDigitChars 10 (Nat.toDigits 10 arc) 0 = arc :=
    Nat.ofDigitChars_toDigits (by decide) (by decide)
  rw [readArcs_digits arcs rest (fun c => Nat.isDigit_of_mem_toDigits (by decide) (by decide))
    (hnumber.symm ▸ h), hnumber]

/-- Reading the dotted form takes the arcs one after the other. -/
lemma readArcs_dotted {arcs : List Nat} (taken : List Nat) (hne : arcs ≠ [])
    (h : ∀ a ∈ arcs, a < UInt32.size) :
    readArcs taken 0 ((dotted arcs).flatMap String.utf8EncodeChar) = arcs.foldlM pushArc taken := by
  induction arcs generalizing taken with
  | nil => exact absurd rfl hne
  | cons a arcs ih =>
    have ha := h a List.mem_cons_self
    cases arcs with
    | nil =>
      rw [dotted, List.map_singleton, List.intercalate_singleton,
        ← List.append_nil ((Nat.toDigits 10 a).flatMap String.utf8EncodeChar), readArcs_toDigits _ _ ha,
        readArcs, List.foldlM_cons]
      cases pushArc taken a <;> rfl
    | cons b arcs =>
      have hdot : String.utf8EncodeChar '.' = [46] := rfl
      obtain ⟨c, cs, hc, hcs⟩ := exists_dotted_eq_cons b arcs
      have hrest : ((dotted (b :: arcs)).flatMap String.utf8EncodeChar).isEmpty = false := by
        have hbounds : 48 ≤ c.toNat ∧ c.toNat ≤ 57 := Char.isDigit_iff_toNat.1 hc
        rw [hcs, List.flatMap_cons, utf8EncodeChar_of_lt (by omega)]
        rfl
      rw [dotted, List.map_cons, List.map_cons, List.intercalate_cons_cons, List.append_assoc,
        List.flatMap_append, readArcs_toDigits _ _ ha, List.singleton_append, List.flatMap_cons, hdot,
        List.singleton_append, readArcs, if_neg (by decide), if_pos rfl, ← List.map_cons, ← dotted,
        hrest, if_neg Bool.false_ne_true, List.foldlM_cons]
      cases pushArc taken a with
      | error e => rfl
      | ok taken' => exact ih taken' (List.cons_ne_nil b arcs) fun c hc => h c (List.mem_cons_of_mem _ hc)

/-- A text is an identifier exactly if it starts with a digit and has three arcs or more that can be held. -/
lemma parse_eq_ok_iff {s : String} {oid : Oid} :
    parse s = .ok oid ↔ (∃ b rest, Octets.ofString s = b :: rest ∧ isDigit b = true) ∧
      ∃ arcs, readArcs [] 0 (Octets.ofString s) = .ok arcs ∧ ¬ arcs.length < 3 ∧
        ofOctets? (encodeArcs arcs) = some oid := by
  rw [parse]
  cases Octets.ofString s with
  | nil => simp
  | cons b rest =>
    cases hb : isDigit b with
    | false => simp [hb]
    | true =>
      simp only [hb, if_true, bind_eq_ok_iff]
      constructor
      · rintro ⟨arcs, hread, h⟩
        split at h
        · cases h
        · rename_i hlength
          split at h
          · rename_i oid' hoid
            cases h
            exact ⟨⟨b, rest, rfl, hb⟩, arcs, hread, hlength, hoid⟩
          · cases h
      · rintro ⟨-, arcs, hread, hlength, hoid⟩
        exact ⟨arcs, hread, by rw [if_neg hlength, hoid]⟩

/-- An identifier that was read from a text is read from its dotted form. -/
theorem parse_text {s : String} {oid : Oid} (h : parse s = .ok oid) : parse oid.text = .ok oid := by
  obtain ⟨-, arcs, hread, hlength, hoid⟩ := parse_eq_ok_iff.1 h
  have ha : Accepted arcs := accepted_nil.readArcs (by decide) hread
  have harcs : oid.arcs = arcs := arcs_encodeArcs ha hlength hoid
  have hne : arcs ≠ [] := by
    rintro rfl
    exact hlength (by decide)
  rw [text_eq, harcs, parse_eq_ok_iff, Octets.ofString_ofList]
  constructor
  · obtain ⟨a, rest, rfl⟩ := List.exists_cons_of_ne_nil hne
    obtain ⟨c, cs, hc, hcs⟩ := exists_dotted_eq_cons a rest
    have hbounds : 48 ≤ c.toNat ∧ c.toNat ≤ 57 := Char.isDigit_iff_toNat.1 hc
    exact ⟨_, _, by rw [hcs, List.flatMap_cons, utf8EncodeChar_of_lt (by omega)]; rfl,
      (isDigit_ofNat (by omega)).2 hc⟩
  · refine ⟨arcs, ?_, hlength, hoid⟩
    rw [readArcs_dotted [] hne ha.small, ha.pushed]

/-! ### Characters -/

/-- The octets of a text that is read as arcs are digits and full stops. -/
lemma isDigit_or_eq_of_readArcs {bs : Octets} {arcs out : List Nat} {current : Nat}
    (h : readArcs arcs current bs = .ok out) : ∀ b ∈ bs, isDigit b = true ∨ b = 46 := by
  induction bs generalizing arcs current with
  | nil => simp
  | cons b bs ih =>
    rw [readArcs] at h
    split at h
    · rename_i hb
      simp only at h
      split at h
      · cases h
      · exact List.forall_mem_cons.2 ⟨.inl hb, ih h⟩
    · split at h
      · rename_i hb
        split at h
        · cases h
        · split at h
          · cases h
          · exact List.forall_mem_cons.2 ⟨.inr hb, ih h⟩
      · cases h

/-- So are the characters of a text that is an identifier. -/
lemma isDigit_or_eq_of_parse {s : String} {oid : Oid} (h : parse s = .ok oid) :
    ∀ c ∈ s.toList, c.isDigit = true ∨ c = '.' := by
  obtain ⟨-, arcs, hread, -⟩ := parse_eq_ok_iff.1 h
  have hoctets := isDigit_or_eq_of_readArcs hread
  rw [← String.ofList_toList (s := s), Octets.ofString_ofList] at hoctets
  intro c hc
  have hmem : ∀ b ∈ String.utf8EncodeChar c, isDigit b = true ∨ b = 46 := fun b hb =>
    hoctets b (List.mem_flatMap.2 ⟨c, by simpa using hc, hb⟩)
  by_cases hlt : c.toNat < 128
  · have hoctet : (UInt8.ofNat c.toNat).toNat = c.toNat := Octets.toNat_ofNat_octet (by omega)
    cases hmem _ (utf8EncodeChar_of_lt hlt ▸ List.mem_cons_self) with
    | inl hdigit => exact .inl ((isDigit_ofNat hlt).1 hdigit)
    | inr hdot =>
      have hnat : c.toNat = '.'.toNat := hoctet.symm.trans (congrArg UInt8.toNat hdot)
      exact .inr (Char.toNat_inj.1 hnat)
  · obtain ⟨n, rest, hlow, hhigh, he⟩ := utf8EncodeChar_of_not_lt hlt
    have hoctet : (UInt8.ofNat n).toNat = n := Octets.toNat_ofNat_octet hhigh
    have hb := hmem (UInt8.ofNat n) (he ▸ List.mem_cons_self)
    simp only [isDigit, Bool.and_eq_true, decide_eq_true_eq, UInt8.le_iff_toNat_le, hoctet,
      ← UInt8.toNat_inj] at hb
    simp at hb
    omega

/-- A text that is an identifier begins with a digit. -/
lemma exists_digit_of_parse {s : String} {oid : Oid} (h : parse s = .ok oid) :
    ∃ c cs, s.toList = c :: cs ∧ c.isDigit = true := by
  obtain ⟨⟨b, rest, hfirst, hb⟩, -⟩ := parse_eq_ok_iff.1 h
  rw [← String.ofList_toList (s := s), Octets.ofString_ofList] at hfirst
  cases hs : s.toList with
  | nil => simp [hs] at hfirst
  | cons c cs =>
    refine ⟨c, cs, rfl, ?_⟩
    cases isDigit_or_eq_of_parse h c (hs ▸ List.mem_cons_self) with
    | inl hdigit => exact hdigit
    | inr hdot =>
      have hoctet : String.utf8EncodeChar '.' = [46] := rfl
      simp only [hs, List.flatMap_cons, hdot, hoctet, List.singleton_append, List.cons.injEq] at hfirst
      rw [← hfirst.1] at hb
      exact absurd hb (by decide)

end Oid

end CertAuthority

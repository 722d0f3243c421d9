import CertAuthority.Proofs.Octets
import CertAuthority.Text.Utf16

/-!
# Texts in UTF-16 are read as they were written

Every character has one unit of sixteen bits or a pair of units from two ranges that no character has for itself.
So the units of a text are told apart again (`charactersOf?_flatMap`), and a text is read from its octets
(`utf16Decode?_utf16Encode`). How many units it has depends on how many of its characters take a pair
(`length_flatMap_utf16Units`).
-/

namespace CertAuthority.Text

/-- A character is no half of a pair. -/
lemma toNat_lt_or_lt (c : Char) : c.toNat < 0xD800 ∨ 0xDFFF < c.toNat ∧ c.toNat < 0x110000 :=
  c.valid

/-- Every unit has sixteen bits. -/
lemma lt_of_mem_utf16Units {c : Char} {n : Nat} (h : n ∈ utf16Units c) : n < 0x10000 := by
  have hc := toNat_lt_or_lt c
  unfold utf16Units at h
  dsimp only at h
  split at h
  · rw [List.mem_singleton.1 h]
    assumption
  · simp only [List.mem_cons, List.not_mem_nil, or_false] at h
    omega

/-- A unit that is no half of a pair stands for a character. -/
lemma charactersOf?_cons {n : Nat} (h : n < 0xD800 ∨ 0xDFFF < n) (units : List Nat) :
    charactersOf? (n :: units) = (charactersOf? units).map (Char.ofNat n :: ·) := by
  have hhigh : ¬ (decide (0xD800 ≤ n) && decide (n < 0xDC00)) = true := by
    simp only [Bool.and_eq_true, decide_eq_true_eq]
    omega
  have hlow : ¬ (decide (0xDC00 ≤ n) && decide (n < 0xE000)) = true := by
    simp only [Bool.and_eq_true, decide_eq_true_eq]
    omega
  rw [charactersOf?.eq_def]
  dsimp only
  rw [if_neg hhigh, if_neg hlow]

/-- Two units from the two ranges stand for a character together. -/
lemma charactersOf?_pair {high low : Nat} (hhigh : high < 0x400) (hlow : low < 0x400) (units : List Nat) :
    charactersOf? ((0xD800 + high) :: (0xDC00 + low) :: units) =
      (charactersOf? units).map (Char.ofNat (0x10000 + high * 0x400 + low) :: ·) := by
  have hfirst : (decide (0xD800 ≤ 0xD800 + high) && decide (0xD800 + high < 0xDC00)) = true := by
    simp only [Bool.and_eq_true, decide_eq_true_eq]
    omega
  have hsecond : (decide (0xDC00 ≤ 0xDC00 + low) && decide (0xDC00 + low < 0xE000)) = true := by
    simp only [Bool.and_eq_true, decide_eq_true_eq]
    omega
  rw [charactersOf?.eq_def]
  dsimp only
  rw [if_pos hfirst, if_pos hsecond, Nat.add_sub_cancel_left, Nat.add_sub_cancel_left]

/-- The units of a character are read before those that follow them. -/
lemma charactersOf?_utf16Units_append (c : Char) (units : List Nat) :
    charactersOf? (utf16Units c ++ units) = (charactersOf? units).map (c :: ·) := by
  have hc := toNat_lt_or_lt c
  unfold utf16Units
  dsimp only
  split
  · rw [List.singleton_append, charactersOf?_cons (by omega), Char.ofNat_toNat]
  · have hhigh : (c.toNat - 0x10000) / 0x400 < 0x400 := by omega
    have hlow : (c.toNat - 0x10000) % 0x400 < 0x400 := Nat.mod_lt _ (by decide)
    have hnumber : 0x10000 + (c.toNat - 0x10000) / 0x400 * 0x400 + (c.toNat - 0x10000) % 0x400 = c.toNat := by
      omega
    rw [List.cons_append, List.singleton_append, charactersOf?_pair hhigh hlow, hnumber,
      Char.ofNat_toNat]

/-- The units of a text stand for its characters. -/
lemma charactersOf?_flatMap (cs : List Char) : charactersOf? (cs.flatMap utf16Units) = some cs := by
  induction cs with
  | nil => rw [List.flatMap_nil, charactersOf?]
  | cons c cs ih => rw [List.flatMap_cons, charactersOf?_utf16Units_append, ih, Option.map_some]

/-- Units are read from two octets each. -/
lemma unitsOf?_flatMap_fixed {units : List Nat} (h : ∀ n ∈ units, n < 0x10000) :
    unitsOf? (units.flatMap (Octets.fixed 2)) = some units := by
  induction units with
  | nil => rfl
  | cons n units ih =>
    have hn : n < 0x10000 := h n List.mem_cons_self
    have hhigh : (UInt8.ofNat (n / 256)).toNat = n / 256 := Octets.toNat_ofNat_octet (by omega)
    have hlow : (UInt8.ofNat n).toNat = n % 256 := UInt8.toNat_ofNat
    have hfixed : Octets.fixed 2 n = [UInt8.ofNat (n / 256), UInt8.ofNat n] := by
      simp [Octets.fixed]
    rw [List.flatMap_cons, hfixed, List.cons_append, List.cons_append, List.nil_append, unitsOf?,
      ih fun m hm => h m (List.mem_cons_of_mem n hm), hhigh, hlow, Nat.div_add_mod', Option.map_some]

/-- The units of a text are read from its octets. -/
lemma unitsOf?_utf16Encode (s : String) : unitsOf? (utf16Encode s) = some (s.toList.flatMap utf16Units) := by
  have hunits : ∀ n ∈ s.toList.flatMap utf16Units, n < 0x10000 := by
    intro n hn
    obtain ⟨c, -, hn⟩ := List.mem_flatMap.1 hn
    exact lt_of_mem_utf16Units hn
  rw [utf16Encode, ← List.flatMap_assoc, unitsOf?_flatMap_fixed hunits]

/-- A text is read from its octets. -/
lemma utf16Decode?_utf16Encode (s : String) : utf16Decode? (utf16Encode s) = some s := by
  rw [utf16Decode?, unitsOf?_utf16Encode, Option.bind_eq_bind, Option.bind_some, charactersOf?_flatMap]
  simp

/-! ### Characters that take two units -/

/-- A character beyond the first 65536, which has no unit for itself. -/
def isBeyond (c : Char) : Bool :=
  0x10000 ≤ c.toNat

/-- Half of a pair of units, which is no character. -/
def isSurrogate (n : Nat) : Bool :=
  0xD800 ≤ n && n < 0xE000

/-- The units of a text are as many as its characters and one more for each of them that takes two. -/
lemma length_flatMap_utf16Units (cs : List Char) :
    (cs.flatMap utf16Units).length = cs.length + cs.countP isBeyond := by
  induction cs with
  | nil => rfl
  | cons c cs ih =>
    have hc : (utf16Units c).length = if isBeyond c then 2 else 1 := by
      by_cases hlt : c.toNat < 0x10000 <;> simp [utf16Units, isBeyond, hlt]
    rw [List.flatMap_cons, List.length_append, ih, hc, List.length_cons, List.countP_cons]
    split <;> omega

/-- A text has halves of pairs among its units exactly if one of its characters takes two. -/
lemma any_isSurrogate_flatMap (cs : List Char) :
    (cs.flatMap utf16Units).any isSurrogate = cs.any isBeyond := by
  have hc (c : Char) : (utf16Units c).any isSurrogate = isBeyond c := by
    have hvalid := toNat_lt_or_lt c
    rw [Bool.eq_iff_iff, List.any_eq_true]
    simp only [utf16Units, isSurrogate, isBeyond, Bool.and_eq_true, decide_eq_true_eq]
    split
    · simp only [List.mem_singleton, exists_eq_left]
      omega
    · have hhigh : (c.toNat - 0x10000) / 0x400 < 0x400 := by omega
      refine ⟨fun _ => by omega, fun _ => ⟨_, List.mem_cons_self, by omega, by omega⟩⟩
  induction cs with
  | nil => rfl
  | cons c cs ih => rw [List.flatMap_cons, List.any_append, hc, ih, List.any_cons]

end CertAuthority.Text

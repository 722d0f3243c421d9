import Mathlib.Tactic.Lemma
import CertAuthority.Der.Tlv
import CertAuthority.Proofs.Octets

/-!
# Elements are read as they were written

The strict reader of elements and their writer are inverse to each other. What is written is read
again (`read?_encode`, `readAll?_flatMap`, `decode?_encode`), provided that the reader knows the tags
and that no content is too long; what is read was written (`eq_of_read?`, `eq_of_readAll?`,
`eq_of_decode?`). A structure that fits has only parts that fit, so the length of the whole is the
only length that the lemmas on structures ask about.
-/

namespace CertAuthority.Der

/-- A length below the limit has at most four octets. -/
lemma byteLength_le_four {n : Nat} (h : n ≤ maxLength) : Octets.byteLength n ≤ 4 := by
  apply Octets.byteLength_le
  unfold maxLength at h
  omega

/-- An octet that says how many octets of a length follow holds that number above its highest bit. -/
lemma count_spec {w : Nat} (h : w ≤ 4) :
    (UInt8.ofNat (128 + w)).toNat = 128 + w ∧ ¬ UInt8.ofNat (128 + w) < 128 := by
  have hb : (UInt8.ofNat (128 + w)).toNat = 128 + w := Octets.toNat_ofNat_octet (by omega)
  refine ⟨hb, ?_⟩
  rw [UInt8.lt_iff_toNat_lt, hb]
  simp

/-- A length below the limit is read as it was written, whatever follows. -/
lemma readLength?_lengthOctets {n : Nat} (h : n ≤ maxLength) (rest : Octets) :
    readLength? (lengthOctets n ++ rest) = some (n, rest) := by
  unfold lengthOctets
  split
  · rename_i hn
    have hlt : UInt8.ofNat n < 128 := by
      rw [UInt8.lt_iff_toNat_lt, Octets.toNat_ofNat_octet (by omega)]
      exact hn
    simp only [List.cons_append, List.nil_append, readLength?, if_pos hlt]
    rw [Octets.toNat_ofNat_octet (by omega)]
  · rename_i hn
    have hw := byteLength_le_four h
    obtain ⟨hb, hge⟩ := count_spec hw
    -- the reader writes the length that it has read once more and compares
    have hs : lengthOctets n = UInt8.ofNat (128 + Octets.byteLength n) :: Octets.ofNat n := by
      rw [lengthOctets, if_neg hn]
    simp only [List.cons_append, readLength?, if_neg hge, hb, Nat.add_sub_cancel_left,
      Octets.take_byteLength, Octets.drop_byteLength, Octets.toNat_ofNat, hs]
    simp [hw, h]

/-- A length that was read is the one that was written, and it is below the limit. -/
lemma eq_of_readLength? {bs rest : Octets} {n : Nat} (h : readLength? bs = some (n, rest)) :
    bs = lengthOctets n ++ rest ∧ n ≤ maxLength := by
  cases bs with
  | nil => simp [readLength?] at h
  | cons b bs =>
    simp only [readLength?] at h
    split at h
    · rename_i hb
      simp only [Option.some.injEq, Prod.mk.injEq] at h
      obtain ⟨rfl, rfl⟩ := h
      have hlt : b.toNat < 128 := by simpa [UInt8.lt_iff_toNat_lt] using hb
      refine ⟨?_, ?_⟩
      · simp [lengthOctets, hlt]
      · have hm : 128 ≤ maxLength := by decide
        omega
    · split at h
      · rename_i hc
        simp only [Option.some.injEq, Prod.mk.injEq] at h
        obtain ⟨rfl, rfl⟩ := h
        simp only [Bool.and_eq_true, decide_eq_true_eq, beq_iff_eq] at hc
        obtain ⟨⟨_, hn⟩, hs⟩ := hc
        refine ⟨?_, hn⟩
        rw [hs, List.cons_append, List.take_append_drop]
      · cases h

namespace Tlv

/-- The tag of an element around others is the given one. -/
@[simp] lemma tag_around (tag : UInt8) (ts : List Tlv) : (around tag ts).tag = tag :=
  rfl

/-- The content of an element around others is all of their octets. -/
@[simp] lemma content_around (tag : UInt8) (ts : List Tlv) :
    (around tag ts).content = ts.flatMap encode :=
  rfl

/-- An element whose content is not too long to be read. -/
def Fits (t : Tlv) : Prop :=
  t.content.length ≤ maxLength

/-- An element whose tag the reader knows. -/
def Known (t : Tlv) : Prop :=
  Tag.isKnown t.tag = true

/-- An element that the reader reads again when it is written. -/
structure Readable (t : Tlv) : Prop where
  known : t.Known
  fits : t.Fits

/-- An element all of whose octets are not too many fits. -/
lemma fits_of_length_encode {t : Tlv} (h : t.encode.length ≤ maxLength) : t.Fits := by
  refine Nat.le_trans ?_ h
  simp only [encode, List.length_cons, List.length_append]
  omega

/-- A readable element is read as it was written, whatever follows. -/
lemma read?_encode {t : Tlv} (h : t.Readable) (rest : Octets) :
    read? (t.encode ++ rest) = some (t, rest) := by
  have hl := readLength?_lengthOctets h.fits (t.content ++ rest)
  have hk : Tag.isKnown t.tag = true := h.known
  simp [encode, read?, hk, hl]

/-- An element that was read is the one that was written, and it is readable. -/
lemma eq_of_read? {bs rest : Octets} {t : Tlv} (h : read? bs = some (t, rest)) :
    bs = t.encode ++ rest ∧ t.Readable := by
  cases bs with
  | nil => simp [read?] at h
  | cons tag bs =>
    simp only [read?] at h
    split at h
    · rename_i hk
      split at h
      · cases h
      · rename_i n body hl
        obtain ⟨e, hn⟩ := eq_of_readLength? hl
        split at h
        · cases h
        · rename_i hle
          cases h
          have hlen : (body.take n).length = n := by
            rw [List.length_take]
            omega
          refine ⟨?_, hk, ?_⟩
          · simp [encode, hlen, e]
          · simpa [Fits, hlen] using hn
    · cases h

/-- Readable elements are read one after the other as they were written. -/
lemma readAll?_flatMap {ts : List Tlv} (h : ∀ t ∈ ts, t.Readable) :
    readAll? (ts.flatMap encode) = some ts := by
  induction ts with
  | nil => simp [readAll?]
  | cons t ts ih =>
    have hr := read?_encode (h t (by simp)) (ts.flatMap encode)
    have hn : (t.encode ++ ts.flatMap encode).isEmpty = false := by
      simp [encode]
    rw [List.flatMap_cons, readAll?, hn]
    simp only [Bool.false_eq_true, if_false]
    split
    · rename_i hnone
      rw [hr] at hnone
      cases hnone
    · rename_i t' rest hsome
      rw [hr] at hsome
      cases hsome
      rw [ih fun t ht => h t (by simp [ht])]
      rfl

/-- Elements that were read one after the other are those that were written, and they are
readable. -/
lemma eq_of_readAll? {bs : Octets} {ts : List Tlv} (h : readAll? bs = some ts) :
    bs = ts.flatMap encode ∧ ∀ t ∈ ts, t.Readable := by
  -- the recursion ends because each element takes octets away
  induction bs using readAll?.induct generalizing ts with
  | case1 bs he =>
    rw [readAll?, if_pos he] at h
    cases h
    simpa using he
  | case2 bs he hn =>
    rw [readAll?, if_neg he] at h
    split at h
    · cases h
    · rename_i hsome
      rw [hn] at hsome
      cases hsome
  | case3 bs he t rest hr ih =>
    rw [readAll?, if_neg he] at h
    split at h
    · cases h
    · rename_i t' rest' hr'
      rw [hr] at hr'
      cases hr'
      obtain ⟨ts', hts, rfl⟩ := Option.map_eq_some_iff.1 h
      obtain ⟨e, ht⟩ := eq_of_read? hr
      obtain ⟨e', hts'⟩ := ih hts
      refine ⟨?_, ?_⟩
      · rw [e, e', List.flatMap_cons]
      · intro x hx
        cases List.mem_cons.1 hx with
        | inl hx => exact hx ▸ ht
        | inr hx => exact hts' x hx

/-- A readable element is read as it was written if nothing follows. -/
lemma decode?_encode {t : Tlv} (h : t.Readable) : decode? t.encode = some t := by
  have hr := read?_encode h []
  rw [List.append_nil] at hr
  simp [decode?, hr]

/-- Readable elements are told apart by their octets. -/
lemma encode_inj {t u : Tlv} (ht : t.Readable) (hu : u.Readable) : t.encode = u.encode ↔ t = u :=
  Octets.written_inj decode? (decode?_encode ht) (decode?_encode hu)

/-- Octets that are exactly one element are those of that element. -/
lemma eq_of_decode? {bs : Octets} {t : Tlv} (h : decode? bs = some t) :
    bs = t.encode ∧ t.Readable := by
  unfold decode? at h
  split at h
  · rename_i t' hr
    cases h
    simpa using eq_of_read? hr
  · cases h

/-- The front of an element is an element only if it is the whole. -/
lemma eq_of_decode?_of_append {t u : Tlv} {bs rest : Octets} (h : t.Readable)
    (hd : decode? bs = some u) (ha : bs ++ rest = t.encode) : bs = t.encode := by
  obtain ⟨rfl, hu⟩ := eq_of_decode? hd
  have ht := read?_encode h []
  rw [List.append_nil, ← ha, read?_encode hu rest] at ht
  cases ht
  rfl

/-- A part of a list of elements is no longer than all of them. -/
lemma length_encode_le_flatMap {t : Tlv} {ts : List Tlv} (h : t ∈ ts) :
    t.content.length ≤ (ts.flatMap encode).length := by
  induction ts with
  | nil => cases h
  | cons u us ih =>
    rw [List.flatMap_cons, List.length_append]
    cases h with
    | head => simp [encode]; omega
    | tail _ h =>
      have := ih h
      omega

/-- Octets that start with an element are not empty. -/
lemma isEmpty_encode_append (t : Tlv) (rest : Octets) : (t.encode ++ rest).isEmpty = false :=
  rfl

/-- Each element takes octets. -/
lemma length_le_flatMap (ts : List Tlv) : ts.length ≤ (ts.flatMap encode).length := by
  induction ts with
  | nil => exact Nat.zero_le _
  | cons t ts ih =>
    rw [List.flatMap_cons, List.length_append, List.length_cons, encode, List.length_cons]
    omega

/-- An element that another was put around stands in it. -/
lemma infix_around {tag : UInt8} {t : Tlv} {ts : List Tlv} (h : t ∈ ts) :
    t.encode <:+: (around tag ts).encode := by
  have hc : (around tag ts).content <:+: (around tag ts).encode :=
    ⟨tag :: lengthOctets (around tag ts).content.length, [], by simp [encode, around]⟩
  have hm : t.encode <:+: ts.flatMap encode := by
    rw [List.flatMap_def]
    exact List.infix_of_mem_flatten (List.mem_map_of_mem h)
  exact hm.trans hc

/-- The elements around which a fitting element was put fit. -/
lemma Fits.of_mem {tag : UInt8} {t : Tlv} {ts : List Tlv} (h : (around tag ts).Fits)
    (ht : t ∈ ts) : t.Fits :=
  Nat.le_trans (length_encode_le_flatMap ht) h

/-- The elements around which a fitting element was put are read again, if their tags are known. -/
lemma inside?_around {tag : UInt8} {ts : List Tlv} (h : (around tag ts).Fits)
    (hk : ∀ t ∈ ts, t.Known) : (around tag ts).inside? tag = some ts := by
  rw [inside?, if_pos (tag_around tag ts)]
  exact readAll?_flatMap fun t ht => ⟨hk t ht, h.of_mem ht⟩

/-- The elements in an element are those around which it was put, and they are readable. -/
lemma eq_of_inside? {tag : UInt8} {t : Tlv} {ts : List Tlv} (h : t.inside? tag = some ts) :
    t = around tag ts ∧ ∀ t ∈ ts, t.Readable := by
  unfold inside? at h
  split at h
  · rename_i ht
    obtain ⟨e, hts⟩ := eq_of_readAll? h
    refine ⟨?_, hts⟩
    cases t
    simp_all [around]
  · cases h

/-- An element under an explicit tag is read again, if its own tag is known. -/
lemma explicit?_explicit {n : UInt8} {t : Tlv} (h : (explicit n t).Fits)
    (hk : t.Known) : (explicit n t).explicit? n = some t := by
  have ht : t.Readable := ⟨hk, Fits.of_mem h (List.mem_singleton.2 rfl)⟩
  rw [explicit?, explicit, if_pos (tag_around _ _)]
  simpa [around] using decode?_encode ht

end Tlv

end CertAuthority.Der

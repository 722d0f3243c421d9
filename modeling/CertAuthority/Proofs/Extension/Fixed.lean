import CertAuthority.Extension.Plugin
import CertAuthority.Proofs.Der.Integer
import CertAuthority.Proofs.Der.Length
import CertAuthority.Proofs.Lenient.Layout
import CertAuthority.Proofs.Text.Hex

/-!
# Extensions of fixed values

A configuration gives a fixed value as a text and a type. Which texts stand for which values is said here without
the readers (`ValueEncoding.Denotes`). A text that stands for a value gives a plugin that stores one element in its
shortest form, and the element holds the value; any other text is the fault of the configuration
(`Plugin.fixed_holds`).
-/

namespace CertAuthority

open Der

/-! ### The shortest form of an element -/

namespace Der

/-- Octets are a definite length, and there are none shorter for the same length. -/
structure IsShortestLength (n : Nat) (length : Octets) : Prop where
  definite : Lenient.IsLength n length
  shortest : ∀ other, Lenient.IsLength n other → length.length ≤ other.length

/-- Of one length there is only one form with so many octets. -/
lemma eq_of_isLength {n : Nat} {length other : Octets} (h : Lenient.IsLength n length)
    (hother : Lenient.IsLength n other) (hsame : length.length = other.length) : length = other := by
  cases length with
  | nil => exact h.elim
  | cons b digits =>
    cases other with
    | nil => exact hother.elim
    | cons c others =>
      have hcount : digits.length = others.length := Nat.succ.inj hsame
      by_cases hb : b < 128
      · obtain ⟨rfl, hvalue⟩ := (if_pos hb).mp h
        obtain rfl : others = [] := List.length_eq_zero_iff.1 hcount.symm
        by_cases hc : c < 128
        · obtain ⟨-, hvalue'⟩ := (if_pos hc).mp hother
          rw [UInt8.toNat_inj.1 (hvalue.trans hvalue'.symm)]
        · obtain ⟨-, hnil, -⟩ := (if_neg hc).mp hother
          exact absurd rfl hnil
      · obtain ⟨hwidth, hnil, -, hvalue⟩ := (if_neg hb).mp h
        by_cases hc : c < 128
        · obtain ⟨rfl, -⟩ := (if_pos hc).mp hother
          exact absurd (List.length_eq_zero_iff.1 hcount) hnil
        · obtain ⟨hwidth', -, -, hvalue'⟩ := (if_neg hc).mp hother
          rw [← hcount] at hwidth'
          rw [UInt8.toNat_inj.1 (hwidth.trans hwidth'.symm), Octets.eq_of_toNat hcount (hvalue.trans hvalue'.symm)]

/-- No form of a length is shorter than the one that is written. -/
lemma length_lengthOctets_le_of_isLength {n : Nat} {length : Octets} (h : Lenient.IsLength n length) :
    (lengthOctets n).length ≤ length.length := by
  rw [length_lengthOctets]
  cases length with
  | nil => exact h.elim
  | cons b digits =>
    by_cases hb : b < 128
    · obtain ⟨rfl, rfl⟩ := (if_pos hb).mp h
      have hn : b.toNat < 128 := UInt8.lt_iff_toNat_lt.1 hb
      rw [if_pos hn]
      exact Nat.le_refl 1
    · obtain ⟨-, hnil, -, rfl⟩ := (if_neg hb).mp h
      have hpos := List.length_pos_iff.2 hnil
      have hbytes := Octets.byteLength_le (Octets.toNat_lt digits)
      rw [List.length_cons]
      split <;> omega

/-- The shortest form of a length is the one that is written. -/
lemma isShortestLength_iff {n : Nat} (hn : n ≤ maxLength) {length : Octets} :
    IsShortestLength n length ↔ length = lengthOctets n := by
  have hdefinite : Lenient.IsLength n (lengthOctets n) := by
    have hread := Lenient.length?_lengthOctets hn []
    rw [List.append_nil] at hread
    exact Lenient.reads_length?.eq_some_nil_iff.1 hread
  constructor
  · intro h
    exact eq_of_isLength h.definite hdefinite
      (Nat.le_antisymm (h.shortest _ hdefinite) (length_lengthOctets_le_of_isLength h.definite))
  · rintro rfl
    exact ⟨hdefinite, fun other hother => length_lengthOctets_le_of_isLength hother⟩

namespace Tlv

/-- Octets are an element in its shortest form: its tag, its length and its content. -/
def IsWrittenAs (t : Tlv) (bs : Octets) : Prop :=
  ∃ length, IsShortestLength t.content.length length ∧ bs = t.tag :: (length ++ t.content)

/-- Octets are an element in its shortest form exactly if they are its encoding. -/
lemma isWrittenAs_iff {t : Tlv} (h : t.Fits) {bs : Octets} : t.IsWrittenAs bs ↔ bs = t.encode := by
  simp only [IsWrittenAs, isShortestLength_iff h, exists_eq_left]
  rfl

/-- What is read is an element that is written so. -/
lemma decode?_eq_some_iff {t : Tlv} {bs : Octets} :
    decode? bs = some t ↔ t.Known ∧ t.Fits ∧ t.IsWrittenAs bs := by
  constructor
  · intro h
    obtain ⟨hbs, hread⟩ := eq_of_decode? h
    exact ⟨hread.known, hread.fits, (isWrittenAs_iff hread.fits).2 hbs⟩
  · rintro ⟨hknown, hfits, hwritten⟩
    rw [(isWrittenAs_iff hfits).1 hwritten]
    exact decode?_encode ⟨hknown, hfits⟩

end Tlv

end Der

/-! ### Values and the texts that stand for them -/

/-- A value that a text can stand for. -/
inductive FixedValue where
  | text (s : String)
  | integer (i : Int)
  | boolean (b : Bool)
  | null
  | octets (bs : Octets)
  /-- Octets that are an element themselves. -/
  | element (bs : Octets)

namespace ValueEncoding

/-- Decimal digits write a number; zeros in front do not matter. -/
def WritesNat (cs : List Char) (n : Nat) : Prop :=
  cs ≠ [] ∧ (∀ c ∈ cs, c.isDigit = true) ∧ Nat.ofDigitChars 10 cs 0 = n

/-- Decimal digits with or without a sign write an integer. -/
inductive WritesInt : List Char → Int → Prop where
  | digits {cs : List Char} {n : Nat} (h : WritesNat cs n) : WritesInt cs n
  | plus {cs : List Char} {n : Nat} (h : WritesNat cs n) : WritesInt ('+' :: cs) n
  | minus {cs : List Char} {n : Nat} (h : WritesNat cs n) : WritesInt ('-' :: cs) (-n)

/-- An integer that fits 64 bits with its sign. -/
def IsInt64 (i : Int) : Prop :=
  -0x8000000000000000 ≤ i ∧ i < 0x8000000000000000

/-- Two hexadecimal digits of either case write each octet. -/
def WritesOctets (cs : List Char) (bs : Octets) : Prop :=
  cs.map Char.toLower = Text.hexEncode bs

/-- A text stands for a value of a type. -/
inductive Denotes (text : String) : ValueEncoding → FixedValue → Prop where
  /-- Any text is one, with its blanks. -/
  | utf8String : Denotes text .utf8String (.text text)
  | ia5String (ascii : ∀ c ∈ text.toList, c.toNat < 128) : Denotes text .ia5String (.text text)
  | printableString (alphabet : ∀ c ∈ text.toList, c.isAlphanum = true ∨ c ∈ " '()+,-./:=?".toList) :
      Denotes text .printableString (.text text)
  | integer {i : Int} (written : WritesInt (Text.trim text.toList) i) (small : IsInt64 i) :
      Denotes text .integer (.integer i)
  /-- Only `true` and `false` are truth values. -/
  | boolean {b : Bool} (written : Text.trim text.toList = (toString b).toList) : Denotes text .boolean (.boolean b)
  /-- The text does not matter. -/
  | null : Denotes text .null .null
  | octetString {bs : Octets} (written : WritesOctets (Text.trim text.toList) bs) :
      Denotes text .octetString (.octets bs)
  /-- The octets are one element of a known type in its shortest form. -/
  | raw {t : Tlv} {bs : Octets} (written : WritesOctets (Text.trim text.toList) bs) (known : t.Known) (fits : t.Fits)
      (element : t.IsWrittenAs bs) : Denotes text .raw (.element bs)

/-- The tag of a type; octets that are an element bring their own. -/
def tag? : ValueEncoding → Option UInt8
  | utf8String => some Tag.utf8String
  | ia5String => some Tag.ia5String
  | printableString => some Tag.printableString
  | integer => some Tag.integer
  | boolean => some Tag.boolean
  | null => some Tag.null
  | octetString => some Tag.octetString
  | raw => none

end ValueEncoding

/-- What is read of an element is the value, and an integer is in its shortest form. -/
def FixedValue.IsHeldBy (t : Tlv) : FixedValue → Prop
  | text s => Octets.toString? t.content = some s
  | integer i => t.toInt? = some i ∧ IsShortestInt i t.content
  | boolean b => t.toBool? = some b
  | null => t.content = []
  | octets bs => t.toOctets? = some bs
  | element bs => t.Fits ∧ t.encode = bs

namespace ValueEncoding

/-! ### The readers of texts -/

variable {cs : List Char} {text : String}

/-- Digits are read as the number that they write. -/
lemma digits?_eq_some_iff {n : Nat} : digits? cs = some n ↔ WritesNat cs n := by
  rw [digits?, Option.ite_none_right_eq_some, Option.some.injEq, WritesNat, ← and_assoc]
  simp

/-- A sign is no digit. -/
lemma WritesNat.head_isDigit {c : Char} {n : Nat} (h : WritesNat (c :: cs) n) : c.isDigit = true :=
  h.2.1 c List.mem_cons_self

/-- A number with a sign is read as what the sign makes of its digits. -/
lemma map_digits?_eq_some_iff {f : Int → Int} {i : Int} :
    (Option.map f do return ((← digits? cs : Nat) : Int)) = some i ↔ ∃ n : Nat, WritesNat cs n ∧ f n = i := by
  simp only [Option.bind_eq_bind, Option.map_eq_some_iff, Option.bind_eq_some_iff, Option.pure_def,
    Option.some.injEq, digits?_eq_some_iff]
  constructor
  · rintro ⟨_, ⟨n, hn, rfl⟩, hi⟩
    exact ⟨n, hn, hi⟩
  · rintro ⟨n, hn, hi⟩
    exact ⟨n, ⟨n, hn, rfl⟩, hi⟩

/-- A number is kept exactly if it has 64 bits. -/
lemma bind_range_eq_some_iff {o : Option Int} {i : Int} :
    (o >>= fun n => if -0x8000000000000000 ≤ n && n < 0x8000000000000000 then some n else none) = some i ↔
      o = some i ∧ IsInt64 i := by
  simp only [Option.bind_eq_bind, Option.bind_eq_some_iff, Option.ite_none_right_eq_some, Option.some.injEq,
    Bool.and_eq_true, decide_eq_true_eq, IsInt64]
  constructor
  · rintro ⟨_, hread, hrange, rfl⟩
    exact ⟨hread, hrange⟩
  · rintro ⟨hread, hrange⟩
    exact ⟨i, hread, hrange, rfl⟩

/-- A text is read as an integer exactly if it writes one of 64 bits. -/
lemma integer?_eq_some_iff {i : Int} : integer? cs = some i ↔ WritesInt cs i ∧ IsInt64 i := by
  unfold integer?
  constructor
  · intro h
    split at h
    · obtain ⟨hread, hrange⟩ := bind_range_eq_some_iff.1 h
      obtain ⟨n, hn, rfl⟩ := map_digits?_eq_some_iff.1 hread
      exact ⟨.minus hn, hrange⟩
    · obtain ⟨hread, hrange⟩ := bind_range_eq_some_iff.1 h
      obtain ⟨n, hn, rfl⟩ := map_digits?_eq_some_iff.1 hread
      exact ⟨.plus hn, hrange⟩
    · obtain ⟨hread, hrange⟩ := bind_range_eq_some_iff.1 h
      obtain ⟨n, hn, rfl⟩ := map_digits?_eq_some_iff.1 hread
      exact ⟨.digits hn, hrange⟩
  · rintro ⟨h, hrange⟩
    cases h with
    | digits h =>
      -- a digit is not taken for a sign
      split
      · cases h.head_isDigit
      · cases h.head_isDigit
      · exact bind_range_eq_some_iff.2 ⟨map_digits?_eq_some_iff.2 ⟨_, h, rfl⟩, hrange⟩
    | plus h => exact bind_range_eq_some_iff.2 ⟨map_digits?_eq_some_iff.2 ⟨_, h, rfl⟩, hrange⟩
    | minus h => exact bind_range_eq_some_iff.2 ⟨map_digits?_eq_some_iff.2 ⟨_, h, rfl⟩, hrange⟩

/-- A text is ASCII exactly if its characters are below 128. -/
lemma isAscii_iff : Text.isAscii text = true ↔ ∀ c ∈ text.toList, c.toNat < 128 := by
  simp [Text.isAscii]

/-- A text is a PrintableString exactly if its characters are letters, digits or one of eleven marks and the blank. -/
lemma isPrintable_iff :
    Text.isPrintable text = true ↔ ∀ c ∈ text.toList, c.isAlphanum = true ∨ c ∈ " '()+,-./:=?".toList := by
  simp [Text.isPrintable, Text.printablePunctuation]

/-- An element has the tag of a type and holds a value. -/
structure Holds (encoding : ValueEncoding) (value : FixedValue) (t : Tlv) : Prop where
  tag : ∀ tag ∈ encoding.tag?, t.tag = tag
  known : t.Known
  value : value.IsHeldBy t

/-- A text that stands for a value is read as an element that holds the value. -/
lemma Denotes.exists_element {encoding : ValueEncoding} {value : FixedValue} (h : encoding.Denotes text value) :
    ∃ t, encoding.element? text = some t ∧ encoding.Holds value t := by
  have htag {tag : UInt8} : ∀ other ∈ some tag, tag = other := fun other hother => Option.some.inj hother
  cases h with
  | utf8String => exact ⟨_, rfl, htag, rfl, Octets.toString?_ofString text⟩
  | ia5String ascii => exact ⟨_, if_pos (isAscii_iff.2 ascii), htag, rfl, Octets.toString?_ofString text⟩
  | printableString alphabet =>
    exact ⟨_, if_pos (isPrintable_iff.2 alphabet), htag, rfl, Octets.toString?_ofString text⟩
  | @integer i written small =>
    have hread := integer?_eq_some_iff.2 ⟨written, small⟩
    exact ⟨.ofInt i, Option.map_eq_some_iff.2 ⟨i, hread, rfl⟩, htag, rfl, Tlv.toInt?_ofInt i,
      isShortestInt_intContent i⟩
  | @boolean b written =>
    refine ⟨.ofBool b, ?_, htag, rfl, Tlv.toBool?_ofBool b⟩
    simp only [element?, written]
    cases b <;> rfl
  | null => exact ⟨.null, rfl, htag, rfl, rfl⟩
  | @octetString bs written =>
    have hread := Text.hexDecode?_eq_some_iff.2 written
    exact ⟨.ofOctets bs, Option.map_eq_some_iff.2 ⟨bs, hread, rfl⟩, htag, rfl, Tlv.toOctets?_ofOctets bs⟩
  | @raw t bs written known fits element =>
    have hread := Text.hexDecode?_eq_some_iff.2 written
    have hdecode := Tlv.decode?_eq_some_iff.2 ⟨known, fits, element⟩
    exact ⟨t, Option.bind_eq_some_iff.2 ⟨bs, hread, hdecode⟩, fun tag htag => (Option.not_mem_none tag htag).elim, known,
      fits, ((Tlv.isWrittenAs_iff fits).1 element).symm⟩

/-- Only texts that stand for a value are read. -/
lemma exists_denotes_of_element? {encoding : ValueEncoding} {t : Tlv} (h : encoding.element? text = some t) :
    ∃ value, encoding.Denotes text value := by
  cases encoding with
  | utf8String => exact ⟨_, .utf8String⟩
  | ia5String =>
    obtain ⟨hascii, -⟩ := Option.ite_none_right_eq_some.1 h
    exact ⟨_, .ia5String (isAscii_iff.1 hascii)⟩
  | printableString =>
    obtain ⟨hprintable, -⟩ := Option.ite_none_right_eq_some.1 h
    exact ⟨_, .printableString (isPrintable_iff.1 hprintable)⟩
  | integer =>
    obtain ⟨i, hread, -⟩ := Option.map_eq_some_iff.1 h
    obtain ⟨hwritten, hsmall⟩ := integer?_eq_some_iff.1 hread
    exact ⟨_, .integer hwritten hsmall⟩
  | boolean =>
    simp only [element?] at h
    split at h
    · rename_i htrue
      exact ⟨_, .boolean (b := true) htrue⟩
    · split at h
      · rename_i hfalse
        exact ⟨_, .boolean (b := false) hfalse⟩
      · cases h
  | null => exact ⟨_, .null⟩
  | octetString =>
    obtain ⟨bs, hread, -⟩ := Option.map_eq_some_iff.1 h
    exact ⟨_, .octetString (Text.hexDecode?_eq_some_iff.1 hread)⟩
  | raw =>
    obtain ⟨bs, hread, hdecode⟩ := Option.bind_eq_some_iff.1 h
    obtain ⟨hknown, hfits, hwritten⟩ := Tlv.decode?_eq_some_iff.1 hdecode
    exact ⟨_, .raw (Text.hexDecode?_eq_some_iff.1 hread) hknown hfits hwritten⟩

end ValueEncoding

namespace Plugin

/-- A plugin adds the same octets to every certificate. -/
structure Stores (p : Plugin) (oid : Oid) (critical : Bool) (octets : Octets) : Prop where
  oid : p.oid = oid
  critical : p.critical = critical
  value : ∀ request ca profile, p.value request ca profile = .ok octets

/-- A text that stands for a value of its type gives a plugin with the identifier and the criticality that were asked
for. It stores one element that has the tag of the type and holds the value, and if its content is not too long for
a length, the octets are the element in its shortest form and are read as this element to the last one. A text that
stands for no value is refused as the fault of the configuration. -/
theorem fixed_holds (oid : Oid) (critical : Bool) (encoding : ValueEncoding) (text : String) :
    (∀ value, encoding.Denotes text value →
      ∃ plugin t, fixed oid critical encoding text = .ok plugin ∧ plugin.Stores oid critical t.encode ∧
        encoding.Holds value t ∧ (t.Fits → t.IsWrittenAs t.encode ∧ Tlv.decode? t.encode = some t)) ∧
    ((∀ value, ¬ encoding.Denotes text value) → fixed oid critical encoding text = .error (.invalidProfile
      ("extension " ++ oid.text ++ ": invalid " ++ encoding.text ++ " value " ++ Text.quoted text))) := by
  constructor
  · intro value hdenotes
    obtain ⟨t, hread, hholds⟩ := hdenotes.exists_element
    refine ⟨⟨oid, critical, fun _ _ _ => .ok t.encode⟩, t, ?_, ⟨rfl, rfl, fun _ _ _ => rfl⟩, hholds, ?_⟩
    · rw [fixed, hread]
    · intro hfits
      exact ⟨(Tlv.isWrittenAs_iff hfits).2 rfl, Tlv.decode?_encode ⟨hholds.known, hfits⟩⟩
  · intro hnone
    rw [fixed]
    split
    · rename_i hread
      obtain ⟨value, hdenotes⟩ := ValueEncoding.exists_denotes_of_element? hread
      exact absurd hdenotes (hnone value)
    · rfl

/-- A negative number between blanks is stored in two octets, and two elements in a row are refused. -/
theorem sample_fixed :
    (∃ plugin, fixed Oid.rsaEncryption true .integer " -129 " = .ok plugin ∧
      plugin.Stores Oid.rsaEncryption true [0x02, 0x02, 0xFF, 0x7F]) ∧
    fixed Oid.rsaEncryption true .raw "05000500" = .error (.invalidProfile
      "extension 1.2.840.113549.1.1.1: invalid Raw value \"05000500\"") := by
  constructor
  · have htrim : Text.trim " -129 ".toList = ['-', '1', '2', '9'] := by decide
    have hnat : ValueEncoding.WritesNat ['1', '2', '9'] 129 :=
      ⟨by decide, List.all_eq_true.1 rfl, rfl⟩
    have hdenotes : ValueEncoding.Denotes " -129 " .integer (.integer (-129)) :=
      .integer (htrim ▸ .minus hnat) ⟨by decide, by decide⟩
    obtain ⟨plugin, t, hplugin, hstores, hholds, -⟩ := (fixed_holds Oid.rsaEncryption true _ _).1 _ hdenotes
    obtain rfl := Tlv.eq_ofInt_of_toInt? hholds.value.1
    exact ⟨plugin, hplugin, hstores⟩
  · have hread : ValueEncoding.raw.element? "05000500" = none := by decide +kernel
    have hnone (value : FixedValue) : ¬ ValueEncoding.raw.Denotes "05000500" value := by
      intro hdenotes
      obtain ⟨t, ht, -⟩ := hdenotes.exists_element
      rw [hread] at ht
      cases ht
    have htext : "extension " ++ Oid.rsaEncryption.text ++ ": invalid " ++ ValueEncoding.raw.text ++ " value " ++
        Text.quoted "05000500" = "extension 1.2.840.113549.1.1.1: invalid Raw value \"05000500\"" := by
      decide +kernel
    rw [(fixed_holds Oid.rsaEncryption true _ _).2 hnone, htext]

end Plugin

end CertAuthority

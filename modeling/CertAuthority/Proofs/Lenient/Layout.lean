import CertAuthority.Proofs.Lenient.Signed

/-!
# What the lenient reader takes

An element that the lenient reader takes is a tag, a length and as many octets, and how far it goes does not
depend on what follows (`reads_element?`). The same holds of every reader that is put together of this one
(`Reads`), and so of signed structures: the reader takes a SEQUENCE with a signed part, an algorithm and a
signature in front, and passes over whatever comes behind them (`reads_signed?`). What is taken to its end is never
the front of something else that is taken to its end (`Reads.eq_nil_of_append`).
-/

namespace CertAuthority.Lenient

open Der

/-- A reader takes exactly what is written in front, whatever follows. -/
def Reads {α : Type} (read? : Octets → Option (α × Octets)) (Written : α → Octets → Prop) : Prop :=
  ∀ bs a rest, read? bs = some (a, rest) ↔ ∃ written, Written a written ∧ bs = written ++ rest

namespace Reads

variable {α : Type} {read? : Octets → Option (α × Octets)} {Written : α → Octets → Prop}

/-- What is all taken is what is written. -/
lemma eq_some_nil_iff (h : Reads read? Written) {bs : Octets} {a : α} :
    read? bs = some (a, []) ↔ Written a bs := by
  rw [h]
  constructor
  · rintro ⟨written, hwritten, rfl⟩
    rwa [List.append_nil]
  · intro hwritten
    exact ⟨bs, hwritten, (List.append_nil bs).symm⟩

/-- What follows does not matter. -/
lemma append (h : Reads read? Written) {bs rest : Octets} {a : α} (hread : read? bs = some (a, rest))
    (more : Octets) : read? (bs ++ more) = some (a, rest ++ more) := by
  obtain ⟨written, hwritten, rfl⟩ := (h bs a rest).1 hread
  exact (h _ a _).2 ⟨written, hwritten, List.append_assoc written rest more⟩

/-- What is all taken is not the front of something longer that is all taken. -/
lemma eq_nil_of_append (h : Reads read? Written) {bs more : Octets} {a b : α} (hread : read? bs = some (a, []))
    (hmore : read? (bs ++ more) = some (b, [])) : more = [] := by
  rw [h.append hread more] at hmore
  exact (Prod.mk.inj (Option.some.inj hmore)).2

/-- What is read from the value that a reader gives does not change how far it goes. -/
lemma bind {β : Type} (h : Reads read? Written) (next : α → Option β) :
    Reads (fun bs => do
      let (a, rest) ← read? bs
      return (← next a, rest)) (fun b bs => ∃ a, Written a bs ∧ next a = some b) := by
  intro bs b rest
  simp only [Option.bind_eq_bind, Option.bind_eq_some_iff, Option.pure_def, Option.some.injEq, Prod.mk.injEq]
  constructor
  · rintro ⟨⟨a, _⟩, hread, _, hnext, rfl, rfl⟩
    obtain ⟨written, hwritten, rfl⟩ := (h bs a _).1 hread
    exact ⟨written, ⟨a, hwritten, hnext⟩, rfl⟩
  · rintro ⟨written, ⟨a, hwritten, hnext⟩, rfl⟩
    exact ⟨(a, rest), (h _ a rest).2 ⟨written, hwritten, rfl⟩, b, hnext, rfl, rfl⟩

end Reads

/-! ### Elements -/

/-- Octets that go on with a tag: at most as many as allowed, of which the last one alone has its high bit clear. -/
def IsLongTag (most : Nat) (tag : Octets) : Prop :=
  ∃ more last, tag = more ++ [last] ∧ more.length < most ∧ (∀ b ∈ more, 128 ≤ b) ∧ last < 128

/-- Octets are a tag: one octet, or one with all bits of the number set and the number behind it. -/
def IsTag : Octets → Prop
  | [] => False
  | b :: rest => if b % 32 = 31 then IsLongTag 5 rest else rest = []

/-- Octets are a definite length, not always the shortest. -/
def IsLength (n : Nat) : Octets → Prop
  | [] => False
  | b :: digits =>
    if b < 128 then digits = [] ∧ b.toNat = n
    else b.toNat = 128 + digits.length ∧ digits ≠ [] ∧ digits.length ≠ 127 ∧ Octets.toNat digits = n

/-- Octets are an element: its tag, its length and its content. -/
def Element.IsWrittenAs (e : Element) (bs : Octets) : Prop :=
  IsTag e.tag ∧ ∃ length, IsLength e.content.length length ∧ bs = e.tag ++ (length ++ e.content)

/-- The octets of a tag of several octets are read exactly if they are one, and the rest is left. -/
lemma longTag?_eq_some_iff {most : Nat} {bs tag rest : Octets} :
    longTag? most bs = some (tag, rest) ↔ IsLongTag most tag ∧ bs = tag ++ rest := by
  -- The induction is on how many octets may still come; the reader stops there.
  induction most generalizing bs tag with
  | zero => exact ⟨nofun, fun ⟨⟨_, _, _, hlength, _⟩, _⟩ => absurd hlength (Nat.not_lt_zero _)⟩
  | succ most ih =>
    cases bs with
    | nil =>
      refine ⟨nofun, ?_⟩
      rintro ⟨⟨more, last, rfl, -⟩, h⟩
      simp at h
    | cons b bs =>
      unfold longTag?
      split
      · rename_i hb
        constructor
        · intro h
          cases h
          exact ⟨⟨[], b, rfl, Nat.zero_lt_succ most, nofun, hb⟩, rfl⟩
        · rintro ⟨⟨more, last, rfl, -, hmore, hlast⟩, h⟩
          cases more with
          | nil =>
            cases h
            rfl
          | cons c more =>
            cases h
            exact absurd hb (UInt8.not_lt.2 (hmore b List.mem_cons_self))
      · rename_i hb
        rw [Option.map_eq_some_iff]
        constructor
        · rintro ⟨⟨tail, _⟩, htail, h⟩
          cases h
          obtain ⟨⟨more, last, rfl, hlength, hmore, hlast⟩, rfl⟩ := ih.1 htail
          refine ⟨⟨b :: more, last, rfl, Nat.succ_lt_succ hlength, ?_, hlast⟩, rfl⟩
          exact List.forall_mem_cons.2 ⟨UInt8.not_lt.1 hb, hmore⟩
        · rintro ⟨⟨more, last, rfl, hlength, hmore, hlast⟩, h⟩
          cases more with
          | nil =>
            cases h
            exact absurd hlast hb
          | cons c more =>
            cases h
            refine ⟨(more ++ [last], rest), ih.2 ⟨⟨more, last, rfl, Nat.lt_of_succ_lt_succ hlength, ?_, hlast⟩, rfl⟩, rfl⟩
            exact fun c hc => hmore c (List.mem_cons_of_mem _ hc)

/-- A tag is read exactly if it stands in front. -/
lemma tag?_eq_some_iff {bs tag rest : Octets} : tag? bs = some (tag, rest) ↔ IsTag tag ∧ bs = tag ++ rest := by
  cases bs with
  | nil =>
    refine ⟨nofun, ?_⟩
    rintro ⟨htag, h⟩
    obtain ⟨rfl, -⟩ := List.append_eq_nil_iff.1 h.symm
    exact htag.elim
  | cons b bs =>
    rw [tag?]
    split
    · rename_i hlong
      rw [Option.map_eq_some_iff]
      constructor
      · rintro ⟨⟨tail, _⟩, htail, h⟩
        cases h
        obtain ⟨htag, rfl⟩ := longTag?_eq_some_iff.1 htail
        exact ⟨(if_pos hlong).mpr htag, rfl⟩
      · rintro ⟨htag, h⟩
        cases tag with
        | nil => exact htag.elim
        | cons c tail =>
          cases h
          exact ⟨(tail, rest), longTag?_eq_some_iff.2 ⟨(if_pos hlong).mp htag, rfl⟩, rfl⟩
    · rename_i hshort
      constructor
      · intro h
        cases h
        exact ⟨(if_neg hshort).mpr rfl, rfl⟩
      · rintro ⟨htag, h⟩
        cases tag with
        | nil => exact htag.elim
        | cons c tail =>
          cases h
          obtain rfl : tail = [] := (if_neg hshort).mp htag
          rfl

/-- The reader of lengths reads the lengths that are written as it asks. -/
lemma reads_length? : Reads length? IsLength := by
  intro bs n rest
  cases bs with
  | nil =>
    refine ⟨nofun, ?_⟩
    rintro ⟨written, hlength, h⟩
    obtain ⟨rfl, -⟩ := List.append_eq_nil_iff.1 h.symm
    exact hlength.elim
  | cons b bs =>
    rw [length?]
    split
    · rename_i hb
      constructor
      · intro h
        cases h
        exact ⟨[b], (if_pos hb).mpr ⟨rfl, rfl⟩, rfl⟩
      · rintro ⟨written, hlength, h⟩
        cases written with
        | nil => exact hlength.elim
        | cons c digits =>
          cases h
          obtain ⟨rfl, rfl⟩ := (if_pos hb).mp hlength
          rfl
    · rename_i hb
      -- Not the short form, so the octet counts the digits behind it.
      have hhigh : 128 ≤ b.toNat := UInt8.le_iff_toNat_le.1 (UInt8.not_lt.1 hb)
      simp only [Bool.or_eq_true, decide_eq_true_eq]
      constructor
      · intro h
        split at h
        · cases h
        · rename_i hwidth
          obtain ⟨rfl, rfl⟩ := Prod.mk.inj (Option.some.inj h)
          have htake : (bs.take (b.toNat - 128)).length = b.toNat - 128 := by
            rw [List.length_take]
            omega
          refine ⟨b :: bs.take (b.toNat - 128), (if_neg hb).mpr ⟨by omega, ?_, by omega, rfl⟩, ?_⟩
          · intro hnil
            rw [hnil] at htake
            exact hwidth (.inl (.inl htake.symm))
          · rw [List.cons_append, List.take_append_drop]
      · rintro ⟨written, hlength, h⟩
        cases written with
        | nil => exact hlength.elim
        | cons c digits =>
          cases h
          obtain ⟨hcount, hnil, hmost, hvalue⟩ := (if_neg hb).mp hlength
          have hwidth : b.toNat - 128 = digits.length := by omega
          have hpos : digits.length ≠ 0 := fun h => hnil (List.length_eq_zero_iff.1 h)
          have hlong : ¬ ((digits.length = 0 ∨ digits.length = 127) ∨ (digits ++ rest).length < digits.length) := by
            rw [List.length_append]
            omega
          rw [hwidth, List.append_eq, if_neg hlong, List.take_left, List.drop_left, hvalue]

/-- The reader of elements takes a tag, a length and as many octets. -/
lemma reads_element? : Reads element? Element.IsWrittenAs := by
  intro bs e rest
  simp only [element?, header?, Option.bind_eq_bind, Option.bind_eq_some_iff, Option.pure_def, Option.some.injEq]
  constructor
  · rintro ⟨⟨⟨_, _⟩, _⟩, ⟨⟨tag, afterTag⟩, hreadTag, ⟨n, body⟩, hreadLength, h⟩, hcontent⟩
    cases h
    obtain ⟨htag, rfl⟩ := tag?_eq_some_iff.1 hreadTag
    obtain ⟨length, hlength, rfl⟩ := (reads_length? _ _ _).1 hreadLength
    split at hcontent
    · cases hcontent
    · rename_i hlong
      cases hcontent
      have htake : (body.take n).length = n := List.length_take_of_le (Nat.not_lt.1 hlong)
      refine ⟨tag ++ (length ++ body.take n), ⟨htag, length, htake.symm ▸ hlength, rfl⟩, ?_⟩
      rw [List.append_assoc, List.append_assoc, List.take_append_drop]
  · rintro ⟨written, ⟨htag, length, hlength, rfl⟩, rfl⟩
    refine ⟨((e.tag, e.content.length), e.content ++ rest), ⟨(e.tag, length ++ (e.content ++ rest)), ?_,
      (e.content.length, e.content ++ rest), ?_, rfl⟩, ?_⟩
    · exact tag?_eq_some_iff.2 ⟨htag, by rw [List.append_assoc, List.append_assoc]⟩
    · exact (reads_length? _ _ _).2 ⟨length, hlength, rfl⟩
    · have hlong : ¬ (e.content ++ rest).length < e.content.length := by
        rw [List.length_append]
        omega
      rw [if_neg hlong, List.take_left, List.drop_left]

/-! ### What is put together of elements -/

/-- An element whose tag has a number is written. -/
def IsNumbered (number : Nat) (e : Element) (bs : Octets) : Prop :=
  e.IsWrittenAs bs ∧ e.number = number

/-- The reader of elements with a number reads those that have it. -/
lemma reads_numbered? (number : Nat) : Reads (numbered? number) (IsNumbered number) := by
  intro bs e rest
  simp only [numbered?, Option.bind_eq_bind, Option.bind_eq_some_iff]
  constructor
  · rintro ⟨⟨e', rest'⟩, hread, h⟩
    split at h
    · rename_i hnumber
      cases h
      obtain ⟨written, hwritten, rfl⟩ := (reads_element? _ _ _).1 hread
      exact ⟨written, ⟨hwritten, hnumber⟩, rfl⟩
    · cases h
  · rintro ⟨written, ⟨hwritten, hnumber⟩, rfl⟩
    exact ⟨(e, rest), (reads_element? _ _ _).2 ⟨written, hwritten, rfl⟩, if_pos hnumber⟩

/-- A SEQUENCE that was strictly written is one for the lenient reader. -/
lemma numbered?_sequence {t : Tlv} (h : t.Readable) (ht : t.tag = Tag.sequence) :
    numbered? sequenceNumber t.encode = some (ofTlv t, []) := by
  have hnumber : t.tag.toNat % 32 = sequenceNumber := by
    rw [ht]
    rfl
  have hread := numbered?_encode h hnumber []
  rwa [List.append_nil] at hread

/-- The content of an element that is not made of elements is written. -/
def IsPrimitive (number : Nat) (content bs : Octets) : Prop :=
  ∃ e, IsNumbered number e bs ∧ e.isConstructed = false ∧ e.content = content

/-- The reader of primitive elements with a number reads those that have it and are primitive. -/
lemma reads_primitive? (number : Nat) : Reads (primitive? number) (IsPrimitive number) := by
  intro bs content rest
  simp only [primitive?, Option.bind_eq_bind, Option.bind_eq_some_iff]
  constructor
  · rintro ⟨⟨e, rest'⟩, hread, h⟩
    split at h
    · cases h
    · rename_i hprimitive
      cases h
      obtain ⟨written, hwritten, rfl⟩ := (reads_numbered? number _ _ _).1 hread
      exact ⟨written, ⟨e, hwritten, Bool.eq_false_iff.2 hprimitive, rfl⟩, rfl⟩
  · rintro ⟨written, ⟨e, hwritten, hprimitive, rfl⟩, rfl⟩
    exact ⟨(e, rest), (reads_numbered? number _ _ _).2 ⟨written, hwritten, rfl⟩,
      if_neg (Bool.eq_false_iff.1 hprimitive)⟩

/-- The reader of a sequence reads its content as a whole. -/
lemma reads_inSequence? {α : Type} (read? : Octets → Option α) : Reads (inSequence? read?)
    (fun a bs => ∃ e, IsNumbered sequenceNumber e bs ∧ read? e.content = some a) :=
  (reads_numbered? sequenceNumber).bind fun e => read? e.content

/-- Octets are the parameters of an algorithm: an element, behind which anything may come, or nothing. -/
def AreParameters : Option Element → Octets → Prop
  | none, bs => bs = []
  | some p, bs => ∃ written unread, p.IsWrittenAs written ∧ bs = written ++ unread

/-- Octets are an algorithm: a SEQUENCE of its identifier and its parameters. -/
def Algorithm.IsWrittenAs (a : Algorithm) (bs : Octets) : Prop :=
  ∃ e oid parameters, IsNumbered sequenceNumber e bs ∧ e.content = oid ++ parameters ∧
    IsPrimitive 6 a.oid oid ∧ AreParameters a.parameters parameters

/-- Octets are read as parameters exactly if they are such, whatever is left. -/
lemma exists_ifAny?_element?_iff {bs : Octets} {parameters : Option Element} :
    (∃ left, ifAny? element? bs = some (parameters, left)) ↔ AreParameters parameters bs := by
  cases bs with
  | nil =>
    cases parameters with
    | none => exact ⟨fun _ => rfl, fun _ => ⟨[], rfl⟩⟩
    | some p =>
      refine ⟨nofun, ?_⟩
      rintro ⟨written, unread, hwritten, h⟩
      obtain ⟨rfl, -⟩ := List.append_eq_nil_iff.1 h.symm
      exact absurd ((reads_element?.eq_some_nil_iff).2 hwritten) nofun
  | cons b bs =>
    simp only [ifAny?, List.isEmpty_cons, Bool.false_eq_true, if_false, Option.map_eq_some_iff]
    constructor
    · rintro ⟨left, ⟨p, unread⟩, hread, h⟩
      cases h
      obtain ⟨written, hwritten, hbs⟩ := (reads_element? _ _ _).1 hread
      exact ⟨written, unread, hwritten, hbs⟩
    · intro h
      cases parameters with
      | none => cases h
      | some p =>
        obtain ⟨written, unread, hwritten, hbs⟩ := h
        exact ⟨unread, (p, unread), (reads_element? _ _ _).2 ⟨written, hwritten, hbs⟩, rfl⟩

/-- The reader of algorithms reads an identifier of any content with its parameters. -/
lemma reads_algorithm? : Reads algorithm? Algorithm.IsWrittenAs := by
  intro bs a rest
  rw [algorithm?, reads_inSequence?]
  simp only [Option.bind_eq_bind, Option.bind_eq_some_iff, Option.pure_def, Option.some.injEq]
  constructor
  · rintro ⟨written, ⟨e, he, ⟨oid, rest'⟩, hoid, ⟨parameters, left⟩, hparameters, rfl⟩, rfl⟩
    obtain ⟨oidOctets, hwritten, hcontent⟩ := (reads_primitive? 6 _ _ _).1 hoid
    exact ⟨written, ⟨e, oidOctets, rest', he, hcontent, hwritten,
      exists_ifAny?_element?_iff.1 ⟨left, hparameters⟩⟩, rfl⟩
  · rintro ⟨written, ⟨e, oidOctets, rest', he, hcontent, hwritten, hparameters⟩, rfl⟩
    obtain ⟨left, hread⟩ := exists_ifAny?_element?_iff.2 hparameters
    exact ⟨written, ⟨e, he, (a.oid, rest'), (reads_primitive? 6 _ _ _).2 ⟨oidOctets, hwritten, hcontent⟩,
      (a.parameters, left), hread, rfl⟩, rfl⟩

/-- Octets are a BIT STRING whose unused bits are zero. -/
def IsBitString (octets bs : Octets) : Prop :=
  ∃ b : BitString, IsPrimitive 3 b.content bs ∧ b.HasZeroPadding ∧ b.octets = octets

/-- The bits of a content are read exactly if those that are not used are zero. -/
lemma bits?_eq_some_iff {content octets : Octets} : bits? content = some octets ↔
    ∃ b : BitString, b.content = content ∧ b.HasZeroPadding ∧ b.octets = octets := by
  constructor
  · intro h
    have hstring : ∃ b : BitString, b.content = content := by
      unfold bits? at h
      split at h
      · cases h
      · rename_i unused
        split at h
        · rename_i hzero
          exact ⟨⟨unused, [], by simp [hzero]⟩, rfl⟩
        · cases h
      · rename_i unused octets' hne
        split at h
        · rename_i hpadding
          have hlt : unused < 8 := of_decide_eq_true (Bool.and_eq_true_iff.1 hpadding).1
          refine ⟨⟨unused, octets', ?_⟩, rfl⟩
          have hsome : octets' ≠ [] := fun h => hne h
          simp [hlt, hsome]
        · cases h
    obtain ⟨b, rfl⟩ := hstring
    rw [bits?_content] at h
    split at h
    · rename_i hpadding
      exact ⟨b, rfl, hpadding, Option.some.inj h⟩
    · cases h
  · rintro ⟨b, rfl, hpadding, rfl⟩
    rw [bits?_content, if_pos hpadding]

/-- The reader of bit strings reads those whose unused bits are zero. -/
lemma reads_bitString? : Reads bitString? IsBitString := by
  intro bs octets rest
  rw [bitString?, (reads_primitive? 3).bind bits?]
  simp only [bits?_eq_some_iff, IsBitString]
  constructor
  · rintro ⟨written, ⟨_, hwritten, b, rfl, hpadding, hoctets⟩, rfl⟩
    exact ⟨written, ⟨b, hwritten, hpadding, hoctets⟩, rfl⟩
  · rintro ⟨written, ⟨b, hwritten, hpadding, hoctets⟩, rfl⟩
    exact ⟨written, ⟨b.content, hwritten, b, rfl, hpadding, hoctets⟩, rfl⟩

/-! ### Signed structures -/

variable {fields? : Octets → Option (Algorithm × Octets)}

/-- Octets are a signed part: a SEQUENCE whose content the reader of its fields takes. -/
structure IsPart (fields? : Octets → Option (Algorithm × Octets)) (part : SignedPart) (bs : Octets) : Prop where
  octets : part.octets = bs
  fields : ∃ e, IsNumbered sequenceNumber e bs ∧ fields? e.content = some (part.algorithm, part.subject)

/-- The reader of a signed part reads it with the octets that it is made of. -/
lemma reads_part? : Reads (part? fields?) (IsPart fields?) := by
  intro bs part rest
  simp only [part?, Option.bind_eq_bind, Option.bind_eq_some_iff, Option.pure_def, Option.some.injEq]
  constructor
  · rintro ⟨⟨e, rest'⟩, hread, ⟨algorithm, subject⟩, hfields, h⟩
    cases h
    obtain ⟨written, hwritten, rfl⟩ := (reads_numbered? sequenceNumber _ _ _).1 hread
    refine ⟨written, ⟨?_, e, hwritten, hfields⟩, rfl⟩
    simp
  · rintro ⟨written, ⟨rfl, e, hwritten, hfields⟩, rfl⟩
    refine ⟨(e, rest), (reads_numbered? sequenceNumber _ _ _).2 ⟨_, hwritten, rfl⟩, _, hfields, ?_⟩
    simp

/-- How a signed structure is written: a SEQUENCE of the signed part, the algorithm and the signature. -/
structure Layout (fields? : Octets → Option (Algorithm × Octets)) (s : Signed) (bs : Octets) where
  whole : Element
  algorithm : Octets
  signature : Octets
  /-- What comes behind the signature in the SEQUENCE. Nobody looks at it. -/
  unread : Octets
  isSequence : IsNumbered sequenceNumber whole bs
  content_eq : whole.content = s.part.octets ++ (algorithm ++ (signature ++ unread))
  isPart : IsPart fields? s.part s.part.octets
  isAlgorithm : s.algorithm.IsWrittenAs algorithm
  isSignature : IsBitString s.signature signature

/-- The reader of signed structures reads those that have a layout. -/
lemma reads_signed? : Reads (signed? fields?) (fun s bs => Nonempty (Layout fields? s bs)) := by
  intro bs s rest
  rw [signed?, reads_inSequence?]
  simp only [Option.bind_eq_bind, Option.bind_eq_some_iff, Option.pure_def, Option.some.injEq]
  constructor
  · rintro ⟨written, ⟨e, he, ⟨part, r1⟩, hpart, ⟨a, r2⟩, ha, ⟨signature, unread⟩, hs, rfl⟩, rfl⟩
    obtain ⟨partOctets, hisPart, hcontent⟩ := (reads_part? _ _ _).1 hpart
    obtain ⟨algorithmOctets, halgorithm, rfl⟩ := (reads_algorithm? _ _ _).1 ha
    obtain ⟨signatureOctets, hsignature, rfl⟩ := (reads_bitString? _ _ _).1 hs
    obtain rfl := hisPart.octets
    exact ⟨written, ⟨e, algorithmOctets, signatureOctets, unread, he, hcontent, hisPart, halgorithm, hsignature⟩, rfl⟩
  · rintro ⟨written, ⟨layout⟩, rfl⟩
    have hpart := (reads_part? _ _ _).2 ⟨_, layout.isPart, layout.content_eq⟩
    have halgorithm := (reads_algorithm? _ _ (layout.signature ++ layout.unread)).2 ⟨_, layout.isAlgorithm, rfl⟩
    have hsignature := (reads_bitString? _ _ layout.unread).2 ⟨_, layout.isSignature, rfl⟩
    exact ⟨written, ⟨layout.whole, layout.isSequence, _, hpart, _, halgorithm, _, hsignature, rfl⟩, rfl⟩

end CertAuthority.Lenient

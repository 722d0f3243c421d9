import CertAuthority.Certificate.Attach
import CertAuthority.Pem
import CertAuthority.Proofs.Base64
import CertAuthority.Proofs.Oid.Text

/-!
# PEM armour is read back

The text of a block is a header, lines and a footer, each with one line ending (`armour`). Such a text is read,
with either line ending and with or without the last one (`decode_armour`), because dashes occur in the header
and the footer only (`decode_frame`). What is written for a label and octets is such a text (`exists_encode_eq`),
and so the label and the octets are read back from it (`decode_written`).
-/

namespace CertAuthority.Pem

/-! ### The readers of the parts -/

/-- What stands behind a start is found. -/
lemma afterStart?_append (start rest : Octets) : afterStart? start (start ++ rest) = some rest := by
  rw [afterStart?, if_pos (List.isPrefixOf_iff_prefix.2 (List.prefix_append _ _)), List.drop_left]

/-- What is found behind a start stands behind it. -/
lemma eq_of_afterStart? {start bs rest : Octets} (h : afterStart? start bs = some rest) : bs = start ++ rest := by
  rw [afterStart?, Option.ite_none_right_eq_some, Option.some.injEq, List.isPrefixOf_iff_prefix] at h
  obtain ⟨⟨rest, rfl⟩, rfl⟩ := h
  rw [List.drop_left]

/-- What stands in front of an ending is found. -/
lemma beforeEnd?_append (bs ending : Octets) : beforeEnd? ending (bs ++ ending) = some bs := by
  have hsuffix : ending.isSuffixOf (bs ++ ending) = true := List.isSuffixOf_iff_suffix.2 (List.suffix_append _ _)
  rw [beforeEnd?, if_pos hsuffix, List.length_append, Nat.add_sub_cancel, List.take_left]

/-- What is found in front of an ending stands in front of it. -/
lemma eq_of_beforeEnd? {ending bs front : Octets} (h : beforeEnd? ending bs = some front) :
    bs = front ++ ending := by
  rw [beforeEnd?, Option.ite_none_right_eq_some, Option.some.injEq, List.isSuffixOf_iff_suffix] at h
  obtain ⟨⟨front, rfl⟩, rfl⟩ := h
  rw [List.length_append, Nat.add_sub_cancel, List.take_left]

/-- Octets that end with one octet do not end with another. -/
lemma beforeEnd?_concat {a b : UInt8} (h : a ≠ b) (bs : Octets) : beforeEnd? [a] (bs ++ [b]) = none := by
  rw [beforeEnd?, if_neg]
  rintro hsuffix
  obtain ⟨front, hfront⟩ := List.isSuffixOf_iff_suffix.1 hsuffix
  exact h (List.append_inj_right' hfront rfl |> List.singleton_inj.1)

/-- The first line ends where its line feed is. -/
lemma firstLine?_append {line : Octets} (h : 10 ∉ line) (rest : Octets) :
    firstLine? (line ++ 10 :: rest) = some (line, rest) := by
  induction line with
  | nil => rfl
  | cons b line ih =>
    rw [List.mem_cons, not_or] at h
    rw [List.cons_append, firstLine?, if_neg (Ne.symm h.1), ih h.2]
    rfl

/-- A first line that is found has no line feed but the one behind it. -/
lemma eq_of_firstLine? {bs line rest : Octets} (h : firstLine? bs = some (line, rest)) :
    10 ∉ line ∧ bs = line ++ 10 :: rest := by
  induction bs generalizing line with
  | nil => exact absurd h nofun
  | cons b bs ih =>
    rw [firstLine?] at h
    split at h
    · rename_i hfeed
      cases h
      exact ⟨List.not_mem_nil, congrArg (· :: rest) hfeed⟩
    · rename_i hfeed
      obtain ⟨⟨front, back⟩, hfirst, h⟩ := Option.map_eq_some_iff.1 h
      cases h
      obtain ⟨hnone, rfl⟩ := ih hfirst
      exact ⟨List.not_mem_cons_of_ne_of_not_mem (Ne.symm hfeed) hnone, rfl⟩

/-- A mark is found behind octets without its first octet. -/
lemma cutAt?_append {m : UInt8} {body : Octets} (h : m ∉ body) (mark tail : Octets) :
    cutAt? (m :: mark) (body ++ (m :: mark ++ tail)) = some (body, tail) := by
  induction body with
  | nil =>
    rw [List.nil_append, List.cons_append, cutAt?, ← List.cons_append, afterStart?_append]
  | cons b body ih =>
    rw [List.mem_cons, not_or] at h
    have hstart : afterStart? (m :: mark) (b :: (body ++ (m :: mark ++ tail))) = none := by
      rw [afterStart?, if_neg]
      rw [List.isPrefixOf_cons_cons, Bool.and_eq_true, beq_iff_eq, not_and]
      exact fun hm => absurd hm h.1
    rw [List.cons_append, cutAt?, hstart, ih h.2]
    rfl

/-- A text is cut around the mark. -/
lemma eq_of_cutAt? {mark bs body tail : Octets} (h : cutAt? mark bs = some (body, tail)) :
    bs = body ++ (mark ++ tail) := by
  induction bs generalizing body with
  | nil =>
    rw [cutAt?, Option.ite_none_right_eq_some, List.isEmpty_iff] at h
    obtain ⟨rfl, h⟩ := h
    cases h
    rfl
  | cons b bs ih =>
    rw [cutAt?] at h
    split at h
    · rename_i rest hstart
      cases h
      rw [List.nil_append]
      exact eq_of_afterStart? hstart
    · obtain ⟨⟨front, back⟩, hcut, h⟩ := Option.map_eq_some_iff.1 h
      cases h
      rw [ih hcut, List.cons_append]

/-! ### Blocks -/

/-- The two line endings. -/
def IsEnding (ending : Octets) : Prop :=
  ending = [10] ∨ ending = [13, 10]

/-- There is no dash in the ending of a line. -/
lemma dash_not_mem {ending : Octets} (h : IsEnding ending) : 45 ∉ ending := by
  obtain rfl | rfl := h <;> decide

/-- A line of a body has no octet of a line ending and no dash. -/
def IsLine (line : Octets) : Prop :=
  ∀ b ∈ line, b ≠ 10 ∧ b ≠ 13 ∧ b ≠ 45

/-- A header, a body and a footer with a text behind it. -/
def frame (label : String) (ending body tail : Octets) : Octets :=
  opening ++ (Octets.ofString label ++ dashes ++ ending ++
    (body ++ (closing ++ Octets.ofString label ++ dashes ++ tail)))

/-- A block with the line ending of its header and its lines, and with a text behind its footer. -/
def armour (label : String) (ending : Octets) (lines : List Octets) (tail : Octets) : Octets :=
  opening ++ (Octets.ofString label ++ dashes ++ ending ++
    (lines.flatMap (· ++ ending) ++ (closing ++ Octets.ofString label ++ dashes ++ tail)))

/-- Joining takes the ending of a line away and leaves its characters. -/
lemma joinLines_append {ending line : Octets} (hending : IsEnding ending) (hline : IsLine line) (rest : Octets) :
    joinLines (line ++ (ending ++ rest)) = line ++ joinLines rest := by
  induction line with
  | nil =>
    obtain rfl | rfl := hending
    · rw [List.nil_append, List.singleton_append, joinLines]
      rfl
    · rfl
  | cons b line ih =>
    obtain ⟨⟨hfeed, hreturn, -⟩, htail⟩ := List.forall_mem_cons.1 hline
    have hkept (tail : Octets) : joinLines (b :: tail) = b :: joinLines tail := by
      rw [joinLines]
      · exact fun _ h _ => hreturn h
      · exact hfeed
    rw [List.cons_append, hkept, ih htail, List.cons_append]

/-- The lines of a body are joined. -/
lemma joinLines_flatMap {ending : Octets} {lines : List Octets} (hending : IsEnding ending)
    (hlines : ∀ line ∈ lines, IsLine line) : joinLines (lines.flatMap (· ++ ending)) = lines.flatten := by
  induction lines with
  | nil => rfl
  | cons line lines ih =>
    rw [List.forall_mem_cons] at hlines
    rw [List.flatMap_cons, List.append_assoc, joinLines_append hending hlines.1, ih hlines.2, List.flatten_cons]

/-- A text has a line feed among its octets exactly if it is one of its characters. -/
lemma lineFeed_mem_iff {label : String} : 10 ∈ Octets.ofString label ↔ '\n' ∈ label.toList := by
  constructor
  · intro hmem
    obtain ⟨c, hc, hnat⟩ := Octets.exists_of_mem_ofString hmem (by decide)
    have hfeed : c = '\n' := Char.toNat_inj.1 hnat
    exact hfeed ▸ hc
  · intro hmem
    rw [← String.ofList_toList (s := label), Octets.ofString_ofList]
    exact List.mem_flatMap.2 ⟨'\n', hmem, by decide⟩

/-- The line ending of a block is found in its first line. -/
lemma exists_firstLine {ending label : Octets} (hending : IsEnding ending) (hlabel : 10 ∉ label) (rest : Octets) :
    ∃ line, firstLine? (label ++ dashes ++ ending ++ rest) = some (line, rest) ∧
      (beforeEnd? [13] line = none ∧ line = label ++ dashes ∧ ending = [10] ∨
        beforeEnd? [13] line = some (label ++ dashes) ∧ ending = [13, 10]) := by
  have hheader : 10 ∉ label ++ dashes := by
    rw [List.mem_append, not_or]
    exact ⟨hlabel, by decide⟩
  obtain rfl | rfl := hending
  · have hdash : label ++ dashes = label ++ dashes.dropLast ++ [45] := by
      rw [List.append_assoc]
      rfl
    refine ⟨label ++ dashes, ?_, .inl ⟨?_, rfl, rfl⟩⟩
    · rw [List.append_assoc, List.singleton_append, firstLine?_append hheader]
    · rw [hdash, beforeEnd?_concat (by decide)]
  · have hline : 10 ∉ label ++ dashes ++ [13] := by
      rw [List.mem_append, not_or]
      exact ⟨hheader, by decide⟩
    refine ⟨label ++ dashes ++ [13], ?_, .inr ⟨beforeEnd?_append _ _, rfl⟩⟩
    rw [← firstLine?_append hline rest]
    simp only [List.append_assoc, List.cons_append, List.nil_append]

/-- The lines of a body hold no dash, and the last one has its ending. -/
lemma body_eq {ending : Octets} {lines : List Octets} (hending : IsEnding ending)
    (hlines : ∀ line ∈ lines, IsLine line) (hne : lines ≠ []) :
    45 ∉ lines.flatMap (· ++ ending) ∧ ending <:+ lines.flatMap (· ++ ending) := by
  constructor
  · rw [List.mem_flatMap]
    rintro ⟨line, hmem, hb⟩
    exact (List.mem_append.1 hb).elim (fun h => (hlines line hmem _ h).2.2 rfl) (dash_not_mem hending)
  · obtain ⟨front, last, rfl⟩ := (List.eq_nil_or_concat lines).resolve_left hne
    rw [List.concat_eq_append, List.flatMap_append, List.flatMap_singleton, ← List.append_assoc]
    exact List.suffix_append _ _

/-- A body without dashes is read between a header and a footer, if it ends as the header does. -/
lemma decode_frame {label : String} {ending body tail octets : Octets} (hlabel : label ≠ "")
    (hone : '\n' ∉ label.toList) (hending : IsEnding ending) (htail : tail = [] ∨ tail = ending)
    (hdash : 45 ∉ body) (hended : ending <:+ body) (hbody : Base64.decode? (joinLines body) = some octets) :
    decode (frame label ending body tail) = .ok (label, octets) := by
  have hfound : (Octets.ofString label).isEmpty = false := by
    rw [List.isEmpty_eq_false_iff]
    intro hnil
    have hread := Octets.toString?_ofString label
    rw [hnil] at hread
    exact hlabel (Option.some.inj hread).symm
  have hrest : (!tail.isEmpty && tail != ending) = false := by
    obtain rfl | rfl := htail <;> simp
  have hempty : body.isEmpty = false := by
    rw [List.isEmpty_eq_false_iff]
    rintro rfl
    rw [List.suffix_nil] at hended
    subst hended
    exact hending.elim nofun nofun
  have hcut : cutAt? (closing ++ Octets.ofString label ++ dashes)
      (body ++ (closing ++ Octets.ofString label ++ dashes ++ tail)) = some (body, tail) := cutAt?_append hdash _ _
  obtain ⟨first, hfirst, hheader⟩ := exists_firstLine hending (mt lineFeed_mem_iff.1 hone)
    (body ++ (closing ++ Octets.ofString label ++ dashes ++ tail))
  rw [← List.isSuffixOf_iff_suffix] at hended
  rw [decode, frame, afterStart?_append]
  simp only [hfirst]
  obtain ⟨hread, rfl, rfl⟩ | ⟨hread, rfl⟩ := hheader <;>
    simp only [hread, beforeEnd?_append, hfound, Octets.toString?_ofString, hcut, hrest, hempty, hended, hbody,
      Bool.not_true, Bool.false_eq_true, if_false] <;>
    rfl

/-- A block is read, with either line ending, and with or without the last one. -/
theorem decode_armour {label : String} {ending tail octets : Octets} {lines : List Octets} (hlabel : label ≠ "")
    (hone : '\n' ∉ label.toList) (hending : IsEnding ending) (htail : tail = [] ∨ tail = ending)
    (hlines : ∀ line ∈ lines, IsLine line) (hne : lines ≠ []) (hbody : Base64.decode? lines.flatten = some octets) :
    decode (armour label ending lines tail) = .ok (label, octets) := by
  obtain ⟨hdash, hended⟩ := body_eq hending hlines hne
  rw [← joinLines_flatMap hending hlines] at hbody
  exact decode_frame hlabel hone hending htail hdash hended hbody

/-! ### What is written -/

/-- The lines of a body are the pieces of its base 64. -/
lemma exists_wrap_eq (bs : Octets) :
    ∃ lines : List Octets, wrap bs = lines.flatMap (· ++ [10]) ∧ lines.flatten = bs ∧
      ∀ line ∈ lines, line.length ≤ 64 := by
  fun_induction wrap bs with
  | case1 bs hnil => exact ⟨[], rfl, (List.isEmpty_iff.1 hnil).symm, nofun⟩
  | case2 bs _ ih =>
    obtain ⟨lines, hwrap, hflatten, hlength⟩ := ih
    refine ⟨bs.take 64 :: lines, ?_, ?_, ?_⟩
    · rw [hwrap, List.flatMap_cons, List.append_assoc, List.singleton_append]
    · rw [List.flatten_cons, hflatten, List.take_append_drop]
    · rw [List.forall_mem_cons]
      exact ⟨List.length_take_le _ _, hlength⟩

/-- What is written for octets is a block of lines of at most 64 characters. -/
lemma exists_encode_eq (label : String) {octets : Octets} (h : octets ≠ []) :
    ∃ lines : List Octets, encode label octets = armour label [10] lines [10] ∧
      (∀ line ∈ lines, IsLine line ∧ line.length ≤ 64) ∧ lines ≠ [] ∧
      Base64.decode? lines.flatten = some octets := by
  obtain ⟨lines, hwrap, hflatten, hlength⟩ := exists_wrap_eq (Base64.encode octets)
  have hplain := Base64.forall_mem_encode (p := fun b => b ≠ 10 ∧ b ≠ 13 ∧ b ≠ 45) (by decide) (by decide) octets
  refine ⟨lines, ?_, fun line hline => ⟨fun b hb => ?_, hlength line hline⟩, ?_, ?_⟩
  · rw [encode, armour, hwrap]
    simp only [List.append_assoc]
  · exact hplain b (hflatten ▸ List.mem_flatten.2 ⟨line, hline, hb⟩)
  · rintro rfl
    exact Base64.encode_ne_nil h hflatten.symm
  · rw [hflatten, Base64.decode?_encode]

/-- A text with each line feed replaced by a carriage return and a line feed. -/
def withReturns (bs : Octets) : Octets :=
  bs.flatMap fun b => if b = 10 then [13, 10] else [b]

/-- Returns are added line feed by line feed. -/
lemma withReturns_append (as bs : Octets) : withReturns (as ++ bs) = withReturns as ++ withReturns bs :=
  List.flatMap_append

/-- No return is added where there is no line feed. -/
lemma withReturns_of_not_mem {bs : Octets} (h : 10 ∉ bs) : withReturns bs = bs := by
  induction bs with
  | nil => rfl
  | cons b bs ih =>
    rw [List.mem_cons, not_or] at h
    rw [withReturns, List.flatMap_cons, if_neg (Ne.symm h.1)]
    exact congrArg (b :: ·) (ih h.2)

/-- Each line gets one return in front of its line feed. -/
lemma withReturns_flatMap {lines : List Octets} (hlines : ∀ line ∈ lines, IsLine line) :
    withReturns (lines.flatMap (· ++ [10])) = lines.flatMap (· ++ [13, 10]) := by
  induction lines with
  | nil => rfl
  | cons line lines ih =>
    rw [List.forall_mem_cons] at hlines
    have hline : 10 ∉ line := fun hmem => (hlines.1 _ hmem).1 rfl
    rw [List.flatMap_cons, withReturns_append, withReturns_append, withReturns_of_not_mem hline, ih hlines.2]
    rfl

/-- A block with carriage returns is one with the other line ending. -/
lemma withReturns_armour {label : String} {lines : List Octets} (hone : '\n' ∉ label.toList)
    (hlines : ∀ line ∈ lines, IsLine line) :
    withReturns (armour label [10] lines [10]) = armour label [13, 10] lines [13, 10] := by
  have hlabel := withReturns_of_not_mem (mt lineFeed_mem_iff.1 hone)
  simp only [armour, withReturns_append, hlabel, withReturns_flatMap hlines]
  rfl

/-- Without its last line feed a block ends with the dashes behind its label. -/
lemma dropLast_armour (label : String) (ending : Octets) (lines : List Octets) :
    (armour label ending lines [10]).dropLast = armour label ending lines [] := by
  have hsplit : armour label ending lines [10] = armour label ending lines [] ++ [10] := by
    simp only [armour, List.append_assoc, List.nil_append]
  rw [hsplit, List.dropLast_concat]

/-- The text that is written for a label and octets, that without the last line feed, and that with the other
line ending. -/
def forms (label : String) (octets : Octets) : List Octets :=
  [encode label octets, (encode label octets).dropLast, withReturns (encode label octets)]

/-- A label of one line and octets are read back from what is written for them, in lines of at most 64 characters,
and from the text without its last line feed and that with the other line ending. So an authority gets the same
certificate, or refuses it for the same reason, from a text and from its octets. -/
theorem decode_written {octets : Octets} (h : octets ≠ []) :
    (∀ label : String, label ≠ "" → '\n' ∉ label.toList →
      (∃ lines, encode label octets = armour label [10] lines [10] ∧
        ∀ line ∈ lines, IsLine line ∧ line.length ≤ 64) ∧
      ∀ text ∈ forms label octets, decode text = .ok (label, octets)) ∧
    ∀ ca : Authority, ∀ text ∈ forms certificate octets, ca.attachPem text = ca.attach octets := by
  have hread (label : String) (hlabel : label ≠ "") (hone : '\n' ∉ label.toList) :
      ∀ text ∈ forms label octets, decode text = .ok (label, octets) := by
    obtain ⟨lines, hwritten, hlines, hne, hbody⟩ := exists_encode_eq label h
    have hplain := fun line hline => (hlines line hline).1
    simp only [forms, List.forall_mem_cons, hwritten, dropLast_armour, withReturns_armour hone hplain]
    refine ⟨?_, ?_, ?_, nofun⟩
    · exact decode_armour hlabel hone (.inl rfl) (.inr rfl) hplain hne hbody
    · exact decode_armour hlabel hone (.inl rfl) (.inl rfl) hplain hne hbody
    · exact decode_armour hlabel hone (.inr rfl) (.inr rfl) hplain hne hbody
  refine ⟨fun label hlabel hone => ⟨?_, hread label hlabel hone⟩, fun ca text htext => ?_⟩
  · obtain ⟨lines, hwritten, hlines, -, -⟩ := exists_encode_eq label h
    exact ⟨lines, hwritten, hlines⟩
  · rw [Authority.attachPem, decodeLabeled, hread certificate (by decide) (by decide) text htext]
    rfl

/-- A label that looks like a footer, with octets that take two lines. -/
theorem decode_sample :
    let label := "X-----END X\r"
    let octets := List.replicate 50 0xFF
    decode (encode label octets) = .ok (label, octets) ∧
      decode (encode label octets).dropLast = .ok (label, octets) ∧
      decode (withReturns (encode label octets)) = .ok (label, octets) := by
  have hread := ((@decode_written (List.replicate 50 0xFF) (by decide)).1 "X-----END X\r" (by decide)
    (by decide)).2
  simp only [forms, List.forall_mem_cons] at hread
  exact ⟨hread.1, hread.2.1, hread.2.2.1⟩

end CertAuthority.Pem

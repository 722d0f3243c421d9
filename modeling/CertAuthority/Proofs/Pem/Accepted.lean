import CertAuthority.Proofs.Pem

/-!
# What is read as PEM armour

A text that is read is a header, lines and a footer, and nothing behind the footer but the line ending of the
header (`Block`); the lines hold the base 64 of the octets, and nothing else is read (`decode_eq_ok_iff`). The
header starts the text, and the line before the footer ends as the header does. Each other line has its own
ending, for a carriage return is taken off a line whatever the header ends with. So the line endings of a text
that is read are those of its lines between that of the header and that behind the footer
(`lineEndings_text`), and they are the same throughout if the lines have that of the header.
-/

namespace CertAuthority

/-- Octets that are a text are the octets of it. -/
lemma Octets.eq_ofString_of_toString? {bs : Octets} {s : String} (h : toString? bs = some s) :
    bs = ofString s := by
  rw [toString?, String.fromUTF8?] at h
  split at h
  · cases h
    rfl
  · cases h

namespace Pem

/-! ### The line endings of a text -/

/-- The line endings of a text, in their order: the line feeds, with the carriage return before them. -/
def lineEndings : Octets → List Octets
  | [] => []
  | 13 :: 10 :: rest => [13, 10] :: lineEndings rest
  | 10 :: rest => [10] :: lineEndings rest
  | _ :: rest => lineEndings rest

/-- A text with one line ending throughout. -/
def HasOneEnding (text : Octets) : Prop :=
  ∃ ending, ∀ e ∈ lineEndings text, e = ending

/-- There are no endings of lines where there is no line feed. -/
lemma lineEndings_of_not_mem {bs : Octets} (h : 10 ∉ bs) : lineEndings bs = [] := by
  fun_induction lineEndings bs with
  | case1 => rfl
  | case2 rest => exact absurd (List.mem_cons_of_mem _ List.mem_cons_self) h
  | case3 rest => exact absurd List.mem_cons_self h
  | case4 b rest _ _ ih => exact ih fun hmem => h (List.mem_cons_of_mem _ hmem)

/-- The first line ending of a text is the one behind its first line. -/
lemma lineEndings_append {line ending : Octets} (hfeed : 10 ∉ line) (hreturn : line.getLast? ≠ some 13)
    (hending : IsEnding ending) (rest : Octets) :
    lineEndings (line ++ (ending ++ rest)) = ending :: lineEndings rest := by
  induction line with
  | nil =>
    obtain rfl | rfl := hending
    · rw [List.nil_append, List.singleton_append, lineEndings]
    · rfl
  | cons b line ih =>
    rw [List.mem_cons, not_or] at hfeed
    cases line with
    | nil =>
      have hb : b ≠ 13 := fun h => hreturn (congrArg some h)
      rw [List.cons_append, lineEndings]
      · exact ih List.not_mem_nil nofun
      · exact fun _ h _ => hb h
      · exact fun h => hfeed.1 h.symm
    | cons c line =>
      rw [List.getLast?_cons_cons] at hreturn
      rw [List.cons_append, lineEndings]
      · exact ih hfeed.2 hreturn
      · intro _ _ h
        rw [List.cons_append] at h
        exact hfeed.2 ((List.cons.inj h).1 ▸ List.mem_cons_self)
      · exact fun h => hfeed.1 h.symm

/-! ### Blocks whose lines have their own endings -/

/-- A line of a body with the line ending behind it. -/
structure Row where
  line : Octets
  ending : Octets
  plain : IsLine line
  ended : IsEnding ending

/-- The octets of a row. -/
def Row.octets (row : Row) : Octets :=
  row.line ++ row.ending

/-- A text in its parts: the header and its line ending, the lines, the footer with the label of the header, and
what stands behind it. -/
structure Block where
  label : String
  ending : Octets
  rows : List Row
  tail : Octets
  named : label ≠ ""
  oneLine : '\n' ∉ label.toList
  ended : IsEnding ending
  /-- The footer starts a line, behind a line ending that the header has too. -/
  closed : ending <:+ rows.flatMap Row.octets
  tailed : tail = [] ∨ tail = ending

/-- The octets of a block. -/
def Block.text (b : Block) : Octets :=
  frame b.label b.ending (b.rows.flatMap Row.octets) b.tail

/-- The characters of the lines. -/
def Block.characters (b : Block) : Octets :=
  (b.rows.map Row.line).flatten

/-- The characters of a body are those of its rows. -/
lemma joinLines_rows (rows : List Row) : joinLines (rows.flatMap Row.octets) = (rows.map Row.line).flatten := by
  induction rows with
  | nil => rfl
  | cons row rows ih =>
    rw [List.flatMap_cons, Row.octets, List.append_assoc, joinLines_append row.ended row.plain, ih, List.map_cons,
      List.flatten_cons]

/-- There is no dash in the rows of a body. -/
lemma dash_not_mem_rows (rows : List Row) : 45 ∉ rows.flatMap Row.octets := by
  rw [List.mem_flatMap]
  rintro ⟨row, -, hb⟩
  exact (List.mem_append.1 hb).elim (fun h => (row.plain _ h).2.2 rfl) (dash_not_mem row.ended)

/-- A body that ends with a line feed consists of lines, if what is left of it without its line endings are
characters of lines. -/
lemma exists_rows {body : Octets} (hlast : ∀ b ∈ body.getLast?, b = 10) (hplain : IsLine (joinLines body)) :
    ∃ rows : List Row, rows.flatMap Row.octets = body := by
  have hrest {b : UInt8} {rest : Octets} (hlast : ∀ c ∈ (b :: rest).getLast?, c = 10) :
      ∀ c ∈ rest.getLast?, c = 10 := by
    cases rest with
    | nil => exact nofun
    | cons c rest => exact List.getLast?_cons_cons ▸ hlast
  fun_induction joinLines body with
  | case1 => exact ⟨[], rfl⟩
  | case2 rest ih =>
    obtain ⟨rows, rfl⟩ := ih (hrest (hrest hlast)) hplain
    exact ⟨⟨[], [13, 10], nofun, .inr rfl⟩ :: rows, rfl⟩
  | case3 rest ih =>
    obtain ⟨rows, rfl⟩ := ih (hrest hlast) hplain
    exact ⟨⟨[], [10], nofun, .inl rfl⟩ :: rows, rfl⟩
  | case4 b rest _ hfeed ih =>
    -- the octet is the first one of a line, since something follows it
    obtain ⟨hb, hplain⟩ := List.forall_mem_cons.1 hplain
    obtain ⟨rows, rfl⟩ := ih (hrest hlast) hplain
    cases rows with
    | nil => exact absurd (hlast b rfl) hfeed
    | cons row rows =>
      exact ⟨⟨b :: row.line, row.ending, List.forall_mem_cons.2 ⟨hb, row.plain⟩, row.ended⟩ :: rows, rfl⟩

/-- A block is read if its characters are base 64. -/
lemma decode_text {b : Block} {octets : Octets} (h : b.characters = Base64.encode octets) :
    decode b.text = .ok (b.label, octets) := by
  refine decode_frame b.named b.oneLine b.ended b.tailed (dash_not_mem_rows b.rows) b.closed ?_
  rw [joinLines_rows, Base64.decode?_eq_some_iff]
  exact h

/-! ### What is read -/

/-- The line ending of the header is what is taken off the first line, with its line feed. -/
lemma header_eq {line header ending : Octets}
    (h : (match beforeEnd? [13] line with
      | some header => (header, [13, 10])
      | none => (line, [10])) = (header, ending)) :
    IsEnding ending ∧ line ++ [10] = header ++ ending := by
  split at h
  · rename_i front hend
    cases h
    rw [eq_of_beforeEnd? hend, List.append_assoc]
    exact ⟨.inr rfl, rfl⟩
  · cases h
    exact ⟨.inl rfl, rfl⟩

/-- What each step has found in a text that is read. -/
lemma exists_steps {input octets : Octets} {label : String} (h : decode input = .ok (label, octets)) :
    ∃ after line rest header ending labelOctets body tail,
      afterStart? opening input = some after ∧ firstLine? after = some (line, rest) ∧
      IsEnding ending ∧ line ++ [10] = header ++ ending ∧ beforeEnd? dashes header = some labelOctets ∧
      labelOctets ≠ [] ∧ Octets.toString? labelOctets = some label ∧
      cutAt? (closing ++ labelOctets ++ dashes) rest = some (body, tail) ∧ (tail = [] ∨ tail = ending) ∧
      ending <:+ body ∧ Base64.decode? (joinLines body) = some octets := by
  unfold decode at h
  -- Each check either passes or ends with an error, so one branch of each is left.
  split at h
  case h_2 => exact absurd h nofun
  rename_i _ after hstart
  split at h
  case h_2 => exact absurd h nofun
  rename_i _ line rest hfirst
  split at h
  rename_i _ header ending hheader
  split at h
  case h_2 => exact absurd h nofun
  rename_i _ labelOctets hdashes
  dsimp only at h
  split at h
  case isTrue => exact absurd h nofun
  rename_i hnamed
  split at h
  case h_2 => exact absurd h nofun
  rename_i _ found hfound
  split at h
  case h_2 => exact absurd h nofun
  rename_i _ body tail hcut
  split at h
  case isTrue => exact absurd h nofun
  rename_i htail
  split at h
  case isTrue => exact absurd h nofun
  split at h
  case isTrue => exact absurd h nofun
  rename_i hclosed
  split at h
  case h_2 => exact absurd h nofun
  rename_i _ decoded hbody
  cases h
  rw [List.isEmpty_iff] at hnamed
  rw [Bool.and_eq_true, Bool.not_eq_true', bne_iff_ne, List.isEmpty_eq_false_iff, ← not_or, not_not] at htail
  rw [Bool.not_eq_true', Bool.not_eq_false, List.isSuffixOf_iff_suffix] at hclosed
  obtain ⟨hending, hline⟩ := header_eq hheader
  exact ⟨after, line, rest, header, ending, labelOctets, body, tail, hstart, hfirst, hending, hline, hdashes,
    hnamed, hfound, hcut, htail, hclosed, hbody⟩

/-- A text that is read is a header, a body that ends as the header does, and a footer with nothing behind it but
that line ending. -/
lemma exists_frame {input octets : Octets} {label : String} (h : decode input = .ok (label, octets)) :
    ∃ ending body tail, input = frame label ending body tail ∧ label ≠ "" ∧ '\n' ∉ label.toList ∧
      IsEnding ending ∧ (tail = [] ∨ tail = ending) ∧ ending <:+ body ∧
      joinLines body = Base64.encode octets := by
  obtain ⟨after, line, rest, header, ending, labelOctets, body, tail, hstart, hfirst, hending, hline, hdashes,
    hnamed, hfound, hcut, htail, hclosed, hbody⟩ := exists_steps h
  obtain rfl := Octets.eq_ofString_of_toString? hfound
  obtain rfl := eq_of_beforeEnd? hdashes
  obtain ⟨hnone, rfl⟩ := eq_of_firstLine? hfirst
  -- the first line is cut off at its first line feed, so that the label has none
  have hone : '\n' ∉ label.toList := by
    rw [← lineFeed_mem_iff]
    intro hmem
    obtain rfl | rfl := hending
    · rw [List.append_cancel_right hline] at hnone
      exact hnone (List.mem_append_left _ hmem)
    · have hreturn : line = Octets.ofString label ++ dashes ++ [13] :=
        List.append_cancel_right (hline.trans (List.append_assoc _ [13] [10]).symm)
      rw [hreturn, List.append_assoc] at hnone
      exact hnone (List.mem_append_left _ hmem)
  refine ⟨ending, body, tail, ?_, ?_, hone, hending, htail, hclosed, Base64.decode?_eq_some_iff.1 hbody⟩
  · rw [eq_of_afterStart? hstart, eq_of_cutAt? hcut, frame, ← hline, List.append_assoc line, List.singleton_append]
  · rintro rfl
    exact hnamed rfl

/-- Octets are read from a text, with a label, exactly if it is a block with that label whose lines hold the
base 64 of the octets. -/
theorem decode_eq_ok_iff {input octets : Octets} {label : String} :
    decode input = .ok (label, octets) ↔
      ∃ b : Block, b.text = input ∧ b.label = label ∧ b.characters = Base64.encode octets := by
  constructor
  · intro h
    obtain ⟨ending, body, tail, rfl, hnamed, hone, hended, htailed, hclosed, hbody⟩ := exists_frame h
    have hplain : IsLine (joinLines body) := by
      rw [hbody]
      exact Base64.forall_mem_encode (by decide) (by decide) octets
    have hlast : ∀ b ∈ body.getLast?, b = 10 := by
      obtain ⟨front, rfl⟩ := hclosed
      obtain rfl | rfl := hended <;> simp
    obtain ⟨rows, rfl⟩ := exists_rows hlast hplain
    refine ⟨⟨label, ending, rows, tail, hnamed, hone, hended, hclosed, htailed⟩, rfl, rfl, ?_⟩
    rw [← hbody, joinLines_rows]
    rfl
  · rintro ⟨b, rfl, rfl, hcharacters⟩
    exact decode_text hcharacters

/-! ### The line endings of what is read -/

/-- The endings of lines in a body are those of its rows. -/
lemma lineEndings_rows (rows : List Row) (rest : Octets) :
    lineEndings (rows.flatMap Row.octets ++ rest) = rows.map Row.ending ++ lineEndings rest := by
  induction rows with
  | nil => rfl
  | cons row rows ih =>
    have hfeed : 10 ∉ row.line := fun h => (row.plain _ h).1 rfl
    have hreturn : row.line.getLast? ≠ some 13 := fun h => (row.plain _ (List.mem_of_getLast? h)).2.1 rfl
    rw [List.flatMap_cons, Row.octets, List.append_assoc, List.append_assoc,
      lineEndings_append hfeed hreturn row.ended, ih, List.map_cons, List.cons_append]

/-- The line endings behind the footer. -/
def Block.lastEndings (b : Block) : List Octets :=
  if b.tail = [] then [] else [b.ending]

/-- The line endings of a block are that of its header, those of its lines, and the one behind the footer. -/
lemma lineEndings_text (b : Block) :
    lineEndings b.text = b.ending :: (b.rows.map Row.ending ++ b.lastEndings) := by
  have hlabel := mt lineFeed_mem_iff.1 b.oneLine
  have hbetween {mark : Octets} (hmark : 10 ∉ mark) :
      10 ∉ mark ++ Octets.ofString b.label ++ dashes ∧
        (mark ++ Octets.ofString b.label ++ dashes).getLast? ≠ some 13 := by
    refine ⟨?_, ?_⟩
    · rw [List.mem_append, List.mem_append, not_or, not_or]
      exact ⟨⟨hmark, hlabel⟩, by decide⟩
    · rw [List.getLast?_append]
      exact nofun
  obtain ⟨hheader, hheaderEnd⟩ := @hbetween opening (by decide)
  obtain ⟨hfooter, hfooterEnd⟩ := @hbetween closing (by decide)
  have hsplit : b.text = opening ++ Octets.ofString b.label ++ dashes ++ (b.ending ++
      (b.rows.flatMap Row.octets ++ (closing ++ Octets.ofString b.label ++ dashes ++ b.tail))) := by
    simp only [Block.text, frame, List.append_assoc]
  have hlast : lineEndings (closing ++ Octets.ofString b.label ++ dashes ++ b.tail) = b.lastEndings := by
    rw [Block.lastEndings]
    split
    · rename_i hnil
      rw [hnil, List.append_nil, lineEndings_of_not_mem hfooter]
    · rename_i hne
      have hend := lineEndings_append hfooter hfooterEnd b.ended []
      rw [List.append_nil] at hend
      rw [b.tailed.resolve_left hne, hend, lineEndings]
  rw [hsplit, lineEndings_append hheader hheaderEnd b.ended, lineEndings_rows, hlast]

/-- A block has one line ending throughout exactly if the lines have that of the header. -/
lemma hasOneEnding_text (b : Block) : HasOneEnding b.text ↔ ∀ row ∈ b.rows, row.ending = b.ending := by
  rw [HasOneEnding, lineEndings_text]
  constructor
  · rintro ⟨ending, hall⟩
    obtain ⟨rfl, hall⟩ := List.forall_mem_cons.1 hall
    exact fun row hrow => hall _ (List.mem_append_left _ (List.mem_map_of_mem hrow))
  · intro hrows
    refine ⟨b.ending, List.forall_mem_cons.2 ⟨rfl, List.forall_mem_append.2 ⟨?_, ?_⟩⟩⟩
    · exact List.forall_mem_map.2 hrows
    · rw [Block.lastEndings]
      split
      · exact nofun
      · exact List.forall_mem_singleton.2 rfl

/-- A text from which a label and octets are read starts with the header of the label and ends with its footer and
at most one more line ending, which is that of the header; between them stand lines with the base 64 of the octets,
the last of which ends as the header does. Every such text is read. Its line ending is the same throughout exactly
if no line has another than the header has, which is not asked of the lines before the last. -/
theorem accepted_blocks (input octets : Octets) (label : String) :
    decode input = .ok (label, octets) ↔
      ∃ b : Block, b.text = input ∧ b.label = label ∧ b.characters = Base64.encode octets ∧
        lineEndings input = b.ending :: (b.rows.map Row.ending ++ b.lastEndings) ∧
        (HasOneEnding input ↔ ∀ row ∈ b.rows, row.ending = b.ending) := by
  rw [decode_eq_ok_iff]
  constructor
  · rintro ⟨b, rfl, hlabel, hcharacters⟩
    exact ⟨b, rfl, hlabel, hcharacters, lineEndings_text b, hasOneEnding_text b⟩
  · rintro ⟨b, htext, hlabel, hcharacters, -, -⟩
    exact ⟨b, htext, hlabel, hcharacters⟩

/-- Two lines of which the first ends with a carriage return and a line feed, where the header and the second line
end with a line feed. -/
theorem exists_read_with_two_endings :
    let text := Octets.ofString "-----BEGIN X-----\nYWJj\r\nYWJj\n-----END X-----\n"
    decode text = .ok ("X", [97, 98, 99, 97, 98, 99]) ∧ ¬ HasOneEnding text := by
  refine ⟨by decide +kernel, ?_⟩
  rintro ⟨ending, hall⟩
  have hfirst := hall [10] (by decide +kernel)
  have hsecond := hall [13, 10] (by decide +kernel)
  exact absurd (hfirst.trans hsecond.symm) (by decide)

end Pem
end CertAuthority

import CertAuthority.Proofs.AltName.Encoded
import CertAuthority.Proofs.Certificate.Run
import CertAuthority.Proofs.Der.Field
import CertAuthority.Proofs.Extension.Resolve

/-!
# The distribution points of revocation lists

The places and the issuers of revocation lists are two lists of texts. Their entries are paired by position, and
where one list is longer the rest of it stands alone. Distribution points are read with all the fields that the
standard has for them (`PointContents`), which shows that the points of the extension are these pairs and hold
nothing else (`ExtensionContext.crl_distribution_points`).
-/

namespace CertAuthority

open Der

/-! ### Distribution points with all their fields -/

/-- What stands in a distribution point. -/
structure PointContents where
  /-- The names of the place. -/
  fullName : Option (List GeneralName)
  /-- The octets of the reasons that the list is for. -/
  reasons : Option Octets
  crlIssuer : Option (List GeneralName)
deriving DecidableEq, Repr

/-- Takes an element with a tag from the front of a structure, if it is there. -/
def Der.Tlv.takeTagged (tag : UInt8) : List Tlv → Option Tlv × List Tlv
  | [] => (none, [])
  | t :: ts => if t.tag = tag then (some t, ts) else (none, t :: ts)

/-- A part that may be missing is taken by its tag, and the parts behind it are left. -/
lemma Der.Tlv.takeTagged_append {α : Type} {tag : UInt8} {f : α → Tlv} {o : Option α} {ts : List Tlv}
    (hf : ∀ a, (f a).tag = tag) (hts : ∀ t ∈ ts, t.tag ≠ tag) :
    takeTagged tag ((o.map f).toList ++ ts) = (o.map f, ts) := by
  cases o with
  | some a => exact if_pos (hf a)
  | none =>
    cases ts with
    | nil => rfl
    | cons t ts => exact if_neg (hts t List.mem_cons_self)

namespace PointContents

/-- The element of the place of a distribution point. -/
def placeTlv (names : List GeneralName) : Tlv :=
  .explicit 0 (.around (Tag.contextConstructed 0) (names.map GeneralName.tlv))

/-- Reads the names of a place. -/
def placeOfTlv? (t : Tlv) (shortest : Nat := 0) : Option (List GeneralName) := do
  GeneralName.inside? (Tag.contextConstructed 0) (← t.explicit? 0) shortest

/-- The element of the issuer of a distribution point. -/
def issuerTlv (names : List GeneralName) : Tlv :=
  .around (Tag.contextConstructed 2) (names.map GeneralName.tlv)

/-- The form of the reasons for which a point has lists. -/
def reasonsTlv (octets : Octets) : Tlv :=
  ⟨Tag.context 1, octets⟩

/-- The form of a point, of which every part may be missing. -/
def tlv (c : PointContents) : Tlv :=
  .sequence ((c.fullName.map placeTlv).toList ++ ((c.reasons.map reasonsTlv).toList ++
    ((c.crlIssuer.map issuerTlv).toList ++ [])))

/-- Reads a distribution point. Its fields come in their order and nothing comes behind them. Identifiers with
fewer octets than `shortest` are not read; the standard has no such bound. -/
def ofTlv? (t : Tlv) (shortest : Nat := 0) : Option PointContents := do
  let (place, rest) := Tlv.takeTagged (Tag.contextConstructed 0) (← t.inside? Tag.sequence)
  let (reasons, rest) := Tlv.takeTagged (Tag.context 1) rest
  let (issuer, rest) := Tlv.takeTagged (Tag.contextConstructed 2) rest
  if !rest.isEmpty then none
  return ⟨← Field.optional (fun t => placeOfTlv? t shortest) place, reasons.map Tlv.content,
    ← Field.optional (fun t => GeneralName.inside? (Tag.contextConstructed 2) t shortest) issuer⟩

/-- The names of the place and of the issuer. -/
def names (c : PointContents) : List GeneralName :=
  c.fullName.getD [] ++ c.crlIssuer.getD []

variable {c x : PointContents} {shortest : Nat}

/-- A point has a known tag, that of a sequence. -/
@[simp] lemma known_tlv (c : PointContents) : c.tlv.Known :=
  rfl

/-- A place is read again exactly if the identifiers in its names are long enough. -/
lemma placeOfTlv?_placeTlv_iff {names others : List GeneralName} (hascii : ∀ g ∈ names, g.IsAscii)
    (h : (placeTlv names).Fits) : placeOfTlv? (placeTlv names) shortest = some others ↔
      others = names ∧ ∀ g ∈ names, ∀ o ∈ g.identifiers, shortest ≤ o.octets.length := by
  have hknown : (Tlv.around (Tag.contextConstructed 0) (names.map GeneralName.tlv)).Known :=
    (rfl : Tag.isKnown (Tag.contextConstructed 0) = true)
  rw [placeOfTlv?, placeTlv, Tlv.explicit?_explicit h hknown]
  exact GeneralName.inside?_around_iff hascii (h.of_mem List.mem_cons_self)

/-- What holds of a list that may be missing holds of it where it is there. -/
lemma forall_mem_getD {α : Type} {o : Option (List α)} {P : α → Prop} :
    (∀ a ∈ o.getD [], P a) ↔ ∀ as ∈ o, ∀ a ∈ as, P a := by
  cases o <;> simp

/-- A distribution point is read again with all its fields exactly if the identifiers in it are long enough. -/
lemma ofTlv?_tlv_iff (hascii : ∀ g ∈ c.names, g.IsAscii) (hf : c.tlv.Fits) :
    ofTlv? c.tlv shortest = some x ↔ x = c ∧ ∀ g ∈ c.names, ∀ o ∈ g.identifiers, shortest ≤ o.octets.length := by
  obtain ⟨place, reasons, issuer⟩ := c
  simp only [names, List.mem_append, or_imp, forall_and, forall_mem_getD] at hascii ⊢
  -- The three fields have tags of their own, so each is taken and those behind it stay.
  have hissuerTag : ∀ t ∈ (issuer.map issuerTlv).toList ++ [], t.tag = Tag.contextConstructed 2 := by
    simp only [List.append_nil, Option.mem_toList, Option.map_eq_some_iff]
    rintro _ ⟨_, -, rfl⟩
    rfl
  have hreasonsTag : ∀ t ∈ (reasons.map reasonsTlv).toList ++ ((issuer.map issuerTlv).toList ++ []),
      t.tag = Tag.context 1 ∨ t.tag = Tag.contextConstructed 2 := by
    intro t ht
    obtain ht | ht := List.mem_append.1 ht
    · obtain ⟨bs, -, rfl⟩ := Option.map_eq_some_iff.1 (Option.mem_toList.1 ht)
      exact .inl rfl
    · exact .inr (hissuerTag t ht)
  have htakePlace : Tlv.takeTagged (Tag.contextConstructed 0) ((place.map placeTlv).toList ++
      ((reasons.map reasonsTlv).toList ++ ((issuer.map issuerTlv).toList ++ []))) = (place.map placeTlv, _) :=
    Tlv.takeTagged_append (fun _ => rfl) fun t ht => by
      obtain htag | htag := hreasonsTag t ht <;> rw [htag] <;> decide
  have htakeReasons : Tlv.takeTagged (Tag.context 1) ((reasons.map reasonsTlv).toList ++
      ((issuer.map issuerTlv).toList ++ [])) = (reasons.map reasonsTlv, _) :=
    Tlv.takeTagged_append (fun _ => rfl) fun t ht => by
      rw [hissuerTag t ht]
      decide
  have htakeIssuer : Tlv.takeTagged (Tag.contextConstructed 2) ((issuer.map issuerTlv).toList ++ []) =
      (issuer.map issuerTlv, []) :=
    Tlv.takeTagged_append (fun _ => rfl) (List.forall_mem_nil _)
  have hinside := Tlv.inside?_around hf fun t ht => by
    obtain ht | ht := List.mem_append.1 ht
    · obtain ⟨ns, -, rfl⟩ := Option.map_eq_some_iff.1 (Option.mem_toList.1 ht)
      exact Tlv.known_explicit (by decide)
    · rw [Tlv.Known]
      obtain htag | htag := hreasonsTag t ht <;> rw [htag] <;> decide
  -- Reasons are octets and always read; only a list of names can have an identifier that is too short.
  have hplace (o : Option (List GeneralName)) :
      Field.optional (fun t => placeOfTlv? t shortest) (place.map placeTlv) = some o ↔
        o = place ∧ ∀ ns ∈ place, ∀ g ∈ ns, ∀ o ∈ g.identifiers, shortest ≤ o.octets.length :=
    Field.optional_map_eq_some_iff fun ns hns other =>
      placeOfTlv?_placeTlv_iff (hascii.1 ns hns) (hf.of_mem (by cases hns; simp))
  have hissuer (o : Option (List GeneralName)) :
      Field.optional (fun t => GeneralName.inside? (Tag.contextConstructed 2) t shortest) (issuer.map issuerTlv) =
        some o ↔ o = issuer ∧ ∀ ns ∈ issuer, ∀ g ∈ ns, ∀ o ∈ g.identifiers, shortest ≤ o.octets.length :=
    Field.optional_map_eq_some_iff fun ns hns other =>
      GeneralName.inside?_around_iff (hascii.2 ns hns) (hf.of_mem (by cases hns; simp [issuerTlv]))
  dsimp only at hinside
  rw [tlv, Tlv.sequence, ofTlv?, hinside]
  simp only [htakePlace, htakeReasons, htakeIssuer, Option.bind_eq_bind, Option.bind_some, List.isEmpty_nil,
    Bool.not_true, Bool.false_eq_true, if_false, Option.bind_eq_some_iff, hplace, hissuer]
  have hreasons : (reasons.map reasonsTlv).map Tlv.content = reasons := by
    rw [Option.map_map]
    exact Option.map_id_apply
  rw [hreasons]
  constructor
  · rintro ⟨_, ⟨rfl, hplaceLong⟩, _, ⟨rfl, hissuerLong⟩, hx⟩
    exact ⟨(Option.some.inj hx).symm, hplaceLong, hissuerLong⟩
  · rintro ⟨rfl, hplaceLong, hissuerLong⟩
    exact ⟨_, ⟨rfl, hplaceLong⟩, _, ⟨rfl, hissuerLong⟩, rfl⟩

end PointContents

/-- The points of a list of places and one of issuers, one for each position in the longer list. -/
def PointContents.ofLists (uris : List String) (issuers : List Name) : List PointContents :=
  (List.range (max uris.length issuers.length)).map fun i =>
    { fullName := uris[i]?.map fun uri => [.uri uri]
      reasons := none
      crlIssuer := issuers[i]?.map fun name => [.directoryName name] }

/-- The distribution points in an extension. -/
def Extension.distributionPoints? (e : Extension) (shortest : Nat := 0) : Option (List PointContents) := do
  (← (← Tlv.decode? e.value).inside? Tag.sequence).mapM fun t => PointContents.ofTlv? t shortest

namespace DistributionPoint

/-- The fields of a distribution point that holds a place, an issuer or both. -/
def contents (p : DistributionPoint) : PointContents where
  fullName := p.uri.map fun uri => [.uri uri]
  reasons := none
  crlIssuer := p.crlIssuer.map fun name => [.directoryName name]

/-- A point is written as its contents. -/
lemma tlv_contents (p : DistributionPoint) : p.contents.tlv = p.tlv := by
  obtain ⟨uri, crlIssuer⟩ := p
  cases uri <;> cases crlIssuer <;> rfl

/-- The names in a point are its place and its issuer. -/
lemma forall_mem_names {p : DistributionPoint} {P : GeneralName → Prop} :
    (∀ g ∈ p.contents.names, P g) ↔
      (∀ uri ∈ p.uri, P (.uri uri)) ∧ ∀ name ∈ p.crlIssuer, P (.directoryName name) := by
  simp [PointContents.names, PointContents.forall_mem_getD, contents, or_imp, forall_and]

/-- There are points exactly if there is a place or an issuer. -/
lemma paired_ne_nil_iff {uris : List String} {names : List Name} :
    paired uris names ≠ [] ↔ uris ≠ [] ∨ names ≠ [] := by
  rw [paired, ne_eq, List.map_eq_nil_iff, List.range_eq_nil, Nat.max_eq_zero_iff, List.length_eq_zero_iff,
    List.length_eq_zero_iff, not_and_or]

/-- Positions that go far enough reach everything in a list. -/
lemma forall_mem_range_getElem? {α : Type} {as : List α} {n : Nat} {P : α → Prop} (h : as.length ≤ n) :
    (∀ i ∈ List.range n, ∀ a ∈ as[i]?, P a) ↔ ∀ a ∈ as, P a := by
  constructor
  · intro hall a ha
    obtain ⟨i, hi⟩ := List.mem_iff_getElem?.1 ha
    obtain ⟨hlt, -⟩ := List.getElem?_eq_some_iff.1 hi
    exact hall i (List.mem_range.2 (Nat.lt_of_lt_of_le hlt h)) a hi
  · exact fun hall i _ a ha => hall a (List.mem_of_getElem? ha)

/-- The places of the points are the given ones. -/
lemma forall_mem_paired_uri {uris : List String} {names : List Name} {P : String → Prop} :
    (∀ p ∈ paired uris names, ∀ uri ∈ p.uri, P uri) ↔ ∀ uri ∈ uris, P uri := by
  rw [paired, List.forall_mem_map]
  exact forall_mem_range_getElem? (Nat.le_max_left _ _)

/-- The issuers of the points are the given ones. -/
lemma forall_mem_paired_crlIssuer {uris : List String} {names : List Name} {P : Name → Prop} :
    (∀ p ∈ paired uris names, ∀ name ∈ p.crlIssuer, P name) ↔ ∀ name ∈ names, P name := by
  rw [paired, List.forall_mem_map]
  exact forall_mem_range_getElem? (Nat.le_max_right _ _)

/-- The points of an extension are read with their places and issuers, if the identifiers in them are long enough,
and with nothing else. -/
lemma distributionPoints?_listTlv_iff {oid : Oid} {critical : Bool} {points : List DistributionPoint}
    {xs : List PointContents} {shortest : Nat} (hascii : ∀ p ∈ points, ∀ uri ∈ p.uri, Text.isAscii uri = true)
    (hf : (listTlv points).Fits) :
    (Extension.ofElement oid critical (listTlv points)).distributionPoints? shortest = some xs ↔
      xs = points.map contents ∧
        ∀ p ∈ points, ∀ name ∈ p.crlIssuer, ∀ o ∈ name.identifiers, shortest ≤ o.octets.length := by
  have hdecode : Tlv.decode? (listTlv points).encode = some (listTlv points) := Tlv.decode?_encode ⟨rfl, hf⟩
  have hpoints : (points.map contents).map PointContents.tlv = points.map tlv := by
    rw [List.map_map]
    exact List.map_congr_left fun p _ => tlv_contents p
  have hinside : (listTlv points).inside? Tag.sequence = some ((points.map contents).map PointContents.tlv) := by
    rw [hpoints]
    refine Tlv.inside?_around hf fun t ht => ?_
    obtain ⟨p, -, rfl⟩ := List.mem_map.1 ht
    exact Tlv.known_sequence _
  simp only [Extension.distributionPoints?, Extension.ofElement, hdecode, hinside, Option.bind_eq_bind,
    Option.bind_some]
  have hread : ∀ c ∈ points.map contents, ∀ x, PointContents.ofTlv? c.tlv shortest = some x ↔
      x = c ∧ ∀ g ∈ c.names, ∀ o ∈ g.identifiers, shortest ≤ o.octets.length := by
    intro c hc x
    obtain ⟨p, hp, rfl⟩ := List.mem_map.1 hc
    refine PointContents.ofTlv?_tlv_iff (forall_mem_names.2 ⟨hascii p hp, fun _ _ => trivial⟩) ?_
    rw [tlv_contents]
    exact hf.of_mem (List.mem_map_of_mem hp)
  rw [mapM_map_eq_some_iff hread, List.forall_mem_map]
  simp only [forall_mem_names, GeneralName.identifiers, List.not_mem_nil, false_implies, implies_true, true_and]

/-- Places and issuers that were paired are read with their points. -/
lemma distributionPoints?_paired_iff {uris : List String} {issuers : List Name} {oid : Oid} {critical : Bool}
    {shortest : Nat} {xs : List PointContents} (hascii : ∀ uri ∈ uris, Text.isAscii uri = true)
    (hf : (listTlv (paired uris issuers)).Fits) :
    (Extension.ofElement oid critical (listTlv (paired uris issuers))).distributionPoints? shortest = some xs ↔
      xs = PointContents.ofLists uris issuers ∧
        ∀ name ∈ issuers, ∀ o ∈ name.identifiers, shortest ≤ o.octets.length := by
  have hcontents : (paired uris issuers).map contents = PointContents.ofLists uris issuers := by
    rw [paired, List.map_map]
    rfl
  rw [distributionPoints?_listTlv_iff (forall_mem_paired_uri.2 hascii) hf, hcontents, forall_mem_paired_crlIssuer]

end DistributionPoint

namespace ExtensionContext

variable {c : ExtensionContext} {es : List Extension} {g : Option Extension}

/-- A text that names the issuer of a revocation list stands for a name. -/
def IsIssuer (c : ExtensionContext) (text : String) (name : Name) : Prop :=
  ∃ dn, DistinguishedName.parse text = .ok dn ∧ dn.toName c.ca.dnEncoding = .ok name

/-- The texts of issuers can be written exactly if each of them is a name with a form. -/
lemma crlIssuers_eq_ok_iff {texts : List String} {issuers : List Name} :
    texts.mapM c.crlIssuer = .ok issuers ↔ List.Forall₂ c.IsIssuer texts issuers := by
  rw [mapM_eq_ok_iff]
  simp only [crlIssuer, ParsedProfile.underHeading, mapError_eq_ok_iff, bind_eq_ok_iff]
  rfl

/-- Places can be written exactly if all of them are ASCII, and they are written as they are. -/
lemma asciiPlaces_eq_ok_iff {texts uris : List String} :
    texts.mapM asciiPlace = .ok uris ↔ (∀ uri ∈ texts, Text.isAscii uri = true) ∧ uris = texts := by
  rw [mapM_eq_ok_iff_of_forall (P := fun uri => Text.isAscii uri = true) (g := id)]
  · rw [List.map_id, eq_comm]
  · intro uri _ other
    unfold asciiPlace
    split
    · rename_i h
      simp [h]
    · rename_i h
      simp [h]

/-- The points can be written exactly if the issuers and the places can, and the extension is left out where there are
none. -/
lemma crlDistributionPoints_eq_ok_iff (huse : c.profile.useCrlDistributionPoint = true) :
    c.crlDistributionPoints = .ok g ↔ ∃ issuers, List.Forall₂ c.IsIssuer (Text.entries c.crlPlaces.2) issuers ∧
      (∀ uri ∈ Text.entries c.crlPlaces.1, Text.isAscii uri = true) ∧
      (Text.entries c.crlPlaces.1 = [] ∧ Text.entries c.crlPlaces.2 = [] ∧ g = none ∨
        (Text.entries c.crlPlaces.1 ≠ [] ∨ Text.entries c.crlPlaces.2 ≠ []) ∧
          g = some (.ofElement Oid.crlDistributionPoints c.profile.crlDistributionPointCritical
            (DistributionPoint.listTlv (DistributionPoint.paired (Text.entries c.crlPlaces.1) issuers)))) := by
  have hpoints {uris : List String} {issuers : List Name}
      (hissuers : List.Forall₂ c.IsIssuer (Text.entries c.crlPlaces.2) issuers) :
      (!(DistributionPoint.paired uris issuers).isEmpty) = true ↔ uris ≠ [] ∨ Text.entries c.crlPlaces.2 ≠ [] := by
    rw [Bool.not_eq_true', List.isEmpty_eq_false_iff, DistributionPoint.paired_ne_nil_iff,
      ← List.length_pos_iff (l := issuers), ← hissuers.length_eq, List.length_pos_iff]
  simp only [crlDistributionPoints, huse, if_true, bind_eq_ok_iff, crlIssuers_eq_ok_iff, asciiPlaces_eq_ok_iff,
    whenever_eq_ok_iff]
  constructor
  · rintro ⟨issuers, hissuers, uris, ⟨hascii, rfl⟩, ⟨hsome, e, he, rfl⟩ | ⟨hnone, rfl⟩⟩
    · cases he
      exact ⟨issuers, hissuers, hascii, .inr ⟨(hpoints hissuers).1 hsome, rfl⟩⟩
    · rw [← Bool.not_eq_true, hpoints hissuers, not_or, not_not, not_not] at hnone
      exact ⟨issuers, hissuers, hascii, .inl ⟨hnone.1, hnone.2, rfl⟩⟩
  · rintro ⟨issuers, hissuers, hascii, ⟨huris, htexts, rfl⟩ | ⟨hsome, rfl⟩⟩
    · refine ⟨issuers, hissuers, _, ⟨hascii, rfl⟩, .inr ⟨?_, rfl⟩⟩
      rw [← Bool.not_eq_true, hpoints hissuers]
      simp [huris, htexts]
    · exact ⟨issuers, hissuers, _, ⟨hascii, rfl⟩, .inl ⟨(hpoints hissuers).2 hsome, _, rfl, rfl⟩⟩

/-- The points can be computed exactly if the texts that are used have forms. -/
lemma exists_crlDistributionPoints_iff : (∃ g, c.crlDistributionPoints = .ok g) ↔
    (c.profile.useCrlDistributionPoint = true →
      (∃ issuers, (Text.entries c.crlPlaces.2).mapM c.crlIssuer = .ok issuers) ∧
        ∃ uris, (Text.entries c.crlPlaces.1).mapM asciiPlace = .ok uris) := by
  unfold crlDistributionPoints
  cases c.profile.useCrlDistributionPoint with
  | false => exact ⟨nofun, fun _ => ⟨none, rfl⟩⟩
  | true =>
    constructor
    · rintro ⟨g, hg⟩ -
      obtain ⟨issuers, hissuers, hg⟩ := bind_eq_ok_iff.1 hg
      obtain ⟨uris, huris, -⟩ := bind_eq_ok_iff.1 hg
      exact ⟨⟨issuers, hissuers⟩, uris, huris⟩
    · intro hforms
      obtain ⟨⟨issuers, hissuers⟩, uris, huris⟩ := hforms rfl
      simp only [if_true, hissuers, huris, ok_bind]
      exact exists_whenever_iff.2 fun _ => ⟨_, rfl⟩

/-- The distribution points have their identifier among the extensions that are built in. -/
lemma mem_zip_crlDistributionPoints (c : ExtensionContext) :
    (Oid.crlDistributionPoints, c.crlDistributionPoints) ∈ builtInIdentifiers.zip c.builtInSources := by
  simp [builtInIdentifiers, builtInSources]

/-- The points of revocation lists in the extensions of a certificate. There is no extension for them if neither
list has an entry, unless a plugin adds one. Otherwise there is one, with a point for each position in the longer
list: it holds the place and the issuer of that position, where there is one, and nothing else. -/
theorem crl_distribution_points (h : c.resolve = .ok es) (huse : c.profile.useCrlDistributionPoint = true) :
    ∃ issuers, List.Forall₂ c.IsIssuer (Text.entries c.crlPlaces.2) issuers ∧
      (∀ uri ∈ Text.entries c.crlPlaces.1, Text.isAscii uri = true) ∧
      (Text.entries c.crlPlaces.1 = [] ∧ Text.entries c.crlPlaces.2 = [] ∧
          (∀ e ∈ es, e.oid = Oid.crlDistributionPoints →
            ∃ plugin ∈ c.resolved.plugins, plugin.oid = Oid.crlDistributionPoints) ∨
        (Text.entries c.crlPlaces.1 ≠ [] ∨ Text.entries c.crlPlaces.2 ≠ []) ∧
          ∃ e, es.filter (fun e => e.oid = Oid.crlDistributionPoints) = [e] ∧
            e.critical = c.profile.crlDistributionPointCritical ∧
            (e.value.length ≤ maxLength → ∀ shortest points, e.distributionPoints? shortest = some points ↔
              points = PointContents.ofLists (Text.entries c.crlPlaces.1) issuers ∧
                ∀ name ∈ issuers, ∀ o ∈ name.identifiers, shortest ≤ o.octets.length)) := by
  have hz := c.mem_zip_crlDistributionPoints
  have hsource : c.crlDistributionPoints ∈ c.sources := List.mem_append_left _ (List.of_mem_zip hz).2
  obtain ⟨g, hg⟩ := exists_of_mem_sources h hsource
  obtain ⟨issuers, hissuers, hascii, hpoints⟩ := (crlDistributionPoints_eq_ok_iff huse).1 hg
  refine ⟨issuers, hissuers, hascii, ?_⟩
  rw [hg] at hz hsource
  obtain ⟨huris, htexts, rfl⟩ | ⟨hsome, rfl⟩ := hpoints
  · exact .inl ⟨huris, htexts, fun e he hid => exists_plugin_of_none h hz he hid⟩
  · refine .inr ⟨hsome, _, filter_eq_singleton_of_resolve h hsource, rfl, fun hlength shortest points => ?_⟩
    exact DistributionPoint.distributionPoints?_paired_iff hascii (Tlv.fits_of_length_encode hlength)

end ExtensionContext

/-- A context whose profile has two places for revocation lists and one issuer. -/
def Sample.pointContext : ExtensionContext where
  request := request
  altNames := []
  resolved := {
    profile := {
      useCrlDistributionPoint := true
      crlDistributionPointUri := "http://a; ;http://b"
      crlIssuer := " CN=c" }
    parsed := {}
    plugins := [] }
  ca := authority
  signerKey := request.publicKey

/-- The extensions of the context can be computed and are short enough to be read. -/
lemma Sample.isOk_pointContext : (pointContext.resolve.map fun es =>
    decide (∀ e ∈ es, e.value.length ≤ maxLength)) = .ok true := by
  decide +kernel

/-- The first place has the issuer, the second one stands alone. -/
theorem ExtensionContext.sample_crl_distribution_points :
    Sample.pointContext.profile.useCrlDistributionPoint = true ∧ ∃ es issuer e,
      Sample.pointContext.resolve = .ok es ∧ Sample.pointContext.IsIssuer "CN=c" issuer ∧
      es.filter (fun e => e.oid = Oid.crlDistributionPoints) = [e] ∧
      e.distributionPoints? = some [⟨some [.uri "http://a"], none, some [.directoryName issuer]⟩,
        ⟨some [.uri "http://b"], none, none⟩] := by
  obtain ⟨es, hes, hlength⟩ := map_eq_ok_iff.1 Sample.isOk_pointContext
  obtain ⟨issuers, hissuers, -, hpoints⟩ := crl_distribution_points hes rfl
  have huris : Text.entries Sample.pointContext.crlPlaces.1 = ["http://a", "http://b"] := by decide +kernel
  have htexts : Text.entries Sample.pointContext.crlPlaces.2 = ["CN=c"] := by decide +kernel
  rw [htexts] at hissuers
  obtain ⟨issuer, rest, hissuer, hrest, rfl⟩ := List.forall₂_cons_left_iff.1 hissuers
  cases hrest
  rw [huris] at hpoints
  obtain ⟨hnil, -⟩ | ⟨-, e, hfilter, -, hread⟩ := hpoints
  · cases hnil
  · have hmem : e ∈ es := List.mem_of_mem_filter (hfilter ▸ List.mem_singleton_self e)
    have hfits : e.value.length ≤ maxLength := of_decide_eq_true hlength e hmem
    exact ⟨rfl, es, issuer, e, hes, hissuer, hfilter, (hread hfits 0 _).2 ⟨rfl, fun _ _ _ _ => Nat.zero_le _⟩⟩

end CertAuthority

import CertAuthority.Proofs.Config.Loaded
import CertAuthority.Proofs.Extension.DistributionPoints
import CertAuthority.Proofs.Name.Listed

/-!
# Printed names as issuers of revocation lists

The issuers of revocation lists are set as names with semicolons between them. If the names are printed and joined,
the list is accepted where it is set and gives one issuer for each name, as long as no value has a semicolon. A
semicolon is escaped in print, but the list is cut there all the same, and what is left of the name in front of it
is refused (`ExtensionContext.crl_issuers_of_names`).
-/

namespace CertAuthority

open Der
open DistinguishedName (listText)

section

variable {dns : List DistinguishedName}

/-- Whether a name can be encoded does not depend on the encoding. -/
lemma DistinguishedName.exists_toName_of_exists {dn : DistinguishedName}
    (h : ∃ encoding name, dn.toName encoding = .ok name) (encoding : NameEncoding) :
    ∃ name, dn.toName encoding = .ok name := by
  obtain ⟨encoding', name, hname⟩ := h
  exact ⟨_, toName_eq_ok_iff.2 ⟨(toName_eq_ok_iff.1 hname).1, rfl⟩⟩

/-! ### Setting the issuers -/

section

variable {check : String → Except Error Unit}

/-- A check that names pass is passed by their list, if no value has a semicolon. -/
lemma DistinguishedName.forM_entries_listText (h : ∀ dn ∈ dns, dn.IsWritable)
    (hpass : ∀ dn ∈ dns, check dn.text = .ok ()) (hsemicolon : ∀ dn ∈ dns, ¬ dn.HasSemicolon) :
    (Text.entries (listText dns)).forM check = .ok () := by
  rw [entries_listText h hsemicolon, forM_eq_ok_iff]
  exact List.forall_mem_map.2 hpass

/-- A check of names finds the broken escape in their list, if some value has a semicolon. -/
lemma DistinguishedName.forM_entries_listText_of_semicolon {f : ParseError → Error}
    (h : ∀ dn ∈ dns, dn.IsWritable) (hpass : ∀ dn ∈ dns, check dn.text = .ok ())
    (hfail : ∀ text e, parse text = .error e → check text = .error (f e))
    (hsemicolon : ∃ dn ∈ dns, dn.HasSemicolon) :
    (Text.entries (listText dns)).forM check = .error (f .danglingEscape) := by
  obtain ⟨before, entry, rest, hentries, hbefore, hentry⟩ := exists_entries_listText h hsemicolon
  rw [hentries]
  exact forM_append_eq_error (List.forall_mem_map.2 fun dn hdn => hpass dn (hbefore dn hdn)) (hfail entry _ hentry)

end

/-- The printed forms of names that can be written pass as issuers. -/
lemma ParsedProfile.checkCrlIssuer_text (h : ∀ dn ∈ dns, dn.IsWritable) :
    ∀ dn ∈ dns, checkCrlIssuer dn.text = .ok () :=
  fun dn hdn => checkCrlIssuer_eq_ok_iff.2 ⟨dn, (h dn hdn).parse_text⟩

/-- Printed names without semicolons may be set as the issuers of a profile. -/
lemma Profile.parse_listText {p : Profile} {parsed : ParsedProfile} (hp : p.parse = .ok parsed)
    (h : ∀ dn ∈ dns, dn.IsWritable) (hsemicolon : ∀ dn ∈ dns, ¬ dn.HasSemicolon) :
    { p with crlIssuer := listText dns }.parse = .ok parsed := by
  rw [parse_with_crlIssuer hp,
    DistinguishedName.forM_entries_listText h (ParsedProfile.checkCrlIssuer_text h) hsemicolon, ok_bind]

/-- With semicolons they are refused. -/
lemma Profile.parse_listText_of_semicolon {p : Profile} {parsed : ParsedProfile} (hp : p.parse = .ok parsed)
    (h : ∀ dn ∈ dns, dn.IsWritable) (hsemicolon : ∃ dn ∈ dns, dn.HasSemicolon) :
    { p with crlIssuer := listText dns }.parse =
      .error (.invalidProfile ("CRL issuer: " ++ ParseError.danglingEscape.message)) := by
  rw [parse_with_crlIssuer hp, DistinguishedName.forM_entries_listText_of_semicolon h
    (ParsedProfile.checkCrlIssuer_text h) (fun _ _ => ParsedProfile.checkCrlIssuer_of_error) hsemicolon]
  rfl

variable {ca : Authority}

/-- A name that can be encoded is accepted as an issuer. -/
lemma Authority.checkCrlIssuer_text (h : ∀ dn ∈ dns, dn.IsWritable)
    (hencodes : ∀ dn ∈ dns, ∃ encoding name, dn.toName encoding = .ok name) :
    ∀ dn ∈ dns, ca.checkCrlIssuer dn.text = .ok () := by
  intro dn hdn
  obtain ⟨name, hname⟩ := DistinguishedName.exists_toName_of_exists (hencodes dn hdn) ca.dnEncoding
  exact checkCrlIssuer_eq_ok_iff.2 ⟨dn, name, (h dn hdn).parse_text, hname⟩

/-- Printed names without semicolons may be set as the issuers of an authority. -/
lemma Authority.validate_listText (hca : ca.validate = .ok ()) (h : ∀ dn ∈ dns, dn.IsWritable)
    (hencodes : ∀ dn ∈ dns, ∃ encoding name, dn.toName encoding = .ok name)
    (hsemicolon : ∀ dn ∈ dns, ¬ dn.HasSemicolon) :
    { ca with defaultCrlIssuer := listText dns }.validate = .ok () := by
  rw [validate_with_defaultCrlIssuer hca,
    DistinguishedName.forM_entries_listText h (checkCrlIssuer_text h hencodes) hsemicolon, ok_bind]

/-- With semicolons they are refused. -/
lemma Authority.validate_listText_of_semicolon (hca : ca.validate = .ok ()) (h : ∀ dn ∈ dns, dn.IsWritable)
    (hencodes : ∀ dn ∈ dns, ∃ encoding name, dn.toName encoding = .ok name)
    (hsemicolon : ∃ dn ∈ dns, dn.HasSemicolon) :
    { ca with defaultCrlIssuer := listText dns }.validate =
      .error (.invalidProfile ("default CRL issuer: " ++ ParseError.danglingEscape.message)) := by
  rw [validate_with_defaultCrlIssuer hca, DistinguishedName.forM_entries_listText_of_semicolon h
    (checkCrlIssuer_text h hencodes) (fun _ _ => checkCrlIssuer_of_error) hsemicolon]
  rfl

end

/-! ### Issuers in distribution points -/

namespace ExtensionContext

variable {c : ExtensionContext} {dns : List DistinguishedName}

/-- The names of the issuers are those that were printed. -/
lemma exists_crlDistributionPoints_listText (hne : dns ≠ []) (h : ∀ dn ∈ dns, dn.IsWritable)
    (hencodes : ∀ dn ∈ dns, ∃ encoding name, dn.toName encoding = .ok name)
    (hsemicolon : ∀ dn ∈ dns, ¬ dn.HasSemicolon) (huse : c.profile.useCrlDistributionPoint = true)
    (htext : c.crlPlaces.2 = listText dns) (hascii : ∀ uri ∈ Text.entries c.crlPlaces.1, Text.isAscii uri = true) :
    ∃ names, List.Forall₂ (fun dn name => dn.toName c.ca.dnEncoding = .ok name) dns names ∧
      c.crlDistributionPoints = .ok (some (.ofElement Oid.crlDistributionPoints
        c.profile.crlDistributionPointCritical
        (DistributionPoint.listTlv (DistributionPoint.paired (Text.entries c.crlPlaces.1) names)))) := by
  have hentries : Text.entries c.crlPlaces.2 = dns.map DistinguishedName.text := by
    rw [htext, DistinguishedName.entries_listText h hsemicolon]
  obtain ⟨names, hmap⟩ := (exists_mapM_eq_ok_iff (f := fun dn => dn.toName c.ca.dnEncoding)).2 fun dn hdn =>
    DistinguishedName.exists_toName_of_exists (hencodes dn hdn) c.ca.dnEncoding
  have hnames := mapM_eq_ok_iff.1 hmap
  have hissuers : List.Forall₂ c.IsIssuer (Text.entries c.crlPlaces.2) names := by
    rw [hentries, List.forall₂_map_left_iff]
    exact ((List.forall₂_and_left dns names).2 ⟨h, hnames⟩).imp fun dn name hdn => ⟨dn, hdn.1.parse_text, hdn.2⟩
  refine ⟨names, hnames, (crlDistributionPoints_eq_ok_iff huse).2 ⟨names, hissuers, hascii, .inr ⟨.inr ?_, rfl⟩⟩⟩
  rw [hentries]
  simpa using hne

/-- A list in which a value has a semicolon stands for no points. -/
lemma crlDistributionPoints_ne_ok_of_semicolon (h : ∀ dn ∈ dns, dn.IsWritable)
    (hsemicolon : ∃ dn ∈ dns, dn.HasSemicolon) (huse : c.profile.useCrlDistributionPoint = true)
    (htext : c.crlPlaces.2 = listText dns) (g : Option Extension) : c.crlDistributionPoints ≠ .ok g := by
  intro hg
  obtain ⟨hissuers, -⟩ := exists_crlDistributionPoints_iff.1 ⟨g, hg⟩ huse
  obtain ⟨before, entry, rest, hentries, -, hentry⟩ := DistinguishedName.exists_entries_listText h hsemicolon
  have hmem : entry ∈ Text.entries c.crlPlaces.2 := by
    rw [htext, hentries]
    simp
  obtain ⟨name, hname⟩ := exists_mapM_eq_ok_iff.1 hissuers entry hmem
  rw [crlIssuer, hentry] at hname
  cases hname

/-- Printed names that are joined by semicolons, set as the issuers of revocation lists. If no value has a semicolon
they are accepted in every accepted profile and every accepted authority, and the points of revocation lists have
these names as their issuers, one at each position. If some value has one they are refused everywhere. -/
theorem crl_issuers_of_names (hne : dns ≠ []) (h : ∀ dn ∈ dns, dn.IsWritable)
    (hencodes : ∀ dn ∈ dns, ∃ encoding name, dn.toName encoding = .ok name) :
    ((∀ dn ∈ dns, ¬ dn.HasSemicolon) →
      (∀ (p : Profile) parsed, p.parse = .ok parsed → { p with crlIssuer := listText dns }.parse = .ok parsed) ∧
      (∀ ca : Authority, ca.validate = .ok () → { ca with defaultCrlIssuer := listText dns }.validate = .ok ()) ∧
      ∀ c : ExtensionContext, c.profile.useCrlDistributionPoint = true → c.crlPlaces.2 = listText dns →
        (∀ uri ∈ Text.entries c.crlPlaces.1, Text.isAscii uri = true) →
        ∃ names e, List.Forall₂ (fun dn name => dn.toName c.ca.dnEncoding = .ok name) dns names ∧
          c.crlDistributionPoints = .ok (some e) ∧
          (∀ es, c.resolve = .ok es → es.filter (fun e => e.oid = Oid.crlDistributionPoints) = [e]) ∧
          (e.value.length ≤ maxLength → ∀ shortest points, e.distributionPoints? shortest = some points ↔
            points = PointContents.ofLists (Text.entries c.crlPlaces.1) names ∧
              ∀ name ∈ names, ∀ o ∈ name.identifiers, shortest ≤ o.octets.length)) ∧
    ((∃ dn ∈ dns, dn.HasSemicolon) →
      (∀ (p : Profile) parsed, p.parse = .ok parsed → { p with crlIssuer := listText dns }.parse =
        .error (.invalidProfile "CRL issuer: dangling escape at end of input")) ∧
      (∀ ca : Authority, ca.validate = .ok () → { ca with defaultCrlIssuer := listText dns }.validate =
        .error (.invalidProfile "default CRL issuer: dangling escape at end of input")) ∧
      ∀ c : ExtensionContext, c.profile.useCrlDistributionPoint = true → c.crlPlaces.2 = listText dns →
        ∀ g, c.crlDistributionPoints ≠ .ok g) := by
  refine ⟨fun hsemicolon => ⟨fun p parsed hp => Profile.parse_listText hp h hsemicolon,
    fun ca hca => Authority.validate_listText hca h hencodes hsemicolon, fun c huse htext hascii => ?_⟩,
    fun hsemicolon => ⟨fun p parsed hp => Profile.parse_listText_of_semicolon hp h hsemicolon,
      fun ca hca => Authority.validate_listText_of_semicolon hca h hencodes hsemicolon,
      fun c huse htext => crlDistributionPoints_ne_ok_of_semicolon h hsemicolon huse htext⟩⟩
  obtain ⟨names, hnames, hpoints⟩ :=
    exists_crlDistributionPoints_listText hne h hencodes hsemicolon huse htext hascii
  refine ⟨names, _, hnames, hpoints, fun es hes => ?_, fun hlength shortest points => ?_⟩
  · have hsource : c.crlDistributionPoints ∈ c.sources :=
      List.mem_append_left _ (List.of_mem_zip c.mem_zip_crlDistributionPoints).2
    rw [hpoints] at hsource
    exact filter_eq_singleton_of_resolve hes hsource
  · exact DistributionPoint.distributionPoints?_paired_iff hascii (Tlv.fits_of_length_encode hlength)

end ExtensionContext

/-- The names of two issuers, with a comma in a value. -/
def Sample.issuerNames : List DistinguishedName :=
  [⟨[⟨.commonName, "a, b"⟩, ⟨.organization, "c"⟩]⟩, ⟨[⟨.commonName, "d"⟩]⟩]

/-- The name of an issuer with a semicolon in its value. -/
def Sample.semicolonName : DistinguishedName :=
  ⟨[⟨.commonName, "a;b"⟩]⟩

/-- The names of the issuers can be written. -/
lemma Sample.isWritable_issuerNames : ∀ dn ∈ issuerNames, dn.IsWritable :=
  List.forall_mem_cons.2
    ⟨@DistinguishedName.isWritable_of_parse _ "CN=\"a, b\",O=c" (by decide +kernel) (by decide) (by decide),
      List.forall_mem_singleton.2
        (@DistinguishedName.isWritable_of_parse _ "CN=d" (by decide +kernel) (by decide) (by decide))⟩

/-- The name with a semicolon can be written. -/
lemma Sample.isWritable_semicolonName : semicolonName.IsWritable :=
  @DistinguishedName.isWritable_of_parse _ "CN=\"a;b\"" (by decide +kernel) (by decide) (by decide)

/-- A context whose profile has two places for revocation lists and the two issuers. -/
def Sample.issuerContext : ExtensionContext :=
  { pointContext with
    resolved := {
      pointContext.resolved with
      profile := { pointContext.profile with crlIssuer := listText issuerNames } } }

namespace ExtensionContext

/-- The two names are accepted and are the issuers of the two points. With the third one they are refused. -/
theorem sample_crl_issuers_of_names : ∃ parsed,
    Profile.endUser.parse = .ok parsed ∧
    { Profile.endUser with crlIssuer := listText Sample.issuerNames }.parse = .ok parsed ∧
    { Profile.endUser with crlIssuer := listText (Sample.issuerNames ++ [Sample.semicolonName]) }.parse =
      .error (.invalidProfile "CRL issuer: dangling escape at end of input") ∧
    ∃ first second e, Sample.issuerContext.crlDistributionPoints = .ok (some e) ∧
      DistinguishedName.toName .utf8 ⟨[⟨.commonName, "a, b"⟩, ⟨.organization, "c"⟩]⟩ = .ok first ∧
      DistinguishedName.toName .utf8 ⟨[⟨.commonName, "d"⟩]⟩ = .ok second ∧
      e.distributionPoints? = some [⟨some [.uri "http://a"], none, some [.directoryName first]⟩,
        ⟨some [.uri "http://b"], none, some [.directoryName second]⟩] := by
  obtain ⟨parsed, hparsed⟩ := exists_of_isOk (by decide +kernel : Profile.endUser.parse.isOk = true)
  have hwritable : ∀ dn ∈ Sample.issuerNames ++ [Sample.semicolonName], dn.IsWritable :=
    List.forall_mem_append.2
      ⟨Sample.isWritable_issuerNames, List.forall_mem_singleton.2 Sample.isWritable_semicolonName⟩
  have hok : ∀ dn ∈ Sample.issuerNames ++ [Sample.semicolonName], (dn.toName .utf8).isOk = true := by
    decide +kernel
  have hencodes : ∀ dn ∈ Sample.issuerNames ++ [Sample.semicolonName], ∃ encoding name,
      dn.toName encoding = .ok name := fun dn hdn => ⟨.utf8, exists_of_isOk (hok dn hdn)⟩
  have hplain : ∀ dn ∈ Sample.issuerNames, ∀ a ∈ dn.attributes, ';' ∉ a.value.toList := by decide
  have htwo := crl_issuers_of_names (by decide) Sample.isWritable_issuerNames
    fun dn hdn => hencodes dn (List.mem_append_left _ hdn)
  have hthree := crl_issuers_of_names (by decide) hwritable hencodes
  obtain ⟨hprofile, -, hpoints⟩ := htwo.1 fun dn hdn ⟨a, ha, hsemicolon⟩ => hplain dn hdn a ha hsemicolon
  obtain ⟨hrefused, -⟩ := hthree.2 ⟨Sample.semicolonName, by simp, _, List.mem_singleton_self _, by decide⟩
  refine ⟨parsed, hparsed, hprofile _ _ hparsed, hrefused _ _ hparsed, ?_⟩
  obtain ⟨names, e, hnames, he, -, hread⟩ := hpoints Sample.issuerContext rfl rfl (by decide +kernel)
  obtain ⟨first, rest, hfirst, hrest, rfl⟩ := List.forall₂_cons_left_iff.1 hnames
  obtain ⟨second, tail, hsecond, htail, rfl⟩ := List.forall₂_cons_left_iff.1 hrest
  cases List.forall₂_nil_left_iff.1 htail
  have huris : Text.entries Sample.issuerContext.crlPlaces.1 = ["http://a", "http://b"] := by decide +kernel
  rw [huris] at hread
  have hlength : Sample.issuerContext.crlDistributionPoints.toOption.all
      (fun g => g.all fun e => decide (e.value.length ≤ maxLength)) = true := by
    decide +kernel
  rw [he] at hlength
  exact ⟨first, second, e, he, hfirst, hsecond,
    (hread (of_decide_eq_true hlength) 0 _).2 ⟨rfl, fun _ _ _ _ => Nat.zero_le _⟩⟩

/-- A name with a semicolon is read from its printed form and can be encoded, but it is refused as an issuer. -/
theorem exists_issuer_refused : ∃ dn, DistinguishedName.parse "CN=\"a;b\"" = .ok dn ∧
    DistinguishedName.parse dn.text = .ok dn ∧ (dn.toName .utf8).isOk = true ∧
    Profile.endUser.parse.isOk = true ∧ { Profile.endUser with crlIssuer := listText [dn] }.parse.isOk = false :=
  ⟨Sample.semicolonName, by decide +kernel⟩

end ExtensionContext

end CertAuthority

import Mathlib.Data.List.Nodup
import Mathlib.Data.List.ReduceOption
import CertAuthority.Extension.Resolve
import CertAuthority.Proofs.Error

/-!
# What the sources of extensions give

Collecting succeeds exactly if no source fails and no identifier comes twice (`resolve_eq_ok_iff`). Every
source gives extensions with one identifier only, so extensions can be found by identifier
(`find?_eq_some_iff_of_resolve`, `filter_of_resolve`), and where no two sources have the same one it is enough that
no source fails (`exists_resolve_iff`).
-/

namespace CertAuthority

/-- A plugin whose value is fixed by a configuration. -/
def Plugin.IsFixed (plugin : Plugin) : Prop :=
  ∃ oid critical encoding text, Plugin.fixed oid critical encoding text = .ok plugin

/-- A fixed value is there for every certificate, and it is always the same. -/
lemma Plugin.IsFixed.exists_value {plugin : Plugin} (h : plugin.IsFixed) :
    ∃ octets, ∀ request ca profile, plugin.value request ca profile = .ok octets := by
  obtain ⟨oid, critical, encoding, text, h⟩ := h
  unfold fixed at h
  split at h
  · cases h
    exact ⟨_, fun _ _ _ => rfl⟩
  · cases h

/-- An extension can be added exactly if its identifier is a new one, and it is added at the end. -/
lemma Extension.append_eq_ok_iff {es out : List Extension} {e : Extension} :
    append es e = .ok out ↔ e.oid ∉ es.map (·.oid) ∧ es ++ [e] = out := by
  have hany : (es.any fun other => decide (other.oid = e.oid)) = decide (e.oid ∈ es.map (·.oid)) := by
    rw [Bool.eq_iff_iff]
    simp
  unfold append
  rw [hany]
  by_cases h : e.oid ∈ es.map (·.oid)
  · simp [h]
  · simp [h]

/-- An extension is refused exactly if its identifier is there already. -/
lemma Extension.append_eq_error_iff {es : List Extension} {x : Extension} {e : Error} :
    append es x = .error e ↔ x.oid ∈ es.map (·.oid) ∧
      e = .invalidProfile ("extension " ++ x.oid.text ++ " included more than once") := by
  unfold append
  split
  · rename_i h
    have hmem : x.oid ∈ es.map (·.oid) := by simpa using h
    simp only [hmem, Except.error.injEq, true_and, eq_comm]
  · rename_i h
    have hmem : x.oid ∉ es.map (·.oid) := by simpa using h
    simp only [hmem, false_and, reduceCtorEq]

namespace ExtensionContext

open Der

variable {c : ExtensionContext} {es out : List Extension} {e : Extension} {id : Oid}

/-- Collecting goes through exactly if all sources give something or nothing, and what they give has new
identifiers. -/
lemma collect_eq_ok_iff {sources : List (Except Error (Option Extension))}
    (distinct : (es.map (·.oid)).Nodup) :
    collect es sources = .ok out ↔
      ∃ given : List (Option Extension), sources = given.map .ok ∧ out = es ++ given.reduceOption ∧
        (out.map (·.oid)).Nodup := by
  -- What is collected so far varies, so that each source meets the identifiers of all before it.
  induction sources generalizing es with
  | nil =>
    constructor
    · intro h
      cases h
      exact ⟨[], rfl, by simp, distinct⟩
    · rintro ⟨given, hs, rfl, -⟩
      obtain rfl : given = [] := by simpa using hs.symm
      simp [collect]
  | cons source rest ih =>
    cases source with
    | error failure =>
      constructor
      · intro h
        cases h
      · rintro ⟨given, hs, -⟩
        cases given with
        | nil => cases hs
        | cons g given => cases hs
    | ok g =>
      cases g with
      | none =>
        rw [collect, ok_bind, ih distinct]
        constructor
        · rintro ⟨given, rfl, hout, hd⟩
          exact ⟨none :: given, rfl, by rwa [List.reduceOption_cons_of_none], hd⟩
        · rintro ⟨given, hs, hout, hd⟩
          cases given with
          | nil => cases hs
          | cons g given =>
            cases hs
            exact ⟨given, rfl, by rwa [List.reduceOption_cons_of_none] at hout, hd⟩
      | some e =>
        -- The identifiers stay distinct exactly if the new one is not among them, which is what the append checks.
        have hconcat : ((es ++ [e]).map (·.oid)).Nodup ↔ e.oid ∉ es.map (·.oid) := by
          rw [List.map_append, List.map_singleton, ← List.concat_eq_append, List.nodup_concat]
          exact and_iff_left distinct
        rw [collect, ok_bind]
        simp only [bind_eq_ok_iff, Extension.append_eq_ok_iff]
        constructor
        · rintro ⟨_, ⟨hnew, rfl⟩, h⟩
          obtain ⟨given, rfl, rfl, hout⟩ := (ih (hconcat.2 hnew)).1 h
          exact ⟨some e :: given, rfl, by simp [List.reduceOption_cons_of_some], hout⟩
        · rintro ⟨given, hs, hout, hd⟩
          cases given with
          | nil => cases hs
          | cons g given =>
            cases hs
            rw [List.reduceOption_cons_of_some, List.append_cons] at hout
            have hnew : ((es ++ [e]).map (·.oid)).Nodup :=
              hd.sublist (hout ▸ (List.sublist_append_left _ _).map _)
            exact ⟨es ++ [e], ⟨hconcat.1 hnew, rfl⟩, (ih hnew).2 ⟨given, rfl, hout, hd⟩⟩

/-- The extensions of a certificate are what the sources give, if none of them fails and no identifier
comes twice. -/
lemma resolve_eq_ok_iff :
    c.resolve = .ok es ↔
      ∃ given : List (Option Extension), c.sources = given.map .ok ∧ es = given.reduceOption ∧
        (es.map (·.oid)).Nodup :=
  collect_eq_ok_iff List.nodup_nil

/-- Sources are collected one after the other, so that two rows of them can be collected in turn. -/
lemma collect_append {first second : List (Except Error (Option Extension))} :
    collect es (first ++ second) = collect es first >>= fun es => collect es second := by
  induction first generalizing es with
  | nil => rfl
  | cons source rest ih =>
    rw [List.cons_append, collect, collect, bind_assoc]
    refine bind_congr fun g => ?_
    cases g with
    | none => exact ih
    | some e =>
      rw [bind_assoc]
      exact bind_congr fun _ => ih

/-- Where sources are collected with one of them giving nothing, it is left to this one if it is to give something:
its error is that of the whole, and what it gives is taken if its identifier is a new one. -/
lemma collect_replaced {before after : List (Except Error (Option Extension))}
    (h : collect [] (before ++ .ok none :: after) = .ok es) :
    (∀ failure, collect [] (before ++ .error failure :: after) = .error failure) ∧
      ∀ g : Option Extension, (∀ e ∈ g, e.oid ∉ es.map (·.oid)) →
        ∃ out, collect [] (before ++ .ok g :: after) = .ok out := by
  constructor
  · intro failure
    rw [collect_append] at h ⊢
    obtain ⟨found, hbefore, -⟩ := bind_eq_ok_iff.1 h
    rw [hbefore]
    rfl
  · intro g hnew
    have hnil : (([] : List Extension).map (·.oid)).Nodup := List.nodup_nil
    obtain ⟨given, hgiven, rfl, distinct⟩ := (collect_eq_ok_iff hnil).1 h
    obtain ⟨first, rest, rfl, rfl, hrest⟩ := List.map_eq_append_iff.1 hgiven.symm
    obtain ⟨_, last, rfl, hnone, rfl⟩ := List.map_eq_cons_iff.1 hrest
    cases hnone
    refine ⟨_, (collect_eq_ok_iff hnil).2 ⟨first ++ g :: last, by rw [List.map_append, List.map_cons], rfl, ?_⟩⟩
    cases g with
    | none => exact distinct
    | some e =>
      have hout := hnew e rfl
      simp only [List.nil_append, List.reduceOption_append, List.reduceOption_cons_of_none,
        List.reduceOption_cons_of_some, List.map_append, List.map_cons] at distinct hout ⊢
      exact List.nodup_middle.2 (List.nodup_cons.2 ⟨hout, distinct⟩)

/-- A certificate has the extensions that the sources give. -/
lemma mem_of_resolve (h : c.resolve = .ok es) : e ∈ es ↔ .ok (some e) ∈ c.sources := by
  obtain ⟨given, hs, rfl, -⟩ := resolve_eq_ok_iff.1 h
  rw [List.reduceOption_mem_iff, hs, List.mem_map]
  simp

/-- Where a certificate has extensions no source has failed. -/
lemma exists_of_mem_sources {source : Except Error (Option Extension)} (h : c.resolve = .ok es)
    (hsource : source ∈ c.sources) : ∃ g, source = .ok g := by
  obtain ⟨given, hs, -⟩ := resolve_eq_ok_iff.1 h
  rw [hs, List.mem_map] at hsource
  obtain ⟨g, -, rfl⟩ := hsource
  exact ⟨g, rfl⟩

/-- What is found by an identifier is what a source gives with it. -/
lemma find?_eq_some_iff_of_resolve (h : c.resolve = .ok es) :
    es.find? (fun other => other.oid = id) = some e ↔ .ok (some e) ∈ c.sources ∧ e.oid = id := by
  obtain ⟨-, -, -, hd⟩ := resolve_eq_ok_iff.1 h
  rw [← mem_of_resolve h]
  constructor
  · intro hf
    exact ⟨List.mem_of_find?_eq_some hf, by simpa using List.find?_some hf⟩
  · rintro ⟨hmem, rfl⟩
    cases hf : es.find? (fun other => other.oid = e.oid) with
    | none => exact absurd (List.find?_eq_none.1 hf e hmem) (by simp)
    | some found =>
      have hoid : found.oid = e.oid := by simpa using List.find?_some hf
      rw [List.inj_on_of_nodup_map hd (List.mem_of_find?_eq_some hf) hmem hoid]

/-! ### The identifiers of the sources -/

/-- A source gives extensions with one identifier, if it gives any. -/
def Gives (id : Oid) (source : Except Error (Option Extension)) : Prop :=
  ∀ e, source = .ok (some e) → e.oid = id

/-- The identifiers of the extensions that are built in, in the order of their sources. -/
def builtInIdentifiers : List Oid :=
  [Oid.basicConstraints, Oid.keyUsage, Oid.extendedKeyUsage, Oid.subjectKeyIdentifier,
   Oid.authorityKeyIdentifier, Oid.subjectAltName, Oid.certificatePolicies, Oid.crlDistributionPoints,
   Oid.authorityInfoAccess, Oid.certificateTemplateName, Oid.qcStatements,
   Oid.subjectDirectoryAttributes]

/-- The identifiers of the extensions that a certificate may have, in the order of their sources. -/
def identifiers (c : ExtensionContext) : List Oid :=
  builtInIdentifiers ++ c.resolved.plugins.map (·.oid)

/-- What can be off gives its extension where it is on, and nothing where it is off. -/
lemma whenever_eq_ok_iff {condition : Bool} {source : Except Error Extension} {g : Option Extension} :
    whenever condition source = .ok g ↔
      condition = true ∧ (∃ e, source = .ok e ∧ some e = g) ∨ condition = false ∧ g = none := by
  cases condition with
  | false => simp [whenever, eq_comm]
  | true => cases source <;> simp [whenever, Functor.map, Except.map]

/-- What can be off fails only where it is on. -/
lemma whenever_eq_error_iff {condition : Bool} {source : Except Error Extension} {failure : Error} :
    whenever condition source = .error failure ↔ condition = true ∧ source = .error failure := by
  cases condition with
  | false => simp [whenever]
  | true => cases source <;> simp [whenever, Functor.map, Except.map]

/-- A source that can be off succeeds exactly if it is off or its extension can be computed. -/
lemma exists_whenever_iff {condition : Bool} {source : Except Error Extension} :
    (∃ g, whenever condition source = .ok g) ↔ (condition = true → ∃ e, source = .ok e) := by
  cases condition with
  | false => simp [whenever]
  | true => cases source <;> simp [whenever, Functor.map, Except.map]

/-- Whether a source gives an extension, and one that is short enough to be read. -/
def givesShort (source : Except Error (Option Extension)) : Bool :=
  source.toOption.any fun given => given.any fun e => e.value.length ≤ Der.maxLength

/-- A source that passes the test gives an extension that is short enough to be read. -/
lemma exists_of_givesShort {source : Except Error (Option Extension)} (h : givesShort source = true) :
    ∃ e, source = .ok (some e) ∧ e.value.length ≤ Der.maxLength := by
  match source with
  | .ok (some e) => exact ⟨e, rfl, of_decide_eq_true h⟩

/-- A source that gives nothing gives nothing with another identifier. -/
lemma gives_none : Gives id (.ok none) := by
  intro e he
  cases he

/-- A source gives extensions with one identifier if what it computes last does. -/
lemma gives_bind {α : Type} {x : Except Error α} {f : α → Except Error (Option Extension)}
    (h : ∀ a, Gives id (f a)) : Gives id (x >>= f) := by
  intro e he
  obtain ⟨a, -, hf⟩ := bind_eq_ok_iff.1 he
  exact h a e hf

/-- A source that can be off gives extensions with one identifier if it does where it is on. -/
lemma gives_whenever {condition : Bool} {source : Except Error Extension}
    (h : ∀ e, source = .ok e → e.oid = id) : Gives id (whenever condition source) := by
  intro e he
  obtain ⟨-, e', hs, ho⟩ | ⟨-, ho⟩ := whenever_eq_ok_iff.1 he
  · cases ho
    exact h e hs
  · cases ho

/-- An extension that needs a computation has the identifier that stands in front of the result. -/
lemma gives_computed {α : Type} {condition critical : Bool} {x : Except Error α} {f : α → Tlv} :
    Gives id (whenever condition do return .ofElement id critical (f (← x))) := by
  apply gives_whenever
  intro e he
  obtain ⟨a, -, hf⟩ := bind_eq_ok_iff.1 he
  cases hf
  rfl

/-- An extension that cannot fail has the identifier that it is given. -/
lemma gives_element {condition critical : Bool} {t : Tlv} :
    Gives id (whenever condition (.ok (.ofElement id critical t))) :=
  gives_computed (x := .ok t) (f := fun t => t)

/-- The sources of the extensions that are built in. -/
def builtInSources (c : ExtensionContext) : List (Except Error (Option Extension)) :=
  [c.basicConstraints, c.keyUsage, c.extendedKeyUsage, c.subjectKeyIdentifier,
   c.authorityKeyIdentifier, c.subjectAltName, c.certificatePolicies, c.crlDistributionPoints,
   c.authorityInfoAccess, c.templateName, c.qcStatements, c.subjectDirectoryAttributes]

/-- The sources that are built in give extensions with the identifiers that are listed for them. -/
lemma forall₂_builtInSources (c : ExtensionContext) :
    List.Forall₂ Gives builtInIdentifiers c.builtInSources := by
  have crl : Gives Oid.crlDistributionPoints c.crlDistributionPoints := by
    unfold crlDistributionPoints
    split
    · exact gives_bind fun issuers => gives_bind fun uris => gives_element
    · exact gives_none
  have attributes : Gives Oid.subjectDirectoryAttributes c.subjectDirectoryAttributes := by
    unfold subjectDirectoryAttributes
    split
    · exact gives_bind fun attributes => gives_element
    · exact gives_none
  exact .cons gives_element <| .cons gives_element <| .cons gives_element <| .cons gives_element <|
    .cons gives_element <| .cons gives_computed <| .cons gives_computed <| .cons crl <|
    .cons gives_computed <| .cons gives_computed <| .cons gives_computed <| .cons attributes .nil

/-- The extension of a plugin has the identifier of the plugin. -/
lemma gives_pluginExtension (c : ExtensionContext) (plugin : Plugin) :
    Gives plugin.oid (c.pluginExtension plugin) := by
  intro e he
  obtain ⟨value, -, he⟩ := bind_eq_ok_iff.1 he
  cases he
  rfl

/-- Every source gives extensions with its own identifier. -/
lemma forall₂_gives (c : ExtensionContext) : List.Forall₂ Gives c.identifiers c.sources := by
  apply List.rel_append c.forall₂_builtInSources
  rw [List.forall₂_map_left_iff, List.forall₂_map_right_iff, List.forall₂_same]
  intro plugin _
  exact c.gives_pluginExtension plugin

/-- An extension with the identifier of a built-in source comes from that source, unless a plugin has the
same identifier. -/
lemma eq_of_mem_sources {source : Except Error (Option Extension)} (he : .ok (some e) ∈ c.sources)
    (hz : (e.oid, source) ∈ builtInIdentifiers.zip c.builtInSources)
    (hp : ∀ plugin ∈ c.resolved.plugins, plugin.oid ≠ e.oid) : source = .ok (some e) := by
  cases List.mem_append.1 he with
  | inr he =>
    obtain ⟨plugin, hplugin, hgiven⟩ := List.mem_map.1 he
    exact absurd (c.gives_pluginExtension plugin e hgiven).symm (hp plugin hplugin)
  | inl he =>
    change .ok (some e) ∈ c.builtInSources at he
    obtain ⟨hlength, hgives⟩ := List.forall₂_iff_zip.1 c.forall₂_builtInSources
    have hfst : ((builtInIdentifiers.zip c.builtInSources).map Prod.fst).Nodup := by
      rw [List.map_fst_zip (Nat.le_of_eq hlength)]
      decide +kernel
    obtain ⟨id, hid⟩ : ∃ id, (id, .ok (some e)) ∈ builtInIdentifiers.zip c.builtInSources := by
      rw [← List.map_snd_zip (Nat.le_of_eq hlength.symm)] at he
      obtain ⟨⟨id, _⟩, hmem, rfl⟩ := List.mem_map.1 he
      exact ⟨id, hmem⟩
    have hsame := List.inj_on_of_nodup_map hfst hz hid (hgives hid e rfl)
    exact congrArg Prod.snd hsame

/-- Of extensions with different identifiers, those with one of them are what is found by it. -/
lemma filter_oid_eq_toList (distinct : (es.map (·.oid)).Nodup) :
    es.filter (fun e => e.oid = id) = (es.find? fun e => e.oid = id).toList := by
  induction es with
  | nil => rfl
  | cons e es ih =>
    rw [List.map_cons, List.nodup_cons] at distinct
    by_cases h : e.oid = id
    · have hnone : es.filter (fun e => e.oid = id) = [] := by
        refine List.filter_eq_nil_iff.2 fun other hother => ?_
        simp only [decide_eq_true_eq]
        rintro rfl
        exact distinct.1 (h ▸ List.mem_map_of_mem hother)
      simp [h, hnone]
    · simp [h, ih distinct.2]

/-- With the identifier of a built-in source, a certificate has what the source gives and nothing else, unless a
plugin has the same identifier. -/
lemma filter_of_resolve {source : Except Error (Option Extension)} (h : c.resolve = .ok es)
    (hz : (id, source) ∈ builtInIdentifiers.zip c.builtInSources)
    (hp : ∀ plugin ∈ c.resolved.plugins, plugin.oid ≠ id) :
    ∃ g, source = .ok g ∧ es.filter (fun e => e.oid = id) = g.toList := by
  obtain ⟨-, -, -, distinct⟩ := resolve_eq_ok_iff.1 h
  have hsource : source ∈ c.sources := List.mem_append_left _ (List.of_mem_zip hz).2
  have hid : Gives id source := (List.forall₂_iff_zip.1 c.forall₂_builtInSources).2 hz
  obtain ⟨g, rfl⟩ := exists_of_mem_sources h hsource
  refine ⟨g, rfl, ?_⟩
  rw [filter_oid_eq_toList distinct]
  refine congrArg Option.toList (Option.ext fun e => ?_)
  rw [find?_eq_some_iff_of_resolve h]
  constructor
  · rintro ⟨he, rfl⟩
    exact Except.ok.inj (eq_of_mem_sources he hz hp)
  · rintro rfl
    exact ⟨hsource, hid e rfl⟩

/-- Where a built-in source gives nothing, its identifier is that of a plugin if a certificate has it. -/
lemma exists_plugin_of_none (h : c.resolve = .ok es) (hz : (id, .ok none) ∈ builtInIdentifiers.zip c.builtInSources)
    (he : e ∈ es) (hid : e.oid = id) : ∃ plugin ∈ c.resolved.plugins, plugin.oid = id := by
  by_contra hno
  have hp : ∀ plugin ∈ c.resolved.plugins, plugin.oid ≠ id := fun plugin hplugin heq => hno ⟨plugin, hplugin, heq⟩
  obtain ⟨g, hg, hfilter⟩ := filter_of_resolve h hz hp
  cases hg
  exact List.filter_eq_nil_iff.1 hfilter e he (decide_eq_true hid)

/-- With the identifier of an extension that a source gives, a certificate has nothing else. -/
lemma filter_eq_singleton_of_resolve (h : c.resolve = .ok es) (he : .ok (some e) ∈ c.sources) :
    es.filter (fun other => other.oid = e.oid) = [e] := by
  obtain ⟨-, -, -, distinct⟩ := resolve_eq_ok_iff.1 h
  rw [filter_oid_eq_toList distinct, (find?_eq_some_iff_of_resolve h).2 ⟨he, rfl⟩]
  rfl

/-- What sources give has identifiers of these sources, in the same order. -/
lemma sublist_of_gives {ids : List Oid} {given : List (Option Extension)}
    (h : List.Forall₂ Gives ids (given.map .ok)) : (given.reduceOption.map (·.oid)).Sublist ids := by
  induction given generalizing ids with
  | nil => exact List.nil_sublist ids
  | cons g given ih =>
    cases h with
    | cons hid h =>
      cases g with
      | none => exact (ih h).cons _
      | some e =>
        rw [List.reduceOption_cons_of_some, List.map_cons, hid e rfl]
        exact (ih h).cons_cons _

/-- Where no two sources have the same identifier, a certificate has its extensions exactly if no source
fails. -/
lemma exists_resolve_iff (distinct : c.identifiers.Nodup) :
    (∃ es, c.resolve = .ok es) ↔ ∀ source ∈ c.sources, ∃ g, source = .ok g := by
  constructor
  · exact fun ⟨es, h⟩ source hsource => exists_of_mem_sources h hsource
  · intro h
    obtain ⟨given, hs⟩ := eq_map_ok_of_forall h
    have hgives := c.forall₂_gives
    rw [hs] at hgives
    exact ⟨_, resolve_eq_ok_iff.2 ⟨given, hs, rfl, distinct.sublist (sublist_of_gives hgives)⟩⟩

end ExtensionContext

end CertAuthority

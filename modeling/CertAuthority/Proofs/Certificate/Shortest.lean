import CertAuthority.Certificate.Basic
import CertAuthority.Proofs.Der.Value

/-!
# Readers with different lower bounds agree

The strict reader wants identifiers of a certain length. A reader that wants less of them reads the same
certificate (`Certificate.decode?_of_le`).
-/

namespace CertAuthority

open Der

variable {n m : Nat}

/-- A step can stand in the place of another that gave a result if it gives the same one. -/
lemma bind_eq_some_of_imp {α β : Type} {x y : Option α} {f g : α → Option β} {b : β}
    (hstep : ∀ a, x = some a → y = some a) (hrest : ∀ a, f a = some b → g a = some b)
    (h : x.bind f = some b) : y.bind g = some b := by
  obtain ⟨a, ha, hb⟩ := Option.bind_eq_some_iff.1 h
  exact Option.bind_eq_some_iff.2 ⟨a, hstep a ha, hrest a hb⟩

/-- A list is read in the same way by a reader that reads all that another one does. -/
lemma mapM_eq_some_of_imp {α β : Type} {f g : α → Option β} {as : List α} {bs : List β}
    (h : ∀ a b, f a = some b → g a = some b) (hf : as.mapM f = some bs) : as.mapM g = some bs := by
  induction as generalizing bs with
  | nil => exact hf
  | cons a as ih =>
    rw [List.mapM_cons] at hf ⊢
    exact bind_eq_some_of_imp (h a) (fun _ => bind_eq_some_of_imp (fun _ => ih) fun _ => id) hf

/-- An identifier that is long enough for a higher bound is so for a lower one. -/
lemma Der.Tlv.toOid?_of_le {t : Tlv} {o : Oid} (hnm : n ≤ m) (h : t.toOid? m = some o) :
    t.toOid? n = some o := by
  unfold toOid? at h ⊢
  refine bind_eq_some_of_imp (fun _ => id) (fun bs hbs => ?_) h
  split at hbs
  · cases hbs
  · rename_i hlength
    rw [if_neg (by omega)]
    exact hbs

/-- An algorithm is read with a lower bound as it was with a higher one. -/
lemma AlgorithmIdentifier.ofTlv?_of_le {t : Tlv} {a : AlgorithmIdentifier} (hnm : n ≤ m)
    (h : ofTlv? t m = some a) : ofTlv? t n = some a := by
  unfold ofTlv? at h ⊢
  refine bind_eq_some_of_imp (fun _ => id) (fun ts hts => ?_) h
  split at hts
  · exact bind_eq_some_of_imp (fun _ => Tlv.toOid?_of_le hnm) (fun _ => id) hts
  · exact bind_eq_some_of_imp (fun _ => Tlv.toOid?_of_le hnm) (fun _ => id) hts
  · cases hts

/-- The bound reaches a public key through its algorithm. -/
lemma PublicKeyInfo.ofTlv?_of_le {t : Tlv} {k : PublicKeyInfo} (hnm : n ≤ m)
    (h : ofTlv? t m = some k) : ofTlv? t n = some k := by
  unfold ofTlv? at h ⊢
  refine bind_eq_some_of_imp (fun _ => id) (fun ts hts => ?_) h
  split at hts
  · exact bind_eq_some_of_imp (fun _ => AlgorithmIdentifier.ofTlv?_of_le hnm) (fun _ => id) hts
  · cases hts

/-- The bound reaches an attribute of a name through its type. -/
lemma NameAttribute.ofTlv?_of_le {t : Tlv} {a : NameAttribute} (hnm : n ≤ m)
    (h : ofTlv? t m = some a) : ofTlv? t n = some a := by
  unfold ofTlv? at h ⊢
  refine bind_eq_some_of_imp (fun _ => id) (fun ts hts => ?_) h
  split at hts
  · exact bind_eq_some_of_imp (fun _ => Tlv.toOid?_of_le hnm) (fun _ => id) hts
  · cases hts

/-- The attributes of a part of a name are read with a lower bound as they were with a higher one. -/
lemma RelativeName.ofTlv?_of_le {t : Tlv} {r : RelativeName} (hnm : n ≤ m) (h : ofTlv? t m = some r) :
    ofTlv? t n = some r := by
  unfold ofTlv? at h ⊢
  refine bind_eq_some_of_imp (fun _ => id) (fun ts => ?_) h
  refine bind_eq_some_of_imp (fun _ => id) fun us => ?_
  refine bind_eq_some_of_imp (fun _ => ?_) fun _ => id
  exact mapM_eq_some_of_imp fun _ _ => NameAttribute.ofTlv?_of_le hnm

/-- A name is read with a lower bound as it was with a higher one. -/
lemma Name.ofTlv?_of_le {t : Tlv} {a : Name} (hnm : n ≤ m) (h : ofTlv? t m = some a) :
    ofTlv? t n = some a := by
  unfold ofTlv? at h ⊢
  refine bind_eq_some_of_imp (fun _ => id) (fun ts => ?_) h
  refine bind_eq_some_of_imp (fun _ => ?_) fun _ => id
  exact mapM_eq_some_of_imp fun _ _ => RelativeName.ofTlv?_of_le hnm

/-- The bound reaches an extension through its identifier. -/
lemma Extension.ofTlv?_of_le {t : Tlv} {e : Extension} (hnm : n ≤ m) (h : ofTlv? t m = some e) :
    ofTlv? t n = some e := by
  unfold ofTlv? at h ⊢
  refine bind_eq_some_of_imp (fun _ => id) (fun ts hts => ?_) h
  split at hts
  · exact bind_eq_some_of_imp (fun _ => Tlv.toOid?_of_le hnm) (fun _ => id) hts
  · exact bind_eq_some_of_imp (fun _ => Tlv.toOid?_of_le hnm) (fun _ => id) hts
  · cases hts

/-- A list of extensions is read with a lower bound as it was with a higher one. -/
lemma Extension.listOfTlv?_of_le {t : Tlv} {es : List Extension} (hnm : n ≤ m)
    (h : listOfTlv? t m = some es) : listOfTlv? t n = some es := by
  unfold listOfTlv? at h ⊢
  refine bind_eq_some_of_imp (fun _ => id) (fun ts => ?_) h
  exact mapM_eq_some_of_imp fun _ _ => Extension.ofTlv?_of_le hnm

/-- A field that may be missing is read in the same way by a reader that reads all that another one does. -/
lemma Der.Field.optional_of_imp {α : Type} {f g : Tlv → Option α} {t : Option Tlv} {o : Option α}
    (h : ∀ t a, f t = some a → g t = some a) (hf : optional f t = some o) : optional g t = some o := by
  cases t with
  | none => exact hf
  | some t =>
    obtain ⟨a, ha, rfl⟩ := Option.map_eq_some_iff.1 hf
    exact Option.map_eq_some_iff.2 ⟨a, h t a ha, rfl⟩

/-- The fields behind the version are read with a lower bound as they were with a higher one. -/
lemma TbsCertificate.read?_of_le {version : Nat} {ts : List Tlv} {c : TbsCertificate} (hnm : n ≤ m)
    (h : read? version m ts = some c) : read? version n ts = some c := by
  unfold read? at h ⊢
  split at h
  · refine bind_eq_some_of_imp (fun _ => id) (fun validity hrest => ?_) h
    dsimp only at hrest ⊢
    split at hrest
    · cases hrest
    · rename_i hend
      rw [if_neg hend]
      revert hrest
      -- the fields in turn; those without identifiers are read alike
      refine bind_eq_some_of_imp (fun _ => id) fun serial => ?_
      refine bind_eq_some_of_imp (fun _ => AlgorithmIdentifier.ofTlv?_of_le hnm) fun signature => ?_
      refine bind_eq_some_of_imp (fun _ => Name.ofTlv?_of_le hnm) fun issuer => ?_
      refine bind_eq_some_of_imp (fun _ => Name.ofTlv?_of_le hnm) fun subject => ?_
      refine bind_eq_some_of_imp (fun _ => PublicKeyInfo.ofTlv?_of_le hnm) fun publicKey => ?_
      refine bind_eq_some_of_imp (fun _ => id) fun issuerId => ?_
      refine bind_eq_some_of_imp (fun _ => id) fun subjectId => ?_
      refine bind_eq_some_of_imp (fun _ => ?_) fun _ => id
      refine Der.Field.optional_of_imp fun _ _ => ?_
      exact bind_eq_some_of_imp (fun _ => id) fun _ => Extension.listOfTlv?_of_le hnm
  · cases h

/-- The signed part of a certificate is read with a lower bound as it was with a higher one. -/
lemma TbsCertificate.ofTlv?_of_le {t : Tlv} {c : TbsCertificate} (hnm : n ≤ m) (h : ofTlv? t m = some c) :
    ofTlv? t n = some c := by
  unfold ofTlv? at h ⊢
  refine bind_eq_some_of_imp (fun _ => id) (fun ts => ?_) h
  exact bind_eq_some_of_imp (fun _ => id) fun version => TbsCertificate.read?_of_le hnm

/-- What a reader with a lower bound on identifiers reads, a reader with a smaller one reads too. -/
theorem Certificate.decode?_of_le {bs : Octets} {c : Certificate} (hnm : n ≤ m)
    (h : decode? bs m = some c) : decode? bs n = some c := by
  refine bind_eq_some_of_imp (fun _ => id) (fun t => ?_) h
  refine bind_eq_some_of_imp (fun _ => id) fun ts hts => ?_
  split at hts
  · refine bind_eq_some_of_imp (fun _ => TbsCertificate.ofTlv?_of_le hnm) (fun _ => ?_) hts
    exact bind_eq_some_of_imp (fun _ => AlgorithmIdentifier.ofTlv?_of_le hnm) fun _ => id
  · cases hts

end CertAuthority

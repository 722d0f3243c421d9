import CertAuthority.Proofs.Der.Tlv

/-!
# Sets are put in order

The values of a SET OF are put in ascending order of the octets of their elements. As these octets tell the
elements apart, there is one such order of values with different elements, and none of values two of which have
the same (`ascendingBy?_eq_some_iff`). A search among such values is not misled by others that stand between them
(`Ascending.findSome?_eq`).
-/

namespace CertAuthority.Der

namespace Tlv

variable {α : Type} {tlv : α → Tlv} {x : α} {as bs ys zs : List α}

/-- The elements of the values are in strictly ascending order of their octets. -/
def Ascending (tlv : α → Tlv) (as : List α) : Prop :=
  as.Pairwise fun a b => (tlv a).encode < (tlv b).encode

/-- Values have one ascending order only. -/
lemma Ascending.eq_of_perm (ha : Ascending tlv as) (hb : Ascending tlv bs) (h : as.Perm bs) : as = bs := by
  refine h.eq_of_pairwise (fun a b _ _ hab hba => ?_) ha hb
  exact absurd (List.lt_trans hab hba) (List.lt_irrefl _)

/-- Elements in ascending order are different. -/
lemma Ascending.nodup (h : Ascending tlv as) : (as.map tlv).Nodup := by
  refine List.pairwise_map.2 (h.imp fun hlt heq => ?_)
  rw [heq] at hlt
  exact List.lt_irrefl _ hlt

/-- A search goes through the values that it may find only. -/
lemma findSome?_filter_isSome {β : Type} (f : α → Option β) (as : List α) :
    (as.filter fun a => (f a).isSome).findSome? f = as.findSome? f := by
  rw [← List.head?_filterMap, ← List.head?_filterMap, List.filterMap_filter]
  congr 2
  funext a
  cases f a <;> rfl

/-- Among values in order the same one is found after others were added, wherever these have to go. -/
lemma Ascending.findSome?_eq {β : Type} {f : α → Option β} {added : List α} (ha : Ascending tlv as)
    (hb : Ascending tlv bs) (h : bs.Perm (as ++ added)) (hadded : ∀ a ∈ added, f a = none) :
    bs.findSome? f = as.findSome? f := by
  have hnone : added.filter (fun a => (f a).isSome) = [] := by
    refine List.filter_eq_nil_iff.2 fun a ha => ?_
    rw [hadded a ha]
    exact Bool.false_ne_true
  have hperm := h.filter fun a => (f a).isSome
  rw [List.filter_append, hnone, List.append_nil] at hperm
  have hsame := Ascending.eq_of_perm (hb.filter _) (ha.filter _) hperm
  rw [← findSome?_filter_isSome, hsame, findSome?_filter_isSome]

/-- An insertion adds the new value and loses none. -/
lemma perm_of_insertDistinct (h : insertDistinct tlv x ys = some zs) : zs.Perm (x :: ys) := by
  induction ys generalizing zs with
  | nil =>
    cases h
    exact .refl _
  | cons y ys ih =>
    rw [insertDistinct] at h
    split at h
    · cases h
    · split at h
      · cases h
        exact .refl _
      · obtain ⟨rest, hrest, rfl⟩ := Option.map_eq_some_iff.1 h
        exact ((ih hrest).cons y).trans (.swap x y ys)

/-- A value is put where its element belongs. -/
lemma Ascending.insertDistinct (hs : Ascending tlv ys) (hread : ∀ a ∈ x :: ys, (tlv a).Readable)
    (h : insertDistinct tlv x ys = some zs) : Ascending tlv zs := by
  induction ys generalizing zs with
  | nil =>
    cases h
    exact List.pairwise_singleton _ _
  | cons y ys ih =>
    obtain ⟨hy, hys⟩ := List.pairwise_cons.1 hs
    rw [Tlv.insertDistinct] at h
    split at h
    · cases h
    · rename_i hne
      split at h
      · rename_i hlt
        cases h
        refine List.pairwise_cons.2 ⟨fun z hz => ?_, hs⟩
        obtain rfl | hz := List.mem_cons.1 hz
        · exact hlt
        · exact List.lt_trans hlt (hy z hz)
      · rename_i hge
        obtain ⟨rest, hrest, rfl⟩ := Option.map_eq_some_iff.1 h
        -- the value belongs behind the first one, as its octets are neither smaller nor the same
        have hx : (tlv x).Readable := hread x List.mem_cons_self
        have hfirst : (tlv y).Readable := hread y (by simp)
        have hdiffer : (tlv x).encode ≠ (tlv y).encode := fun heq => hne ((encode_inj hx hfirst).1 heq)
        have hbehind : (tlv y).encode < (tlv x).encode := Std.lt_of_le_of_ne hge (Ne.symm hdiffer)
        have hread' : ∀ a ∈ x :: ys, (tlv a).Readable := fun a ha => hread a <| by
          obtain rfl | ha := List.mem_cons.1 ha
          · exact List.mem_cons_self
          · exact List.mem_cons_of_mem _ (List.mem_cons_of_mem _ ha)
        refine List.pairwise_cons.2 ⟨fun z hz => ?_, ih hys hread' hrest⟩
        obtain rfl | hz := List.mem_cons.1 ((perm_of_insertDistinct hrest).mem_iff.1 hz)
        · exact hbehind
        · exact hy z hz

/-- A value can be put in its place if its element is a new one. -/
lemma exists_insertDistinct (h : ∀ y ∈ ys, tlv x ≠ tlv y) : ∃ zs, insertDistinct tlv x ys = some zs := by
  induction ys with
  | nil => exact ⟨[x], rfl⟩
  | cons y ys ih =>
    rw [insertDistinct, if_neg (h y List.mem_cons_self)]
    split
    · exact ⟨_, rfl⟩
    · obtain ⟨zs, hzs⟩ := ih fun z hz => h z (List.mem_cons_of_mem _ hz)
      rw [hzs]
      exact ⟨_, rfl⟩

/-- The first value is put in its place among the others. -/
lemma ascendingBy?_cons (x : α) (as : List α) :
    ascendingBy? tlv (x :: as) = (ascendingBy? tlv as).bind (insertDistinct tlv x) :=
  List.foldrM_cons

/-- Nothing is lost and nothing added. -/
lemma perm_of_ascendingBy? (h : ascendingBy? tlv as = some bs) : bs.Perm as := by
  induction as generalizing bs with
  | nil =>
    cases h
    exact .refl _
  | cons a as ih =>
    rw [ascendingBy?_cons] at h
    obtain ⟨rest, hrest, h⟩ := Option.bind_eq_some_iff.1 h
    exact (perm_of_insertDistinct h).trans ((ih hrest).cons a)

/-- Values that were put in order are in order. -/
lemma ascending_of_ascendingBy? (hread : ∀ a ∈ as, (tlv a).Readable) (h : ascendingBy? tlv as = some bs) :
    Ascending tlv bs := by
  induction as generalizing bs with
  | nil =>
    cases h
    exact .nil
  | cons a as ih =>
    rw [ascendingBy?_cons] at h
    obtain ⟨rest, hrest, h⟩ := Option.bind_eq_some_iff.1 h
    obtain ⟨ha, has⟩ := List.forall_mem_cons.1 hread
    refine (ih has hrest).insertDistinct (List.forall_mem_cons.2 ⟨ha, fun b hb => ?_⟩) h
    exact has b ((perm_of_ascendingBy? hrest).mem_iff.1 hb)

/-- Values with different elements can be put in order. -/
lemma exists_ascendingBy? (h : (as.map tlv).Nodup) : ∃ bs, ascendingBy? tlv as = some bs := by
  induction as with
  | nil => exact ⟨[], rfl⟩
  | cons a as ih =>
    rw [List.map_cons, List.nodup_cons] at h
    obtain ⟨rest, hrest⟩ := ih h.2
    rw [ascendingBy?_cons, hrest, Option.bind_some]
    refine exists_insertDistinct fun b hb heq => h.1 ?_
    rw [heq]
    exact List.mem_map_of_mem ((perm_of_ascendingBy? hrest).mem_iff.1 hb)

/-- Putting values in order gives the same values with their elements in ascending order, and succeeds if there is
such an order. -/
lemma ascendingBy?_eq_some_iff (hread : ∀ a ∈ as, (tlv a).Readable) :
    ascendingBy? tlv as = some bs ↔ bs.Perm as ∧ Ascending tlv bs := by
  refine ⟨fun h => ⟨perm_of_ascendingBy? h, ascending_of_ascendingBy? hread h⟩, fun ⟨hperm, hbs⟩ => ?_⟩
  obtain ⟨cs, hcs⟩ := exists_ascendingBy? ((hperm.map tlv).nodup_iff.1 hbs.nodup)
  rw [hcs, Option.some.injEq]
  exact (ascending_of_ascendingBy? hread hcs).eq_of_perm hbs ((perm_of_ascendingBy? hcs).trans hperm.symm)

end Tlv

end CertAuthority.Der

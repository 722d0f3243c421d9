import Mathlib.Data.List.Forall2
import Mathlib.Tactic.Lemma
import CertAuthority.Error

/-!
# Steps that do not fail

A computation succeeds exactly if each of its steps does; the lemmas take such a computation apart. If each of
its steps fails with errors of one kind only, so does the computation (`FailsOnly`).
-/

namespace CertAuthority

/-- Two steps succeed exactly if the first does and the second does after it. -/
lemma bind_eq_ok_iff {ε α β : Type} {x : Except ε α} {f : α → Except ε β} {b : β} :
    (x >>= f) = .ok b ↔ ∃ a, x = .ok a ∧ f a = .ok b := by
  cases x <;> simp [bind, Except.bind]

/-- Two steps fail exactly if the first one does or the second one does after it. -/
lemma bind_eq_error_iff {ε α β : Type} {x : Except ε α} {f : α → Except ε β} {e : ε} :
    (x >>= f) = .error e ↔ x = .error e ∨ ∃ a, x = .ok a ∧ f a = .error e := by
  cases x <;> simp [bind, Except.bind]

/-- After a step that succeeded the next one is taken. -/
lemma ok_bind {ε α β : Type} (a : α) (f : α → Except ε β) : (Except.ok a >>= f) = f a :=
  rfl

/-- A step that gives a value gives that value. -/
lemma pure_eq_ok_iff {ε α : Type} {a b : α} : (pure a : Except ε α) = .ok b ↔ a = b := by
  simp [pure, Except.pure]

/-- A value that is computed from the result of a step. -/
lemma map_eq_ok_iff {ε α β : Type} {f : α → β} {x : Except ε α} {b : β} :
    f <$> x = .ok b ↔ ∃ a, x = .ok a ∧ f a = b := by
  cases x <;> simp [Functor.map, Except.map]

/-- Other words for the error do not change whether a step succeeds. -/
lemma mapError_eq_ok_iff {ε δ α : Type} {x : Except ε α} {f : ε → δ} {a : α} :
    x.mapError f = .ok a ↔ x = .ok a := by
  cases x with
  | error e => exact ⟨nofun, nofun⟩
  | ok b =>
    constructor
    · intro h
      cases h
      rfl
    · intro h
      cases h
      rfl

/-- Other words for the error are those for the error that there is. -/
lemma mapError_eq_error_iff {ε δ α : Type} {x : Except ε α} {f : ε → δ} {d : δ} :
    x.mapError f = .error d ↔ ∃ e, x = .error e ∧ d = f e := by
  cases x <;> simp [Except.mapError, eq_comm]

/-- A value that was computed successfully. -/
lemma exists_of_isOk {ε α : Type} {x : Except ε α} (h : x.isOk = true) : ∃ a, x = .ok a := by
  cases x with
  | error e => cases h
  | ok a => exact ⟨a, rfl⟩

/-- A list of steps gives a list of values exactly if each step gives its value. -/
lemma mapM_eq_ok_iff {ε α β : Type} {f : α → Except ε β} {as : List α} {bs : List β} :
    as.mapM f = .ok bs ↔ List.Forall₂ (fun a b => f a = .ok b) as bs := by
  induction as generalizing bs with
  | nil => cases bs <;> simp [pure_eq_ok_iff]
  | cons a as ih =>
    simp only [List.mapM_cons, bind_eq_ok_iff, pure_eq_ok_iff, ih, List.forall₂_cons_left_iff]
    constructor
    · rintro ⟨b, head, bs, tail, rfl⟩
      exact ⟨b, bs, head, tail, rfl⟩
    · rintro ⟨b, bs, head, tail, rfl⟩
      exact ⟨b, head, bs, tail, rfl⟩

/-- What stands on the right of related lists has something on the left. -/
lemma exists_left_of_forall₂ {α β : Type} {R : α → β → Prop} {as : List α} {bs : List β} {b : β}
    (h : List.Forall₂ R as bs) (hb : b ∈ bs) : ∃ a ∈ as, R a b := by
  induction h with
  | nil => cases hb
  | @cons a b' as bs hab _ ih =>
    cases hb with
    | head => exact ⟨a, List.mem_cons_self, hab⟩
    | tail _ hb =>
      obtain ⟨a', ha', hr⟩ := ih hb
      exact ⟨a', List.mem_cons_of_mem _ ha', hr⟩

/-- The results of a list of steps are those of the steps. -/
lemma mem_iff_of_mapM {ε α β : Type} {f : α → Except ε β} {as : List α} {bs : List β} (h : as.mapM f = .ok bs)
    {b : β} : b ∈ bs ↔ ∃ a ∈ as, f a = .ok b := by
  rw [mapM_eq_ok_iff] at h
  induction h with
  | nil => simp
  | @cons a c as bs hac _ ih =>
    rw [List.mem_cons, ih, List.exists_mem_cons_iff, hac, Except.ok.injEq, @eq_comm _ c b]

/-- A list of steps succeeds exactly if each step does. -/
lemma exists_mapM_eq_ok_iff {ε α β : Type} {f : α → Except ε β} {as : List α} :
    (∃ bs, as.mapM f = .ok bs) ↔ ∀ a ∈ as, ∃ b, f a = .ok b := by
  simp only [mapM_eq_ok_iff]
  induction as with
  | nil => simp
  | cons a as ih =>
    simp only [List.forall₂_cons_left_iff, List.forall_mem_cons, ← ih]
    constructor
    · rintro ⟨_, b, bs, head, tail, -⟩
      exact ⟨⟨b, head⟩, bs, tail⟩
    · rintro ⟨⟨b, head⟩, bs, tail⟩
      exact ⟨b :: bs, b, bs, head, tail, rfl⟩

/-- Steps whose results are known exactly are taken exactly if each of them may be. -/
lemma mapM_eq_ok_iff_of_forall {ε α β : Type} {f : α → Except ε β} {P : α → Prop} {g : α → β} {as : List α}
    {bs : List β} (h : ∀ a ∈ as, ∀ b, f a = .ok b ↔ P a ∧ g a = b) :
    as.mapM f = .ok bs ↔ (∀ a ∈ as, P a) ∧ as.map g = bs := by
  rw [mapM_eq_ok_iff]
  induction as generalizing bs with
  | nil => simp [eq_comm]
  | cons a as ih =>
    simp only [List.forall₂_cons_left_iff, h a List.mem_cons_self,
      ih fun a ha => h a (List.mem_cons_of_mem _ ha), List.forall_mem_cons, List.map_cons]
    constructor
    · rintro ⟨b, bs, ⟨ha, rfl⟩, ⟨has, rfl⟩, rfl⟩
      exact ⟨⟨ha, has⟩, rfl⟩
    · rintro ⟨⟨ha, has⟩, rfl⟩
      exact ⟨_, _, ⟨ha, rfl⟩, ⟨has, rfl⟩, rfl⟩

/-- A step that cannot fail does not change the error. -/
lemma bind_pure_eq_error_iff {ε α β : Type} {x : Except ε α} {f : α → β} {e : ε} :
    (x >>= fun a => pure (f a)) = .error e ↔ x = .error e := by
  cases x <;> simp [bind, Except.bind, pure, Except.pure]

/-- A list of steps fails with the error of the first step that fails. -/
lemma mapM_eq_error_iff {ε α β : Type} {f : α → Except ε β} {as : List α} {e : ε} :
    as.mapM f = .error e ↔
      ∃ before a after, as = before ++ a :: after ∧ (∀ b ∈ before, ∃ c, f b = .ok c) ∧ f a = .error e := by
  induction as with
  | nil => simp [pure, Except.pure]
  | cons a as ih =>
    rw [List.mapM_cons]
    cases hfirst : f a with
    | error e' =>
      constructor
      · intro h
        cases h
        exact ⟨[], a, as, rfl, nofun, hfirst⟩
      · rintro ⟨before, b, after, hsplit, hbefore, hb⟩
        cases before with
        | nil =>
          cases hsplit
          rw [hfirst] at hb
          cases hb
          rfl
        | cons c before =>
          cases hsplit
          obtain ⟨d, hd⟩ := hbefore a List.mem_cons_self
          rw [hfirst] at hd
          cases hd
    | ok c =>
      rw [ok_bind, bind_pure_eq_error_iff, ih]
      constructor
      · rintro ⟨before, b, after, rfl, hbefore, hb⟩
        exact ⟨a :: before, b, after, rfl, List.forall_mem_cons.2 ⟨⟨c, hfirst⟩, hbefore⟩, hb⟩
      · rintro ⟨before, b, after, hsplit, hbefore, hb⟩
        cases before with
        | nil =>
          cases hsplit
          rw [hfirst] at hb
          cases hb
        | cons d before =>
          cases hsplit
          exact ⟨before, b, after, rfl, (List.forall_mem_cons.1 hbefore).2, hb⟩

/-- Results none of which is an error are a list of values. -/
lemma eq_map_ok_of_forall {ε α : Type} {xs : List (Except ε α)}
    (h : ∀ x ∈ xs, ∃ a, x = .ok a) : ∃ as : List α, xs = as.map .ok := by
  induction xs with
  | nil => exact ⟨[], rfl⟩
  | cons x xs ih =>
    obtain ⟨a, rfl⟩ := h x List.mem_cons_self
    obtain ⟨as, rfl⟩ := ih fun y hy => h y (List.mem_cons_of_mem _ hy)
    exact ⟨a :: as, rfl⟩

/-- Checks on the members of a list pass exactly if each of them passes. -/
lemma forM_eq_ok_iff {ε α : Type} {f : α → Except ε Unit} {as : List α} :
    as.forM f = .ok () ↔ ∀ a ∈ as, f a = .ok () := by
  induction as with
  | nil => simp [pure_eq_ok_iff]
  | cons a as ih =>
    rw [List.forM_eq_forM] at ih ⊢
    rw [List.forM_cons, bind_eq_ok_iff, List.forall_mem_cons, ← ih]
    constructor
    · rintro ⟨⟨⟩, head, tail⟩
      exact ⟨head, tail⟩
    · rintro ⟨head, tail⟩
      exact ⟨(), head, tail⟩

/-- Checks on the members of a list fail as the first one that fails. -/
lemma forM_append_eq_error {ε α : Type} {f : α → Except ε Unit} {before after : List α} {a : α} {e : ε}
    (hbefore : ∀ b ∈ before, f b = .ok ()) (ha : f a = .error e) : (before ++ a :: after).forM f = .error e := by
  induction before with
  | nil =>
    rw [List.nil_append, List.forM_eq_forM, List.forM_cons, ha]
    rfl
  | cons b before ih =>
    rw [List.forM_eq_forM] at ih ⊢
    rw [List.cons_append, List.forM_cons, hbefore b List.mem_cons_self, ok_bind]
    exact ih fun c hc => hbefore c (List.mem_cons_of_mem _ hc)

/-! ### Computations that fail in one way only -/

/-- The error blames the configuration. -/
def Error.IsInvalidProfile : Error → Prop
  | invalidProfile _ => True
  | _ => False

/-- An error of a profile has its details. -/
lemma Error.IsInvalidProfile.exists_eq {e : Error} (h : e.IsInvalidProfile) :
    ∃ details, e = .invalidProfile details := by
  cases e with
  | invalidProfile details => exact ⟨details, rfl⟩
  | _ => exact h.elim

/-- The error, if a computation ends in one, has a property. -/
def FailsOnly {α : Type} (P : Error → Prop) (x : Except Error α) : Prop :=
  ∀ e, x = .error e → P e

namespace FailsOnly

variable {α β : Type} {P Q : Error → Prop} {x : Except Error α}

/-- What succeeds does not fail. -/
lemma ok (a : α) : FailsOnly P (.ok a) := by
  intro e he
  cases he

/-- What fails at once fails with the error that it has. -/
lemma error {e : Error} (h : P e) : FailsOnly P (.error e : Except Error α) := by
  intro e' he
  cases he
  exact h

/-- A computation that fails with some errors only fails with others only if these include them. -/
lemma mono (h : FailsOnly P x) (hPQ : ∀ e, P e → Q e) : FailsOnly Q x :=
  fun e he => hPQ e (h e he)

/-- Two steps fail with some errors only if each of them does. -/
lemma bind {f : α → Except Error β} (hx : FailsOnly P x) (hf : ∀ a, x = .ok a → FailsOnly P (f a)) :
    FailsOnly P (x >>= f) := by
  cases x with
  | error e =>
    intro e' he
    cases he
    exact hx e rfl
  | ok a => exact hf a rfl

/-- A computation fails as before if something is made of its result. -/
lemma map {f : α → β} (h : FailsOnly P x) : FailsOnly P (f <$> x) := by
  cases x with
  | error e =>
    intro e' he
    cases he
    exact h e rfl
  | ok a => exact ok _

/-- Errors of another kind fail as what is made of them. -/
lemma mapError {δ : Type} {f : δ → Error} (y : Except δ α) (h : ∀ d, P (f d)) :
    FailsOnly P (y.mapError f) := by
  cases y with
  | error d => exact error (h d)
  | ok a => exact ok a

/-- A list of computations fails with some errors only if each of them does. -/
lemma mapM {f : α → Except Error β} {as : List α} (h : ∀ a ∈ as, FailsOnly P (f a)) :
    FailsOnly P (as.mapM f) := by
  induction as with
  | nil => exact ok _
  | cons a as ih =>
    rw [List.mapM_cons]
    refine bind (h a List.mem_cons_self) fun b _ => ?_
    exact bind (ih fun a ha => h a (List.mem_cons_of_mem _ ha)) fun bs _ => ok _

/-- A list of checks fails with some errors only if each of them does. -/
lemma forM {f : α → Except Error Unit} {as : List α} (h : ∀ a ∈ as, FailsOnly P (f a)) :
    FailsOnly P (as.forM f) := by
  induction as with
  | nil => exact .ok _
  | cons a as ih =>
    rw [List.forM_eq_forM] at ih ⊢
    rw [List.forM_cons]
    exact .bind (h a List.mem_cons_self) fun _ _ => ih fun a ha => h a (List.mem_cons_of_mem _ ha)

/-- A choice fails with some errors only if both sides do. -/
lemma ite {c : Prop} [Decidable c] {y : Except Error α} (hx : FailsOnly P x) (hy : FailsOnly P y) :
    FailsOnly P (if c then x else y) := by
  split
  · exact hx
  · exact hy

end FailsOnly

end CertAuthority

import Mathlib.Data.Finset.Card
import Mathlib.Data.Finset.Dedup
import Mathlib.Data.List.Sort
import CertAuthority.Extension.Registry
import CertAuthority.Proofs.Config.Loaded

/-!
# What a registry remembers

A registry is filled by calls, some of which it refuses. Behind any calls it has the first plugin of each number, in
ascending order (`isFilledBy_ofCalls`), so that it is decided by what is found under the numbers and not by the order
of the calls. A profile is resolved to the plugins that are found under its own numbers, one after the other
(`registered_and_resolved`).
-/

namespace CertAuthority

namespace Registry

/-! ### Plugins in order -/

/-- Plugins in ascending order of their numbers, no number twice. -/
def IsOrdered (ps : List (Nat × Plugin)) : Prop :=
  ps.Pairwise fun p q => p.1 < q.1

section

variable {ps qs : List (Nat × Plugin)} {id : Nat} {plugin : Plugin}

/-- The first entry is found under its number, and for other numbers the search goes on behind it. -/
lemma lookup_cons (p : Nat × Plugin) : (p :: ps).lookup id = if id = p.1 then some p.2 else ps.lookup id := by
  rw [List.lookup_cons]
  split <;> simp_all

/-- Nothing is found exactly under the numbers that no entry has. -/
lemma lookup_eq_none_iff : ps.lookup id = none ↔ id ∉ ps.map Prod.fst := by
  rw [List.lookup_eq_none_iff]
  simp only [bne_iff_ne, List.mem_map, not_exists, not_and, ne_comm]

/-- A number is free exactly if the first entry has another one and it is free behind it. -/
lemma lookup_cons_eq_none_iff {p : Nat × Plugin} : (p :: ps).lookup id = none ↔ id ≠ p.1 ∧ ps.lookup id = none := by
  rw [lookup_eq_none_iff, List.map_cons, List.mem_cons, not_or, ← lookup_eq_none_iff]

/-- Under a new number the plugin is found that was put in its place, and under the others what was found before. -/
lemma lookup_insert (hnew : ps.lookup id = none) (other : Nat) :
    (insert id plugin ps).lookup other = if other = id then some plugin else ps.lookup other := by
  induction ps with
  | nil => rw [insert, lookup_cons]
  | cons p ps ih =>
    obtain ⟨hne, hnew⟩ := lookup_cons_eq_none_iff.1 hnew
    rw [insert]
    split
    · rw [lookup_cons]
    · rw [lookup_cons, lookup_cons, ih hnew]
      by_cases hfirst : other = p.1
      · rw [if_pos hfirst, if_pos hfirst, if_neg (hfirst ▸ hne.symm)]
      · rw [if_neg hfirst, if_neg hfirst]

/-- An insertion adds the new entry and loses none. -/
lemma mem_insert {p : Nat × Plugin} : p ∈ insert id plugin ps ↔ p = (id, plugin) ∨ p ∈ ps := by
  induction ps with
  | nil => simp [insert]
  | cons q ps ih =>
    rw [insert]
    split
    · rw [List.mem_cons]
    · rw [List.mem_cons, ih, List.mem_cons, or_left_comm]

/-- A new number is put where it belongs in the order. -/
lemma IsOrdered.insert (h : IsOrdered ps) (hnew : ps.lookup id = none) : IsOrdered (insert id plugin ps) := by
  induction ps with
  | nil => exact List.pairwise_singleton _ _
  | cons p ps ih =>
    obtain ⟨hfirst, hrest⟩ := List.pairwise_cons.1 h
    obtain ⟨hne, hnew⟩ := lookup_cons_eq_none_iff.1 hnew
    rw [Registry.insert]
    split
    · rename_i hless
      refine List.pairwise_cons.2 ⟨?_, h⟩
      rw [List.forall_mem_cons]
      exact ⟨hless, fun q hq => hless.trans (hfirst q hq)⟩
    · rename_i hless
      refine List.pairwise_cons.2 ⟨fun q hq => ?_, ih hrest hnew⟩
      rcases mem_insert.1 hq with rfl | hq
      · exact Nat.lt_of_le_of_ne (Nat.le_of_not_lt hless) hne.symm
      · exact hfirst q hq

/-- In order, the plugins that stand under a number are those that are found. -/
lemma IsOrdered.mem_iff (h : IsOrdered ps) : (id, plugin) ∈ ps ↔ ps.lookup id = some plugin := by
  induction ps with
  | nil => simp
  | cons p ps ih =>
    obtain ⟨hfirst, hrest⟩ := List.pairwise_cons.1 h
    rw [List.mem_cons, lookup_cons, Prod.ext_iff]
    by_cases hid : id = p.1
    · have hnone : (id, plugin) ∉ ps := fun hmem => (hfirst _ hmem).ne hid.symm
      rw [if_pos hid, Option.some.injEq]
      simp [hid, hid ▸ hnone, eq_comm]
    · rw [if_neg hid, ih hrest]
      simp [hid]

/-- Plugins in order are decided by what is found under the numbers. -/
lemma IsOrdered.eq_of_lookup (hps : IsOrdered ps) (hqs : IsOrdered qs) (h : ∀ id, ps.lookup id = qs.lookup id) :
    ps = qs := by
  have hirrefl : Std.Irrefl fun p q : Nat × Plugin => p.1 < q.1 := ⟨fun p => Nat.lt_irrefl p.1⟩
  have hantisymm : Std.Antisymm fun p q : Nat × Plugin => p.1 < q.1 :=
    ⟨fun p q hpq hqp => absurd hpq (Nat.lt_asymm hqp)⟩
  refine List.Pairwise.eq_of_mem_iff hps hqs fun p => ?_
  rw [hps.mem_iff, hqs.mem_iff, h]

/-- Numbers in ascending order are distinct. -/
lemma IsOrdered.nodup (h : IsOrdered ps) : (ps.map Prod.fst).Nodup :=
  (List.pairwise_map.2 h).imp Nat.ne_of_lt

end

/-! ### Calls -/

/-- The registry behind a call of `register`. A call gives a new registry or an error, so that a refused call leaves
the registry as it was is part of this definition and not proved of `register`: the number is looked up before
anything is added. -/
def behind (r : Registry) (call : Nat × Plugin) : Registry :=
  (r.register call.1 call.2).toOption.getD r

/-- The registry behind calls on an empty one. -/
def ofCalls (calls : List (Nat × Plugin)) : Registry :=
  calls.foldl behind {}

/-- A registry has, in order, the first plugin that it was called with for each number. -/
structure IsFilledBy (calls : List (Nat × Plugin)) (r : Registry) : Prop where
  ordered : IsOrdered r.plugins
  first : ∀ id, r.find? id = calls.lookup id

section

variable {calls more : List (Nat × Plugin)} {r : Registry} {id : Nat} {plugin : Plugin}

/-- A number that is taken is refused. -/
lemma register_of_some (h : (r.find? id).isSome) : ∃ e, r.register id plugin = .error e := by
  rw [register, if_pos h]
  exact ⟨_, rfl⟩

/-- A free number is taken. -/
lemma register_of_none (h : r.find? id = none) :
    r.register id plugin = .ok ⟨insert id plugin r.plugins⟩ := by
  rw [register, h, if_neg (by simp)]

/-- A registry stays as it is if the number is taken. -/
lemma behind_of_some (h : (r.find? id).isSome) : r.behind (id, plugin) = r := by
  obtain ⟨e, he⟩ := @register_of_some r id plugin h
  rw [behind, he]
  rfl

/-- A registry has the new plugin in its place if the number is free. -/
lemma behind_of_none (h : r.find? id = none) : r.behind (id, plugin) = ⟨insert id plugin r.plugins⟩ := by
  rw [behind, register_of_none h]
  rfl

/-- A call adds its plugin behind those that were there first. -/
lemma IsFilledBy.behind (h : IsFilledBy calls r) (call : Nat × Plugin) :
    IsFilledBy (calls ++ [call]) (r.behind call) := by
  obtain ⟨id, plugin⟩ := call
  cases hfound : r.find? id with
  | some found =>
    rw [behind_of_some (by rw [hfound]; rfl)]
    refine ⟨h.ordered, fun other => ?_⟩
    rw [List.lookup_append, ← h.first, lookup_cons, List.lookup_nil]
    by_cases hother : other = id
    · rw [hother, hfound, Option.some_or]
    · rw [if_neg hother, Option.or_none]
  | none =>
    rw [behind_of_none hfound]
    refine ⟨h.ordered.insert hfound, fun other => ?_⟩
    rw [List.lookup_append, ← h.first, lookup_cons, List.lookup_nil, find?, lookup_insert hfound]
    by_cases hother : other = id
    · rw [hother, hfound, Option.none_or, if_pos rfl, if_pos rfl]
    · rw [if_neg hother, if_neg hother, Option.or_none]
      rfl

/-- A registry that is filled by calls is filled by these and more once the others were made. -/
lemma IsFilledBy.foldl (h : IsFilledBy calls r) (more : List (Nat × Plugin)) :
    IsFilledBy (calls ++ more) (more.foldl Registry.behind r) := by
  induction more generalizing calls r with
  | nil => rwa [List.append_nil]
  | cons call more ih =>
    rw [List.append_cons, List.foldl_cons]
    exact ih (h.behind call)

/-- Behind any calls a registry is filled by them. -/
lemma isFilledBy_ofCalls (calls : List (Nat × Plugin)) : IsFilledBy calls (ofCalls calls) := by
  have hempty : IsFilledBy [] ({} : Registry) := ⟨List.Pairwise.nil, fun _ => rfl⟩
  exact hempty.foldl calls

/-- Under a number the first plugin that came with it is found. -/
lemma find?_ofCalls (calls : List (Nat × Plugin)) (id : Nat) : (ofCalls calls).find? id = calls.lookup id :=
  (isFilledBy_ofCalls calls).first id

/-- The last call is made on what the calls before it left. -/
lemma ofCalls_concat (calls : List (Nat × Plugin)) (call : Nat × Plugin) :
    ofCalls (calls ++ [call]) = (ofCalls calls).behind call := by
  rw [ofCalls, List.foldl_append, List.foldl_cons, List.foldl_nil, ofCalls]

/-- Calls under which the same is found make the same registry. -/
lemma ofCalls_eq_of_lookup (h : ∀ id, calls.lookup id = more.lookup id) : ofCalls calls = ofCalls more := by
  have hplugins := (isFilledBy_ofCalls calls).ordered.eq_of_lookup (isFilledBy_ofCalls more).ordered fun id =>
    (find?_ofCalls calls id).trans ((h id).trans (find?_ofCalls more id).symm)
  exact congrArg Registry.mk hplugins

/-- In calls with distinct numbers the same is found in any order. -/
lemma lookup_eq_of_perm (h : calls.Perm more) (hnodup : (calls.map Prod.fst).Nodup) (id : Nat) :
    calls.lookup id = more.lookup id := by
  induction h with
  | nil => rfl
  | @cons call calls more _ ih => rw [lookup_cons, lookup_cons, ih (List.nodup_cons.1 hnodup).2]
  | swap call call' calls =>
    simp only [List.map_cons, List.nodup_cons, List.mem_cons, not_or] at hnodup
    simp only [lookup_cons]
    by_cases hid : id = call.1
    · have hne : id ≠ call'.1 := fun h => hnodup.1.1 (h.symm.trans hid)
      rw [if_neg hne, if_pos hid, if_pos hid]
    · rw [if_neg hid, if_neg hid]
  | trans hfirst _ ihFirst ihSecond =>
    rw [ihFirst hnodup, ihSecond ((hfirst.map Prod.fst).nodup_iff.1 hnodup)]

/-- A registry has one plugin for each number that it was called with. -/
lemma IsFilledBy.length_eq (h : IsFilledBy calls r) : r.plugins.length = (calls.map Prod.fst).toFinset.card := by
  have hnumbers : (r.plugins.map Prod.fst).toFinset = (calls.map Prod.fst).toFinset := by
    ext id
    rw [List.mem_toFinset, List.mem_toFinset, ← not_iff_not, ← lookup_eq_none_iff, ← lookup_eq_none_iff, ← h.first]
    rfl
  rw [← hnumbers, List.toFinset_card_of_nodup h.ordered.nodup, List.length_map]

/-- What a registry does after calls: it finds the first plugin for each number, counts the numbers, refuses those
that it has, without a change, and takes the others. -/
structure Remembers (calls : List (Nat × Plugin)) (r : Registry) : Prop where
  first : ∀ id, r.find? id = calls.lookup id
  count : r.plugins.length = (calls.map Prod.fst).toFinset.card
  refuses : ∀ id plugin, (∃ e, r.register id plugin = .error e) ↔ id ∈ calls.map Prod.fst
  unchanged : ∀ id plugin, id ∈ calls.map Prod.fst → r.behind (id, plugin) = r
  takes : ∀ id plugin, id ∉ calls.map Prod.fst → r.register id plugin = .ok (r.behind (id, plugin))

/-- A registry that is filled by calls does what is expected after them. -/
lemma IsFilledBy.remembers (h : IsFilledBy calls r) : Remembers calls r := by
  have hnone (id : Nat) : r.find? id = none ↔ id ∉ calls.map Prod.fst := by
    rw [h.first, lookup_eq_none_iff]
  have hsome (id : Nat) : (r.find? id).isSome ↔ id ∈ calls.map Prod.fst := by
    rw [← Option.ne_none_iff_isSome, ne_eq, hnone, not_not]
  refine ⟨h.first, h.length_eq, fun id plugin => ?_, fun id plugin hid => ?_, fun id plugin hid => ?_⟩
  · constructor
    · rintro ⟨e, he⟩
      by_contra hid
      cases he.symm.trans (register_of_none ((hnone id).2 hid))
    · exact fun hid => register_of_some ((hsome id).2 hid)
  · exact behind_of_some ((hsome id).2 hid)
  · rw [register_of_none ((hnone id).2 hid), behind_of_none ((hnone id).2 hid)]

/-! ### Configuration texts -/

/-- The call that an entry of a configuration text stands for. -/
structure Entry.Gives (e : Entry) (call : Nat × Plugin) : Prop where
  id : e.id = call.1
  plugin : e.plugin = .ok call.2

/-- A call succeeds exactly if its number is free. -/
lemma register_eq_ok_iff {r' : Registry} :
    r.register id plugin = .ok r' ↔ r.find? id = none ∧ r.behind (id, plugin) = r' := by
  cases hfound : r.find? id with
  | some found =>
    obtain ⟨e, he⟩ := @register_of_some r id plugin (by rw [hfound]; rfl)
    rw [he]
    exact ⟨nofun, nofun⟩
  | none =>
    rw [register_of_none hfound, behind_of_none hfound, Except.ok.injEq]
    simp

/-- Entries are taken exactly if each of them gives a call under a number of its own. -/
lemma addEntries_eq_ok_iff {entries : List Entry} :
    addEntries (ofCalls calls) entries = .ok r ↔ ∃ more, List.Forall₂ Entry.Gives entries more ∧
      (more.map Prod.fst).Nodup ∧ (∀ id ∈ more.map Prod.fst, id ∉ calls.map Prod.fst) ∧
      ofCalls (calls ++ more) = r := by
  -- The calls made so far vary: each entry has to find its number free among them.
  induction entries generalizing calls with
  | nil =>
    rw [addEntries, Except.ok.injEq]
    simp
  | cons e entries ih =>
    simp only [addEntries, bind_eq_ok_iff, register_eq_ok_iff, find?_ofCalls, lookup_eq_none_iff]
    constructor
    · rintro ⟨plugin, hplugin, _, ⟨hnew, rfl⟩, hrest⟩
      rw [← ofCalls_concat, ih] at hrest
      obtain ⟨more, hgives, hnodup, hfresh, rfl⟩ := hrest
      simp only [List.map_append, List.map_cons, List.map_nil, List.mem_append, List.mem_singleton, not_or] at hfresh
      refine ⟨(e.id, plugin) :: more, .cons ⟨rfl, hplugin⟩ hgives, ?_, ?_, by rw [List.append_cons]⟩
      · exact List.nodup_cons.2 ⟨fun hmem => (hfresh e.id hmem).2 rfl, hnodup⟩
      · exact List.forall_mem_cons.2 ⟨hnew, fun id hid => (hfresh id hid).1⟩
    · rintro ⟨_, hgives, hnodup, hfresh, rfl⟩
      cases hgives with
      | @cons _ call _ more hfirst hgives =>
        obtain ⟨id, plugin⟩ := call
        obtain ⟨rfl, hplugin⟩ := hfirst
        rw [List.map_cons, List.nodup_cons] at hnodup
        rw [List.map_cons, List.forall_mem_cons] at hfresh
        refine ⟨plugin, hplugin, _, ⟨hfresh.1, rfl⟩, ?_⟩
        rw [← ofCalls_concat, ih]
        refine ⟨more, hgives, hnodup.2, fun id hid => ?_, by rw [← List.append_cons]⟩
        simp only [List.map_append, List.map_cons, List.map_nil, List.mem_append, List.mem_singleton, not_or]
        exact ⟨hfresh.2 id hid, fun hsame => hnodup.1 (hsame ▸ hid)⟩

/-- The calls that a configuration text stands for, all with numbers of their own. -/
structure Lists (text : String) (calls : List (Nat × Plugin)) : Prop where
  entries : ∃ entries, entries? text = some entries ∧ List.Forall₂ Entry.Gives entries calls
  nodup : (calls.map Prod.fst).Nodup

/-- A registry is read from a text exactly if the text lists calls, and then it is what these calls make. -/
lemma ofToml_eq_ok_iff {text : String} : ofToml text = .ok r ↔ ∃ calls, Lists text calls ∧ ofCalls calls = r := by
  rw [ofToml]
  split
  · rename_i hnone
    refine ⟨nofun, ?_⟩
    rintro ⟨calls, ⟨⟨entries, hentries, -⟩, -⟩, -⟩
    cases hnone.symm.trans hentries
  · rename_i entries hentries
    have hcalls : addEntries (ofCalls []) entries = .ok r ↔ _ := addEntries_eq_ok_iff
    refine hcalls.trans ⟨?_, ?_⟩
    · rintro ⟨calls, hgives, hnodup, -, rfl⟩
      exact ⟨calls, ⟨⟨entries, hentries, hgives⟩, hnodup⟩, rfl⟩
    · rintro ⟨calls, ⟨⟨entries', hentries', hgives⟩, hnodup⟩, rfl⟩
      cases hentries.symm.trans hentries'
      exact ⟨calls, hgives, hnodup, fun _ _ => List.not_mem_nil, rfl⟩

end

end Registry

/-! ### Resolved profiles -/

namespace ResolvedProfile

variable {registry : Registry} {profile : Profile} {p : ResolvedProfile}

/-- The plugins of a profile are those that are found under its numbers. -/
lemma pluginsOf_eq_ok_iff {plugins : List Plugin} :
    pluginsOf registry profile = .ok plugins ↔
      List.Forall₂ (fun id plugin => registry.find? id = some plugin) profile.certificateExtensions plugins := by
  rw [pluginsOf, mapM_eq_ok_iff]
  constructor
  · intro h
    refine h.imp fun id plugin hp => ?_
    split at hp
    · rename_i found hfound
      cases hp
      exact hfound
    · cases hp
  · intro h
    refine h.imp fun id plugin hp => ?_
    rw [hp]

/-- The plugins of a profile are found exactly if the registry has all its numbers. -/
lemma exists_pluginsOf_iff :
    (∃ plugins, pluginsOf registry profile = .ok plugins) ↔
      ∀ id ∈ profile.certificateExtensions, (registry.find? id).isSome := by
  rw [pluginsOf, exists_mapM_eq_ok_iff]
  refine forall₂_congr fun id _ => ?_
  cases registry.find? id <;> simp

/-- A profile is resolved exactly if its texts can be read and its numbers are found, in their order. -/
lemma resolve_eq_ok_iff :
    resolve registry profile = .ok p ↔ p.profile = profile ∧ profile.parse = .ok p.parsed ∧
      List.Forall₂ (fun id plugin => registry.find? id = some plugin) profile.certificateExtensions p.plugins := by
  rw [← pluginsOf_eq_ok_iff]
  refine ⟨of_resolve, ?_⟩
  rintro ⟨rfl, hparsed, hplugins⟩
  rw [resolve, hparsed, ok_bind, hplugins]
  rfl

/-- A profile can be resolved exactly if its texts can be read and the registry has all its numbers. -/
lemma exists_resolve_eq_ok_iff :
    (∃ p, resolve registry profile = .ok p) ↔
      (∃ parsed, profile.parse = .ok parsed) ∧ ∀ id ∈ profile.certificateExtensions, (registry.find? id).isSome := by
  rw [← exists_pluginsOf_iff]
  constructor
  · rintro ⟨p, hp⟩
    obtain ⟨-, hparsed, hplugins⟩ := of_resolve hp
    exact ⟨⟨_, hparsed⟩, _, hplugins⟩
  · rintro ⟨⟨parsed, hparsed⟩, plugins, hplugins⟩
    exact ⟨⟨profile, parsed, plugins⟩, resolve_eq_ok_iff.2 ⟨rfl, hparsed, pluginsOf_eq_ok_iff.1 hplugins⟩⟩

/-- A profile is resolved alike where the same is found under the numbers. -/
lemma resolve_eq_of_find? {other : Registry} (h : ∀ id, registry.find? id = other.find? id) (profile : Profile) :
    resolve registry profile = resolve other profile := by
  simp only [resolve, pluginsOf, h]

end ResolvedProfile

/-- A registry remembers the first call for each number and nothing else, whether the calls are made one by one or
for the entries of a configuration text, which must all be taken. A profile is resolved exactly if its texts are
parsed and its numbers are there, and then to the plugins under its numbers, one for each and in the same order.
What is found under the numbers decides this, so that the order of calls with distinct numbers does not matter. -/
theorem Registry.registered_and_resolved :
    (∀ calls, Remembers calls (ofCalls calls)) ∧
    (∀ text r, ofToml text = .ok r ↔ ∃ calls, Lists text calls ∧ ofCalls calls = r) ∧
    (∀ calls profile p, ResolvedProfile.resolve (ofCalls calls) profile = .ok p ↔
      p.profile = profile ∧ profile.parse = .ok p.parsed ∧
        List.Forall₂ (fun id plugin => calls.lookup id = some plugin) profile.certificateExtensions p.plugins) ∧
    (∀ calls profile, (∃ p, ResolvedProfile.resolve (ofCalls calls) profile = .ok p) ↔
      (∃ parsed, profile.parse = .ok parsed) ∧ ∀ id ∈ profile.certificateExtensions, id ∈ calls.map Prod.fst) ∧
    (∀ r r' : Registry, (∀ id, r.find? id = r'.find? id) →
      ∀ profile, ResolvedProfile.resolve r profile = ResolvedProfile.resolve r' profile) ∧
    ∀ calls calls', calls.Perm calls' → (calls.map Prod.fst).Nodup →
      ∀ profile, ResolvedProfile.resolve (ofCalls calls) profile =
        ResolvedProfile.resolve (ofCalls calls') profile := by
  refine ⟨fun calls => (isFilledBy_ofCalls calls).remembers, fun text r => ofToml_eq_ok_iff, ?_, ?_,
    fun r r' h profile => ResolvedProfile.resolve_eq_of_find? h profile, ?_⟩
  · intro calls profile p
    simp only [ResolvedProfile.resolve_eq_ok_iff, find?_ofCalls]
  · intro calls profile
    rw [ResolvedProfile.exists_resolve_eq_ok_iff]
    simp only [find?_ofCalls, ← Option.ne_none_iff_isSome, ne_eq, lookup_eq_none_iff, not_not]
  · intro calls calls' hperm hnodup profile
    rw [ofCalls_eq_of_lookup (lookup_eq_of_perm hperm hnodup)]

namespace Sample

/-- Two extensions, the one with the greater number first. -/
def registryText : String :=
  "[[extension]]\nid = 7\noid = \"1.2.3.5\"\nencoding = \"null\"\n\n" ++
    "[[extension]]\nid = 1\noid = \"1.2.3.4\"\nencoding = \"utf8string\"\nvalue = \"one\"\n"

/-- The entries of the text. -/
def registryEntries : List Registry.Entry :=
  [⟨7, "1.2.3.5", false, .null, ""⟩, ⟨1, "1.2.3.4", false, .utf8String, "one"⟩]

/-- The identifier 1.2.3.4. -/
def firstOid : Oid :=
  ⟨[42, 3, 4], Eq.refl true⟩

/-- The identifier 1.2.3.5. -/
def secondOid : Oid :=
  ⟨[42, 3, 5], Eq.refl true⟩

/-- The calls that the text stands for. -/
def registryCalls : List (Nat × Plugin) :=
  [(7, ⟨secondOid, false, fun _ _ _ => .ok Der.Tlv.null.encode⟩),
   (1, ⟨firstOid, false, fun _ _ _ => .ok (Der.Tlv.ofText Der.Tag.utf8String "one").encode⟩)]

/-- The text lists two plugins, the higher number first. -/
lemma lists_registryText : Registry.Lists registryText registryCalls := by
  have hentries : Registry.entries? registryText = some registryEntries := by decide +kernel
  have hsecond : Oid.parse (Text.trimmed "1.2.3.5") = .ok secondOid := by decide +kernel
  have hfirst : Oid.parse (Text.trimmed "1.2.3.4") = .ok firstOid := by decide +kernel
  refine ⟨⟨registryEntries, hentries, .cons ⟨rfl, ?_⟩ (.cons ⟨rfl, ?_⟩ .nil)⟩, by decide⟩
  · rw [Registry.Entry.plugin, hsecond]
    rfl
  · rw [Registry.Entry.plugin, hfirst]
    rfl

/-- A profile that names extensions in another order and one of them twice. -/
def repeatingProfile : Profile :=
  { Profile.endUser with certificateExtensions := [1, 7, 1] }

end Sample

namespace Registry

open Sample

/-- The text makes a registry of two plugins that refuses a third under the number seven. With it the profile gets
three plugins in its own order, and gets the same ones if the calls are made the other way around. -/
theorem sample_registered :
    ∃ r p, ofToml registryText = .ok r ∧ r.plugins.length = 2 ∧
      (∀ plugin, (∃ e, r.register 7 plugin = .error e) ∧ r.behind (7, plugin) = r) ∧
      ResolvedProfile.resolve r repeatingProfile = .ok p ∧
      p.plugins.map (·.oid) = [firstOid, secondOid, firstOid] ∧
      ResolvedProfile.resolve (ofCalls registryCalls.reverse) repeatingProfile = .ok p := by
  obtain ⟨hremembers, htoml, hresolve, hexists, -, hperm⟩ := registered_and_resolved
  have hcalls := hremembers registryCalls
  have hparse : ∃ parsed, repeatingProfile.parse = .ok parsed := exists_of_isOk (by decide +kernel)
  obtain ⟨p, hp⟩ := (hexists registryCalls repeatingProfile).2 ⟨hparse, by decide⟩
  obtain ⟨-, -, hplugins⟩ := (hresolve registryCalls repeatingProfile p).1 hp
  obtain ⟨one, _, hone, htail, hall⟩ := List.forall₂_cons_left_iff.1 hplugins
  obtain ⟨seven, _, hseven, hlast, rfl⟩ := List.forall₂_cons_left_iff.1 htail
  obtain ⟨again, _, hagain, hnil, rfl⟩ := List.forall₂_cons_left_iff.1 hlast
  obtain rfl := List.forall₂_nil_left_iff.1 hnil
  have hread : ofToml registryText = .ok (ofCalls registryCalls) := (htoml _ _).2 ⟨_, lists_registryText, rfl⟩
  refine ⟨ofCalls registryCalls, p, hread, hcalls.count, fun plugin => ?_, hp, ?_, ?_⟩
  · exact ⟨(hcalls.refuses 7 plugin).2 (by decide), hcalls.unchanged 7 plugin (by decide)⟩
  · rw [hall, ← Option.some.inj hone, ← Option.some.inj hseven, ← Option.some.inj hagain]
    rfl
  · rw [← hperm _ _ registryCalls.reverse_perm.symm (by decide)]
    exact hp

end Registry

end CertAuthority

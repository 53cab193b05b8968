import Mathlib.Data.List.AList

set_option autoImplicit false

/-!
# Dictionaries that are written pair by pair

A list of pairs written into a dictionary, and when the dictionary then holds
exactly the pairs that were written.
-/

abbrev Dict (K V : Type) := AList fun _ : K => V

namespace Dict

variable {K V : Type} [DecidableEq K] (dict : Dict K V) (pairs : List (K × V))

def putAll : List (K × V) → Dict K V → Dict K V
  | [], dict => dict
  | (key, value) :: pairs, dict => putAll pairs (dict.insert key value)

-- No key is written with two values.
def Consistent (pairs : List (K × V)) : Prop :=
  ∀ key first second, (key, first) ∈ pairs → (key, second) ∈ pairs → first = second

omit [DecidableEq K] in
theorem consistent_map_iff {W : Type} (f : V → W) (injective : Function.Injective f) :
    Consistent (pairs.map fun pair => (pair.1, f pair.2)) ↔ Consistent pairs := by
  constructor
  · intro consistent key first second memberFirst memberSecond
    exact injective (consistent key (f first) (f second) (List.mem_map_of_mem memberFirst) (List.mem_map_of_mem memberSecond))
  · intro consistent key first second memberFirst memberSecond
    obtain ⟨⟨_, own⟩, member, same⟩ := List.mem_map.mp memberFirst
    obtain ⟨⟨_, other⟩, member', same'⟩ := List.mem_map.mp memberSecond
    obtain ⟨rfl, rfl⟩ := Prod.mk.inj same
    obtain ⟨rfl, rfl⟩ := Prod.mk.inj same'
    rw [consistent _ own other member member']

theorem mem_putAll_iff (key : K) : key ∈ putAll pairs dict ↔ key ∈ pairs.map Prod.fst ∨ key ∈ dict := by
  induction pairs generalizing dict with
  | nil => simp [putAll]
  | cons pair pairs ih =>
      rw [putAll, ih, AList.mem_insert, List.map_cons, List.mem_cons]
      exact or_left_comm.trans or_assoc.symm

theorem lookup_putAll_of_not_mem (key : K) (absent : key ∉ pairs.map Prod.fst) :
    (putAll pairs dict).lookup key = dict.lookup key := by
  induction pairs generalizing dict with
  | nil => rfl
  | cons pair pairs ih =>
      simp only [List.map_cons, List.mem_cons, not_or] at absent
      rw [putAll, ih _ absent.2, AList.lookup_insert_ne absent.1]

-- The last pair with the key is the one that stays.
theorem lookup_putAll_of_mem (key : K) (written : key ∈ pairs.map Prod.fst) :
    ∃ value, (key, value) ∈ pairs ∧ (putAll pairs dict).lookup key = some value := by
  induction pairs generalizing dict with
  | nil => cases written
  | cons pair pairs ih =>
      by_cases later : key ∈ pairs.map Prod.fst
      · obtain ⟨value, member, found⟩ := ih (dict.insert pair.1 pair.2) later
        exact ⟨value, List.mem_cons_of_mem pair member, found⟩
      · obtain rfl : key = pair.1 := by simpa [later] using written
        refine ⟨pair.2, List.mem_cons_self, ?_⟩
        rw [putAll, lookup_putAll_of_not_mem _ _ _ later, AList.lookup_insert]

-- The dictionary holds exactly what was written when the pairs are consistent and every key that it had is written
-- again.
theorem lookup_putAll_iff :
    (∀ key value, (putAll pairs dict).lookup key = some value ↔ (key, value) ∈ pairs) ↔
      Consistent pairs ∧ ∀ key ∈ dict, key ∈ pairs.map Prod.fst := by
  constructor
  · intro exact
    constructor
    · intro key first second memberFirst memberSecond
      have found := (exact key first).mpr memberFirst
      rw [(exact key second).mpr memberSecond] at found
      exact (Option.some.inj found).symm
    · intro key held
      by_contra absent
      obtain ⟨value, found⟩ := Option.isSome_iff_exists.mp (AList.lookup_isSome.mpr held)
      have kept := lookup_putAll_of_not_mem dict pairs key absent
      rw [found, exact] at kept
      exact absent (List.mem_map_of_mem kept)
  · intro ⟨consistent, covered⟩ key value
    by_cases written : key ∈ pairs.map Prod.fst
    · obtain ⟨last, member, found⟩ := lookup_putAll_of_mem dict pairs key written
      rw [found, Option.some.injEq]
      constructor
      · intro same
        exact same ▸ member
      · exact consistent key last value member
    · rw [lookup_putAll_of_not_mem dict pairs key written, AList.lookup_eq_none.mpr fun held => written (covered key held)]
      refine iff_of_false (by simp) fun member => written (List.mem_map_of_mem member)

-- A set is a dictionary without values.
theorem members_putAll_iff (members : Dict K Unit) (added : List K) :
    (∀ member, member ∈ putAll (added.map (·, ())) members ↔ member ∈ added) ↔ ∀ member ∈ members, member ∈ added := by
  have keys : (added.map (·, ())).map Prod.fst = added := by
    rw [List.map_map]
    exact List.map_id added
  simp only [mem_putAll_iff, keys, or_iff_left_iff_imp]

end Dict

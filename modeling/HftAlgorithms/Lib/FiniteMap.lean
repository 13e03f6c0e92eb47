/-
Module: HftAlgorithms.Lib.FiniteMap
Purpose: Weighted sums over the entries of a finite map, how inserting and
  erasing one key moves them, and a computable listing of the keys.
Trusted boundary: none
Main exports: FiniteMap, FiniteMap.Lists, FiniteMap.Lists.foldl_insert,
  FiniteMap.ErasesAtMost, FiniteMap.sortedKeys,
  FiniteMap.sumBy, FiniteMap.sumBy_insert, FiniteMap.sumBy_of_lookup,
  FiniteMap.sumBy_congr, FiniteMap.weight_le_sumBy
-/
import Mathlib.Data.Finmap
import Mathlib.Data.List.Sort
import Mathlib.Algebra.Order.BigOperators.Group.Multiset
import Mathlib.Algebra.Order.Ring.Nat

/-- A finite map whose value type does not depend on the key. -/
abbrev FiniteMap (κ : Type*) (ν : Type*) := Finmap fun _ : κ => ν

namespace FiniteMap

variable {κ ν : Type*}

/-- Sum of `weight key value` over every entry of the map. -/
def sumBy {M : Type*} [AddCommMonoid M] (weight : κ → ν → M) (map : FiniteMap κ ν) : M :=
  (map.entries.map fun entry => weight entry.1 entry.2).sum

@[simp] theorem sumBy_empty {M : Type*} [AddCommMonoid M] (weight : κ → ν → M) :
    sumBy weight (∅ : FiniteMap κ ν) = 0 := rfl

/-- The entries that satisfy `keep`. -/
def filter (keep : κ → ν → Bool) (map : FiniteMap κ ν) : FiniteMap κ ν where
  entries := map.entries.filter fun entry => keep entry.1 entry.2
  nodupKeys := by
    rw [← Multiset.nodup_keys]
    exact Multiset.nodup_of_le (Multiset.map_le_map (Multiset.filter_le _ _))
      (Multiset.nodup_keys.mpr map.nodupKeys)

variable [DecidableEq κ]

theorem lookup_filter (keep : κ → ν → Bool) (map : FiniteMap κ ν) (key : κ) :
    (map.filter keep).lookup key = (map.lookup key).filter (keep key) := by
  apply Option.ext
  intro value
  rw [Finmap.lookup_eq_some_iff, Option.filter_eq_some_iff, Finmap.lookup_eq_some_iff]
  exact Multiset.mem_filter

/-- Looking a key up after an insert, as one equation. -/
theorem lookup_insert_eq (map : FiniteMap κ ν) (key other : κ) (value : ν) :
    (map.insert key value).lookup other =
      if other = key then some value else map.lookup other := by
  by_cases same : other = key
  · subst other
    simp
  · simp [same, Finmap.lookup_insert_of_ne _ same]

/-- Looking a key up after an erase, as one equation. -/
theorem lookup_erase_eq (map : FiniteMap κ ν) (key other : κ) :
    (map.erase key).lookup other = if other = key then none else map.lookup other := by
  by_cases same : other = key
  · subst other
    simp
  · simp [same, Finmap.lookup_erase_ne same]

/-- A map is what it is at one key and at the others. -/
theorem lookup_eq_ite (map : FiniteMap κ ν) (key other : κ) :
    map.lookup other = if other = key then map.lookup key else map.lookup other := by
  split
  · rename_i same
    rw [same]
  · rfl

/-- What is left after an erase was there before. -/
theorem lookup_of_lookup_erase {map : FiniteMap κ ν} {key other : κ} {value : ν}
    (left : (map.erase key).lookup other = some value) : map.lookup other = some value := by
  rw [lookup_erase_eq] at left
  split at left
  · cases left
  · exact left

/-- Erasing an absent key changes nothing. -/
theorem erase_of_lookup_none {map : FiniteMap κ ν} {key : κ}
    (absent : map.lookup key = none) : map.erase key = map := by
  apply Finmap.ext_lookup
  intro other
  rw [lookup_erase_eq]
  by_cases same : other = key
  · rw [if_pos same, same, absent]
  · rw [if_neg same]

/-- Inserting after an erase of the same key is just the insert. -/
theorem insert_erase_same (map : FiniteMap κ ν) (key : κ) (value : ν) :
    (map.erase key).insert key value = map.insert key value := by
  apply Finmap.ext_lookup
  intro other
  rw [lookup_insert_eq, lookup_insert_eq, lookup_erase_eq]
  split <;> rfl

/-- Inserting the value a key already has changes nothing. -/
theorem insert_of_lookup {map : FiniteMap κ ν} {key : κ} {value : ν}
    (found : map.lookup key = some value) : map.insert key value = map := by
  apply Finmap.ext_lookup
  intro other
  rw [lookup_insert_eq]
  by_cases same : other = key
  · rw [if_pos same, same, found]
  · rw [if_neg same]

/-- The entries of a map, in some order. -/
structure Lists (entries : List (κ × ν)) (map : FiniteMap κ ν) : Prop where
  distinct : (entries.map Prod.fst).Nodup
  mem_iff : ∀ key value, (key, value) ∈ entries ↔ map.lookup key = some value

/-- Inserting entries with distinct keys one after another adds them all. -/
theorem lookup_foldl_insert {entries : List (κ × ν)} (distinct : (entries.map Prod.fst).Nodup)
    (start : FiniteMap κ ν) (key : κ) (value : ν) :
    (entries.foldl (fun map entry => map.insert entry.1 entry.2) start).lookup key = some value ↔
      (key, value) ∈ entries ∨ (key ∉ entries.map Prod.fst ∧ start.lookup key = some value) := by
  induction entries generalizing start with
  | nil => simp
  | cons entry entries inductionHypothesis =>
      obtain ⟨first, content⟩ := entry
      rw [List.map_cons, List.nodup_cons] at distinct
      rw [List.foldl_cons, inductionHypothesis distinct.2, lookup_insert_eq]
      by_cases same : key = first
      · subst same
        have absent : ∀ other, (key, other) ∉ entries := by
          intro other member
          apply distinct.1
          exact List.mem_map.mpr ⟨_, member, rfl⟩
        simp [absent, distinct.1, eq_comm]
      · simp [same]

theorem lists_foldl_insert {entries : List (κ × ν)} (distinct : (entries.map Prod.fst).Nodup) :
    Lists entries (entries.foldl (fun map entry => map.insert entry.1 entry.2) ∅) := by
  refine ⟨distinct, fun key value => ?_⟩
  rw [lookup_foldl_insert distinct]
  simp

/-- A map is what inserting its entries makes, in whichever order. -/
theorem Lists.foldl_insert {entries : List (κ × ν)} {map : FiniteMap κ ν}
    (lists : Lists entries map) :
    entries.foldl (fun map entry => map.insert entry.1 entry.2) ∅ = map := by
  apply Finmap.ext_lookup
  intro key
  apply Option.ext
  intro value
  rw [lookup_foldl_insert lists.distinct, lists.mem_iff]
  simp

/-- A map that has stayed as it was, or has lost the entry of the key that is given. -/
def ErasesAtMost (key : Option κ) (map after : FiniteMap κ ν) : Prop :=
  after = map ∨ ∃ gone ∈ key, after = map.erase gone

theorem ErasesAtMost.lookup_before {key : Option κ} {map after : FiniteMap κ ν}
    (erases : ErasesAtMost key map after) {other : κ} {value : ν}
    (left : after.lookup other = some value) : map.lookup other = some value := by
  rcases erases with rfl | ⟨gone, -, rfl⟩
  · exact left
  · exact lookup_of_lookup_erase left

theorem ErasesAtMost.lookup_after {key : Option κ} {map after : FiniteMap κ ν}
    (erases : ErasesAtMost key map after) {other : κ} (kept : key ≠ some other) :
    after.lookup other = map.lookup other := by
  rcases erases with rfl | ⟨gone, here, rfl⟩
  · rfl
  · rw [lookup_erase_eq, if_neg]
    rintro rfl
    exact kept here

/-! ### Listing the keys -/

section SortedKeys

variable {order : Type*} [LinearOrder order]

/-- The keys in increasing order. -/
def sortedKeys (map : FiniteMap order ν) : List order :=
  Quot.liftOn map.keys.val (List.insertionSort (· ≤ ·)) fun first second same =>
    (((List.perm_insertionSort _ first).trans same).trans
      (List.perm_insertionSort _ second).symm).eq_of_pairwise'
      (List.pairwise_insertionSort _ first) (List.pairwise_insertionSort _ second)

theorem coe_sortedKeys (map : FiniteMap order ν) :
    (sortedKeys map : Multiset order) = map.keys.val := by
  rw [sortedKeys]
  induction map.keys.val using Quot.inductionOn with
  | h list => exact Quot.sound (List.perm_insertionSort _ list)

theorem nodup_sortedKeys (map : FiniteMap order ν) : (sortedKeys map).Nodup := by
  rw [← Multiset.coe_nodup, coe_sortedKeys]
  exact map.keys.nodup

theorem mem_sortedKeys (map : FiniteMap order ν) (key : order) :
    key ∈ sortedKeys map ↔ (map.lookup key).isSome := by
  rw [← Multiset.mem_coe, coe_sortedKeys, Finset.mem_val, Finmap.mem_keys, Finmap.lookup_isSome]

end SortedKeys

/-! ### Sums -/

section Sums

variable {M : Type*} [AddCommMonoid M] (weight : κ → ν → M)

/-- An insert replaces whatever the key held before. -/
theorem sumBy_insert (map : FiniteMap κ ν) (key : κ) (value : ν) :
    sumBy weight (map.insert key value) = weight key value + sumBy weight (map.erase key) := by
  have split : (map.insert key value).entries = ⟨key, value⟩ ::ₘ (map.erase key).entries := by
    rw [← insert_erase_same]
    exact Finmap.entries_insert_of_notMem Finmap.notMem_erase_self
  simp [sumBy, split]

/-- A present entry splits off from the sum. -/
theorem sumBy_of_lookup {map : FiniteMap κ ν} {key : κ} {value : ν}
    (found : map.lookup key = some value) :
    sumBy weight map = weight key value + sumBy weight (map.erase key) := by
  conv_lhs => rw [← insert_of_lookup found]
  exact sumBy_insert weight map key value

theorem sumBy_erase_of_lookup_none {map : FiniteMap κ ν} {key : κ}
    (absent : map.lookup key = none) :
    sumBy weight (map.erase key) = sumBy weight map := by
  rw [erase_of_lookup_none absent]

/-- An insert at an absent key adds the new weight. -/
theorem sumBy_insert_of_lookup_none {map : FiniteMap κ ν} {key : κ} (value : ν)
    (absent : map.lookup key = none) :
    sumBy weight (map.insert key value) = weight key value + sumBy weight map := by
  rw [sumBy_insert, sumBy_erase_of_lookup_none weight absent]

/-- Weights that agree on every entry give one sum. -/
theorem sumBy_congr {first second : κ → ν → M} {map : FiniteMap κ ν}
    (agree : ∀ key value, map.lookup key = some value → first key value = second key value) :
    sumBy first map = sumBy second map := by
  rw [sumBy, sumBy]
  congr 1
  apply Multiset.map_congr rfl
  rintro ⟨key, value⟩ member
  exact agree key value (Finmap.lookup_eq_some_iff.mpr member)

/-- A sum that is not zero has an entry that is not. -/
theorem exists_of_sumBy_ne_zero {weight : κ → ν → M} {map : FiniteMap κ ν}
    (nonzero : sumBy weight map ≠ 0) :
    ∃ key value, map.lookup key = some value ∧ weight key value ≠ 0 := by
  by_contra absent
  apply nonzero
  apply Multiset.sum_eq_zero
  intro addend member
  obtain ⟨⟨key, value⟩, within, rfl⟩ := Multiset.mem_map.mp member
  by_contra heavy
  exact absent ⟨key, value, Finmap.lookup_eq_some_iff.mpr within, heavy⟩

end Sums

/-! ### Sums of natural numbers -/

/-- No entry weighs more than the whole map. -/
theorem weight_le_sumBy (weight : κ → ν → Nat) {map : FiniteMap κ ν} {key : κ} {value : ν}
    (found : map.lookup key = some value) : weight key value ≤ sumBy weight map := by
  rw [sumBy_of_lookup weight found]
  exact Nat.le_add_right _ _

/-- Erasing a key takes nothing else away. -/
theorem sumBy_erase_le (weight : κ → ν → Nat) (map : FiniteMap κ ν) (key : κ) :
    sumBy weight (map.erase key) ≤ sumBy weight map := by
  cases found : map.lookup key with
  | none => rw [erase_of_lookup_none found]
  | some value =>
      rw [sumBy_of_lookup weight found]
      exact Nat.le_add_left _ _

omit [DecidableEq κ] in
/-- A pointwise lighter weight gives a lighter sum. -/
theorem sumBy_mono {light heavy : κ → ν → Nat} (le : ∀ key value, light key value ≤ heavy key value)
    (map : FiniteMap κ ν) : sumBy light map ≤ sumBy heavy map :=
  Multiset.sum_map_le_sum_map _ _ fun entry _ => le entry.1 entry.2

end FiniteMap

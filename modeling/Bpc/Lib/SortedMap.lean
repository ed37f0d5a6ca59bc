/-
  SORTED MAPS — the standard library's extensional tree map at the key type's own order.

  `toList` is in key order and maps with the same look-ups are EQUAL; look-ups are stated through
  `=`. `MapRange` is an iteration order, chosen anew for every map, for programs that range over a
  hash map.
-/
import Mathlib

namespace Bpc

/-- A map in the order of its keys. -/
abbrev SortedMap (K V : Type) [Ord K] := Std.ExtTreeMap K V compare

namespace SortedMap

variable {K V : Type} [Ord K] [Std.TransOrd K]

theorem get_empty (k : K) : (∅ : SortedMap K V)[k]? = none := by simp

variable [Std.LawfulEqOrd K]

theorem get_filter (m : SortedMap K V) (f : K → Bool) (k : K) :
    (m.filter fun a _ => f a)[k]? = if f k then m[k]? else none := by
  rw [Std.ExtTreeMap.getElem?_filter']
  cases m[k]? with
  | none => simp
  | some v => by_cases h : f k <;> simp [h]

theorem mem_toList {m : SortedMap K V} {k : K} {v : V} : (k, v) ∈ m.toList ↔ m[k]? = some v :=
  Std.ExtTreeMap.mem_toList_iff_getElem?_eq_some

theorem nodup_keys_toList (m : SortedMap K V) : (m.toList.map Prod.fst).Nodup := by
  rw [List.Nodup, List.pairwise_map]
  refine m.distinct_keys_toList.imp ?_
  intro a b h hab
  exact h (Std.compare_eq_iff_eq.mpr hab)

theorem nodup_toList (m : SortedMap K V) : m.toList.Nodup := List.Nodup.of_map _ m.nodup_keys_toList

theorem ext_get {m m' : SortedMap K V} (h : ∀ k : K, m[k]? = m'[k]?) : m = m' :=
  Std.ExtTreeMap.ext_getElem? fun {k} => h k

variable [DecidableEq K]

theorem get_insert (m : SortedMap K V) (k a : K) (v : V) :
    (m.insert k v)[a]? = if k = a then some v else m[a]? := by
  simp only [Std.ExtTreeMap.getElem?_insert, Std.compare_eq_iff_eq]

theorem get_erase (m : SortedMap K V) (k a : K) :
    (m.erase k)[a]? = if k = a then none else m[a]? := by
  simp only [Std.ExtTreeMap.getElem?_erase, Std.compare_eq_iff_eq]

theorem get_insert_self (m : SortedMap K V) (k : K) (v : V) : (m.insert k v)[k]? = some v := by
  rw [get_insert, if_pos rfl]

theorem get_insert_of_ne (m : SortedMap K V) {k a : K} (v : V) (h : k ≠ a) :
    (m.insert k v)[a]? = m[a]? := by
  rw [get_insert, if_neg h]

theorem get_erase_self (m : SortedMap K V) (k : K) : (m.erase k)[k]? = none := by
  rw [get_erase, if_pos rfl]

theorem get_erase_of_ne (m : SortedMap K V) {k a : K} (h : k ≠ a) :
    (m.erase k)[a]? = m[a]? := by
  rw [get_erase, if_neg h]

/-! ## Filling a map from a list -/

/-- Insert the pairs in order; a later pair replaces an earlier one. -/
def insertPairs (m : SortedMap K V) (pairs : List (K × V)) : SortedMap K V :=
  pairs.foldl (fun m e => m.insert e.1 e.2) m

/-- A value of the filled map is one of the pairs, or was there. -/
theorem mem_of_get_insertPairs : ∀ {pairs : List (K × V)} {m : SortedMap K V} {k : K} {v : V},
    (m.insertPairs pairs)[k]? = some v → (k, v) ∈ pairs ∨ m[k]? = some v
  | [], _, _, _, h => Or.inr h
  | e :: pairs, m, k, v, h => by
    rcases mem_of_get_insertPairs (show (insertPairs (m.insert e.1 e.2) pairs)[k]? = some v from h)
      with hmem | hget
    · exact Or.inl (List.mem_cons_of_mem _ hmem)
    · rw [get_insert] at hget
      split at hget
      · next hk =>
        cases hget
        exact Or.inl (hk ▸ List.mem_cons_self ..)
      · exact Or.inr hget

theorem get_insertPairs_ne_none : ∀ {pairs : List (K × V)} {m : SortedMap K V} {k : K},
    ((∃ v, (k, v) ∈ pairs) ∨ m[k]? ≠ none) → (m.insertPairs pairs)[k]? ≠ none
  | [], _, _, h => by
    rcases h with ⟨v, hv⟩ | h
    · cases hv
    · exact h
  | e :: pairs, m, k, h => by
    show (insertPairs (m.insert e.1 e.2) pairs)[k]? ≠ none
    apply get_insertPairs_ne_none
    rcases h with ⟨v, hv⟩ | h
    · rcases List.mem_cons.mp hv with rfl | hv
      · exact Or.inr (by rw [get_insert_self]; simp)
      · exact Or.inl ⟨v, hv⟩
    · refine Or.inr ?_
      rw [get_insert]
      split
      · simp
      · exact h

theorem get_insertPairs_outside : ∀ {pairs : List (K × V)} {m : SortedMap K V} {k : K},
    k ∉ pairs.map Prod.fst → (m.insertPairs pairs)[k]? = m[k]?
  | [], _, _, _ => rfl
  | e :: pairs, m, k, h => by
    have hrest : k ∉ pairs.map Prod.fst := fun hmem => h (List.mem_cons_of_mem _ hmem)
    have hne : e.1 ≠ k := fun heq => h (heq ▸ List.mem_cons_self)
    show (insertPairs (m.insert e.1 e.2) pairs)[k]? = m[k]?
    rw [get_insertPairs_outside hrest, get_insert_of_ne _ _ hne]

theorem get_insertPairs_of_mem : ∀ {pairs : List (K × V)} {m : SortedMap K V} {k : K} {v : V},
    (pairs.map Prod.fst).Nodup → (k, v) ∈ pairs → (m.insertPairs pairs)[k]? = some v
  | e :: pairs, m, k, v, hkeys, hmem => by
    obtain ⟨hnotin, hrest⟩ := List.nodup_cons.mp hkeys
    show (insertPairs (m.insert e.1 e.2) pairs)[k]? = some v
    rcases List.mem_cons.mp hmem with rfl | hmem
    · rw [get_insertPairs_outside hnotin, get_insert_self]
    · exact get_insertPairs_of_mem hrest hmem

theorem insertPairs_toList (m : SortedMap K V) : insertPairs ∅ m.toList = m := by
  have hsound : ∀ (k : K) (v : V), (insertPairs ∅ m.toList)[k]? = some v → m[k]? = some v := by
    intro k v h
    rcases mem_of_get_insertPairs h with hmem | hempty
    · exact mem_toList.mp hmem
    · rw [get_empty] at hempty
      cases hempty
  apply ext_get
  intro k
  cases hget : m[k]? with
  | none =>
    by_contra hne
    obtain ⟨v, hv⟩ := Option.ne_none_iff_exists'.mp hne
    rw [hsound k v hv] at hget
    cases hget
  | some v =>
    have hne : (insertPairs ∅ m.toList)[k]? ≠ none :=
      get_insertPairs_ne_none (Or.inl ⟨v, mem_toList.mpr hget⟩)
    obtain ⟨w, hw⟩ := Option.ne_none_iff_exists'.mp hne
    rw [hw, ← hsound k w hw, hget]

end SortedMap

/-! ## Iteration orders -/

/-- An order in which a map may be enumerated. -/
structure MapRange (K V : Type) [Ord K] [Std.TransOrd K] where
  list : SortedMap K V → List (K × V)
  perm : ∀ m, (list m).Perm m.toList

namespace MapRange

variable {K V : Type} [Ord K] [Std.TransOrd K] [Std.LawfulEqOrd K]

/-- Key order. -/
def sorted : MapRange K V where
  list m := m.toList
  perm _ := List.Perm.refl _

theorem mem_list {range : MapRange K V} {m : SortedMap K V} {k : K} {v : V} :
    (k, v) ∈ range.list m ↔ m[k]? = some v :=
  (range.perm m).mem_iff.trans SortedMap.mem_toList

theorem nodup_keys (range : MapRange K V) (m : SortedMap K V) :
    ((range.list m).map Prod.fst).Nodup :=
  ((range.perm m).map Prod.fst).nodup_iff.mpr m.nodup_keys_toList

variable [DecidableEq K]

/-- Key order, except that a given key comes first where it is present. -/
def startingAt (k : K) : MapRange K V where
  list m :=
    match m[k]? with
    | some v => (k, v) :: (m.erase k).toList
    | none => m.toList
  perm m := by
    cases hk : m[k]? with
    | none => exact List.Perm.refl _
    | some v =>
      have hnotin : (k, v) ∉ (m.erase k).toList := by
        rw [SortedMap.mem_toList, SortedMap.get_erase_self]
        simp
      apply (List.perm_ext_iff_of_nodup
        (List.nodup_cons.mpr ⟨hnotin, SortedMap.nodup_toList (m.erase k)⟩) m.nodup_toList).mpr
      rintro ⟨a, w⟩
      rw [List.mem_cons, SortedMap.mem_toList, SortedMap.mem_toList, SortedMap.get_erase]
      by_cases ha : k = a
      · subst ha
        simp [hk, eq_comm]
      · simp [ha, Ne.symm ha]

theorem startingAt_cons {k : K} {v : V} {m : SortedMap K V} (h : m[k]? = some v) :
    ∃ rest, (startingAt k : MapRange K V).list m = (k, v) :: rest :=
  ⟨(m.erase k).toList, by simp only [startingAt, h]⟩

end MapRange

end Bpc

/-
  CAPPED COLLECTIONS — gathering items with distinct keys up to a capacity.

  1. **Room** — if all keys lie in a set of at most `cap` elements, nothing is dropped for want of
     room.
  2. **Rounds** — items come in levels, and the rounds stop at the first that adds nothing.
     Everything is gathered iff no level that only REPEATS is followed by one with a new key
     (`rounds_complete_iff`).
-/
import Mathlib

namespace Bpc.Capped

variable {α κ : Type} [DecidableEq κ]

/-! ## Collections -/

/-- At most `cap` items with distinct keys. -/
@[ext] structure Collection (key : α → κ) (cap : Nat) where
  items : List α
  distinct : (items.map key).Nodup
  bounded : items.length ≤ cap

namespace Collection

variable {key : α → κ} {cap : Nat}

/-- Nothing gathered. -/
def empty : Collection key cap := ⟨[], List.nodup_nil, Nat.zero_le cap⟩

/-- The keys of the items. -/
def keys (c : Collection key cap) : List κ := c.items.map key

/-- Add an item, unless its key is there or there is no room. -/
def add (c : Collection key cap) (x : α) : Collection key cap :=
  if h : key x ∈ c.keys ∨ cap ≤ c.items.length then c
  else
    { items := c.items ++ [x]
      distinct := by
        rw [List.map_append, List.map_singleton, List.nodup_append]
        refine ⟨c.distinct, List.nodup_singleton _, ?_⟩
        intro a ha b hb hab
        obtain rfl := List.mem_singleton.mp hb
        exact h (Or.inl (hab ▸ ha))
      bounded := by
        rw [List.length_append, List.length_singleton]
        omega }

/-- Add one after the other. -/
def addAll (c : Collection key cap) (xs : List α) : Collection key cap := xs.foldl add c

variable {c : Collection key cap} {x : α} {xs : List α} {k : κ}

theorem addAll_cons : c.addAll (x :: xs) = (c.add x).addAll xs := rfl

theorem addAll_append {ys : List α} : c.addAll (xs ++ ys) = (c.addAll xs).addAll ys :=
  List.foldl_append

theorem add_of_mem (h : key x ∈ c.keys) : c.add x = c := dif_pos (Or.inl h)

theorem add_of_full (h : cap ≤ c.items.length) : c.add x = c := dif_pos (Or.inr h)

theorem items_add_of_new (hkey : key x ∉ c.keys) (hroom : c.items.length < cap) :
    (c.add x).items = c.items ++ [x] := by
  have hnew : ¬ (key x ∈ c.keys ∨ cap ≤ c.items.length) := by
    rintro (h | h)
    · exact hkey h
    · omega
  unfold add
  rw [dif_neg hnew]

theorem addAll_of_full (h : cap ≤ c.items.length) : c.addAll xs = c := by
  induction xs with
  | nil => rfl
  | cons x xs ih => rw [addAll_cons, add_of_full h, ih]

theorem add_extends : c.items <+: (c.add x).items := by
  by_cases hkey : key x ∈ c.keys
  · rw [add_of_mem hkey]
  · obtain hroom | hfull := Nat.lt_or_ge c.items.length cap
    · rw [items_add_of_new hkey hroom]
      exact List.prefix_append _ _
    · rw [add_of_full hfull]

theorem addAll_extends : c.items <+: (c.addAll xs).items := by
  induction xs generalizing c with
  | nil => exact List.prefix_rfl
  | cons x xs ih => exact add_extends.trans ih

theorem mem_keys_addAll_of_mem (h : k ∈ c.keys) : k ∈ (c.addAll xs).keys :=
  (List.IsPrefix.map key addAll_extends).subset h

theorem mem_keys_add (h : k ∈ (c.add x).keys) : k ∈ c.keys ∨ key x = k := by
  by_cases hkey : key x ∈ c.keys
  · exact Or.inl (add_of_mem hkey ▸ h)
  · obtain hroom | hfull := Nat.lt_or_ge c.items.length cap
    · unfold keys at h
      rw [items_add_of_new hkey hroom, List.map_append, List.mem_append, List.map_singleton,
        List.mem_singleton] at h
      exact h.imp_right Eq.symm
    · exact Or.inl (add_of_full hfull ▸ h)

theorem mem_keys_addAll (h : k ∈ (c.addAll xs).keys) : k ∈ c.keys ∨ ∃ x ∈ xs, key x = k := by
  induction xs generalizing c with
  | nil => exact Or.inl h
  | cons x xs ih =>
    obtain hk | ⟨y, hy, hk⟩ := ih h
    · exact (mem_keys_add hk).imp_right fun hx => ⟨x, List.mem_cons_self, hx⟩
    · exact Or.inr ⟨y, List.mem_cons_of_mem _ hy, hk⟩

/-! ## Room -/

variable {U : Finset κ}

/-- **A full collection within `cap` keys has all of them.** -/
theorem mem_keys_of_full (hU : U.card ≤ cap) (hc : ∀ k ∈ c.keys, k ∈ U)
    (hfull : cap ≤ c.items.length) (hk : k ∈ U) : k ∈ c.keys := by
  have hsub : c.keys.toFinset ⊆ U := fun a ha => hc a (List.mem_toFinset.mp ha)
  have hcard : c.keys.toFinset.card = c.items.length := by
    unfold keys
    rw [List.toFinset_card_of_nodup c.distinct, List.length_map]
  have heq : c.keys.toFinset = U := Finset.eq_of_subset_of_card_le hsub (by omega)
  exact List.mem_toFinset.mp (heq ▸ hk)

theorem key_mem_add (hU : U.card ≤ cap) (hc : ∀ k ∈ c.keys, k ∈ U) (hx : key x ∈ U) :
    key x ∈ (c.add x).keys := by
  by_cases hkey : key x ∈ c.keys
  · rwa [add_of_mem hkey]
  · obtain hroom | hfull := Nat.lt_or_ge c.items.length cap
    · unfold keys
      rw [items_add_of_new hkey hroom]
      simp
    · exact absurd (mem_keys_of_full hU hc hfull hx) hkey

/-- **Where there is room, every item gets in.** -/
theorem mem_keys_addAll_iff (hU : U.card ≤ cap) (hc : ∀ k ∈ c.keys, k ∈ U)
    (hxs : ∀ x ∈ xs, key x ∈ U) :
    k ∈ (c.addAll xs).keys ↔ k ∈ c.keys ∨ ∃ x ∈ xs, key x = k := by
  refine ⟨mem_keys_addAll, ?_⟩
  induction xs generalizing c with
  | nil =>
    rintro (h | ⟨x, hx, -⟩)
    · exact h
    · cases hx
  | cons x xs ih =>
    have hadd : ∀ k ∈ (c.add x).keys, k ∈ U := by
      intro k hk
      obtain hk | rfl := mem_keys_add hk
      · exact hc k hk
      · exact hxs x List.mem_cons_self
    have hrest : ∀ y ∈ xs, key y ∈ U := fun y hy => hxs y (List.mem_cons_of_mem _ hy)
    rintro (h | ⟨y, hy, rfl⟩)
    · exact mem_keys_addAll_of_mem h
    · obtain rfl | hy := List.mem_cons.mp hy
      · rw [addAll_cons]
        exact mem_keys_addAll_of_mem (key_mem_add hU hc (hxs y List.mem_cons_self))
      · exact ih hadd hrest (Or.inr ⟨y, hy, rfl⟩)

/-- A round that adds nothing brought only known keys, and back. -/
theorem length_addAll_eq_iff (hU : U.card ≤ cap) (hc : ∀ k ∈ c.keys, k ∈ U)
    (hxs : ∀ x ∈ xs, key x ∈ U) :
    (c.addAll xs).items.length = c.items.length ↔ ∀ x ∈ xs, key x ∈ c.keys := by
  constructor
  · intro hlength x hx
    have hsame : c.items = (c.addAll xs).items := addAll_extends.eq_of_length hlength.symm
    have hmem : key x ∈ (c.addAll xs).keys :=
      (mem_keys_addAll_iff hU hc hxs).mpr (Or.inr ⟨x, hx, rfl⟩)
    unfold keys at hmem ⊢
    rwa [hsame]
  · intro hknown
    have hstay : ∀ ys : List α, (∀ y ∈ ys, key y ∈ c.keys) → c.addAll ys = c := by
      intro ys hys
      induction ys with
      | nil => rfl
      | cons y ys ih =>
        rw [addAll_cons, add_of_mem (hys y List.mem_cons_self)]
        exact ih fun z hz => hys z (List.mem_cons_of_mem _ hz)
    rw [hstay xs hknown]

/-! ## Rounds -/

/-- One level a round; `none` if the fuel does not suffice. -/
def rounds (level : Nat → List α) : Nat → Nat → Collection key cap → Option (Collection key cap)
  | 0, _, _ => none
  | fuel + 1, depth, c =>
    if c.items.length < cap then
      if (c.addAll (level depth)).items.length ≠ c.items.length then
        rounds level fuel (depth + 1) (c.addAll (level depth))
      else some (c.addAll (level depth))
    else some c

variable {level : Nat → List α}

/-- **The rounds stop**, and how much fuel there is does not matter. -/
theorem rounds_total (level : Nat → List α) (depth : Nat) (c : Collection key cap) :
    ∃ r, ∀ fuel, cap - c.items.length < fuel → rounds level fuel depth c = some r := by
  -- each round that goes on adds an item, so the room left decreases
  induction hroom : cap - c.items.length using Nat.strong_induction_on generalizing depth c with
  | _ room ih =>
    by_cases hfull : c.items.length < cap
    · by_cases hgrow : (c.addAll (level depth)).items.length ≠ c.items.length
      · have hle : c.items.length ≤ (c.addAll (level depth)).items.length :=
          addAll_extends.length_le
        obtain ⟨r, hr⟩ := ih (cap - (c.addAll (level depth)).items.length) (by omega) (depth + 1)
          (c.addAll (level depth)) rfl
        refine ⟨r, fun fuel hfuel => ?_⟩
        obtain ⟨fuel, rfl⟩ := Nat.exists_eq_succ_of_ne_zero (show fuel ≠ 0 by omega)
        rw [rounds, if_pos hfull, if_pos hgrow]
        exact hr fuel (by omega)
      · refine ⟨c.addAll (level depth), fun fuel hfuel => ?_⟩
        obtain ⟨fuel, rfl⟩ := Nat.exists_eq_succ_of_ne_zero (show fuel ≠ 0 by omega)
        rw [rounds, if_pos hfull, if_neg hgrow]
    · refine ⟨c, fun fuel hfuel => ?_⟩
      obtain ⟨fuel, rfl⟩ := Nat.exists_eq_succ_of_ne_zero (show fuel ≠ 0 by omega)
      rw [rounds, if_neg hfull]

theorem rounds_extends : ∀ {fuel depth : Nat} {c r : Collection key cap},
    rounds level fuel depth c = some r → c.items <+: r.items
  | 0, _, _, _, h => by cases h
  | fuel + 1, depth, c, r, h => by
    rw [rounds] at h
    split at h
    · split at h
      · exact addAll_extends.trans (rounds_extends h)
      · exact Option.some.inj h ▸ addAll_extends
    · exact Option.some.inj h ▸ List.prefix_rfl

/-- The keys of `base` and of the levels from `first` to `d`. -/
def Below (key : α → κ) (base : List κ) (level : Nat → List α) (first d : Nat) (k : κ) : Prop :=
  k ∈ base ∨ ∃ i, first ≤ i ∧ i < d ∧ ∃ x ∈ level i, key x = k

omit [DecidableEq κ] in
theorem Below.mono {base : List κ} {first d e : Nat} (h : Below key base level first d k)
    (hde : d ≤ e) : Below key base level first e k :=
  h.imp_right fun ⟨i, hfirst, hi, hx⟩ => ⟨i, hfirst, by omega, hx⟩

omit [DecidableEq κ] in
theorem below_succ {base : List κ} {first d : Nat} (hd : first ≤ d) :
    Below key base level first (d + 1) k ↔
      Below key base level first d k ∨ ∃ x ∈ level d, key x = k := by
  constructor
  · rintro (h | ⟨i, hfirst, hi, hx⟩)
    · exact Or.inl (Or.inl h)
    · obtain hlt | rfl := Nat.lt_or_eq_of_le (Nat.le_of_lt_succ hi)
      · exact Or.inl (Or.inr ⟨i, hfirst, hlt, hx⟩)
      · exact Or.inr hx
  · rintro (h | hx)
    · exact h.mono (Nat.le_succ d)
    · exact Or.inr ⟨d, hd, Nat.lt_succ_self d, hx⟩

/-- No level that brings nothing new stands before one that does. -/
def NoGap (key : α → κ) (base : List κ) (level : Nat → List α) (first : Nat) : Prop :=
  ∀ d, first ≤ d → (∀ x ∈ level d, Below key base level first d (key x)) →
    ∀ d', d < d' → ∀ x ∈ level d', Below key base level first d (key x)

variable {base : List κ} {first : Nat}

/-- Where the rounds stop; every earlier level brought something. -/
theorem rounds_stops (hU : U.card ≤ cap) (hbase : ∀ k ∈ base, k ∈ U)
    (hlevel : ∀ i, ∀ x ∈ level i, key x ∈ U) :
    ∀ {fuel depth : Nat} {c r : Collection key cap}, first ≤ depth →
      (∀ k, k ∈ c.keys ↔ Below key base level first depth k) →
      rounds level fuel depth c = some r →
      ∃ e, depth ≤ e ∧ (∀ k, k ∈ r.keys ↔ Below key base level first e k) ∧
        (cap ≤ r.items.length ∨ ∀ x ∈ level e, Below key base level first e (key x)) ∧
        ∀ i, depth ≤ i → i < e → ¬ ∀ x ∈ level i, Below key base level first i (key x)
  | 0, _, _, _, _, _, h => by cases h
  | fuel + 1, depth, c, r, hdepth, hkeys, h => by
    have hin : ∀ k ∈ c.keys, k ∈ U := by
      intro k hk
      obtain hk | ⟨i, -, -, x, hx, rfl⟩ := (hkeys k).mp hk
      · exact hbase k hk
      · exact hlevel i x hx
    have hgrows := length_addAll_eq_iff hU hin (hlevel depth)
    rw [rounds] at h
    split at h
    · split at h
      · rename_i hgrow
        -- the round brought something: the keys are those below the next level
        have hnext : ∀ k, k ∈ (c.addAll (level depth)).keys ↔
            Below key base level first (depth + 1) k := by
          intro k
          rw [mem_keys_addAll_iff hU hin (hlevel depth), hkeys k, below_succ hdepth]
        obtain ⟨e, he, hr, hstop, hbefore⟩ :=
          rounds_stops hU hbase hlevel (Nat.le_succ_of_le hdepth) hnext h
        refine ⟨e, by omega, hr, hstop, fun i hi hie => ?_⟩
        obtain rfl | hlt := Nat.eq_or_lt_of_le hi
        · intro hknown
          exact hgrow (hgrows.mpr fun x hx => (hkeys _).mpr (hknown x hx))
        · exact hbefore i hlt hie
      · rename_i hgrow
        have hsame : (c.addAll (level depth)).items.length = c.items.length := by
          by_contra hne
          exact hgrow hne
        have hitems : c = c.addAll (level depth) :=
          Collection.ext (addAll_extends.eq_of_length hsame.symm)
        rw [← hitems] at h
        obtain rfl := Option.some.inj h
        refine ⟨depth, Nat.le_refl depth, hkeys, Or.inr fun x hx => ?_, fun i hi hie => ?_⟩
        · exact (hkeys _).mp (hgrows.mp hsame x hx)
        · omega
    · rename_i hfull
      obtain rfl := Option.some.inj h
      exact ⟨depth, Nat.le_refl depth, hkeys, Or.inl (Nat.le_of_not_lt hfull),
        fun i hi hie => by omega⟩

/-- **Where there is room, everything is gathered iff there is no gap.** -/
theorem rounds_complete_iff (hU : U.card ≤ cap)
    (hall : ∀ k, k ∈ U ↔ k ∈ base ∨ ∃ i, first ≤ i ∧ ∃ x ∈ level i, key x = k)
    (hlevel : ∀ i, ∀ x ∈ level i, key x ∈ U)
    {fuel : Nat} {c r : Collection key cap} (hkeys : ∀ k, k ∈ c.keys ↔ k ∈ base)
    (h : rounds level fuel first c = some r) :
    (∀ k ∈ U, k ∈ r.keys) ↔ NoGap key base level first := by
  have hbase : ∀ k ∈ base, k ∈ U := fun k hk => (hall k).mpr (Or.inl hk)
  have hstart : ∀ k, k ∈ c.keys ↔ Below key base level first first k := by
    intro k
    rw [hkeys k]
    exact ⟨Or.inl, fun hk => hk.resolve_right fun ⟨i, hi, hlt, _⟩ => by omega⟩
  obtain ⟨e, he, hr, hstop, hbefore⟩ :=
    rounds_stops hU hbase hlevel (Nat.le_refl first) hstart h
  constructor
  · intro hcomplete d hd hknown d' hd' x hx
    -- the rounds did not go beyond `d`
    have hed : e ≤ d := by
      by_contra hlt
      exact hbefore d hd (by omega) hknown
    exact ((hr _).mp (hcomplete _ (hlevel d' x hx))).mono hed
  · intro hgap k hk
    obtain hfull | hknown := hstop
    · refine mem_keys_of_full hU (fun a ha => ?_) hfull hk
      obtain ha | ⟨i, -, -, x, hx, rfl⟩ := (hr a).mp ha
      · exact hbase a ha
      · exact hlevel i x hx
    · rw [hr k]
      obtain hk | ⟨i, hi, x, hx, rfl⟩ := (hall k).mp hk
      · exact Or.inl hk
      · obtain hlt | heq | hgt := Nat.lt_trichotomy i e
        · exact Or.inr ⟨i, hi, hlt, x, hx, rfl⟩
        · exact hknown x (heq ▸ hx)
        · exact hgap e he hknown i hgt x hx

end Collection

end Bpc.Capped

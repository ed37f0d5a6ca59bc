/-
  CIDR BLOCKS — networks as nodes of the binary tree over addresses of `w` bits.

  The MEANING of a block is a set of addresses; two blocks are nested or disjoint
  (`subset_of_mem`). `exclude` halves (`mem_exclude`), `collapse` gives the MAXIMAL blocks of a
  union (`maximal_collapse`), `subtract` removes one block after the other (`mem_subtract`).
-/
import Bpc.Lib.Prefix4
import Mathlib

namespace Bpc

/-- A block of addresses of `w` bits. -/
structure Cidr (w : Nat) where
  index : Nat
  bits : Nat
  bits_le : bits ≤ w
  index_lt : index < 2 ^ bits
  deriving DecidableEq

namespace Cidr

variable {w : Nat}

/-! ## The set of addresses -/

/-- The number of addresses. -/
def size (c : Cidr w) : Nat := 2 ^ (w - c.bits)

theorem size_pos (c : Cidr w) : 0 < c.size := Nat.two_pow_pos _

instance : Membership Nat (Cidr w) := ⟨fun c a => a / c.size = c.index⟩

variable {a : Nat} {c : Cidr w}

theorem mem_def : a ∈ c ↔ a / c.size = c.index := Iff.rfl

instance (a : Nat) (c : Cidr w) : Decidable (a ∈ c) := inferInstanceAs (Decidable (_ = _))

/-- `network_address`. -/
def first (c : Cidr w) : Nat := c.index * c.size

/-- `broadcast_address`. -/
def last (c : Cidr w) : Nat := c.index * c.size + (c.size - 1)

theorem mem_iff_range : a ∈ c ↔ c.first ≤ a ∧ a ≤ c.last := by
  have hpos := c.size_pos
  rw [mem_def, Nat.div_eq_iff hpos]
  show c.index * c.size ≤ a ∧ a ≤ c.index * c.size + c.size - 1 ↔ _
  rw [Nat.add_sub_assoc hpos]
  exact Iff.rfl

theorem first_mem (c : Cidr w) : c.first ∈ c := by
  rw [mem_def, first, Nat.mul_div_cancel _ c.size_pos]

theorem last_mem (c : Cidr w) : c.last ∈ c :=
  mem_iff_range.mpr ⟨Nat.le_add_right _ _, Nat.le_refl _⟩

theorem lt_of_mem (h : a ∈ c) : a < 2 ^ w := by
  have hdiv : a / c.size < 2 ^ c.bits := by
    rw [mem_def.mp h]
    exact c.index_lt
  have hpow : 2 ^ c.bits * c.size = 2 ^ w := by
    rw [size, ← pow_add]
    congr 1
    have := c.bits_le
    omega
  rw [← hpow]
  exact (Nat.div_lt_iff_lt_mul c.size_pos).mp hdiv

theorem div_level {j k : Nat} (hjk : j ≤ k) (hk : k ≤ w) :
    a / 2 ^ (w - j) = a / 2 ^ (w - k) / 2 ^ (k - j) := by
  rw [Nat.div_div_eq_div_mul, ← pow_add]
  congr 2
  omega

variable {d : Cidr w}

/-- **Blocks are nested or disjoint.** -/
theorem subset_of_mem (hc : a ∈ c) (hd : a ∈ d) (hbits : d.bits ≤ c.bits) : ∀ b ∈ c, b ∈ d := by
  intro b hb
  have hlevel := fun x => div_level (w := w) (a := x) hbits c.bits_le
  show b / 2 ^ (w - d.bits) = d.index
  calc b / 2 ^ (w - d.bits) = b / c.size / 2 ^ (c.bits - d.bits) := hlevel b
    _ = a / c.size / 2 ^ (c.bits - d.bits) := by rw [mem_def.mp hb, mem_def.mp hc]
    _ = a / 2 ^ (w - d.bits) := (hlevel a).symm
    _ = d.index := hd

/-! ## Halves -/

/-- The first half. -/
def lower (c : Cidr w) (h : c.bits < w) : Cidr w where
  index := 2 * c.index
  bits := c.bits + 1
  bits_le := h
  index_lt := by
    have := c.index_lt
    rw [pow_succ]
    omega

/-- The second half. -/
def upper (c : Cidr w) (h : c.bits < w) : Cidr w where
  index := 2 * c.index + 1
  bits := c.bits + 1
  bits_le := h
  index_lt := by
    have := c.index_lt
    rw [pow_succ]
    omega

theorem size_half (h : c.bits < w) : c.size = 2 * (c.lower h).size := by
  show 2 ^ (w - c.bits) = 2 * 2 ^ (w - (c.bits + 1))
  rw [← pow_succ']
  congr 1
  omega

theorem mem_halves (h : c.bits < w) : a ∈ c ↔ a ∈ c.lower h ∨ a ∈ c.upper h := by
  have hsize := size_half h
  show a / c.size = c.index ↔ a / (c.lower h).size = 2 * c.index ∨
    a / (c.lower h).size = 2 * c.index + 1
  rw [hsize, Nat.mul_comm 2, ← Nat.div_div_eq_div_mul]
  omega

theorem lower_lt_upper {b : Nat} (h : c.bits < w) (ha : a ∈ c.lower h) (hb : b ∈ c.upper h) :
    a < b := by
  have ha : a / (c.lower h).size = 2 * c.index := ha
  have hb : b / (c.lower h).size = 2 * c.index + 1 := hb
  refine Nat.lt_of_not_le fun hle => ?_
  have := Nat.div_le_div_right (c := (c.lower h).size) hle
  omega

/-! ## Containment -/

theorem bits_le_of_subset (h : ∀ a ∈ c, a ∈ d) : d.bits ≤ c.bits := by
  refine Nat.le_of_not_lt fun hlt => ?_
  have hw : c.bits < w := Nat.lt_of_lt_of_le hlt d.bits_le
  -- the halves of `c` meet in `d`, so `d` would be inside both
  have hlow := first_mem (c.lower hw)
  have hupp := first_mem (c.upper hw)
  have hlow' := h _ ((mem_halves hw).mpr (.inl hlow))
  have hupp' := h _ ((mem_halves hw).mpr (.inr hupp))
  have hin := subset_of_mem hlow' hlow hlt _ hupp'
  exact Nat.lt_irrefl _ (lower_lt_upper hw hin hupp)

theorem ext_of_subset (hcd : ∀ a ∈ c, a ∈ d) (hdc : ∀ a ∈ d, a ∈ c) : c = d := by
  have hbits : c.bits = d.bits := Nat.le_antisymm (bits_le_of_subset hdc) (bits_le_of_subset hcd)
  have hfirst := hcd _ c.first_mem
  have hindex : c.index = d.index := by
    rw [← mem_def.mp c.first_mem, ← mem_def.mp hfirst, size, size, hbits]
  cases c
  cases d
  simp only [mk.injEq]
  exact ⟨hindex, hbits⟩

/-- `c.subnet_of(d)`. -/
def subnetOf (c d : Cidr w) : Bool := decide (d.first ≤ c.first) && decide (c.last ≤ d.last)

theorem subnetOf_iff : c.subnetOf d = true ↔ ∀ a ∈ c, a ∈ d := by
  rw [subnetOf, Bool.and_eq_true, decide_eq_true_eq, decide_eq_true_eq]
  constructor
  · rintro ⟨hfirst, hlast⟩ a ha
    obtain ⟨h1, h2⟩ := mem_iff_range.mp ha
    exact mem_iff_range.mpr ⟨hfirst.trans h1, h2.trans hlast⟩
  · intro h
    exact ⟨(mem_iff_range.mp (h _ c.first_mem)).1, (mem_iff_range.mp (h _ c.last_mem)).2⟩

/-- `c.overlaps(d)`: some first or last address lies in the other block. -/
def overlaps (c d : Cidr w) : Bool :=
  decide (d.first ∈ c) || decide (d.last ∈ c) || decide (c.first ∈ d) || decide (c.last ∈ d)

theorem subset_or_subset (hc : a ∈ c) (hd : a ∈ d) : (∀ b ∈ c, b ∈ d) ∨ ∀ b ∈ d, b ∈ c := by
  rcases Nat.le_total d.bits c.bits with h | h
  · exact .inl (subset_of_mem hc hd h)
  · exact .inr (subset_of_mem hd hc h)

theorem overlaps_iff : c.overlaps d = true ↔ ∃ a, a ∈ c ∧ a ∈ d := by
  rw [overlaps, Bool.or_eq_true, Bool.or_eq_true, Bool.or_eq_true, decide_eq_true_eq,
    decide_eq_true_eq, decide_eq_true_eq, decide_eq_true_eq]
  constructor
  · rintro (((h | h) | h) | h)
    · exact ⟨_, h, d.first_mem⟩
    · exact ⟨_, h, d.last_mem⟩
    · exact ⟨_, c.first_mem, h⟩
    · exact ⟨_, c.last_mem, h⟩
  · rintro ⟨a, hc, hd⟩
    rcases subset_or_subset hc hd with h | h
    · exact .inl (.inr (h _ c.first_mem))
    · exact .inl (.inl (.inl (h _ d.first_mem)))

/-! ## Exclusion -/

/-- The halving loop of `address_exclude`. -/
def excludeLoop (d : Cidr w) : Nat → Cidr w → List (Cidr w)
  | 0, _ => []
  | n + 1, c =>
    if h : c.bits < w then
      if d.subnetOf (c.lower h) then c.upper h :: excludeLoop d n (c.lower h)
      else c.lower h :: excludeLoop d n (c.upper h)
    else []

/-- `list(c.address_exclude(d))`, of a block `d` inside `c`. -/
def exclude (c d : Cidr w) : List (Cidr w) := excludeLoop d (d.bits - c.bits) c

theorem mem_excludeLoop {n : Nat} (hdc : ∀ a ∈ d, a ∈ c) (hn : d.bits = c.bits + n) (a : Nat) :
    (∃ e ∈ excludeLoop d n c, a ∈ e) ↔ a ∈ c ∧ a ∉ d := by
  induction n generalizing c with
  | zero =>
    have hcd : ∀ a ∈ c, a ∈ d := subset_of_mem (hdc _ d.first_mem) d.first_mem (by omega)
    constructor
    · rintro ⟨e, he, _⟩
      cases he
    · rintro ⟨hc, hd⟩
      exact absurd (hcd a hc) hd
  | succ n ih =>
    have hw : c.bits < w := by
      have := d.bits_le
      omega
    rw [excludeLoop, dif_pos hw]
    -- `d` lies in the half that its first address lies in
    have hhalf := (mem_halves hw).mp (hdc _ d.first_mem)
    have hdisjoint : ∀ b, b ∈ c.lower hw → b ∉ c.upper hw :=
      fun b hl hu => Nat.lt_irrefl _ (lower_lt_upper hw hl hu)
    by_cases hlow : d.subnetOf (c.lower hw) = true
    · have hsub := subnetOf_iff.mp hlow
      rw [if_pos hlow]
      simp only [List.mem_cons, exists_eq_or_imp]
      rw [ih hsub (by show d.bits = c.bits + 1 + n; omega), mem_halves hw]
      constructor
      · rintro (hu | ⟨hl, hd⟩)
        · exact ⟨.inr hu, fun hd => hdisjoint a (hsub a hd) hu⟩
        · exact ⟨.inl hl, hd⟩
      · rintro ⟨hl | hu, hd⟩
        · exact .inr ⟨hl, hd⟩
        · exact .inl hu
    · have hupp : d.first ∈ c.upper hw := by
        refine hhalf.resolve_left fun hl => hlow (subnetOf_iff.mpr ?_)
        exact subset_of_mem d.first_mem hl (by show c.bits + 1 ≤ d.bits; omega)
      have hsub : ∀ b ∈ d, b ∈ c.upper hw :=
        subset_of_mem d.first_mem hupp (by show c.bits + 1 ≤ d.bits; omega)
      rw [if_neg hlow]
      simp only [List.mem_cons, exists_eq_or_imp]
      rw [ih hsub (by show d.bits = c.bits + 1 + n; omega), mem_halves hw]
      constructor
      · rintro (hl | ⟨hu, hd⟩)
        · exact ⟨.inl hl, fun hd => hdisjoint a hl (hsub a hd)⟩
        · exact ⟨.inr hu, hd⟩
      · rintro ⟨hl | hu, hd⟩
        · exact .inl hl
        · exact .inr ⟨hu, hd⟩

/-- **Exclusion removes exactly the addresses of the inner block.** -/
theorem mem_exclude (h : ∀ a ∈ d, a ∈ c) (a : Nat) : (∃ e ∈ c.exclude d, a ∈ e) ↔ a ∈ c ∧ a ∉ d :=
  mem_excludeLoop h (by have := bits_le_of_subset h; omega) a

/-! ## Collapse -/

/-- All addresses. -/
def root : Cidr w := ⟨0, 0, Nat.zero_le _, Nat.one_pos⟩

theorem mem_root (h : a < 2 ^ w) : a ∈ (root : Cidr w) := Nat.div_eq_of_lt h

/-- The maximal blocks of the union inside `c`, in order. -/
def collapseIn (nets : List (Cidr w)) : Nat → Cidr w → List (Cidr w)
  | 0, c => if nets.any c.subnetOf then [c] else []
  | n + 1, c =>
    if nets.any c.subnetOf then [c]
    else if nets.all fun d => !c.overlaps d then []
    else if h : c.bits < w then
      let low := collapseIn nets n (c.lower h)
      let upp := collapseIn nets n (c.upper h)
      if low = [c.lower h] ∧ upp = [c.upper h] then [c] else low ++ upp
    else []

/-- `list(collapse_addresses(nets))`. -/
def collapse (nets : List (Cidr w)) : List (Cidr w) := collapseIn nets w root

/-- All addresses of the first block are below those of the second. -/
def Before (c d : Cidr w) : Prop := ∀ a ∈ c, ∀ b ∈ d, a < b

/-- The maximal blocks of a set inside `c`, in order. -/
structure Maximal (inside : Nat → Prop) (c : Cidr w) (blocks : List (Cidr w)) : Prop where
  mem : ∀ a, (∃ e ∈ blocks, a ∈ e) ↔ a ∈ c ∧ inside a
  ordered : blocks.Pairwise Before
  maximal : ∀ e ∈ blocks, ∀ m : Cidr w, (∀ a ∈ e, a ∈ m) → (∀ a ∈ m, a ∈ c) →
    (∀ a ∈ m, inside a) → m = e

variable {inside : Nat → Prop} {c : Cidr w}

theorem Maximal.subset {blocks : List (Cidr w)} (h : Maximal inside c blocks) {e : Cidr w}
    (he : e ∈ blocks) : ∀ a ∈ e, a ∈ c :=
  fun a ha => ((h.mem a).mp ⟨e, he, ha⟩).1

theorem Maximal.whole (h : ∀ a ∈ c, inside a) : Maximal inside c [c] where
  mem := fun a => by
    simp only [List.mem_singleton, exists_eq_left]
    exact ⟨fun ha => ⟨ha, h a ha⟩, fun ha => ha.1⟩
  ordered := List.pairwise_singleton _ _
  maximal := fun e he m hem hmc _ => by
    obtain rfl := List.mem_singleton.mp he
    exact ext_of_subset hmc hem

theorem Maximal.empty (h : ∀ a ∈ c, ¬ inside a) : Maximal inside c [] where
  mem := fun a => by
    constructor
    · rintro ⟨e, he, _⟩
      cases he
    · rintro ⟨ha, hin⟩
      exact absurd hin (h a ha)
  ordered := List.Pairwise.nil
  maximal := fun e he => by cases he

theorem Maximal.eq_whole {blocks : List (Cidr w)} (h : Maximal inside c blocks)
    (hin : ∀ a ∈ c, inside a) : blocks = [c] := by
  have hall : ∀ e ∈ blocks, e = c := fun e he =>
    (h.maximal e he c (h.subset he) (fun a ha => ha) hin).symm
  cases blocks with
  | nil =>
    obtain ⟨e, he, _⟩ := (h.mem c.first).mpr ⟨c.first_mem, hin _ c.first_mem⟩
    cases he
  | cons e rest =>
    obtain rfl := hall e List.mem_cons_self
    cases rest with
    | nil => rfl
    | cons e' rest =>
      obtain rfl := hall e' (List.mem_cons_of_mem _ List.mem_cons_self)
      -- the same block twice is not in order
      have := (List.pairwise_cons.mp h.ordered).1 e' List.mem_cons_self
      exact absurd (this _ e'.first_mem _ e'.first_mem) (Nat.lt_irrefl _)

theorem Maximal.append (hw : c.bits < w) {low upp : List (Cidr w)}
    (hlow : Maximal inside (c.lower hw) low) (hupp : Maximal inside (c.upper hw) upp)
    (hnot : ¬ (low = [c.lower hw] ∧ upp = [c.upper hw])) : Maximal inside c (low ++ upp) where
  mem := fun a => by
    simp only [List.mem_append, or_and_right, exists_or]
    rw [hlow.mem, hupp.mem, mem_halves hw, or_and_right]
  ordered := by
    refine List.pairwise_append.mpr ⟨hlow.ordered, hupp.ordered, ?_⟩
    intro d hd e he a ha b hb
    exact lower_lt_upper hw (hlow.subset hd a ha) (hupp.subset he b hb)
  maximal := by
    intro e he m hem hmc hin
    have hfirst := e.first_mem
    -- a larger block would be all of `c`, and then both halves were whole
    have hdeeper : c.bits < m.bits := by
      refine Nat.lt_of_not_le fun hle => hnot ?_
      have hcm : ∀ a ∈ c, a ∈ m := subset_of_mem (hmc _ m.first_mem) m.first_mem hle
      exact ⟨hlow.eq_whole fun a ha => hin a (hcm a ((mem_halves hw).mpr (.inl ha))),
        hupp.eq_whole fun a ha => hin a (hcm a ((mem_halves hw).mpr (.inr ha)))⟩
    rcases List.mem_append.mp he with he | he
    · exact hlow.maximal e he m hem
        (subset_of_mem (hem _ hfirst) (hlow.subset he _ hfirst) hdeeper) hin
    · exact hupp.maximal e he m hem
        (subset_of_mem (hem _ hfirst) (hupp.subset he _ hfirst) hdeeper) hin

theorem maximal_collapseIn (nets : List (Cidr w)) {n : Nat} (hn : c.bits + n = w) :
    Maximal (fun a => ∃ d ∈ nets, a ∈ d) c (collapseIn nets n c) := by
  have hcovered : ∀ e : Cidr w, nets.any e.subnetOf = true → ∀ a ∈ e, ∃ d ∈ nets, a ∈ d := by
    intro e he a ha
    obtain ⟨d, hd, hsub⟩ := List.any_eq_true.mp he
    exact ⟨d, hd, subnetOf_iff.mp hsub a ha⟩
  induction n generalizing c with
  | zero =>
    rw [collapseIn]
    split
    · rename_i hany
      exact .whole (hcovered c hany)
    · rename_i hnone
      -- one address: a block that has it contains all of `c`
      refine .empty fun a ha ⟨d, hd, had⟩ => hnone (List.any_eq_true.mpr ⟨d, hd, ?_⟩)
      exact subnetOf_iff.mpr (subset_of_mem ha had (by have := d.bits_le; omega))
  | succ n ih =>
    have hw : c.bits < w := by omega
    rw [collapseIn]
    split
    · rename_i hany
      exact .whole (hcovered c hany)
    split
    · rename_i hapart
      refine .empty fun a ha ⟨d, hd, had⟩ => ?_
      have hfalse := List.all_eq_true.mp hapart d hd
      rw [overlaps_iff.mpr ⟨a, ha, had⟩] at hfalse
      cases hfalse
    dsimp only
    have hlow := ih (c := c.lower hw) (by show c.bits + 1 + n = w; omega)
    have hupp := ih (c := c.upper hw) (by show c.bits + 1 + n = w; omega)
    split
    · rename_i hboth
      refine .whole fun a ha => ?_
      rcases (mem_halves hw).mp ha with h | h
      · exact ((hlow.mem a).mp ⟨_, hboth.1 ▸ List.mem_cons_self, h⟩).2
      · exact ((hupp.mem a).mp ⟨_, hboth.2 ▸ List.mem_cons_self, h⟩).2
    · rename_i hnot
      exact hlow.append hw hupp hnot

/-- **Collapsing**: the same addresses, in maximal blocks, in order. -/
theorem maximal_collapse (nets : List (Cidr w)) :
    Maximal (fun a => ∃ d ∈ nets, a ∈ d) root (collapse nets) :=
  maximal_collapseIn nets (Nat.zero_add w)

theorem mem_collapse (nets : List (Cidr w)) (a : Nat) :
    (∃ e ∈ collapse nets, a ∈ e) ↔ ∃ d ∈ nets, a ∈ d := by
  rw [(maximal_collapse nets).mem a]
  constructor
  · exact fun h => h.2
  · rintro ⟨d, hd, ha⟩
    exact ⟨mem_root (lt_of_mem ha), d, hd, ha⟩

theorem unmergeable {nets : List (Cidr w)} (hc : c ∈ collapse nets) (hd : d ∈ collapse nets)
    (hne : c ≠ d) : ¬ ∃ m : Cidr w, ∀ a, a ∈ m ↔ a ∈ c ∨ a ∈ d := by
  rintro ⟨m, hm⟩
  have hmaximal := maximal_collapse nets
  have hroot : ∀ a ∈ m, a ∈ (root : Cidr w) := fun a ha => mem_root (lt_of_mem ha)
  have hin : ∀ a ∈ m, ∃ e ∈ nets, a ∈ e := by
    intro a ha
    rcases (hm a).mp ha with h | h
    · exact (mem_collapse nets a).mp ⟨c, hc, h⟩
    · exact (mem_collapse nets a).mp ⟨d, hd, h⟩
  have hmc := hmaximal.maximal c hc m (fun a ha => (hm a).mpr (.inl ha)) hroot hin
  have hmd := hmaximal.maximal d hd m (fun a ha => (hm a).mpr (.inr ha)) hroot hin
  exact hne (hmc.symm.trans hmd)

/-! ## Subtraction -/

/-- Remove a block from a list of blocks. -/
def removeOne (d : Cidr w) (c : Cidr w) : List (Cidr w) :=
  if ¬ c.overlaps d then [c]
  else if c.subnetOf d then []
  else if d.subnetOf c then c.exclude d
  else []

theorem mem_removeOne (c d : Cidr w) (a : Nat) :
    (∃ e ∈ removeOne d c, a ∈ e) ↔ a ∈ c ∧ a ∉ d := by
  unfold removeOne
  split
  · rename_i hapart
    simp only [List.mem_singleton, exists_eq_left]
    exact ⟨fun hc => ⟨hc, fun hd => hapart (overlaps_iff.mpr ⟨a, hc, hd⟩)⟩, fun h => h.1⟩
  rename_i hmeet
  split
  · rename_i hsub
    constructor
    · rintro ⟨e, he, _⟩
      cases he
    · rintro ⟨hc, hd⟩
      exact absurd (subnetOf_iff.mp hsub a hc) hd
  rename_i hsub
  split
  · rename_i hinside
    exact mem_exclude (subnetOf_iff.mp hinside) a
  · rename_i hinside
    -- blocks that overlap are nested
    obtain ⟨b, hc, hd⟩ := overlaps_iff.mp (not_not.mp hmeet)
    rcases subset_or_subset hc hd with h | h
    · exact absurd (subnetOf_iff.mpr h) hsub
    · exact absurd (subnetOf_iff.mpr h) hinside

/-- Remove one block after the other. -/
def subtract (allows denies : List (Cidr w)) : List (Cidr w) :=
  denies.foldl (fun fragments deny => fragments.flatMap (removeOne deny)) allows

/-- **Subtraction**: in the first list and in no block of the second. -/
theorem mem_subtract (allows denies : List (Cidr w)) (a : Nat) :
    (∃ e ∈ subtract allows denies, a ∈ e) ↔ (∃ c ∈ allows, a ∈ c) ∧ ∀ d ∈ denies, a ∉ d := by
  unfold subtract
  induction denies generalizing allows with
  | nil => simp
  | cons deny denies ih =>
    rw [List.foldl_cons, ih]
    have hone : (∃ e ∈ allows.flatMap (removeOne deny), a ∈ e) ↔
        (∃ c ∈ allows, a ∈ c) ∧ a ∉ deny := by
      constructor
      · rintro ⟨e, he, ha⟩
        obtain ⟨c, hc, hec⟩ := List.mem_flatMap.mp he
        obtain ⟨hac, hnot⟩ := (mem_removeOne c deny a).mp ⟨e, hec, ha⟩
        exact ⟨⟨c, hc, hac⟩, hnot⟩
      · rintro ⟨⟨c, hc, hac⟩, hnot⟩
        obtain ⟨e, he, ha⟩ := (mem_removeOne c deny a).mpr ⟨hac, hnot⟩
        exact ⟨e, List.mem_flatMap.mpr ⟨c, hc, he⟩, ha⟩
    rw [hone]
    simp only [List.mem_cons, forall_eq_or_imp, and_assoc]

/-! ## Prefixes -/

/-- The block of a prefix: its host bits are cleared. -/
def ofPrefix (p : Prefix4) : Cidr 32 where
  index := p.addr / Prefix4.block p.bits
  bits := p.bits
  bits_le := p.bits_le
  index_lt := by
    have hpow : 2 ^ p.bits * Prefix4.block p.bits = 2 ^ 32 := by
      rw [Prefix4.block, ← pow_add]
      congr 1
      have := p.bits_le
      omega
    rw [Nat.div_lt_iff_lt_mul (Prefix4.block_pos _), hpow]
    exact p.addr_lt

theorem mem_ofPrefix {p : Prefix4} : a ∈ ofPrefix p ↔ a ∈ p :=
  ⟨fun h => ⟨lt_of_mem h, h⟩, fun h => h.2⟩

/-- The prefix whose address is the first one of the block. -/
def toPrefix (c : Cidr 32) : Prefix4 where
  addr := c.first
  bits := c.bits
  addr_lt := lt_of_mem c.first_mem
  bits_le := c.bits_le

theorem ofPrefix_toPrefix (c : Cidr 32) : ofPrefix c.toPrefix = c := by
  have hindex : c.first / Prefix4.block c.bits = c.index := c.first_mem
  cases c
  simp only [ofPrefix, toPrefix, mk.injEq, and_true]
  exact hindex

end Cidr

end Bpc

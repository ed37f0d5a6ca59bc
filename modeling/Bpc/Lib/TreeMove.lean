/-
  MOVING AND COPYING in a file tree: `place` one entry, list what is `below` a directory, rename
  (`moveDir`).

  `Scan` is any order of a walk that reaches a directory before what is in it.
-/
import Bpc.Lib.FileTree

namespace Bpc

namespace FileTree

variable {N D : Type} {p : List N}

/-! ## Paths -/

theorem above_dropLast {a : List N} (ha : Above a p) : a <+: p.dropLast := by
  obtain ⟨rest, hrest⟩ := ha.1
  have hne : rest ≠ [] := by
    rintro rfl
    exact ha.2 (by rw [← hrest, List.append_nil])
  rw [← hrest, List.dropLast_append_of_ne_nil hne]
  exact List.prefix_append _ _

section Relative

variable [DecidableEq N]

/-- `p` relative to `root`. -/
def relative (root p : List N) : Option (List N) :=
  if root <+: p then some (p.drop root.length) else none

theorem relative_eq_some {root rel : List N} : relative root p = some rel ↔ p = root ++ rel := by
  unfold relative
  constructor
  · intro h
    split at h
    · next hpre =>
      cases h
      obtain ⟨rest, rfl⟩ := hpre
      rw [List.drop_left]
    · cases h
  · rintro rfl
    rw [if_pos (List.prefix_append _ _), List.drop_left]

end Relative

variable [Ord N] [Std.TransOrd N] [Std.LawfulEqOrd N] {t : FileTree N D}

theorem get_above_dropLast {a : List N} (hparent : t.get p.dropLast = some .dir) (ha : Above a p) :
    t.get a = some .dir := by
  have hlast := above_dropLast ha
  by_cases heq : a = p.dropLast
  · rw [heq]
    exact hparent
  · exact get_above (by rw [hparent]; simp) ⟨hlast, heq⟩

variable [DecidableEq N] {n : Node D}

/-! ## What lies below a directory -/

/-- The entries strictly below `root`, by relative path. -/
def below (t : FileTree N D) (root : List N) : SortedMap (List N) (Node D) :=
  SortedMap.insertPairs ∅ (t.nodes.toList.filterMap fun e =>
    (relative root e.1).bind fun rel => if rel = [] then none else some (rel, e.2))

theorem mem_below {root rel : List N} :
    (rel, n) ∈ (t.nodes.toList.filterMap fun e =>
      (relative root e.1).bind fun rel => if rel = [] then none else some (rel, e.2)) ↔
        rel ≠ [] ∧ t.get (root ++ rel) = some n := by
  rw [List.mem_filterMap]
  constructor
  · rintro ⟨⟨p, m⟩, hmem, heq⟩
    obtain ⟨rel', hrel, hif⟩ := Option.bind_eq_some_iff.mp heq
    split at hif
    · cases hif
    · next hne =>
      cases hif
      have hp : p = root ++ rel := relative_eq_some.mp hrel
      exact ⟨hne, hp ▸ SortedMap.mem_toList.mp hmem⟩
  · rintro ⟨hne, hget⟩
    refine ⟨(root ++ rel, n), SortedMap.mem_toList.mpr hget, ?_⟩
    rw [show relative root (root ++ rel) = some rel from relative_eq_some.mpr rfl]
    show (if rel = [] then none else some (rel, n)) = some (rel, n)
    rw [if_neg hne]

theorem get_below (t : FileTree N D) (root rel : List N) :
    (t.below root)[rel]? = if rel = [] then none else t.get (root ++ rel) := by
  cases hget : (t.below root)[rel]? with
  | some n =>
    rcases SortedMap.mem_of_get_insertPairs hget with hmem | hempty
    · obtain ⟨hne, h⟩ := mem_below.mp hmem
      rw [if_neg hne, h]
    · rw [SortedMap.get_empty] at hempty
      cases hempty
  | none =>
    by_cases hne : rel = []
    · rw [if_pos hne]
    · rw [if_neg hne]
      cases hget' : t.get (root ++ rel) with
      | none => rfl
      | some n =>
        have hmem := mem_below.mpr ⟨hne, hget'⟩
        exact absurd hget (SortedMap.get_insertPairs_ne_none (Or.inl ⟨n, hmem⟩))

/-! ## Moving a directory -/

/-- What lies at or below `src` is moved to `dst`. -/
def moveNodes (t : FileTree N D) (src dst : List N) : SortedMap (List N) (Node D) :=
  SortedMap.insertPairs (t.nodes.filter fun p _ => !decide (src <+: p))
    (t.nodes.toList.filterMap fun e => (relative src e.1).map fun rel => (dst ++ rel, e.2))

variable {src dst : List N}

theorem mem_moved :
    (p, n) ∈ (t.nodes.toList.filterMap fun e =>
      (relative src e.1).map fun rel => (dst ++ rel, e.2)) ↔
        ∃ rel, p = dst ++ rel ∧ t.get (src ++ rel) = some n := by
  rw [List.mem_filterMap]
  constructor
  · rintro ⟨⟨q, m⟩, hmem, heq⟩
    obtain ⟨rel, hrel, hpair⟩ := Option.map_eq_some_iff.mp heq
    cases hpair
    have hq : q = src ++ rel := relative_eq_some.mp hrel
    exact ⟨rel, rfl, hq ▸ SortedMap.mem_toList.mp hmem⟩
  · rintro ⟨rel, rfl, hget⟩
    refine ⟨(src ++ rel, n), SortedMap.mem_toList.mpr hget, ?_⟩
    rw [show relative src (src ++ rel) = some rel from relative_eq_some.mpr rfl]
    rfl

/-- Where nothing lies at `dst`, the look-up is by relative path. -/
theorem get_moveNodes (hfree : t.get dst = none) (r : List N) :
    (t.moveNodes src dst)[r]? =
      match relative dst r with
      | some rel => t.get (src ++ rel)
      | none => if src <+: r then none else t.get r := by
  have hfilter : (t.nodes.filter fun p _ => !decide (src <+: p))[r]? =
      if src <+: r then none else t.get r := by
    rw [SortedMap.get_filter]
    by_cases hsrc : src <+: r <;> simp [hsrc, get]
  cases hrel : relative dst r with
  | none =>
    dsimp only
    unfold moveNodes
    rw [SortedMap.get_insertPairs_outside, hfilter]
    intro hmem
    obtain ⟨⟨q, n⟩, hpair, rfl⟩ := List.mem_map.mp hmem
    obtain ⟨rel, hq, -⟩ := mem_moved.mp hpair
    rw [relative_eq_some.mpr hq] at hrel
    cases hrel
  | some rel =>
    have hr : r = dst ++ rel := relative_eq_some.mp hrel
    subst hr
    dsimp only
    -- nothing was there, so whatever is found was moved there
    have hold : (t.nodes.filter fun p _ => !decide (src <+: p))[dst ++ rel]? = none := by
      rw [hfilter]
      split
      · rfl
      · by_contra hne
        by_cases hnil : rel = []
        · rw [hnil, List.append_nil] at hne
          exact hne hfree
        · have habove : Above dst (dst ++ rel) :=
            ⟨List.prefix_append _ _, fun h => hnil (List.self_eq_append_right.mp h)⟩
          rw [get_above hne habove] at hfree
          cases hfree
    cases hget : t.get (src ++ rel) with
    | none =>
      unfold moveNodes
      rw [SortedMap.get_insertPairs_outside, hold]
      intro hmem
      obtain ⟨⟨q, n⟩, hpair, hq⟩ := List.mem_map.mp hmem
      obtain ⟨rel', hq', hget'⟩ := mem_moved.mp hpair
      have hsame : rel' = rel := List.append_cancel_left (hq'.symm.trans hq)
      rw [hsame, hget] at hget'
      cases hget'
    | some n =>
      cases hfound : (t.moveNodes src dst)[dst ++ rel]? with
      | none =>
        refine absurd hfound (SortedMap.get_insertPairs_ne_none (Or.inl ⟨n, ?_⟩))
        exact mem_moved.mpr ⟨rel, rfl, hget⟩
      | some m =>
        rcases SortedMap.mem_of_get_insertPairs hfound with hmem | hkept
        · obtain ⟨rel', hq, hget'⟩ := mem_moved.mp hmem
          have hsame : rel = rel' := List.append_cancel_left hq
          rw [← hsame, hget] at hget'
          exact hget'.symm
        · rw [hold] at hkept
          cases hkept

variable [DecidableEq D]

/-- `rename` of a directory to a path at which nothing is. -/
def moveDir (t : FileTree N D) (src dst : List N) : Except FsError (FileTree N D) :=
  if hmove : t.get src = some .dir ∧ t.get dst = none ∧ t.get dst.dropLast = some .dir ∧
      ¬src <+: dst.dropLast ∧ dst ≠ [] ∧ src ≠ [] then
    .ok
      { names := t.names
        nodes := t.moveNodes src dst
        root := by
          rw [get_moveNodes hmove.2.1]
          have hrel : relative dst ([] : List N) = none := by
            unfold relative
            rw [if_neg fun h => hmove.2.2.2.2.1 (List.prefix_nil.mp h)]
          rw [hrel]
          dsimp only
          rw [if_neg fun h => hmove.2.2.2.2.2 (List.prefix_nil.mp h)]
          exact t.get_root
        closed := by
          obtain ⟨hsrc, hfree, hparent, hbeside, hdst, -⟩ := hmove
          intro q a hq ha
          rw [get_moveNodes hfree] at hq ⊢
          cases hrel : relative dst q with
          | none =>
            rw [hrel] at hq
            dsimp only at hq
            have hrela : relative dst a = none := by
              unfold relative at hrel ⊢
              split at hrel
              · cases hrel
              · next hnot => rw [if_neg fun h => hnot (h.trans ha.1)]
            split at hq
            · exact absurd rfl hq
            · next hnot =>
              rw [hrela]
              dsimp only
              rw [if_neg fun h => hnot (h.trans ha.1)]
              exact get_above hq ha
          | some rel =>
            rw [hrel] at hq
            have hq' : q = dst ++ rel := relative_eq_some.mp hrel
            subst hq'
            by_cases hin : dst <+: a
            · obtain ⟨rel', rfl⟩ := hin
              rw [relative_eq_some.mpr rfl]
              refine get_above hq ⟨?_, fun h => ?_⟩
              · exact (List.prefix_append_right_inj src).mpr
                  ((List.prefix_append_right_inj dst).mp ha.1)
              · exact ha.2 (by rw [List.append_cancel_left h])
            · -- strictly above the new place
              have habove : Above a dst := by
                refine ⟨(List.prefix_or_prefix_of_prefix ha.1
                  (List.prefix_append _ _)).resolve_right
                  hin, ?_⟩
                rintro rfl
                exact hin (List.prefix_refl _)
              have hrela : relative dst a = none := by
                unfold relative
                rw [if_neg hin]
              rw [hrela]
              dsimp only
              rw [if_neg fun h => hbeside (h.trans (above_dropLast habove))]
              exact get_above_dropLast hparent habove }
  else .error .notExist

theorem get_moveDir {t' : FileTree N D} (h : t.moveDir src dst = .ok t') (r : List N) :
    t'.get r =
      match relative dst r with
      | some rel => t.get (src ++ rel)
      | none => if src <+: r then none else t.get r := by
  unfold moveDir at h
  split at h
  · next hmove =>
    cases h
    exact get_moveNodes hmove.2.1 r
  · cases h

theorem moveDir_ok (hsrc : t.get src = some .dir) (hfree : t.get dst = none)
    (hparent : t.get dst.dropLast = some .dir) (hbeside : ¬src <+: dst.dropLast) (hdst : dst ≠ [])
    (hne : src ≠ []) : ∃ t', t.moveDir src dst = .ok t' := by
  unfold moveDir
  rw [dif_pos ⟨hsrc, hfree, hparent, hbeside, hdst, hne⟩]
  exact ⟨_, rfl⟩

/-! ## Placing one entry -/

/-- `mkdir`, or the creation or replacement of a file. -/
def place (t : FileTree N D) (p : List N) (n : Node D) : Except FsError (FileTree N D) :=
  if hp : p = [] ∨ t.get p = some .dir ∨ (n = .dir ∧ t.get p ≠ none) then .error .isDirectory
  else if hparent : t.get p.dropLast = some .dir then
    .ok
      { names := t.names
        nodes := t.nodes.insert p n
        root := by
          rw [SortedMap.get_insert_of_ne _ _ fun h => hp (Or.inl h), t.root]
        closed := by
          intro q a hq ha
          -- the new entry is not above anything: it was no directory
          have hbelow : ∀ r, t.get r ≠ none → ¬Above p r := fun r hr hpr =>
            hp (Or.inr (Or.inl (get_above hr hpr)))
          rw [SortedMap.get_insert] at hq
          by_cases hpq : p = q
          · subst hpq
            rw [SortedMap.get_insert_of_ne _ _ fun h => ha.2 h.symm]
            exact get_above_dropLast hparent ha
          · rw [if_neg hpq] at hq
            have hpa : p ≠ a := by
              rintro rfl
              exact hbelow q hq ha
            rw [SortedMap.get_insert_of_ne _ _ hpa]
            exact t.closed q a hq ha }
  else .error .notExist

theorem get_place {t' : FileTree N D} (h : t.place p n = .ok t') (r : List N) :
    t'.get r = if r = p then some n else t.get r := by
  unfold place at h
  split at h
  · cases h
  split at h
  · cases h
    show (t.nodes.insert p n)[r]? = _
    rw [SortedMap.get_insert]
    simp only [eq_comm (a := p)]
    rfl
  · cases h

theorem place_dir_ok (hp : p ≠ []) (hfree : t.get p = none)
    (hparent : t.get p.dropLast = some .dir) :
    ∃ t', t.place p .dir = .ok t' := by
  unfold place
  have hnot : ¬(p = [] ∨ t.get p = some .dir ∨ ((Node.dir : Node D) = .dir ∧ t.get p ≠ none)) := by
    rw [hfree]
    simp [hp]
  rw [dif_neg hnot, dif_pos hparent]
  exact ⟨_, rfl⟩

theorem place_file_ok {d : D} (hp : p ≠ []) (hfree : t.get p ≠ some .dir)
    (hparent : t.get p.dropLast = some .dir) : ∃ t', t.place p (.file d) = .ok t' := by
  unfold place
  have hnot : ¬(p = [] ∨ t.get p = some .dir ∨
    ((Node.file d : Node D) = .dir ∧ t.get p ≠ none)) := by
    rintro (h | h | ⟨h, -⟩)
    · exact hp h
    · exact hfree h
    · cases h
  rw [dif_neg hnot, dif_pos hparent]
  exact ⟨_, rfl⟩

end FileTree

/-! ## Walking a directory -/

/-- Every entry once, directories before what is in them. -/
structure Scan (N D : Type) [Ord N] [Std.TransOrd N] where
  list : SortedMap (List N) (Node D) → List (List N × Node D)
  mem : ∀ m p n, (p, n) ∈ list m ↔ m[p]? = some n
  parents : ∀ m done p n rest, list m = done ++ (p, n) :: rest →
    ∀ a, m[a]? ≠ none → Above a p → ∃ k, (a, k) ∈ done
  once : ∀ m, ((list m).map Prod.fst).Nodup

/-- Short paths first. -/
def Scan.byLength {N D : Type} [Ord N] [Std.TransOrd N] [Std.LawfulEqOrd N] [DecidableEq N] :
    Scan N D where
  list m := m.toList.insertionSort fun a b => a.1.length ≤ b.1.length
  mem m p n := by
    rw [(List.perm_insertionSort _ _).mem_iff]
    exact SortedMap.mem_toList
  parents m done p n rest heq a ha habove := by
    obtain ⟨k, hk⟩ := Option.ne_none_iff_exists'.mp ha
    have hmem : (a, k) ∈ done ++ (p, n) :: rest := by
      rw [← heq, (List.perm_insertionSort _ _).mem_iff]
      exact SortedMap.mem_toList.mpr hk
    have hsorted : (done ++ (p, n) :: rest).Pairwise fun a b => a.1.length ≤ b.1.length := by
      rw [← heq]
      have : Std.Total fun a b : List N × Node D => a.1.length ≤ b.1.length :=
        ⟨fun a b => Nat.le_total _ _⟩
      have : IsTrans (List N × Node D) fun a b => a.1.length ≤ b.1.length :=
        ⟨fun _ _ _ => Nat.le_trans⟩
      exact List.pairwise_insertionSort _ _
    have hlt := habove.length_lt
    rcases List.mem_append.mp hmem with hdone | htail
    · exact ⟨k, hdone⟩
    · -- behind the entry itself there are only longer paths
      exfalso
      rcases List.mem_cons.mp htail with hself | hrest
      · cases hself
        exact Nat.lt_irrefl _ hlt
      · have hpair := (List.pairwise_cons.mp (List.pairwise_append.mp hsorted).2.1).1 _ hrest
        exact Nat.not_lt.mpr hpair hlt
  once m := by
    rw [((List.perm_insertionSort _ _).map Prod.fst).nodup_iff]
    exact m.nodup_keys_toList

end Bpc

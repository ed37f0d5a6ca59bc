/-
  WAYS THROUGH A GRAPH — which routes a depth-first search finds.

  A `Way` runs along edges to a goal and meets no vertex twice.  The search finds exactly the ways
  within its bound (`search_returns_iff`, `mem_search`, `nodup_search`).  The CRUX is the prefix:
  in the middle of a search the rest of the route is a way that avoids `front`.
-/
import Bpc.Lib.Checked

namespace Bpc.Ways

/-! ## Ways -/

section Ways

variable {V E : Type} (adjacent : V → List E) (target : E → V)

/-- A way to a goal: the vertices on it, and the edges. -/
inductive Way : V → V → List V → List E → Prop
  | arrive (v : V) : Way v v [v] []
  | step {v goal : V} {e : E} {hops : List V} {edges : List E} :
      e ∈ adjacent v → v ∉ hops → Way (target e) goal hops edges →
        Way v goal (v :: hops) (e :: edges)

variable {adjacent target} {v goal : V} {hops : List V} {edges : List E}

theorem Way.head (h : Way adjacent target v goal hops edges) : hops.head? = some v := by
  cases h <;> rfl

theorem Way.start_mem (h : Way adjacent target v goal hops edges) : v ∈ hops :=
  List.mem_of_mem_head? h.head

theorem Way.last (h : Way adjacent target v goal hops edges) : hops.getLast? = some goal := by
  induction h with
  | arrive v => rfl
  | @step v goal e hops edges _ _ hway ih =>
    obtain ⟨w, rest, rfl⟩ := List.exists_cons_of_ne_nil (List.ne_nil_of_mem hway.start_mem)
    rw [List.getLast?_cons_cons, ih]

theorem Way.goal_mem (h : Way adjacent target v goal hops edges) : goal ∈ hops :=
  List.mem_of_getLast? h.last

theorem Way.nodup (h : Way adjacent target v goal hops edges) : hops.Nodup := by
  induction h with
  | arrive v => exact List.nodup_singleton v
  | step _ hfresh _ ih => exact List.nodup_cons.mpr ⟨hfresh, ih⟩

theorem Way.two_le (h : Way adjacent target v goal hops edges) (hne : v ≠ goal) :
    2 ≤ hops.length := by
  cases h with
  | arrive => exact absurd rfl hne
  | step _ _ hway =>
    have hpos := List.length_pos_of_mem hway.start_mem
    rw [List.length_cons]
    omega

theorem Way.imp {adjacent' : V → List E} (h : Way adjacent target v goal hops edges)
    (himp : ∀ e ∈ edges, ∀ u, e ∈ adjacent u → e ∈ adjacent' u) :
    Way adjacent' target v goal hops edges := by
  induction h with
  | arrive v => exact .arrive v
  | step hedge hfresh _ ih =>
    exact .step (himp _ List.mem_cons_self _ hedge) hfresh
      (ih fun e he => himp e (List.mem_cons_of_mem _ he))

theorem Way.neighbours (h : Way adjacent target v goal hops edges) {e : E} (he : e ∈ edges) :
    ∃ u, e ∈ adjacent u ∧ [u, target e] <:+: hops := by
  induction h with
  | arrive v => cases he
  | @step v goal e' hops edges hedge _ hway ih =>
    rcases List.mem_cons.mp he with rfl | he
    · cases hway with
      | arrive => exact ⟨v, hedge, List.infix_rfl⟩
      | step => exact ⟨v, hedge, (List.prefix_append [v, target e] _).isInfix⟩
    · obtain ⟨u, hadjacent, hinfix⟩ := ih he
      exact ⟨u, hadjacent, hinfix.trans (List.suffix_cons v hops).isInfix⟩

theorem Way.chain (h : Way adjacent target v goal hops edges) :
    hops.IsChain fun a b => ∃ e ∈ edges, e ∈ adjacent a ∧ target e = b := by
  induction h with
  | arrive v => exact List.isChain_singleton v
  | @step v goal e hops edges hedge _ hway ih =>
    have hrest := ih.imp fun a b ⟨e', he', hjoined⟩ =>
      (⟨e', List.mem_cons_of_mem e he', hjoined⟩ : ∃ e' ∈ e :: edges, e' ∈ adjacent a ∧
        target e' = b)
    cases hway with
    | arrive => exact List.isChain_pair.mpr ⟨e, List.mem_cons_self, hedge, rfl⟩
    | step => exact List.isChain_cons_cons.mpr ⟨⟨e, List.mem_cons_self, hedge, rfl⟩, hrest⟩

/-- **A list of vertices that are joined one after the other is a way.** -/
theorem exists_way {Q : E → Prop} (hhead : hops.head? = some v) (hlast : hops.getLast? = some goal)
    (hnodup : hops.Nodup) (hchain : hops.IsChain fun a b => ∃ e ∈ adjacent a, target e = b ∧ Q e) :
    ∃ edges, Way adjacent target v goal hops edges ∧ ∀ e ∈ edges, Q e := by
  induction hops generalizing v with
  | nil => cases hhead
  | cons u hops ih =>
    obtain rfl := Option.some.inj hhead
    cases hops with
    | nil =>
      obtain rfl := Option.some.inj hlast
      exact ⟨[], .arrive _, fun e he => by cases he⟩
    | cons w hops =>
      obtain ⟨⟨e, hedge, rfl, hQ⟩, hrest⟩ := List.isChain_cons_cons.mp hchain
      obtain ⟨hfresh, hnodup'⟩ := List.nodup_cons.mp hnodup
      obtain ⟨edges, hway, hall⟩ := ih rfl (List.getLast?_cons_cons ▸ hlast) hnodup' hrest
      exact ⟨e :: edges, .step hedge hfresh hway, List.forall_mem_cons.mpr ⟨hQ, hall⟩⟩

end Ways

/-! ## Search -/

section Search

variable {V E ε β : Type} [DecidableEq V] (adjacent : V → List E) (target : E → V)
  (finish : List V → List E → Except ε (List β)) (goal : V)

/-- Depth-first search, over at most `fuel` more vertices. -/
def search : Nat → V → List V → List E → Except ε (List β)
  | 0, _, _, _ => .ok []
  | fuel + 1, v, hops, edges =>
    if v = goal then finish hops edges
    else
      Checked.collect (fun e =>
        if target e ∈ hops then .ok []
        else search fuel (target e) (hops ++ [target e]) (edges ++ [e])) (adjacent v)

/-- The ways that a search with the given fuel finds after a route. -/
structure Continues (fuel : Nat) (v : V) (front : List V) (hops : List V) (edges : List E) :
    Prop where
  way : Way adjacent target v goal hops edges
  apart : ∀ u ∈ hops, u ∉ front
  short : hops.length ≤ fuel

variable {adjacent target goal} {fuel : Nat} {v : V} {front hops : List V} {edges : List E}

omit [DecidableEq V] in
theorem continues_zero : ¬ Continues adjacent target goal 0 v front hops edges :=
  fun h => List.ne_nil_of_mem h.way.start_mem (List.length_eq_zero_iff.mp (Nat.le_zero.mp h.short))

omit [DecidableEq V] in
theorem continues_goal (hfront : goal ∉ front) :
    Continues adjacent target goal (fuel + 1) goal front hops edges ↔ hops = [goal] ∧
      edges = [] := by
  constructor
  · intro h
    cases h.way with
    | arrive => exact ⟨rfl, rfl⟩
    | step _ hfresh hway => exact absurd hway.goal_mem hfresh
  · rintro ⟨rfl, rfl⟩
    refine ⟨.arrive goal, fun u hu => ?_, by simp⟩
    rw [List.mem_singleton.mp hu]
    exact hfront

omit [DecidableEq V] in
/-- A way begins with an edge to a vertex off the route. -/
theorem continues_step (hne : v ≠ goal) (hfront : v ∉ front) :
    Continues adjacent target goal (fuel + 1) v front hops edges ↔
      ∃ e ∈ adjacent v, target e ∉ front ++ [v] ∧ ∃ rest others,
        Continues adjacent target goal fuel (target e) (front ++ [v]) rest others ∧
          hops = v :: rest ∧ edges = e :: others := by
  constructor
  · rintro ⟨hway, hapart, hshort⟩
    cases hway with
    | arrive => exact absurd rfl hne
    | @step _ _ e rest others hedge hfresh hway =>
      have hrest : ∀ u ∈ rest, u ∉ front ++ [v] := by
        intro u hu hmem
        rcases List.mem_append.mp hmem with hmem | hmem
        · exact hapart u (List.mem_cons_of_mem _ hu) hmem
        · exact hfresh (List.mem_singleton.mp hmem ▸ hu)
      refine ⟨e, hedge, hrest _ hway.start_mem, rest, others, ⟨hway, hrest, ?_⟩, rfl, rfl⟩
      rw [List.length_cons] at hshort
      omega
  · rintro ⟨e, hedge, _, rest, others, ⟨hway, hapart, hshort⟩, rfl, rfl⟩
    refine ⟨.step hedge (fun hmem => hapart v hmem (by simp)) hway, fun u hu => ?_, ?_⟩
    · rcases List.mem_cons.mp hu with rfl | hu
      · exact hfront
      · exact fun hmem => hapart u hu (List.mem_append_left _ hmem)
    · rw [List.length_cons]
      omega

variable {finish}

/-- **A search returns iff every way within the bound can be finished.** -/
theorem search_returns_iff (hfront : v ∉ front) :
    (∃ found, search adjacent target finish goal fuel v (front ++ [v]) edges = .ok found) ↔
      ∀ hops others, Continues adjacent target goal fuel v front hops others →
        ∃ found, finish (front ++ hops) (edges ++ others) = .ok found := by
  induction fuel generalizing v front edges with
  | zero => exact ⟨fun _ hops others h => absurd h continues_zero, fun _ => ⟨[], rfl⟩⟩
  | succ fuel ih =>
    rw [search]
    by_cases hgoal : v = goal
    · subst hgoal
      rw [if_pos rfl]
      constructor
      · intro hfound hops others h
        obtain ⟨rfl, rfl⟩ := (continues_goal hfront).mp h
        rw [List.append_nil]
        exact hfound
      · intro h
        have hend := h [v] [] ((continues_goal hfront).mpr ⟨rfl, rfl⟩)
        rwa [List.append_nil] at hend
    · rw [if_neg hgoal, Checked.collect_returns_iff]
      constructor
      · intro hall hops others h
        obtain ⟨e, hedge, hnew, rest, others', hrest, rfl, rfl⟩ :=
          (continues_step hgoal hfront).mp h
        have hbody := hall e hedge
        rw [if_neg hnew, ih hnew] at hbody
        have hend := hbody rest others' hrest
        rwa [List.append_assoc, List.append_assoc] at hend
      · intro hall e hedge
        by_cases hseen : target e ∈ front ++ [v]
        · rw [if_pos hseen]
          exact ⟨[], rfl⟩
        · rw [if_neg hseen, ih hseen]
          intro rest others hrest
          rw [List.append_assoc, List.append_assoc]
          exact hall (v :: rest) (e :: others)
            ((continues_step hgoal hfront).mpr ⟨e, hedge, hseen, rest, others, hrest, rfl, rfl⟩)

/-- **A search returns what the ways within the bound give.** -/
theorem mem_search (hfront : v ∉ front) {found : List β}
    (hfound : search adjacent target finish goal fuel v (front ++ [v]) edges = .ok found) {y : β} :
    y ∈ found ↔ ∃ hops others, Continues adjacent target goal fuel v front hops others ∧
      ∃ ys, finish (front ++ hops) (edges ++ others) = .ok ys ∧ y ∈ ys := by
  induction fuel generalizing v front edges found with
  | zero =>
    obtain rfl := Except.ok.inj hfound
    constructor
    · exact fun hy => by cases hy
    · rintro ⟨hops, others, h, _⟩
      exact absurd h continues_zero
  | succ fuel ih =>
    rw [search] at hfound
    by_cases hgoal : v = goal
    · subst hgoal
      rw [if_pos rfl] at hfound
      constructor
      · intro hy
        refine ⟨[v], [], (continues_goal hfront).mpr ⟨rfl, rfl⟩, found, ?_, hy⟩
        rw [List.append_nil, hfound]
      · rintro ⟨hops, others, h, ys, hys, hy⟩
        obtain ⟨rfl, rfl⟩ := (continues_goal hfront).mp h
        rw [List.append_nil, hfound] at hys
        exact Except.ok.inj hys ▸ hy
    · rw [if_neg hgoal] at hfound
      rw [Checked.mem_collect hfound]
      constructor
      · rintro ⟨e, hedge, ys, hys, hy⟩
        by_cases hseen : target e ∈ front ++ [v]
        · rw [if_pos hseen] at hys
          exact absurd (Except.ok.inj hys ▸ hy) List.not_mem_nil
        · rw [if_neg hseen] at hys
          obtain ⟨rest, others, hrest, zs, hzs, hz⟩ := (ih hseen hys).mp hy
          rw [List.append_assoc, List.append_assoc] at hzs
          exact ⟨v :: rest, e :: others,
            (continues_step hgoal hfront).mpr ⟨e, hedge, hseen, rest, others, hrest, rfl, rfl⟩,
            zs, hzs, hz⟩
      · rintro ⟨hops, others, h, zs, hzs, hz⟩
        obtain ⟨e, hedge, hnew, rest, others', hrest, rfl, rfl⟩ :=
          (continues_step hgoal hfront).mp h
        obtain ⟨ys, hys⟩ := Checked.collect_returns_iff.mp ⟨found, hfound⟩ e hedge
        refine ⟨e, hedge, ys, hys, ?_⟩
        rw [if_neg hnew] at hys
        refine (ih hnew hys).mpr ⟨rest, others', hrest, zs, ?_, hz⟩
        rwa [List.append_assoc, List.append_assoc]

/-- **No route comes twice**, if edges from a vertex lead apart. -/
theorem nodup_search {key : β → List V} (hadjacent : ∀ v, ((adjacent v).map target).Nodup)
    (hfinish : ∀ hops edges ys, finish hops edges = .ok ys →
      (ys.map key).Nodup ∧ ∀ y ∈ ys, key y = hops) (hfront : v ∉ front) {found : List β}
    (hfound : search adjacent target finish goal fuel v (front ++ [v]) edges = .ok found) :
    (found.map key).Nodup := by
  induction fuel generalizing v front edges found with
  | zero =>
    obtain rfl := Except.ok.inj hfound
    exact List.nodup_nil
  | succ fuel ih =>
    rw [search] at hfound
    by_cases hgoal : v = goal
    · rw [if_pos hgoal] at hfound
      exact (hfinish _ _ _ hfound).1
    rw [if_neg hgoal] at hfound
    refine Checked.nodup_collect hfound (fun e ys hys => ?_) ?_
    · split at hys
      · obtain rfl := Except.ok.inj hys
        exact List.nodup_nil
      · rename_i hnew
        exact ih hnew hys
    · -- the routes along two edges part at the targets of the edges
      have hkey : ∀ e ys, (if target e ∈ front ++ [v] then .ok [] else
          search adjacent target finish goal fuel (target e) (front ++ [v] ++ [target e])
            (edges ++ [e])) = .ok ys → ∀ y ∈ ys, ∃ hops, key y = front ++ [v] ++ hops ∧
              hops.head? = some (target e) := by
        intro e ys hys y hy
        split at hys
        · exact absurd (Except.ok.inj hys ▸ hy) List.not_mem_nil
        · rename_i hnew
          obtain ⟨hops, others, hway, zs, hzs, hz⟩ := (mem_search hnew hys).mp hy
          exact ⟨hops, (hfinish _ _ _ hzs).2 y hz, hway.way.head⟩
      refine (List.pairwise_map.mp (hadjacent v)).imp fun hne ys ys' hys hys' y hy y' hy'
        hsame => ?_
      obtain ⟨hops, hy, hhead⟩ := hkey _ _ hys y hy
      obtain ⟨hops', hy', hhead'⟩ := hkey _ _ hys' y' hy'
      obtain rfl := List.append_cancel_left (hy.symm.trans (hsame.trans hy'))
      exact hne (Option.some.inj (hhead.symm.trans hhead'))

end Search

end Bpc.Ways

/-
  CHECKED LOOPS — a loop that extends a list and stops at the first error.

  Whether it returns, and what, is a matter of its elements (`collect_returns_iff`, `mem_collect`).
-/
import Mathlib

namespace Bpc.Checked

variable {α β ε : Type}

/-- `for x in xs: result.extend(f(x))`. -/
def collect (f : α → Except ε (List β)) : List α → Except ε (List β)
  | [] => .ok []
  | x :: xs =>
    match f x with
    | .error e => .error e
    | .ok ys =>
      match collect f xs with
      | .error e => .error e
      | .ok rest => .ok (ys ++ rest)

variable {f : α → Except ε (List β)} {xs : List α}

theorem collect_cons_ok {x : α} {result : List β} (h : collect f (x :: xs) = .ok result) :
    ∃ ys rest, f x = .ok ys ∧ collect f xs = .ok rest ∧ result = ys ++ rest := by
  rw [collect] at h
  split at h
  · cases h
  rename_i ys hys
  split at h
  · cases h
  rename_i rest hrest
  exact ⟨ys, rest, hys, hrest, (Except.ok.inj h).symm⟩

/-- **A loop returns exactly if every body does.** -/
theorem collect_returns_iff :
    (∃ result, collect f xs = .ok result) ↔ ∀ x ∈ xs, ∃ ys, f x = .ok ys := by
  induction xs with
  | nil => exact ⟨fun _ x hx => (by cases hx), fun _ => ⟨[], rfl⟩⟩
  | cons x xs ih =>
    rw [List.forall_mem_cons, ← ih]
    constructor
    · rintro ⟨result, h⟩
      obtain ⟨ys, rest, hys, hrest, _⟩ := collect_cons_ok h
      exact ⟨⟨ys, hys⟩, rest, hrest⟩
    · rintro ⟨⟨ys, hys⟩, rest, hrest⟩
      refine ⟨ys ++ rest, ?_⟩
      rw [collect, hys, hrest]

/-- What a body returns, and nothing after an error. -/
def values : Except ε (List β) → List β
  | .ok ys => ys
  | .error _ => []

theorem collect_eq {result : List β} (h : collect f xs = .ok result) :
    result = xs.flatMap fun x => values (f x) := by
  induction xs generalizing result with
  | nil => exact (Except.ok.inj h).symm
  | cons x xs ih =>
    obtain ⟨ys, rest, hys, hrest, rfl⟩ := collect_cons_ok h
    rw [List.flatMap_cons, hys, ih hrest, values]

/-- **What a loop returns is what its bodies return.** -/
theorem mem_collect {result : List β} (h : collect f xs = .ok result) {y : β} :
    y ∈ result ↔ ∃ x ∈ xs, ∃ ys, f x = .ok ys ∧ y ∈ ys := by
  induction xs generalizing result with
  | nil =>
    obtain rfl := Except.ok.inj h
    constructor
    · exact fun hy => by cases hy
    · rintro ⟨x, hx, _⟩
      cases hx
  | cons x xs ih =>
    obtain ⟨ys, rest, hys, hrest, rfl⟩ := collect_cons_ok h
    rw [List.mem_append, ih hrest]
    constructor
    · rintro (hy | ⟨x', hx', found⟩)
      · exact ⟨x, List.mem_cons_self, ys, hys, hy⟩
      · exact ⟨x', List.mem_cons_of_mem _ hx', found⟩
    · rintro ⟨x', hx', ys', hys', hy⟩
      rcases List.mem_cons.mp hx' with rfl | hx'
      · obtain rfl := Except.ok.inj (hys.symm.trans hys')
        exact .inl hy
      · exact .inr ⟨x', hx', ys', hys', hy⟩

/-- A loop returns nothing twice if no body does and no two bodies meet. -/
theorem nodup_collect {κ : Type} {key : β → κ} {result : List β} (h : collect f xs = .ok result)
    (heach : ∀ x ys, f x = .ok ys → (ys.map key).Nodup)
    (happart : xs.Pairwise fun x x' => ∀ ys ys', f x = .ok ys → f x' = .ok ys' →
      ∀ y ∈ ys, ∀ y' ∈ ys', key y ≠ key y') :
    (result.map key).Nodup := by
  induction xs generalizing result with
  | nil =>
    obtain rfl := Except.ok.inj h
    exact List.nodup_nil
  | cons x xs ih =>
    obtain ⟨ys, rest, hys, hrest, rfl⟩ := collect_cons_ok h
    obtain ⟨hhead, htail⟩ := List.pairwise_cons.mp happart
    rw [List.map_append, List.nodup_append]
    refine ⟨heach x ys hys, ih hrest htail, fun k hk k' hk' => ?_⟩
    obtain ⟨y, hy, rfl⟩ := List.mem_map.mp hk
    obtain ⟨y', hy', rfl⟩ := List.mem_map.mp hk'
    obtain ⟨x', hx', ys', hys', hmem⟩ := (mem_collect hrest).mp hy'
    exact hhead x' hx' ys ys' hys hys' y hy y' hmem

end Bpc.Checked

/-
  FIRST-MATCH RULE LISTS — the verdict of a packet filter.

  The FIRST rule whose conditions all hold decides.  A list is read group by group
  (`verdict_append`).
-/
import Mathlib

namespace Bpc.FirstMatch

/-- What becomes of a packet. -/
inductive Verdict where
  | accept
  | drop
  deriving DecidableEq

/-- A rule over conditions of some kind. -/
structure Rule (κ : Type) where
  conditions : List κ
  target : Verdict

variable {κ π : Type} (holds : κ → π → Bool)

/-- All conditions hold. -/
def Rule.applies (r : Rule κ) (p : π) : Bool := r.conditions.all (holds · p)

/-- The verdict of the first rule that applies. -/
def verdict : List (Rule κ) → π → Option Verdict
  | [], _ => none
  | r :: rules, p => if r.applies holds p then some r.target else verdict rules p

variable {holds} {rules later : List (Rule κ)} {p : π}

theorem verdict_append :
    verdict holds (rules ++ later) p = (verdict holds rules p).or (verdict holds later p) := by
  induction rules with
  | nil => rfl
  | cons r rules ih =>
    rw [List.cons_append, verdict, verdict]
    split
    · rfl
    · exact ih

theorem verdict_eq_none : verdict holds rules p = none ↔
    ∀ r ∈ rules, r.applies holds p = false := by
  induction rules with
  | nil => exact ⟨fun _ r hr => (by cases hr), fun _ => rfl⟩
  | cons r rules ih =>
    rw [verdict, List.forall_mem_cons, ← ih]
    cases r.applies holds p with
    | true => exact ⟨fun h => (by cases h), fun h => (by cases h.1)⟩
    | false => exact ⟨fun h => ⟨rfl, h⟩, fun h => h.2⟩

theorem exists_of_verdict {v : Verdict} (h : verdict holds rules p = some v) :
    ∃ r ∈ rules, r.applies holds p = true ∧ r.target = v := by
  induction rules with
  | nil => cases h
  | cons r rules ih =>
    rw [verdict] at h
    split at h
    · rename_i happlies
      exact ⟨r, List.mem_cons_self, happlies, Option.some.inj h⟩
    · obtain ⟨r', hr', hrest⟩ := ih h
      exact ⟨r', List.mem_cons_of_mem _ hr', hrest⟩

theorem verdict_of_drops (hdrops : ∀ r ∈ rules, r.target = .drop) :
    verdict holds rules p ≠ some .accept := by
  intro h
  obtain ⟨r, hr, _, htarget⟩ := exists_of_verdict h
  cases (hdrops r hr).symm.trans htarget

/-- Accepted by the first group, or by the rest after it said nothing. -/
theorem accept_append (h : verdict holds (rules ++ later) p = some .accept) :
    verdict holds rules p = some .accept ∨
      verdict holds rules p = none ∧ verdict holds later p = some .accept := by
  rw [verdict_append] at h
  cases hfirst : verdict holds rules p with
  | none =>
    rw [hfirst] at h
    exact .inr ⟨rfl, h⟩
  | some v =>
    rw [hfirst] at h
    exact .inl h

/-- After a group of DROP rules that accepts nothing, the rest decides. -/
theorem accept_after_drops (hdrops : ∀ r ∈ rules, r.target = .drop)
    (h : verdict holds (rules ++ later) p = some .accept) :
    (∀ r ∈ rules, r.applies holds p = false) ∧ verdict holds later p = some .accept := by
  rcases accept_append h with h | ⟨hnone, h⟩
  · exact absurd h (verdict_of_drops hdrops)
  · exact ⟨verdict_eq_none.mp hnone, h⟩

theorem verdict_skip (h : ∀ r ∈ rules, r.applies holds p = false) :
    verdict holds (rules ++ later) p = verdict holds later p := by
  rw [verdict_append, verdict_eq_none.mpr h]
  rfl

end Bpc.FirstMatch

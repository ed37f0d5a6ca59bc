/-
  COMMANDS — a process that keeps a memory and issues commands, each of which succeeds or fails.

  1. **Steps** — what a `Step` has changed before an error STAYS changed.  `require`, `attempt` and
     `ifFails` report a failure, ignore it, react to it.
  2. **Triples** — `Triple K P s Q X`: every command meets `K.must`, and with outcomes that `K.may`
     come `s` ends with `Q`, or with an error and `X`.
-/
import Bpc.Lib.Interaction

namespace Bpc.Commands

open Interaction

variable {C σ R α : Type}

/-! ## Steps -/

/-- The commands issued so far, newest first. -/
abbrev Trace (C : Type) : Type := List (Event C fun _ => Bool)

/-- A program whose calls are answered by success or failure. -/
abbrev Script (C R : Type) : Type := Prog C (fun _ => Bool) Empty R

/-- A function on the memory that may report a failed command. -/
abbrev Step (C σ : Type) : Type := σ → Script C (σ × Option C)

/-- Do nothing. -/
def skip : Step C σ := fun m => .ret (m, none)

/-- Change the memory. -/
def assign (update : σ → σ) : Step C σ := fun m => .ret (update m, none)

/-- Report a failure; change the memory on success. -/
def require (c : C) (update : σ → σ) : Step C σ := fun m =>
  .call c fun ok => .ret (if ok then (update m, none) else (m, some c))

/-- Issue a command and ignore its failure. -/
def attempt (c : C) : Step C σ := fun m => .call c fun _ => .ret (m, none)

/-- Issue a command, and go on with `s` if it fails. -/
def ifFails (c : C) (s : Step C σ) : Step C σ := fun m =>
  .call c fun ok => if ok then .ret (m, none) else s m

/-- Read the memory. -/
def reading (s : σ → Step C σ) : Step C σ := fun m => s m m

/-- Do it under a condition. -/
def onlyIf (condition : Bool) (s : Step C σ) : Step C σ := if condition then s else skip

/-- One after the other, until an error. -/
def andThen (s t : Step C σ) : Step C σ := fun m =>
  (s m).bind fun r =>
    match r.2 with
    | none => t r.1
    | some e => .ret (r.1, some e)

/-- A loop, until an error. -/
def forEach (body : α → Step C σ) : List α → Step C σ
  | [] => skip
  | x :: xs => andThen (body x) (forEach body xs)

/-! ## Executions -/

/-- A script can leave a trace and a result, with outcomes that `may` be. -/
inductive Executes (may : Trace C → C → Bool → Prop) :
    Script C R → Trace C → Trace C → R → Prop where
  | ret {r : R} {past : Trace C} : Executes may (.ret r) past past r
  | call {c : C} {k : Bool → Script C R} {past past' : Trace C} {r : R} (ok : Bool)
      (hok : may past c ok) (h : Executes may (k ok) (⟨c, ok⟩ :: past) past' r) :
      Executes may (.call c k) past past' r

/-- The trace and the result for given outcomes, if they can be. -/
def replay (may : Trace C → C → Bool → Bool) :
    Script C R → Trace C → List Bool → Option (Trace C × R)
  | .ret r, past, [] => some (past, r)
  | .ret _, _, _ :: _ => none
  | .raise _, _, _ => none
  | .call _ _, _, [] => none
  | .call c k, past, ok :: outcomes =>
    if may past c ok then replay may (k ok) (⟨c, ok⟩ :: past) outcomes else none

variable {s : Script C R} {past past' : Trace C} {r : R}

theorem executes_of_replay {may : Trace C → C → Bool → Bool} {outcomes : List Bool}
    (h : replay may s past outcomes = some (past', r)) :
    Executes (fun past c ok => may past c ok = true) s past past' r := by
  induction s generalizing past outcomes with
  | ret a =>
    cases outcomes with
    | nil =>
      obtain ⟨rfl, rfl⟩ := Prod.mk.inj (Option.some.inj h)
      exact .ret
    | cons ok outcomes => cases h
  | raise e => exact e.elim
  | call c k ih =>
    cases outcomes with
    | nil => cases h
    | cons ok outcomes =>
      rw [replay] at h
      split at h
      · rename_i hok
        exact .call ok hok (ih ok h)
      · cases h

theorem Executes.mono {may may' : Trace C → C → Bool → Prop} (h : Executes may s past past' r)
    (hmay : ∀ past c ok, may past c ok → may' past c ok) : Executes may' s past past' r := by
  induction h with
  | ret => exact .ret
  | call ok hok _ ih => exact .call ok (hmay _ _ _ hok) ih

/-! ## Triples -/

/-- What a command must satisfy, and what its outcome can be. -/
structure Contract (C : Type) where
  must : Trace C → C → Prop
  may : Trace C → C → Bool → Prop

/-- Every command meets its obligation, every end the postcondition. -/
def Holds (K : Contract C) : Script C R → Trace C → (Trace C → R → Prop) → Prop
  | .ret r, past, Q => Q past r
  | .raise _, _, _ => True
  | .call c k, past, Q =>
    K.must past c ∧ ∀ ok, K.may past c ok → Holds K (k ok) (⟨c, ok⟩ :: past) Q

variable {K : Contract C}

variable {Q : Trace C → R → Prop}

theorem Holds.mono {Q' : Trace C → R → Prop} (h : Holds K s past Q)
    (hQ : ∀ past r, Q past r → Q' past r) : Holds K s past Q' := by
  induction s generalizing past with
  | ret r => exact hQ past r h
  | raise e => exact trivial
  | call c k ih => exact ⟨h.1, fun ok hok => ih ok (h.2 ok hok)⟩

theorem Holds.bind {R' : Type} {f : R → Script C R'} {Q : Trace C → R' → Prop}
    (h : Holds K s past fun past' r => Holds K (f r) past' Q) : Holds K (s.bind f) past Q := by
  induction s generalizing past with
  | ret r => exact h
  | raise e => exact trivial
  | call c k ih => exact ⟨h.1, fun ok hok => ih ok (h.2 ok hok)⟩

theorem Holds.and {Q' : Trace C → R → Prop} (h : Holds K s past Q) (h' : Holds K s past Q') :
    Holds K s past fun past' r => Q past' r ∧ Q' past' r := by
  induction s generalizing past with
  | ret r => exact ⟨h, h'⟩
  | raise e => exact trivial
  | call c k ih => exact ⟨h.1, fun ok hok => ih ok (h.2 ok hok) (h'.2 ok hok)⟩

theorem Holds.contract {K' : Contract C} (h : Holds K s past Q)
    (hmust : ∀ past c, K.must past c → K'.must past c)
    (hmay : ∀ past c ok, K'.may past c ok → K.may past c ok) : Holds K' s past Q := by
  induction s generalizing past with
  | ret r => exact h
  | raise e => exact trivial
  | call c k ih => exact ⟨hmust _ _ h.1, fun ok hok => ih ok (h.2 ok (hmay _ _ _ hok))⟩

theorem Holds.ends (h : Holds K s past Q) (hrun : Executes K.may s past past' r) : Q past' r := by
  induction hrun with
  | ret => exact h
  | call ok hok _ ih => exact ih (h.2 ok hok)

variable {c : C}

/-- **Every command met its obligation when it was issued.** -/
theorem Holds.obliged (h : Holds K s past Q) (hrun : Executes K.may s past past' r) {ok : Bool}
    {before : Trace C} (hevent : ⟨c, ok⟩ :: before <:+ past') :
    ⟨c, ok⟩ :: before <:+ past ∨ K.must before c := by
  induction hrun with
  | ret => exact Or.inl hevent
  | call ok' hok _ ih =>
    obtain hold | hmust := ih (h.2 ok' hok) hevent
    · obtain heq | hsuffix := List.suffix_cons_iff.mp hold
      · obtain ⟨hfirst, rfl⟩ := List.cons.inj heq
        obtain rfl := (Sigma.mk.inj hfirst).1
        exact Or.inr h.1
      · exact Or.inl hsuffix
    · exact Or.inr hmust

/-- A step with its pre- and postconditions on memory and trace. -/
def Triple (K : Contract C) (P : σ → Trace C → Prop) (s : Step C σ) (Q X : σ → Trace C → Prop) :
    Prop :=
  ∀ m past, P m past → Holds K (s m) past fun past' r =>
    match r.2 with
    | none => Q r.1 past'
    | some _ => X r.1 past'

variable {P P' Q Q' S X X' : σ → Trace C → Prop} {s t : Step C σ}

theorem Triple.conseq (h : Triple K P s Q X) (hP : ∀ m past, P' m past → P m past)
    (hQ : ∀ m past, Q m past → Q' m past) (hX : ∀ m past, X m past → X' m past) :
    Triple K P' s Q' X' := by
  intro m past hP'
  refine (h m past (hP m past hP')).mono fun past' r hr => ?_
  obtain ⟨m', e⟩ := r
  cases e with
  | none => exact hQ m' past' hr
  | some e => exact hX m' past' hr

theorem Triple.and (h : Triple K P s Q X) (h' : Triple K P' s Q' X') :
    Triple K (fun m past => P m past ∧ P' m past) s (fun m past => Q m past ∧ Q' m past)
      (fun m past => X m past ∧ X' m past) := by
  intro m past hP
  refine ((h m past hP.1).and (h' m past hP.2)).mono fun past' r hr => ?_
  obtain ⟨m', e⟩ := r
  cases e with
  | none => exact hr
  | some e => exact hr

theorem Triple.contract {K' : Contract C} (h : Triple K P s Q X)
    (hmust : ∀ past c, K.must past c → K'.must past c)
    (hmay : ∀ past c ok, K'.may past c ok → K.may past c ok) : Triple K' P s Q X :=
  fun m past hP => (h m past hP).contract hmust hmay

theorem triple_skip (h : ∀ m past, P m past → Q m past) : Triple K P (skip : Step C σ) Q X :=
  fun m past hP => h m past hP

variable {update : σ → σ}

theorem triple_assign (h : ∀ m past, P m past → Q (update m) past) :
    Triple K P (assign update : Step C σ) Q X :=
  fun m past hP => h m past hP

theorem triple_require (hmust : ∀ m past, P m past → K.must past c)
    (hok : ∀ m past, P m past → K.may past c true → Q (update m) (⟨c, true⟩ :: past))
    (hfail : ∀ m past, P m past → K.may past c false → X m (⟨c, false⟩ :: past)) :
    Triple K P (require c update) Q X := by
  intro m past hP
  refine ⟨hmust m past hP, fun ok hmay => ?_⟩
  cases ok with
  | true => exact hok m past hP hmay
  | false => exact hfail m past hP hmay

theorem triple_attempt (hmust : ∀ m past, P m past → K.must past c)
    (h : ∀ m past ok, P m past → K.may past c ok → Q m (⟨c, ok⟩ :: past)) :
    Triple K P (attempt c : Step C σ) Q X :=
  fun m past hP => ⟨hmust m past hP, fun ok hmay => h m past ok hP hmay⟩

theorem triple_ifFails (hmust : ∀ m past, P m past → K.must past c)
    (hok : ∀ m past, P m past → K.may past c true → Q m (⟨c, true⟩ :: past))
    (hfail : ∀ m past, P m past → K.may past c false → S m (⟨c, false⟩ :: past))
    (hs : Triple K S s Q X) : Triple K P (ifFails c s) Q X := by
  intro m past hP
  refine ⟨hmust m past hP, fun ok hmay => ?_⟩
  cases ok with
  | true => exact hok m past hP hmay
  | false => exact hs m _ (hfail m past hP hmay)

theorem triple_reading {f : σ → Step C σ}
    (h : ∀ m, Triple K (fun m' past => m' = m ∧ P m' past) (f m) Q X) :
    Triple K P (reading f) Q X :=
  fun m past hP => h m m past ⟨rfl, hP⟩

theorem Triple.onlyIf {condition : Bool} (h : condition = true → Triple K P s Q X)
    (hnot : condition = false → ∀ m past, P m past → Q m past) :
    Triple K P (onlyIf condition s) Q X := by
  cases condition with
  | true => exact h rfl
  | false => exact triple_skip (hnot rfl)

theorem triple_guarded {guard : σ → Bool}
    (hmust : ∀ m past, guard m = true → P m past → K.must past c)
    (hok : ∀ m past, guard m = true → P m past → Q (update m) (⟨c, true⟩ :: past))
    (hfail : ∀ m past, P m past → X m (⟨c, false⟩ :: past))
    (hskip : ∀ m past, guard m = false → P m past → Q m past) :
    Triple K P (reading fun m => onlyIf (guard m) (require c update)) Q X := by
  refine triple_reading fun m => Triple.onlyIf (fun hguard => triple_require ?_ ?_ ?_) ?_
  · rintro _ past ⟨rfl, h⟩
    exact hmust _ past hguard h
  · rintro _ past ⟨rfl, h⟩ -
    exact hok _ past hguard h
  · rintro _ past ⟨rfl, h⟩ -
    exact hfail _ past h
  · rintro hguard _ past ⟨rfl, h⟩
    exact hskip _ past hguard h

theorem Triple.andThen (hs : Triple K P s S X) (ht : Triple K S t Q X) :
    Triple K P (andThen s t) Q X := by
  intro m past hP
  refine ((hs m past hP).mono fun past' r hr => ?_).bind
  obtain ⟨m', e⟩ := r
  cases e with
  | none => exact ht m' past' hr
  | some e => exact hr

/-- The rule of loops: `I rest` holds while `rest` is left to do. -/
theorem Triple.forEach {body : α → Step C σ} (I : List α → σ → Trace C → Prop)
    (hbody : ∀ x rest, Triple K (I (x :: rest)) (body x) (I rest) X) :
    ∀ xs, Triple K (I xs) (forEach body xs) (I []) X
  | [] => triple_skip fun _ _ h => h
  | x :: xs => (hbody x xs).andThen (Triple.forEach I hbody xs)

/-! ## Invariants -/

/-- A step keeps an invariant, also where it fails. -/
def Keeps (K : Contract C) (I : σ → Trace C → Prop) (s : Step C σ) : Prop := Triple K I s I I

variable {I : σ → Trace C → Prop}

theorem keeps_assign (h : ∀ m past, I m past → I (update m) past) :
    Keeps K I (assign update : Step C σ) := triple_assign h

theorem Keeps.andThen (hs : Keeps K I s) (ht : Keeps K I t) : Keeps K I (andThen s t) :=
  Triple.andThen hs ht

theorem Keeps.onlyIf {condition : Bool} (hs : Keeps K I s) : Keeps K I (onlyIf condition s) :=
  Triple.onlyIf (fun _ => hs) fun _ _ _ h => h

theorem keeps_reading {f : σ → Step C σ} (h : ∀ m, Keeps K I (f m)) : Keeps K I (reading f) :=
  fun m => h m m

theorem keeps_forEach {body : α → Step C σ} (hbody : ∀ x, Keeps K I (body x)) (xs : List α) :
    Keeps K I (forEach body xs) :=
  Triple.forEach (fun _ => I) (fun x _ => hbody x) xs

end Bpc.Commands

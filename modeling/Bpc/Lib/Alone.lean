/-
  PROGRAMS THAT RUN ALONE — no other program makes a call in between.

  `Prog.eval answer p` is the result over a world that does not change; `Runs perform w p res w'`
  is a run that writes, and `Prog.exec` computes one.
-/
import Bpc.Lib.Interaction

namespace Bpc.Interaction

variable {Req : Type} {Ans : Req → Type} {ε ε' α β : Type}

namespace Prog

/-! ## Errors -/

/-- Raise something else in place of an error. -/
def mapRaise (f : ε → ε') : Prog Req Ans ε α → Prog Req Ans ε' α
  | ret a => ret a
  | raise e => raise (f e)
  | call r k => call r fun a => (k a).mapRaise f

/-! ## Reading -/

/-- The result, with the answers of a function. -/
def eval (answer : (r : Req) → Ans r) : Prog Req Ans ε α → Except ε α
  | ret a => .ok a
  | raise e => .error e
  | call r k => (k (answer r)).eval answer

variable (answer : (r : Req) → Ans r)

theorem eval_bind (p : Prog Req Ans ε α) (f : α → Prog Req Ans ε β) :
    (p.bind f).eval answer =
      match p.eval answer with
      | .ok a => (f a).eval answer
      | .error e => .error e := by
  induction p with
  | ret a => rfl
  | raise e => rfl
  | call r k ih => exact ih (answer r)

theorem eval_bind_ok {p : Prog Req Ans ε α} {f : α → Prog Req Ans ε β} {b : β}
    (h : (p.bind f).eval answer = .ok b) :
    ∃ a, p.eval answer = .ok a ∧ (f a).eval answer = .ok b := by
  rw [eval_bind] at h
  cases hp : p.eval answer with
  | ok a =>
    rw [hp] at h
    exact ⟨a, rfl, h⟩
  | error e =>
    rw [hp] at h
    cases h

theorem eval_bind_of {p : Prog Req Ans ε α} {f : α → Prog Req Ans ε β} {a : α}
    (h : p.eval answer = .ok a) : (p.bind f).eval answer = (f a).eval answer := by
  rw [eval_bind, h]

theorem eval_collect {body : β → Prog Req Ans ε (Option α)} {xs : List β} {l : List α}
    (h : (collect body xs).eval answer = .ok l) :
    ∃ results : List (Option α), List.Forall₂ (fun x r => (body x).eval answer = .ok r) xs results ∧
      l = results.flatMap Option.toList := by
  induction xs generalizing l with
  | nil =>
    obtain rfl := Except.ok.inj h
    exact ⟨[], .nil, rfl⟩
  | cons x xs ih =>
    obtain ⟨r, hr, hrest⟩ := eval_bind_ok answer h
    obtain ⟨rest, hcollect, hret⟩ := eval_bind_ok answer hrest
    obtain rfl := Except.ok.inj hret
    obtain ⟨results, hresults, rfl⟩ := ih hcollect
    exact ⟨r :: results, .cons hr hresults, rfl⟩

theorem eval_collect_of {body : β → Prog Req Ans ε (Option α)} {f : β → Option α} {xs : List β}
    (h : ∀ x ∈ xs, (body x).eval answer = .ok (f x)) :
    (collect body xs).eval answer = .ok (xs.filterMap f) := by
  induction xs with
  | nil => rfl
  | cons x xs ih =>
    rw [collect, eval_bind_of _ (h x List.mem_cons_self),
      eval_bind_of _ (ih fun y hy => h y (List.mem_cons_of_mem _ hy)), List.filterMap_cons]
    cases f x <;> rfl

end Prog

/-! ## Writing -/

/-- The program ends with this result, from one world to another. -/
inductive Runs {W O : Type} (perform : W → O → (r : Req) → Option (Ans r × W)) :
    W → Prog Req Ans ε α → Except ε α → W → Prop where
  | ret (w : W) (a : α) : Runs perform w (.ret a) (.ok a) w
  | raise (w : W) (e : ε) : Runs perform w (.raise e) (.error e) w
  | call {w w' w'' : W} {r : Req} {k : Ans r → Prog Req Ans ε α} {a : Ans r} {res : Except ε α}
      (o : O) (h : perform w o r = some (a, w')) (rest : Runs perform w' (k a) res w'') :
      Runs perform w (.call r k) res w''

section

variable {W O : Type} {perform : W → O → (r : Req) → Option (Ans r × W)} {w w'' : W}

theorem Runs.call_cases {r : Req} {k : Ans r → Prog Req Ans ε α} {res : Except ε α}
    (h : Runs perform w (.call r k) res w'') :
    ∃ o a w', perform w o r = some (a, w') ∧ Runs perform w' (k a) res w'' := by
  cases h with
  | call o hperform rest => exact ⟨o, _, _, hperform, rest⟩

/-- A sequence ends with an error of its first part, or goes through both. -/
theorem Runs.bind_cases {p : Prog Req Ans ε α} {f : α → Prog Req Ans ε β} {res : Except ε β}
    (h : Runs perform w (p.bind f) res w'') :
    (∃ e, Runs perform w p (.error e) w'' ∧ res = .error e) ∨
      ∃ a w', Runs perform w p (.ok a) w' ∧ Runs perform w' (f a) res w'' := by
  induction p generalizing w with
  | ret a => exact .inr ⟨a, w, .ret w a, h⟩
  | raise e =>
    cases h
    exact .inl ⟨e, .raise w'' e, rfl⟩
  | call r k ih =>
    obtain ⟨o, a, w', hperform, rest⟩ := h.call_cases
    rcases ih a rest with ⟨e, he, rfl⟩ | ⟨b, w₁, hb, hf⟩
    · exact .inl ⟨e, .call o hperform he, rfl⟩
    · exact .inr ⟨b, w₁, .call o hperform hb, hf⟩

theorem Runs.mapRaise_cases {f : ε → ε'} {p : Prog Req Ans ε α} {res : Except ε' α}
    (h : Runs perform w (p.mapRaise f) res w'') :
    ∃ res', Runs perform w p res' w'' ∧ res = res'.mapError f := by
  induction p generalizing w with
  | ret a =>
    cases h
    exact ⟨.ok a, .ret w'' a, rfl⟩
  | raise e =>
    cases h
    exact ⟨.error e, .raise w'' e, rfl⟩
  | call r k ih =>
    obtain ⟨o, a, w', hperform, rest⟩ := h.call_cases
    obtain ⟨res', hres', heq⟩ := ih a rest
    exact ⟨res', .call o hperform hres', heq⟩

/-- The run for choices that are a function of the world and the call. -/
def Prog.exec (perform : W → O → (r : Req) → Option (Ans r × W)) (choose : W → Req → O) :
    W → Prog Req Ans ε α → Option (Except ε α × W)
  | w, .ret a => some (.ok a, w)
  | w, .raise e => some (.error e, w)
  | w, .call r k =>
    match perform w (choose w r) r with
    | none => none
    | some (a, w') => Prog.exec perform choose w' (k a)

theorem Runs.of_exec {choose : W → Req → O} {p : Prog Req Ans ε α} {res : Except ε α}
    (h : p.exec perform choose w = some (res, w'')) : Runs perform w p res w'' := by
  induction p generalizing w with
  | ret a =>
    obtain ⟨rfl, rfl⟩ := Prod.mk.inj (Option.some.inj h)
    exact .ret w a
  | raise e =>
    obtain ⟨rfl, rfl⟩ := Prod.mk.inj (Option.some.inj h)
    exact .raise w e
  | call r k ih =>
    rw [Prog.exec] at h
    split at h
    · cases h
    · rename_i a w' hperform
      exact .call (choose w r) hperform (ih a h)

end

end Bpc.Interaction

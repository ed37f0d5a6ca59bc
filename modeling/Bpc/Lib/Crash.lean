/-
  CRASHES — a program that runs alone and may stop after any of its calls.

  `Safe perform I Q p w`: the program ends WITHOUT an error in a world with `Q`, and every world on
  the way satisfies the crash invariant `I`.
-/
import Bpc.Lib.Interaction

namespace Bpc.Interaction

variable {Req : Type} {Ans : Req → Type} {W ε α β : Type}
variable (perform : W → (r : Req) → Ans r × W)

/-- The result of the program, and the world it leaves. -/
def Prog.complete : Prog Req Ans ε α → W → Except ε α × W
  | .ret a, w => (.ok a, w)
  | .raise e, w => (.error e, w)
  | .call r k, w => (k (perform w r).1).complete (perform w r).2

/-- The worlds after the calls of the program. -/
def Prog.visits : Prog Req Ans ε α → W → List W
  | .ret _, _ => []
  | .raise _, _ => []
  | .call r k, w => (perform w r).2 :: (k (perform w r).1).visits (perform w r).2

/-- The program ends without an error, with `Q`; on the way `I` holds. -/
def Safe (I : W → Prop) (Q : α → W → Prop) : Prog Req Ans ε α → W → Prop
  | .ret a, w => Q a w
  | .raise _, _ => False
  | .call r k, w => I (perform w r).2 ∧ Safe I Q (k (perform w r).1) (perform w r).2

variable {perform} {I : W → Prop} {Q Q' : α → W → Prop}

variable {p : Prog Req Ans ε α} {w : W}

theorem Safe.complete (h : Safe perform I Q p w) :
    ∃ a w', p.complete perform w = (.ok a, w') ∧ Q a w' := by
  induction p generalizing w with
  | ret a => exact ⟨a, w, rfl, h⟩
  | raise e => exact h.elim
  | call r k ih => exact ih _ h.2

theorem Safe.visits (h : Safe perform I Q p w) : ∀ w' ∈ p.visits perform w, I w' := by
  induction p generalizing w with
  | ret a => exact fun w' hw' => by cases hw'
  | raise e => exact h.elim
  | call r k ih =>
    intro w' hw'
    rcases List.mem_cons.mp hw' with rfl | hrest
    · exact h.1
    · exact ih _ h.2 w' hrest

theorem Safe.mono (h : Safe perform I Q p w) (hQ : ∀ a w', Q a w' → Q' a w') :
    Safe perform I Q' p w := by
  induction p generalizing w with
  | ret a => exact hQ a w h
  | raise e => exact h
  | call r k ih => exact ⟨h.1, ih _ h.2⟩

theorem Safe.weaken {I' : W → Prop} (h : Safe perform I Q p w) (hI : ∀ w', I w' → I' w') :
    Safe perform I' Q p w := by
  induction p generalizing w with
  | ret a => exact h
  | raise e => exact h
  | call r k ih => exact ⟨hI _ h.1, ih _ h.2⟩

theorem Safe.bind {f : α → Prog Req Ans ε β} {R : β → W → Prop} (h : Safe perform I Q p w)
    (hf : ∀ a w', Q a w' → Safe perform I R (f a) w') : Safe perform I R (p.bind f) w := by
  induction p generalizing w with
  | ret a => exact hf a w h
  | raise e => exact h
  | call r k ih => exact ⟨h.1, ih _ h.2⟩

/-- The rule of loops: `R rest` holds while `rest` is left to do. -/
theorem Safe.forEach {body : β → Prog Req Ans ε Unit} (R : List β → W → Prop)
    (hbody : ∀ x rest w, R (x :: rest) w → Safe perform I (fun _ w' => R rest w') (body x) w) :
    ∀ (xs : List β) {w : W}, R xs w →
      Safe perform I (fun _ w' => R [] w') (Prog.forEach body xs) w
  | [], _, h => h
  | x :: xs, w, h => (hbody x xs w h).bind fun _ _ h' => Safe.forEach R hbody xs h'

theorem Safe.collect {body : β → Prog Req Ans ε (Option α)} (R : List β → W → Prop)
    (hbody : ∀ x rest w, R (x :: rest) w → Safe perform I (fun _ w' => R rest w') (body x) w) :
    ∀ (xs : List β) {w : W}, R xs w →
      Safe perform I (fun _ w' => R [] w') (Prog.collect body xs) w
  | [], _, h => h
  | x :: xs, w, h =>
    (hbody x xs w h).bind fun _ _ h' => (Safe.collect R hbody xs h').bind fun _ _ h'' => h''

end Bpc.Interaction

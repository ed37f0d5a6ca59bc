/-
  INTERACTION PROGRAMS — sequential requests that run beside each other over one shared world.

  1. **Programs** — `Prog` is the tree of a handler; every call is one atomic step.
  2. **Specifications** — `Spec R p past Q`: every call meets `R.must`, for answers that `R.may`
     come, and every end meets `Q`.  Calls are judged against the HISTORY of the program itself.
  3. **Pools** — programs start at any time and advance in any order.  `Obeys.step`: those that
     meet their specification keep meeting it.
-/
import Mathlib

namespace Bpc.Interaction

/-- A program that makes calls `r : Req`, each answered by an `Ans r`. -/
inductive Prog (Req : Type) (Ans : Req → Type) (ε α : Type) : Type where
  | ret (a : α)
  | raise (e : ε)
  | call (r : Req) (k : Ans r → Prog Req Ans ε α)

/-- A call with its answer. -/
abbrev Event (Req : Type) (Ans : Req → Type) : Type := (r : Req) × Ans r

variable {Req : Type} {Ans : Req → Type} {ε α β : Type}

namespace Prog

/-- Sequencing. -/
def bind : Prog Req Ans ε α → (α → Prog Req Ans ε β) → Prog Req Ans ε β
  | ret a, f => f a
  | raise e, _ => raise e
  | call r k, f => call r fun a => (k a).bind f

/-- `try p except e: h e`. -/
def handle : Prog Req Ans ε α → (ε → Prog Req Ans ε α) → Prog Req Ans ε α
  | ret a, _ => ret a
  | raise e, h => h e
  | call r k, h => call r fun a => (k a).handle h

instance : Monad (Prog Req Ans ε) where
  pure := ret
  bind := bind

/-- The exception that a finished program has ended with. -/
def raised : Prog Req Ans ε α → Option ε
  | raise e => some e
  | _ => none

theorem eq_raise_of_raised {p : Prog Req Ans ε α} {e : ε} (h : p.raised = some e) :
    p = raise e := by
  cases p with
  | raise e' => exact congrArg raise (Option.some.inj h)
  | _ => cases h

/-- Make one call and return its answer. -/
def ask (r : Req) : Prog Req Ans ε (Ans r) := call r ret

/-- `if condition: raise e`. -/
def raiseIf (condition : Bool) (e : ε) : Prog Req Ans ε Unit :=
  if condition then raise e else ret ()

/-- Return or raise. -/
def ofExcept : Except ε α → Prog Req Ans ε α
  | .ok a => ret a
  | .error e => raise e

/-- `for x in xs: body x`. -/
def forEach (body : β → Prog Req Ans ε Unit) : List β → Prog Req Ans ε Unit
  | [] => ret ()
  | x :: xs => (body x).bind fun _ => forEach body xs

/-- Collect the results of a loop body that may skip its element. -/
def collect (body : β → Prog Req Ans ε (Option α)) : List β → Prog Req Ans ε (List α)
  | [] => ret []
  | x :: xs => (body x).bind fun r => (collect body xs).bind fun rest => ret (r.toList ++ rest)

/-- The first result of a loop body that may skip its element. -/
def findFirst (body : β → Prog Req Ans ε (Option α)) : List β → Prog Req Ans ε (Option α)
  | [] => ret none
  | x :: xs => (body x).bind fun r =>
    match r with
    | some a => ret (some a)
    | none => findFirst body xs

end Prog

/-! ## Specifications -/

/-- The obligations of a program and what it may take for granted. -/
structure Rules (Req : Type) (Ans : Req → Type) where
  /-- What a call must satisfy, given the calls made before (newest first). -/
  must : List (Event Req Ans) → Req → Prop
  /-- What an answer can be. -/
  may : (r : Req) → Ans r → Prop

/-- Every call meets its obligation, every end the postcondition. -/
def Spec (R : Rules Req Ans) : Prog Req Ans ε α → List (Event Req Ans) →
    (List (Event Req Ans) → Except ε α → Prop) → Prop
  | .ret a, past, Q => Q past (.ok a)
  | .raise e, past, Q => Q past (.error e)
  | .call r k, past, Q =>
    R.must past r ∧ ∀ a, R.may r a → Spec R (k a) (⟨r, a⟩ :: past) Q

variable {R : Rules Req Ans} {past : List (Event Req Ans)} {p : Prog Req Ans ε α}
  {f : α → Prog Req Ans ε β}

theorem Spec.mono {Q Q' : List (Event Req Ans) → Except ε α → Prop}
    (h : Spec R p past Q) (hQ : ∀ past' r, past <:+ past' → Q past' r → Q' past' r) :
    Spec R p past Q' := by
  induction p generalizing past with
  | ret a => exact hQ past _ (List.suffix_refl past) h
  | raise e => exact hQ past _ (List.suffix_refl past) h
  | call r k ih =>
    refine ⟨h.1, fun a ha => ih a (h.2 a ha) fun past' res hsuf => ?_⟩
    exact hQ past' res ((List.suffix_cons _ _).trans hsuf)

theorem Spec.bind {Q : List (Event Req Ans) → Except ε β → Prop}
    (h : Spec R p past fun past' r =>
      match r with
      | .ok a => Spec R (f a) past' Q
      | .error e => Q past' (.error e)) : Spec R (p.bind f) past Q := by
  induction p generalizing past with
  | ret a => exact h
  | raise e => exact h
  | call r k ih => exact ⟨h.1, fun a ha => ih a (h.2 a ha)⟩

/-- The rule of `try … except`. -/
theorem Spec.handle {f : ε → Prog Req Ans ε α}
    {Q : List (Event Req Ans) → Except ε α → Prop}
    (h : Spec R p past fun past' r =>
      match r with
      | .ok a => Q past' (.ok a)
      | .error e => Spec R (f e) past' Q) : Spec R (p.handle f) past Q := by
  induction p generalizing past with
  | ret a => exact h
  | raise e => exact h
  | call r k ih => exact ⟨h.1, fun a ha => ih a (h.2 a ha)⟩

/-! ## Results that can be relied on -/

/-- A condition on histories that no later event takes back. -/
def Stable (φ : List (Event Req Ans) → Prop) : Prop :=
  ∀ ⦃past past'⦄, past <:+ past' → φ past → φ past'

/-- Every call meets its obligation, every result its condition, and every exception is excused by
    the history. -/
def Yields (R : Rules Req Ans) (excuse : List (Event Req Ans) → ε → Prop) (p : Prog Req Ans ε α)
    (past : List (Event Req Ans)) (φ : List (Event Req Ans) → α → Prop) : Prop :=
  Spec R p past fun past' res =>
    match res with
    | .ok a => φ past' a
    | .error e => excuse past' e

section

variable {excuse : List (Event Req Ans) → ε → Prop} {φ ψ : List (Event Req Ans) → α → Prop}
  {χ : List (Event Req Ans) → β → Prop}

theorem Yields.mono (h : Yields R excuse p past φ)
    (hφ : ∀ past' a, past <:+ past' → φ past' a → ψ past' a) : Yields R excuse p past ψ := by
  refine Spec.mono h fun past' res hsuf hres => ?_
  cases res with
  | ok a => exact hφ past' a hsuf hres
  | error e => exact hres

theorem Yields.andThen {Q : List (Event Req Ans) → Except ε β → Prop} (h : Yields R excuse p past φ)
    (hexcuse : ∀ past' e, excuse past' e → Q past' (.error e))
    (hf : ∀ past' a, past <:+ past' → φ past' a → Spec R (f a) past' Q) :
    Spec R (p.bind f) past Q := by
  refine Spec.bind (Spec.mono h fun past' res hsuf hres => ?_)
  cases res with
  | ok a => exact hf past' a hsuf hres
  | error e => exact hexcuse past' e hres

theorem Yields.seq (h : Yields R excuse p past φ)
    (hf : ∀ past' a, past <:+ past' → φ past' a → Yields R excuse (f a) past' χ) :
    Yields R excuse (p.bind f) past χ :=
  h.andThen (fun _ _ he => he) hf

theorem yields_ask {r : Req} (h : R.must past r) :
    Yields R excuse (Prog.ask r : Prog Req Ans ε (Ans r)) past fun past' a =>
      past' = ⟨r, a⟩ :: past ∧ R.may r a :=
  ⟨h, fun _ ha => ⟨rfl, ha⟩⟩

theorem yields_raiseIf {condition : Bool} {e : ε} (h : excuse past e) :
    Yields R excuse (Prog.raiseIf condition e : Prog Req Ans ε Unit) past fun past' _ =>
      past' = past := by
  cases condition with
  | true => exact h
  | false => exact rfl

theorem yields_ofExcept {r : Except ε α} (h : ∀ e, r = .error e → excuse past e) :
    Yields R excuse (Prog.ofExcept r : Prog Req Ans ε α) past fun past' _ => past' = past := by
  cases r with
  | ok a => exact rfl
  | error e => exact h e rfl

theorem Yields.forEach {body : β → Prog Req Ans ε Unit} {xs : List β}
    {φ : β → List (Event Req Ans) → Prop} (hstable : ∀ x, Stable (φ x))
    (hbody : ∀ x ∈ xs, ∀ past', past <:+ past' →
      Yields R excuse (body x) past' fun past'' _ => φ x past'') :
    Yields R excuse (Prog.forEach body xs) past fun past' _ => ∀ x ∈ xs, φ x past' := by
  induction xs generalizing past with
  | nil => exact fun x hx => by cases hx
  | cons x xs ih =>
    refine (hbody x List.mem_cons_self past (List.suffix_refl past)).seq fun past' _ hsuf hx => ?_
    refine (ih fun y hy past'' hsuf' =>
      hbody y (List.mem_cons_of_mem _ hy) past'' (hsuf.trans hsuf')).mono ?_
    intro past'' _ hsuf' hrest y hy
    obtain rfl | hy := List.mem_cons.mp hy
    · exact hstable y hsuf' hx
    · exact hrest y hy

end

/-! ## Normal results -/

/-- A condition on the normal results only. -/
def OnReturn (φ : List (Event Req Ans) → α → Prop) (past : List (Event Req Ans)) :
    Except ε α → Prop
  | .ok a => φ past a
  | .error _ => True

/-- Every call meets its obligation, every normal result its condition. -/
def Returns (R : Rules Req Ans) (p : Prog Req Ans ε α) (past : List (Event Req Ans))
    (φ : List (Event Req Ans) → α → Prop) : Prop :=
  Spec R p past (OnReturn φ)

section

variable {φ ψ : List (Event Req Ans) → α → Prop} {χ : List (Event Req Ans) → β → Prop}

theorem Returns.mono (h : Returns R p past φ)
    (hφ : ∀ past' a, past <:+ past' → φ past' a → ψ past' a) : Returns R p past ψ := by
  refine Spec.mono h fun past' r hsuf hr => ?_
  cases r with
  | ok a => exact hφ past' a hsuf hr
  | error e => trivial

theorem Returns.seq (h : Returns R p past φ)
    (hf : ∀ past' a, past <:+ past' → φ past' a → Returns R (f a) past' χ) :
    Returns R (p.bind f) past χ := by
  refine Spec.bind (Spec.mono h fun past' r hsuf hr => ?_)
  cases r with
  | ok a => exact hf past' a hsuf hr
  | error e => trivial

/-- `try … except`, through what is known of the first part. -/
theorem Returns.rescue {f : ε → Prog Req Ans ε α} (h : Returns R p past φ)
    (hok : ∀ past' a, past <:+ past' → φ past' a → ψ past' a)
    (herr : ∀ past' e, past <:+ past' → Returns R (f e) past' ψ) :
    Returns R (p.handle f) past ψ := by
  refine Spec.handle (Spec.mono h fun past' r hsuf hr => ?_)
  cases r with
  | ok a => exact hok past' a hsuf hr
  | error e => exact herr past' e hsuf

theorem Returns.ite {c : Prop} [Decidable c] {p q : Prog Req Ans ε α}
    (hp : c → Returns R p past φ) (hq : ¬ c → Returns R q past φ) :
    Returns R (if c then p else q) past φ := by
  split
  · exact hp ‹c›
  · exact hq ‹¬ c›

theorem returns_ask {r : Req} (h : R.must past r) :
    Returns R (Prog.ask r : Prog Req Ans ε (Ans r)) past fun past' a =>
      past' = ⟨r, a⟩ :: past ∧ R.may r a :=
  ⟨h, fun _ ha => ⟨rfl, ha⟩⟩

theorem returns_raiseIf (condition : Bool) (e : ε) :
    Returns R (Prog.raiseIf condition e : Prog Req Ans ε Unit) past fun past' _ =>
      past' = past ∧ condition = false := by
  cases condition with
  | true => trivial
  | false => exact ⟨rfl, rfl⟩

theorem returns_ofExcept (r : Except ε α) :
    Returns R (Prog.ofExcept r : Prog Req Ans ε α) past fun past' a =>
      past' = past ∧ r = .ok a := by
  cases r with
  | ok a => exact ⟨rfl, rfl⟩
  | error e => trivial

variable {xs : List β}

/-- Normal results are those of a program whose exceptions are all excused. -/
theorem returns_iff :
    Returns R p past φ ↔ Yields R (fun _ _ => True) p past φ := Iff.rfl

theorem Returns.forEach {body : β → Prog Req Ans ε Unit} {φ : β → List (Event Req Ans) → Prop}
    (hstable : ∀ x, Stable (φ x)) (hbody : ∀ x ∈ xs, ∀ past', past <:+ past' →
      Returns R (body x) past' fun past'' _ => φ x past'') :
    Returns R (Prog.forEach body xs) past fun past' _ => ∀ x ∈ xs, φ x past' :=
  returns_iff.mpr (Yields.forEach hstable fun x hx past' hsuf =>
    returns_iff.mp (hbody x hx past' hsuf))

theorem Returns.collect {body : β → Prog Req Ans ε (Option α)}
    {φ : β → Option α → List (Event Req Ans) → Prop} (hstable : ∀ x r, Stable (φ x r))
    (hbody : ∀ x ∈ xs, ∀ past', past <:+ past' →
      Returns R (body x) past' fun past'' r => φ x r past'') :
    Returns R (Prog.collect body xs) past fun past' found =>
      ∀ x ∈ xs, ∃ r, φ x r past' ∧ ∀ a, r = some a → a ∈ found := by
  induction xs generalizing past with
  | nil => exact fun x hx => by cases hx
  | cons x xs ih =>
    refine (hbody x List.mem_cons_self past (List.suffix_refl past)).seq fun past' r hsuf hx => ?_
    refine (ih fun y hy past'' hsuf' =>
      hbody y (List.mem_cons_of_mem _ hy) past'' (hsuf.trans hsuf')).seq ?_
    intro past'' found hsuf' hrest y hy
    obtain rfl | hy := List.mem_cons.mp hy
    · refine ⟨r, hstable y r hsuf' hx, fun a ha => List.mem_append_left _ ?_⟩
      rw [ha]
      exact List.mem_singleton_self a
    · obtain ⟨r', hr', hmem⟩ := hrest y hy
      exact ⟨r', hr', fun a ha => List.mem_append_right _ (hmem a ha)⟩

theorem Returns.findFirst {body : β → Prog Req Ans ε (Option α)}
    {φ : α → List (Event Req Ans) → Prop}
    (hbody : ∀ x ∈ xs, ∀ past', past <:+ past' →
      Returns R (body x) past' fun past'' r => ∀ a, r = some a → φ a past'') :
    Returns R (Prog.findFirst body xs) past fun past' r => ∀ a, r = some a → φ a past' := by
  induction xs generalizing past with
  | nil => exact fun a ha => by cases ha
  | cons x xs ih =>
    refine (hbody x List.mem_cons_self past (List.suffix_refl past)).seq fun past' r hsuf hx => ?_
    cases r with
    | some a => exact hx
    | none =>
      exact ih fun y hy past'' hsuf' =>
        hbody y (List.mem_cons_of_mem _ hy) past'' (hsuf.trans hsuf')

end

/-! ## Calls that need no justification -/

/-- From any history the program meets its obligations, however it ends. -/
def Harmless (R : Rules Req Ans) (p : Prog Req Ans ε α) : Prop :=
  ∀ past, Returns R p past fun _ _ => True

theorem harmless_ret (a : α) : Harmless R (Prog.ret a : Prog Req Ans ε α) := fun _ => trivial

theorem harmless_raise (e : ε) : Harmless R (Prog.raise e : Prog Req Ans ε α) := fun _ => trivial

theorem harmless_ask {r : Req} (h : ∀ past, R.must past r) :
    Harmless R (Prog.ask r : Prog Req Ans ε (Ans r)) :=
  fun past => (returns_ask (h past)).mono fun _ _ _ _ => trivial

theorem harmless_raiseIf (condition : Bool) (e : ε) :
    Harmless R (Prog.raiseIf condition e : Prog Req Ans ε Unit) :=
  fun _ => (returns_raiseIf condition e).mono fun _ _ _ _ => trivial

theorem harmless_ofExcept (r : Except ε α) : Harmless R (Prog.ofExcept r : Prog Req Ans ε α) :=
  fun _ => (returns_ofExcept r).mono fun _ _ _ _ => trivial

theorem Harmless.bind (hp : Harmless R p)
    (hf : ∀ a, Harmless R (f a)) : Harmless R (p.bind f) :=
  fun past => (hp past).seq fun past' a _ _ => hf a past'

theorem Harmless.handle {f : ε → Prog Req Ans ε α} (hp : Harmless R p)
    (hf : ∀ e, Harmless R (f e)) : Harmless R (p.handle f) :=
  fun past => (hp past).rescue (fun _ _ _ _ => trivial) fun past' e _ => hf e past'

theorem Harmless.ite {c : Prop} [Decidable c] {p q : Prog Req Ans ε α} (hp : Harmless R p)
    (hq : Harmless R q) : Harmless R (if c then p else q) := by
  split
  · exact hp
  · exact hq

theorem harmless_forEach {body : β → Prog Req Ans ε Unit} {xs : List β}
    (hbody : ∀ x ∈ xs, Harmless R (body x)) : Harmless R (Prog.forEach body xs) :=
  fun _ => (Returns.forEach (φ := fun _ _ => True) (fun _ _ _ _ _ => trivial)
    fun x hx past' _ => hbody x hx past').mono fun _ _ _ _ => trivial

theorem Harmless.seq {χ : List (Event Req Ans) → β → Prop} (hp : Harmless R p)
    (hf : ∀ past' a, past <:+ past' → Returns R (f a) past' χ) : Returns R (p.bind f) past χ :=
  (hp past).seq fun past' a hsuf _ => hf past' a hsuf

/-! ## Programs that make only some calls -/

/-- The obligation to make no call but those of a kind. -/
def Rules.only (R : Rules Req Ans) (ok : Req → Prop) : Rules Req Ans := ⟨fun _ r => ok r, R.may⟩

/-- Between two histories lie only calls of a kind. -/
def Only (ok : Req → Prop) (past past' : List (Event Req Ans)) : Prop :=
  ∃ events, past' = events ++ past ∧ ∀ e ∈ events, ok e.1

theorem Only.refl (ok : Req → Prop) (past : List (Event Req Ans)) : Only ok past past :=
  ⟨[], rfl, fun _ he => by cases he⟩

variable {ok : Req → Prop}

theorem Only.trans {past' past'' : List (Event Req Ans)} (h : Only ok past past')
    (h' : Only ok past' past'') : Only ok past past'' := by
  obtain ⟨events, rfl, hok⟩ := h
  obtain ⟨events', rfl, hok'⟩ := h'
  refine ⟨events' ++ events, (List.append_assoc _ _ _).symm, fun e he => ?_⟩
  obtain he | he := List.mem_append.mp he
  · exact hok' e he
  · exact hok e he

/-- Only some calls are made, so only those are in the history. -/
theorem Spec.only {Q : List (Event Req Ans) → Except ε α → Prop} (h : Spec (R.only ok) p past Q)
    (hok : ∀ past r, ok r → R.must past r) :
    Spec R p past fun past' res => Only ok past past' ∧ Q past' res := by
  induction p generalizing past with
  | ret a => exact ⟨Only.refl ok past, h⟩
  | raise e => exact ⟨Only.refl ok past, h⟩
  | call r k ih =>
    refine ⟨hok past r h.1, fun a ha => ?_⟩
    refine (ih a (h.2 a ha)).mono fun past' res _ hres => ⟨?_, hres.2⟩
    refine Only.trans ⟨[⟨r, a⟩], rfl, fun e he => ?_⟩ hres.1
    rw [List.mem_singleton.mp he]
    exact h.1

theorem Returns.only {φ : List (Event Req Ans) → α → Prop} (h : Returns (R.only ok) p past φ)
    (hok : ∀ past r, ok r → R.must past r) :
    Returns R p past fun past' a => Only ok past past' ∧ φ past' a := by
  refine (Spec.only h hok).mono fun past' res _ hres => ?_
  cases res with
  | ok a => exact hres
  | error e => trivial

/-! ## Pools of programs -/

/-- How the outside answers, and which programs can be started. -/
structure System (World Oracle Job Req : Type) (Ans : Req → Type) (ε α : Type) where
  perform : World → Oracle → (r : Req) → Option (Ans r × World)
  program : Job → Prog Req Ans ε α

/-- A started program, with its own history. -/
structure Thread (Job Req : Type) (Ans : Req → Type) (ε α : Type) where
  job : Job
  prog : Prog Req Ans ε α
  past : List (Event Req Ans)

/-- The world and its threads. -/
structure Pool (World Job Req : Type) (Ans : Req → Type) (ε α : Type) where
  world : World
  threads : List (Thread Job Req Ans ε α)

/-- A thread starts, or makes its next call. -/
inductive Move (Job Oracle : Type) where
  | start (job : Job)
  | advance (thread : Nat) (oracle : Oracle)

variable {World Oracle Job : Type}

/-- Start a program, or let one make its next call. -/
def Pool.step (S : System World Oracle Job Req Ans ε α) (c : Pool World Job Req Ans ε α) :
    Move Job Oracle → Option (Pool World Job Req Ans ε α)
  | .start job => some { c with threads := c.threads ++ [⟨job, S.program job, []⟩] }
  | .advance i o =>
    match c.threads[i]? with
    | some ⟨job, .call r k, past⟩ =>
      match S.perform c.world o r with
      | some (a, w) => some ⟨w, c.threads.set i ⟨job, k a, ⟨r, a⟩ :: past⟩⟩
      | none => none
    | _ => none

/-- The moves that satisfy a condition on the pool they are made in. -/
inductive Reaches (S : System World Oracle Job Req Ans ε α)
    (allowed : Pool World Job Req Ans ε α → Move Job Oracle → Prop)
    (c : Pool World Job Req Ans ε α) : Pool World Job Req Ans ε α → Prop where
  | refl : Reaches S allowed c c
  | tail {c' c'' : Pool World Job Req Ans ε α} {m : Move Job Oracle}
    (before : Reaches S allowed c c')
      (ok : allowed c' m) (move : c'.step S m = some c'') : Reaches S allowed c c''

/-- The call that a move makes, with the history of its thread. -/
def Pool.Calls (c : Pool World Job Req Ans ε α) (m : Move Job Oracle)
    (past : List (Event Req Ans)) (r : Req) : Prop :=
  ∃ i o job k, m = .advance i o ∧ c.threads[i]? = some ⟨job, .call r k, past⟩

/-- The call that a move is about to make, computed. -/
def Pool.next (c : Pool World Job Req Ans ε α) :
    Move Job Oracle → Option (List (Event Req Ans) × Req)
  | .start _ => none
  | .advance i _ =>
    match c.threads[i]? with
    | some ⟨_, .call r _, past⟩ => some (past, r)
    | _ => none

variable {c : Pool World Job Req Ans ε α} {m : Move Job Oracle}

theorem Pool.Calls.next {r : Req} (h : c.Calls m past r) : c.next m = some (past, r) := by
  obtain ⟨i, o, job, k, rfl, ht⟩ := h
  simp only [Pool.next, ht]

/-- Thread `i` makes its next `n` calls, with the same free choices. -/
def calls (i n : Nat) (o : Oracle) : List (Move Job Oracle) := List.replicate n (.advance i o)

/-- A schedule whose moves pass a test. -/
def Pool.runIf (S : System World Oracle Job Req Ans ε α)
    (test : Pool World Job Req Ans ε α → Move Job Oracle → Bool)
    (c : Pool World Job Req Ans ε α) : List (Move Job Oracle) → Option (Pool World Job Req Ans ε α)
  | [] => some c
  | m :: ms => if test c m then (c.step S m).bind fun c' => c'.runIf S test ms else none

theorem reaches_of_runIf {S : System World Oracle Job Req Ans ε α}
    {allowed : Pool World Job Req Ans ε α → Move Job Oracle → Prop}
    {test : Pool World Job Req Ans ε α → Move Job Oracle → Bool}
    (htest : ∀ c m, test c m = true → allowed c m) {c₀ c' : Pool World Job Req Ans ε α}
    {ms : List (Move Job Oracle)} (h₀ : Reaches S allowed c₀ c) (h : c.runIf S test ms = some c') :
    Reaches S allowed c₀ c' := by
  induction ms generalizing c with
  | nil => exact Option.some.inj h ▸ h₀
  | cons m ms ih =>
    rw [Pool.runIf] at h
    split at h
    · rename_i hm
      obtain ⟨c₁, hstep, hrest⟩ := Option.bind_eq_some_iff.mp h
      exact ih (.tail h₀ (htest c m hm) hstep) hrest
    · cases h

theorem step_cases {S : System World Oracle Job Req Ans ε α} {c' : Pool World Job Req Ans ε α}
    (h : c.step S m = some c') :
    (∃ job, m = .start job ∧ c' = { c with threads := c.threads ++ [⟨job, S.program job, []⟩] }) ∨
    ∃ i o job r k past a w, m = .advance i o ∧ c.threads[i]? = some ⟨job, .call r k, past⟩ ∧
      S.perform c.world o r = some (a, w) ∧
      c' = ⟨w, c.threads.set i ⟨job, k a, ⟨r, a⟩ :: past⟩⟩ := by
  cases m with
  | start job => exact .inl ⟨job, rfl, (Option.some.inj h).symm⟩
  | advance i o =>
    right
    unfold Pool.step at h
    dsimp only at h
    cases hthread : c.threads[i]? with
    | none => rw [hthread] at h; cases h
    | some t =>
      obtain ⟨job, prog, past⟩ := t
      rw [hthread] at h
      cases prog with
      | ret a => cases h
      | raise e => cases h
      | call r k =>
        dsimp only at h
        cases hanswer : S.perform c.world o r with
        | none => rw [hanswer] at h; cases h
        | some answer =>
          obtain ⟨a, w⟩ := answer
          rw [hanswer] at h
          exact ⟨i, o, job, r, k, past, a, w, rfl, hthread, hanswer, (Option.some.inj h).symm⟩

/-- Every thread meets the specification of its job. -/
def Obeys (R : Rules Req Ans) (post : Job → List (Event Req Ans) → Except ε α → Prop)
    (c : Pool World Job Req Ans ε α) : Prop :=
  ∀ t ∈ c.threads, Spec R t.prog t.past (post t.job)

section

variable {S : System World Oracle Job Req Ans ε α}
  {post : Job → List (Event Req Ans) → Except ε α → Prop} {c c' : Pool World Job Req Ans ε α}

theorem Obeys.must (h : Obeys R post c) {i : Nat} {job : Job} {r : Req}
    {k : Ans r → Prog Req Ans ε α} (ht : c.threads[i]? = some ⟨job, .call r k, past⟩) :
    R.must past r :=
  (h _ (List.mem_of_getElem? ht)).1

/-- **One step keeps every thread on its specification.** -/
theorem Obeys.step (h : Obeys R post c)
    (hjob : ∀ job, m = .start job → Spec R (S.program job) [] (post job))
    (hmay : ∀ i o r a w, m = .advance i o → S.perform c.world o r = some (a, w) → R.may r a)
    (hstep : c.step S m = some c') : Obeys R post c' := by
  obtain ⟨job, hm, rfl⟩ | ⟨i, o, job, r, k, past, a, w, hm, ht, hanswer, rfl⟩ := step_cases hstep
  · intro t ht
    obtain ht | ht := List.mem_append.mp ht
    · exact h t ht
    · obtain rfl := List.mem_singleton.mp ht
      exact hjob job hm
  · intro t htmem
    obtain ht' | rfl := List.mem_or_eq_of_mem_set htmem
    · exact h t ht'
    · exact (h _ (List.mem_of_getElem? ht)).2 a (hmay i o r a w hm hanswer)

end

end Bpc.Interaction

/-
  SLASH PATHS — decoded strings, trimming, and the lexical normal form of a slash-separated path.

  `clean` pushes the components on a stack of the shape "names over `..`s" (`StackOK`), which makes
  its result stable (`clean_clean`).  A path that does not start with `..` is the `join` of
  `NormalName`s, and splitting it gives them back (`splitOn_join`).
-/
import Mathlib

namespace Bpc.SlashPath

/-- A decoded string: its Unicode scalar values.  The lone surrogates of a Python string, which
    have no UTF-8 form, are left out. -/
abbrev Str := List Char

instance : Coe String Str := ⟨String.toList⟩

instance : LawfulBEq Str := inferInstance

/-! ## Trimming -/

/-- The Unicode `White_Space` characters. -/
def isSpace (c : Char) : Bool :=
  let n := c.toNat
  (9 ≤ n && n ≤ 13) || n == 0x20 || n == 0x85 || n == 0xA0 || n == 0x1680 ||
    (0x2000 ≤ n && n ≤ 0x200A) || n == 0x2028 || n == 0x2029 || n == 0x202F || n == 0x205F ||
    n == 0x3000

/-- `strings.TrimSpace`. -/
def trimSpace (s : Str) : Str := (s.dropWhile isSpace).rdropWhile isSpace

/-! ## Splitting, joining, cleaning -/

/-- The component `..`. -/
def dotdot : Str := ['.', '.']

/-- Components joined by slashes. -/
def join (parts : List Str) : Str := ['/'].intercalate parts

/-- One component against the stack: `..` cancels a name, is dropped at the root, and piles up in
    an unrooted path. -/
def cleanStep (rooted : Bool) (stack : List Str) (part : Str) : List Str :=
  if part = [] ∨ part = ['.'] then stack
  else if part = dotdot then
    match stack with
    | [] => if rooted then [] else [part]
    | top :: rest => if top = dotdot then part :: top :: rest else rest
  else part :: stack

/-- The kept components of a path, in order. -/
def cleanParts (p : Str) : List Str :=
  ((p.splitOn '/').foldl (cleanStep (p.head? = some '/')) []).reverse

/-- The shortest lexically equivalent path; the empty path becomes `.`. -/
def clean (p : Str) : Str :=
  if p.head? = some '/' then '/' :: join (cleanParts p)
  else if cleanParts p = [] then ['.']
  else join (cleanParts p)

/-- A component that names an entry of a directory. -/
def NormalName (n : Str) : Prop := n ≠ [] ∧ '/' ∉ n ∧ n ≠ ['.'] ∧ n ≠ dotdot

instance (n : Str) : Decidable (NormalName n) :=
  inferInstanceAs (Decidable (n ≠ [] ∧ '/' ∉ n ∧ n ≠ ['.'] ∧ n ≠ dotdot))

example : clean "a//./b/../c/" = "a/c" := by decide
example : clean "../a/../../b" = "../../b" := by decide

/-! ## Joined names split back -/

theorem splitOn_join {parts : List Str} (hne : parts ≠ []) (hp : ∀ n ∈ parts, '/' ∉ n) :
    (join parts).splitOn '/' = parts :=
  List.splitOn_intercalate '/' hp hne

theorem join_splitOn (p : Str) : join (p.splitOn '/') = p := List.intercalate_splitOn '/'

theorem mem_splitOn_no_slash (p : Str) : ∀ n ∈ p.splitOn '/', '/' ∉ n := by
  induction p with
  | nil => simp
  | cons c cs ih =>
    rw [List.splitOn_cons_eq_if_modifyHead]
    by_cases hc : c = '/'
    · simp only [hc, beq_self_eq_true, if_true, List.mem_cons]
      rintro n (rfl | hn)
      · simp
      · exact ih n hn
    · rw [if_neg (by simpa using hc)]
      rcases hs : cs.splitOn '/' with _ | ⟨hd, tl⟩
      · exact absurd hs (List.splitOn_ne_nil _ _)
      · rw [hs] at ih
        simp only [List.modifyHead_cons, List.mem_cons]
        rintro n (rfl | hn)
        · have hhd := ih hd (List.mem_cons_self ..)
          simp only [List.mem_cons, not_or]
          exact ⟨fun h => hc h.symm, hhd⟩
        · exact ih n (List.mem_cons_of_mem _ hn)

/-! ## The shape of the component stack -/

/-- Names on top, `..`s at the bottom. -/
def StackOK (stack : List Str) : Prop :=
  ∃ names dots, stack = names ++ dots ∧ (∀ n ∈ names, NormalName n) ∧ ∀ d ∈ dots, d = dotdot

theorem stackOK_nil : StackOK [] := ⟨[], [], rfl, by simp, by simp⟩

/-- A name goes on top, `..` removes one or joins the `..`s. -/
theorem cleanStep_ok {rooted : Bool} {stack : List Str} {part : Str} (hpart : '/' ∉ part)
    (h : StackOK stack) : StackOK (cleanStep rooted stack part) := by
  unfold cleanStep
  by_cases h1 : part = [] ∨ part = ['.']
  · rw [if_pos h1]; exact h
  rw [if_neg h1]
  rw [not_or] at h1
  by_cases h2 : part = dotdot
  · rw [if_pos h2]
    obtain ⟨names, dots, rfl, hn, hd⟩ := h
    cases names with
    | nil =>
      cases dots with
      | nil =>
        cases rooted with
        | true => exact stackOK_nil
        | false => exact ⟨[], [part], rfl, by simp, by simpa using h2⟩
      | cons d ds =>
        have hd0 : d = dotdot := hd d (List.mem_cons_self ..)
        show StackOK (if d = dotdot then part :: d :: ds else ds)
        rw [if_pos hd0]
        refine ⟨[], part :: d :: ds, rfl, by simp, ?_⟩
        intro x hx
        rcases List.mem_cons.mp hx with rfl | hx
        · exact h2
        · exact hd x hx
    | cons n ns =>
      have hn0 : n ≠ dotdot := (hn n (List.mem_cons_self ..)).2.2.2
      show StackOK (if n = dotdot then part :: n :: (ns ++ dots) else ns ++ dots)
      rw [if_neg hn0]
      exact ⟨ns, dots, rfl, fun x hx => hn x (List.mem_cons_of_mem _ hx), hd⟩
  · rw [if_neg h2]
    obtain ⟨names, dots, rfl, hn, hd⟩ := h
    refine ⟨part :: names, dots, rfl, ?_, hd⟩
    intro x hx
    rcases List.mem_cons.mp hx with rfl | hx
    · exact ⟨h1.1, hpart, h1.2, h2⟩
    · exact hn x hx

theorem foldl_cleanStep_ok {rooted : Bool} {parts : List Str} (hp : ∀ n ∈ parts, '/' ∉ n) :
    ∀ {stack : List Str}, StackOK stack → StackOK (parts.foldl (cleanStep rooted) stack) := by
  induction parts with
  | nil => exact fun h => h
  | cons n ns ih =>
    intro stack h
    exact ih (fun x hx => hp x (List.mem_cons_of_mem _ hx))
      (cleanStep_ok (hp n (List.mem_cons_self ..)) h)

/-- The components of a cleaned path: first the `..`s, then names. -/
theorem cleanParts_shape (p : Str) : ∃ dots names, cleanParts p = dots ++ names ∧
    (∀ d ∈ dots, d = dotdot) ∧ ∀ n ∈ names, NormalName n := by
  have hok : StackOK ((p.splitOn '/').foldl (cleanStep (p.head? = some '/')) []) :=
    foldl_cleanStep_ok (mem_splitOn_no_slash p) stackOK_nil
  obtain ⟨names, dots, hs, hn, hd⟩ := hok
  refine ⟨dots.reverse, names.reverse, ?_, ?_, ?_⟩
  · rw [cleanParts, hs, List.reverse_append]
  · intro d hd'; exact hd d (List.mem_reverse.mp hd')
  · intro n hn'; exact hn n (List.mem_reverse.mp hn')

theorem cleanParts_names {p : Str} {first : Str} {rest : List Str}
    (h : cleanParts p = first :: rest) (hf : first ≠ dotdot) :
    ∀ n ∈ cleanParts p, NormalName n := by
  obtain ⟨dots, names, hs, hd, hn⟩ := cleanParts_shape p
  cases dots with
  | nil => rw [hs]; exact hn
  | cons d ds =>
    rw [hs] at h
    have hfd : d = first := (List.cons.inj h).1
    exact absurd (hfd ▸ hd d (List.mem_cons_self ..)) hf

/-! ## Names are stable under cleaning -/

theorem foldl_cleanStep_names {rooted : Bool} {parts : List Str}
    (hp : ∀ n ∈ parts, NormalName n) :
    ∀ stack : List Str, parts.foldl (cleanStep rooted) stack = parts.reverse ++ stack := by
  induction parts with
  | nil => intro stack; rfl
  | cons n ns ih =>
    intro stack
    obtain ⟨hne, -, hdot, hdd⟩ := hp n (List.mem_cons_self ..)
    have hstep : cleanStep rooted stack n = n :: stack := by
      unfold cleanStep
      rw [if_neg (by simp [hne, hdot]), if_neg hdd]
    rw [List.foldl_cons, hstep, ih (fun x hx => hp x (List.mem_cons_of_mem _ hx))]
    simp

theorem cleanParts_join {parts : List Str} (hne : parts ≠ []) (hp : ∀ n ∈ parts, NormalName n) :
    cleanParts (join parts) = parts := by
  rw [cleanParts, splitOn_join hne (fun n hn => (hp n hn).2.1), foldl_cleanStep_names hp]
  simp

theorem head_join_ne_slash {parts : List Str} (hne : parts ≠ [])
    (hp : ∀ n ∈ parts, NormalName n) : (join parts).head? ≠ some '/' := by
  cases parts with
  | nil => exact absurd rfl hne
  | cons n ns =>
    obtain ⟨hn0, hslash, -, -⟩ := hp n (List.mem_cons_self ..)
    obtain ⟨c, cs, rfl⟩ := List.exists_cons_of_ne_nil hn0
    have hc : c ≠ '/' := fun h => hslash (h ▸ List.mem_cons_self ..)
    cases ns with
    | nil => simpa [join] using hc
    | cons m ms => simpa [join, List.intercalate_cons_cons] using hc

/-- **Cleaning is the identity on joined names.** -/
theorem clean_join {parts : List Str} (hne : parts ≠ []) (hp : ∀ n ∈ parts, NormalName n) :
    clean (join parts) = join parts := by
  rw [clean, if_neg (head_join_ne_slash hne hp), cleanParts_join hne hp, if_neg hne]

end Bpc.SlashPath

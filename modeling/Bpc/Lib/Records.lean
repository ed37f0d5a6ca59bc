/-
  RECORD TEXTS — a list of records written one behind the other.

  A record is a KEY, a separator, a TAG of fixed length and an end mark.  If no key holds a whole
  group of its own (`Clear`), the text determines its records (`text_inj`); otherwise not
  (`text_merged`).
-/
import Mathlib

namespace Bpc

/-- The marks of a record text. -/
structure Records (α : Type) where
  sep : α
  stop : α
  IsTag : List α → Prop
  tagLength : Nat
  length_tag : ∀ {t}, IsTag t → t.length = tagLength
  sep_notMem_tag : ∀ {t}, IsTag t → sep ∉ t
  sep_ne_stop : sep ≠ stop

namespace Records

variable {α : Type} (M : Records α)

/-- Records one behind the other. -/
def text (records : List (List α × List α)) : List α :=
  records.flatMap fun r => r.1 ++ M.sep :: (r.2 ++ [M.stop])

/-- No "separator, tag, end mark" inside the key. -/
def Clear (key : List α) : Prop :=
  ∀ before tag after, key = before ++ M.sep :: (tag ++ M.stop :: after) → ¬ M.IsTag tag

variable {M}

theorem clear_of_notMem {key : List α} (h : M.sep ∉ key) : M.Clear key := by
  rintro before tag after rfl
  exact absurd (by simp) h

theorem text_cons (key tag : List α) (records : List (List α × List α)) :
    M.text ((key, tag) :: records) = key ++ M.sep :: (tag ++ M.stop :: M.text records) := by
  show (key ++ M.sep :: (tag ++ [M.stop])) ++ M.text records = _
  simp

/-- **A key that holds a group reads as two records.** -/
theorem text_merged (k t k' t' : List α) (records : List (List α × List α)) :
    M.text ((k ++ M.sep :: (t ++ M.stop :: k'), t') :: records) =
      M.text ((k, t) :: (k', t') :: records) := by
  simp only [text_cons, List.append_assoc, List.cons_append]

/-- A key cannot reach beyond the first record without holding its group. -/
theorem extension_nil {tag tag' extra rest rest' key : List α} (htag : M.IsTag tag)
    (hclear : M.Clear (key ++ extra))
    (heq : M.sep :: (tag ++ M.stop :: rest) = extra ++ M.sep :: (tag' ++ M.stop :: rest')) :
    extra = [] := by
  cases extra with
  | nil => rfl
  | cons c extra =>
    exfalso
    obtain ⟨rfl, htail⟩ := List.cons.inj heq
    -- where the second separator falls: behind the end mark, or inside the tag and its end mark
    have heq' : (tag ++ [M.stop]) ++ rest = extra ++ (M.sep :: (tag' ++ M.stop :: rest')) := by
      show _ = extra.append _
      rw [← htail]
      simp
    obtain ⟨after, hextra, -⟩ | ⟨inside, hinside, hafter⟩ := List.append_eq_append_iff.mp heq'
    · refine hclear key tag after ?_ htag
      rw [hextra]
      simp
    · have hsep : M.sep ∈ tag ++ [M.stop] ∨ inside = [] := by
        cases inside with
        | nil => exact Or.inr rfl
        | cons d inside =>
          obtain ⟨rfl, -⟩ := List.cons.inj hafter
          rw [hinside]
          exact Or.inl (by simp)
      obtain hsep | rfl := hsep
      · obtain hsep | hsep := List.mem_append.mp hsep
        · exact M.sep_notMem_tag htag hsep
        · exact M.sep_ne_stop (List.mem_singleton.mp hsep)
      · refine hclear key tag [] ?_ htag
        rw [List.append_nil] at hinside
        rw [← hinside]

/-- **The first record of a text is determined.** -/
theorem record_inj {key tag rest key' tag' rest' : List α} (hkey : M.Clear key)
    (hkey' : M.Clear key') (htag : M.IsTag tag) (htag' : M.IsTag tag')
    (heq : key ++ M.sep :: (tag ++ M.stop :: rest) =
      key' ++ M.sep :: (tag' ++ M.stop :: rest')) :
    key = key' ∧ tag = tag' ∧ rest = rest' := by
  have hsame : key = key' := by
    obtain ⟨extra, hlong, hrest⟩ | ⟨extra, hlong, hrest⟩ := List.append_eq_append_iff.mp heq
    · rw [hlong] at hkey' ⊢
      rw [extension_nil htag hkey' hrest, List.append_nil]
    · rw [hlong] at hkey ⊢
      rw [extension_nil htag' hkey hrest, List.append_nil]
  subst hsame
  have htail := (List.cons.inj (List.append_cancel_left heq)).2
  have hlength : tag.length = tag'.length := by rw [M.length_tag htag, M.length_tag htag']
  obtain ⟨rfl, hstop⟩ := List.append_inj htail hlength
  exact ⟨rfl, rfl, (List.cons.inj hstop).2⟩

theorem text_cons_ne_nil (key tag : List α) (records : List (List α × List α)) :
    M.text ((key, tag) :: records) ≠ [] := by
  rw [text_cons]
  simp

/-- **A text of clear records determines the records.** -/
theorem text_inj : ∀ {records records' : List (List α × List α)},
    (∀ r ∈ records, M.Clear r.1 ∧ M.IsTag r.2) → (∀ r ∈ records', M.Clear r.1 ∧ M.IsTag r.2) →
    M.text records = M.text records' → records = records'
  | [], [], _, _, _ => rfl
  | [], (key, tag) :: records, _, _, heq => absurd heq.symm (text_cons_ne_nil key tag records)
  | (key, tag) :: records, [], _, _, heq => absurd heq (text_cons_ne_nil key tag records)
  | (key, tag) :: records, (key', tag') :: records', h, h', heq => by
    rw [text_cons, text_cons] at heq
    obtain ⟨hkey, htag⟩ := h _ List.mem_cons_self
    obtain ⟨hkey', htag'⟩ := h' _ List.mem_cons_self
    obtain ⟨rfl, rfl, hrest⟩ := record_inj hkey hkey' htag htag' heq
    rw [text_inj (fun r hr => h r (List.mem_cons_of_mem _ hr))
      (fun r hr => h' r (List.mem_cons_of_mem _ hr)) hrest]

end Records

end Bpc

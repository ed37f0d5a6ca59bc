/-
  The REPLAY WINDOW of a mesh peer (`acceptSequenceLocked`).

  1. **Interface** — of EVERY window: an accepted number is refused from then on
     (`refuses_of_accept`), and a refused number stays refused (`refuses_keeps`).
  2. **Specification** — a window REPRESENTS the list of numbers it took, so acceptance is a
     condition on the list, in integers without wrap-around.
-/
import Mathlib

namespace Bpc.Routed

/-- The receive half of `meshPeer`: `recvHigh` and `recvMask`. -/
structure Window where
  recvHigh : UInt64
  recvMask : UInt64
  deriving Repr, DecidableEq

/-- The window after a new remote epoch has been installed. -/
def Window.fresh : Window := ⟨0, 0⟩

/-- `acceptSequenceLocked`; `none` is the refusal. -/
def Window.acceptSequence (w : Window) (sequence : UInt64) : Option Window :=
  if sequence = 0 then none
  else if w.recvHigh = 0 then some ⟨sequence, 1⟩
  else if w.recvHigh < sequence then
    let shift := sequence - w.recvHigh
    some ⟨sequence, if 64 ≤ shift then 1 else (w.recvMask <<< shift) ||| 1⟩
  else
    let delta := w.recvHigh - sequence
    if 64 ≤ delta then none
    else
      let bit := (1 : UInt64) <<< delta
      if w.recvMask &&& bit ≠ 0 then none
      else some ⟨w.recvHigh, w.recvMask ||| bit⟩

/-- The number is not accepted. -/
def Window.Refuses (w : Window) (sequence : UInt64) : Prop := w.acceptSequence sequence = none

/-! ## The mask, bit by bit -/

/-- Bit `d` of the mask. -/
def Window.taken (w : Window) (d : Nat) : Bool := w.recvMask.toBitVec.getLsbD d

theorem getLsbD_shift {m k : UInt64} (hk : k.toNat < 64) (d : Nat) :
    (m <<< k).toBitVec.getLsbD d = (decide (d < 64) && !decide (d < k.toNat) &&
      m.toBitVec.getLsbD (d - k.toNat)) := by
  have hmod : (k.toBitVec % 64).toNat = k.toNat := by
    have h : (k.toBitVec % 64).toNat = k.toNat % 64 := by simp
    omega
  rw [UInt64.toBitVec_shiftLeft, BitVec.shiftLeft_eq', hmod, BitVec.getLsbD_shiftLeft]

theorem getLsbD_one (d : Nat) : (1 : UInt64).toBitVec.getLsbD d = decide (d = 0) := by
  show (1#64).getLsbD d = decide (d = 0)
  simp [BitVec.getLsbD_one]

theorem getLsbD_bit {k : UInt64} (hk : k.toNat < 64) (d : Nat) :
    ((1 : UInt64) <<< k).toBitVec.getLsbD d = decide (d = k.toNat) := by
  rw [getLsbD_shift hk, getLsbD_one]
  grind

theorem and_bit_ne_zero {m k : UInt64} (hk : k.toNat < 64) :
    m &&& ((1 : UInt64) <<< k) ≠ 0 ↔ m.toBitVec.getLsbD k.toNat = true := by
  constructor
  · intro h
    by_contra hbit
    apply h
    apply UInt64.toBitVec_inj.mp
    apply BitVec.eq_of_getLsbD_eq
    intro i hi
    rw [UInt64.toBitVec_and, BitVec.getLsbD_and, getLsbD_bit hk]
    by_cases hik : i = k.toNat
    · rw [hik, Bool.eq_false_iff.mpr hbit]
      simp
    · simp [hik]
  · intro hbit h
    have hzero : (m &&& ((1 : UInt64) <<< k)).toBitVec.getLsbD k.toNat = false := by
      rw [h]
      simp
    rw [UInt64.toBitVec_and, BitVec.getLsbD_and, getLsbD_bit hk, hbit] at hzero
    simp at hzero

/-! ## What a window refuses -/

theorem sub_toNat {a b : UInt64} (h : b ≤ a) : (a - b).toNat = a.toNat - b.toNat :=
  UInt64.toNat_sub_of_le a b h

theorem sixtyFour_le {a : UInt64} : 64 ≤ a ↔ 64 ≤ a.toNat := UInt64.le_iff_toNat_le

/-- **The refusals in plain numbers**: zero, and a number that has left the mask or whose bit is
    set. -/
theorem refuses_iff (w : Window) (n : UInt64) :
    w.Refuses n ↔ n = 0 ∨ (w.recvHigh ≠ 0 ∧ n.toNat ≤ w.recvHigh.toNat ∧
      (64 ≤ w.recvHigh.toNat - n.toNat ∨ w.taken (w.recvHigh.toNat - n.toNat) = true)) := by
  unfold Window.Refuses Window.acceptSequence
  by_cases hzero : n = 0
  · simp [hzero]
  by_cases hhigh : w.recvHigh = 0
  · simp [hzero, hhigh]
  by_cases hlt : w.recvHigh < n
  · have hlt' : w.recvHigh.toNat < n.toNat := UInt64.lt_iff_toNat_lt.mp hlt
    simp only [hzero, hhigh, hlt, if_true, if_false, reduceCtorEq, false_or, false_iff]
    intro hle
    omega
  · have hle : n ≤ w.recvHigh := UInt64.not_lt.mp hlt
    have hle' : n.toNat ≤ w.recvHigh.toNat := UInt64.le_iff_toNat_le.mp hle
    have hsub := sub_toNat hle
    by_cases hold : 64 ≤ w.recvHigh - n
    · have hold' : 64 ≤ w.recvHigh.toNat - n.toNat := hsub ▸ sixtyFour_le.mp hold
      simp [hzero, hhigh, hlt, hold, hle', hold']
    · have hnew : (w.recvHigh - n).toNat < 64 := Nat.lt_of_not_le (mt sixtyFour_le.mpr hold)
      have hbit := and_bit_ne_zero (m := w.recvMask) hnew
      have hnew' : ¬ 64 ≤ w.recvHigh.toNat - n.toNat := by omega
      rw [hsub] at hbit
      by_cases hset : w.recvMask &&& ((1 : UInt64) <<< (w.recvHigh - n)) ≠ 0
      · have htaken : w.taken (w.recvHigh.toNat - n.toNat) = true := hbit.mp hset
        simp [hzero, hhigh, hlt, hold, hle', hset, htaken]
      · have htaken : ¬ w.taken (w.recvHigh.toNat - n.toNat) = true := mt hbit.mpr hset
        simp [hzero, hhigh, hlt, hold, hle', hnew', hset, htaken]

theorem taken_raised (w : Window) (n : UInt64) (d : Nat) :
    (Window.mk n (if 64 ≤ n - w.recvHigh then 1
        else (w.recvMask <<< (n - w.recvHigh)) ||| 1)).taken d = true ↔
      d = 0 ∨ (d < 64 ∧ (n - w.recvHigh).toNat ≤ d ∧
        w.taken (d - (n - w.recvHigh).toNat) = true) := by
  by_cases hfar : 64 ≤ n - w.recvHigh
  · have hfar' := sixtyFour_le.mp hfar
    simp only [Window.taken, if_pos hfar, getLsbD_one, decide_eq_true_iff]
    omega
  · have hnear : (n - w.recvHigh).toNat < 64 := Nat.lt_of_not_le (mt sixtyFour_le.mpr hfar)
    simp only [Window.taken, if_neg hfar, UInt64.toBitVec_or, BitVec.getLsbD_or,
      getLsbD_shift hnear, getLsbD_one, Bool.or_eq_true, Bool.and_eq_true, decide_eq_true_iff,
      Bool.not_eq_true', decide_eq_false_iff_not, Nat.not_lt, and_assoc, or_comm]

/-- The number is the new highest and the mask moves up, or its bit is added. -/
theorem accept_cases {w w' : Window} {n : UInt64} (h : w.acceptSequence n = some w') :
    n ≠ 0 ∧
    ((w.recvHigh = 0 ∧ w' = ⟨n, 1⟩) ∨
     (w.recvHigh ≠ 0 ∧ w.recvHigh.toNat < n.toNat ∧ w'.recvHigh = n ∧
        ∀ d, w'.taken d = true ↔ d = 0 ∨ (d < 64 ∧ n.toNat - w.recvHigh.toNat ≤ d ∧
          w.taken (d - (n.toNat - w.recvHigh.toNat)) = true)) ∨
     (w.recvHigh ≠ 0 ∧ n.toNat ≤ w.recvHigh.toNat ∧ w'.recvHigh = w.recvHigh ∧
        ∀ d, w'.taken d = true ↔ d = w.recvHigh.toNat - n.toNat ∨ w.taken d = true)) := by
  unfold Window.acceptSequence at h
  split at h
  · cases h
  rename_i hzero
  refine ⟨hzero, ?_⟩
  split at h
  · rename_i hhigh
    exact .inl ⟨hhigh, (Option.some.inj h).symm⟩
  rename_i hhigh
  split at h
  · rename_i hlt
    have hsub := sub_toNat (UInt64.le_of_lt hlt)
    obtain rfl := Option.some.inj h
    refine .inr (.inl ⟨hhigh, UInt64.lt_iff_toNat_lt.mp hlt, rfl, fun d => ?_⟩)
    rw [← hsub]
    exact taken_raised w n d
  · rename_i hlt
    have hle : n ≤ w.recvHigh := UInt64.not_lt.mp hlt
    have hsub := sub_toNat hle
    dsimp only at h
    split at h
    · cases h
    rename_i hnew
    have hnew' : (w.recvHigh - n).toNat < 64 := Nat.lt_of_not_le (mt sixtyFour_le.mpr hnew)
    split at h
    · cases h
    obtain rfl := Option.some.inj h
    refine .inr (.inr ⟨hhigh, UInt64.le_iff_toNat_le.mp hle, rfl, fun d => ?_⟩)
    show (w.recvMask ||| ((1 : UInt64) <<< (w.recvHigh - n))).toBitVec.getLsbD d = true ↔ _
    rw [UInt64.toBitVec_or, BitVec.getLsbD_or, getLsbD_bit hnew', hsub, Bool.or_eq_true,
      decide_eq_true_iff, or_comm]
    rfl

/-! ## The interface -/

theorem refuses_of_accept {w w' : Window} {n : UInt64} (h : w.acceptSequence n = some w') :
    w'.Refuses n := by
  obtain ⟨hzero, hfirst | ⟨_, hlt, hnew, hmask⟩ | ⟨hhigh, hle, hsame, hmask⟩⟩ := accept_cases h
  · rw [hfirst.2, refuses_iff]
    refine .inr ⟨hzero, Nat.le_refl _, .inr ?_⟩
    show (1 : UInt64).toBitVec.getLsbD (n.toNat - n.toNat) = true
    rw [getLsbD_one, Nat.sub_self]
    rfl
  · rw [refuses_iff, hnew]
    refine .inr ⟨hzero, Nat.le_refl _, .inr ?_⟩
    rw [hmask, Nat.sub_self]
    exact .inl rfl
  · rw [refuses_iff, hsame]
    exact .inr ⟨hhigh, hle, .inr ((hmask _).mpr (.inl rfl))⟩

/-- **Refusal is permanent.** -/
theorem refuses_keeps {w w' : Window} {m n : UInt64} (h : w.acceptSequence m = some w')
    (hn : w.Refuses n) : w'.Refuses n := by
  rw [refuses_iff] at hn ⊢
  obtain hn | ⟨hhigh, hle, hn⟩ := hn
  · exact .inl hn
  right
  obtain ⟨hzero, hfirst | ⟨_, hlt, hnew, hmask⟩ | ⟨_, _, hsame, hmask⟩⟩ := accept_cases h
  · exact absurd hfirst.1 hhigh
  · -- the mask moves up with the highest number, so the distance grows by the same amount
    rw [hnew]
    refine ⟨hzero, by omega, ?_⟩
    by_cases hold : 64 ≤ m.toNat - n.toNat
    · exact .inl hold
    · right
      rw [hmask]
      obtain hn | hn := hn
      · omega
      · refine .inr ⟨by omega, by omega, ?_⟩
        have hdist : m.toNat - n.toNat - (m.toNat - w.recvHigh.toNat) =
            w.recvHigh.toNat - n.toNat := by omega
        rw [hdist]
        exact hn
  · rw [hsame]
    refine ⟨hhigh, hle, hn.imp_right fun hbit => ?_⟩
    rw [hmask]
    exact .inr hbit

/-! ## The specification -/

/-- One number is shown; `accepted` is newest first. -/
def Window.offer (state : Window × List UInt64) (sequence : UInt64) : Window × List UInt64 :=
  match state.1.acceptSequence sequence with
  | none => state
  | some w => (w, sequence :: state.2)

/-- A sequence of numbers is shown to a fresh window. -/
def Window.present (sequences : List UInt64) : Window × List UInt64 :=
  sequences.foldl Window.offer (.fresh, [])

/-- No number is zero, `recvHigh` is the highest, and bit `d` stands for the number `d` below it. -/
structure Window.Represents (w : Window) (accepted : List UInt64) : Prop where
  nonzero : 0 ∉ accepted
  empty : w.recvHigh = 0 → accepted = []
  highest : w.recvHigh ≠ 0 → w.recvHigh ∈ accepted
  below : ∀ n ∈ accepted, n.toNat ≤ w.recvHigh.toNat
  mask : ∀ d < 64, w.taken d = true ↔ ∃ n ∈ accepted, n.toNat + d = w.recvHigh.toNat

theorem Window.Represents.accept {w w' : Window} {accepted : List UInt64} {n : UInt64}
    (hw : w.Represents accepted) (h : w.acceptSequence n = some w') :
    w'.Represents (n :: accepted) := by
  obtain ⟨hzero, ⟨hhigh, rfl⟩ | ⟨hhigh, hlt, hnew, hmask⟩ | ⟨hhigh, hle, hsame, hmask⟩⟩ :=
    accept_cases h
  · obtain rfl := hw.empty hhigh
    refine ⟨by simp [Ne.symm hzero], fun hn => absurd hn hzero, by simp, by simp, ?_⟩
    intro d hd
    show (1 : UInt64).toBitVec.getLsbD d = true ↔ _
    rw [getLsbD_one]
    simp
  · refine ⟨by simp [Ne.symm hzero, hw.nonzero], fun hn => absurd (hnew ▸ hn) hzero, ?_, ?_, ?_⟩
    · intro _
      rw [hnew]
      exact List.mem_cons_self
    · intro m hm
      rw [hnew]
      obtain rfl | hm := List.mem_cons.mp hm
      · exact Nat.le_refl _
      · have hm' := hw.below m hm
        omega
    · -- a number `d` below the new highest is `n` itself, or was already that far below the old
      intro d hd
      rw [hmask, hnew]
      simp only [List.mem_cons, exists_eq_or_imp]
      refine or_congr (by omega) ⟨?_, ?_⟩
      · rintro ⟨_, hfar, hbit⟩
        obtain ⟨m, hm, hmd⟩ := (hw.mask _ (by omega)).mp hbit
        exact ⟨m, hm, by omega⟩
      · rintro ⟨m, hm, hmd⟩
        have hm' := hw.below m hm
        exact ⟨hd, by omega, (hw.mask _ (by omega)).mpr ⟨m, hm, by omega⟩⟩
  · refine ⟨by simp [Ne.symm hzero, hw.nonzero], fun hn => absurd (hsame ▸ hn) hhigh, ?_, ?_, ?_⟩
    · intro _
      rw [hsame]
      exact List.mem_cons_of_mem _ (hw.highest hhigh)
    · intro m hm
      rw [hsame]
      obtain rfl | hm := List.mem_cons.mp hm
      · exact hle
      · exact hw.below m hm
    · intro d hd
      rw [hmask, hsame, hw.mask d hd]
      simp only [List.mem_cons, exists_eq_or_imp]
      exact or_congr (by omega) Iff.rfl

theorem represents_present (sequences : List UInt64) :
    (Window.present sequences).1.Represents (Window.present sequences).2 := by
  have hrun : ∀ state : Window × List UInt64, state.1.Represents state.2 →
      (sequences.foldl Window.offer state).1.Represents (sequences.foldl Window.offer state).2 := by
    induction sequences with
    | nil => exact fun _ hstate => hstate
    | cons n rest ih =>
      intro state hstate
      apply ih
      unfold Window.offer
      cases h : state.1.acceptSequence n with
      | none => exact hstate
      | some w => exact hstate.accept h
  refine hrun (.fresh, []) ⟨List.not_mem_nil, fun _ => rfl, fun h => absurd rfl h, ?_, ?_⟩
  · exact fun n hn => absurd hn List.not_mem_nil
  · intro d _
    show (0 : UInt64).toBitVec.getLsbD d = true ↔ _
    simp

/-- **The window is its specification**: a number is accepted exactly when it is not zero, was not
    accepted before, and lies less than 64 below the highest accepted number, in integers. -/
theorem accepts_iff_new_within_64 (sequences : List UInt64) (s : UInt64) :
    ((Window.present sequences).1.acceptSequence s).isSome ↔
      s ≠ 0 ∧ s ∉ (Window.present sequences).2 ∧
        ((Window.present sequences).2 = [] ∨
          ∃ highest ∈ (Window.present sequences).2,
            (∀ n ∈ (Window.present sequences).2, n.toNat ≤ highest.toNat) ∧
            (highest.toNat : Int) - 64 < s.toNat) := by
  have hw := represents_present sequences
  generalize (Window.present sequences).1 = w at hw ⊢
  generalize (Window.present sequences).2 = accepted at hw ⊢
  have hrefuses := refuses_iff w s
  unfold Window.Refuses at hrefuses
  rw [Option.isSome_iff_ne_none, Ne, hrefuses, not_or]
  refine and_congr_right fun hzero => ?_
  by_cases hhigh : w.recvHigh = 0
  · obtain rfl := hw.empty hhigh
    simp [hhigh]
  have hmem := hw.highest hhigh
  have hne : accepted ≠ [] := List.ne_nil_of_mem hmem
  simp only [hhigh, not_false_eq_true, ne_eq, true_and, hne, false_or, not_and, not_or]
  constructor
  · intro h
    refine ⟨fun hs => ?_, w.recvHigh, hmem, hw.below, ?_⟩
    · obtain ⟨hnear, hbit⟩ := h (hw.below s hs)
      have hle := hw.below s hs
      exact hbit ((hw.mask _ (by omega)).mpr ⟨s, hs, by omega⟩)
    · by_cases hle : s.toNat ≤ w.recvHigh.toNat
      · have hnear := (h hle).1
        omega
      · omega
  · rintro ⟨hs, highest, hhighest, hmax, hnear⟩ hle
    have hsame := hw.below highest hhighest
    have hsame' := hmax _ hmem
    refine ⟨by omega, fun hbit => ?_⟩
    obtain ⟨n, hn, hnd⟩ := (hw.mask _ (by omega)).mp hbit
    have hns : n = s := UInt64.toNat_inj.mp (by omega)
    exact hs (hns ▸ hn)

end Bpc.Routed

/-
  A HANDLER THAT RUNS ALONE — calls of one process, with no other in between.

  `frozen` answers reads.  A run of `mutation` leaves the content as it was, or that of one commit
  (`runs_mutation`); it may have committed although it ends with an error.
-/
import Bpc.Deploy.Calls
import Bpc.Lib.Alone

namespace Bpc.Deploy

open SlashPath Controlplane Interaction

variable {Data : Type} {P : Runtime Data}

/-! ## A world that does not change -/

/-- The answers of `perform` to reads; a barrier may fail. -/
def frozen (w : World Data) (failure : Option ControlStateError) : (r : Req Data) → Ans r
  | .barrier =>
    match failure with
    | some e => .error e
    | none => .ok w.content.revision
  | .readFile path => if isReplicated path then w.content.canonical[path]? else w.localFiles[path]?
  | .glob d => globNames w.content.canonical d
  | .mutate _ _ => .error ⟨[], 500⟩
  | .time => 0
  | .random _ => []
  | .secret => []
  | .hashPassword _ => []
  | .outside _ => .ok .null

theorem startWorld_file {records : List (Dir × Str × Record)} {drawn : List Str} {d : Dir} {x : Str}
    {r : Record} (hkeys : (records.map fun e => recordKey e.1 e.2.1).Nodup)
      (h : (d, x, r) ∈ records) :
    (startWorld P records drawn).content.canonical[recordKey d x]? = some (P.dumps r) := by
  refine SortedMap.get_insertPairs_of_mem ?_ (List.mem_map.mpr ⟨(d, x, r), h, rfl⟩)
  rw [List.map_map]
  exact hkeys

/-! ## Writing -/

section

variable {w w' : World Data}

theorem runs_file {ε α : Type} {path : Str} {k : Option Data → Prog (Req Data) Ans ε α}
    {res : Except ε α} (hrep : isReplicated path = true)
    (h : Runs (perform P) w (.call (.readFile path) k) res w') :
    Runs (perform P) w (k (w.content.canonical[path]?)) res w' := by
  obtain ⟨o, a, w₁, hperform, hrest⟩ := h.call_cases
  obtain ⟨rfl, rfl⟩ := perform_readFile hrep hperform
  exact hrest

/-- **A run of `mutation`** changes nothing, or commits the operations. -/
theorem runs_mutation {kind : Str} {operations : List (Operation Data)}
    {res : Except PyError UInt64}
    (h : Runs (perform P) w (mutation kind operations) res w') :
    w' = w ∨ ∃ encoded ops content command, encodeOperations operations = .ok encoded ∧
      normalizeOps encoded = .ok ops ∧ Commits P.codec w.content command ops content ∧
      w' = { w with content := content, log := ⟨w.content, kind, ops, content⟩ :: w.log } := by
  rcases h.bind_cases with ⟨e, hencode, _⟩ | ⟨encoded, w₁, hencode, hrest⟩
  · left
    cases hops : encodeOperations operations with
    | ok encoded =>
      rw [hops] at hencode
      cases hencode
    | error e' =>
      rw [hops] at hencode
      cases hencode
      rfl
  cases hops : encodeOperations operations with
  | error e' =>
    rw [hops] at hencode
    cases hencode
  | ok encoded' =>
    rw [hops] at hencode
    cases hencode
    obtain ⟨o, a, w₂, hperform, hlast⟩ := Runs.call_cases hrest
    -- what follows the call changes nothing
    have hw : w' = w₂ := by
      cases a with
      | ok revision =>
        cases hlast
        rfl
      | error e =>
        cases hlast
        rfl
    subst hw
    rcases perform_mutate hperform with ⟨rfl, _⟩ | ⟨ops, content, command, hnormal,
      hcommits, rfl, _⟩
    · exact .inl rfl
    · exact .inr ⟨encoded, ops, content, command, rfl, hnormal, hcommits, rfl⟩

end

end Bpc.Deploy

/-
  MUTATIONS — the replicated command and its effect on the canonical bucket (fsm.go, store.go).

  `applyOps` is the plain effect.  The loop of the Bolt transaction is that, or fails
  (`commitOps_eq`); the prediction of the validator is that, below one prefix
  (`get_resultingPrefixRecords`).  `Codec` is what the code takes from outside.
-/
import Bpc.Controlplane.Path
import Bpc.Lib.SortedMap

namespace Bpc.Controlplane

open SlashPath

/-! ## Data -/

/-- The `op` field: any text can arrive, two are supported. -/
inductive OpKind where
  | put
  | delete
  | unsupported (op : Str)
  deriving DecidableEq

/-- `Operation`, with its preconditions. -/
structure Operation (Data : Type) where
  op : OpKind
  path : Str
  data : Data
  ifAbsent : Bool
  requirePresent : Bool
  expectedSHA256 : Str

/-- `Mutation`, without the `issued_at` stamp that nothing reads. -/
structure Mutation (Data : Type) where
  version : Int
  id : Str
  kind : Str
  operations : List (Operation Data)
  revisionMinimum : UInt64

/-- `routeOwnershipRecord`. -/
structure RouteOwnershipRecord where
  cidr : Str
  nodeID : Str
  ownerNodeID : Str

/-- `routeOwnerNodeRecord`; a role that is not listed reads as `false`. -/
structure RouteOwnerNodeRecord where
  authorizedRoutes : Option (List Str)
  advertisedRoutes : List Str
  nodeID : Str
  revoked : Bool
  roles : Str → Bool

/-- What is taken from `encoding/json`, `crypto/sha256` and `len`. -/
structure Codec (Payload Data : Type) where
  unmarshalMutation : Payload → Except Str (Mutation Data)
  unmarshalRoute : Data → Option RouteOwnershipRecord
  unmarshalNode : Data → Option RouteOwnerNodeRecord
  sha256Hex : Data → Str
  dataLen : Data → Nat

/-- The canonical bucket: keys in byte order, which is code-point order. -/
abbrev Bucket (Data : Type) := SortedMap Str Data

variable {Payload Data : Type}

/-! ## Effect of the operations -/

/-- The plain effect of one operation. -/
def applyOp (bucket : Bucket Data) (op : Operation Data) : Bucket Data :=
  match op.op with
  | .put => bucket.insert op.path op.data
  | .delete => bucket.erase op.path
  | .unsupported _ => bucket

/-- The plain effect of a list of operations, in order. -/
def applyOps (bucket : Bucket Data) (ops : List (Operation Data)) : Bucket Data :=
  ops.foldl applyOp bucket

/-- Bolt's `MaxKeySize`. -/
def maxKeySize : Nat := 32768

/-- Bolt's `MaxValueSize`. -/
def maxValueSize : Nat := 2 ^ 31 - 2

/-- `len` of a text. -/
def utf8Len (s : Str) : Nat := (s.map Char.utf8Size).sum

/-- `Bucket.Put`. -/
def boltPut (C : Codec Payload Data) (bucket : Bucket Data) (key : Str) (data : Data) :
    Except Str (Bucket Data) :=
  if maxKeySize < utf8Len key then .error "key too large"
  else if maxValueSize < C.dataLen data then .error "value too large"
  else .ok (bucket.insert key data)

variable {C : Codec Payload Data} {key : Str}

theorem boltPut_eq {bucket next : Bucket Data} {data : Data}
    (h : boltPut C bucket key data = .ok next) : next = bucket.insert key data := by
  unfold boltPut at h
  split at h
  · cases h
  · split at h
    · cases h
    · cases h; rfl

/-- The loop inside the transaction. -/
def commitOps (C : Codec Payload Data) :
    List (Operation Data) → Bucket Data → Except Str (Bucket Data)
  | [], bucket => .ok bucket
  | op :: ops, bucket =>
    match op.op with
    | .put =>
      match boltPut C bucket op.path op.data with
      | .ok next => commitOps C ops next
      | .error e => .error e
    | .delete => commitOps C ops (bucket.erase op.path)
    | .unsupported _ => commitOps C ops bucket

theorem commitOps_eq (C : Codec Payload Data) :
    ∀ {ops : List (Operation Data)} {bucket bucket' : Bucket Data},
      commitOps C ops bucket = .ok bucket' → bucket' = applyOps bucket ops
  | [], bucket, bucket', h => by
    cases h
    rfl
  | op :: ops, bucket, bucket', h => by
    show bucket' = applyOps (applyOp bucket op) ops
    unfold commitOps at h
    unfold applyOp
    cases hop : op.op with
    | put =>
      simp only [hop] at h ⊢
      cases hput : boltPut C bucket op.path op.data with
      | error e => rw [hput] at h; cases h
      | ok next =>
        rw [hput] at h
        have hnext : next = bucket.insert op.path op.data := boltPut_eq hput
        rw [← hnext]
        exact commitOps_eq C h
    | delete =>
      simp only [hop] at h ⊢
      exact commitOps_eq C h
    | unsupported t =>
      simp only [hop] at h ⊢
      exact commitOps_eq C h

variable {op : Operation Data}

theorem get_applyOp_of_ne (bucket : Bucket Data) (h : op.path ≠ key) :
    (applyOp bucket op)[key]? = bucket[key]? := by
  unfold applyOp
  cases op.op with
  | put => exact SortedMap.get_insert_of_ne bucket _ h
  | delete => exact SortedMap.get_erase_of_ne bucket h
  | unsupported t => rfl

theorem get_applyOps_of_forall_ne :
    ∀ {ops : List (Operation Data)} {bucket : Bucket Data} {key : Str},
      (∀ op ∈ ops, op.path ≠ key) → (applyOps bucket ops)[key]? = bucket[key]?
  | [], _, _, _ => rfl
  | op :: ops, bucket, key, h => by
    show (applyOps (applyOp bucket op) ops)[key]? = bucket[key]?
    rw [get_applyOps_of_forall_ne fun o ho => h o (List.mem_cons_of_mem _ ho),
      get_applyOp_of_ne bucket (h op (List.mem_cons_self ..))]

theorem get_applyOps_of_puts :
    ∀ {ops : List (Operation Data)} {bucket : Bucket Data} {key : Str},
      (∀ op ∈ ops, op.path = key → op.op = .put) →
        (applyOps bucket ops)[key]? = bucket[key]? ∨
        ∃ op ∈ ops, op.path = key ∧ (applyOps bucket ops)[key]? = some op.data
  | [], _, _, _ => Or.inl rfl
  | op :: ops, bucket, key, h => by
    obtain hrest | ⟨o, ho, hpath, hdata⟩ := get_applyOps_of_puts
      (fun o ho => h o (List.mem_cons_of_mem _ ho) : ∀ o ∈ ops, o.path = key → o.op = .put)
    · by_cases hkey : op.path = key
      · refine Or.inr ⟨op, List.mem_cons_self .., hkey, hrest.trans ?_⟩
        have hput : op.op = .put := h op (List.mem_cons_self ..) hkey
        unfold applyOp
        rw [hput]
        simp only [SortedMap.get_insert, if_pos hkey]
      · exact Or.inl (hrest.trans (get_applyOp_of_ne bucket hkey))
    · exact Or.inr ⟨o, List.mem_cons_of_mem _ ho, hpath, hdata⟩

/-- Operations applied in part: each path is as before, or as in the end. -/
theorem get_applyOps_take {ops : List (Operation Data)} (hpaths : (ops.map Operation.path).Nodup)
    (bucket : Bucket Data) (key : Str) (done : Nat) :
    (applyOps bucket (ops.take done))[key]? = bucket[key]? ∨
      (applyOps bucket (ops.take done))[key]? = (applyOps bucket ops)[key]? := by
  induction ops generalizing bucket done with
  | nil => exact .inr (by rw [List.take_nil])
  | cons op ops ih =>
    obtain ⟨hfresh, hrest⟩ := List.nodup_cons.mp hpaths
    cases done with
    | zero => exact .inl rfl
    | succ done =>
      by_cases hkey : op.path = key
      · -- the other operations leave the path alone, whether they are done or not
        have hothers : ∀ op' ∈ ops, op'.path ≠ key := fun op' hop' heq =>
          hfresh (List.mem_map.mpr ⟨op', hop', heq.trans hkey.symm⟩)
        refine .inr ?_
        show (applyOps (applyOp bucket op) (ops.take done))[key]? =
          (applyOps (applyOp bucket op) ops)[key]?
        rw [get_applyOps_of_forall_ne hothers,
          get_applyOps_of_forall_ne fun op' hop' => hothers op' (List.mem_of_mem_take hop')]
      · obtain hbefore | hafter := ih hrest (applyOp bucket op) done
        · exact .inl (hbefore.trans (get_applyOp_of_ne bucket hkey))
        · exact .inr hafter

theorem key_of_applyOps :
    ∀ {ops : List (Operation Data)} {bucket : Bucket Data} {key : Str} {v : Data},
      (applyOps bucket ops)[key]? = some v →
        bucket[key]? = some v ∨ ∃ op ∈ ops, op.op = .put ∧ op.path = key ∧ op.data = v
  | [], _, _, _, h => Or.inl h
  | op :: ops, bucket, key, v, h => by
    have h' : (applyOps (applyOp bucket op) ops)[key]? = some v := h
    rcases key_of_applyOps h' with h | ⟨o, ho, hput⟩
    · by_cases hk : op.path = key
      · unfold applyOp at h
        cases hop : op.op with
        | put =>
          rw [hop] at h
          simp only [SortedMap.get_insert, if_pos hk, Option.some.injEq] at h
          exact Or.inr ⟨op, List.mem_cons_self .., hop, hk, h⟩
        | delete =>
          rw [hop] at h
          simp only [SortedMap.get_erase, if_pos hk] at h
          cases h
        | unsupported t =>
          rw [hop] at h
          exact Or.inl h
      · exact Or.inl (by rwa [get_applyOp_of_ne bucket hk] at h)
    · exact Or.inr ⟨o, List.mem_cons_of_mem _ ho, hput⟩

/-! ## The validator's prediction -/

/-- One operation on the prediction for a prefix: others are skipped. -/
def predictOp (pre : Str) (result : Bucket Data) (op : Operation Data) : Bucket Data :=
  if pre.isPrefixOf op.path then applyOp result op else result

/-- `resultingPrefixRecords`: the records below a prefix after the operations. -/
def resultingPrefixRecords (canonical : Bucket Data) (pre : Str) (ops : List (Operation Data)) :
    Bucket Data :=
  ops.foldl (predictOp pre) (canonical.filter fun key _ => pre.isPrefixOf key)

theorem get_foldl_predictOp (pre : Str) (hkey : pre.isPrefixOf key = true) :
    ∀ {ops : List (Operation Data)} {result bucket : Bucket Data},
      result[key]? = bucket[key]? →
        (ops.foldl (predictOp pre) result)[key]? = (applyOps bucket ops)[key]?
  | [], _, _, h => h
  | op :: ops, result, bucket, h => by
    show (ops.foldl (predictOp pre) (predictOp pre result op))[key]? =
      (applyOps (applyOp bucket op) ops)[key]?
    apply get_foldl_predictOp pre hkey
    by_cases hpath : op.path = key
    · -- the operation is below the prefix, so the prediction plays it too
      rw [predictOp, if_pos (hpath ▸ hkey)]
      unfold applyOp
      cases op.op with
      | put => simp only [SortedMap.get_insert, if_pos hpath]
      | delete => simp only [SortedMap.get_erase, if_pos hpath]
      | unsupported t => exact h
    · rw [get_applyOp_of_ne bucket hpath, predictOp]
      split
      · rw [get_applyOp_of_ne result hpath, h]
      · exact h

theorem get_foldl_predictOp_outside (pre : Str) (hkey : pre.isPrefixOf key = false) :
    ∀ {ops : List (Operation Data)} {result : Bucket Data},
      result[key]? = none → (ops.foldl (predictOp pre) result)[key]? = none
  | [], _, h => h
  | op :: ops, result, h => by
    show (ops.foldl (predictOp pre) (predictOp pre result op))[key]? = none
    apply get_foldl_predictOp_outside pre hkey
    unfold predictOp
    split
    · next hp =>
      have hne : op.path ≠ key := by
        rintro rfl
        rw [hkey] at hp
        cases hp
      rw [get_applyOp_of_ne result hne, h]
    · exact h

/-- **The prediction is the committed state**, below the prefix. -/
theorem get_resultingPrefixRecords (canonical : Bucket Data) (pre : Str)
    (ops : List (Operation Data)) (key : Str) :
    (resultingPrefixRecords canonical pre ops)[key]? =
      if pre.isPrefixOf key then (applyOps canonical ops)[key]? else none := by
  unfold resultingPrefixRecords
  cases hkey : pre.isPrefixOf key with
  | true =>
    rw [if_pos rfl]
    refine get_foldl_predictOp pre hkey ?_
    rw [SortedMap.get_filter, if_pos hkey]
  | false =>
    rw [if_neg (by simp)]
    refine get_foldl_predictOp_outside pre hkey ?_
    rw [SortedMap.get_filter, if_neg (by simp [hkey])]

/-! ## Preconditions -/

/-- `strings.ToLower` on a digest. -/
def toLower (s : Str) : Str := s.map Char.toLower

/-- The preconditions of an operation, on the state BEFORE the transaction. -/
def precondition (C : Codec Payload Data) (canonical : Bucket Data) (op : Operation Data) :
    Option Str :=
  let existing := canonical[op.path]?
  if op.ifAbsent ∧ existing.isSome then some ("path already exists: " ++ op.path)
  else if op.requirePresent ∧ existing.isNone then some ("path does not exist: " ++ op.path)
  else if op.expectedSHA256 ≠ [] then
    match existing with
    | none => some ("precondition failed: " ++ op.path)
    | some v =>
      if C.sha256Hex v ≠ toLower op.expectedSHA256 then some ("precondition failed: " ++ op.path)
      else none
  else none

variable {canonical : Bucket Data}

theorem absent_of_precondition (h : precondition C canonical op = none) (hop : op.ifAbsent = true) :
    canonical[op.path]? = none := by
  unfold precondition at h
  simp only [hop, true_and] at h
  cases hx : canonical[op.path]? with
  | none => rfl
  | some v => simp [hx] at h

theorem present_of_precondition (h : precondition C canonical op = none)
    (hop : op.requirePresent = true) : canonical[op.path]? ≠ none := by
  intro hx
  unfold precondition at h
  simp [hop, hx] at h

theorem digest_of_precondition (h : precondition C canonical op = none)
    (hop : op.expectedSHA256 ≠ []) :
    ∃ v, canonical[op.path]? = some v ∧ C.sha256Hex v = toLower op.expectedSHA256 := by
  unfold precondition at h
  simp only [hop, ne_eq, not_false_eq_true, if_true] at h
  split at h
  · cases h
  · split at h
    · cases h
    · cases hx : canonical[op.path]? with
      | none => simp [hx] at h
      | some v =>
        simp only [hx, ite_not] at h
        split at h
        · next heq => exact ⟨v, rfl, heq⟩
        · cases h

end Bpc.Controlplane

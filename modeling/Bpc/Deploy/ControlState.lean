/-
  THE REPLICATED STATE AS A HANDLER SEES IT — `bpc_control_state.py` over the Go control daemon.

  All Controllers share one state and every call is one atomic step on it (`perform`).  A mutation
  is executed as the state machine does it; it may be lost, or committed without an
  acknowledgement.
-/
import Bpc.Deploy.RecordPath
import Bpc.Lib.Interaction

namespace Bpc.Deploy

open SlashPath Controlplane Interaction

/-! ## Calls -/

/-- `ControlStateError`. -/
structure ControlStateError where
  message : Str
  status : Nat
  deriving DecidableEq

/-- What a handler asks of the outside. -/
inductive Req (Data : Type) where
  | barrier
  | readFile (path : Str)
  | glob (dir : Dir)
  | mutate (kind : Str) (operations : List (Operation Data))
  | time
  /-- `secrets.token_hex(bytes)`, `uuid.uuid4().hex`. -/
  | random (bytes : Nat)
  /-- Random bytes that name nothing: keys and salts. -/
  | secret
  | hashPassword (password : Str)
  /-- An action on the own machine, or a computation that only reads. -/
  | outside (action : Str)

/-- The type of the answers.  A read that finds no file is `none`. -/
abbrev Ans {Data : Type} : Req Data → Type
  | .barrier => Except ControlStateError UInt64
  | .readFile _ => Option Data
  | .glob _ => List Str
  | .mutate _ _ => Except ControlStateError UInt64
  | .time => Int
  | .random _ => Str
  | .secret => Str
  | .hashPassword _ => Str
  | .outside _ => Except PyError Json

/-- A request handler, or a part of one. -/
abbrev Handler (Data α : Type) := Prog (Req Data) Ans PyError α

/-! ## The world -/

/-- A committed mutation, between the contents before and after it. -/
structure Entry (Data : Type) where
  before : Content Data
  kind : Str
  operations : List (Operation Data)
  after : Content Data

/-- The state, the mutations so far (newest first), the random strings handed out, and the files
    that are not replicated, of which a Controller may lack some. -/
structure World (Data : Type) where
  content : Content Data
  log : List (Entry Data)
  drawn : List Str
  localFiles : Bucket Data

/-- What becomes of a submitted mutation. -/
inductive Fate where
  | deliver
  | lose (e : ControlStateError)
  | commitSilently (e : ControlStateError)

/-- The free choices of a step. -/
structure Oracle where
  fate : Fate := .deliver
  barrierError : Option ControlStateError := none
  present : Bool := true
  names : List Str := []
  time : Int := 0
  text : Str := []
  outcome : Except PyError Json := .ok .null

variable {Data : Type} (P : Runtime Data)

/-- The control daemon on a mutation, whose id is random. -/
def submit (content : Content Data) (kind : Str) (operations : List (Operation Data)) :
    Except ControlStateError (List (Operation Data) × Content Data) :=
  let command : Mutation Data := ⟨commandVersion, "id", kind, operations, 0⟩
  if kind = reconcileKind then
    .error ⟨"use local administrative revision reconciliation", 403⟩
  else
    match checkHeader command with
    | .error e => .error ⟨e, 500⟩
    | .ok () =>
      match normalizeOps operations with
      | .error e => .error ⟨e, 500⟩
      | .ok ops =>
        match execute P.codec content command ops with
        | .failed e => .error ⟨e, 500⟩
        | .conflict e => .error ⟨e, 409⟩
        | .committed content' => .ok (ops, content')

/-- `dir.glob("*.json")`: the names of the records, in key order. -/
def globNames (canonical : Bucket Data) (d : Dir) : List Str :=
  (canonical.toList.map Prod.fst).filterMap fun key =>
    if (d.path ++ ['/']).isPrefixOf key then
      let name := key.drop (d.path.length + 1)
      if '/' ∉ name ∧ jsonSuffix.isSuffixOf name then some name else none
    else none

/-- The world answers a call, with the oracle's choices. -/
def perform (w : World Data) (o : Oracle) : (r : Req Data) → Option (Ans r × World Data)
  | .barrier =>
    match o.barrierError with
    | some e => some (.error e, w)
    | none => some (.ok w.content.revision, w)
  | .readFile path =>
    if isReplicated path then some (w.content.canonical[path]?, w)
    else some (if o.present then w.localFiles[path]? else none, w)
  | .glob d =>
    if o.names.isPerm (globNames w.content.canonical d) then some (o.names, w) else none
  | .mutate kind operations =>
    match o.fate with
    | .lose e => some (.error e, w)
    | .deliver =>
      match submit P w.content kind operations with
      | .error e => some (.error e, w)
      | .ok (ops, content) =>
        some (.ok content.revision,
          { w with content := content, log := ⟨w.content, kind, ops, content⟩ :: w.log })
    | .commitSilently e =>
      match submit P w.content kind operations with
      | .error e' => some (.error e', w)
      | .ok (ops, content) =>
        some (.error e,
          { w with content := content, log := ⟨w.content, kind, ops, content⟩ :: w.log })
  | .time => some (o.time, w)
  | .random bytes =>
    if isHex (2 * bytes) o.text ∧ o.text ∉ w.drawn then
      some (o.text, { w with drawn := o.text :: w.drawn })
    else none
  | .secret => some (o.text, w)
  | .hashPassword _ => some (o.text, w)
  | .outside _ => some (o.outcome, w)

/-! ## The single calls -/

/-- Ask for a barrier. -/
def askBarrier : Handler Data (Except ControlStateError UInt64) := Prog.ask (Req.barrier)

/-- Read a file. -/
def askFile (path : Str) : Handler Data (Option Data) := Prog.ask (Req.readFile path)

/-- List a directory. -/
def askGlob (d : Dir) : Handler Data (List Str) := Prog.ask (Req.glob d)

/-- Submit a mutation. -/
def askMutate (kind : Str) (operations : List (Operation Data)) :
    Handler Data (Except ControlStateError UInt64) := Prog.ask (Req.mutate kind operations)

/-- Read the clock. -/
def askTime : Handler Data Int := Prog.ask (Req.time)

/-- Draw a random string. -/
def askRandom (bytes : Nat) : Handler Data Str := Prog.ask (Req.random bytes)

/-- Draw a token. -/
def askSecret : Handler Data Str := Prog.ask (Req.secret)

/-- Hash a password. -/
def askHash (password : Str) : Handler Data Str := Prog.ask (Req.hashPassword password)

/-- Act on the own machine. -/
def askOutside (action : Str) : Handler Data (Except PyError Json) := Prog.ask (Req.outside action)

/-! ## `bpc_control_state.py` -/

/-- `is_replicated_path`, then the operation under its canonical path. -/
def encodeOperation (op : Operation Data) : Except PyError (Operation Data) :=
  match canonicalRelative op.path with
  | .error e => .error e
  | .ok path =>
    if isReplicated path then .ok { op with path := path }
    else .error (.controlState ("path is not replicated canonical state: " ++ op.path) 500)

/-- The operations as they are sent. -/
def encodeOperations : List (Operation Data) → Except PyError (List (Operation Data))
  | [] => .ok []
  | op :: ops =>
    match encodeOperation op with
    | .error e => .error e
    | .ok encoded =>
      match encodeOperations ops with
      | .error e => .error e
      | .ok rest => .ok (encoded :: rest)

/-- `mutation`: the revision it returns is that of the committed state. -/
def mutation (kind : Str) (operations : List (Operation Data)) : Handler Data UInt64 := do
  let encoded ← Prog.ofExcept (encodeOperations operations)
  let answer ← askMutate kind encoded
  match answer with
  | .ok revision => Prog.ret revision
  | .error e => Prog.raise (.controlState e.message e.status)

/-- `strong_read`. -/
def barrier : Handler Data UInt64 := do
  let answer ← askBarrier
  match answer with
  | .ok revision => Prog.ret revision
  | .error e => Prog.raise (.controlState e.message e.status)

/-- `read_bytes`. -/
def readBytes (path : Str) : Handler Data Data := do
  let found ← askFile (clean path)
  match found with
  | some data => Prog.ret data
  | none => Prog.raise .os

/-- `read_json`. -/
def readJson (path : Str) : Handler Data Record := do
  let data ← readBytes path
  match P.loads data with
  | .object r => Prog.ret r
  | .other => Prog.raise .value
  | .invalid => Prog.raise .value

/-- A put without a precondition. -/
def putOp (path : Str) (data : Data) : Operation Data := ⟨.put, path, data, false, false, []⟩

/-- A put that requires the path to be absent. -/
def createOp (path : Str) (data : Data) : Operation Data := ⟨.put, path, data, true, false, []⟩

/-- A put that requires the bytes it replaces. -/
def replaceOp (path : Str) (data : Data) (digest : Str) : Operation Data :=
  ⟨.put, path, data, false, false, digest⟩

/-- A delete; its data field is not looked at. -/
def deleteOp (path : Str) : Operation Data := ⟨.delete, path, P.dumps ∅, false, false, []⟩

/-! ## What a call can do to the world -/

variable {P : Runtime Data} {ops : List (Operation Data)}

theorem submit_ok {content content' : Content Data} {kind : Str}
    {operations : List (Operation Data)}
    (h : submit P content kind operations = .ok (ops, content')) :
    normalizeOps operations = .ok ops ∧
      ∃ command, Commits P.codec content command ops content' := by
  unfold submit at h
  dsimp only at h
  split at h
  · cases h
  split at h
  · cases h
  split at h
  · cases h
  rename_i normal hnormal
  split at h
  · cases h
  · cases h
  rename_i committed hexec
  obtain ⟨rfl, rfl⟩ := Prod.mk.inj (Except.ok.inj h)
  refine ⟨hnormal, ?_⟩
  rcases execute_cases P.codec content ⟨commandVersion, "id", kind, operations, 0⟩ normal
    with ⟨e, he⟩ | ⟨e, he⟩ | ⟨c, hc, hcommits⟩
  · cases hexec.symm.trans he
  · cases hexec.symm.trans he
  · obtain rfl := Execution.committed.inj (hexec.symm.trans hc)
    exact ⟨_, hcommits⟩

variable {w w' : World Data} {o : Oracle}

/-- **A mutation leaves the world alone, or commits.** -/
theorem perform_mutate {kind : Str} {operations : List (Operation Data)}
    {a : Except ControlStateError UInt64}
    (h : perform P w o (.mutate kind operations) = some (a, w')) :
    (w' = w ∧ ∃ e, a = .error e) ∨
    ∃ ops content command, normalizeOps operations = .ok ops ∧
      Commits P.codec w.content command ops content ∧
      w' = { w with content := content, log := ⟨w.content, kind, ops, content⟩ :: w.log } ∧
      (a = .ok content.revision ∨ ∃ e, a = .error e) := by
  unfold perform at h
  dsimp only at h
  cases hsubmit : submit P w.content kind operations with
  | error e' =>
    left
    rw [hsubmit] at h
    cases hfate : o.fate with
    | lose e =>
      rw [hfate] at h
      obtain ⟨rfl, rfl⟩ := Prod.mk.inj (Option.some.inj h)
      exact ⟨rfl, e, rfl⟩
    | deliver =>
      rw [hfate] at h
      obtain ⟨rfl, rfl⟩ := Prod.mk.inj (Option.some.inj h)
      exact ⟨rfl, e', rfl⟩
    | commitSilently e =>
      rw [hfate] at h
      obtain ⟨rfl, rfl⟩ := Prod.mk.inj (Option.some.inj h)
      exact ⟨rfl, e', rfl⟩
  | ok committed =>
    obtain ⟨ops, content⟩ := committed
    obtain ⟨hnormal, command, hcommits⟩ := submit_ok hsubmit
    rw [hsubmit] at h
    cases hfate : o.fate with
    | lose e =>
      rw [hfate] at h
      obtain ⟨rfl, rfl⟩ := Prod.mk.inj (Option.some.inj h)
      exact .inl ⟨rfl, e, rfl⟩
    | deliver =>
      rw [hfate] at h
      obtain ⟨rfl, rfl⟩ := Prod.mk.inj (Option.some.inj h)
      exact .inr ⟨ops, content, command, hnormal, hcommits, rfl, .inl rfl⟩
    | commitSilently e =>
      rw [hfate] at h
      obtain ⟨rfl, rfl⟩ := Prod.mk.inj (Option.some.inj h)
      exact .inr ⟨ops, content, command, hnormal, hcommits, rfl, .inr ⟨e, rfl⟩⟩

theorem perform_other {r : Req Data} {a : Ans r} (hr : ∀ kind ops, r ≠ .mutate kind ops)
    (h : perform P w o r = some (a, w')) :
    w' = { w with drawn := w'.drawn } ∧ ∀ s ∈ w.drawn, s ∈ w'.drawn := by
  cases r with
  | mutate kind ops => exact absurd rfl (hr kind ops)
  | barrier =>
    unfold perform at h
    dsimp only at h
    split at h <;>
    · obtain ⟨_, rfl⟩ := Prod.mk.inj (Option.some.inj h)
      exact ⟨rfl, fun _ hs => hs⟩
  | readFile path =>
    unfold perform at h
    dsimp only at h
    split at h <;>
    · obtain ⟨_, rfl⟩ := Prod.mk.inj (Option.some.inj h)
      exact ⟨rfl, fun _ hs => hs⟩
  | glob d =>
    unfold perform at h
    dsimp only at h
    split at h
    · obtain ⟨_, rfl⟩ := Prod.mk.inj (Option.some.inj h)
      exact ⟨rfl, fun _ hs => hs⟩
    · cases h
  | random bytes =>
    unfold perform at h
    dsimp only at h
    split at h
    · obtain ⟨_, rfl⟩ := Prod.mk.inj (Option.some.inj h)
      exact ⟨rfl, fun _ hs => List.mem_cons_of_mem _ hs⟩
    · cases h
  | time =>
    obtain ⟨_, rfl⟩ := Prod.mk.inj (Option.some.inj h)
    exact ⟨rfl, fun _ hs => hs⟩
  | secret =>
    obtain ⟨_, rfl⟩ := Prod.mk.inj (Option.some.inj h)
    exact ⟨rfl, fun _ hs => hs⟩
  | hashPassword password =>
    obtain ⟨_, rfl⟩ := Prod.mk.inj (Option.some.inj h)
    exact ⟨rfl, fun _ hs => hs⟩
  | outside action =>
    obtain ⟨_, rfl⟩ := Prod.mk.inj (Option.some.inj h)
    exact ⟨rfl, fun _ hs => hs⟩

theorem perform_readFile {path : Str} {a : Option Data} (hrep : isReplicated path = true)
    (h : perform P w o (.readFile path) = some (a, w')) :
    a = w.content.canonical[path]? ∧ w' = w := by
  unfold perform at h
  dsimp only at h
  rw [if_pos hrep] at h
  obtain ⟨rfl, rfl⟩ := Prod.mk.inj (Option.some.inj h)
  exact ⟨rfl, rfl⟩

theorem perform_random {bytes : Nat} {a : Str} (h : perform P w o (.random bytes) = some (a, w')) :
    isHex (2 * bytes) a = true ∧ a ∉ w.drawn ∧ w' = { w with drawn := a :: w.drawn } := by
  unfold perform at h
  dsimp only at h
  split at h
  · rename_i hfresh
    obtain ⟨rfl, rfl⟩ := Prod.mk.inj (Option.some.inj h)
    exact ⟨hfresh.1, hfresh.2, rfl⟩
  · cases h

theorem perform_glob {d : Dir} {names : List Str} (h : perform P w o (.glob d) = some (names, w')) :
    (∀ name, name ∈ names ↔ name ∈ globNames w.content.canonical d) ∧ w' = w := by
  unfold perform at h
  dsimp only at h
  split at h
  · rename_i hperm
    obtain ⟨rfl, rfl⟩ := Prod.mk.inj (Option.some.inj h)
    exact ⟨fun name => (List.isPerm_iff.mp hperm).mem_iff, rfl⟩
  · cases h

theorem mem_globNames {canonical : Bucket Data} {d : Dir} {name : Str} :
    name ∈ globNames canonical d ↔
      canonical[d.path ++ '/' :: name]? ≠ none ∧ '/' ∉ name ∧ jsonSuffix <:+ name := by
  unfold globNames
  rw [List.mem_filterMap]
  constructor
  · rintro ⟨key, hkey, hname⟩
    obtain ⟨⟨k, v⟩, hkv, rfl⟩ := List.mem_map.mp hkey
    split at hname
    · rename_i hpre
      obtain ⟨rest, rfl⟩ := List.isPrefixOf_iff_prefix.mp hpre
      have hdrop : ((d.path ++ ['/']) ++ rest).drop (d.path.length + 1) = rest := by
        rw [List.drop_left' (by simp)]
      dsimp only at hname
      rw [hdrop] at hname
      split at hname
      · rename_i hplain
        obtain rfl := Option.some.inj hname
        refine ⟨?_, hplain.1, List.isSuffixOf_iff_suffix.mp hplain.2⟩
        have hget := SortedMap.mem_toList.mp hkv
        rw [List.append_assoc] at hget
        rw [show d.path ++ '/' :: rest = d.path ++ (['/'] ++ rest) from rfl, hget]
        exact Option.some_ne_none v
      · cases hname
    · cases hname
  · rintro ⟨hpresent, hplain, hsuffix⟩
    obtain ⟨v, hv⟩ := Option.ne_none_iff_exists'.mp hpresent
    refine ⟨d.path ++ '/' :: name,
      List.mem_map.mpr ⟨(_, v), SortedMap.mem_toList.mpr hv, rfl⟩, ?_⟩
    have hpre : (d.path ++ ['/']).isPrefixOf (d.path ++ '/' :: name) = true :=
      List.isPrefixOf_iff_prefix.mpr ⟨name, by simp⟩
    have hdrop : (d.path ++ '/' :: name).drop (d.path.length + 1) = name := by
      rw [show d.path ++ '/' :: name = (d.path ++ ['/']) ++ name by simp,
        List.drop_left' (by simp)]
    rw [if_pos hpre]
    dsimp only
    rw [hdrop, if_pos ⟨hplain, List.isSuffixOf_iff_suffix.mpr hsuffix⟩]

theorem normalizeOps_stable
    (h : ∀ op ∈ ops, StablePath op.path ∧ (op.op = .put ∨ op.op = .delete)) :
    normalizeOps ops = .ok ops := by
  induction ops with
  | nil => rfl
  | cons op ops ih =>
    obtain ⟨hpath, hop⟩ := h op List.mem_cons_self
    have hrest := ih fun o ho => h o (List.mem_cons_of_mem _ ho)
    obtain ⟨kind, path, data, absent, present, digest⟩ := op
    rw [normalizeOps, show normalizeReplicatedPath path = .ok path from hpath]
    obtain rfl | rfl : kind = .put ∨ kind = .delete := hop
    · rw [hrest]
    · rw [hrest]

theorem encodeOperations_records
    (h : ∀ op ∈ ops, ∃ d name, op.path = recordKey d name ∧ '/' ∉ name) :
    encodeOperations ops = .ok ops := by
  induction ops with
  | nil => rfl
  | cons op ops ih =>
    obtain ⟨d, name, hpath, hplain⟩ := h op List.mem_cons_self
    have hone : encodeOperation op = .ok op := by
      unfold encodeOperation
      rw [hpath, canonicalRelative_recordKey d hplain]
      simp only [isReplicated_recordKey, if_true]
      rw [← hpath]
    rw [encodeOperations, hone, ih fun o ho => h o (List.mem_cons_of_mem _ ho)]

end Bpc.Deploy

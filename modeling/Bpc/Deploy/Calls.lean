/-
  WHAT THE BUILDING BLOCKS CALL — the small functions of every request, under ANY rules.

  Each result about concurrent requests has its own `Rules`, but a read makes one call
  (`spec_readJson`), a look-up submits nothing (`Quiet`), and a write of a record is ONE mutation
  on the record's own key (`returns_atomicJson`).
-/
import Bpc.Deploy.ControlServer

namespace Bpc.Deploy

open SlashPath Controlplane Interaction

variable {Data : Type} (P : Runtime Data)

/-! ## Histories -/

/-- What a request has called so far. -/
abbrev History (Data : Type) := List (Event (Req Data) Ans)

/-- The record in a file, if there is a file and it holds a JSON object. -/
def recordOf (file : Option Data) : Option Record :=
  match file with
  | none => none
  | some data =>
    match P.loads data with
    | .object r => some r
    | .other => none
    | .invalid => none

@[simp] theorem recordOf_dumps (r : Record) : recordOf P (some (P.dumps r)) = some r := by
  simp only [recordOf, P.loads_dumps]

/-- The committed record of a name. -/
def recordAt (content : Content Data) (d : Dir) (x : Str) : Option Record :=
  recordOf P (content.canonical[recordKey d x]?)

/-- A replicated state given by its records, before any request. -/
def startWorld (records : List (Dir × Str × Record)) (drawn : List Str) : World Data where
  content :=
    { canonical := SortedMap.insertPairs ∅
        (records.map fun e => (recordKey e.1 e.2.1, P.dumps e.2.2))
      revision := 1 }
  log := []
  drawn := drawn
  localFiles := ∅

theorem mem_of_recordAt_startWorld {P : Runtime Data} {records : List (Dir × Str × Record)}
    {drawn : List Str} (hplain : ∀ e ∈ records, '/' ∉ e.2.1) {d : Dir} {x : Str} {r : Record}
    (hx : '/' ∉ x) (hrec : recordAt P (startWorld P records drawn).content d x = some r) :
    (d, x, r) ∈ records := by
  cases hfile : (startWorld P records drawn).content.canonical[recordKey d x]? with
  | none =>
    rw [recordAt, hfile] at hrec
    cases hrec
  | some data =>
    rw [recordAt, hfile] at hrec
    obtain hpair | hempty := SortedMap.mem_of_get_insertPairs hfile
    · obtain ⟨⟨d', x', r'⟩, hmem, heq⟩ := List.mem_map.mp hpair
      obtain ⟨hkey, rfl⟩ := Prod.mk.inj heq
      obtain ⟨rfl, rfl⟩ := recordKey_inj (hplain _ hmem) hx hkey
      rw [recordOf_dumps] at hrec
      obtain rfl := Option.some.inj hrec
      exact hmem
    · rw [SortedMap.get_empty] at hempty
      cases hempty

/-- The request has read the record from its file. -/
def ReadRecord (past : History Data) (d : Dir) (x : Str) (r : Record) : Prop :=
  ∃ file : Option Data, ⟨.readFile (recordKey d x), file⟩ ∈ past ∧ recordOf P file = some r

theorem ReadRecord.mono {P : Runtime Data} {past past' : History Data} {d : Dir} {x : Str}
    {r : Record} (h : ReadRecord P past d x r) (hsuf : past <:+ past') :
    ReadRecord P past' d x r := by
  obtain ⟨file, hmem, hr⟩ := h
  exact ⟨file, hsuf.subset hmem, hr⟩

theorem readRecord_cons {P : Runtime Data} {past : History Data} {e : Event (Req Data) Ans}
    {d : Dir} {x : Str} {r : Record} (h : ReadRecord P (e :: past) d x r) :
    ReadRecord P past d x r ∨
      ∃ file, e = ⟨.readFile (recordKey d x), file⟩ ∧ recordOf P file = some r := by
  obtain ⟨file, hmem, hr⟩ := h
  obtain heq | hmem := List.mem_cons.mp hmem
  · exact .inr ⟨file, heq.symm, hr⟩
  · exact .inl ⟨file, hmem, hr⟩

/-- The digest tells the committed bytes from those that were read. -/
def Distinguishes (content : Content Data) (past : History Data) : Prop :=
  ∀ path v data, content.canonical[path]? = some v → ⟨.readFile path, some data⟩ ∈ past →
    P.codec.sha256Hex v = P.codec.sha256Hex data → v = data

/-- The digest tells apart what the run makes it compare. -/
def NoCollision {Job O α : Type} (c : Pool (World Data) Job (Req Data) Ans PyError α)
    (m : Move Job O) : Prop :=
  ∀ past r, c.Calls m past r → Distinguishes P c.world.content past

/-- An event that lies after a history. -/
def Since (past past' : History Data) (e : Event (Req Data) Ans) : Prop :=
  ∃ after, past' = after ++ past ∧ e ∈ after

theorem Since.newest {past past' : History Data} (e : Event (Req Data) Ans) (h : past <:+ past') :
    Since past (e :: past') e := by
  obtain ⟨after, rfl⟩ := h
  exact ⟨e :: after, rfl, List.mem_cons_self⟩

theorem Since.mono {past past' past'' : History Data} {e : Event (Req Data) Ans}
    (h : Since past past' e) (hsuf : past' <:+ past'') : Since past past'' e := by
  obtain ⟨after, rfl, he⟩ := h
  obtain ⟨more, rfl⟩ := hsuf
  exact ⟨more ++ after, (List.append_assoc _ _ _).symm, List.mem_append_right _ he⟩

theorem Since.weaken {past past' past'' : History Data} {e : Event (Req Data) Ans}
    (h : Since past' past'' e) (hsuf : past <:+ past') : Since past past'' e := by
  obtain ⟨after, rfl, he⟩ := h
  obtain ⟨more, rfl⟩ := hsuf
  exact ⟨after ++ more, (List.append_assoc _ _ _).symm, List.mem_append_left _ he⟩

/-- A call that submits nothing. -/
def Quiet : Req Data → Prop
  | .mutate _ _ => False
  | _ => True

/-- Calls that submit nothing need no justification. -/
def Lenient (R : Rules (Req Data) Ans) : Prop := ∀ past r, Quiet r → R.must past r

section

variable {P} {R : Rules (Req Data) Ans} {past : History Data} {α : Type}

theorem Lenient.returns (hR : Lenient R) {p : Handler Data α} {φ : History Data → α → Prop}
    (h : Returns (R.only Quiet) p past φ) :
    Returns R p past fun past' a => Only Quiet past past' ∧ φ past' a :=
  h.only hR

theorem Lenient.harmless (hR : Lenient R) {p : Handler Data α} (h : Harmless (R.only Quiet) p) :
    Harmless R p :=
  fun past => (hR.returns (h past)).mono fun _ _ _ _ => trivial

/-! ## Errors -/

theorem returns_asIdentity {p : Handler Data α} {φ : History Data → α → Prop}
    (h : Returns R p past φ) : Returns R (asIdentity p) past φ := by
  refine h.rescue (fun _ _ _ hφ => hφ) fun past' e _ => ?_
  cases e <;> trivial

theorem returns_orRaise {p : Handler Data α} {e : PyError} {φ : History Data → α → Prop}
    (h : Returns R p past φ) : Returns R (orRaise p e) past φ := by
  refine h.rescue (fun _ _ _ hφ => hφ) fun past' raised _ => ?_
  show Returns R (if raised.isFile then Prog.raise e else Prog.raise raised) past' φ
  split <;> trivial

theorem harmless_orSkip {p : Handler Data α} (h : Harmless R p) : Harmless R (orSkip p) :=
  (h.bind fun _ => harmless_ret _).handle fun _ => Harmless.ite (harmless_ret _) (harmless_raise _)

theorem returns_field (r : Record) (key : Str) :
    Returns R (field r key) past fun past' v => past' = past ∧ r[key]? = some v := by
  unfold field
  cases h : r[key]? with
  | none => trivial
  | some v => exact ⟨rfl, rfl⟩

/-! ## Reads -/

theorem spec_readJson_of {path : Str} (h : R.must past (.readFile (clean path))) :
    Spec R (readJson P path) past fun past' res =>
      ∃ file, R.may (.readFile (clean path)) file ∧
        past' = ⟨.readFile (clean path), file⟩ :: past ∧
        match res with
        | .ok r => recordOf P file = some r
        | .error e => recordOf P file = none ∧ e.isFile = true := by
  refine ⟨h, fun file hfile => ?_⟩
  cases file with
  | none => exact ⟨none, hfile, rfl, rfl, rfl⟩
  | some data =>
    show Spec _ (match P.loads data with
      | .object r => Prog.ret r
      | .other => Prog.raise PyError.value
      | .invalid => Prog.raise PyError.value) _ _
    cases hdata : P.loads data with
    | object r => exact ⟨some data, hfile, rfl, by simp only [recordOf, hdata]⟩
    | other => exact ⟨some data, hfile, rfl, by simp only [recordOf, hdata], rfl⟩
    | invalid => exact ⟨some data, hfile, rfl, by simp only [recordOf, hdata], rfl⟩

theorem spec_readJson (path : Str) :
    Spec (R.only Quiet) (readJson P path) past fun past' res =>
      ∃ file, R.may (.readFile (clean path)) file ∧
        past' = ⟨.readFile (clean path), file⟩ :: past ∧
        match res with
        | .ok r => recordOf P file = some r
        | .error e => recordOf P file = none ∧ e.isFile = true :=
  spec_readJson_of (R := R.only Quiet) trivial

theorem returns_readJson (path : Str) :
    Returns (R.only Quiet) (readJson P path) past fun past' r =>
      ∃ file, R.may (.readFile (clean path)) file ∧
        past' = ⟨.readFile (clean path), file⟩ :: past ∧ recordOf P file = some r := by
  refine (spec_readJson path).mono fun past' res _ h => ?_
  cases res with
  | ok r => exact h
  | error e => trivial

/-- The record, if the file holds one; never an error. -/
theorem spec_orSkip_readJson (path : Str) :
    Spec (R.only Quiet) (orSkip (readJson P path)) past fun past' res =>
      ∃ file, R.may (.readFile (clean path)) file ∧
        past' = ⟨.readFile (clean path), file⟩ :: past ∧ res = .ok (recordOf P file) := by
  refine Spec.handle (Spec.bind ((spec_readJson path).mono fun past' res _ h => ?_))
  obtain ⟨file, hfile, rfl, hres⟩ := h
  cases res with
  | ok r => exact ⟨file, hfile, rfl, congrArg Except.ok hres.symm⟩
  | error e =>
    show Spec _ (if e.isFile = true then Prog.ret none else Prog.raise e) _ _
    rw [if_pos hres.2]
    exact ⟨file, hfile, rfl, congrArg Except.ok hres.1.symm⟩

theorem returns_orSkip_readJson (path : Str) :
    Returns (R.only Quiet) (orSkip (readJson P path)) past fun past' found =>
      ∃ file, R.may (.readFile (clean path)) file ∧
        past' = ⟨.readFile (clean path), file⟩ :: past ∧ found = recordOf P file := by
  refine (spec_orSkip_readJson path).mono fun past' res _ h => ?_
  obtain ⟨file, hfile, hpast, rfl⟩ := h
  exact ⟨file, hfile, hpast, rfl⟩

theorem returns_readBytes (path : Str) :
    Returns (R.only Quiet) (readBytes path) past fun past' data =>
      R.may (.readFile (clean path)) (some data) ∧
        past' = ⟨.readFile (clean path), some data⟩ :: past := by
  refine ⟨trivial, fun file hfile => ?_⟩
  cases file with
  | none => trivial
  | some data => exact ⟨hfile, rfl⟩

theorem harmless_readJson (path : Str) : Harmless (R.only Quiet) (readJson P path) :=
  fun _ => (returns_readJson path).mono fun _ _ _ _ => trivial

theorem harmless_orSkip_readJson (path : Str) :
    Harmless (R.only Quiet) (orSkip (readJson P path)) :=
  harmless_orSkip (harmless_readJson path)

theorem harmless_barrier : Harmless (R.only Quiet) (barrier : Handler Data UInt64) := by
  refine (harmless_ask fun _ => trivial).bind fun answer => ?_
  cases answer with
  | ok revision => exact harmless_ret _
  | error e => exact harmless_raise _

theorem harmless_strongRead : Harmless (R.only Quiet) (strongRead : Handler Data Unit) :=
  Harmless.bind (fun _ => returns_asIdentity (harmless_barrier _)) fun _ => harmless_ret ()

theorem harmless_outside (action : Str) :
    Harmless (R.only Quiet) (outside action : Handler Data Json) :=
  Harmless.bind (harmless_ask fun _ => trivial) fun _ => harmless_ofExcept _

theorem harmless_timestampOf (now : Option Int) :
    Harmless (R.only Quiet) (timestampOf now : Handler Data Int) := by
  cases now with
  | none => exact harmless_ask fun _ => trivial
  | some t => exact harmless_ret t

theorem harmless_loadUser (u : Str) : Harmless (R.only Quiet) (loadUser P u) :=
  (harmless_raiseIf _ _).bind fun _ _ => returns_orRaise (harmless_readJson _ _)

theorem returns_devicePath (x : Str) :
    Returns R (devicePath x) past fun past' path =>
      past' = past ∧ isHex 32 x = true ∧ path = recordPath .devices x := by
  refine (returns_raiseIf _ _).seq fun past' _ _ hx => ?_
  have hhex : isHex 32 x = true := by simpa using hx.2
  exact ⟨hx.1, hhex, rfl⟩

theorem harmless_loadDevice (x : Str) : Harmless (R.only Quiet) (loadDevice P x) :=
  Harmless.bind (fun _ => (returns_devicePath x).mono fun _ _ _ _ => trivial)
    fun _ _ => returns_orRaise (harmless_readJson _ _)

/-! ## Tokens and names -/

theorem harmless_compareDigest (a b : Str) : Harmless R (compareDigest a b : Handler Data Bool) :=
  Harmless.ite (harmless_ret _) (harmless_raise _)

theorem harmless_validateOpaqueToken (value label : Str) :
    Harmless R (validateOpaqueToken P value label) :=
  (harmless_raiseIf _ _).bind fun _ => (harmless_raiseIf _ _).bind fun _ => harmless_ret _

theorem returns_credentialIndex (token : Str) :
    Returns R (credentialIndex P token) past fun past' index =>
      past' = past ∧ index = P.sha256Text token := by
  unfold credentialIndex
  split
  · exact ⟨rfl, rfl⟩
  · trivial

theorem filePath_eq (d : Dir) {name : Str} (hname : '/' ∉ name) (hsuffix : jsonSuffix <:+ name) :
    ∃ x, '/' ∉ x ∧ name = x ++ jsonSuffix ∧ filePath d name = recordKey d x := by
  obtain ⟨x, rfl⟩ := hsuffix
  exact ⟨x, fun hx => hname (List.mem_append_left _ hx), rfl, rfl⟩

theorem mem_sortedNames {name : Str} {names : List Str} :
    name ∈ sortedNames names ↔ name ∈ names :=
  (List.perm_insertionSort _ names).mem_iff

/-! ## Mutations -/

theorem spec_mutation {kind : Str} {ops : List (Operation Data)}
    (hpaths : ∀ op ∈ ops, ∃ d name, op.path = recordKey d name ∧ '/' ∉ name)
    (hmust : R.must past (.mutate kind ops)) :
    Spec R (mutation kind ops) past fun past' res =>
      match res with
      | .ok revision => past' = ⟨.mutate kind ops, .ok revision⟩ :: past
      | .error e => ∃ refusal : ControlStateError,
        e = .controlState refusal.message refusal.status ∧
          past' = ⟨.mutate kind ops, .error refusal⟩ :: past := by
  unfold mutation
  rw [encodeOperations_records hpaths]
  refine ⟨hmust, fun answer _ => ?_⟩
  cases answer with
  | ok revision => exact rfl
  | error refusal => exact ⟨refusal, rfl, rfl⟩

theorem returns_mutation {kind : Str} {ops : List (Operation Data)}
    (hpaths : ∀ op ∈ ops, ∃ d name, op.path = recordKey d name ∧ '/' ∉ name)
    (hmust : R.must past (.mutate kind ops)) :
    Returns R (mutation kind ops) past fun past' revision =>
      past' = ⟨.mutate kind ops, .ok revision⟩ :: past := by
  refine (spec_mutation hpaths hmust).mono fun past' res _ hres => ?_
  cases res with
  | ok revision => exact hres
  | error e => trivial

theorem isReplicatedPath_record (d : Dir) {name : Str} (hname : '/' ∉ name) :
    (isReplicatedPath (recordKey d name) : Handler Data Bool) = Prog.ret true := by
  unfold isReplicatedPath
  rw [canonicalRelative_recordKey d hname]
  show Prog.ret (isReplicated (recordKey d name)) = Prog.ret true
  rw [isReplicated_recordKey]

theorem returns_atomicJson {d : Dir} {name : Str} {value : Record} (hname : '/' ∉ name)
    (hmust : R.must past
      (.mutate "PutCanonicalRecord" [putOp (recordKey d name) (P.dumps value)])) :
    Returns R (atomicJson P (recordPath d name) value) past fun past' _ =>
      ∃ revision, past' = ⟨.mutate "PutCanonicalRecord"
        [putOp (recordKey d name) (P.dumps value)], .ok revision⟩ :: past := by
  unfold atomicJson
  rw [recordPath_plain d hname, isReplicatedPath_record d hname]
  change Returns R ((asIdentity (mutation _ _)).bind fun _ => Prog.ret ()) past _
  refine Returns.seq (returns_asIdentity (returns_mutation (fun op hop => ?_) hmust)) ?_
  · rw [List.mem_singleton.mp hop]
    exact ⟨d, name, rfl, hname⟩
  · exact fun past' revision _ hpast => ⟨revision, hpast⟩

theorem returns_deleteCanonical {d : Dir} {name kind : Str} (hname : '/' ∉ name)
    (hmust : R.must past (.mutate kind [deleteOp P (recordKey d name)])) :
    Returns R (deleteCanonical P (recordKey d name) kind) past fun _ _ => True := by
  unfold deleteCanonical
  rw [isReplicatedPath_record d hname]
  change Returns R ((asIdentity (mutation _ _)).bind fun _ => Prog.ret ()) past _
  refine Returns.seq (returns_asIdentity (returns_mutation (fun op hop => ?_) hmust)) ?_
  · rw [List.mem_singleton.mp hop]
    exact ⟨d, name, rfl, hname⟩
  · exact fun _ _ _ _ => trivial

end

/-! ## What a call shows -/

section

variable {P} {w w' : World Data} {o : Oracle}

theorem recordAt_of_read {d : Dir} {x : Str} {file : Option Data} {r : Record}
    (h : perform P w o (.readFile (recordKey d x)) = some (file, w'))
    (hr : recordOf P file = some r) : recordAt P w.content d x = some r := by
  obtain ⟨rfl, _⟩ := perform_readFile (isReplicated_recordKey d x) h
  exact hr

theorem content_of_quiet {r : Req Data} {a : Ans r} (hquiet : Quiet r)
    (h : perform P w o r = some (a, w')) : w'.content = w.content := by
  have hr : ∀ kind ops, r ≠ .mutate kind ops := by
    rintro kind ops rfl
    exact hquiet
  rw [(perform_other hr h).1]

theorem listed_of_glob {d : Dir} {x : Str} {names : List Str} (hx : '/' ∉ x)
    (h : perform P w o (.glob d) = some (names, w'))
    (hpresent : w.content.canonical[recordKey d x]? ≠ none) : x ++ jsonSuffix ∈ names := by
  refine ((perform_glob h).1 _).mpr (mem_globNames.mpr
    ⟨hpresent, ?_, List.suffix_append x jsonSuffix⟩)
  exact (normalName_record hx).2.1

/-- A put or a delete of one record. -/
def OnRecord (op : Operation Data) : Prop :=
  (∃ d name, op.path = recordKey d name ∧ '/' ∉ name) ∧ (op.op = .put ∨ op.op = .delete)

/-- **A mutation leaves the world alone, or commits as submitted.** -/
theorem perform_records {kind : Str} {ops : List (Operation Data)}
    {a : Except ControlStateError UInt64} (hops : ∀ op ∈ ops, OnRecord op)
    (h : perform P w o (.mutate kind ops) = some (a, w')) :
    w' = w ∨ ∃ content command, Commits P.codec w.content command ops content ∧
      w' = { w with content := content, log := ⟨w.content, kind, ops, content⟩ :: w.log } := by
  obtain ⟨rfl, _⟩ | ⟨ops', content, command, hnormal, hcommits, rfl, _⟩ := perform_mutate h
  · exact .inl rfl
  · rw [normalizeOps_stable fun op hop => ?_] at hnormal
    · obtain rfl := Except.ok.inj hnormal
      exact .inr ⟨content, command, hcommits, rfl⟩
    · obtain ⟨⟨d, name, hpath, hname⟩, hop'⟩ := hops op hop
      exact ⟨hpath ▸ stable_recordKey d hname, hop'⟩

theorem file_of_ack {kind path : Str} {data : Data} {revision : UInt64}
    (hpath : StablePath path)
    (h : perform P w o (.mutate kind [putOp path data]) = some (.ok revision, w')) :
    w'.content.canonical[path]? = some data := by
  obtain ⟨_, e, he⟩ | ⟨ops, content, command, hnormal, hcommits, rfl, _⟩ := perform_mutate h
  · cases he
  · rw [normalizeOps_stable fun op hop => ?_] at hnormal
    · obtain rfl := Except.ok.inj hnormal
      show content.canonical[path]? = some data
      rw [hcommits.canonical]
      exact SortedMap.get_insert_self _ _ _
    · rw [List.mem_singleton.mp hop]
      exact ⟨hpath, .inl rfl⟩

end

end Bpc.Deploy

/-
  WHAT THE REQUESTS WRITE — one classification of every mutation that any request can submit.

  A request is judged by its own history: what it has read, which id it has drawn.  Of the ways to
  write a record only `replaced` compares; the others carry over fields that were read EARLIER.
-/
import Bpc.Deploy.Calls

namespace Bpc.Deploy

open SlashPath Controlplane Interaction

variable {Data : Type} (P : Runtime Data)

/-! ## Histories -/

/-- The request has drawn the id and submitted nothing since. -/
def Drawn (past : History Data) (x : Str) : Prop :=
  ∃ rest, Only Quiet (⟨.random 16, x⟩ :: rest) past

theorem Drawn.mono {past past' : History Data} {x : Str} (h : Drawn past x)
    (hquiet : Only Quiet past past') : Drawn past' x := by
  obtain ⟨rest, hrest⟩ := h
  exact ⟨rest, hrest.trans hquiet⟩

theorem Drawn.mem {past : History Data} {x : Str} (h : Drawn past x) :
    ⟨.random 16, x⟩ ∈ past := by
  obtain ⟨rest, events, rfl, _⟩ := h
  exact List.mem_append_right _ List.mem_cons_self

/-- The record lies in the file of its own id. -/
def Named : Dir → Str → Record → Prop
  | .devices, x, r => isHex 32 x = true ∧ P.deviceId r x = x
  | .users, x, r => ∀ id, r["id".toList]? = some id → P.str id = x
  | _, _, _ => True

/-- What an answer can be, in a state whose records are named. -/
def Answer : (r : Req Data) → Ans r → Prop
  | .readFile path, file => ∀ r, recordOf P file = some r →
      (∀ d x, '/' ∉ x → path = recordKey d x → Named P d x r) ∧
      (isReplicated path = false →
        ∀ id, r["device_id".toList]? = some id → isHex 32 (P.str id) = true)
  | .glob _, names => ∀ name ∈ names, '/' ∉ name ∧ jsonSuffix <:+ name
  | .random bytes, text => isHex (2 * bytes) text = true
  | _, _ => True

/-! ## Writes -/

/-- Whose a Device is, and whether it is active. -/
def standing (device : Record) : Option Json × Option Json × Option Json × Option Json :=
  (device["user_id".toList]?, device["enabled".toList]?, device["revoked".toList]?,
    device["revoked_at".toList]?)

/-- The ways in which a request can write the Device with a given id. -/
inductive DeviceWrite (past : History Data) (kind x : Str) : Record → Prop where
  /-- A new Device, under an id just drawn, of an enabled User. -/
  | registered {r user : Record} (hkind : kind = "RegisterDevice") (hdrawn : Drawn past x)
      (huser : ReadRecord P past .users (P.strField r "user_id") user)
      (henabled : userEnabled user = true) : DeviceWrite past kind x r
  /-- A Device as it was read, apart from its `last_…` fields. -/
  | refreshed {r r' : Record}
      (hkind : kind = "DeviceHeartbeat" ∨ kind = "UpdateRegisteredDevice")
      (hread : ReadRecord P past .devices x r) (hstanding : standing r' = standing r) :
      DeviceWrite past kind x r'
  /-- A Device with `enabled` cleared. -/
  | deactivated {r r' : Record} (hread : ReadRecord P past .devices x r)
      (henabled : r'["enabled".toList]? = some (.bool false)) : DeviceWrite past kind x r'

/-- How a request can write a User, and the digest it expects. -/
inductive UserWrite (past : History Data) (kind u : Str) : Record → Str → Prop where
  /-- A User with `enabled` cleared. -/
  | disabled {r : Record} (henabled : r["enabled".toList]? = some (.bool false)) :
      UserWrite past kind u r []
  /-- A User as it was read, enabled, whatever is there now. -/
  | rehashed {r r' : Record} (hkind : kind = "PutCanonicalRecord")
      (hread : ReadRecord P past .users u r) (hon : userEnabled r = true)
      (henabled : r'["enabled".toList]? = r["enabled".toList]?) : UserWrite past kind u r' []
  /-- A User as it was read, if that is what is there now. -/
  | replaced {r r' : Record} {data : Data}
      (hread : ⟨.readFile (recordKey .users u), some data⟩ ∈ past)
      (hdata : recordOf P (some data) = some r)
      (henabled : r'["enabled".toList]? = r["enabled".toList]?) :
      UserWrite past kind u r' (P.codec.sha256Hex data)

/-- How an operation of a request can touch the state. -/
inductive Write (past : History Data) (kind : Str) : Operation Data → Prop where
  /-- A record that is neither a User nor a Device. -/
  | other {op : Operation Data} {d : Dir} {name : Str} (hdevices : d ≠ .devices)
      (husers : d ≠ .users) (hname : '/' ∉ name) (hpath : op.path = recordKey d name)
      (hop : op.op = .put ∨ op.op = .delete) : Write past kind op
  | device {x : Str} {r : Record} (hnamed : Named P .devices x r)
      (h : DeviceWrite P past kind x r) :
      Write past kind (putOp (recordKey .devices x) (P.dumps r))
  | user {u digest : Str} {r : Record} (hu : '/' ∉ u) (hnamed : Named P .users u r)
      (h : UserWrite P past kind u r digest) :
      Write past kind (replaceOp (recordKey .users u) (P.dumps r) digest)

/-- The rules of the requests. -/
def rules : Rules (Req Data) Ans where
  must past r :=
    match r with
    | .mutate kind operations => ∀ op ∈ operations, Write P past kind op
    | _ => True
  may := Answer P

/-- The obligations of a part that only reads. -/
abbrev readRules : Rules (Req Data) Ans := (rules P).only Quiet

theorem lenient_rules : Lenient (rules P) := by
  intro past r h
  cases r with
  | mutate kind operations => exact h.elim
  | _ => trivial

theorem returns_ofRead {P : Runtime Data} {α : Type} {p : Handler Data α} {past : History Data}
    {φ : History Data → α → Prop} (h : Returns (readRules P) p past φ) :
    Returns (rules P) p past fun past' a => Only Quiet past past' ∧ φ past' a :=
  (lenient_rules P).returns h

theorem harmless_ofRead {P : Runtime Data} {α : Type} {p : Handler Data α}
    (h : Harmless (readRules P) p) : Harmless (rules P) p :=
  (lenient_rules P).harmless h

section

variable {P} {past : History Data} {kind : Str} {op : Operation Data}

theorem Write.path (h : Write P past kind op) :
    ∃ d name, op.path = recordKey d name ∧ '/' ∉ name := by
  cases h with
  | other _ _ hname hpath _ => exact ⟨_, _, hpath, hname⟩
  | device hnamed _ => exact ⟨_, _, rfl, not_slash_of_isHex hnamed.1⟩
  | user hu _ _ => exact ⟨_, _, rfl, hu⟩

theorem Write.put_or_delete (h : Write P past kind op) : op.op = .put ∨ op.op = .delete := by
  cases h with
  | other _ _ _ _ hop => exact hop
  | device _ _ => exact .inl rfl
  | user _ _ _ => exact .inl rfl

theorem Write.device_inv (h : Write P past kind op) {x : Str} (hx : '/' ∉ x)
    (hpath : op.path = recordKey .devices x) :
    ∃ r, op = putOp (recordKey .devices x) (P.dumps r) ∧ Named P .devices x r ∧
      DeviceWrite P past kind x r := by
  cases h with
  | other hdevices _ hname hpath' _ =>
    exact absurd (recordKey_inj hname hx (hpath'.symm.trans hpath)).1 hdevices
  | device hnamed h =>
    obtain ⟨_, rfl⟩ := recordKey_inj (not_slash_of_isHex hnamed.1) hx hpath
    exact ⟨_, rfl, hnamed, h⟩
  | user hu _ _ => cases (recordKey_inj hu hx hpath).1

theorem Write.user_inv (h : Write P past kind op) {u : Str} (hu : '/' ∉ u)
    (hpath : op.path = recordKey .users u) :
    ∃ r digest, op = replaceOp (recordKey .users u) (P.dumps r) digest ∧ Named P .users u r ∧
      UserWrite P past kind u r digest := by
  cases h with
  | other _ husers hname hpath' _ =>
    exact absurd (recordKey_inj hname hu (hpath'.symm.trans hpath)).1 husers
  | device hnamed _ => cases (recordKey_inj (not_slash_of_isHex hnamed.1) hu hpath).1
  | user hu' hnamed h =>
    obtain ⟨_, rfl⟩ := recordKey_inj hu' hu hpath
    exact ⟨_, _, rfl, hnamed, h⟩

end

/-! ## Reads -/

/-- A record that the request has read from the file of its own id. -/
def Found (past : History Data) (d : Dir) (r : Record) : Prop :=
  ∃ x, isHex 32 x = true ∧ ReadRecord P past d x r ∧ Named P d x r

theorem Found.mono {P : Runtime Data} {past past' : History Data} {d : Dir} {r : Record}
    (h : Found P past d r) (hsuf : past <:+ past') : Found P past' d r := by
  obtain ⟨x, hx, hread, hnamed⟩ := h
  exact ⟨x, hx, hread.mono hsuf, hnamed⟩

section

variable {P} {past : History Data}

theorem readRecord_of_file {d : Dir} {x : Str} {file : Option Data} {r : Record} (hx : '/' ∉ x)
    (hfile : Answer P (.readFile (recordKey d x)) file) (hr : recordOf P file = some r) :
    ReadRecord P (⟨.readFile (recordKey d x), file⟩ :: past) d x r ∧ Named P d x r :=
  ⟨⟨file, List.mem_cons_self, hr⟩, (hfile r hr).1 d x hx rfl⟩

theorem returns_readRecord (d : Dir) {x : Str} (hx : '/' ∉ x) :
    Returns (readRules P) (readJson P (recordPath d x)) past fun past' r =>
      ReadRecord P past' d x r ∧ Named P d x r := by
  rw [recordPath_plain d hx]
  refine (returns_readJson _).mono fun past' r _ h => ?_
  rw [clean_recordKey d hx] at h
  obtain ⟨file, hfile, rfl, hr⟩ := h
  exact readRecord_of_file hx hfile hr

theorem returns_loadUser (u : Str) :
    Returns (readRules P) (loadUser P u) past fun past' r => Found P past' .users r := by
  refine (returns_raiseIf _ _).seq fun past' _ _ hu => ?_
  have hhex : isHex 32 u = true := by simpa using hu.2
  refine returns_orRaise ((returns_readRecord .users (not_slash_of_isHex hhex)).mono ?_)
  exact fun past'' r _ h => ⟨u, hhex, h⟩

theorem returns_loadDevice (x : Str) :
    Returns (readRules P) (loadDevice P x) past fun past' r =>
      isHex 32 x = true ∧ ReadRecord P past' .devices x r ∧ Named P .devices x r := by
  refine (returns_devicePath x).seq fun past' path _ hx => ?_
  obtain ⟨_, hhex, rfl⟩ := hx
  refine returns_orRaise ((returns_readRecord .devices (not_slash_of_isHex hhex)).mono ?_)
  exact fun past'' r _ h => ⟨hhex, h⟩

theorem returns_loadUserByUsername (username : Str) :
    Returns (readRules P) (loadUserByUsername P username) past fun past' found =>
      ∀ r, found = some r → Found P past' .users r := by
  unfold loadUserByUsername
  cases usernameIndex P username with
  | error e => exact fun r hr => by cases hr
  | ok index =>
    refine Returns.rescue (φ := fun past' found => ∀ r, found = some r → Found P past' .users r) ?_
      (fun _ _ _ h => h) fun past' raised _ => ?_
    · refine (returns_readJson _).seq fun past' found _ _ => ?_
      refine (returns_field found _).seq fun past'' userId _ _ => ?_
      refine (returns_loadUser _).seq fun past''' user _ huser => ?_
      intro r hr
      obtain rfl := Option.some.inj hr
      exact huser
    · show Returns _ (if raised.isLookup then Prog.ret none else Prog.raise raised) past' _
      split
      · exact fun r hr => by cases hr
      · trivial

theorem returns_matchPublicKey (publicKey : Str) {name : Str}
    (hname : '/' ∉ name ∧ jsonSuffix <:+ name) :
    Returns (readRules P) (matchPublicKey P publicKey name) past fun past' found =>
      ∀ r, found = some r → Found P past' .devices r := by
  obtain ⟨x, hx, rfl, hpath⟩ := filePath_eq .devices hname.1 hname.2
  refine (returns_orSkip_readJson _).seq fun past' found _ h => ?_
  rw [hpath, clean_recordKey _ hx] at h
  obtain ⟨file, hfile, rfl, rfl⟩ := h
  cases hr : recordOf P file with
  | none => exact fun r hr => by cases hr
  | some device =>
    refine (harmless_compareDigest _ _).seq fun past'' same hsuf => ?_
    intro r hsame
    cases same with
    | false => cases hsame
    | true =>
      obtain rfl := Option.some.inj hsame
      obtain ⟨hread, hnamed⟩ := readRecord_of_file hx hfile hr
      exact ⟨x, hnamed.1, hread.mono hsuf, hnamed⟩

theorem returns_findDeviceByPublicKey (publicKey : Str) :
    Returns (readRules P) (findDeviceByPublicKey P publicKey) past fun past' found =>
      ∀ r, found = some r → Found P past' .devices r := by
  refine (returns_ask trivial).seq fun past' names _ hnames => ?_
  refine Returns.findFirst (φ := fun r past => Found P past .devices r) fun name hmem past'' _ => ?_
  exact returns_matchPublicKey publicKey (hnames.2 name (mem_sortedNames.mp hmem))

theorem isReplicated_tokens (rest : Str) :
    isReplicated ("control/tokens/" ++ rest) = false := by
  have hexact : ∀ e ∈ replicatedExact, ¬ "control/tokens/" <+: e := by decide
  have hprefixes : ∀ pre ∈ replicatedPrefixes,
      ¬ "control/tokens/" <+: pre ∧ ¬ pre <+: "control/tokens/" := by decide
  rw [isReplicated, Bool.or_eq_false_iff, List.any_eq_false]
  constructor
  · rw [Bool.eq_false_iff, ne_eq, List.contains_iff_mem]
    exact fun hmem => hexact _ hmem (List.prefix_append _ _)
  · intro pre hpre hboth
    rw [Bool.and_eq_true, List.isPrefixOf_iff_prefix] at hboth
    obtain h | h := List.prefix_or_prefix_of_prefix hboth.1 (List.prefix_append _ rest)
    · exact (hprefixes pre hpre).2 h
    · exact (hprefixes pre hpre).1 h

theorem legacyTokenIndexPath_local (token : Str) :
    isReplicated (clean (legacyTokenIndexPath (P.sha256Text token))) = false := by
  have hplain : '/' ∉ P.sha256Text token := not_slash_of_isHex (P.sha256Text_hex token)
  have hdir : join ["control".toList, "tokens".toList] = "control/tokens".toList := by decide
  have hslash : "control/tokens/".toList = "control/tokens".toList ++ ['/'] := by decide
  have hjoin : legacyTokenIndexPath (P.sha256Text token) =
      join (["control".toList, "tokens".toList] ++ [P.sha256Text token ++ jsonSuffix]) := by
    rw [join_concat (List.cons_ne_nil _ _), hdir]
    unfold legacyTokenIndexPath
    rw [hslash, List.append_assoc, List.append_assoc, List.singleton_append]
  have hnormal : ∀ n ∈ ["control".toList, "tokens".toList] ++ [P.sha256Text token ++ jsonSuffix],
      NormalName n := by
    have hfixed : ∀ n ∈ ["control".toList, "tokens".toList], NormalName n := by decide
    intro n hn
    obtain hn | hn := List.mem_append.mp hn
    · exact hfixed n hn
    · rw [List.mem_singleton.mp hn]
      exact normalName_record hplain
  rw [hjoin, clean_join (by simp) hnormal, ← hjoin]
  unfold legacyTokenIndexPath
  rw [List.append_assoc]
  exact isReplicated_tokens _

theorem returns_legacyDevice (token : Str) :
    Returns (readRules P) (legacyDevice P (P.sha256Text token)) past fun past' r =>
      Found P past' .devices r := by
  refine Returns.rescue (φ := fun past' r => Found P past' .devices r) ?_ (fun _ _ _ h => h)
    fun past' raised _ => ?_
  · refine (returns_readJson _).seq fun past' found _ h => ?_
    obtain ⟨file, hfile, rfl, hr⟩ := h
    refine (returns_field found _).seq fun past'' deviceId _ hid => ?_
    have hhex := (hfile found hr).2 (legacyTokenIndexPath_local token) deviceId hid.2
    refine (returns_readRecord .devices (not_slash_of_isHex hhex)).mono ?_
    exact fun _ r _ h => ⟨_, hhex, h⟩
  · show Returns _ (if raised.isLegacy then Prog.raise .legacyAuth else Prog.raise raised) past' _
    split <;> trivial

end

end Bpc.Deploy

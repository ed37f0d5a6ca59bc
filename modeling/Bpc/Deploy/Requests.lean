/-
  EVERY REQUEST KEEPS TO ITS WRITES — the handlers, function by function, against `Write`.

  `requests_write` classifies every mutation.  `returns_disableUser`: when `disable_user` returns,
  its history accounts for every Device (`Shows`), after the acknowledged write of the User.
-/
import Bpc.Deploy.Writes
import Bpc.Deploy.Sessions
import Bpc.Deploy.Allocation

namespace Bpc.Deploy

open SlashPath Controlplane Interaction Addressing

variable {Data : Type} {P : Runtime Data} {past : History Data}

/-! ## Mutations -/

variable {kind : Str}

/-- Allowed writes may be submitted together. -/
theorem returns_write {ops : List (Operation Data)} (h : ∀ op ∈ ops, Write P past kind op) :
    Returns (rules P) (mutation kind ops) past fun past' revision =>
      past' = ⟨.mutate kind ops, .ok revision⟩ :: past :=
  returns_mutation (fun op hop => (h op hop).path) h

theorem must_singleton {op : Operation Data} (h : Write P past kind op) :
    (rules P).must past (.mutate kind [op]) := by
  intro op' hop
  rw [List.mem_singleton.mp hop]
  exact h

/-- Files of other directories may be written. -/
theorem write_other {op : Operation Data} {d : Dir} {name : Str} (hd : d.isOther = true)
    (hname : '/' ∉ name) (hpath : op.path = recordKey d name)
    (hop : op.op = .put ∨ op.op = .delete) :
    Write P past kind op := by
  refine .other ?_ ?_ hname hpath hop
  · rintro rfl; cases hd
  · rintro rfl; cases hd

/-- Calls beside the records are allowed. -/
theorem aside_rules (past : History Data) (r : Req Data) (h : Aside r) : (rules P).must past r := by
  cases r with
  | mutate kind operations =>
    intro op hop
    obtain ⟨d, name, hd, hname, hpath, hput⟩ := h op hop
    exact write_other hd hname hpath hput
  | _ => trivial

theorem lists_rules : ListsRecords (rules P) := fun _ _ h => h

theorem harmless_beside {α : Type} {p : Handler Data α} (h : Harmless ((rules P).only Aside) p) :
    Harmless (rules P) p :=
  harmless_ofAside aside_rules h

theorem harmless_askTime : Harmless (rules P) (askTime : Handler Data Int) :=
  harmless_ask fun _ => trivial

/-! ## Names of Devices -/

variable {x : Str} {r : Record}

theorem deviceId_cases (h : Named P .devices x r) : P.deviceId r [] = x ∨ P.deviceId r [] = [] := by
  have hx : P.deviceId r x = x := h.2
  unfold Runtime.deviceId Record.get at hx ⊢
  cases hid : r["id".toList]? with
  | some id => rw [hid] at hx; exact .inl hx
  | none =>
    cases hdevice : r["device_id".toList]? with
    | some id => rw [hid, hdevice] at hx; exact .inl hx
    | none => exact .inr rfl

theorem deviceId_insert (r : Record) (key : Str) (v : Json) (fallback : Str)
    (hid : key ≠ "id") (hdevice : key ≠ "device_id") :
    P.deviceId (r.insert key v) fallback = P.deviceId r fallback := by
  unfold Runtime.deviceId Record.get
  rw [SortedMap.get_insert_of_ne _ _ hid, SortedMap.get_insert_of_ne _ _ hdevice]

theorem Named.insert (h : Named P .devices x r) (key : Str) (v : Json) (hid : key ≠ "id")
    (hdevice : key ≠ "device_id") : Named P .devices x (r.insert key v) :=
  ⟨h.1, (deviceId_insert r key v x hid hdevice).trans h.2⟩

theorem standing_insert (r : Record) (key : Str) (v : Json) (huser : key ≠ "user_id")
    (henabled : key ≠ "enabled") (hrevoked : key ≠ "revoked")
    (hat : key ≠ "revoked_at") : standing (r.insert key v) = standing r := by
  unfold standing
  rw [SortedMap.get_insert_of_ne _ _ huser, SortedMap.get_insert_of_ne _ _ henabled,
    SortedMap.get_insert_of_ne _ _ hrevoked, SortedMap.get_insert_of_ne _ _ hat]

theorem returns_putDevice_of {R : Rules (Req Data) Ans} {extra : List (Operation Data)}
    (hnamed : Named P .devices x r)
    (hpaths : ∀ op ∈ extra, ∃ d name, op.path = recordKey d name ∧ '/' ∉ name)
    (hmust : R.must past (.mutate kind (putOp (recordKey .devices x) (P.dumps r) :: extra))) :
    Returns R (putDevice P r kind extra) past fun _ _ => True := by
  have hplain : '/' ∉ x := not_slash_of_isHex hnamed.1
  obtain hid | hid := deviceId_cases hnamed
  · unfold putDevice
    rw [hid, strip_hex hnamed.1]
    dsimp only
    rw [recordPath_plain _ hplain]
    refine (returns_raiseIf _ _).seq fun past' _ _ hpast => ?_
    obtain ⟨rfl, _⟩ := hpast
    refine (returns_mutation (fun op hop => ?_) hmust).seq fun _ _ _ _ => trivial
    obtain rfl | hop := List.mem_cons.mp hop
    · exact ⟨_, _, rfl, hplain⟩
    · exact hpaths op hop
  · unfold putDevice
    rw [hid]
    exact trivial

/-! ## Deactivation -/

theorem deactivated_named (h : Named P .devices x r) (revoked : Bool) (timestamp : Int) :
    Named P .devices x (deactivated r revoked timestamp) := by
  unfold deactivated
  have hdisabled := h.insert "enabled" (.bool false) (by decide) (by decide)
  cases revoked with
  | false => exact hdisabled
  | true =>
    exact (hdisabled.insert "revoked" _ (by decide) (by decide)).insert "revoked_at" _
      (by decide) (by decide)

theorem deactivated_enabled (r : Record) (revoked : Bool) (timestamp : Int) :
    (deactivated r revoked timestamp)["enabled".toList]? = some (.bool false) := by
  unfold deactivated
  cases revoked with
  | false => exact SortedMap.get_insert_self _ _ _
  | true =>
    show (((r.insert "enabled" (.bool false)).insert "revoked" (.bool true)).insert
      "revoked_at" (.int timestamp))["enabled".toList]? = _
    rw [SortedMap.get_insert_of_ne _ _ (by decide), SortedMap.get_insert_of_ne _ _ (by decide),
      SortedMap.get_insert_self]

theorem not_active_of_enabled (h : r["enabled".toList]? = some (.bool false)) :
    deviceIsActive r = false := by
  unfold deviceIsActive Record.get
  rw [h]
  rfl

/-! ## New Devices -/

theorem newDevice_fields (r : Registration) (deviceId userId psk address : Str) (now : Int) :
    (newDevice r deviceId userId psk address now)["id".toList]? = some (.str deviceId) ∧
    (newDevice r deviceId userId psk address now)["user_id".toList]? = some (.str userId) := by
  unfold newDevice
  refine ⟨Record.get_of ?_ List.mem_cons_self, Record.get_of ?_ ?_⟩
  · simp only [List.map]; decide
  · simp only [List.map]; decide
  · repeat' first | exact List.mem_cons_self | apply List.mem_cons_of_mem

theorem newDevice_named (r : Registration) {deviceId : Str} (hhex : isHex 32 deviceId = true)
    (userId psk address : Str) (now : Int) :
    Named P .devices deviceId (newDevice r deviceId userId psk address now) := by
  refine ⟨hhex, ?_⟩
  unfold Runtime.deviceId Record.get
  rw [(newDevice_fields r deviceId userId psk address now).1]
  rfl

theorem newDevice_user (r : Registration) (deviceId userId psk address : Str) (now : Int) :
    P.strField (newDevice r deviceId userId psk address now) "user_id" = userId := by
  unfold Runtime.strField Record.get
  rw [(newDevice_fields r deviceId userId psk address now).2]
  rfl

/-- Index files are no records. -/
theorem indexOperations_aside (deviceId publicKey : Str) (candidate : Nat) :
    ∀ op ∈ indexOperations P deviceId (P.ipText candidate) publicKey, AsideOp op := by
  have hkey := not_slash_of_isHex (P.sha256Text_hex publicKey)
  have haddress := P.ipText_plain candidate
  intro op hop
  unfold indexOperations at hop
  simp only [List.mem_cons, List.not_mem_nil, or_false] at hop
  rcases hop with rfl | rfl
  · exact ⟨.deviceAddresses, _, rfl, haddress, recordPath_plain _ haddress, .inl rfl⟩
  · exact ⟨.devicePublicKeys, _, rfl, hkey, recordPath_plain _ hkey, .inl rfl⟩

/-! ## Rules about Devices -/

/-- Rules that let pass what concerns no User or Device, a Device with `enabled` cleared, one as it
    was read, and a new one. -/
structure DeviceRules (P : Runtime Data) (R : Rules (Req Data) Ans) : Prop where
  answers : R.may = Answer P
  aside : ∀ past r, Aside r → R.must past r
  deactivated : ∀ {past x r r'}, ReadRecord P past .devices x r → Named P .devices x r' →
    r'["enabled".toList]? = some (.bool false) →
    R.must past (.mutate "PutCanonicalRecord" [putOp (recordKey .devices x) (P.dumps r')])
  updated : ∀ {past x r r'}, ReadRecord P past .devices x r → Named P .devices x r' →
    standing r' = standing r → addressOf P r' = addressOf P r → R.must past
      (.mutate "UpdateRegisteredDevice" [putOp (recordKey .devices x) (P.dumps r')])
  registered : ∀ {past x userId user candidate} (g : Registration) (psk : Str) (now : Int),
    isHex 32 x = true → Drawn past x → ReadRecord P past .users userId user →
    userEnabled user = true → Allocated P past candidate → R.must past
      (.mutate "RegisterDevice" (putOp (recordKey .devices x)
        (P.dumps (newDevice g x userId psk (P.ipText candidate) now)) ::
          indexOperations P x (P.ipText candidate) g.publicKey))

theorem deviceRules_rules : DeviceRules P (rules P) where
  answers := rfl
  aside := aside_rules
  deactivated hread hnamed henabled :=
    must_singleton (.device hnamed (.deactivated hread henabled))
  updated hread hnamed hstanding _ :=
    must_singleton (.device hnamed (.refreshed (.inr rfl) hread hstanding))
  registered g psk now hx hdrawn huser henabled _ := by
    intro op hop
    obtain rfl | hop := List.mem_cons.mp hop
    · refine .device (newDevice_named g hx _ psk _ now) (.registered rfl hdrawn ?_ henabled)
      rw [newDevice_user]
      exact huser
    · exact aside_rules _ (.mutate _ _) (indexOperations_aside _ _ _) op hop

section

variable {R : Rules (Req Data) Ans} (hR : DeviceRules P R) {α : Type} {p : Handler Data α}
include hR

theorem DeviceRules.lenient : Lenient R := lenient_of_aside hR.aside

theorem DeviceRules.reads {φ : History Data → α → Prop} (h : Returns (readRules P) p past φ) :
    Returns R p past fun past' a => Only Quiet past past' ∧ φ past' a := by
  refine hR.lenient.returns ?_
  unfold Rules.only
  rw [hR.answers]
  exact h

theorem DeviceRules.beside (h : Harmless (R.only Aside) p) : Harmless R p :=
  harmless_ofAside hR.aside h

theorem DeviceRules.lists : ListsRecords R := by
  intro d names h
  rw [hR.answers] at h
  exact h

/-- It has written the Device as disabled. -/
theorem returns_deactivateDevice (x : Str) (revoked : Bool) (now : Option Int) :
    Returns R (deactivateDevice P x revoked now) past fun past' _ =>
      isHex 32 x = true ∧ ∃ r revision, r["enabled".toList]? = some (.bool false) ∧
        Since past past' ⟨.mutate "PutCanonicalRecord"
          [putOp (recordKey .devices x) (P.dumps r)], .ok revision⟩ := by
  refine (hR.lenient.harmless harmless_strongRead).seq fun past₁ _ h₁ => ?_
  refine (hR.lenient.harmless (harmless_timestampOf now)).seq fun past₂ timestamp h₂ => ?_
  refine (hR.reads (returns_loadDevice x)).seq fun past₃ device h₃ hdevice => ?_
  obtain ⟨_, hhex, hread, hnamed⟩ := hdevice
  have hplain : '/' ∉ x := not_slash_of_isHex hhex
  rw [show P.deviceId device x = x from hnamed.2]
  refine (returns_devicePath x).seq fun past₄ path _ hpath => ?_
  obtain ⟨rfl, _, rfl⟩ := hpath
  have hwrite := hR.deactivated hread (deactivated_named hnamed revoked timestamp)
    (deactivated_enabled device revoked timestamp)
  refine (returns_atomicJson hplain hwrite).seq fun past₅ _ _ hack => ?_
  obtain ⟨revision, rfl⟩ := hack
  -- from here on nothing about the Device record changes, only the history grows
  have hsince := Since.newest ⟨.mutate "PutCanonicalRecord"
    [putOp (recordKey .devices x) (P.dumps (deactivated device revoked timestamp))],
    .ok revision⟩ (h₁.trans (h₂.trans h₃))
  have hrevocation : Harmless R (if revoked = true then
      writeRevocation P "device" x timestamp "device_revoked" else Prog.ret ()) :=
    Harmless.ite (hR.beside (harmless_writeRevocation timestamp _ (by decide) hplain))
      (harmless_ret ())
  refine hrevocation.seq fun past₆ _ h₆ => ?_
  refine (hR.beside ((revokes_aside hR.lists).revokeDeviceCredentials x fun _ _ => trivial)).seq
    fun past₇ _ h₇ => ?_
  refine Harmless.seq ?_ fun past₈ _ h₈ => ?_
  · exact Harmless.ite ((hR.lenient.harmless (harmless_outside _)).bind fun _ => harmless_ret ())
      (harmless_ret ())
  refine (hR.lenient.harmless (harmless_outside _)).seq fun past₉ _ h₉ => ?_
  exact ⟨hhex, _, revision, deactivated_enabled device revoked timestamp,
    hsince.mono (h₆.trans (h₇.trans (h₈.trans h₉)))⟩

/-! ## Authorization -/

/-- It has read what it returns. -/
theorem returns_authorizeAccessCredential (token : Str) (requireDevice : Bool)
    (requiredScope : Option Str) :
    Returns R (authorizeAccessCredential P token requireDevice requiredScope) past
      fun past' res => Found P past' .users res.1 ∧ userEnabled res.1 = true ∧
        ∀ device, res.2.1 = some device → Found P past' .devices device := by
  refine (hR.lenient.harmless harmless_strongRead).seq fun past₁ _ _ => ?_
  refine (harmless_validateOpaqueToken _ _).seq fun past₂ credential _ => ?_
  refine (returns_credentialIndex credential).seq fun past₃ index _ hindex => ?_
  obtain ⟨rfl, rfl⟩ := hindex
  have hplain : '/' ∉ P.sha256Text credential := not_slash_of_isHex (P.sha256Text_hex credential)
  refine (hR.reads (returns_orRaise (returns_readJson _))).seq fun past₄ record _ _ => ?_
  refine (hR.lenient.harmless (harmless_timestampOf none)).seq fun past₅ timestamp _ => ?_
  refine (harmless_ofExcept _).seq fun past₆ expiresAt _ => ?_
  dsimp only
  split
  · rw [recordPath_plain _ hplain]
    exact (hR.beside (harmless_deleteCanonical rfl hplain)).seq fun _ _ _ => trivial
  · refine (harmless_raiseIf _ _).seq fun past₇ _ _ => ?_
    refine (hR.reads (returns_loadUser _)).seq fun past₈ user _ huser => ?_
    refine (returns_raiseIf _ _).seq fun past₉ _ h₉ henabled => ?_
    have huserFound := huser.2.mono h₉
    have henabled' : userEnabled user = true := by simpa using henabled.2
    split
    · refine (hR.reads (returns_loadDevice _)).seq fun past₁₀ device h₁₀ hdevice => ?_
      refine (returns_field _ _).seq fun past₁₁ id h₁₁ _ => ?_
      refine (harmless_raiseIf _ _).seq fun past₁₂ _ h₁₂ => ?_
      refine ⟨huserFound.mono (h₁₀.trans (h₁₁.trans h₁₂)), henabled', fun d hd => ?_⟩
      obtain rfl := Option.some.inj hd
      exact Found.mono ⟨_, hdevice.2⟩ (h₁₁.trans h₁₂)
    · refine (harmless_raiseIf _ _).seq fun past₁₀ _ h₁₀ => ?_
      exact ⟨huserFound.mono h₁₀, henabled', fun d hd => by cases hd⟩

/-! ## Registration -/

variable {user : Record}

/-- A new Device: a drawn id, an enabled User, an allocated address. -/
theorem returns_registerNew (g : Registration) (huser : Found P past .users user)
    (henabled : userEnabled user = true) : Returns R (registerNew P g user) past fun _ _ =>
      True := by
  refine (returns_ask (hR.lenient _ (.random 16) trivial)).seq fun past₁ deviceId h₁ hdrawn => ?_
  obtain ⟨rfl, hdigits⟩ := hdrawn
  rw [hR.answers] at hdigits
  have hhex : isHex 32 deviceId = true := hdigits
  have hdrawn : Drawn (⟨.random 16, deviceId⟩ :: past) deviceId := ⟨past, Only.refl _ _⟩
  -- nothing is submitted between the draw and the write
  refine (hR.lenient.returns (harmless_ask (r := Req.secret) (fun _ => trivial) _)).seq
    fun past₂ psk h₂ hquiet₂ => ?_
  refine (hR.lenient.returns (harmless_ask (r := Req.time) (fun _ => trivial) _)).seq
    fun past₃ now h₃ hquiet₃ => ?_
  refine (hR.lenient.returns returns_allocateWireguardAddress).seq
    fun past₄ candidate h₄ hallocated => ?_
  refine (hR.lenient.returns returns_globalConfig).seq fun past₅ _ h₅ hconfig => ?_
  obtain ⟨hquiet₅, file, rfl, _⟩ := hconfig
  refine (returns_field _ _).seq fun past₆ id _ hid => ?_
  obtain ⟨rfl, hid⟩ := hid
  obtain ⟨u, hu, hread, hnamedUser⟩ := huser
  obtain rfl := hnamedUser id hid
  have hmust := hR.registered g psk now hhex
    ((((hdrawn.mono hquiet₂.1).mono hquiet₃.1).mono hallocated.1).mono hquiet₅)
    (hread.mono (h₁.trans (h₂.trans (h₃.trans (h₄.trans h₅))))) henabled (hallocated.2.cons nofun)
  refine Returns.seq (returns_putDevice_of (newDevice_named g hhex _ psk _ now) (fun op hop => ?_)
    hmust) fun past₇ _ _ _ => (hR.lenient.harmless (harmless_outside _)).seq fun _ _ _ => trivial
  exact asideOp_path (indexOperations_aside deviceId g.publicKey candidate op hop)

theorem returns_registerNewOrReply (r : Registration) (huser : Found P past .users user)
    (henabled : userEnabled user = true) :
    Returns R (registerNewOrReply P r user) past fun _ _ => True := by
  refine Returns.rescue (φ := fun _ _ => True) ?_ (fun _ _ _ _ => trivial) fun past' raised _ => ?_
  · exact (returns_registerNew hR r huser henabled).seq fun _ _ _ _ => trivial
  · cases raised <;> trivial

theorem returns_registerExisting (r : Registration) (user : Record) {existing : Record}
    (requireExisting : Bool) (hexisting : Found P past .devices existing) :
    Returns R (registerExisting P r user existing requireExisting) past fun _ _ => True := by
  obtain ⟨x, _, hread, hnamed⟩ := hexisting
  refine (returns_field _ _).seq fun past₁ id h₁ _ => ?_
  refine Returns.ite (fun _ => trivial) fun _ => Returns.ite (fun _ => trivial) fun _ => ?_
  refine (harmless_compareDigest _ _).seq fun past₂ same h₂ => ?_
  refine Returns.ite (fun _ => trivial) fun _ => Returns.ite (fun _ => trivial) fun _ => ?_
  refine Harmless.seq (harmless_ask fun _ => hR.lenient _ _ trivial) fun past₃ now h₃ => ?_
  have hnamed' := (hnamed.insert "last_seen" (.int now) (by decide) (by decide)).insert
    "last_version" (.str r.version) (by decide) (by decide)
  refine Returns.rescue (φ := fun _ _ => True) ?_ (fun _ _ _ _ => trivial) fun past' raised _ => ?_
  · refine Returns.seq (returns_putDevice_of hnamed' (fun op hop => absurd hop List.not_mem_nil)
      (hR.updated (hread.mono (h₁.trans (h₂.trans h₃))) hnamed' ?_ ?_)) fun _ _ _ _ => trivial
    · rw [standing_insert _ _ _ (by decide) (by decide) (by decide) (by decide),
        standing_insert _ _ _ (by decide) (by decide) (by decide) (by decide)]
    · rw [addressOf_insert _ _ (by decide), addressOf_insert _ _ (by decide)]
  · exact Harmless.ite (harmless_ret _) (harmless_raise _) past'

/-- The User has been read, as enabled. -/
theorem returns_registeringUser (accessToken : Str) (r : Registration) :
    Returns R (registeringUser P accessToken r) past fun past' res =>
      ∀ user, res = .ok user → Found P past' .users user ∧ userEnabled user = true := by
  refine Returns.rescue (φ := fun past' res =>
    ∀ user, res = .ok user → Found P past' .users user ∧ userEnabled user = true) ?_
    (fun _ _ _ h => h) fun past' raised _ => ?_
  · refine (returns_authorizeAccessCredential hR _ _ _).seq fun past₁ res _ hres => ?_
    refine (harmless_raiseIf _ _).seq fun past₂ _ h₂ => ?_
    refine (harmless_ofExcept _).seq fun past₃ _ h₃ => ?_
    intro user huser
    obtain rfl := Except.ok.inj huser
    exact ⟨hres.1.mono (h₂.trans h₃), hres.2.1⟩
  · cases raised with
    | identity message status => exact fun user huser => by cases huser
    | _ => trivial

theorem returns_registeredDevice (r : Registration) (expectedId : Option Str)
    (huser : Found P past .users user) (henabled : userEnabled user = true) :
    Returns R (registeredDevice P r user expectedId) past fun _ _ => True := by
  refine (hR.reads (returns_findDeviceByPublicKey r.publicKey)).seq
    fun past₁ existing h₁ hexisting => ?_
  cases existing with
  | none =>
    refine Returns.ite (fun _ => trivial) fun _ => ?_
    exact (returns_registerNewOrReply hR r (huser.mono h₁) henabled).seq fun _ _ _ _ => trivial
  | some existing =>
    refine Returns.ite (fun _ => trivial) fun _ => ?_
    exact (returns_registerExisting hR r user _ (hexisting.2 existing rfl)).seq
      fun _ _ _ _ => trivial

/-- Registrations keep the rules. -/
theorem harmless_deviceRegister (authorization : Str) (body : Option Record)
    (requireExisting : Bool) :
    Harmless R (deviceRegister P authorization body requireExisting) := by
  intro past
  unfold deviceRegister
  split
  · trivial
  · trivial
  · refine Returns.ite (fun _ => trivial) fun _ => Returns.ite (fun _ => trivial) fun _ => ?_
    refine (returns_registeringUser hR _ _).seq fun past₁ authorized _ huser => ?_
    cases authorized with
    | error refusal => exact trivial
    | ok user =>
      obtain ⟨hfound, henabled⟩ := huser user rfl
      refine (returns_registeredDevice hR _ _ hfound henabled).seq fun past₂ found _ _ => ?_
      cases found with
      | error refusal => exact trivial
      | ok res => exact hR.beside (harmless_openSession hR.lists _ _ _ _) past₂

end

/-! ## Disabling a User -/

/-- The Device, if there is one, is not an active Device of the User. -/
def Settled (P : Runtime Data) (u : Str) (device : Option Record) : Prop :=
  ∀ r, device = some r → P.strField r "user_id" = u → deviceIsActive r = false

/-- The event shows that the Device was not an active one of the User. -/
def Shows (P : Runtime Data) (u x : Str) : Event (Req Data) Ans → Prop
  | ⟨.glob d, names⟩ => d = .devices ∧ x ++ jsonSuffix ∉ names
  | ⟨.readFile path, file⟩ => path = recordKey .devices x ∧ Settled P u (recordOf P file)
  | ⟨.mutate _ operations, .ok _⟩ =>
    ∃ r, operations = [putOp (recordKey .devices x) (P.dumps r)] ∧ Settled P u (some r)
  | _ => False

/-- `disable_user` returned: its history accounts for every Device. -/
def Accounted (P : Runtime Data) (u : Str) (past : History Data) : Prop :=
  isHex 32 u = true ∧ ∃ after before r revision,
    past = after ++ ⟨.mutate "PutCanonicalRecord"
      [putOp (recordKey .users u) (P.dumps r)], .ok revision⟩ :: before ∧
    r["enabled".toList]? = some (.bool false) ∧
    ∀ x, '/' ∉ x → ∃ e ∈ after, Shows P u x e

theorem returns_matchOwner (u : Str) (hx : '/' ∉ x) :
    Returns (readRules P) (matchOwner P u (x ++ jsonSuffix)) past fun past' found =>
      ∃ file, Answer P (.readFile (recordKey .devices x)) file ∧
        Since past past' ⟨.readFile (recordKey .devices x), file⟩ ∧
        ∀ r, recordOf P file = some r → P.strField r "user_id" = u → found = some r := by
  refine (returns_orSkip_readJson _).seq fun past' found hsuf h => ?_
  rw [show filePath .devices (x ++ jsonSuffix) = recordKey .devices x from rfl,
    clean_recordKey _ hx] at h
  obtain ⟨file, hfile, rfl, rfl⟩ := h
  have hsince := Since.newest
    (⟨.readFile (recordKey .devices x), file⟩ : Event (Req Data) Ans) (List.suffix_refl past)
  cases hr : recordOf P file with
  | none => exact ⟨file, hfile, hsince, fun r hr' => by cases hr.symm.trans hr'⟩
  | some device =>
    refine ⟨file, hfile, hsince, fun r hr' howner => ?_⟩
    obtain rfl := Option.some.inj (hr.symm.trans hr')
    exact if_pos howner

/-- No Device of the User is missed. -/
theorem returns_listDevices (u : Str) :
    Returns (readRules P) (listDevices P u) past fun past' devices =>
      ∀ x, '/' ∉ x →
        (∃ names, Since past past' ⟨.glob .devices, names⟩ ∧ x ++ jsonSuffix ∉ names) ∨
        ∃ file, Answer P (.readFile (recordKey .devices x)) file ∧
          Since past past' ⟨.readFile (recordKey .devices x), file⟩ ∧
          ∀ r, recordOf P file = some r → P.strField r "user_id" = u → r ∈ devices := by
  refine (returns_ask trivial).seq fun past₁ names h₁ hnames => ?_
  obtain ⟨rfl, hnames⟩ := hnames
  have hglob := Since.newest
    (⟨.glob .devices, names⟩ : Event (Req Data) Ans) (List.suffix_refl past)
  refine (Returns.collect (φ := fun name found past' => ∀ x, name = x ++ jsonSuffix →
    ∃ file, Answer P (.readFile (recordKey .devices x)) file ∧
      Since past past' ⟨.readFile (recordKey .devices x), file⟩ ∧
      ∀ r, recordOf P file = some r → P.strField r "user_id" = u → found = some r) ?_ ?_).mono ?_
  · intro name found past' past'' hsuf h x hx
    obtain ⟨file, hfile, hsince, hfound⟩ := h x hx
    exact ⟨file, hfile, hsince.mono hsuf, hfound⟩
  · intro name hname past' hsuf
    obtain ⟨x, hx, rfl, _⟩ := filePath_eq .devices (hnames name (mem_sortedNames.mp hname)).1
      (hnames name (mem_sortedNames.mp hname)).2
    refine (returns_matchOwner u hx).mono fun past'' found _ h y hy => ?_
    obtain rfl := List.append_cancel_right hy
    obtain ⟨file, hfile, hsince, hfound⟩ := h
    exact ⟨file, hfile, hsince.weaken (h₁.trans hsuf), hfound⟩
  · intro past' devices hsuf h x hx
    by_cases hlisted : x ++ jsonSuffix ∈ names
    · right
      obtain ⟨found, hfound, hmem⟩ := h _ (mem_sortedNames.mpr hlisted)
      obtain ⟨file, hfile, hsince, howner⟩ := hfound x rfl
      exact ⟨file, hfile, hsince, fun r hr hu => hmem r (howner r hr hu)⟩
    · exact .inl ⟨names, hglob.mono hsuf, hlisted⟩

/-- The active ones are written as disabled. -/
theorem returns_disableDevices (timestamp : Int) (devices : List Record) :
    Returns (rules P) (Prog.forEach (disableDevice P timestamp) devices) past fun past' _ =>
      ∀ device ∈ devices, deviceIsActive device = true →
        isHex 32 (P.deviceId device []) = true ∧ ∃ r revision,
        r["enabled".toList]? = some (.bool false) ∧
        Since past past' ⟨.mutate "PutCanonicalRecord"
          [putOp (recordKey .devices (P.deviceId device [])) (P.dumps r)], .ok revision⟩ := by
  refine Returns.forEach (φ := fun device past' => deviceIsActive device = true →
    isHex 32 (P.deviceId device []) = true ∧ ∃ r revision,
    r["enabled".toList]? = some (.bool false) ∧
    Since past past' ⟨.mutate "PutCanonicalRecord"
      [putOp (recordKey .devices (P.deviceId device [])) (P.dumps r)], .ok revision⟩) ?_ ?_
  · intro device past' past'' hsuf h hactive
    obtain ⟨hhex, r, revision, hr, hsince⟩ := h hactive
    exact ⟨hhex, r, revision, hr, hsince.mono hsuf⟩
  · intro device _ past' hsuf
    unfold disableDevice
    split
    · refine (returns_deactivateDevice deviceRules_rules _ _ _).seq fun past'' _ hsuf' h _ => ?_
      obtain ⟨hhex, r, revision, hr, hsince⟩ := h
      exact ⟨hhex, r, revision, hr, hsince.weaken hsuf⟩
    · rename_i hinactive
      exact fun hactive => absurd hactive hinactive

/-- **When `disable_user` returns, every Device is accounted for.** -/
theorem returns_disableUser (username : Str) (now : Option Int) :
    Returns (rules P) (disableUser P username now) past fun past' user =>
      ∀ id, user["id".toList]? = some id → Accounted P (P.str id) past' := by
  refine (harmless_ofRead harmless_strongRead).seq fun past₁ _ _ => ?_
  refine (returns_ofRead (returns_loadUserByUsername username)).seq fun past₂ found _ hfound => ?_
  cases found with
  | none => exact trivial
  | some user =>
    obtain ⟨u, hhex, hread, hnamed⟩ := hfound.2 user rfl
    have hplain : '/' ∉ u := not_slash_of_isHex hhex
    refine (harmless_ofRead (harmless_timestampOf now)).seq fun past₃ timestamp _ => ?_
    refine (returns_field _ _).seq fun past₄ id _ hid => ?_
    obtain ⟨rfl, hid⟩ := hid
    have hid' : P.str id = u := by
      rw [SortedMap.get_insert_of_ne _ _ (by decide)] at hid
      exact hnamed id hid
    rw [hid']
    have henabled : (user.insert "enabled" (.bool false))["enabled".toList]? =
        some (.bool false) := SortedMap.get_insert_self _ _ _
    have hwrite : Write P past₄ "PutCanonicalRecord" (putOp (recordKey .users u)
        (P.dumps (user.insert "enabled" (.bool false)))) := by
      refine .user hplain (fun id' h' => ?_) (.disabled henabled)
      rw [SortedMap.get_insert_of_ne _ _ (by decide)] at h'
      exact hnamed id' h'
    refine (returns_atomicJson hplain (must_singleton hwrite)).seq fun past₅ _ _ hack => ?_
    obtain ⟨revision, rfl⟩ := hack
    refine (harmless_beside (harmless_writeRevocation timestamp _ (by decide) hplain)).seq
      fun past₆ _ h₆ => ?_
    refine (harmless_beside ((revokes_aside lists_rules).revokeUserAccess u fun _ _ => trivial)).seq
      fun past₇ _ h₇ => ?_
    refine (returns_ofRead (returns_listDevices u)).seq fun past₈ devices h₈ hlist => ?_
    refine (returns_disableDevices timestamp devices).seq fun past₉ _ h₉ hput => ?_
    intro id' hid''
    obtain rfl : id = id' := Option.some.inj (hid.symm.trans hid'')
    rw [hid']
    have hwhole := h₆.trans (h₇.trans (h₈.trans h₉))
    obtain ⟨after, hafter⟩ := hwhole
    refine ⟨hhex, after, past₄, _, revision, hafter.symm, henabled, fun x hx => ?_⟩
    have hshown : ∀ e, Since past₇ past₉ e → e ∈ after := by
      intro e he
      obtain ⟨later, hlater, hmem⟩ := he.weaken (h₆.trans h₇)
      rw [← hafter] at hlater
      obtain rfl := List.append_cancel_right hlater
      exact hmem
    obtain ⟨names, hsince, hunlisted⟩ | ⟨file, hfile, hsince, howner⟩ := hlist.2 x hx
    · exact ⟨_, hshown _ (hsince.mono h₉), rfl, hunlisted⟩
    · by_cases hsettled : Settled P u (recordOf P file)
      · exact ⟨_, hshown _ (hsince.mono h₉), rfl, hsettled⟩
      · -- an active Device of the User was in the list, so it has been put inactive
        simp only [Settled, not_forall] at hsettled
        obtain ⟨r, hr, hu, hactive⟩ := hsettled
        have hactive' : deviceIsActive r = true := by simpa using hactive
        obtain ⟨hhex', r', revision', hr', hsince'⟩ := hput r (howner r hr hu) hactive'
        have hid : P.deviceId r [] = x := by
          obtain h | h := deviceId_cases ((hfile r hr).1 .devices x hx rfl)
          · exact h
          · rw [h] at hhex'
            exact absurd hhex' (by decide)
        rw [hid] at hsince'
        refine ⟨_, hshown _ (hsince'.weaken h₈), r', rfl, fun r'' h'' _ => ?_⟩
        obtain rfl := Option.some.inj h''
        exact not_active_of_enabled hr'

/-! ## Passwords -/

theorem harmless_askHash (password : Str) :
    Harmless (rules P) (askHash password : Handler Data Str) :=
  harmless_ask fun _ => trivial

theorem named_user_insert {u : Str} (h : Named P .users u r) (key : Str) (v : Json)
    (hid : key ≠ "id") : Named P .users u (r.insert key v) := by
  intro id hid'
  rw [SortedMap.get_insert_of_ne _ _ hid] at hid'
  exact h id hid'

theorem harmless_authenticateLocalUser (username password : Str) :
    Harmless (rules P) (authenticateLocalUser P username password) := by
  intro past
  refine (harmless_ofRead harmless_strongRead).seq fun past₁ _ _ => ?_
  refine (returns_ofRead (returns_loadUserByUsername username)).seq fun past₂ found _ hfound => ?_
  cases found with
  | none => exact trivial
  | some user =>
    obtain ⟨u, hhex, hread, hnamed⟩ := hfound.2 user rfl
    have hplain : '/' ∉ u := not_slash_of_isHex hhex
    refine (returns_raiseIf _ _).seq fun past₃ _ h₃ hrefused => ?_
    have hon : userEnabled user = true := by
      have h := hrefused.2
      simp only [Bool.or_eq_false_iff, Bool.not_eq_false'] at h
      exact h.1.2
    refine Returns.ite (fun _ => ?_) fun _ => trivial
    refine (harmless_askHash password).seq fun past₄ hash h₄ => ?_
    refine (returns_field _ _).seq fun past₅ id _ hid => ?_
    obtain ⟨rfl, hid⟩ := hid
    have hnamed' := named_user_insert hnamed "password_hash" (.str hash) (by decide)
    rw [hnamed' id hid]
    refine (returns_atomicJson hplain (must_singleton ?_)).seq fun _ _ _ _ => trivial
    refine .user hplain hnamed' (.rehashed rfl (hread.mono (h₃.trans h₄)) hon ?_)
    exact SortedMap.get_insert_of_ne _ _ (by decide)

/-- Logins keep the rules. -/
theorem harmless_authLogin (body : Option Record) : Harmless (rules P) (authLogin P body) := by
  cases body with
  | none => exact harmless_ret _
  | some body =>
    refine Harmless.ite (harmless_ret _) (Harmless.handle ?_ fun raised => ?_)
    · refine (harmless_authenticateLocalUser _ _).bind fun user => ?_
      refine Harmless.bind (harmless_field _ _) fun id => ?_
      refine (harmless_beside (harmless_issueAccessCredential _ _ _)).bind fun _ => ?_
      exact (harmless_field _ _).bind fun _ => harmless_ret _
    · cases raised with
      | identity message status => exact harmless_ret _
      | _ => exact Harmless.ite (harmless_ret _) (harmless_raise _)

/-- Password changes keep the rules. -/
theorem harmless_changeUserPassword (username password : Str) :
    Harmless (rules P) (changeUserPassword P username password) := by
  intro past
  refine (harmless_raiseIf _ _).seq fun past₁ _ _ => ?_
  refine (harmless_ofRead harmless_strongRead).seq fun past₂ _ _ => ?_
  refine (returns_ofRead (returns_loadUserByUsername username)).seq fun past₃ found _ hfound => ?_
  cases found with
  | none => exact trivial
  | some user =>
    obtain ⟨u, hhex, _, hnamed⟩ := hfound.2 user rfl
    have hplain : '/' ∉ u := not_slash_of_isHex hhex
    refine (returns_field _ _).seq fun past₄ id _ hid => ?_
    dsimp only
    rw [hnamed id hid.2, recordPath_plain _ hplain]
    refine (returns_ofRead (returns_readBytes _)).seq fun past₅ original _ horiginal => ?_
    rw [clean_recordKey _ hplain] at horiginal
    cases hloads : P.loads original with
    | invalid => exact trivial
    | other => exact trivial
    | object current =>
      have hrecord : recordOf P (some original) = some current := by simp only [recordOf, hloads]
      have hcurrent : Named P .users u current :=
        (horiginal.2.1 current hrecord).1 .users u hplain rfl
      refine (harmless_raiseIf _ _).seq fun past₆ _ h₆ => ?_
      refine (harmless_ofExcept _).seq fun past₇ _ h₇ => ?_
      refine (harmless_ofExcept _).seq fun past₈ _ h₈ => ?_
      refine (harmless_raiseIf _ _).seq fun past₉ _ h₉ => ?_
      refine (harmless_askHash password).seq fun past₁₀ hash h₁₀ => ?_
      have hsuf : past₅ <:+ past₁₀ := h₆.trans (h₇.trans (h₈.trans (h₉.trans h₁₀)))
      have hread : ⟨.readFile (recordKey .users u), some original⟩ ∈ past₁₀ := by
        refine hsuf.subset ?_
        rw [horiginal.2.2]
        exact List.mem_cons_self
      refine (returns_asIdentity (returns_write fun op hop => ?_)).seq fun _ _ _ _ => trivial
      rw [List.mem_singleton.mp hop]
      refine .user hplain (named_user_insert hcurrent "password_hash" (.str hash) (by decide))
        (.replaced hread hrecord ?_)
      exact SortedMap.get_insert_of_ne _ _ (by decide)

/-! ## Legacy credentials -/

theorem returns_authorizeLegacyStaticDevice (token : Str) :
    Returns (readRules P) (authorizeLegacyStaticDevice P token) past fun past' found =>
      ∀ r, found = some r → Found P past' .devices r := by
  refine (returns_credentialIndex token).seq fun past₁ index _ hindex => ?_
  obtain ⟨rfl, rfl⟩ := hindex
  refine (returns_ask trivial).seq fun past₂ file _ _ => ?_
  cases file with
  | none => exact fun r hr => by cases hr
  | some data =>
    refine (returns_legacyDevice token).seq fun past₃ device h₃ hdevice => ?_
    refine (harmless_compareDigest _ _).seq fun past₄ same h₄ => ?_
    refine (harmless_raiseIf _ _).seq fun past₅ _ h₅ => ?_
    refine (harmless_raiseIf _ _).seq fun past₆ _ h₆ => ?_
    intro r hr
    obtain rfl := Option.some.inj hr
    exact hdevice.mono (h₄.trans (h₅.trans h₆))

theorem returns_credentialDevice (token : Str) :
    Returns (rules P) (credentialDevice P token) past fun past' res =>
      ∀ device, res = .ok device → Found P past' .devices device := by
  refine Returns.rescue (φ := fun past' res =>
    ∀ device, res = .ok device → Found P past' .devices device) ?_ (fun _ _ _ h => h)
    fun past' raised _ => ?_
  · refine (returns_authorizeAccessCredential deviceRules_rules _ _ _).seq
      fun past' res _ hres => ?_
    obtain ⟨user, device, record⟩ := res
    cases device with
    | none => exact trivial
    | some device =>
      intro d hd
      obtain rfl := Except.ok.inj hd
      exact hres.2.2 device rfl
  · cases raised with
    | identity message status => exact fun d hd => by cases hd
    | _ => trivial

theorem returns_staticDevice (token : Str) (refusal : Reply) :
    Returns (rules P) (staticDevice P token refusal) past fun past' res =>
      ∀ device, res = .ok device → Found P past' .devices device := by
  refine Returns.rescue (φ := fun past' res =>
    ∀ device, res = .ok device → Found P past' .devices device) ?_ (fun _ _ _ h => h)
    fun past' raised _ => ?_
  · refine (returns_ofRead (returns_authorizeLegacyStaticDevice token)).seq
      fun past' legacy _ h => ?_
    cases legacy with
    | none => exact fun d hd => by cases hd
    | some device =>
      intro d hd
      obtain rfl := Except.ok.inj hd
      exact h.2 device rfl
  · cases raised with
    | legacyAuth => exact fun d hd => by cases hd
    | _ => trivial

/-- The Device has been read. -/
theorem returns_authorizedDevice (authorization : Str) :
    Returns (rules P) (authorizedDevice P authorization) past fun past' res =>
      ∀ device, res = .ok device → Found P past' .devices device := by
  unfold authorizedDevice
  cases bearer P authorization with
  | none => exact fun d hd => by cases hd
  | some token =>
    refine (returns_credentialDevice token).seq fun past' attempt _ hattempt => ?_
    cases attempt with
    | ok device => exact hattempt
    | error refusal => exact returns_staticDevice token refusal

/-! ## Heartbeats -/

theorem heartbeatDevice_named (h : Named P .devices x r) (body : Record) (now : Int) :
    Named P .devices x (heartbeatDevice P r body now) :=
  (((h.insert "last_seen" _ (by decide) (by decide)).insert "last_version" _ (by decide)
    (by decide)).insert "last_transport" _ (by decide) (by decide)).insert "last_status" _
    (by decide) (by decide)

/-- A heartbeat copies the standing. -/
theorem heartbeatDevice_standing (r body : Record) (now : Int) :
    standing (heartbeatDevice P r body now) = standing r := by
  unfold heartbeatDevice
  rw [standing_insert _ _ _ (by decide) (by decide) (by decide) (by decide),
    standing_insert _ _ _ (by decide) (by decide) (by decide) (by decide),
    standing_insert _ _ _ (by decide) (by decide) (by decide) (by decide),
    standing_insert _ _ _ (by decide) (by decide) (by decide) (by decide)]

/-- Heartbeats keep the rules. -/
theorem harmless_heartbeat (authorization : Str) (body : Option Record) :
    Harmless (rules P) (heartbeat P authorization body) := by
  intro past
  refine (returns_authorizedDevice authorization).seq fun past₁ authenticated _ hdevice => ?_
  cases authenticated with
  | error refusal => exact trivial
  | ok device =>
    obtain ⟨x, _, hread, hnamed⟩ := hdevice device rfl
    refine Returns.ite (fun _ => trivial) fun _ => ?_
    cases body with
    | none => exact trivial
    | some body =>
      refine harmless_askTime.seq fun past₂ now h₂ => ?_
      have hnamed' := heartbeatDevice_named hnamed body now
      have hwrite : Write P past₂ "DeviceHeartbeat"
          (putOp (recordKey .devices x) (P.dumps (heartbeatDevice P device body now))) :=
        .device hnamed' (.refreshed (.inl rfl) (hread.mono h₂)
          (heartbeatDevice_standing device body now))
      refine Returns.rescue (φ := fun _ _ => True) ?_ (fun _ _ _ _ => trivial)
        fun past' raised _ => ?_
      · exact Returns.seq (returns_putDevice_of hnamed' (fun op hop => absurd hop List.not_mem_nil)
          (must_singleton hwrite)) fun _ _ _ _ => trivial
      · exact Harmless.ite (harmless_ret _) (harmless_raise _) past'

/-! ## All requests -/

/-- What the end of a request stands for. -/
def jobPost (P : Runtime Data) (job : Job) (past : History Data) :
    Except PyError Outcome → Prop
  | .ok (.returned user) =>
    match job with
    | .disableUser _ _ => ∀ id, user["id".toList]? = some id → Accounted P (P.str id) past
    | _ => True
  | _ => True

/-- **Every request keeps to the list of writes**, from its start on. -/
theorem requests_write (job : Job) : Spec (rules P) (requestProgram P job) [] (jobPost P job) := by
  have hreplied : ∀ {p : Handler Data Reply}, Harmless (rules P) p →
      Spec (rules P) (p.bind fun r => Prog.ret (.replied r)) [] (jobPost P job) := by
    intro p h
    refine Spec.bind (Spec.mono (h []) fun past' res _ _ => ?_)
    cases res with
    | ok r => exact trivial
    | error e => exact trivial
  cases job with
  | deactivateDevice deviceId revoked now =>
    refine Spec.bind (Spec.mono (returns_deactivateDevice deviceRules_rules deviceId revoked now)
      fun past' res _ _ => ?_)
    cases res with
    | ok r => exact trivial
    | error e => exact trivial
  | disableUser username now =>
    refine Spec.bind (Spec.mono (returns_disableUser username now) fun past' res _ h => ?_)
    cases res with
    | ok r => exact h
    | error e => exact trivial
  | changeUserPassword username password =>
    refine Spec.bind (Spec.mono (harmless_changeUserPassword username password [])
      fun past' res _ _ => ?_)
    cases res with
    | ok r => exact trivial
    | error e => exact trivial
  | authLogin body => exact hreplied (harmless_authLogin body)
  | heartbeat authorization body => exact hreplied (harmless_heartbeat authorization body)
  | deviceRegister authorization body requireExisting =>
    exact hreplied (harmless_deviceRegister deviceRules_rules authorization body requireExisting)

end Bpc.Deploy

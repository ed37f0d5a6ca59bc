/-
  OVERLAY ADDRESSES — what a request has seen when it commits one (`DevicePut`).

  A registration also claims the address in an index record that must be absent; an enrollment does
  not.
-/
import Bpc.Deploy.Enroll
import Bpc.Deploy.Concurrent

namespace Bpc.Deploy.Addressing

open SlashPath Controlplane Interaction

variable {Data : Type} (P : Runtime Data)

/-! ## Writes -/

/-- How a call can put the Device with a given id. -/
inductive DevicePut (past : History Data) (x : Str) :
    Str → Record → List (Operation Data) → Prop where
  /-- A new Device; a registration also claims its address. -/
  | created {kind : Str} {r : Record} {candidate : Nat} {extra : List (Operation Data)}
      (haddress : addressOf P r = some (.v4 candidate)) (hallocated : Allocated P past candidate)
      (hclaim : kind = "RegisterDevice" →
        ∃ data, createOp (recordKey .deviceAddresses (P.ipText candidate)) data ∈ extra)
      (hkind : kind ≠ "UpdateRegisteredDevice") : DevicePut past x kind r extra
  /-- A Device as it was read, apart from its `last_…` fields. -/
  | updated {r r' : Record} (hread : ReadRecord P past .devices x r)
      (hstanding : standing r' = standing r) (haddress : addressOf P r' = addressOf P r) :
      DevicePut past x "UpdateRegisteredDevice" r' []
  /-- A Device with `enabled` cleared. -/
  | deactivated {kind : Str} {r : Record} (henabled : r["enabled".toList]? = some (.bool false)) :
      DevicePut past x kind r []

/-- What a call of these may submit. -/
inductive AddressWrite (past : History Data) : Str → List (Operation Data) → Prop where
  /-- Nothing but records that are neither Users nor Devices. -/
  | aside {kind : Str} {ops : List (Operation Data)} (h : ∀ op ∈ ops, AsideOp op) :
      AddressWrite past kind ops
  /-- One Device, and nothing else but such records. -/
  | device {kind x : Str} {r : Record} {extra : List (Operation Data)}
    (hnamed : Named P .devices x r)
      (hextra : ∀ op ∈ extra, AsideOp op) (h : DevicePut P past x kind r extra) :
      AddressWrite past kind (putOp (recordKey .devices x) (P.dumps r) :: extra)

/-- The rules of these calls. -/
def addressRules : Rules (Req Data) Ans where
  must past r :=
    match r with
    | .mutate kind operations => AddressWrite P past kind operations
    | _ => True
  may := Answer P

section

variable {P} {past : History Data}

theorem aside_addressRules (past : History Data) (r : Req Data) (h : Aside r) :
    (addressRules P).must past r := by
  cases r with
  | mutate kind operations => exact .aside h
  | _ => trivial

theorem lenient_addressRules : Lenient (addressRules P) := lenient_of_aside aside_addressRules

theorem harmless_quiet {α : Type} {p : Handler Data α}
    (h : Harmless ((addressRules P).only Quiet) p) : Harmless (addressRules P) p :=
  lenient_addressRules.harmless h

theorem addressOf_printed (hprints : PrintsAddresses P) {r : Record} {candidate : Nat}
    (hbound : candidate < 2 ^ 32)
    (h : r["wireguard_address".toList]? = some (.str (P.ipText candidate ++ "/32"))) :
    addressOf P r = some (.v4 candidate) := by
  obtain ⟨hne, hparse⟩ := hprints candidate hbound
  unfold addressOf Runtime.strField Record.get
  rw [h]
  show (if strip (P.ipText candidate ++ "/32") = [] then none
    else P.ipInterface (strip (P.ipText candidate ++ "/32"))) = _
  rw [if_neg hne, hparse]

theorem newDevice_address (r : Registration) (deviceId userId psk address : Str) (now : Int) :
    (newDevice r deviceId userId psk address now)["wireguard_address".toList]? =
      some (.str (address ++ "/32")) := by
  unfold newDevice
  refine Record.get_of (by simp only [List.map]; decide) ?_
  repeat' first | exact List.mem_cons_self | apply List.mem_cons_of_mem

theorem enrolledDevice_fields (e : EnrollRequest) (enrollment : Record)
    (deviceId credential psk address : Str) (now : Int) :
    let device := enrolledDevice P e enrollment deviceId credential psk address now
    device["id".toList]? = none ∧ device["device_id".toList]? = some (.str deviceId) ∧
      device["wireguard_address".toList]? = some (.str (address ++ "/32")) := by
  unfold enrolledDevice
  refine ⟨Record.get_of_outside ?_, Record.get_of ?_ ?_, Record.get_of ?_ ?_⟩
  · simp only [List.map]; decide
  · simp only [List.map]; decide
  · exact List.mem_cons_self
  · simp only [List.map]; decide
  · repeat' first | exact List.mem_cons_self | apply List.mem_cons_of_mem

theorem enrolledDevice_named (e : EnrollRequest) (enrollment : Record) {deviceId : Str}
    (hhex : isHex 32 deviceId = true) (credential psk address : Str) (now : Int) :
    Named P .devices deviceId
      (enrolledDevice P e enrollment deviceId credential psk address now) := by
  obtain ⟨hid, hdevice, _⟩ :=
    enrolledDevice_fields (P := P) e enrollment deviceId credential psk address now
  refine ⟨hhex, ?_⟩
  unfold Runtime.deviceId Record.get
  rw [hid, hdevice]
  rfl

/-! ## The calls keep to their writes -/

theorem deviceRules_addressRules (hprints : PrintsAddresses P) :
    DeviceRules P (addressRules P) where
  answers := rfl
  aside := aside_addressRules
  deactivated _ hnamed henabled := .device hnamed (fun _ hop => by cases hop)
    (.deactivated henabled)
  updated hread hnamed hstanding haddress :=
    .device hnamed (fun _ hop => by cases hop) (.updated hread hstanding haddress)
  registered {_ deviceId userId _ candidate} g psk now hhex _ _ _ hallocated := by
    have haddress := addressOf_printed hprints hallocated.bound
      (newDevice_address g deviceId userId psk (P.ipText candidate) now)
    have hclaim : createOp (recordKey .deviceAddresses (P.ipText candidate))
        (P.dumps (.of [("device_id", .str deviceId)])) ∈
        indexOperations P deviceId (P.ipText candidate) g.publicKey := by
      unfold indexOperations
      rw [recordPath_plain _ (P.ipText_plain candidate)]
      exact List.mem_cons_self
    exact .device (newDevice_named g hhex userId psk _ now) (indexOperations_aside _ _ _)
      (.created haddress hallocated (fun _ => ⟨_, hclaim⟩) (by decide))

/-! ## Enrollment -/

theorem returns_serverAtomicJson {R : Rules (Req Data) Ans} {d : Dir} {name : Str} {value : Record}
    (hname : '/' ∉ name) (hmust : R.must past
      (.mutate "PutCanonicalRecord" [putOp (recordKey d name) (P.dumps value)])) :
    Returns R (serverAtomicJson P (recordPath d name) value) past fun _ _ => True := by
  unfold serverAtomicJson
  rw [recordPath_plain d hname, isReplicatedPath_record d hname]
  show Returns R (mutation _ _ >>= fun _ => Prog.ret ()) past _
  refine Returns.seq (returns_mutation (fun op hop => ?_) hmust) fun _ _ _ _ => trivial
  rw [List.mem_singleton.mp hop]
  exact ⟨d, name, rfl, hname⟩

theorem harmless_serverAtomicJson_local {path : Str} (value : Record)
    (h : isReplicated (clean path) = false) :
    Harmless (addressRules P) (serverAtomicJson P path value) := by
  unfold serverAtomicJson isReplicatedPath canonicalRelative
  dsimp only
  split
  · exact harmless_raise _
  · show Harmless _ (if isReplicated (clean path) = true then _ else _)
    rw [h, if_neg Bool.false_ne_true]
    exact (harmless_quiet (harmless_outside _)).bind fun _ => harmless_ret _

theorem harmless_installEnrolled (deviceId token : Str) :
    Harmless (addressRules P) (installEnrolled P deviceId (P.sha256Text token)) := by
  have houtside : ∀ action, Harmless (addressRules P) (outside action : Handler Data Json) :=
    fun action => harmless_quiet (harmless_outside action)
  refine (harmless_serverAtomicJson_local _ (legacyTokenIndexPath_local token)).bind fun _ => ?_
  refine (houtside _).bind fun _ => (houtside _).bind fun _ => (houtside _).bind fun _ => ?_
  refine (houtside _).bind fun _ => (houtside _).bind fun _ => (houtside _).bind fun _ => ?_
  exact (houtside _).bind fun _ => harmless_ret _

theorem harmless_commitEnrolled (hprints : PrintsAddresses P) (e : EnrollRequest)
    (enrollment : Record) {deviceId : Str} (hhex : isHex 32 deviceId = true) (credential psk : Str)
    (now : Int) :
    Harmless (addressRules P) (commitEnrolled P e enrollment deviceId credential psk now) := by
  intro past
  refine (lenient_addressRules.returns returns_allocateWireguardAddress).seq
    fun past₁ candidate _ hallocated => ?_
  refine (lenient_addressRules.returns returns_globalConfig).seq fun past₂ _ _ hconfig => ?_
  obtain ⟨_, file, rfl, _⟩ := hconfig
  refine (returns_credentialIndex credential).seq fun past₃ index _ hindex => ?_
  obtain ⟨rfl, rfl⟩ := hindex
  have hnamed := enrolledDevice_named (P := P) e enrollment hhex credential psk
    (P.ipText candidate) now
  have haddress := addressOf_printed hprints hallocated.2.bound
    (enrolledDevice_fields (P := P) e enrollment deviceId credential psk
      (P.ipText candidate) now).2.2
  refine Returns.seq (returns_serverAtomicJson (not_slash_of_isHex hhex) ?_) fun past₄ _ _ _ =>
    harmless_installEnrolled deviceId credential past₄
  exact .device hnamed (fun _ hop => by cases hop) (.created haddress (hallocated.2.cons nofun)
    (fun hkind => absurd hkind (by decide)) (by decide))

theorem harmless_enroll (hprints : PrintsAddresses P) (body : Option Record) :
    Harmless (addressRules P) (enroll P body) := by
  cases body with
  | none => exact harmless_ret _
  | some body =>
    unfold enroll
    refine Harmless.ite (harmless_ret _) ?_
    refine (harmless_quiet (harmless_orSkip_readJson _)).bind fun found => ?_
    cases found with
    | none => exact harmless_ret _
    | some enrollment =>
      refine Harmless.ite (harmless_ret _) ((harmless_ofExcept _).bind fun expires => ?_)
      refine Harmless.bind (harmless_ask fun _ => trivial) fun now => Harmless.ite ?_ ?_
      · exact (harmless_quiet (harmless_outside _)).bind fun _ => harmless_ret _
      refine Harmless.bind (harmless_ask fun _ => trivial) fun present => ?_
      cases present with
      | none => exact harmless_ret _
      | some data =>
        intro past
        refine (returns_ask trivial).seq fun past₁ deviceId _ hdrawn => ?_
        refine (harmless_ask fun _ => trivial).seq fun past₂ credential _ => ?_
        refine (harmless_ask fun _ => trivial).seq fun past₃ psk _ => ?_
        refine (harmless_ask fun _ => trivial).seq fun past₄ now _ => ?_
        refine Harmless.handle (Harmless.bind (harmless_commitEnrolled hprints _ _ hdrawn.2 _ _ _)
          fun _ => harmless_ret _) (fun raised => ?_) past₄
        cases raised with
        | type => exact harmless_raise _
        | _ => exact (harmless_quiet (harmless_outside _)).bind fun _ => harmless_ret _

/-- **Every call keeps to the list of writes.** -/
theorem spec_addressProgram (hprints : PrintsAddresses P) (job : AddressJob) :
    Spec (addressRules P) (addressProgram P job) [] fun _ _ => True := by
  have hall : Harmless (addressRules P) (addressProgram P job) := by
    cases job with
    | deviceRegister authorization body requireExisting =>
      exact (harmless_deviceRegister (deviceRules_addressRules hprints) authorization body
        requireExisting).bind fun _ => harmless_ret _
    | enroll body => exact (harmless_enroll hprints body).bind fun _ => harmless_ret _
    | deactivateDevice deviceId revoked now =>
      exact Harmless.bind (fun _ => (returns_deactivateDevice (deviceRules_addressRules hprints)
        deviceId revoked now).mono fun _ _ _ _ => trivial) fun _ => harmless_ret _
  exact Spec.mono (hall []) fun _ _ _ _ => trivial

end

end Bpc.Deploy.Addressing

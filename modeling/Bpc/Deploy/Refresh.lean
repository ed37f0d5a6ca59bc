/-
  REFRESH CREDENTIALS — `refresh_device_session`, `logout_session` and the family revocation.

  A credential is used ONCE: its record is marked revoked and a successor put, in one mutation that
  requires the bytes that were read.  Whoever presents a revoked record, or loses this comparison,
  revokes the family: it lists the directory and rewrites record by record, with no condition.
-/
import Bpc.Deploy.Calls

namespace Bpc.Deploy

open SlashPath Controlplane Interaction

variable {Data : Type} (P : Runtime Data)

/-! ## Family revocation -/

/-- `str(record.get("family_id", ""))`. -/
def familyOf (record : Record) : Str := P.strField record "family_id"

/-- `_revoke_refresh_family`. -/
def revokeRefreshFamily (familyId : Str) (now : Int) : Handler Data Unit :=
  if familyId = [] then Prog.ret ()
  else do
    let names ← askGlob .refresh
    Prog.forEach (revokeCredential P (fun r => familyOf P r = familyId) now) names

/-! ## Rotation -/

/-- The error of a call that presents a credential which has been used. -/
def replayDetected : PyError := .identity "refresh credential replay detected" 401

/-- The text that a Device signs. -/
def refreshMessage (refreshToken : Str) : Str :=
  "bpc-refresh-v1\n" ++ strip refreshToken ++ "\n"

/-- `old_record`. -/
def rotatedRecord (record : Record) (timestamp : Int) : Record :=
  (record.insert "revoked_at" (.int timestamp)).insert "rotated_at" (.int timestamp)

/-- `access_record`. -/
@[irreducible] def sessionAccessRecord (userId deviceId : Str) (timestamp : Int) : Record :=
  .of
    [("version", .int 1), ("user_id", .str userId),
     ("device_id", .str deviceId), ("scope", .str "device"),
     ("created_at", .int timestamp), ("expires_at", .int (timestamp + accessTTL))]

/-- `refresh_record`. -/
@[irreducible] def successorRecord (userId deviceId family : Str) (timestamp : Int) : Record :=
  .of
    [("version", .int 1), ("user_id", .str userId),
     ("device_id", .str deviceId), ("family_id", .str family),
     ("created_at", .int timestamp), ("expires_at", .int (timestamp + refreshTTL)),
     ("revoked_at", .null)]

/-- The operations of `RotateRefreshCredential`. -/
def rotation (path : Str) (original : Data) (record : Record) (accessIndex refreshIndex : Str)
    (userId deviceId family : Str) (timestamp : Int) : List (Operation Data) :=
  [replaceOp path (P.dumps (rotatedRecord record timestamp)) (P.codec.sha256Hex original),
   createOp (recordPath .identityAccess accessIndex)
     (P.dumps (sessionAccessRecord userId deviceId timestamp)),
   createOp (recordPath .refresh refreshIndex)
     (P.dumps (successorRecord userId deviceId family timestamp))]

/-- A conflict: the family is revoked, unless that fails too. -/
def onConflict (family : Str) (timestamp : Int) : Handler Data Unit := do
  Prog.handle (do
    strongRead
    revokeRefreshFamily P family timestamp) fun raised =>
      match raised with
      | .identity _ _ => Prog.ret ()
      | raised => Prog.raise raised
  Prog.raise replayDetected

/-- The part of `refresh_device_session` from the accepted proof on. -/
def rotateRefresh (path : Str) (original : Data) (record : Record) (userId deviceId : Str)
    (timestamp : Int) : Handler Data (List (Str × Json)) := do
  let family ← (if familyOf P record ≠ [] then Prog.ret (familyOf P record) else askRandom 16)
  let accessToken ← askRandom 32
  let newRefresh ← askRandom 32
  let accessIndex ← credentialIndex P accessToken
  let refreshIndex ← credentialIndex P newRefresh
  Prog.handle (do
    let _ ← mutation "RotateRefreshCredential"
      (rotation P path original record accessIndex refreshIndex userId deviceId family timestamp)
    Prog.ret ()) fun raised =>
      match raised with
      | .controlState message status =>
        if status = 409 then onConflict P family timestamp
        else Prog.raise (.identity message status)
      | raised => Prog.raise raised
  Prog.ret
    [("access_token", .str accessToken),
     ("access_expires_at", .int (timestamp + accessTTL)),
     ("refresh_token", .str newRefresh),
     ("refresh_expires_at", .int (timestamp + refreshTTL)),
     ("device_id", .str deviceId)]

/-- The bytes of a refresh record, and the record. -/
def readRefresh (path : Str) : Handler Data (Data × Record) :=
  orRaise (do
    let original ← readBytes path
    match P.loads original with
    | .object record => Prog.ret (original, record)
    | .other => Prog.raise .value
    | .invalid => Prog.raise .value) (.identity "invalid refresh credential" 401)

/-- `revoked_at in (None, "", 0)`. -/
def notRevoked (record : Record) : Bool := (record.get "revoked_at" .null).isUnset

/-- The checks of a credential that is not revoked, and its rotation. -/
def useRefresh (credential proof path : Str) (original : Data) (record : Record)
    (timestamp : Int) : Handler Data (List (Str × Json)) := do
  let expiresAt ← Prog.ofExcept (P.int (record.get "expires_at" (.int 0)))
  if expiresAt ≤ timestamp then do
    atomicJson P path (record.insert "revoked_at" (.int timestamp))
    Prog.raise (.identity "refresh credential expired" 401)
  else do
    let user ← loadUser P (P.strField record "user_id")
    Prog.raiseIf (!userEnabled user) (.identity "user is disabled" 403)
    let device ← loadDevice P (P.strField record "device_id")
    let id ← field user "id"
    Prog.raiseIf (P.strField device "user_id" ≠ P.str id || !deviceIsActive device)
      (.identity "device is disabled or revoked" 403)
    Prog.ofExcept (P.verifyProof (P.strField device "public_key") proof (refreshMessage credential))
    rotateRefresh P path original record (P.str id) (P.deviceId device []) timestamp

/-- `refresh_device_session`. -/
def refreshDeviceSession (refreshToken proof : Str) (now : Option Int) :
    Handler Data (List (Str × Json)) := do
  strongRead
  let credential ← validateOpaqueToken P refreshToken "refresh credential"
  let index ← credentialIndex P credential
  let path := recordPath .refresh index
  let (original, record) ← readRefresh P path
  let timestamp ← timestampOf now
  if !notRevoked record then do
    revokeRefreshFamily P (familyOf P record) timestamp
    Prog.raise replayDetected
  else useRefresh P credential proof path original record timestamp

/-! ## Logout -/

/-- The record presented at logout; an unreadable one counts as empty. -/
def logoutRecord (index : Str) : Handler Data (Option Record) := do
  let found ← askFile (clean (recordPath .refresh index))
  match found with
  | none => Prog.ret none
  | some data =>
    match P.loads data with
    | .object record => Prog.ret (some record)
    | .other => Prog.ret (some ∅)
    | .invalid => Prog.ret (some ∅)

/-- The family to revoke at logout. -/
def logoutFamily (user device : Record) (refreshToken : Str) : Handler Data (Option Str) := do
  let credential ← validateOpaqueToken P refreshToken "refresh credential"
  let index ← credentialIndex P credential
  let found ← logoutRecord P index
  match found with
  | none => Prog.ret none
  | some record => do
    let id ← field user "id"
    if P.strField record "user_id" = P.str id ∧
        P.strField record "device_id" = P.deviceId device [] then
      Prog.ret (some (familyOf P record))
    else Prog.ret none

/-- `logout_session`. -/
def logoutSession (accessToken : Str) (refreshToken : Option Str) (now : Option Int) :
    Handler Data Unit := do
  let timestamp ← timestampOf now
  let (user, device, _) ← authorizeAccessCredentialAt P (some timestamp) accessToken true none
  let index ← credentialIndex P accessToken
  deleteCanonical P (recordPath .identityAccess index) "LogoutAccessCredential"
  match device with
  | none => Prog.ret ()
  | some device => do
    let family ← (match refreshToken with
      | none => Prog.ret none
      | some token => if token ≠ [] then logoutFamily P user device token else Prog.ret none)
    match family with
    | some family => revokeRefreshFamily P family timestamp
    | none => revokeDeviceCredentials P (P.deviceId device []) (some timestamp)

/-! ## The calls -/

/-- The calls about refresh credentials. -/
inductive RefreshJob where
  | refresh (refreshToken proof : Str) (now : Option Int)
  | logout (accessToken : Str) (refreshToken : Option Str) (now : Option Int)
  | revokeDevice (deviceId : Str) (now : Option Int)
  | revokeUser (userId : Str) (now : Option Int)

/-- The time that is passed, if any. -/
def RefreshJob.now : RefreshJob → Option Int
  | refresh _ _ now => now
  | logout _ _ now => now
  | revokeDevice _ now => now
  | revokeUser _ now => now

/-- The calls; one that is not a refresh returns nothing. -/
def refreshProgram : RefreshJob → Handler Data (List (Str × Json))
  | .refresh refreshToken proof now => refreshDeviceSession P refreshToken proof now
  | .logout accessToken refreshToken now => do
    logoutSession P accessToken refreshToken now
    Prog.ret []
  | .revokeDevice deviceId now => do
    revokeDeviceCredentials P deviceId now
    Prog.ret []
  | .revokeUser userId now => do
    revokeUserAccess P userId now
    Prog.ret []

/-! ## What a Controller has projected -/

/-- The free choices of a step.  `lag`: how many log entries are newer than the one being
    projected, and how many of its operations are done. -/
structure LocalOracle extends Oracle where
  lag : Option (Nat × Nat) := none

/-- The files on a Controller: entry by entry, operation by operation. -/
def World.projection (w : World Data) : Option (Nat × Nat) → Bucket Data
  | none => w.content.canonical
  | some (newer, done) =>
    match w.log[newer]? with
    | some entry => applyOps entry.before.canonical (entry.operations.take done)
    | none => w.content.canonical

/-- The world as a Controller shows it. -/
def World.shown (w : World Data) (lag : Option (Nat × Nat)) : World Data :=
  { w with content := { w.content with canonical := w.projection lag } }

/-- Reads see what is projected; a mutation meets the newest state. -/
def performLocal (w : World Data) (o : LocalOracle) : (r : Req Data) → Option (Ans r × World Data)
  | .readFile path =>
    (perform P (w.shown o.lag) o.toOracle (.readFile path)).map fun answer => (answer.1, w)
  | .glob d => (perform P (w.shown o.lag) o.toOracle (.glob d)).map fun answer => (answer.1, w)
  | r => perform P w o.toOracle r

section

variable {P} {w w' : World Data} {o : LocalOracle}

theorem performLocal_readFile {path : Str} {file : Option Data} (hrep : isReplicated path = true)
    (h : performLocal P w o (.readFile path) = some (file, w')) :
    file = (w.projection o.lag)[path]? ∧ w' = w := by
  obtain ⟨⟨file', w₁⟩, hread, heq⟩ := Option.map_eq_some_iff.mp h
  obtain ⟨rfl, rfl⟩ := Prod.mk.inj heq
  exact ⟨(perform_readFile hrep hread).1, rfl⟩

theorem performLocal_glob {d : Dir} {names : List Str}
    (h : performLocal P w o (.glob d) = some (names, w')) :
    (∀ name, name ∈ names ↔ name ∈ globNames (w.projection o.lag) d) ∧ w' = w := by
  obtain ⟨⟨names', w₁⟩, hlist, heq⟩ := Option.map_eq_some_iff.mp h
  obtain ⟨rfl, rfl⟩ := Prod.mk.inj heq
  exact ⟨(perform_glob hlist).1, rfl⟩

/-- **Only a mutation changes the replicated state and its log.** -/
theorem performLocal_other {r : Req Data} {a : Ans r} (hr : ∀ kind ops, r ≠ .mutate kind ops)
    (h : performLocal P w o r = some (a, w')) : w'.content = w.content ∧ w'.log = w.log := by
  have hsame : ∀ {w₁ : World Data}, w₁ = { w with drawn := w₁.drawn } →
      w₁.content = w.content ∧ w₁.log = w.log := by
    intro w₁ heq
    rw [heq]
    exact ⟨rfl, rfl⟩
  cases r with
  | readFile path =>
    obtain ⟨_, _, heq⟩ := Option.map_eq_some_iff.mp h
    obtain ⟨_, rfl⟩ := Prod.mk.inj heq
    exact ⟨rfl, rfl⟩
  | glob d =>
    rw [(performLocal_glob h).2]
    exact ⟨rfl, rfl⟩
  | mutate kind ops => exact absurd rfl (hr kind ops)
  | _ =>
    unfold performLocal at h
    exact hsame (perform_other hr h).1

end

/-- Any number of Controllers that serve these calls. -/
def refreshers :
    System (World Data) LocalOracle RefreshJob (Req Data) Ans PyError (List (Str × Json)) where
  perform := performLocal P
  program := refreshProgram P

end Bpc.Deploy

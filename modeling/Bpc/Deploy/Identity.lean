/-
  IDENTITY — Users, Devices and their credentials (`bpc_identity.py`), in cluster mode.

  Three ways of writing occur: a whole record with NO precondition (`atomicJson`), a record on
  condition that the bytes read are still there (`changeUserPassword`), a credential under a fresh
  random name.
-/
import Bpc.Deploy.ControlState

namespace Bpc.Deploy

open SlashPath Controlplane Interaction

variable {Data : Type} (P : Runtime Data)

/-! ## Records -/

/-- `_raise_control_state`. -/
def asIdentity {α : Type} (p : Handler Data α) : Handler Data α :=
  p.handle fun e =>
    match e with
    | .controlState message status => Prog.raise (.identity message status)
    | e => Prog.raise e

/-- Is the path replicated?  The path itself may be refused. -/
def isReplicatedPath (path : Str) : Handler Data Bool := do
  let relative ← Prog.ofExcept (canonicalRelative path)
  Prog.ret (isReplicated relative)

/-- An action on the local machine, whose failure is raised. -/
def outside (action : Str) : Handler Data Json := do
  let outcome ← askOutside action
  Prog.ofExcept outcome

/-- `atomic_json`. -/
def atomicJson (path : Str) (value : Record) : Handler Data Unit := do
  let replicated ← isReplicatedPath path
  if replicated then do
    let _ ← asIdentity (mutation "PutCanonicalRecord" [putOp path (P.dumps value)])
    Prog.ret ()
  else do
    let _ ← outside "write file"
    Prog.ret ()

/-- `delete_canonical`. -/
def deleteCanonical (path : Str) (kind : Str) : Handler Data Unit := do
  let replicated ← isReplicatedPath path
  if replicated then do
    let _ ← asIdentity (mutation kind [deleteOp P path])
    Prog.ret ()
  else do
    let _ ← outside "unlink"
    Prog.ret ()

/-- `strong_read`. -/
def strongRead : Handler Data Unit := do
  let _ ← asIdentity barrier
  Prog.ret ()

/-- `value[key]`. -/
def field (r : Record) (key : Str) : Handler Data Json :=
  match r[key]? with
  | some v => Prog.ret v
  | none => Prog.raise .key

/-- `int(time.time()) if now is None else int(now)`. -/
def timestampOf (now : Option Int) : Handler Data Int :=
  match now with
  | some t => Prog.ret t
  | none => askTime

/-- `except (OSError, ValueError, json.JSONDecodeError) as exc: raise e`. -/
def orRaise {α : Type} (p : Handler Data α) (e : PyError) : Handler Data α :=
  p.handle fun raised => if raised.isFile then Prog.raise e else Prog.raise raised

/-- `except (OSError, ValueError, json.JSONDecodeError): continue`. -/
def orSkip {α : Type} (p : Handler Data α) : Handler Data (Option α) :=
  Prog.handle (do let a ← p; Prog.ret (some a)) fun raised =>
    if raised.isFile then Prog.ret none else Prog.raise raised

/-- A file of a directory. -/
def filePath (d : Dir) (name : Str) : Str := d.path ++ '/' :: name

/-- `sorted(names)`. -/
def sortedNames (names : List Str) : List Str :=
  names.insertionSort fun a b => (compare a b).isLE = true

/-! ## Names and tokens -/

/-- `credential_index`; the token must be ASCII. -/
def credentialIndex (token : Str) : Handler Data Str :=
  if token.all fun c => c.toNat < 128 then Prog.ret (P.sha256Text token) else Prog.raise .value

/-- `_validate_opaque_token`. -/
def validateOpaqueToken (value label : Str) : Handler Data Str := do
  let token := strip value
  Prog.raiseIf (token.length ≠ 64) (.identity ("invalid " ++ label) 401)
  Prog.raiseIf (!P.isHexInt token) (.identity ("invalid " ++ label) 401)
  Prog.ret token

/-- The class `[A-Za-z0-9]`. -/
def isAsciiAlnum (c : Char) : Bool :=
  c.isDigit || ('a' ≤ c && c ≤ 'z') || ('A' ≤ c && c ≤ 'Z')

/-- `^[A-Za-z0-9][A-Za-z0-9._-]{0,63}$`. -/
def isUsername : Str → Bool
  | [] => false
  | c :: rest => isAsciiAlnum c && rest.length ≤ 63 &&
    rest.all fun c => isAsciiAlnum c || c = '.' || c = '_' || c = '-'

/-- `normalize_username`; on ASCII `casefold` lowers letters. -/
def normalizeUsername (value : Str) : Except PyError Str :=
  let username := strip value
  if isUsername username then .ok (toLower username)
  else .error (.identity ("username must start with an alphanumeric character and contain only "
    ++ "letters, digits, '.', '_' or '-'") 400)

/-- `username_index`. -/
def usernameIndex (username : Str) : Except PyError Str :=
  match normalizeUsername username with
  | .ok normalized => .ok (P.sha256Text normalized)
  | .error e => .error e

/-! ## Users -/

/-- `load_user`. -/
def loadUser (userId : Str) : Handler Data Record := do
  Prog.raiseIf (!isHex 32 userId) (.identity "invalid user" 401)
  orRaise (readJson P (recordPath .users userId)) (.identity "invalid user" 401)

/-- The exceptions that `load_user_by_username` turns into `None`. -/
def PyError.isLookup : PyError → Bool
  | .os => true
  | .key => true
  | .value => true
  | .identity _ _ => true
  | _ => false

/-- `load_user_by_username`. -/
def loadUserByUsername (username : Str) : Handler Data (Option Record) :=
  match usernameIndex P username with
  | .error _ => Prog.ret none
  | .ok index =>
    Prog.handle (do
      let found ← readJson P (recordPath .usernames index)
      let userId ← field found "user_id"
      let user ← loadUser P (P.str userId)
      Prog.ret (some user)) fun raised =>
        if raised.isLookup then Prog.ret none else Prog.raise raised

/-- `DUMMY_PASSWORD_HASH`. -/
def dummyPasswordHash : Str :=
  "$argon2id$v=19$m=65536,t=3,p=2$SqqHn3CWlOztsv14UGaiTw$" ++
    "YKur3kzmEgIzL3TtGFpHEN9Tn+V1Z2eVGH9PCMoTgms"

/-- `bool(user.get("enabled", False))`. -/
def userEnabled (user : Record) : Bool := (user.get "enabled" (.bool false)).truthy

/-- `authenticate_local_user`; the rehash puts back the whole record. -/
def authenticateLocalUser (username password : Str) : Handler Data Record := do
  strongRead
  let found ← loadUserByUsername P username
  match found with
  | none => Prog.raise (.identity "invalid username or password" 401)
  | some user => do
    let encoded := if user.isEmpty then dummyPasswordHash else P.strField user "password_hash"
    let ok := P.passwordVerify encoded password
    Prog.raiseIf (user.isEmpty || !userEnabled user || !ok)
      (.identity "invalid username or password" 401)
    if P.needsRehash encoded then do
      let hash ← askHash password
      let user' := user.insert "password_hash" (.str hash)
      let id ← field user' "id"
      atomicJson P (recordPath .users (P.str id)) user'
      Prog.ret user'
    else Prog.ret user

/-- `change_user_password` compares before it writes. -/
def changeUserPassword (username password : Str) : Handler Data Record := do
  Prog.raiseIf (password.length < 8 || 1024 < password.length)
    (.identity "password must contain between 8 and 1024 characters" 400)
  strongRead
  let found ← loadUserByUsername P username
  match found with
  | none => Prog.raise (.identity "user not found" 404)
  | some user => do
    let id ← field user "id"
    let path := recordPath .users (P.str id)
    let original ← readBytes path
    match P.loads original with
    | .invalid => Prog.raise .value
    | .other => Prog.raise (.identity "user changed; retry password change" 409)
    | .object current => do
      Prog.raiseIf (!(current.get "id" .null).beq id)
        (.identity "user changed; retry password change" 409)
      let stored ← Prog.ofExcept (normalizeUsername (P.strField current "username"))
      let wanted ← Prog.ofExcept (normalizeUsername username)
      Prog.raiseIf (stored ≠ wanted) (.identity "user changed; retry password change" 409)
      let hash ← askHash password
      let current' := current.insert "password_hash" (.str hash)
      let _ ← asIdentity (mutation "ChangeUserPassword"
        [replaceOp path (P.dumps current') (P.codec.sha256Hex original)])
      Prog.ret current'

/-! ## Credentials -/

/-- `ACCESS_TTL`. -/
def accessTTL : Int := 10 * 60

/-- `REFRESH_TTL`. -/
def refreshTTL : Int := 30 * 24 * 60 * 60

/-- `_write_credential`. -/
def writeCredential (d : Dir) (token : Str) (record : Record) : Handler Data Unit := do
  let index ← credentialIndex P token
  atomicJson P (recordPath d index) record

/-- `issue_access_credential`, with the default lifetime. -/
def issueAccessCredential (userId : Str) (deviceId : Json) (scope : Str) :
    Handler Data (Str × Int) := do
  let timestamp ← askTime
  let token ← askRandom 32
  let expiresAt := timestamp + accessTTL
  writeCredential P .identityAccess token (.of
    [("version", .int 1), ("user_id", .str userId), ("device_id", deviceId),
     ("scope", .str scope), ("created_at", .int timestamp),
     ("expires_at", .int expiresAt)])
  Prog.ret (token, expiresAt)

/-- `issue_refresh_credential`, of a new family. -/
def issueRefreshCredential (userId deviceId : Str) : Handler Data (Str × Int) := do
  let timestamp ← askTime
  let token ← askRandom 32
  let expiresAt := timestamp + refreshTTL
  let familyId ← askRandom 16
  writeCredential P .refresh token (.of
    [("version", .int 1), ("user_id", .str userId),
     ("device_id", .str deviceId), ("family_id", .str familyId),
     ("created_at", .int timestamp), ("expires_at", .int expiresAt),
     ("revoked_at", .null)])
  Prog.ret (token, expiresAt)

/-- `issue_device_session`. -/
def issueDeviceSession (userId deviceId : Str) : Handler Data (List (Str × Json)) := do
  let (accessToken, accessExpiresAt) ← issueAccessCredential P userId (.str deviceId) "device"
  let (refreshToken, refreshExpiresAt) ← issueRefreshCredential P userId deviceId
  Prog.ret
    [("access_token", .str accessToken), ("access_expires_at", .int accessExpiresAt),
     ("refresh_token", .str refreshToken),
     ("refresh_expires_at", .int refreshExpiresAt)]

/-- `record.get(key) or ""`, as a text. -/
def strOrEmpty (r : Record) (key : Str) : Str :=
  let v := r.get key .null
  if v.truthy then P.str v else []

/-- One record of the access directory, deleted if it is chosen. -/
def deleteCredential (chosen : Record → Bool) (name : Str) : Handler Data Unit := do
  let found ← orSkip (readJson P (filePath .identityAccess name))
  match found with
  | none => Prog.ret ()
  | some record =>
    if chosen record then deleteCanonical P (filePath .identityAccess name) "DeleteCanonicalRecord"
    else Prog.ret ()

/-- A refresh record is revoked, if it is chosen. -/
def revokeCredential (chosen : Record → Bool) (timestamp : Int) (name : Str) :
    Handler Data Unit := do
  let found ← orSkip (readJson P (filePath .refresh name))
  match found with
  | none => Prog.ret ()
  | some record =>
    if chosen record && (record.get "revoked_at" .null).isUnset then
      atomicJson P (filePath .refresh name) (record.insert "revoked_at" (.int timestamp))
    else Prog.ret ()

/-- The loops that `revoke_device_credentials` and `revoke_user_access` share. -/
def revokeCredentials (chosenAccess chosenRefresh : Record → Bool) (timestamp : Int) :
    Handler Data Unit := do
  let access ← askGlob .identityAccess
  Prog.forEach (deleteCredential P chosenAccess) access
  let refresh ← askGlob .refresh
  Prog.forEach (revokeCredential P chosenRefresh timestamp) refresh

/-- `revoke_device_credentials`. -/
def revokeDeviceCredentials (deviceId : Str) (now : Option Int) : Handler Data Unit := do
  let timestamp ← timestampOf now
  revokeCredentials P (fun r => strOrEmpty P r "device_id" = deviceId)
    (fun r => strOrEmpty P r "device_id" = deviceId) timestamp

/-- `revoke_user_access`. -/
def revokeUserAccess (userId : Str) (now : Option Int) : Handler Data Unit := do
  let timestamp ← timestampOf now
  revokeCredentials P (fun r => P.strField r "user_id" = userId)
    (fun r => P.strField r "user_id" = userId) timestamp

/-- `write_revocation`. -/
def writeRevocation (kind subjectId : Str) (timestamp : Int) (reason : Str) : Handler Data Unit :=
  atomicJson P (recordPath .revocations (kind ++ '-' :: subjectId)) (.of
    [("version", .int 1), ("kind", .str kind), ("subject_id", .str subjectId),
     ("revoked_at", .int timestamp), ("reason", .str reason)])

/-! ## Devices -/

/-- `_device_path`. -/
def devicePath (deviceId : Str) : Handler Data Str := do
  Prog.raiseIf (!isHex 32 deviceId) (.identity "invalid device" 401)
  Prog.ret (recordPath .devices deviceId)

/-- `load_device`. -/
def loadDevice (deviceId : Str) : Handler Data Record := do
  let path ← devicePath deviceId
  orRaise (readJson P path) (.identity "invalid device" 401)

/-- `device_is_active`. -/
def deviceIsActive (device : Record) : Bool :=
  (device.get "enabled" (.bool true)).truthy && !(device.get "revoked" (.bool false)).truthy &&
    (device.get "revoked_at" .null).isUnset

/-- `secrets.compare_digest` of two texts, which must be ASCII. -/
def compareDigest (a b : Str) : Handler Data Bool :=
  if (a ++ b).all fun c => c.toNat < 128 then Prog.ret (a = b) else Prog.raise .type

/-- One Device file of `find_device_by_public_key`. -/
def matchPublicKey (publicKey name : Str) : Handler Data (Option Record) := do
  let found ← orSkip (readJson P (filePath .devices name))
  match found with
  | none => Prog.ret none
  | some device => do
    let same ← compareDigest (P.strField device "public_key") publicKey
    Prog.ret (if same then some device else none)

/-- `find_device_by_public_key`. -/
def findDeviceByPublicKey (publicKey : Str) : Handler Data (Option Record) := do
  let names ← askGlob .devices
  Prog.findFirst (matchPublicKey P publicKey) (sortedNames names)

/-- One Device file of `list_devices`. -/
def matchOwner (userId name : Str) : Handler Data (Option Record) := do
  let found ← orSkip (readJson P (filePath .devices name))
  match found with
  | none => Prog.ret none
  | some device => Prog.ret (if P.strField device "user_id" = userId then some device else none)

/-- `list_devices` of one User. -/
def listDevices (userId : Str) : Handler Data (List Record) := do
  let names ← askGlob .devices
  Prog.collect (matchOwner P userId) (sortedNames names)

/-- `remove_compat_static_credential`. -/
def removeCompatStaticCredential (device : Record) : Handler Data Unit := do
  if strip (P.strField device "device_token") ≠ [] then do
    let _ ← outside "unlink legacy token"
    Prog.ret ()
  else Prog.ret ()

/-- The record that `deactivate_device` writes. -/
def deactivated (device : Record) (revoked : Bool) (timestamp : Int) : Record :=
  let disabled := device.insert "enabled" (.bool false)
  if revoked then (disabled.insert "revoked" (.bool true)).insert "revoked_at" (.int timestamp)
  else disabled

/-- `deactivate_device`. -/
def deactivateDevice (deviceId : Str) (revoked : Bool) (now : Option Int) :
    Handler Data Record := do
  strongRead
  let timestamp ← timestampOf now
  let device ← loadDevice P deviceId
  let canonicalId := P.deviceId device deviceId
  let device' := deactivated device revoked timestamp
  let path ← devicePath canonicalId
  atomicJson P path device'
  (if revoked then writeRevocation P "device" canonicalId timestamp "device_revoked"
    else Prog.ret ())
  revokeDeviceCredentials P canonicalId (some timestamp)
  removeCompatStaticCredential P device'
  let _ ← outside "remove device dataplane"
  Prog.ret device'

/-- What `disable_user` does with each of the User's Devices. -/
def disableDevice (timestamp : Int) (device : Record) : Handler Data Unit :=
  if deviceIsActive device then do
    let _ ← deactivateDevice P (P.deviceId device []) false (some timestamp)
    Prog.ret ()
  else Prog.ret ()

/-- `disable_user`. -/
def disableUser (username : Str) (now : Option Int) : Handler Data Record := do
  strongRead
  let found ← loadUserByUsername P username
  match found with
  | none => Prog.raise (.identity "user not found" 404)
  | some user => do
    let timestamp ← timestampOf now
    let user' := user.insert "enabled" (.bool false)
    let id ← field user' "id"
    let userId := P.str id
    atomicJson P (recordPath .users userId) user'
    writeRevocation P "user" userId timestamp "user_disabled"
    revokeUserAccess P userId (some timestamp)
    let devices ← listDevices P userId
    Prog.forEach (disableDevice P timestamp) devices
    Prog.ret user'

end Bpc.Deploy

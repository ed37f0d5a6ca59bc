/-
  THE CONTROL SERVER — the handlers of `bpc-control-server.py` that write User or Device records.

  A handler gets the `Authorization` header and the body (`none` where a 400 was answered already).
  Building the client's configuration only reads, so it is one `outside` computation.
-/
import Bpc.Deploy.Identity

namespace Bpc.Deploy

open SlashPath Controlplane Interaction

variable {Data : Type} (P : Runtime Data)

/-! ## Replies -/

/-- A reply over HTTP. -/
structure Reply where
  status : Nat
  body : Record

/-- `send_error`. -/
def sendError (status : Nat) : Reply := ⟨status, ∅⟩

/-- `_send_json(status, {"error": message})`. -/
def sendJsonError (status : Nat) (message : Str) : Reply :=
  ⟨status, .of [("error", .str message)]⟩

/-- `except (OSError, ValueError, ControlStateError)`. -/
def PyError.isPut : PyError → Bool
  | .os => true
  | .value => true
  | .controlState _ _ => true
  | _ => false

/-- `except (IdentityError, OSError, ValueError, KeyError)`. -/
def PyError.isSession : PyError → Bool
  | .identity _ _ => true
  | .os => true
  | .value => true
  | .key => true
  | _ => false

/-! ## Authorization -/

/-- The token of an `Authorization` header. -/
def bearer (authorization : Str) : Option Str :=
  if ("Bearer " : Str).isPrefixOf authorization then
    let token := strip (authorization.drop 7)
    if token.length = 64 ∧ P.isHexInt token then some token else none
  else none

/-- `authorize_access_credential`: the User, the Device, the record. -/
def authorizeAccessCredentialAt (now : Option Int) (token : Str) (requireDevice : Bool)
    (requiredScope : Option Str) : Handler Data (Record × Option Record × Record) := do
  strongRead
  let credential ← validateOpaqueToken P token "access credential"
  let index ← credentialIndex P credential
  let path := recordPath .identityAccess index
  let record ← orRaise (readJson P path) (.identity "invalid access credential" 401)
  let timestamp ← timestampOf now
  let expiresAt ← Prog.ofExcept (P.int (record.get "expires_at" (.int 0)))
  if expiresAt ≤ timestamp then do
    deleteCanonical P path "ExpireAccessCredential"
    Prog.raise (.identity "access credential expired" 401)
  else do
    Prog.raiseIf (requiredScope.any fun scope => P.strField record "scope" ≠ scope)
      (.identity "access credential scope is not permitted" 403)
    let user ← loadUser P (P.strField record "user_id")
    Prog.raiseIf (!userEnabled user) (.identity "user is disabled" 403)
    let deviceId := strOrEmpty P record "device_id"
    if deviceId ≠ [] then do
      let device ← loadDevice P deviceId
      let id ← field user "id"
      Prog.raiseIf (P.strField device "user_id" ≠ P.str id || !deviceIsActive device)
        (.identity "device is disabled or revoked" 403)
      Prog.ret (user, some device, record)
    else do
      Prog.raiseIf requireDevice (.identity "device credential required" 403)
      Prog.ret (user, none, record)

/-- `authorize_access_credential` at the time of the clock. -/
def authorizeAccessCredential (token : Str) (requireDevice : Bool) (requiredScope : Option Str) :
    Handler Data (Record × Option Record × Record) :=
  authorizeAccessCredentialAt P none token requireDevice requiredScope

/-- `legacy_token_index_path`; these files are not replicated. -/
def legacyTokenIndexPath (index : Str) : Str := "control/tokens/" ++ index ++ jsonSuffix

/-- `except (OSError, KeyError, ValueError)`. -/
def PyError.isLegacy : PyError → Bool
  | .os => true
  | .key => true
  | .value => true
  | _ => false

/-- The Device of a legacy token. -/
def legacyDevice (index : Str) : Handler Data Record :=
  Prog.handle (do
    let found ← readJson P (legacyTokenIndexPath index)
    let deviceId ← field found "device_id"
    readJson P (recordPath .devices (P.str deviceId))) fun raised =>
      if raised.isLegacy then Prog.raise .legacyAuth else Prog.raise raised

/-- `authorize_legacy_static_device`; it does not look at `revoked_at`. -/
def authorizeLegacyStaticDevice (token : Str) : Handler Data (Option Record) := do
  let index ← credentialIndex P token
  let found ← askFile (legacyTokenIndexPath index)
  match found with
  | none => Prog.ret none
  | some _ => do
    let device ← legacyDevice P index
    let stored := P.strField device "device_token"
    let same ← compareDigest stored token
    Prog.raiseIf (stored = [] || !same) .legacyAuth
    Prog.raiseIf (!(device.get "enabled" (.bool true)).truthy ||
      (device.get "revoked" (.bool false)).truthy) .legacyAuth
    Prog.ret (some device)

/-- The Device of an access credential, or the error as a reply. -/
def credentialDevice (token : Str) : Handler Data (Except Reply Record) :=
  Prog.handle (do
    let (_, device, _) ← authorizeAccessCredential P token true none
    match device with
    | some device => Prog.ret (.ok device)
    | none => Prog.raise (.identity "device credential required" 403)) fun raised =>
      match raised with
      | .identity message status => Prog.ret (.error (sendJsonError status message))
      | raised => Prog.raise raised

/-- The Device that a legacy token stands for, if there is one. -/
def staticDevice (token : Str) (refusal : Reply) : Handler Data (Except Reply Record) :=
  Prog.handle (do
    let legacy ← authorizeLegacyStaticDevice P token
    match legacy with
    | some device => Prog.ret (.ok device)
    | none => Prog.ret (.error refusal)) fun raised =>
      match raised with
      | .legacyAuth => Prog.ret (.error (sendError 401))
      | raised => Prog.raise raised

/-- `_authorized_device`: the access credential, then the legacy token. -/
def authorizedDevice (authorization : Str) : Handler Data (Except Reply Record) :=
  match bearer P authorization with
  | none => Prog.ret (.error (sendError 401))
  | some token => do
    let attempt ← credentialDevice P token
    match attempt with
    | .ok device => Prog.ret (.ok device)
    | .error refusal => staticDevice P token refusal

/-! ## Writing a Device -/

/-- `_put_device`: the whole record, with no precondition. -/
def putDevice (device : Record) (kind : Str) (extra : List (Operation Data)) :
    Handler Data Unit := do
  let deviceId := strip (P.deviceId device [])
  Prog.raiseIf (deviceId = []) .value
  let _ ← mutation kind (putOp (recordPath .devices deviceId) (P.dumps device) :: extra)
  Prog.ret ()

/-- The record that `_heartbeat` writes. -/
def heartbeatDevice (device body : Record) (now : Int) : Record :=
  (((device.insert "last_seen" (.int now)).insert
    "last_version" (.str ((P.strField body "version").take 32))).insert
    "last_transport" (.str ((P.strField body "transport").take 32))).insert
    "last_status" (.str ((P.strField body "status").take 64))

/-- `_heartbeat`. -/
def heartbeat (authorization : Str) (body : Option Record) : Handler Data Reply := do
  let authenticated ← authorizedDevice P authorization
  match authenticated with
  | .error refusal => Prog.ret refusal
  | .ok device =>
    if (device.get "revoked" (.bool false)).truthy then Prog.ret (sendError 403)
    else
      match body with
      | none => Prog.ret (sendError 400)
      | some body => do
        let now ← askTime
        Prog.handle (do
          putDevice P (heartbeatDevice P device body now) "DeviceHeartbeat" []
          Prog.ret ⟨200, .of [("ok", .bool true)]⟩) fun raised =>
            if raised.isPut then Prog.ret (sendError 500) else Prog.raise raised

/-! ## Registration -/

/-- The fields that `_device_register` reads from its body. -/
structure Registration where
  name : Str
  publicKey : Str
  wireguardPublicKey : Str
  proof : Str
  version : Str

/-- The fields of a registration. -/
def registrationOf (body : Record) : Registration where
  name := strip (P.str (body.get "name" (body.get "device" (.str []))))
  publicKey := strip (P.strField body "public_key")
  wireguardPublicKey := strip (P.strField body "wireguard_public_key")
  proof := strip (P.strField body "proof")
  version := (strip (P.strField body "version")).take 32

/-- The checks of a registration that need no state. -/
def Registration.wellFormed (r : Registration) : Bool :=
  r.name ≠ [] && r.name.length ≤ 64 && P.b64Length r.publicKey = some 32 &&
    P.validWireguardKey r.wireguardPublicKey

/-- The text that a Device signs. -/
def registrationMessage (accessToken publicKey wireguardPublicKey : Str) : Str :=
  "bpc-register-v1\n" ++ strip accessToken ++ '\n' :: strip publicKey ++
    '\n' :: strip wireguardPublicKey ++ ['\n']

/-- `global_config`. -/
def globalConfig : Handler Data Record := do
  let value ← readJson P "control/config.json"
  let required := ["config_version".toList, "wgshim_server".toList, "wgshim_listen".toList,
    "wgshim_target".toList, "padding_min".toList, "padding_max".toList,
    "wireguard_interface".toList, "wireguard_subnet".toList, "wireguard_server_address".toList,
    "wireguard_server_public_key".toList, "wireguard_mtu".toList, "wireguard_keepalive".toList,
    "wireguard_allowed_ips".toList, "wgshim_key_dir".toList]
  Prog.raiseIf (required.any fun name => value[name]?.isNone) .value
  Prog.ret value

/-- The address that one Device file occupies. -/
def usedAddress (name : Str) : Handler Data (Option IpAddress) := do
  let address ← orSkip (do
    let device ← readJson P (filePath .devices name)
    let raw := strip (P.strField device "wireguard_address")
    if (device.get "revoked" (.bool false)).truthy || raw = [] then Prog.ret none
    else
      match P.ipInterface raw with
      | some address => Prog.ret (some address)
      | none => Prog.raise .value)
  Prog.ret address.join

/-- The first and the number of `network.hosts()`. -/
def hosts (network : Prefix4) : Nat × Nat :=
  let size := Prefix4.block network.bits
  let first := network.addr / size * size
  if size ≤ 2 then (first, size) else (first + 1, size - 2)

/-- The first of `count` addresses that is neither the server's nor used. -/
def firstFree (server : IpAddress) (used : List IpAddress) (candidate : Nat) : Nat → Option Nat
  | 0 => none
  | count + 1 =>
    if IpAddress.v4 candidate = server ∨ IpAddress.v4 candidate ∈ used then
      firstFree server used (candidate + 1) count
    else some candidate

/-- `_allocate_wireguard_address`, without the `/32` of its text. -/
def allocateWireguardAddress : Handler Data Nat := do
  let config ← globalConfig P
  match P.ipNetwork4 (P.strField config "wireguard_subnet"),
    P.ipInterface (P.strField config "wireguard_server_address") with
  | some network, some server => do
    let names ← askGlob .devices
    let used ← Prog.collect (usedAddress P) names
    match firstFree server used (hosts network).1 (hosts network).2 with
    | some candidate => Prog.ret candidate
    | none => Prog.raise .runtime
  | _, _ => Prog.raise .value

/-- The record of a new Device. -/
@[irreducible] def newDevice (r : Registration) (deviceId userId psk address : Str)
    (now : Int) : Record :=
  .of
    [("id", .str deviceId), ("device_id", .str deviceId),
     ("user_id", .str userId), ("name", .str r.name), ("device", .str r.name),
     ("public_key", .str r.publicKey),
     ("wireguard_public_key", .str r.wireguardPublicKey),
     ("wireguard_address", .str (address ++ "/32")), ("wgshim_psk", .str psk),
     ("created_at", .int now), ("created", .int now), ("last_seen", .int now),
     ("last_version", .str r.version), ("enabled", .bool true),
     ("revoked_at", .null), ("revoked", .bool false)]

/-- The index records of a new Device: both must be free. -/
def indexOperations (deviceId address publicKey : Str) : List (Operation Data) :=
  let data := P.dumps (.of [("device_id", .str deviceId)])
  [createOp (recordPath .deviceAddresses address) data,
   createOp (recordPath .devicePublicKeys (P.sha256Text publicKey)) data]

/-- The commit of a new Device, then its local installation. -/
def commitNewDevice (device : Record) (deviceId address publicKey : Str) : Handler Data Record := do
  putDevice P device "RegisterDevice" (indexOperations P deviceId address publicKey)
  let _ ← outside "install device dataplane"
  Prog.ret device

/-- `_device_register` of a new key.  The id is drawn long before it is written. -/
def registerNew (r : Registration) (user : Record) : Handler Data Record := do
  let deviceId ← askRandom 16
  let psk ← askSecret
  let now ← askTime
  let candidate ← allocateWireguardAddress P
  let _ ← globalConfig P
  let id ← field user "id"
  commitNewDevice P (newDevice r deviceId (P.str id) psk (P.ipText candidate) now) deviceId
    (P.ipText candidate) r.publicKey

/-- `registerNew` under its two `except` clauses. -/
def registerNewOrReply (r : Registration) (user : Record) : Handler Data (Except Reply Record) :=
  Prog.handle (do
    let device ← registerNew P r user
    Prog.ret (.ok device)) fun raised =>
      match raised with
      | .controlState message status => Prog.ret (.error (sendJsonError status message))
      | .type => Prog.raise raised
      | _ => Prog.ret (.error (sendError 500))

/-- `_device_register` of a registered Device. -/
def registerExisting (r : Registration) (user existing : Record) (requireExisting : Bool) :
    Handler Data (Except Reply Record) := do
  let id ← field user "id"
  if P.strField existing "user_id" ≠ P.str id then
    Prog.ret (.error (sendJsonError 409 "device identity is already owned"))
  else if !deviceIsActive existing then
    Prog.ret (.error (sendJsonError 403 "device identity was revoked"))
  else do
    let same ← compareDigest (P.strField existing "wireguard_public_key") r.wireguardPublicKey
    if !same then
      Prog.ret (.error
        (sendJsonError 409 "device WireGuard identity does not match registered device"))
    else if requireExisting then Prog.ret (.ok existing)
    else do
      let now ← askTime
      let device := (existing.insert "last_seen" (.int now)).insert "last_version" (.str r.version)
      Prog.handle (do
        putDevice P device "UpdateRegisteredDevice" []
        Prog.ret (.ok device)) fun raised =>
          if raised.isPut then Prog.ret (.error (sendError 500)) else Prog.raise raised

/-- The end of `_device_register`: the profile and a new session. -/
def openSession (accessToken : Str) (user device : Record) (registered : Bool) :
    Handler Data Reply :=
  Prog.handle (do
    let deviceId := P.deviceId device []
    let config ← outside "config for device"
    let wireguard ← outside "wireguard profile for device"
    (if registered then revokeDeviceCredentials P deviceId none else Prog.ret ())
    let id ← field user "id"
    let session ← issueDeviceSession P (P.str id) deviceId
    let index ← credentialIndex P accessToken
    deleteCanonical P (recordPath .identityAccess index) "ConsumeLoginCredential"
    Prog.ret ⟨200, .of (("device_id".toList, .str deviceId) :: session ++
      [("config".toList, config), ("wireguard".toList, wireguard)])⟩) fun raised =>
      if raised.isSession then Prog.ret (sendError 500) else Prog.raise raised

/-- The User of a login credential who owns the key. -/
def registeringUser (accessToken : Str) (r : Registration) : Handler Data (Except Reply Record) :=
  Prog.handle (do
    let (user, device, _) ← authorizeAccessCredential P accessToken false (some "login")
    Prog.raiseIf device.isSome (.identity "login credential cannot be device-bound" 403)
    Prog.ofExcept (P.verifyProof r.publicKey r.proof
      (registrationMessage accessToken r.publicKey r.wireguardPublicKey))
    Prog.ret (.ok user)) fun raised =>
      match raised with
      | .identity message status => Prog.ret (.error (sendJsonError status message))
      | raised => Prog.raise raised

/-- The Device of a registration: the registered one, or a new one. -/
def registeredDevice (r : Registration) (user : Record) (expectedId : Option Str) :
    Handler Data (Except Reply (Record × Bool)) := do
  let existing ← findDeviceByPublicKey P r.publicKey
  match existing with
  | none =>
    if expectedId.isSome then
      Prog.ret (.error (sendJsonError 409 "existing device identity does not match"))
    else do
      let device ← registerNewOrReply P r user
      Prog.ret (device.map fun device => (device, false))
  | some existing =>
    if expectedId.any fun id => P.deviceId existing [] ≠ id then
      Prog.ret (.error (sendJsonError 409 "existing device identity does not match"))
    else do
      let device ← registerExisting P r user existing expectedId.isSome
      Prog.ret (device.map fun device => (device, true))

/-- `_device_register` after its checks; `expectedId` is given exactly for `require_existing`. -/
def completeRegistration (accessToken : Str) (r : Registration) (expectedId : Option Str) :
    Handler Data Reply := do
  let authorized ← registeringUser P accessToken r
  match authorized with
  | .error refusal => Prog.ret refusal
  | .ok user => do
    let found ← registeredDevice P r user expectedId
    match found with
    | .error refusal => Prog.ret refusal
    | .ok (device, registered) => openSession P accessToken user device registered

/-- `_device_register`. -/
def deviceRegister (authorization : Str) (body : Option Record) (requireExisting : Bool) :
    Handler Data Reply :=
  match bearer P authorization, body with
  | none, _ => Prog.ret (sendError 401)
  | some _, none => Prog.ret (sendError 400)
  | some accessToken, some body =>
    let expectedId := if requireExisting then some (strip (P.strField body "device_id")) else none
    if expectedId = some [] then Prog.ret (sendJsonError 400 "existing device ID required")
    else if !(registrationOf P body).wellFormed P then Prog.ret (sendError 400)
    else completeRegistration P accessToken (registrationOf P body) expectedId

/-! ## Login -/

/-- `_auth_login`. -/
def authLogin (body : Option Record) : Handler Data Reply :=
  match body with
  | none => Prog.ret (sendError 400)
  | some body =>
    let username := strip (P.strField body "username")
    let password := P.strField body "password"
    if username = [] ∨ 1024 < password.length then
      Prog.ret (sendJsonError 401 "invalid username or password")
    else
      Prog.handle (do
        let user ← authenticateLocalUser P username password
        let id ← field user "id"
        let (accessToken, expiresAt) ← issueAccessCredential P (P.str id) .null "login"
        let name ← field user "username"
        Prog.ret ⟨200, .of [("access_token", .str accessToken),
          ("access_expires_at", .int expiresAt),
          ("user", .obj (.of [("id", .str (P.str id)),
            ("username", .str (P.str name))]))]⟩) fun raised =>
          match raised with
          | .identity message status => Prog.ret (sendJsonError status message)
          | raised => if raised.isFile then Prog.ret (sendError 500) else Prog.raise raised

/-! ## Requests -/

/-- The requests that run beside each other. -/
inductive Job where
  | deactivateDevice (deviceId : Str) (revoked : Bool) (now : Option Int)
  | disableUser (username : Str) (now : Option Int)
  | changeUserPassword (username password : Str)
  | authLogin (body : Option Record)
  | heartbeat (authorization : Str) (body : Option Record)
  | deviceRegister (authorization : Str) (body : Option Record) (requireExisting : Bool)

/-- A record for the administrator, or a reply over HTTP. -/
inductive Outcome where
  | returned (record : Record)
  | replied (reply : Reply)

/-- The program of a request. -/
def requestProgram : Job → Handler Data Outcome
  | .deactivateDevice deviceId revoked now =>
    (deactivateDevice P deviceId revoked now).bind fun r => Prog.ret (.returned r)
  | .disableUser username now => (disableUser P username now).bind fun r => Prog.ret (.returned r)
  | .changeUserPassword username password =>
    (changeUserPassword P username password).bind fun r => Prog.ret (.returned r)
  | .authLogin body => (authLogin P body).bind fun r => Prog.ret (.replied r)
  | .heartbeat authorization body =>
    (heartbeat P authorization body).bind fun r => Prog.ret (.replied r)
  | .deviceRegister authorization body requireExisting =>
    (deviceRegister P authorization body requireExisting).bind fun r => Prog.ret (.replied r)

/-- Any number of Controllers over one replicated state. -/
def controllers : System (World Data) Oracle Job (Req Data) Ans PyError Outcome where
  perform := perform P
  program := requestProgram P

end Bpc.Deploy

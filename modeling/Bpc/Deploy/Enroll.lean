/-
  ENROLLMENT — `_enroll` of `bpc-control-server.py`, the older way to get a Device.

  It allocates an address as a registration does, but puts the Device record alone, with no
  condition. `AddressJob` are the calls that give, keep or take away an overlay address.
-/
import Bpc.Deploy.ControlServer

namespace Bpc.Deploy

open SlashPath Controlplane Interaction

variable {Data : Type} (P : Runtime Data)

/-! ## The request -/

/-- The fields that `_enroll` reads from its body. -/
structure EnrollRequest where
  token : Str
  deviceName : Str
  publicKey : Str
  wireguardPublicKey : Str
  version : Str

/-- The fields of an enrollment. -/
def enrollRequestOf (body : Record) : EnrollRequest where
  token := strip (P.strField body "token")
  deviceName := strip (P.strField body "device")
  publicKey := strip (P.strField body "public_key")
  wireguardPublicKey := strip (P.strField body "wireguard_public_key")
  version := strip (P.strField body "version")

/-- The checks of an enrollment that need no state. -/
def EnrollRequest.wellFormed (e : EnrollRequest) : Bool :=
  e.token.length = 64 && e.deviceName ≠ [] && e.deviceName.length ≤ 64 && P.isHexInt e.token &&
    P.b64Length e.publicKey = some 32 && P.validWireguardKey e.wireguardPublicKey

/-- `self._root() / "enroll" / f"{token}.json"`. -/
def enrollPath (token : Str) : Str := "control/enroll/" ++ token ++ jsonSuffix

/-! ## The new Device -/

/-- `atomic_json` of the control server. -/
def serverAtomicJson (path : Str) (value : Record) : Handler Data Unit := do
  let replicated ← isReplicatedPath path
  if replicated then do
    let _ ← mutation "PutCanonicalRecord" [putOp path (P.dumps value)]
    Prog.ret ()
  else do
    let _ ← outside "write file"
    Prog.ret ()

/-- The record of an enrolled Device. -/
@[irreducible] def enrolledDevice (e : EnrollRequest) (enrollment : Record)
    (deviceId credential psk address : Str) (now : Int) : Record :=
  .of
    [("device_id", .str deviceId), ("device", .str e.deviceName),
     ("public_key", .str e.publicKey),
     ("wireguard_public_key", .str e.wireguardPublicKey),
     ("wireguard_address", .str (address ++ "/32")), ("wgshim_psk", .str psk),
     ("device_token", .str credential), ("managed_routes", .arr []),
     ("legacy_tunnel", .str (P.strField enrollment "legacy_tunnel")),
     ("created", .int now), ("created_at", .int now), ("last_seen", .int now),
     ("last_version", .str e.version), ("enabled", .bool true),
     ("revoked_at", .null), ("revoked", .bool false)]

/-- What follows the commit is local. -/
def installEnrolled (deviceId index : Str) : Handler Data (Json × Json) := do
  serverAtomicJson P (legacyTokenIndexPath index) (.of [("device_id", .str deviceId)])
  let _ ← outside "write wgshim key"
  let _ ← outside "install wireguard peer"
  let _ ← outside "sync access firewall"
  let _ ← outside "delete bootstrap download"
  let _ ← outside "unlink enrollment"
  let config ← outside "config for device"
  let wireguard ← outside "wireguard profile for device"
  Prog.ret (config, wireguard)

/-- The Device is allocated an address and put. -/
def commitEnrolled (e : EnrollRequest) (enrollment : Record) (deviceId credential psk : Str)
    (now : Int) : Handler Data (Json × Json) := do
  let candidate ← allocateWireguardAddress P
  let _ ← globalConfig P
  let index ← credentialIndex P credential
  serverAtomicJson P (recordPath .devices deviceId)
    (enrolledDevice P e enrollment deviceId credential psk (P.ipText candidate) now)
  installEnrolled P deviceId index

/-- `_enroll` under its lock.  Rolling back removes only local files. -/
def enrollDevice (e : EnrollRequest) (enrollment : Record) : Handler Data Reply := do
  let deviceId ← askRandom 16
  let credential ← askRandom 32
  let psk ← askSecret
  let now ← askTime
  Prog.handle (do
    let (config, wireguard) ← commitEnrolled P e enrollment deviceId credential psk now
    Prog.ret ⟨200, .of [("device_id", .str deviceId), ("device_token", .str credential),
      ("config", config), ("wireguard", wireguard)]⟩) fun raised =>
      match raised with
      | .type => Prog.raise raised
      | _ => do
        let _ ← outside "roll back enrollment"
        Prog.ret (sendError 500)

/-- `_enroll`. -/
def enroll (body : Option Record) : Handler Data Reply :=
  match body with
  | none => Prog.ret (sendError 400)
  | some body =>
    let e := enrollRequestOf P body
    if !e.wellFormed P then Prog.ret (sendError 400)
    else do
      let found ← orSkip (readJson P (enrollPath e.token))
      match found with
      | none => Prog.ret (sendError 401)
      | some enrollment =>
        if P.strField enrollment "device" ≠ e.deviceName then Prog.ret (sendError 401)
        else do
          let expires ← Prog.ofExcept (P.int (enrollment.get "expires" (.int 0)))
          let now ← askTime
          if expires ≤ now then do
            let _ ← outside "delete expired enrollment"
            Prog.ret (sendError 401)
          else do
            let present ← askFile (clean (enrollPath e.token))
            match present with
            | none => Prog.ret (sendError 401)
            | some _ => enrollDevice P e enrollment

/-! ## The calls -/

/-- The calls about addresses. -/
inductive AddressJob where
  | deviceRegister (authorization : Str) (body : Option Record) (requireExisting : Bool)
  | enroll (body : Option Record)
  | deactivateDevice (deviceId : Str) (revoked : Bool) (now : Option Int)

/-- The program of such a call. -/
def addressProgram : AddressJob → Handler Data Outcome
  | .deviceRegister authorization body requireExisting =>
    (deviceRegister P authorization body requireExisting).bind fun r => Prog.ret (.replied r)
  | .enroll body => (enroll P body).bind fun r => Prog.ret (.replied r)
  | .deactivateDevice deviceId revoked now =>
    (deactivateDevice P deviceId revoked now).bind fun r => Prog.ret (.returned r)

/-- Any number of Controllers that serve these calls. -/
def addressers : System (World Data) Oracle AddressJob (Req Data) Ans PyError Outcome where
  perform := perform P
  program := addressProgram P

end Bpc.Deploy

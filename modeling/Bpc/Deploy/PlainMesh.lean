/-
  CONTROL DIRECTORIES THAT CAN BE RUN — a runtime for the topology code, and directories of a few
  records.
-/
import Bpc.Deploy.EffectiveAccess
import Bpc.Deploy.Topology
import Bpc.Routed.PlainLibrary

namespace Bpc.Deploy

open SlashPath Controlplane

/-! ## The runtime -/

/-- The order of `(score, rtt, id)`. -/
def tupleLE (a b : Int × Int × Str) : Bool :=
  a.1 < b.1 || (a.1 = b.1 && (a.2.1 < b.2.1 || (a.2.1 = b.2.1 && (compare a.2.2 b.2.2).isLE)))

/-- Whole numbers for floats. -/
def plainFloat : PyFloat Int where
  float
    | .int n => .ok n
    | .bool b => .ok (if b then 1 else 0)
    | .str _ => .error .value
    | _ => .error .type
  ofInt n := n
  sum := List.sum
  add := (· + ·)
  sub := (· - ·)
  mul := (· * ·)
  div := (· / ·)
  lt a b := decide (a < b)
  round3 x := x
  sort key l := l.insertionSort fun a b => tupleLE (key a) (key b) = true
  sort_perm _ l := List.perm_insertionSort _ l

/-- A text of a record. -/
def textField (r : Record) (key : Str) : Str :=
  match r[key]? with
  | some (.str s) => s
  | _ => []

/-- A list of texts of a record. -/
def textsField (r : Record) (key : Str) : Option (List Str) :=
  match r[key]? with
  | some (.arr items) =>
    some (items.filterMap fun item => match item with | .str s => some s | _ => none)
  | _ => none

/-- The runtime of the topology code. -/
def meshRuntime : Runtime Loaded :=
  { plainRuntime with
    codec :=
      { plainRuntime.codec with
        unmarshalRoute := fun v => match v with
          | .object r => some ⟨textField r "cidr", textField r "node_id",
            textField r "owner_node_id"⟩
          | _ => none
        unmarshalNode := fun v => match v with
          | .object r => some ⟨textsField r "authorized_routes",
              (textsField r "advertised_routes").getD [], textField r "node_id", isRevoked r,
                hasRole r⟩
          | _ => none }
    b64Length := fun text => (Routed.base64Groups (Routed.ascii text)).map List.length }

/-! ## Directories -/

/-- A Node with roles and the networks it may own. -/
def meshNode (id : Str) (roles : List Str) (grants : List Str) (revoked : Bool) : Record :=
  Record.of [("node_id", .str id), ("revoked", .bool revoked),
    ("roles", .obj (.of (roles.map fun role => (role, .bool true)))),
    ("authorized_routes", .arr (grants.map .str))]

/-- The roles of a Public Node. -/
def publicRoles : List Str := ["gateway", "relay"]

/-- The role of a site router. -/
def siteRoles : List Str := ["site_router"]

/-- Thirty-two zero bytes in base64. -/
def meshKey : Str := List.replicate 43 'A' ++ ['=']

/-- A link record. -/
def meshLink (a b : Str) : Record :=
  Record.of [("a_node_id", .str a), ("b_node_id", .str b), ("psk", .str meshKey),
    ("port", .int 24446), ("cost", .int 10)]

/-- A route record. -/
def meshRoute (cidr owner : Str) : Record :=
  Record.of [("cidr", .str cidr), ("node_id", .str owner),
    ("owner_node_id", .str owner)]

/-- Telemetry of a time, with links to some peers. -/
def meshTelemetry (id : Str) (seen : Int) (peers : List Str) : Record :=
  Record.of [("last_seen", .int seen),
    ("links", .arr (peers.map fun peer => .obj (.of [("from", .str id), ("to", .str peer),
      ("health", .str "healthy")])))]

/-- A file of a directory. -/
def meshFile (directory name : Str) (record : Record) : Str × Loaded :=
  (directory ++ '/' :: (name ++ jsonSuffix), .object record)

/-- A directory of files, with the telemetry of some Nodes. -/
def meshDir (files : List (Str × Loaded)) (telemetry : List (Str × Record)) :
    ControlDir Loaded where
  canonical := SortedMap.insertPairs ∅ files
  telemetry id := (telemetry.find? fun entry => entry.1 = id).map fun entry => .object entry.2
  tooLong path := (path.splitOn '/').any fun name => decide (255 < name.length)

end Bpc.Deploy

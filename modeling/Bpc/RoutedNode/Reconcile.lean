/-
  THE KERNEL STATE OF A ROUTED NODE — `kernelState.reconcile` and `cleanup` of `bpc-routed-node`.

  A command is its meaning; `Command.args` is the text.  Routes and the policy are recorded after
  each command, the `iptables` sets after a whole loop, the overlay subnet at the very end.  The
  loops range over maps, in any order (`Order`).
-/
import Bpc.Lib.Commands
import Bpc.Lib.SortedMap
import Bpc.Routed.Config

namespace Bpc.RoutedNode

open Commands Routed

/-! ## Commands -/

/-- `meshRouteTable`. -/
def meshRouteTable : GoString := ascii "12530"

/-- `meshRouteMark`. -/
def meshRouteMark : GoString := ascii "0x425043"

/-- `meshRulePriority`. -/
def meshRulePriority : GoString := ascii "120"

/-- What `ip route` and `ip rule` act on. -/
inductive IpObject where
  | route (cidr device table : GoString)
  | unreachableDefault
  | markRule
  deriving DecidableEq

/-- What `ip` does. -/
inductive IpAction where
  | add
  | del
  deriving DecidableEq

/-- What `iptables` acts on. -/
inductive Rule where
  | noSNAT (overlay cidr device : GoString)
  | siteNAT (overlay cidr device : GoString)
  | forwardIn (cidr device : GoString)
  | forwardOut (overlay cidr device : GoString)
  deriving DecidableEq

/-- What `iptables` does. -/
inductive IptablesAction where
  | check
  | insert
  | append
  | delete
  deriving DecidableEq

/-- A command. -/
inductive Command where
  | ip (action : IpAction) (object : IpObject)
  | iptables (action : IptablesAction) (rule : Rule)
  deriving DecidableEq

/-- Its text. -/
def IpAction.text : IpAction → GoString
  | add => ascii "add"
  | del => ascii "del"

/-- `kernelRouteArgs`, and the arguments for the policy. -/
def IpObject.args (action : IpAction) : IpObject → List GoString
  | route cidr device table =>
    [ascii "ip", ascii "route", action.text, cidr, ascii "dev", device, ascii "proto",
      ascii "99"] ++
      if table ≠ [] then [ascii "table", table] else []
  | unreachableDefault =>
    [ascii "ip", ascii "route", action.text, ascii "unreachable", ascii "default", ascii "table",
      meshRouteTable, ascii "proto", ascii "99"]
  | markRule =>
    [ascii "ip", ascii "rule", action.text, ascii "priority", meshRulePriority, ascii "fwmark",
      meshRouteMark, ascii "lookup", meshRouteTable]

/-- Its text. -/
def IptablesAction.text : IptablesAction → GoString
  | check => ascii "-C"
  | insert => ascii "-I"
  | append => ascii "-A"
  | delete => ascii "-D"

/-- The table, if it is not the default one. -/
def Rule.tableArgs : Rule → List GoString
  | noSNAT .. => [ascii "-t", ascii "nat"]
  | siteNAT .. => [ascii "-t", ascii "nat"]
  | _ => []

/-- The chain of a rule. -/
def Rule.chain : Rule → GoString
  | noSNAT .. => ascii "POSTROUTING"
  | siteNAT .. => ascii "POSTROUTING"
  | _ => ascii "FORWARD"

/-- `-m comment --comment kind:device:cidr -j target`. -/
def commentArgs (kind device cidr target : GoString) : List GoString :=
  [ascii "-m", ascii "comment", ascii "--comment", kind ++ ascii ":" ++ device ++ ascii ":" ++ cidr,
    ascii "-j", target]

/-- The arguments of a rule. -/
def Rule.spec : Rule → List GoString
  | noSNAT overlay cidr device =>
    [ascii "-s", overlay, ascii "-d", cidr, ascii "-o", device] ++
      commentArgs (ascii "bpc-routed-nonat") device cidr (ascii "ACCEPT")
  | siteNAT overlay cidr device =>
    [ascii "-s", overlay, ascii "-d", cidr] ++
      commentArgs (ascii "bpc-routed-site-nat") device cidr (ascii "MASQUERADE")
  | forwardIn cidr device =>
    [ascii "-i", device, ascii "-d", cidr] ++
      commentArgs (ascii "bpc-routed-forward-in") device cidr (ascii "ACCEPT")
  | forwardOut overlay cidr device =>
    [ascii "-o", device, ascii "-s", cidr, ascii "-d", overlay, ascii "-m", ascii "conntrack",
      ascii "--ctstate", ascii "ESTABLISHED,RELATED"] ++
      commentArgs (ascii "bpc-routed-forward-out") device cidr (ascii "ACCEPT")

/-- The words of a command; an inserted rule comes first. -/
def Command.args : Command → List GoString
  | ip action object => object.args action
  | iptables action rule =>
    [ascii "iptables"] ++ rule.tableArgs ++ [action.text, rule.chain] ++
      (if action = .insert then [ascii "1"] else []) ++ rule.spec

/-- The policy table is free, or a command. -/
inductive Request where
  | requireFreshPublicPolicy
  | run (c : Command)
  deriving DecidableEq

/-! ## Book-keeping -/

/-- A `map[string]struct{}`. -/
abbrev GoSet : Type := SortedMap GoString Unit

/-- `set[x]`. -/
def GoSet.has (s : GoSet) (x : GoString) : Bool := (s[x]?).isSome

/-- A set of some texts. -/
def GoSet.of (xs : List GoString) : GoSet := SortedMap.insertPairs ∅ (xs.map fun x => (x, ()))

/-- `kernelState`.  Tests replace the command. -/
structure KernelState where
  customCommand : Bool
  localNodeID : GoString
  interfaceID : GoString
  overlaySubnet : GoString
  routes : GoSet
  routeTables : SortedMap GoString GoString
  policyDefault : Bool
  policyRule : Bool
  natNoSNAT : GoSet
  siteNAT : GoSet
  forward : GoSet

/-- The state of a process that starts. -/
def KernelState.fresh (customCommand : Bool) (localNodeID interfaceID : GoString) :
    KernelState where
  customCommand := customCommand
  localNodeID := localNodeID
  interfaceID := interfaceID
  overlaySubnet := []
  routes := ∅
  routeTables := ∅
  policyDefault := false
  policyRule := false
  natNoSNAT := ∅
  siteNAT := ∅
  forward := ∅

/-- The order in which each loop ranges over its map. -/
structure Order where
  desiredRoutes : MapRange GoString GoString
  routes : MapRange GoString Unit
  desiredNoSNAT : MapRange GoString Unit
  natNoSNAT : MapRange GoString Unit
  desiredSiteNAT : MapRange GoString Unit
  siteNAT : MapRange GoString Unit
  forward : MapRange GoString Unit

/-- All maps in key order. -/
def Order.sorted : Order :=
  ⟨.sorted, .sorted, .sorted, .sorted, .sorted, .sorted, .sorted⟩

/-- A step of the process. -/
abbrev NodeStep : Type := Step Request KernelState

/-! ## The policy -/

/-- `enablePublicPolicy`: the default comes first. -/
def enablePublicPolicy : NodeStep :=
  andThen
    (reading fun k => onlyIf (!k.policyDefault)
      (require (.run (.ip .add .unreachableDefault)) fun k => { k with policyDefault := true }))
    (reading fun k => onlyIf (!k.policyRule)
      (require (.run (.ip .add .markRule)) fun k => { k with policyRule := true }))

/-- `disablePublicPolicy`: the rule goes first. -/
def disablePublicPolicy : NodeStep :=
  andThen
    (reading fun k => onlyIf k.policyRule
      (require (.run (.ip .del .markRule)) fun k => { k with policyRule := false }))
    (reading fun k => onlyIf k.policyDefault
      (require (.run (.ip .del .unreachableDefault)) fun k => { k with policyDefault := false }))

/-! ## Reconciliation -/

section Reconcile

variable {F : Type} (config : RoutingConfig F)

/-- The routes by their tables; the overlay subnet is in the main table. -/
def desiredRoutes : SortedMap GoString GoString :=
  let mesh : SortedMap GoString GoString :=
    if config.localPublic then
      SortedMap.insertPairs ∅ (config.routes.map fun route => (route.cidr, meshRouteTable))
    else ∅
  if config.localSiteRouter && config.overlaySubnet ≠ [] then mesh.insert config.overlaySubnet []
  else mesh

/-- The networks without SNAT. -/
def desiredNoSNAT : GoSet :=
  if config.localPublic && config.overlaySubnet ≠ [] then GoSet.of (config.routes.map Route.cidr)
  else ∅

/-- `desiredSiteNAT` and `desiredForward`. -/
def desiredSiteNAT (localNodeID : GoString) : GoSet :=
  if config.localSiteRouter && config.overlaySubnet ≠ [] then
    GoSet.of ((config.routes.filter fun route => route.ownerNodeID = localNodeID).map Route.cidr)
  else ∅

/-- The policy of a Public Node; a table in use by others is refused. -/
def publicPolicy : NodeStep :=
  andThen
    (reading fun k => onlyIf (!k.policyDefault && !k.customCommand)
      (require .requireFreshPublicPolicy id))
    enablePublicPolicy

/-- Add a route, unless there is one for the network, in whatever table. -/
def addRoute (cidr table : GoString) : NodeStep :=
  reading fun k => onlyIf (!k.routes.has cidr)
    (require (.run (.ip .add (.route cidr k.interfaceID table))) fun k =>
      { k with
        routes := k.routes.insert cidr ()
        routeTables := k.routeTables.insert cidr table })

/-- A stale route is deleted. -/
def removeRoute (cidr : GoString) : NodeStep :=
  reading fun k =>
    require (.run (.ip .del (.route cidr k.interfaceID ((k.routeTables[cidr]?).getD [])))) fun k =>
      { k with
        routes := k.routes.erase cidr
        routeTables := k.routeTables.erase cidr }

/-- New routes, then stale ones. -/
def reconcileRoutes (order : Order) : NodeStep :=
  andThen (forEach (fun e => addRoute e.1 e.2) (order.desiredRoutes.list (desiredRoutes config)))
    (reading fun k => forEach (fun e => onlyIf ((desiredRoutes config)[e.1]?).isNone
      (removeRoute e.1))
      (order.routes.list k.routes))

/-- Check, and add where the check fails. -/
def ensure (action : IptablesAction) (rule : Rule) : NodeStep :=
  ifFails (.run (.iptables .check rule)) (require (.run (.iptables action rule)) id)

/-- `_ = command(delete)`. -/
def discard (rule : Rule) : NodeStep := attempt (.run (.iptables .delete rule))

/-- The no-SNAT rules, for the overlay subnet they were made for. -/
def reconcileNoSNAT (order : Order) (previousOverlay : GoString) : NodeStep :=
  andThen
    (forEach (fun e => reading fun k => onlyIf (!k.natNoSNAT.has e.1)
        (ensure .insert (.noSNAT config.overlaySubnet e.1 k.interfaceID)))
      (order.desiredNoSNAT.list (desiredNoSNAT config)))
  (andThen
    (reading fun k => forEach (fun e => onlyIf (!(desiredNoSNAT config).has e.1)
        (discard (.noSNAT previousOverlay e.1 k.interfaceID)))
      (order.natNoSNAT.list k.natNoSNAT))
    (assign fun k => { k with natNoSNAT := desiredNoSNAT config }))

/-- The rules of one network behind this Node. -/
def ensureSite (cidr : GoString) : NodeStep :=
  andThen
    (reading fun k => onlyIf (!k.siteNAT.has cidr)
      (ensure .append (.siteNAT config.overlaySubnet cidr k.interfaceID)))
    (reading fun k => onlyIf (!k.forward.has cidr)
      (andThen (ensure .insert (.forwardIn cidr k.interfaceID))
        (ensure .insert (.forwardOut config.overlaySubnet cidr k.interfaceID))))

/-- The rules of the networks behind this Node. -/
def reconcileSite (order : Order) (previousOverlay : GoString) : NodeStep :=
  reading fun k =>
  let desired := desiredSiteNAT config k.localNodeID
  andThen (forEach (fun e => ensureSite config e.1) (order.desiredSiteNAT.list desired))
  (andThen
    (reading fun k => forEach (fun e => onlyIf (!desired.has e.1)
        (discard (.siteNAT previousOverlay e.1 k.interfaceID))) (order.siteNAT.list k.siteNAT))
  (andThen
    (reading fun k => forEach (fun e => onlyIf (!desired.has e.1)
        (andThen (discard (.forwardIn e.1 k.interfaceID))
          (discard (.forwardOut previousOverlay e.1 k.interfaceID))))
            (order.forward.list k.forward))
    (assign fun k => { k with
      siteNAT := desired
      forward := desired
      overlaySubnet := config.overlaySubnet })))

/-- The subnet that the rules there are were made for. -/
def previousOverlay (k : KernelState) : GoString :=
  if k.overlaySubnet = [] then config.overlaySubnet else k.overlaySubnet

/-- `reconcile`. -/
def reconcile (order : Order) : NodeStep :=
  reading fun k =>
  let previous := previousOverlay config k
  andThen (onlyIf config.localPublic publicPolicy)
  (andThen (reconcileRoutes config order)
  (andThen (onlyIf (!config.localPublic) disablePublicPolicy)
  (andThen (reconcileNoSNAT config order previous) (reconcileSite config order previous))))

end Reconcile

/-- Nothing but an overlay subnet. -/
def emptyConfig (F : Type) (overlay : GoString) : RoutingConfig F where
  policyExpiresAt := 0
  version := 0
  listenPort := 0
  overlaySubnet := overlay
  localPublic := false
  localSiteRouter := false
  links := []
  paths := []
  transitPaths := []
  routes := []

/-- `cleanup`. -/
def cleanup (F : Type) (order : Order) : NodeStep := fun k =>
  (reconcile (emptyConfig F k.overlaySubnet) order k).bind fun r => .ret (r.1, none)

end Bpc.RoutedNode

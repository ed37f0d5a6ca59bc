/-
  CONFIGURATIONS ACROSS LANGUAGES — what `RoutingConfig.Validate` (Go) makes of a configuration
  that `routing_config_for_node` (Python) returned.

  What Python has stripped, Go does not trim any further (`trimSpace_utf8`).  Of all the checks
  only ONE can fail: two links to one peer (`Issue.validate_iff`).
-/
import Bpc.Deploy.TopologyPaths
import Bpc.Lib.Utf8

namespace Bpc.Deploy

open SlashPath Controlplane Ways Utf8
open Routed (GoString GoLib)

/-! ## Texts -/

/-- The runes for which `unicode.IsSpace` holds. -/
def goSpaces : List Char :=
  ([0x09, 0x0a, 0x0b, 0x0c, 0x0d, 0x20, 0x85, 0xa0, 0x1680] ++ (List.range 11).map (0x2000 + ·) ++
    [0x2028, 0x2029, 0x202f, 0x205f, 0x3000]).map Char.ofNat

theorem spaces_eq : Routed.spaces = goSpaces.map encodeChar := by decide +kernel

theorem isPySpace_of_goSpaces {c : Char} (h : c ∈ goSpaces) : isPySpace c = true := by
  have hall : goSpaces.all isPySpace = true := by decide +kernel
  exact List.all_eq_true.mp hall c h

theorem trimFront_eq_self {words : List GoString} {s : GoString} (h : ∀ w ∈ words, ¬ w <+: s)
    (fuel : Nat) : Routed.trimFront words fuel s = s := by
  cases fuel with
  | zero => rfl
  | succ fuel =>
    have hnone : (words.find? fun w => w.isPrefixOf s) = none :=
      List.find?_eq_none.mpr fun w hw => by simpa using h w hw
    rw [Routed.trimFront, hnone]

variable {s : Str}

theorem strip_ends (h : strip s = s) :
    (∀ c rest, s = c :: rest → isPySpace c = false) ∧
      ∀ front c, s = front ++ [c] → isPySpace c = false := by
  obtain ⟨tail, htail⟩ : strip s <+: s.dropWhile isPySpace := List.rdropWhile_prefix isPySpace _
  rw [h] at htail
  constructor
  · rintro c rest rfl
    have hfirst := List.head?_dropWhile_not isPySpace (c :: rest)
    rw [← htail] at hfirst
    exact hfirst
  · rintro front c rfl
    have hself : ((front ++ [c]).dropWhile isPySpace).rdropWhile isPySpace = front ++ [c] := h
    have hlast := (List.rdropWhile_idempotent isPySpace ((front ++ [c]).dropWhile isPySpace))
    rw [hself, List.rdropWhile_eq_self_iff] at hlast
    have hnot := hlast (by simp)
    rw [List.getLast_concat] at hnot
    exact Bool.eq_false_iff.mpr hnot

/-- **Go does not trim what Python has stripped.** -/
theorem trimSpace_utf8 (h : strip s = s) : Routed.trimSpace (utf8 s) = utf8 s := by
  obtain ⟨hfirst, hlast⟩ := strip_ends h
  have hword : ∀ w ∈ Routed.spaces, ∃ c, isPySpace c = true ∧ w = encodeChar c := by
    intro w hw
    rw [spaces_eq] at hw
    obtain ⟨c, hc, rfl⟩ := List.mem_map.mp hw
    exact ⟨c, isPySpace_of_goSpaces hc, rfl⟩
  have hleft : ∀ w ∈ Routed.spaces, ¬ w <+: utf8 s := by
    rintro w hw ⟨rest, hrest⟩
    obtain ⟨space, hspace, rfl⟩ := hword w hw
    cases s with
    | nil => exact encodeChar_ne_nil space (List.append_eq_nil_iff.mp hrest).1
    | cons c s =>
      obtain rfl := eq_of_append_eq hrest
      cases (hfirst space s rfl).symm.trans hspace
  have hright : ∀ w ∈ Routed.spaces.map List.reverse, ¬ w <+: (utf8 s).reverse := by
    intro reversed hmem hprefix
    obtain ⟨w, hw, rfl⟩ := List.mem_map.mp hmem
    obtain ⟨space, hspace, rfl⟩ := hword w hw
    obtain ⟨front, hfront⟩ := List.reverse_prefix.mp hprefix
    rcases List.eq_nil_or_concat s with rfl | ⟨init, c, rfl⟩
    · exact encodeChar_ne_nil space (List.append_eq_nil_iff.mp hfront).2
    · rw [List.concat_eq_append, utf8_append] at hfront
      have hc : utf8 [c] = encodeChar c := List.append_nil _
      rw [hc] at hfront
      obtain rfl := eq_of_append_eq_back hfront
      cases (hlast init space List.concat_eq_append).symm.trans hspace
  unfold Routed.trimSpace
  rw [trimFront_eq_self hleft]
  dsimp only
  rw [trimFront_eq_self hright, List.reverse_reverse]

theorem trimSpace_utf8_ne (h : strip s = s) (hne : s ≠ []) : Routed.trimSpace (utf8 s) ≠ [] := by
  rw [trimSpace_utf8 h]
  exact fun hnil => hne (utf8_eq_nil.mp hnil)

theorem parsePrefix_utf8 (c : Cidr 32) : Routed.parsePrefix (utf8 (networkText c)) =
    some c.toPrefix := by
  unfold Routed.parsePrefix
  rw [map_utf8_ascii]
  · exact Prefix4.parse_toText c.toPrefix
  · intro char hchar
    rcases Prefix4.mem_of_parse (Prefix4.parse_toText c.toPrefix) hchar with hdigit | rfl | rfl
    · have hrange := toNat_of_hex (c := char) (by rw [isHexDigit, hdigit]; rfl)
      omega
    · decide
    · decide

/-! ## The configuration, as the Node reads it -/

section GoConfig

variable {F : Type}

/-- A link as the Node reads it. -/
def goLink (link : ConfigLink F) : Routed.LinkConfig :=
  ⟨utf8 link.id, utf8 link.peer, utf8 link.psk, link.port⟩

/-- A path as the Node reads it. -/
def goPath (path : TopologyPath F) : Routed.Path F where
  id := utf8 path.id
  ownerNodeID := utf8 path.owner
  cidr := utf8 path.cidr
  hops := path.hops.map utf8
  health := utf8 path.health
  rttMS := path.rttMs
  lossPercent := path.lossPercent
  cost := path.cost
  score := path.score

/-- A route as the Node reads it. -/
def goRoute (route : Str × Str) : Routed.Route := ⟨utf8 route.1, utf8 route.2⟩

/-- The configuration as the Node reads it. -/
def goConfig (config : NodeConfig F) : Routed.RoutingConfig F where
  policyExpiresAt := config.policyExpiresAt
  version := 1
  listenPort := routedMeshPort
  overlaySubnet := utf8 config.overlaySubnet
  localPublic := config.localPublic
  localSiteRouter := config.localSiteRouter
  links := config.links.map goLink
  paths := config.paths.map goPath
  transitPaths := config.transitPaths.map goPath
  routes := config.routes.map goRoute

end GoConfig

/-! ## What the checks of a Node come to -/

section Checks

variable {F : Type} {L : GoLib F} {me : GoString}

theorem validateLinks_iff {seen : List GoString} {links : List Routed.LinkConfig} :
    Routed.validateLinks L me seen links = .ok () ↔
      (∀ link ∈ links, link.validate L me = .ok ()) ∧ (links.map (·.peerNodeID)).Nodup ∧
        ∀ link ∈ links, link.peerNodeID ∉ seen := by
  induction links generalizing seen with
  | nil => simp [Routed.validateLinks]
  | cons link links ih =>
    rw [Routed.validateLinks]
    cases hlink : link.validate L me with
    | error e =>
      constructor
      · exact fun h => by cases h
      · rintro ⟨hall, _⟩
        cases hlink.symm.trans (hall link List.mem_cons_self)
    | ok u =>
      dsimp only
      by_cases hseen : link.peerNodeID ∈ seen
      · rw [if_pos hseen]
        constructor
        · exact fun h => by cases h
        · rintro ⟨_, _, hfresh⟩
          exact absurd hseen (hfresh link List.mem_cons_self)
      · rw [if_neg hseen, ih, List.map_cons, List.nodup_cons]
        constructor
        · rintro ⟨hall, hnodup, hfresh⟩
          refine ⟨List.forall_mem_cons.mpr ⟨hlink, hall⟩, ⟨fun hmem => ?_, hnodup⟩,
            List.forall_mem_cons.mpr ⟨hseen, fun other hother hmem => ?_⟩⟩
          · obtain ⟨other, hother, heq⟩ := List.mem_map.mp hmem
            exact hfresh other hother (heq ▸ List.mem_cons_self)
          · exact hfresh other hother (List.mem_cons_of_mem _ hmem)
        · rintro ⟨hall, ⟨hnew, hnodup⟩, hfresh⟩
          refine ⟨(List.forall_mem_cons.mp hall).2, hnodup, fun other hother hmem => ?_⟩
          rcases List.mem_cons.mp hmem with heq | hmem
          · exact hnew (heq ▸ List.mem_map_of_mem hother)
          · exact (List.forall_mem_cons.mp hfresh).2 other hother hmem

theorem validateRoutes_ok {routes : List Routed.Route}
    (h : ∀ route ∈ routes, (∃ q, Routed.parsePrefix route.cidr = some q ∧ q.bits ≠ 0) ∧
      Routed.trimSpace route.ownerNodeID ≠ []) : Routed.validateRoutes L routes = .ok () := by
  induction routes with
  | nil => rfl
  | cons route routes ih =>
    obtain ⟨⟨⟨q, hq, hbits⟩, howner⟩, hrest⟩ := List.forall_mem_cons.mp h
    have hprefix : route.prefix4 L = .ok q.masked := by
      unfold Routed.Route.prefix4
      rw [hq]
      exact if_neg hbits
    rw [Routed.validateRoutes, hprefix]
    dsimp only
    rw [if_neg howner]
    exact ih hrest

theorem validatePaths_ok {paths : List (Routed.Path F)}
    (h : ∀ path ∈ paths, path.validate L = .ok ()) :
    Routed.validatePaths L paths = .ok () := by
  induction paths with
  | nil => rfl
  | cons path paths ih =>
    obtain ⟨hpath, hrest⟩ := List.forall_mem_cons.mp h
    rw [Routed.validatePaths, hpath]
    exact ih hrest

theorem validateHops_ok {id : GoString} {seen hops : List GoString}
    (htrim : ∀ hop ∈ hops, Routed.trimSpace hop = hop ∧ hop ≠ []) (hnodup : hops.Nodup)
    (hfresh : ∀ hop ∈ hops, hop ∉ seen) : Routed.validateHops id seen hops = .ok () := by
  induction hops generalizing seen with
  | nil => rfl
  | cons hop hops ih =>
    obtain ⟨⟨htrim', hne⟩, hrest⟩ := List.forall_mem_cons.mp htrim
    obtain ⟨hnew, hnodup'⟩ := List.nodup_cons.mp hnodup
    obtain ⟨hseen, hothers⟩ := List.forall_mem_cons.mp hfresh
    rw [Routed.validateHops, htrim', if_neg hne, if_neg hseen]
    refine ih hrest hnodup' fun other hother hmem => ?_
    rcases List.mem_cons.mp hmem with rfl | hmem
    · exact hnew hother
    · exact hothers other hother hmem

theorem linkValidate_ok {link : Routed.LinkConfig} (hid : Routed.trimSpace link.id ≠ [])
    (hpeer : Routed.trimSpace link.peerNodeID ≠ []) (hother : link.peerNodeID ≠ me)
    (hkey : (L.decodeBase64 (Routed.trimSpace link.psk)).map List.length = some 32)
    (hlow : 1024 ≤ link.port) (hhigh : link.port ≤ 65535) : link.validate L me = .ok () := by
  have hdefault : Routed.orDefaultPort link.port = link.port := if_neg (by omega)
  unfold Routed.LinkConfig.validate
  rw [if_neg hid, if_neg (not_or.mpr ⟨hpeer, hother⟩), if_neg (not_not.mpr hkey), hdefault,
    if_neg (by omega)]

theorem pathValidate_ok {path : Routed.Path F} (hid : Routed.trimSpace path.id ≠ [])
    (howner : Routed.trimSpace path.ownerNodeID ≠ []) (htwo : 2 ≤ path.hops.length)
    (hbound : path.hops.length ≤ Routed.maxPathHops)
    (hhops : Routed.validateHops path.id [] path.hops = .ok ())
    (hlast : path.hops.getLast? = some path.ownerNodeID) {q : Prefix4}
    (hcidr : Routed.parsePrefix path.cidr = some q) (hbits : q.bits ≠ 0) :
    path.validate L = .ok () := by
  unfold Routed.Path.validate
  rw [if_neg hid, if_neg howner, if_neg (by omega), hhops]
  dsimp only
  rw [if_neg (not_not.mpr hlast), hcidr, if_neg (by simpa using hbits)]

end Checks

/-! ## Acceptance -/

section Acceptance

variable {Data : Type} {P : Runtime Data} {dir : ControlDir Data} {F : Type} {N : PyFloat F}
  {L : GoLib F} {now : Int} {id : Str}

theorem strip_digest (text : Str) (n : Nat) :
    strip ((P.sha256Text text).take n) = (P.sha256Text text).take n := by
  have hhex := P.sha256Text_hex text
  rw [isHex, Bool.and_eq_true, List.all_eq_true] at hhex
  exact strip_eq_self fun c hc => isPySpace_of_hex (hhex.2 c (List.mem_of_mem_take hc))

theorem digest_ne_nil (text : Str) {n : Nat} (hn : 0 < n) : (P.sha256Text text).take n ≠ [] := by
  have hhex := P.sha256Text_hex text
  rw [isHex, Bool.and_eq_true, decide_eq_true_iff] at hhex
  intro hnil
  have hlength := congrArg List.length hnil
  rw [List.length_take, hhex.1, List.length_nil] at hlength
  omega

/-- The ends of a link record are stripped, and differ. -/
structure LinkEnds (P : Runtime Data) (record : LinkRecord) : Prop where
  left : strip record.left = record.left ∧ record.left ≠ []
  right : strip record.right = record.right ∧ record.right ≠ []
  ne : record.left ≠ record.right
  id : record.id = topologyLinkId P record.left record.right

theorem linkPair_ends {a b left right : Str} (h : linkPair a b = some (left, right)) :
    (strip left = left ∧ left ≠ []) ∧ (strip right = right ∧ right ≠ []) ∧ left ≠ right := by
  unfold linkPair at h
  dsimp only at h
  split at h
  · cases h
  rename_i hends
  obtain ⟨ha, hb, hne⟩ : strip a ≠ [] ∧ strip b ≠ [] ∧ strip a ≠ strip b :=
    ⟨(not_or.mp hends).1, not_or.mp (not_or.mp hends).2⟩
  split at h
  · obtain ⟨rfl, rfl⟩ := Prod.mk.inj (Option.some.inj h)
    exact ⟨⟨strip_strip a, ha⟩, ⟨strip_strip b, hb⟩, hne⟩
  · obtain ⟨rfl, rfl⟩ := Prod.mk.inj (Option.some.inj h)
    exact ⟨⟨strip_strip b, hb⟩, ⟨strip_strip a, ha⟩, hne.symm⟩

variable {record : LinkRecord}

theorem linkEnds_of_mem (h : record ∈ linkRecords P dir) : LinkEnds P record := by
  obtain ⟨raw, _, hraw⟩ := List.mem_filterMap.mp h
  unfold linkRecord at hraw
  split at hraw
  · cases hraw
  rename_i left right hpair
  split at hraw
  · obtain rfl := Option.some.inj hraw
    obtain ⟨hleft, hright, hne⟩ := linkPair_ends hpair
    exact ⟨hleft, hright, hne, rfl⟩
  · cases hraw

/-- A link with a port and a key that a Node accepts. -/
structure ValidLink (P : Runtime Data) (L : GoLib F) (record : LinkRecord) : Prop where
  port : ∃ port, P.int (record.record.get "port" (.int routedMeshPort)) = .ok port ∧
    1024 ≤ port ∧ port ≤ 65535
  key : (L.decodeBase64 (Routed.trimSpace (utf8 record.psk))).map List.length = some 32

/-- The peer of a link record, if the Controller knows it. -/
def knownPeer (P : Runtime Data) (dir : ControlDir Data) (id : Str) (record : LinkRecord) :
    Option Str :=
  (record.peerOf id).filter fun peer => (nodeNamed P dir peer).isSome

variable {found : List (ConfigLink F)}

theorem configLink_ok (h : configLink P dir N id record = .ok found) :
    (knownPeer P dir id record = none ∧ found = []) ∨
      ∃ peer port cost, knownPeer P dir id record = some peer ∧
        converted (P.int (record.record.get "port" (.int routedMeshPort))) routedMeshPort =
          .ok port ∧
        found = [⟨record.id, peer, record.psk, port, cost⟩] := by
  unfold configLink at h
  unfold knownPeer
  cases hpeer : record.peerOf id with
  | none =>
    rw [hpeer] at h
    exact .inl ⟨rfl, (Except.ok.inj h).symm⟩
  | some peer =>
    rw [hpeer] at h
    dsimp only at h
    cases hnamed : nodeNamed P dir peer with
    | none =>
      rw [hnamed] at h
      exact .inl ⟨by simp [Option.filter, hnamed], (Except.ok.inj h).symm⟩
    | some node =>
      rw [hnamed] at h
      dsimp only at h
      split at h
      · rename_i port cost hport _
        exact .inr ⟨peer, port, cost, by simp [Option.filter, hnamed], hport,
          (Except.ok.inj h).symm⟩
      · cases h
      · cases h

theorem configLinks_peers {records : List LinkRecord}
    (h : Checked.collect (configLink P dir N id) records = .ok found) :
    found.map ConfigLink.peer = records.filterMap (knownPeer P dir id) := by
  induction records generalizing found with
  | nil =>
    obtain rfl := Except.ok.inj h
    rfl
  | cons record records ih =>
    obtain ⟨first, rest, hfirst, hrest, rfl⟩ := Checked.collect_cons_ok h
    rw [List.map_append, ih hrest, List.filterMap_cons]
    rcases configLink_ok hfirst with ⟨hnone, rfl⟩ | ⟨peer, port, cost, hsome, _, rfl⟩
    · rw [hnone]
      rfl
    · rw [hsome]
      rfl

theorem peerOf_ends (ends : LinkEnds P record) {peer : Str}
    (h : knownPeer P dir id record = some peer) : (strip peer = peer ∧ peer ≠ []) ∧ peer ≠ id := by
  have hpeer : record.peerOf id = some peer := (Option.filter_eq_some_iff.mp h).1
  unfold LinkRecord.peerOf at hpeer
  split at hpeer
  · rename_i hid
    obtain rfl := Option.some.inj hpeer
    exact ⟨ends.right, fun heq => ends.ne (hid.symm.trans heq.symm)⟩
  split at hpeer
  · rename_i hid
    obtain rfl := Option.some.inj hpeer
    exact ⟨ends.left, fun heq => ends.ne (heq.trans hid)⟩
  · cases hpeer

theorem goLink_validate {link : ConfigLink F} (hrecord : record ∈ linkRecords P dir)
    (hvalid : ValidLink P L record) (h : configLink P dir N id record = .ok found)
    (hlink : link ∈ found) : (goLink link).validate L (utf8 id) = .ok () := by
  rcases configLink_ok h with ⟨_, rfl⟩ | ⟨peer, port, cost, hpeer, hport, rfl⟩
  · cases hlink
  obtain rfl := List.mem_singleton.mp hlink
  have ends := linkEnds_of_mem hrecord
  obtain ⟨⟨hstrip, hne⟩, hother⟩ := peerOf_ends ends hpeer
  obtain ⟨port', hport', hlow, hhigh⟩ := hvalid.port
  rw [hport'] at hport
  obtain rfl : port' = port := Except.ok.inj hport
  refine linkValidate_ok ?_ (trimSpace_utf8_ne hstrip hne) (fun heq => hother (utf8_injective heq))
    hvalid.key hlow hhigh
  show Routed.trimSpace (utf8 record.id) ≠ []
  rw [ends.id]
  exact trimSpace_utf8_ne (strip_digest _ _) (digest_ne_nil _ (by omega))

theorem cidr_of_routeRecord {route : RouteRecord} (h : route ∈ routeRecords P dir) :
    ∃ c : Cidr 32, route.cidr = networkText c ∧ c.bits ≠ 0 := by
  obtain ⟨record, _, hrecord⟩ := List.mem_filterMap.mp h
  unfold routeRecord at hrecord
  split at hrecord
  · cases hrecord
  rename_i network _
  split at hrecord
  · cases hrecord
  rename_i hgood
  obtain rfl := Option.some.inj hrecord
  exact ⟨Cidr.ofPrefix network, rfl, (not_or.mp hgood).1⟩

theorem goPath_validate {path : TopologyPath F} {source : Str} {route : RouteRecord}
    (o : Origin P dir now path source route) (hne : source ≠ route.owner) :
    (goPath path).validate L = .ok () := by
  obtain ⟨hstrip, howner⟩ := owner_of_routeRecord o.listed
  obtain ⟨c, hcidr, hbits⟩ := cidr_of_routeRecord o.listed
  have hhops := o.way.known (known_of_public o.starts)
  have hlength : (path.hops.map utf8).length = path.hops.length := List.length_map ..
  have htwo : 2 ≤ path.hops.length := by
    -- one hop would be the start and the owner at once
    by_contra hshort
    have hhead := o.way.head
    have hlast := o.way.last
    match hlist : path.hops with
    | [] => rw [hlist] at hhead; cases hhead
    | [hop] =>
      rw [hlist] at hhead hlast
      exact hne ((Option.some.inj hhead).symm.trans (Option.some.inj hlast))
    | _ :: _ :: _ => rw [hlist] at hshort; exact hshort (by simp)
  have hbound : path.hops.length ≤ 3 := o.way.short
  have hid : Routed.trimSpace (utf8 path.id) ≠ [] := by
    rw [o.id]
    exact trimSpace_utf8_ne (strip_digest _ _) (digest_ne_nil _ (by omega))
  have hloop : Routed.validateHops (utf8 path.id) [] (path.hops.map utf8) = .ok () := by
    refine validateHops_ok (fun hop hmem => ?_) (o.way.nodup.map utf8_injective)
      fun _ _ => List.not_mem_nil
    obtain ⟨text, htext, rfl⟩ := List.mem_map.mp hmem
    obtain ⟨hstripped, hnonempty⟩ := strip_of_known (hhops text htext)
    exact ⟨trimSpace_utf8 hstripped, fun hnil => hnonempty (utf8_eq_nil.mp hnil)⟩
  refine pathValidate_ok (q := c.toPrefix) hid ?_ (hlength ▸ htwo)
    (hlength ▸ hbound) hloop ?_ ?_ hbits
  · show Routed.trimSpace (utf8 path.owner) ≠ []
    rw [o.owner]
    exact trimSpace_utf8_ne hstrip howner
  · show (path.hops.map utf8).getLast? = some (utf8 path.owner)
    rw [List.getLast?_map, o.way.last, o.owner]
    rfl
  · show Routed.parsePrefix (utf8 path.cidr) = some c.toPrefix
    rw [o.cidr, hcidr, parsePrefix_utf8]

theorem Issue.peers_perm {config : NodeConfig F} (I : Issue P dir N now id config) :
    ((goConfig config).links.map (·.peerNodeID)).Perm
      (((linkRecords P dir).filterMap (knownPeer P dir id)).map utf8) := by
  have hlinks : config.links = sortedLinks I.links := congrArg NodeConfig.links I.config_eq
  have hperm : (sortedLinks I.links).Perm I.links := List.perm_insertionSort _ _
  have hmap : (goConfig config).links.map (·.peerNodeID) =
      ((sortedLinks I.links).map ConfigLink.peer).map utf8 := by
    rw [← hlinks, List.map_map]
    exact List.map_map
  rw [hmap, ← configLinks_peers I.links_eq]
  exact (hperm.map ConfigLink.peer).map utf8

/-- **What a Node can refuse**: two links to one peer, and nothing else. -/
theorem Issue.validate_iff {config : NodeConfig F} (I : Issue P dir N now id config)
    (hlinks : ∀ record ∈ linkRecords P dir, ValidLink P L record) :
    (goConfig config).validate L (utf8 id) = .ok () ↔
      ((linkRecords P dir).filterMap (knownPeer P dir id)).Nodup := by
  have hconfigLinks : config.links = sortedLinks I.links := congrArg NodeConfig.links I.config_eq
  have hperm : (sortedLinks I.links).Perm I.links := List.perm_insertionSort _ _
  have hroutes : Routed.validateRoutes L (goConfig config).routes = .ok () := by
    refine validateRoutes_ok fun route hmem => ?_
    obtain ⟨pair, hpair, rfl⟩ := List.mem_map.mp hmem
    rw [I.config_eq] at hpair
    obtain ⟨record, hrecord, rfl⟩ := List.mem_map.mp hpair
    obtain ⟨hstrip, howner⟩ := owner_of_routeRecord hrecord
    obtain ⟨c, hcidr, hbits⟩ := cidr_of_routeRecord hrecord
    refine ⟨⟨c.toPrefix, ?_, hbits⟩, trimSpace_utf8_ne hstrip howner⟩
    show Routed.parsePrefix (utf8 record.cidr) = _
    rw [hcidr, parsePrefix_utf8]
  have hpaths : Routed.validatePaths L ((goConfig config).paths ++ (goConfig config).transitPaths) =
      .ok () := by
    refine validatePaths_ok fun path hmem => ?_
    have hmap : (goConfig config).paths ++ (goConfig config).transitPaths =
        (config.paths ++ config.transitPaths).map goPath := List.map_append.symm
    rw [hmap] at hmem
    obtain ⟨path, hpath, rfl⟩ := List.mem_map.mp hmem
    obtain ⟨source, route, o⟩ := I.origin hpath
    exact goPath_validate o (I.candidates_returned o.listed o.starts).1
  have hoverlay : ¬ ((goConfig config).overlaySubnet ≠ [] ∧
      Routed.parsePrefix (goConfig config).overlaySubnet = none) := by
    have heq : (goConfig config).overlaySubnet = utf8 (overlaySubnet P dir) :=
      congrArg (fun c : NodeConfig F => utf8 c.overlaySubnet) I.config_eq
    rw [heq]
    unfold overlaySubnet
    dsimp only
    split
    · rw [parsePrefix_utf8]
      exact fun h => by cases h.2
    · exact fun h => h.1 rfl
  have hvalid : ∀ link ∈ (goConfig config).links, link.validate L (utf8 id) = .ok () := by
    intro link hmem
    obtain ⟨link, hlink, rfl⟩ := List.mem_map.mp hmem
    rw [hconfigLinks, hperm.mem_iff] at hlink
    obtain ⟨record, hrecord, found, hfound, hmem⟩ := (Checked.mem_collect I.links_eq).mp hlink
    exact goLink_validate hrecord (hlinks record hrecord) hfound hmem
  have hpeers : ((goConfig config).links.map (·.peerNodeID)).Nodup ↔
      ((linkRecords P dir).filterMap (knownPeer P dir id)).Nodup := by
    rw [I.peers_perm.nodup_iff, List.nodup_map_iff utf8_injective]
  rw [← hpeers]
  have hport : ¬ (Routed.orDefaultPort (goConfig config).listenPort < 1024 ∨
      65535 < Routed.orDefaultPort (goConfig config).listenPort) := by
    show ¬ (Routed.orDefaultPort routedMeshPort < 1024 ∨
      65535 < Routed.orDefaultPort routedMeshPort)
    decide
  unfold Routed.RoutingConfig.validate
  rw [if_neg (show ¬ (goConfig config).version = 0 from fun h => by cases h), if_neg hport,
    if_neg hoverlay]
  constructor
  · intro h
    split at h
    · cases h
    rename_i hok
    exact (validateLinks_iff.mp hok).2.1
  · intro hnodup
    rw [validateLinks_iff.mpr ⟨hvalid, hnodup, fun _ _ => List.not_mem_nil⟩]
    dsimp only
    rw [hroutes]
    exact hpaths

end Acceptance

end Bpc.Deploy

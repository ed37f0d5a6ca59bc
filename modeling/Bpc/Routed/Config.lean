/-
  ROUTING CONFIGURATIONS — `config.go`: what a Node accepts from the Controller, and the three
  look-ups.

  A Go string is a list of BYTES.  `GoLib` is what the code takes from outside; `sort.Slice` is NOT
  stable. `RouteFor` returns a longest matching route (`routeFor_longest`).
-/
import Bpc.Lib.Prefix4
import Mathlib

namespace Bpc.Routed

open Bpc.SlashPath (Str)

/-! ## Strings -/

/-- A Go `string`. -/
abbrev GoString := List UInt8

/-- Named once, for the tests and maps over strings. -/
instance : LawfulBEq GoString := inferInstance

/-- The bytes of an ASCII text. -/
def ascii (s : Str) : GoString := s.map fun c => c.toNat.toUInt8

/-- The UTF-8 forms of the runes for which `unicode.IsSpace` holds. -/
def spaces : List GoString :=
  [[0x09], [0x0a], [0x0b], [0x0c], [0x0d], [0x20], [0xc2, 0x85], [0xc2, 0xa0],
    [0xe1, 0x9a, 0x80]] ++
    ((List.range 11).map fun i => [0xe2, 0x80, 0x80 + i.toUInt8]) ++
    [[0xe2, 0x80, 0xa8], [0xe2, 0x80, 0xa9], [0xe2, 0x80, 0xaf], [0xe2, 0x81, 0x9f],
      [0xe3, 0x80, 0x80]]

/-- Remove words from the front, at most `fuel` times. -/
def trimFront (words : List GoString) : Nat → GoString → GoString
  | 0, s => s
  | fuel + 1, s =>
    match words.find? fun w => w.isPrefixOf s with
    | some w => trimFront words fuel (s.drop w.length)
    | none => s

/-- `strings.TrimSpace`. -/
def trimSpace (s : GoString) : GoString :=
  let left := trimFront spaces s.length s
  (trimFront (spaces.map List.reverse) left.length left.reverse).reverse

/-- `netip.ParsePrefix`, of the prefixes for which `Addr().Is4()` holds. -/
def parsePrefix (s : GoString) : Option Prefix4 :=
  Prefix4.parse (s.map fun b => Char.ofNat b.toNat)

/-! ## The library -/

/-- What the code takes from outside. -/
structure GoLib (F : Type) where
  /-- `base64.StdEncoding.DecodeString`. -/
  decodeBase64 : GoString → Option GoString
  /-- `%q`. -/
  quote : GoString → GoString
  ofNat : Nat → F
  add : F → F → F
  sub : F → F → F
  mul : F → F → F
  lt : F → F → Bool
  eq : F → F → Bool
  /-- `sort.Slice`. -/
  sortSlice : {α : Type} → (α → α → Bool) → List α → List α
  sortSlice_perm : ∀ {α : Type} (less : α → α → Bool) (l : List α), (sortSlice less l).Perm l
  /-- Sorted, if the comparison is by a number. -/
  sortSlice_sorted : ∀ {α : Type} (key : α → Nat) (l : List α),
    (sortSlice (fun a b => decide (key b < key a)) l).Pairwise fun a b => key b ≤ key a

/-! ## Data -/

/-- `MaxPathHops`. -/
def maxPathHops : Nat := 3

/-- `DefaultMeshPort`. -/
def defaultMeshPort : Int := 24446

/-- `LinkConfig`. -/
structure LinkConfig where
  id : GoString
  peerNodeID : GoString
  psk : GoString
  port : Int
  deriving DecidableEq

/-- `Path`. -/
structure Path (F : Type) where
  id : GoString
  ownerNodeID : GoString
  cidr : GoString
  hops : List GoString
  health : GoString
  rttMS : F
  lossPercent : F
  cost : F
  score : F
  deriving DecidableEq

/-- `Route`. -/
structure Route where
  cidr : GoString
  ownerNodeID : GoString
  deriving DecidableEq

/-- `RoutingConfig`. -/
structure RoutingConfig (F : Type) where
  policyExpiresAt : Int
  version : Int
  listenPort : Int
  overlaySubnet : GoString
  localPublic : Bool
  localSiteRouter : Bool
  links : List LinkConfig
  paths : List (Path F)
  transitPaths : List (Path F)
  routes : List Route

variable {F : Type} (L : GoLib F)

/-! ## Validation -/

/-- `if port == 0 { port = DefaultMeshPort }`. -/
def orDefaultPort (port : Int) : Int := if port = 0 then defaultMeshPort else port

/-- The number that `%d` prints. -/
def decimal (n : Int) : GoString := ascii (toString n).toList

/-- The checks of a link. -/
def LinkConfig.validate (l : LinkConfig) (localNodeID : GoString) : Except GoString Unit :=
  if trimSpace l.id = [] then .error (ascii "routed link has no id")
  else if trimSpace l.peerNodeID = [] ∨ l.peerNodeID = localNodeID then
    .error (ascii "invalid routed link peer " ++ L.quote l.peerNodeID)
  else if (L.decodeBase64 (trimSpace l.psk)).map List.length ≠ some 32 then
    .error (ascii "link " ++ l.id ++ ascii " has invalid PSK")
  else if orDefaultPort l.port < 1024 ∨ 65535 < orDefaultPort l.port then
    .error (ascii "link " ++ l.id ++ ascii " has invalid port " ++ decimal (orDefaultPort l.port))
  else .ok ()

/-- The loop over the hops, with the trimmed hops seen so far. -/
def validateHops (id : GoString) : List GoString → List GoString → Except GoString Unit
  | _, [] => .ok ()
  | seen, hop :: hops =>
    if trimSpace hop = [] then .error (ascii "route path " ++ id ++ ascii " has an empty hop")
    else if trimSpace hop ∈ seen then .error (ascii "route path " ++ id ++ ascii " contains a loop")
    else validateHops id (trimSpace hop :: seen) hops

/-- The checks of a path. -/
def Path.validate (p : Path F) : Except GoString Unit :=
  if trimSpace p.id = [] then .error (ascii "route path has no id")
  else if trimSpace p.ownerNodeID = [] then
    .error (ascii "route path " ++ p.id ++ ascii " has no owner")
  else if p.hops.length < 2 ∨ maxPathHops < p.hops.length then
    .error (ascii "route path " ++ p.id ++ ascii " has invalid hop count " ++ decimal p.hops.length)
  else
    match validateHops p.id [] p.hops with
    | .error e => .error e
    | .ok () =>
      if p.hops.getLast? ≠ some p.ownerNodeID then
        .error (ascii "route path " ++ p.id ++ ascii " does not terminate at its owner")
      else if (parsePrefix p.cidr).all fun q => q.bits = 0 then
        .error (ascii "route path " ++ p.id ++ ascii " has invalid CIDR " ++ L.quote p.cidr)
      else .ok ()

/-- `Route.Prefix`. -/
def Route.prefix4 (r : Route) : Except GoString Prefix4 :=
  match parsePrefix r.cidr with
  | none => .error (ascii "invalid owned route " ++ L.quote r.cidr)
  | some q =>
    if q.bits = 0 then .error (ascii "invalid owned route " ++ L.quote r.cidr) else .ok q.masked

/-- The loop over the links, with the peers seen so far. -/
def validateLinks (localNodeID : GoString) :
    List GoString → List LinkConfig → Except GoString Unit
  | _, [] => .ok ()
  | seen, link :: links =>
    match link.validate L localNodeID with
    | .error e => .error e
    | .ok () =>
      if link.peerNodeID ∈ seen then
        .error (ascii "duplicate routed link peer " ++ L.quote link.peerNodeID)
      else validateLinks localNodeID (link.peerNodeID :: seen) links

/-- The loop over the routes. -/
def validateRoutes : List Route → Except GoString Unit
  | [] => .ok ()
  | route :: routes =>
    match route.prefix4 L with
    | .error e => .error e
    | .ok _ =>
      if trimSpace route.ownerNodeID = [] then
        .error (ascii "route " ++ L.quote route.cidr ++ ascii " has no owner")
      else validateRoutes routes

/-- The loop over the paths. -/
def validatePaths : List (Path F) → Except GoString Unit
  | [] => .ok ()
  | path :: paths =>
    match path.validate L with
    | .error e => .error e
    | .ok () => validatePaths paths

/-- `Validate`. -/
def RoutingConfig.validate (c : RoutingConfig F) (localNodeID : GoString) : Except GoString Unit :=
  if c.version = 0 then .error (ascii "routed mesh is not configured")
  else if orDefaultPort c.listenPort < 1024 ∨ 65535 < orDefaultPort c.listenPort then
    .error (ascii "invalid routed mesh listen port " ++ decimal (orDefaultPort c.listenPort))
  else if c.overlaySubnet ≠ [] ∧ parsePrefix c.overlaySubnet = none then
    .error (ascii "invalid overlay subnet " ++ L.quote c.overlaySubnet)
  else
    match validateLinks L localNodeID [] c.links with
    | .error e => .error e
    | .ok () =>
      match validateRoutes L c.routes with
      | .error e => .error e
      | .ok () => validatePaths L (c.paths ++ c.transitPaths)

/-! ## Look-ups -/

/-- `PolicyValid`: zero means no deadline. -/
def RoutingConfig.policyValid (c : RoutingConfig F) (unix : Int) : Bool :=
  c.policyExpiresAt = 0 || unix < c.policyExpiresAt

/-- The routes that contain an address, with their prefixes. -/
def RoutingConfig.matching (c : RoutingConfig F) (addr : Nat) : List (Route × Prefix4) :=
  c.routes.filterMap fun route =>
    match route.prefix4 L with
    | .error _ => none
    | .ok q => if q.contains addr then some (route, q) else none

/-- `RouteFor`. -/
def RoutingConfig.routeFor (c : RoutingConfig F) (addr : Nat) : Option Route :=
  ((L.sortSlice (fun a b => decide (b.2.bits < a.2.bits)) (c.matching L addr)).head?).map Prod.fst

/-- `SourcePaths`. -/
def RoutingConfig.sourcePaths (c : RoutingConfig F) (localNodeID : GoString) (route : Route) :
    List (Path F) :=
  L.sortSlice
    (fun a b => if L.eq a.score b.score then decide (a.id < b.id) else L.lt a.score b.score)
    (c.paths.filter fun path =>
      2 ≤ path.hops.length && path.hops.head? = some localNodeID &&
        path.ownerNodeID = route.ownerNodeID && path.cidr = route.cidr)

/-- `TransitPath`: the first with the id. -/
def RoutingConfig.transitPath (c : RoutingConfig F) (pathID : GoString) : Option (Path F) :=
  c.transitPaths.find? fun path => path.id = pathID

/-! ## Longest prefixes -/

/-- The longest route of the configuration that contains the address. -/
structure RoutingConfig.Longest (c : RoutingConfig F) (addr : Nat) (route : Route) : Prop where
  mem : route ∈ c.routes
  contains : ∃ q, route.prefix4 L = .ok q ∧ q.contains addr = true ∧
    ∀ other ∈ c.routes, ∀ q', other.prefix4 L = .ok q' → q'.contains addr = true → q'.bits ≤ q.bits

variable {L}

theorem RoutingConfig.mem_matching {c : RoutingConfig F} {addr : Nat} {m : Route × Prefix4} :
    m ∈ c.matching L addr ↔
      m.1 ∈ c.routes ∧ m.1.prefix4 L = .ok m.2 ∧ m.2.contains addr = true := by
  unfold RoutingConfig.matching
  rw [List.mem_filterMap]
  constructor
  · rintro ⟨route, hroute, hm⟩
    split at hm
    · cases hm
    rename_i q hq
    split at hm
    · rename_i hcontains
      obtain rfl := Option.some.inj hm
      exact ⟨hroute, hq, hcontains⟩
    · cases hm
  · rintro ⟨hroute, hq, hcontains⟩
    refine ⟨m.1, hroute, ?_⟩
    rw [hq]
    dsimp only
    rw [if_pos hcontains]

/-- **`RouteFor` returns a longest matching route.** -/
theorem RoutingConfig.routeFor_longest {c : RoutingConfig F} {addr : Nat} {route : Route}
    (h : c.routeFor L addr = some route) : c.Longest L addr route := by
  unfold RoutingConfig.routeFor at h
  obtain ⟨m, hhead, rfl⟩ := Option.map_eq_some_iff.mp h
  have hperm := L.sortSlice_perm (fun a b => decide (b.2.bits < a.2.bits)) (c.matching L addr)
  have hsorted := L.sortSlice_sorted (fun m : Route × Prefix4 => m.2.bits) (c.matching L addr)
  have hmem : m ∈ c.matching L addr := hperm.mem_iff.mp (List.mem_of_mem_head? hhead)
  obtain ⟨hroute, hq, hcontains⟩ := mem_matching.mp hmem
  refine ⟨hroute, m.2, hq, hcontains, fun other hother q' hq' hcontains' => ?_⟩
  have hother' : (other, q') ∈ L.sortSlice (fun a b => decide (b.2.bits < a.2.bits))
      (c.matching L addr) := hperm.mem_iff.mpr (mem_matching.mpr ⟨hother, hq', hcontains'⟩)
  -- the head is at least as long as everything behind it
  cases hlist : L.sortSlice (fun a b => decide (b.2.bits < a.2.bits)) (c.matching L addr) with
  | nil =>
    rw [hlist] at hhead
    cases hhead
  | cons first rest =>
    rw [hlist] at hhead hother' hsorted
    obtain rfl := Option.some.inj hhead
    rcases List.mem_cons.mp hother' with heq | hrest
    · rw [← heq]
    · exact (List.pairwise_cons.mp hsorted).1 _ hrest

theorem RoutingConfig.mem_of_transitPath {c : RoutingConfig F} {pathID : GoString} {p : Path F}
    (h : c.transitPath pathID = some p) : p ∈ c.transitPaths ∧ p.id = pathID :=
  ⟨List.mem_of_find?_eq_some h, by simpa using List.find?_some h⟩

/-! ## Blank texts -/

theorem trimFront_spec (words : List GoString) (fuel : Nat) (s : GoString) :
    ∃ front, s = front ++ trimFront words fuel s ∧ ∀ b ∈ front, b ∈ words.flatten := by
  induction fuel generalizing s with
  | zero => exact ⟨[], rfl, fun b hb => by cases hb⟩
  | succ fuel ih =>
    rw [trimFront]
    split
    · rename_i w hw
      have hmem : w ∈ words := List.mem_of_find?_eq_some hw
      have hfound := List.find?_some hw
      obtain ⟨rest, rfl⟩ : w <+: s := by simpa using hfound
      rw [List.drop_left]
      obtain ⟨front, hfront, hblank⟩ := ih rest
      refine ⟨w ++ front, ?_, fun b hb => ?_⟩
      · rw [List.append_assoc, ← hfront]
      · rcases List.mem_append.mp hb with hb | hb
        · exact List.mem_flatten.mpr ⟨w, hmem, hb⟩
        · exact hblank b hb
    · exact ⟨[], rfl, fun b hb => by cases hb⟩

theorem blank_of_trimSpace {s : GoString} (h : trimSpace s = []) : ∀ b ∈ s, b ∈ spaces.flatten := by
  obtain ⟨front, hfront, hleft⟩ := trimFront_spec spaces s.length s
  unfold trimSpace at h
  dsimp only at h
  generalize trimFront spaces s.length s = left at hfront h
  obtain ⟨back, hback, hright⟩ := trimFront_spec (spaces.map List.reverse) left.length left.reverse
  rw [List.reverse_eq_nil_iff.mp h, List.append_nil] at hback
  intro b hb
  rw [hfront] at hb
  rcases List.mem_append.mp hb with hb | hb
  · exact hleft b hb
  · have hb' : b ∈ (spaces.map List.reverse).flatten := hright b (hback ▸ List.mem_reverse.mpr hb)
    obtain ⟨w', hw', hmem⟩ := List.mem_flatten.mp hb'
    obtain ⟨w, hw, rfl⟩ := List.mem_map.mp hw'
    exact List.mem_flatten.mpr ⟨w, hw, List.mem_reverse.mp hmem⟩

/-- **A prefix is not blank**: it has a slash. -/
theorem trimSpace_ne_nil {s : GoString} {p : Prefix4} (h : parsePrefix s = some p) :
    trimSpace s ≠ [] := by
  intro hblank
  have hslash : '/' ∉ s.map fun b => Char.ofNat b.toNat := by
    intro hmem
    obtain ⟨b, hb, heq⟩ := List.mem_map.mp hmem
    have hall : ∀ b ∈ spaces.flatten, Char.ofNat b.toNat ≠ '/' := by decide +kernel
    exact hall b (blank_of_trimSpace hblank b hb) heq
  have hsplit : (SlashPath.join [s.map fun b => Char.ofNat b.toNat]).splitOn '/' =
      [s.map fun b => Char.ofNat b.toNat] :=
    SlashPath.splitOn_join (List.cons_ne_nil _ _) fun n hn => by
      rw [List.mem_singleton.mp hn]
      exact hslash
  unfold parsePrefix Prefix4.parse at h
  have hjoin : SlashPath.join [s.map fun b => Char.ofNat b.toNat] =
    s.map fun b => Char.ofNat b.toNat := by simp [SlashPath.join]
  rw [hjoin] at hsplit
  rw [hsplit] at h
  cases h

end Bpc.Routed

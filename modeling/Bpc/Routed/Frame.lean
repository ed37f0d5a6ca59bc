/-
  ROUTED FRAMES — `frame.go`: the binary form of a frame, and what a Node checks before it acts on
  one.

  The parser carries the bytes that REMAIN (`Routed/FrameBytes` has the offsets).  A frame is read
  back as it was written (`unmarshalFrame_marshal`); `Accepted` is what an accepted frame shows.
-/
import Bpc.Routed.Config

namespace Bpc.Routed

open Bpc.SlashPath (Str)

/-! ## Frames -/

/-- `Frame`. -/
structure Frame where
  pathID : GoString
  ownerNodeID : GoString
  hops : List GoString
  hopIndex : Nat
  isReturn : Bool
  payload : List UInt8
  deriving DecidableEq

/-- The loop over the hops of a frame, with those seen so far. -/
def checkHops : List GoString → List GoString → Except GoString Unit
  | _, [] => .ok ()
  | seen, hop :: hops =>
    if hop.length = 0 ∨ 128 < hop.length then .error (ascii "invalid hop id")
    else if hop ∈ seen then .error (ascii "routing loop detected in hop list")
    else checkHops (hop :: seen) hops

/-- `ValidateBasic`. -/
def Frame.validateBasic (f : Frame) : Except GoString Unit :=
  if f.pathID.length = 0 ∨ 64 < f.pathID.length then .error (ascii "invalid path id length")
  else if f.ownerNodeID.length = 0 ∨ 128 < f.ownerNodeID.length then
    .error (ascii "invalid route owner id")
  else if f.hops.length < 2 ∨ maxPathHops < f.hops.length then
    .error (ascii "invalid hop count " ++ decimal f.hops.length)
  else if f.hopIndex = 0 ∨ f.hops.length ≤ f.hopIndex then
    .error (ascii "invalid receiving hop index " ++ decimal f.hopIndex)
  else
    match checkHops [] f.hops with
    | .error e => .error e
    | .ok () =>
      if f.isReturn ∧ f.hops.head? ≠ some f.ownerNodeID then
        .error (ascii "return path does not originate at route owner")
      else if ¬ f.isReturn ∧ f.hops.getLast? ≠ some f.ownerNodeID then
        .error (ascii "forward path does not terminate at route owner")
      else if f.payload.length = 0 ∨ 65535 < f.payload.length then
        .error (ascii "invalid inner packet length " ++ decimal f.payload.length)
      else .ok ()

/-- The first four bytes. -/
def frameMagic : List UInt8 := ascii "BPR1"

/-- A text with its length. -/
def marshalText (s : GoString) : List UInt8 := s.length.toUInt8 :: s

/-- `MarshalFrame`. -/
def marshalFrame (f : Frame) : Except GoString (List UInt8) :=
  match f.validateBasic with
  | .error e => .error e
  | .ok () => .ok (frameMagic ++ (if f.isReturn then 1 else 0) :: f.hopIndex.toUInt8 ::
      f.hops.length.toUInt8 :: marshalText f.pathID ++ marshalText f.ownerNodeID ++
      (f.hops.map marshalText).flatten ++
      (f.payload.length / 256).toUInt8 :: (f.payload.length % 256).toUInt8 :: f.payload)

/-- The loop that reads the hops. -/
def readHops : Nat → List UInt8 → Except GoString (List GoString × List UInt8)
  | 0, rest => .ok ([], rest)
  | _ + 1, [] => .error (ascii "truncated routed frame hop")
  | count + 1, length :: rest =>
    if length.toNat = 0 ∨ 128 < length.toNat ∨ rest.length < length.toNat then
      .error (ascii "invalid routed frame hop")
    else
      match readHops count (rest.drop length.toNat) with
      | .error e => .error e
      | .ok (hops, rest') => .ok (rest.take length.toNat :: hops, rest')

/-- The payload, and the frame of all parts. -/
def readPayload (flags hopIndex : UInt8) (pathID owner : GoString) (hops : List GoString) :
    List UInt8 → Except GoString Frame
  | high :: low :: payload =>
    if high.toNat * 256 + low.toNat = 0 ∨ payload.length ≠ high.toNat * 256 + low.toNat then
      .error (ascii "invalid routed frame payload length")
    else if flags &&& ~~~1 ≠ 0 then .error (ascii "unsupported routed frame flags")
    else
      let frame : Frame := ⟨pathID, owner, hops, hopIndex.toNat, flags &&& 1 ≠ 0, payload⟩
      match frame.validateBasic with
      | .error e => .error e
      | .ok () => .ok frame
  | _ => .error (ascii "truncated routed frame payload length")

/-- The owner, and the rest. -/
def readOwner (flags hopIndex hopCount : UInt8) (pathID : GoString) :
    List UInt8 → Except GoString Frame
  | ownerLen :: rest =>
    if ownerLen.toNat = 0 ∨ 128 < ownerLen.toNat ∨ rest.length < ownerLen.toNat then
      .error (ascii "invalid routed frame owner")
    else if hopCount.toNat < 2 ∨ maxPathHops < hopCount.toNat then
      .error (ascii "invalid routed frame hop count")
    else
      match readHops hopCount.toNat (rest.drop ownerLen.toNat) with
      | .error e => .error e
      | .ok (hops, rest') =>
        readPayload flags hopIndex pathID (rest.take ownerLen.toNat) hops rest'
  | [] => .error (ascii "invalid routed frame path id")

/-- `UnmarshalFrame`. -/
def unmarshalFrame (raw : List UInt8) : Except GoString Frame :=
  if raw.length < 12 ∨ raw.take 4 ≠ frameMagic then .error (ascii "invalid routed frame header")
  else
    match raw.drop 4 with
    | flags :: hopIndex :: hopCount :: pathLen :: rest =>
      if pathLen.toNat = 0 ∨ 64 < pathLen.toNat ∨ rest.length < pathLen.toNat + 1 then
        .error (ascii "invalid routed frame path id")
      else readOwner flags hopIndex hopCount (rest.take pathLen.toNat) (rest.drop pathLen.toNat)
    | _ => .error (ascii "invalid routed frame header")

/-! ## What a checked frame is -/

/-- What `ValidateBasic` checks. -/
structure Frame.Basic (f : Frame) : Prop where
  pathID : 0 < f.pathID.length ∧ f.pathID.length ≤ 64
  owner : 0 < f.ownerNodeID.length ∧ f.ownerNodeID.length ≤ 128
  count : 2 ≤ f.hops.length ∧ f.hops.length ≤ maxPathHops
  index : 0 < f.hopIndex ∧ f.hopIndex < f.hops.length
  hops : ∀ hop ∈ f.hops, 0 < hop.length ∧ hop.length ≤ 128
  nodup : f.hops.Nodup
  origin : f.isReturn = true → f.hops.head? = some f.ownerNodeID
  target : f.isReturn = false → f.hops.getLast? = some f.ownerNodeID
  payload : 0 < f.payload.length ∧ f.payload.length ≤ 65535

theorem checkHops_iff {seen hops : List GoString} : checkHops seen hops = .ok () ↔
    (∀ hop ∈ hops, 0 < hop.length ∧ hop.length ≤ 128) ∧ hops.Nodup ∧ ∀ hop ∈ hops, hop ∉ seen := by
  induction hops generalizing seen with
  | nil => simp [checkHops]
  | cons hop hops ih =>
    rw [checkHops]
    by_cases hlen : hop.length = 0 ∨ 128 < hop.length
    · rw [if_pos hlen]
      refine ⟨(fun h => by cases h), fun h => ?_⟩
      have := h.1 hop List.mem_cons_self
      omega
    rw [if_neg hlen]
    by_cases hseen : hop ∈ seen
    · rw [if_pos hseen]
      exact ⟨(fun h => by cases h), fun h => absurd hseen (h.2.2 hop List.mem_cons_self)⟩
    rw [if_neg hseen, ih]
    constructor
    · rintro ⟨hlens, hnodup, hfresh⟩
      refine ⟨?_, ?_, ?_⟩
      · intro other hother
        rcases List.mem_cons.mp hother with rfl | hother
        · omega
        · exact hlens other hother
      · exact List.nodup_cons.mpr ⟨fun hmem => hfresh hop hmem List.mem_cons_self, hnodup⟩
      · intro other hother
        rcases List.mem_cons.mp hother with rfl | hother
        · exact hseen
        · exact fun hmem => hfresh other hother (List.mem_cons_of_mem _ hmem)
    · rintro ⟨hlens, hnodup, hfresh⟩
      obtain ⟨hnot, hnodup⟩ := List.nodup_cons.mp hnodup
      refine ⟨fun other hother => hlens other (List.mem_cons_of_mem _ hother), hnodup, ?_⟩
      intro other hother hmem
      rcases List.mem_cons.mp hmem with rfl | hmem
      · exact hnot hother
      · exact hfresh other (List.mem_cons_of_mem _ hother) hmem

/-- **`ValidateBasic` accepts exactly these frames.** -/
theorem Frame.validateBasic_iff {f : Frame} : f.validateBasic = .ok () ↔ f.Basic := by
  unfold Frame.validateBasic
  constructor
  · intro h
    split at h
    · cases h
    split at h
    · cases h
    split at h
    · cases h
    split at h
    · cases h
    split at h
    · cases h
    rename_i hhops
    split at h
    · cases h
    rename_i horigin
    split at h
    · cases h
    rename_i htarget
    split at h
    · cases h
    obtain ⟨hlens, hnodup, _⟩ := checkHops_iff.mp hhops
    refine ⟨by omega, by omega, by omega, by omega, hlens, hnodup, fun hr => ?_,
      fun hr => ?_, by omega⟩
    · by_contra hne
      exact horigin ⟨hr, hne⟩
    · by_contra hne
      exact htarget ⟨by simp [hr], hne⟩
  · intro h
    have hhops : checkHops [] f.hops = .ok () :=
      checkHops_iff.mpr ⟨h.hops, h.nodup, fun _ _ => List.not_mem_nil⟩
    have horigin : ¬ (f.isReturn = true ∧ f.hops.head? ≠ some f.ownerNodeID) :=
      fun hne => hne.2 (h.origin hne.1)
    have htarget : ¬ (¬ f.isReturn = true ∧ f.hops.getLast? ≠ some f.ownerNodeID) :=
      fun hne => hne.2 (h.target (by simpa using hne.1))
    have hpath := h.pathID
    have howner := h.owner
    have hcount := h.count
    have hindex := h.index
    have hpayload := h.payload
    rw [if_neg (by omega), if_neg (by omega), if_neg (by omega), if_neg (by omega), hhops]
    dsimp only
    rw [if_neg horigin, if_neg htarget, if_neg (by omega)]

theorem Frame.Basic.withIndex {f : Frame} (h : f.Basic) {j : Nat} (hpos : 0 < j)
    (hlt : j < f.hops.length) : { f with hopIndex := j }.Basic :=
  { h with index := ⟨hpos, hlt⟩ }

theorem readPayload_basic {flags hopIndex : UInt8} {pathID owner : GoString} {hops : List GoString}
    {rest : List UInt8} {f : Frame}
    (h : readPayload flags hopIndex pathID owner hops rest = .ok f) :
    f.Basic := by
  unfold readPayload at h
  split at h
  · split at h
    · cases h
    split at h
    · cases h
    dsimp only at h
    split at h
    · cases h
    rename_i hbasic
    obtain rfl := Except.ok.inj h
    exact Frame.validateBasic_iff.mp hbasic
  · cases h

/-- **What is read is checked.** -/
theorem unmarshalFrame_basic {raw : List UInt8} {f : Frame} (h : unmarshalFrame raw = .ok f) :
    f.Basic := by
  unfold unmarshalFrame at h
  split at h
  · cases h
  split at h
  · split at h
    · cases h
    unfold readOwner at h
    split at h
    · split at h
      · cases h
      split at h
      · cases h
      split at h
      · cases h
      exact readPayload_basic h
    · cases h
  · cases h

/-! ## Round trip -/

theorem toNat_toUInt8 {n : Nat} (h : n < 256) : n.toUInt8.toNat = n := by
  simp only [Nat.toUInt8_eq, UInt8.toNat_ofNat']
  omega

theorem readHops_marshal {hops : List GoString} (rest : List UInt8)
    (h : ∀ hop ∈ hops, 0 < hop.length ∧ hop.length ≤ 128) :
    readHops hops.length ((hops.map marshalText).flatten ++ rest) = .ok (hops, rest) := by
  induction hops with
  | nil => rfl
  | cons hop hops ih =>
    have hlen := h hop List.mem_cons_self
    have hbyte : hop.length.toUInt8.toNat = hop.length := toNat_toUInt8 (by omega)
    have hrest := ih fun other hother => h other (List.mem_cons_of_mem _ hother)
    rw [List.length_cons, List.map_cons, List.flatten_cons, List.append_assoc]
    show readHops (hops.length + 1)
      (hop.length.toUInt8 :: (hop ++ ((hops.map marshalText).flatten ++ rest))) = _
    rw [readHops, hbyte, if_neg (by rw [List.length_append]; omega), List.drop_left' rfl, hrest,
      List.take_left' rfl]

/-- **A checked frame is read back as it was written.** -/
theorem unmarshalFrame_marshal {f : Frame} {raw : List UInt8} (h : marshalFrame f = .ok raw) :
    unmarshalFrame raw = .ok f := by
  unfold marshalFrame at h
  split at h
  · cases h
  rename_i hbasic
  have hb := Frame.validateBasic_iff.mp hbasic
  obtain ⟨hpath, howner, hcount, hindex, hhops, _, _, _, hpayload⟩ := hb
  have hmax : maxPathHops = 3 := rfl
  obtain rfl := Except.ok.inj h
  have hpathByte : f.pathID.length.toUInt8.toNat = f.pathID.length := toNat_toUInt8 (by omega)
  have hownerByte : f.ownerNodeID.length.toUInt8.toNat = f.ownerNodeID.length :=
    toNat_toUInt8 (by omega)
  have hcountByte : f.hops.length.toUInt8.toNat = f.hops.length := toNat_toUInt8 (by omega)
  have hindexByte : f.hopIndex.toUInt8.toNat = f.hopIndex := toNat_toUInt8 (by omega)
  have hhigh : (f.payload.length / 256).toUInt8.toNat = f.payload.length / 256 :=
    toNat_toUInt8 (by omega)
  have hlow : (f.payload.length % 256).toUInt8.toNat = f.payload.length % 256 :=
    toNat_toUInt8 (by omega)
  have hlength : (f.payload.length / 256).toUInt8.toNat * 256 +
      (f.payload.length % 256).toUInt8.toNat = f.payload.length := by
    rw [hhigh, hlow]
    omega
  -- the parts behind the hops, the owner and the path id
  generalize htail : (f.payload.length / 256).toUInt8 ::
    (f.payload.length % 256).toUInt8 :: f.payload =
    tail
  have hread : readPayload (if f.isReturn then 1 else 0) f.hopIndex.toUInt8 f.pathID f.ownerNodeID
      f.hops tail = .ok f := by
    have hbit : ∀ b : Bool, decide (((if b then 1 else 0 : UInt8) &&& 1) ≠ 0) = b := by decide
    have hflags : ∀ b : Bool, ¬ ((if b then 1 else 0 : UInt8) &&& ~~~1) ≠ 0 := by decide
    rw [← htail, readPayload, hlength, hindexByte, if_neg (by omega), if_neg (hflags _)]
    dsimp only
    rw [hbit, hbasic]
  have hreadOwner : readOwner (if f.isReturn then 1 else 0) f.hopIndex.toUInt8 f.hops.length.toUInt8
      f.pathID (marshalText f.ownerNodeID ++ ((f.hops.map marshalText).flatten ++ tail)) =
        .ok f := by
    show readOwner _ _ _ _ (f.ownerNodeID.length.toUInt8 ::
      (f.ownerNodeID ++ ((f.hops.map marshalText).flatten ++ tail))) = _
    rw [readOwner, hownerByte, hcountByte, if_neg (by rw [List.length_append]; omega),
      if_neg (by omega), List.drop_left' rfl, readHops_marshal tail hhops, List.take_left' rfl]
    exact hread
  have hshape : frameMagic ++ (if f.isReturn then 1 else 0) :: f.hopIndex.toUInt8 ::
      f.hops.length.toUInt8 :: marshalText f.pathID ++ marshalText f.ownerNodeID ++
      (f.hops.map marshalText).flatten ++ tail =
      frameMagic ++ (if f.isReturn then 1 else 0) :: f.hopIndex.toUInt8 :: f.hops.length.toUInt8 ::
      f.pathID.length.toUInt8 :: (f.pathID ++ (marshalText f.ownerNodeID ++
        ((f.hops.map marshalText).flatten ++ tail))) := by
    simp [marshalText]
  rw [hshape]
  have hmagic : frameMagic.length = 4 := rfl
  have htailLength : 2 ≤ tail.length := by
    rw [← htail]
    simp
  generalize hrest : marshalText f.ownerNodeID ++ ((f.hops.map marshalText).flatten ++ tail) = rest
    at hreadOwner
  have hrestLength : 4 ≤ rest.length := by
    rw [← hrest, List.length_append, List.length_append]
    have hone : (marshalText f.ownerNodeID).length = f.ownerNodeID.length + 1 := rfl
    omega
  have hbodyLength : (f.pathID ++ rest).length = f.pathID.length + rest.length := List.length_append
  unfold unmarshalFrame
  rw [List.take_left' hmagic, List.drop_left' hmagic, if_neg ?_]
  · dsimp only
    rw [hpathByte, if_neg (by omega), List.take_left' rfl, List.drop_left' rfl]
    exact hreadOwner
  · simp only [List.length_append, List.length_cons, hmagic, ne_eq, not_true_eq_false, or_false]
    omega

/-! ## The packet inside -/

/-- Four bytes as an address. -/
def addressAt (packet : List UInt8) (i : Nat) : Nat :=
  ((packet.drop i).take 4).foldl (fun n b => n * 256 + b.toNat) 0

/-- `ParseIPv4Endpoints`: source and destination. -/
def parseIPv4Endpoints (packet : List UInt8) : Except GoString (Nat × Nat) :=
  let first := (packet.headD 0).toNat
  let total := ((packet.drop 2).take 2).foldl (fun n b => n * 256 + b.toNat) 0
  if packet.length < 20 ∨ first / 16 ≠ 4 then .error (ascii "inner packet is not IPv4")
  else if first % 16 * 4 < 20 ∨ packet.length < first % 16 * 4 then
    .error (ascii "invalid IPv4 header length")
  else if total < first % 16 * 4 ∨ packet.length < total then
    .error (ascii "invalid IPv4 total length")
  else .ok (addressAt packet 12, addressAt packet 16)

theorem addressAt_lt (packet : List UInt8) (i : Nat) : addressAt packet i < 2 ^ 32 := by
  have hfold : ∀ (bytes : List UInt8) (n : Nat),
      bytes.foldl (fun n b => n * 256 + b.toNat) n < (n + 1) * 256 ^ bytes.length := by
    intro bytes
    induction bytes with
    | nil => intro n; simp
    | cons b bytes ih =>
      intro n
      have hb : b.toNat < 256 := b.toNat_lt
      calc (b :: bytes).foldl (fun n b => n * 256 + b.toNat) n
          < (n * 256 + b.toNat + 1) * 256 ^ bytes.length := ih _
        _ ≤ ((n + 1) * 256) * 256 ^ bytes.length := Nat.mul_le_mul_right _ (by omega)
        _ = (n + 1) * 256 ^ (bytes.length + 1) := by rw [pow_succ]; ring
  have hlength : ((packet.drop i).take 4).length ≤ 4 := List.length_take_le _ _
  calc addressAt packet i < (0 + 1) * 256 ^ ((packet.drop i).take 4).length := hfold _ 0
    _ ≤ 256 ^ 4 := by
      rw [zero_add, one_mul]
      exact Nat.pow_le_pow_right (by omega) hlength
    _ = 2 ^ 32 := rfl

theorem parseIPv4Endpoints_lt {packet : List UInt8} {source destination : Nat}
    (h : parseIPv4Endpoints packet = .ok (source, destination)) :
    source < 2 ^ 32 ∧ destination < 2 ^ 32 := by
  unfold parseIPv4Endpoints at h
  dsimp only at h
  split at h
  · cases h
  split at h
  · cases h
  split at h
  · cases h
  obtain ⟨rfl, rfl⟩ := Prod.mk.inj (Except.ok.inj h)
  exact ⟨addressAt_lt packet 12, addressAt_lt packet 16⟩

theorem parseIPv4Endpoints_length {packet : List UInt8} {endpoints : Nat × Nat}
    (h : parseIPv4Endpoints packet = .ok endpoints) : 20 ≤ packet.length := by
  unfold parseIPv4Endpoints at h
  dsimp only at h
  split at h
  · cases h
  · omega

/-! ## Acceptance -/

variable {F : Type} (L : GoLib F)

/-- Does the overlay contain the address? -/
def RoutingConfig.inOverlay (c : RoutingConfig F) (addr : Nat) : Bool :=
  (parsePrefix c.overlaySubnet).any fun overlay => overlay.contains addr

theorem RoutingConfig.mem_overlay {c : RoutingConfig F} {addr : Nat} (hlt : addr < 2 ^ 32)
    (h : c.inOverlay addr = true) : ∃ overlay, parsePrefix c.overlaySubnet = some overlay ∧
      addr ∈ overlay := by
  unfold RoutingConfig.inOverlay at h
  cases hparse : parsePrefix c.overlaySubnet with
  | none =>
    rw [hparse] at h
    cases h
  | some overlay =>
    rw [hparse] at h
    exact ⟨overlay, rfl, (Prefix4.contains_iff hlt).mp h⟩

/-- The hops of a path in the direction of a frame. -/
def directed (isReturn : Bool) (hops : List GoString) : List GoString :=
  if isReturn then hops.reverse else hops

/-- `ValidateFrameForNode`. -/
def validateFrameForNode (frame : Frame) (localNodeID senderPeerID : GoString)
    (config : RoutingConfig F) : Except GoString (Path F) :=
  match frame.validateBasic with
  | .error e => .error e
  | .ok () =>
    if frame.hops[frame.hopIndex]? ≠ some localNodeID then
      .error (ascii "frame current hop is not local Node")
    else if frame.hops[frame.hopIndex - 1]? ≠ some senderPeerID then
      .error (ascii "frame previous hop does not match authenticated peer")
    else
      match config.transitPath frame.pathID with
      | none => .error (ascii "path " ++ frame.pathID ++ ascii " is not controller-approved")
      | some path =>
        if path.ownerNodeID ≠ frame.ownerNodeID then .error (ascii "path owner mismatch")
        else if frame.hops ≠ directed frame.isReturn path.hops then
          .error (ascii "hop list does not match controller-approved path")
        else
          match parseIPv4Endpoints frame.payload with
          | .error e => .error e
          | .ok (source, destination) =>
            if frame.isReturn then
              if trimSpace config.overlaySubnet = [] then
                .error (ascii "overlay subnet is unavailable")
              else if ¬ config.inOverlay destination then
                .error (ascii "return packet destination is outside overlay")
              else if config.routeFor L source ≠ some ⟨path.cidr, frame.ownerNodeID⟩ then
                .error (ascii "return packet source is outside the route owner's approved CIDR")
              else .ok path
            else if ¬ config.inOverlay source then
              .error (ascii "forward packet source is outside overlay")
            else if ¬ (parsePrefix path.cidr).any (fun q => q.contains destination) then
              .error (ascii "forward packet destination is outside approved route")
            else if config.routeFor L destination ≠ some ⟨path.cidr, frame.ownerNodeID⟩ then
              .error (ascii "route owner validation failed")
            else .ok path

/-- What an accepted frame shows. -/
structure Accepted (config : RoutingConfig F) (localNodeID senderPeerID : GoString) (frame : Frame)
    (path : Path F) : Prop where
  basic : frame.Basic
  current : frame.hops[frame.hopIndex]? = some localNodeID
  previous : frame.hops[frame.hopIndex - 1]? = some senderPeerID
  approved : config.transitPath frame.pathID = some path
  owner : path.ownerNodeID = frame.ownerNodeID
  hops : frame.hops = directed frame.isReturn path.hops
  packet : ∃ source destination, parseIPv4Endpoints frame.payload = .ok (source, destination) ∧
    (frame.isReturn = true → trimSpace config.overlaySubnet ≠ [] ∧
      config.inOverlay destination = true ∧
      config.routeFor L source = some ⟨path.cidr, frame.ownerNodeID⟩) ∧
    (frame.isReturn = false → config.inOverlay source = true ∧
      (parsePrefix path.cidr).any (fun q => q.contains destination) = true ∧
      config.routeFor L destination = some ⟨path.cidr, frame.ownerNodeID⟩)

/-- **A frame is accepted exactly if all of this holds.** -/
theorem validateFrameForNode_iff {config : RoutingConfig F} {localNodeID senderPeerID : GoString}
    {frame : Frame} {path : Path F} :
    validateFrameForNode L frame localNodeID senderPeerID config = .ok path ↔
      Accepted L config localNodeID senderPeerID frame path := by
  unfold validateFrameForNode
  constructor
  · intro h
    split at h
    · cases h
    rename_i hbasic
    split at h
    · cases h
    rename_i hcurrent
    split at h
    · cases h
    rename_i hprevious
    split at h
    · cases h
    rename_i found hfound
    split at h
    · cases h
    rename_i howner
    split at h
    · cases h
    rename_i hhops
    split at h
    · cases h
    rename_i source destination hparse
    split at h
    · rename_i hreturn
      split at h
      · cases h
      rename_i hsubnet
      split at h
      · cases h
      rename_i hoverlay
      split at h
      · cases h
      rename_i hroute
      obtain rfl := Except.ok.inj h
      refine ⟨Frame.validateBasic_iff.mp hbasic, not_not.mp hcurrent, not_not.mp hprevious, hfound,
        not_not.mp howner, not_not.mp hhops, source, destination, hparse, fun _ => ?_, fun hr => ?_⟩
      · exact ⟨hsubnet, not_not.mp hoverlay, not_not.mp hroute⟩
      · cases hr.symm.trans hreturn
    · rename_i hreturn
      split at h
      · cases h
      rename_i hoverlay
      split at h
      · cases h
      rename_i hcontains
      split at h
      · cases h
      rename_i hroute
      obtain rfl := Except.ok.inj h
      refine ⟨Frame.validateBasic_iff.mp hbasic, not_not.mp hcurrent, not_not.mp hprevious, hfound,
        not_not.mp howner, not_not.mp hhops, source, destination, hparse, fun hr => ?_, fun _ => ?_⟩
      · exact absurd hr hreturn
      · exact ⟨not_not.mp hoverlay, not_not.mp hcontains, not_not.mp hroute⟩
  · intro h
    obtain ⟨source, destination, hparse, hreturn, hforward⟩ := h.packet
    rw [Frame.validateBasic_iff.mpr h.basic]
    dsimp only
    rw [if_neg (not_not.mpr h.current), if_neg (not_not.mpr h.previous), h.approved]
    dsimp only
    rw [if_neg (not_not.mpr h.owner), if_neg (not_not.mpr h.hops), hparse]
    dsimp only
    cases hdirection : frame.isReturn with
    | true =>
      obtain ⟨hsubnet, hoverlay, hroute⟩ := hreturn hdirection
      rw [if_pos rfl, if_neg hsubnet, if_neg (not_not.mpr hoverlay), if_neg (not_not.mpr hroute)]
    | false =>
      obtain ⟨hoverlay, hcontains, hroute⟩ := hforward hdirection
      rw [if_neg Bool.false_ne_true, if_neg (not_not.mpr hoverlay), if_neg (not_not.mpr hcontains),
        if_neg (not_not.mpr hroute)]

end Bpc.Routed

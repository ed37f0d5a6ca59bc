/-
  The PACKET FILTER of a Device-to-Device session (`internal/p2p/policy.go`).

  1. **Program** — `Policy.allowed` over any bytes; every call brings the authorization it loads.
  2. **Log** — every entry of the flow table is a flow that the log says is kept, stamped thirty
     seconds after its last packet (`Traced.Faithful`, the crux).
  3. **Result** — `initiation_direction`: what the host sends belongs to a flow the initiator has
     opened.
-/
import Bpc.P2P.Grant
import Bpc.Lib.SortedMap

namespace Bpc.P2P

open Routed (GoString ascii)

/-! ## Bytes of a packet -/

/-- `packet[i]`. -/
def byte (packet : GoString) (i : Nat) : UInt8 := packet.getD i 0

/-- `binary.BigEndian.Uint16(packet[i:i+2])`. -/
def uint16 (packet : GoString) (i : Nat) : Nat :=
  (byte packet i).toNat * 256 + (byte packet (i + 1)).toNat

/-- `netip.AddrFrom4([4]byte(packet[i:i+4]))`. -/
def addrFrom4 (packet : GoString) (i : Nat) : Addr :=
  .v4 (byte packet i) (byte packet (i + 1)) (byte packet (i + 2)) (byte packet (i + 3))

/-- The protocol number of TCP. -/
def tcp : UInt8 := 6

/-- The protocol number of UDP. -/
def udp : UInt8 := 17

/-- `packet[9]`. -/
def protocolOf (packet : GoString) : UInt8 := byte packet 9

/-- The flags of a TCP header; zero for UDP. -/
def flagsOf (packet : GoString) : UInt8 :=
  if protocolOf packet = tcp then byte packet 33 else 0

/-- A SYN without ACK, in the flags of a TCP header. -/
def synWithoutAck (flags : UInt8) : Bool := flags &&& 0x02 != 0 && flags &&& 0x10 == 0

/-- The RST flag. -/
def reset (flags : UInt8) : Bool := flags &&& 0x04 != 0

/-- `flow`. -/
structure Flow where
  protocol : UInt8
  client : Nat
  service : Nat
  deriving DecidableEq, Repr

/-- A flow as a list of numbers, by which flows are ordered. -/
def Flow.numbers (f : Flow) : List Nat := [f.protocol.toNat, f.client, f.service]

instance : Ord Flow := ⟨compareOn Flow.numbers⟩

instance : Std.TransOrd Flow := inferInstanceAs (Std.TransCmp (compareOn Flow.numbers))

instance : Std.LawfulEqOrd Flow where
  eq_of_compare {a b} h := by
    have hlists : a.numbers = b.numbers := Std.LawfulEqOrd.eq_of_compare h
    obtain ⟨p, c, s⟩ := a
    obtain ⟨q, d, t⟩ := b
    simp only [Flow.numbers, List.cons.injEq, and_true] at hlists
    obtain ⟨hp, hc, hs⟩ := hlists
    rw [UInt8.toNat_inj.mp hp, hc, hs]

/-- The flow of a packet: the service port is the host's. -/
def flowOf (sender : Side) (packet : GoString) : Flow :=
  match sender with
  | .initiator => ⟨protocolOf packet, uint16 packet 20, uint16 packet 22⟩
  | .host => ⟨protocolOf packet, uint16 packet 22, uint16 packet 20⟩

/-! ## The filter -/

/-- `maxFlows`. -/
def maxFlows : Nat := 4096

/-- `servicePort`. -/
def servicePort (protocol : UInt8) (port : Nat) : Bool :=
  if protocol = tcp then port == 47984 || port == 47989 || port == 48010
  else port == 47998 || port == 47999 || port == 48000 || port == 48002 || port == 48010

/-- The tests on the headers, up to the service port. -/
def conforms (g : Grant) (sender : Side) (packet : GoString) : Bool :=
  if packet.length < 20 ∨ byte packet 0 ≠ 0x45 ∨ uint16 packet 2 ≠ packet.length ∨
      uint16 packet 6 &&& 0xbfff ≠ 0 then false
  else if protocolOf packet ≠ tcp ∧ protocolOf packet ≠ udp then false
  else if packet.length < 28 then false
  else if addrFrom4 packet 12 ≠ (g.participant sender).address ∨
      addrFrom4 packet 16 ≠ (g.participant sender.other).address then false
  else if uint16 packet 20 = 0 ∨ uint16 packet 22 = 0 then false
  else if protocolOf packet = tcp ∧ (packet.length < 40 ∨
      (byte packet 32 >>> 4).toNat * 4 < 20 ∨
        packet.length < 20 + (byte packet 32 >>> 4).toNat * 4) then false
  else if protocolOf packet ≠ tcp ∧ uint16 packet 24 ≠ packet.length - 20 then false
  else servicePort (protocolOf packet) (flowOf sender packet).service

/-- `Policy`. -/
structure Policy where
  session : Session
  side : Side
  revoked : Bool
  flows : SortedMap Flow Int
  nextPrune : Int

/-- `Revoke`. -/
def Policy.revoke (p : Policy) : Policy := { p with revoked := true, flows := ∅ }

/-- The side that sent the packet, as the filter of one side sees it. -/
def senderOf (side : Side) (outbound : Bool) : Side := if outbound then side else side.other

/-- Once a second, the flows that ran out are dropped. -/
def Policy.prune (p : Policy) (now : Int) : Policy :=
  if now < p.nextPrune then p
  else { p with
    flows := p.flows.filter fun _ till => decide (now < till)
    nextPrune := now + Time.second }

/-- The flow is in the table. -/
def Policy.established (p : Policy) (key : Flow) (now : Int) : Bool :=
  match p.flows[key]? with
  | none => false
  | some till => decide (now < till)

/-- The flow is established, or may be opened. -/
def Policy.admits (p : Policy) (sender : Side) (packet : GoString) (now : Int) : Bool :=
  let established := p.established (flowOf sender packet) now
  match sender with
  | .host => established && !(protocolOf packet == tcp && synWithoutAck (flagsOf packet))
  | .initiator =>
    established || (decide (p.flows.size < maxFlows) &&
      !(protocolOf packet == tcp && !synWithoutAck (flagsOf packet)))

/-- The flow table after an admitted packet. -/
def Policy.stamp (p : Policy) (sender : Side) (packet : GoString) (now : Int) : Policy :=
  let flows := p.flows.insert (flowOf sender packet) (now + 30 * Time.second)
  { p with
    flows :=
      if protocolOf packet = tcp ∧ reset (flagsOf packet) then flows.erase (flowOf sender packet)
      else flows }

/-- `Allowed` at the instant `now`. -/
def Policy.allowed (p : Policy) (authorization : Option Authorization) (packet : GoString)
    (outbound : Bool) (now : Int) : Policy × Bool :=
  if p.revoked || !(p.session.authorized authorization).active now then
    ({ p with flows := ∅ }, false)
  else if conforms p.session.grant (senderOf p.side outbound) packet = false then (p, false)
  else if (p.prune now).admits (senderOf p.side outbound) packet now then
    ((p.prune now).stamp (senderOf p.side outbound) packet now, true)
  else (p.prune now, false)

/-! ## What a passed packet is -/

/-- An unfragmented IPv4 packet without options, TCP or UDP between the granted addresses, on a
    service port of the host. -/
structure Granted (g : Grant) (sender : Side) (packet : GoString) : Prop where
  /-- Version 4 and a header of five words: no options. -/
  version : byte packet 0 >>> 4 = 4 ∧ byte packet 0 &&& 15 = 5
  whole : uint16 packet 2 = packet.length
  /-- No more fragments follow, and this one starts at offset 0. -/
  unfragmented : uint16 packet 6 &&& 0x2000 = 0 ∧ uint16 packet 6 &&& 0x1fff = 0
  protocol : protocolOf packet = tcp ∨ protocolOf packet = udp
  source : addrFrom4 packet 12 = (g.participant sender).address
  destination : addrFrom4 packet 16 = (g.participant sender.other).address
  service : servicePort (protocolOf packet) (flowOf sender packet).service = true

theorem unfragmented_of_mask {n : Nat} (h : n &&& 0xbfff = 0) :
    n &&& 0x2000 = 0 ∧ n &&& 0x1fff = 0 := by
  have hpart : ∀ m, 0xbfff &&& m = m → n &&& m = 0 := by
    intro m hm
    rw [← hm, ← Nat.and_assoc, h, Nat.zero_and]
  exact ⟨hpart 0x2000 (by decide), hpart 0x1fff (by decide)⟩

variable {sender : Side} {packet : GoString}

theorem conforms_granted {g : Grant} (h : conforms g sender packet = true) :
    Granted g sender packet := by
  unfold conforms at h
  split at h
  · cases h
  next hip =>
  split at h
  · cases h
  next hproto =>
  split at h
  · cases h
  split at h
  · cases h
  next haddr =>
  split at h
  · cases h
  split at h
  · cases h
  split at h
  · cases h
  simp only [not_or, not_and_or, ne_eq, not_not] at hip hproto haddr
  obtain ⟨-, hfirst, hwhole, hfrag⟩ := hip
  refine ⟨?_, hwhole, unfragmented_of_mask hfrag, hproto, haddr.1, haddr.2, h⟩
  rw [hfirst]
  decide

/-! ## What was seen -/

/-- A revocation, or a packet. -/
inductive Event where
  | revoke
  | packet (authorization : Option Authorization) (bytes : GoString) (outbound : Bool) (now : Int)
  deriving DecidableEq

/-- A line of the log. -/
inductive Note where
  | revoked
  /-- A packet came while the session was inactive. -/
  | inactive
  | refused
  | passed (sender : Side) (packet : GoString) (now : Int)
  deriving DecidableEq

/-- A filter and its log, the newest line first. -/
structure Traced where
  policy : Policy
  log : List Note

/-- One event. -/
def Traced.step (t : Traced) : Event → Traced
  | .revoke => ⟨t.policy.revoke, .revoked :: t.log⟩
  | .packet authorization packet outbound now =>
    let result := t.policy.allowed authorization packet outbound now
    ⟨result.1,
      (if result.2 then .passed (senderOf t.policy.side outbound) packet now
        else if (t.policy.session.authorized authorization).active now then .refused
        else .inactive) :: t.log⟩

/-- A filter as `NewPolicy` makes it. -/
def trace (s : Session) (side : Side) : Traced :=
  ⟨{ session := s, side, revoked := false, flows := ∅, nextPrune := Time.zero }, []⟩

/-- The instant at which a packet passed on the flow. -/
def Note.timeOn (key : Flow) : Note → Option Int
  | .passed sender packet now => if flowOf sender packet = key then some now else none
  | _ => none

/-- The initiator opens the flow: with a SYN without ACK, if it is TCP. -/
def Note.Opens (key : Flow) (n : Note) : Prop :=
  ∃ packet now, n = .passed .initiator packet now ∧ flowOf .initiator packet = key ∧
    (key.protocol = tcp → synWithoutAck (flagsOf packet) = true)

/-- A RST passed on the flow. -/
def Note.Resets (key : Flow) (n : Note) : Prop :=
  ∃ sender packet now, n = .passed sender packet now ∧ flowOf sender packet = key ∧
    key.protocol = tcp ∧ reset (flagsOf packet) = true

/-- A revocation, or a session seen inactive. -/
def Note.Ends (n : Note) : Prop := n = .revoked ∨ n = .inactive

/-- Less than thirty seconds from one to the other. -/
def Soon (later earlier : Int) : Prop := later - earlier < 30 * Time.second

/-- The flow was opened by the initiator, and since then packets passed on it less than thirty
    seconds apart, with no RST, no revocation and no inactive session. -/
def Open (key : Flow) (log : List Note) (last : Int) : Prop :=
  ∃ since opening before rest, log = since ++ opening :: before ∧ opening.Opens key ∧
    (∀ n ∈ since ++ [opening], ¬n.Resets key) ∧ (∀ n ∈ since, ¬n.Ends) ∧
    (since ++ [opening]).filterMap (Note.timeOn key) = last :: rest ∧
    (last :: rest).IsChain Soon

/-- **The flow is kept open until `now`.** -/
def Kept (key : Flow) (log : List Note) (now : Int) : Prop :=
  ∃ last, Open key log last ∧ Soon now last

variable {key : Flow} {log : List Note}

theorem Open.other {last : Int} (h : Open key log last) {n : Note} (htime : n.timeOn key = none)
    (hends : ¬n.Ends) : Open key (n :: log) last := by
  obtain ⟨since, opening, before, rest, rfl, hopens, hresets, hnone, htimes, hchain⟩ := h
  refine ⟨n :: since, opening, before, rest, rfl, hopens, ?_, ?_, ?_, hchain⟩
  · intro m hm
    rcases List.mem_cons.mp hm with rfl | hm
    · rintro ⟨sender, packet, now, rfl, hflow, -⟩
      rw [Note.timeOn, if_pos hflow] at htime
      cases htime
    · exact hresets m hm
  · intro m hm
    rcases List.mem_cons.mp hm with rfl | hm
    · exact hends
    · exact hnone m hm
  · rw [List.cons_append, List.filterMap_cons, htime]
    exact htimes

variable {now : Int}

theorem Open.passed {last : Int} (h : Open key log last) (hflow : flowOf sender packet = key)
    (hreset : ¬(Note.passed sender packet now).Resets key) (hsoon : Soon now last) :
    Open key (.passed sender packet now :: log) now := by
  obtain ⟨since, opening, before, rest, rfl, hopens, hresets, hnone, htimes, hchain⟩ := h
  refine ⟨.passed sender packet now :: since, opening, before, last :: rest, rfl, hopens,
    ?_, ?_, ?_, List.isChain_cons_cons.mpr ⟨hsoon, hchain⟩⟩
  · intro m hm
    rcases List.mem_cons.mp hm with rfl | hm
    · exact hreset
    · exact hresets m hm
  · intro m hm
    rcases List.mem_cons.mp hm with rfl | hm
    · rintro (h | h) <;> cases h
    · exact hnone m hm
  · have htime : (Note.passed sender packet now).timeOn key = some now := if_pos hflow
    rw [List.cons_append, List.filterMap_cons, htime]
    dsimp only
    rw [htimes]

theorem Open.opened (hflow : flowOf .initiator packet = key)
    (hsyn : key.protocol = tcp → synWithoutAck (flagsOf packet) = true)
    (hreset : ¬(Note.passed .initiator packet now).Resets key) :
    Open key (.passed .initiator packet now :: log) now := by
  refine ⟨[], .passed .initiator packet now, log, [], rfl, ⟨packet, now, rfl, hflow, hsyn⟩,
    ?_, fun n hn => (by cases hn), ?_, List.isChain_singleton _⟩
  · intro n hn
    obtain rfl := List.mem_singleton.mp hn
    exact hreset
  · have htime : (Note.passed .initiator packet now).timeOn key = some now := if_pos hflow
    rw [List.nil_append, List.filterMap_cons, htime]
    rfl

/-! ## What a call can do -/

/-- **Closed, refused or passed**: the table is cleared, left up to pruning, or the flow stamped. -/
theorem Policy.allowed_cases (p : Policy) (authorization : Option Authorization)
    (packet : GoString) (outbound : Bool) (now : Int) :
    (p.allowed authorization packet outbound now = ({ p with flows := ∅ }, false)) ∨
    (p.revoked = false ∧ (p.session.authorized authorization).active now = true ∧
      (p.allowed authorization packet outbound now = (p, false) ∨
        p.allowed authorization packet outbound now = (p.prune now, false))) ∨
    (p.revoked = false ∧ (p.session.authorized authorization).active now = true ∧
      conforms p.session.grant (senderOf p.side outbound) packet = true ∧
      (p.prune now).admits (senderOf p.side outbound) packet now = true ∧
      p.allowed authorization packet outbound now =
        ((p.prune now).stamp (senderOf p.side outbound) packet now, true)) := by
  unfold allowed
  split
  · exact Or.inl rfl
  next hopen =>
  simp only [Bool.or_eq_true, Bool.not_eq_true', not_or, Bool.not_eq_true, Bool.not_eq_false]
    at hopen
  obtain ⟨hrevoked, hactive⟩ := hopen
  split
  · exact Or.inr (Or.inl ⟨hrevoked, hactive, Or.inl rfl⟩)
  next hconforms =>
  split
  · next hadmits =>
    exact Or.inr (Or.inr ⟨hrevoked, hactive, by simpa using hconforms, hadmits, rfl⟩)
  · exact Or.inr (Or.inl ⟨hrevoked, hactive, Or.inr rfl⟩)

variable {p : Policy}

theorem Policy.prune_flows {till : Int} (h : (p.prune now).flows[key]? = some till) :
    p.flows[key]? = some till := by
  unfold prune at h
  split at h
  · exact h
  · rw [Std.ExtTreeMap.getElem?_filter'] at h
    exact (Option.filter_eq_some_iff.mp h).1

theorem Policy.prune_size (p : Policy) (now : Int) : (p.prune now).flows.size ≤ p.flows.size := by
  unfold prune
  split
  · exact le_refl _
  · exact Std.ExtTreeMap.size_filter_le_size

theorem Policy.established_iff :
    p.established key now = true ↔ ∃ till, p.flows[key]? = some till ∧ now < till := by
  unfold established
  cases p.flows[key]? with
  | none => simp
  | some till => simp

/-- What an admitted packet leaves in the table: its flow with a new stamp, unless it is a RST. -/
theorem Policy.stamp_flows {till : Int} (h : (p.stamp sender packet now).flows[key]? = some till) :
    (flowOf sender packet = key ∧ till = now + 30 * Time.second ∧
      ¬(Note.passed sender packet now).Resets key) ∨
    (flowOf sender packet ≠ key ∧ p.flows[key]? = some till) := by
  unfold stamp at h
  dsimp only at h
  by_cases hkey : flowOf sender packet = key
  · left
    split at h
    · rw [hkey, SortedMap.get_erase_self] at h
      cases h
    · next hreset =>
      rw [hkey, SortedMap.get_insert_self] at h
      refine ⟨hkey, (Option.some.inj h).symm, ?_⟩
      rintro ⟨s, bytes, t, heq, -, hproto, hrst⟩
      cases heq
      have hprotocol : protocolOf packet = key.protocol := by
        rw [← hkey]
        cases sender <;> rfl
      exact hreset ⟨hprotocol.trans hproto, hrst⟩
  · right
    refine ⟨hkey, ?_⟩
    split at h
    · rwa [SortedMap.get_erase_of_ne _ hkey, SortedMap.get_insert_of_ne _ _ hkey] at h
    · rwa [SortedMap.get_insert_of_ne _ _ hkey] at h

theorem Policy.stamp_size (hsize : p.flows.size ≤ maxFlows)
    (hadmits : p.admits sender packet now = true) :
    (p.stamp sender packet now).flows.size ≤ maxFlows := by
  have hinsert : (p.flows.insert (flowOf sender packet) (now + 30 * Time.second)).size
      ≤ maxFlows := by
    rw [Std.ExtTreeMap.size_insert]
    split
    · exact hsize
    · next hcontains =>
      have hfresh : p.established (flowOf sender packet) now ≠ true := by
        rw [ne_eq, established_iff]
        rintro ⟨till, hget, -⟩
        exact hcontains (Std.ExtTreeMap.contains_iff_mem.mpr
          (Std.ExtTreeMap.mem_iff_isSome_getElem?.mpr (by rw [hget]; rfl)))
      cases sender with
      | host => simp [admits, hfresh] at hadmits
      | initiator =>
        simp only [admits, hfresh, Bool.false_or, Bool.and_eq_true, decide_eq_true_eq] at hadmits
        exact hadmits.1
  unfold stamp
  dsimp only
  split
  · exact le_trans Std.ExtTreeMap.size_erase_le hinsert
  · exact hinsert

/-! ## The log explains the table -/

/-- Every flow in the table is open by the log, with its stamp. -/
structure Traced.Faithful (t : Traced) : Prop where
  bounded : t.policy.flows.size ≤ maxFlows
  kept : ∀ key till, t.policy.flows[key]? = some till →
    ∃ last, Open key t.log last ∧ till = last + 30 * Time.second
  revoked : Note.revoked ∈ t.log → t.policy.revoked = true

variable {t : Traced}

theorem Traced.Faithful.established (h : t.Faithful)
    (hest : (t.policy.prune now).established key now = true) : Kept key t.log now := by
  obtain ⟨till, hget, hlt⟩ := Policy.established_iff.mp hest
  obtain ⟨last, hopen, rfl⟩ := h.kept key till (Policy.prune_flows hget)
  refine ⟨last, hopen, ?_⟩
  unfold Soon
  omega

/-- **An admitted packet opens its flow or finds it kept.** -/
theorem Traced.Faithful.admitted (h : t.Faithful)
    (hadmits : (t.policy.prune now).admits sender packet now = true) :
    Kept (flowOf sender packet) t.log now ∨
      (sender = .initiator ∧ ((flowOf sender packet).protocol = tcp →
        synWithoutAck (flagsOf packet) = true)) := by
  by_cases hest : (t.policy.prune now).established (flowOf sender packet) now = true
  · exact Or.inl (h.established hest)
  · right
    cases sender with
    | host => simp [Policy.admits, hest] at hadmits
    | initiator =>
      simp only [Policy.admits, hest, Bool.false_or, Bool.and_eq_true, Bool.not_eq_true',
        Bool.and_eq_false_iff, beq_eq_false_iff_ne, Bool.not_eq_false'] at hadmits
      refine ⟨rfl, fun htcp => ?_⟩
      rcases hadmits.2 with hne | hsyn
      · exact absurd htcp hne
      · exact hsyn

theorem Traced.Faithful.refused (h : t.Faithful)
    (hsub : ∀ (key : Flow) (till : Int), p.flows[key]? = some till →
      t.policy.flows[key]? = some till) (hsize : p.flows.size ≤ t.policy.flows.size)
    (hrevoked : p.revoked = t.policy.revoked) : (⟨p, .refused :: t.log⟩ : Traced).Faithful where
  bounded := le_trans hsize h.bounded
  kept key till hget := by
    obtain ⟨last, hopen, htill⟩ := h.kept key till (hsub key till hget)
    exact ⟨last, hopen.other rfl (by rintro (h | h) <;> cases h), htill⟩
  revoked hmem := hrevoked.trans (h.revoked (by simpa using hmem))

theorem Traced.Faithful.cleared (h : t.Faithful) {n : Note} (hflows : p.flows = ∅)
    (hrevoked : n = .revoked ∨ t.policy.revoked = true → p.revoked = true) :
    (⟨p, n :: t.log⟩ : Traced).Faithful where
  bounded := by
    show p.flows.size ≤ maxFlows
    rw [hflows]
    exact Nat.zero_le _
  kept key till hget := by
    have hget' : p.flows[key]? = some till := hget
    rw [hflows, SortedMap.get_empty] at hget'
    cases hget'
  revoked hmem := by
    rcases List.mem_cons.mp hmem with hn | hmem
    · exact hrevoked (Or.inl hn.symm)
    · exact hrevoked (Or.inr (h.revoked hmem))

theorem Traced.Faithful.passed (h : t.Faithful)
    (hadmits : (t.policy.prune now).admits sender packet now = true)
    (hrevoked : t.policy.revoked = false) :
    (⟨(t.policy.prune now).stamp sender packet now, .passed sender packet now :: t.log⟩ :
      Traced).Faithful where
  bounded := Policy.stamp_size (le_trans (t.policy.prune_size now) h.bounded) hadmits
  kept key till hget := by
    rcases Policy.stamp_flows hget with ⟨hflow, rfl, hreset⟩ | ⟨hother, hget⟩
    · refine ⟨now, ?_, rfl⟩
      rcases h.admitted hadmits with ⟨last, hopen, hsoon⟩ | ⟨rfl, hsyn⟩
      · rw [hflow] at hopen
        exact hopen.passed hflow hreset hsoon
      · rw [hflow] at hsyn
        exact Open.opened hflow hsyn hreset
    · obtain ⟨last, hopen, htill⟩ := h.kept key till (Policy.prune_flows hget)
      refine ⟨last, hopen.other (if_neg hother) ?_, htill⟩
      rintro (h | h) <;> cases h
  revoked hmem := by
    have hlog : t.policy.revoked = true := h.revoked (by simpa using hmem)
    rw [hrevoked] at hlog
    cases hlog

/-- **One event keeps the log faithful.** -/
theorem Traced.Faithful.step (h : t.Faithful) (event : Event) : (t.step event).Faithful := by
  cases event with
  | revoke => exact h.cleared rfl fun _ => rfl
  | packet authorization packet outbound now =>
    unfold Traced.step
    dsimp only
    rcases t.policy.allowed_cases authorization packet outbound now with
      hclosed | ⟨-, hactive, hkeep | hprune⟩ | ⟨hrevoked, -, -, hadmits, hpass⟩
    · rw [hclosed, if_neg (by simp)]
      refine h.cleared rfl ?_
      rintro (hn | hrevoked)
      · split at hn <;> cases hn
      · exact hrevoked
    · rw [hkeep, if_neg (by simp), if_pos hactive]
      exact h.refused (fun _ _ hget => hget) (le_refl _) rfl
    · rw [hprune, if_neg (by simp), if_pos hactive]
      refine h.refused (fun _ _ hget => Policy.prune_flows hget) (t.policy.prune_size now) ?_
      unfold Policy.prune
      split <;> rfl
    · rw [hpass, if_pos rfl]
      exact h.passed hadmits hrevoked

theorem trace_faithful (s : Session) (side : Side) : (trace s side).Faithful where
  bounded := Nat.zero_le _
  kept key till hget := by
    have hget' : (∅ : SortedMap Flow Int)[key]? = some till := hget
    rw [SortedMap.get_empty] at hget'
    cases hget'
  revoked hmem := by cases hmem

theorem Traced.step_fixed (t : Traced) (event : Event) :
    (t.step event).policy.session = t.policy.session ∧
      (t.step event).policy.side = t.policy.side := by
  cases event with
  | revoke => exact ⟨rfl, rfl⟩
  | packet authorization packet outbound now =>
    have hprune : (t.policy.prune now).session = t.policy.session ∧
        (t.policy.prune now).side = t.policy.side := by
      unfold Policy.prune
      split <;> exact ⟨rfl, rfl⟩
    show (t.policy.allowed authorization packet outbound now).1.session = _ ∧
      (t.policy.allowed authorization packet outbound now).1.side = _
    rcases t.policy.allowed_cases authorization packet outbound now with
      hclosed | ⟨-, -, hkeep | hpruned⟩ | ⟨-, -, -, -, hpass⟩
    · rw [hclosed]
      exact ⟨rfl, rfl⟩
    · rw [hkeep]
      exact ⟨rfl, rfl⟩
    · rw [hpruned]
      exact hprune
    · rw [hpass]
      exact hprune

/-- A run. -/
def traceRun (s : Session) (side : Side) (events : List Event) : Traced :=
  events.foldl Traced.step (trace s side)

theorem traceRun_faithful (s : Session) (side : Side) (events : List Event) :
    (traceRun s side events).Faithful ∧ (traceRun s side events).policy.session = s ∧
      (traceRun s side events).policy.side = side := by
  refine List.foldlRecOn
    (motive := fun t : Traced => t.Faithful ∧ t.policy.session = s ∧ t.policy.side = side)
    events Traced.step ⟨trace_faithful s side, rfl, rfl⟩ ?_
  intro t ht event _
  obtain ⟨hfaithful, hsession, hside⟩ := ht
  obtain ⟨hs, hd⟩ := t.step_fixed event
  exact ⟨hfaithful.step event, hs.trans hsession, hd.trans hside⟩

/-! ## The filter enforces who may begin -/

/-- **The direction of initiation is enforced.**  After any packets and revocations the table is
    within its bound, and a packet that passes is granted, comes after no revocation, and continues
    a flow that was kept open or is the initiator opening one. -/
theorem initiation_direction (s : Session) (side : Side) (events : List Event) :
    (traceRun s side events).policy.flows.size ≤ maxFlows ∧
    ∀ authorization packet outbound now,
      ((traceRun s side events).policy.allowed authorization packet outbound now).2 = true →
        Granted s.grant (senderOf side outbound) packet ∧
        Note.revoked ∉ (traceRun s side events).log ∧
        (senderOf side outbound = .host →
          Kept (flowOf .host packet) (traceRun s side events).log now) ∧
        (senderOf side outbound = .initiator →
          Kept (flowOf .initiator packet) (traceRun s side events).log now ∨
            (Note.passed .initiator packet now).Opens (flowOf .initiator packet)) := by
  obtain ⟨hfaithful, hsession, hside⟩ := traceRun_faithful s side events
  refine ⟨hfaithful.bounded, fun authorization packet outbound now hallowed => ?_⟩
  rcases (traceRun s side events).policy.allowed_cases authorization packet outbound now with
    hclosed | ⟨-, -, hkeep | hpruned⟩ | ⟨hrevoked, -, hconforms, hadmits, -⟩
  · rw [hclosed] at hallowed
    cases hallowed
  · rw [hkeep] at hallowed
    cases hallowed
  · rw [hpruned] at hallowed
    cases hallowed
  · rw [hsession, hside] at hconforms
    rw [hside] at hadmits
    refine ⟨conforms_granted hconforms, fun hmem => ?_, fun hhost => ?_, fun hinit => ?_⟩
    · rw [hfaithful.revoked hmem] at hrevoked
      cases hrevoked
    · rw [hhost] at hadmits
      rcases hfaithful.admitted hadmits with hkept | ⟨hne, -⟩
      · exact hkept
      · cases hne
    · rw [hinit] at hadmits
      rcases hfaithful.admitted hadmits with hkept | ⟨-, hsyn⟩
      · exact Or.inl hkept
      · exact Or.inr ⟨packet, now, rfl, rfl, hsyn⟩

/-! ## A connection and its answer -/

/-- A TCP header between the two Devices, to port 47984 or back. -/
def segment (sender : Side) (flags : UInt8) : GoString :=
  let ends : GoString := match sender with
    | .initiator => [10, 253, 0, 2, 10, 253, 0, 3, 195, 80, 187, 112]
    | .host => [10, 253, 0, 3, 10, 253, 0, 2, 187, 112, 195, 80]
  [0x45, 0, 0, 40, 0, 0, 0x40, 0, 64, 6, 0, 0] ++ ends ++
    [0, 0, 0, 0, 0, 0, 0, 0, 0x50, flags, 0, 0, 0, 0, 0, 0]

/-- The host's SYN-ACK passes after the initiator's SYN. -/
theorem initiation_direction_handshake :
    ((traceRun pilotSession .initiator
      [.packet none (segment .initiator 2) true (Time.ofUnix 1700000001)]).policy.allowed none
        (segment .host 18) false (Time.ofUnix 1700000002)).2 = true ∧
    Kept (flowOf .host (segment .host 18))
      (traceRun pilotSession .initiator
        [.packet none (segment .initiator 2) true (Time.ofUnix 1700000001)]).log
      (Time.ofUnix 1700000002) := by
  have hpass : ((traceRun pilotSession .initiator
      [.packet none (segment .initiator 2) true (Time.ofUnix 1700000001)]).policy.allowed none
        (segment .host 18) false (Time.ofUnix 1700000002)).2 = true := by decide +kernel
  exact ⟨hpass, ((initiation_direction pilotSession .initiator
    [.packet none (segment .initiator 2) true (Time.ofUnix 1700000001)]).2 none
      (segment .host 18) false (Time.ofUnix 1700000002) hpass).2.2.1 rfl⟩

end Bpc.P2P

/-
  TRACKING A TICKET — what `PolicyStore.Track` leaves behind when it returns an error.

  It stores the reservation of an address and looks at the table of sessions AFTERWARDS, where it
  may refuse (`track_reserves_for_nothing`).  Otherwise an error changes nothing
  (`track_all_or_nothing_iff`).
-/
import Bpc.P2P.PolicyRuns

namespace Bpc.P2P

open Routed (GoString)

/-- The sessions that are not expired by these readings. -/
def World.live (w : World) (clock : GoString → Int) : SortedMap GoString Session :=
  match w.store with
  | none => ∅
  | some p => p.unexpired clock

/-- The id belongs to another ticket, or the table is full. -/
def PolicyStore.Refuses (p : PolicyStore) (clock : GoString → Int) (s : Session) : Prop :=
  (∃ old, (p.unexpired clock)[s.grant.sessionID]? = some old ∧ old.ticket ≠ s.ticket) ∨
  ((p.unexpired clock)[s.grant.sessionID]? = none ∧ maxManagedSessions ≤ (p.unexpired clock).size)

/-- The grant is good, its address is free, and only then the table has no place. -/
structure World.RefusesLate (lib : StoreLib) (w : World) (ticket : GoString) (now later : Int)
    (clock : GoString → Int) (p : PolicyStore) (s : Session) (st : PolicyState) : Prop where
  store : w.store = some p
  verified : verifyGrant lib.toGrantLib ticket p.trust.issuer p.trust.clusterID 0 now = .ok s
  participant : ¬(s.grant.participants.1.deviceID ≠ p.trust.deviceID ∧
    s.grant.participants.2.deviceID ≠ p.trust.deviceID)
  disk : w.disk = .holding st
  valid : st.check p.trust = .ok ()
  undenied : (st.denied[s.grant.sessionID]?).getD 0 ≤ Time.unix later
  free : s.grant.remote p.trust ∉ st.reserved
  room : st.reserved.length < maxManagedSessions
  refuses : p.Refuses clock s

theorem PolicyStore.unexpired_unexpired (p : PolicyStore) {clock seen : GoString → Int}
    (h : ∀ id, clock id ≤ seen id) :
    ({ p with sessions := p.unexpired clock } : PolicyStore).unexpired seen = p.unexpired seen := by
  apply SortedMap.ext_get
  intro id
  unfold unexpired
  rw [Std.ExtTreeMap.getElem?_filter', Std.ExtTreeMap.getElem?_filter',
    Std.ExtTreeMap.getElem?_filter', Option.filter_filter]
  congr 1
  funext s
  have hmono := Time.unix_mono (h id)
  rw [Bool.and_eq_right_iff_imp, decide_eq_true_iff, decide_eq_true_iff]
  omega

variable {lib : StoreLib} {w : World} {ticket : GoString} {now later : Int}
  {clock : GoString → Int} {written : Bool} {p : PolicyStore} {s : Session}

theorem World.enlist_error {w' : World} {p' : PolicyStore} {e : String}
    (hp : p'.sessions = p.unexpired clock) (h : (w'.enlist p' s).2 = .error e) :
    (w'.enlist p' s).1 = w' ∧ p.Refuses clock s := by
  unfold enlist at h ⊢
  rw [hp] at h ⊢
  split at h
  · next old hold =>
    refine ⟨rfl, .inl ⟨old, hold, fun hsame => ?_⟩⟩
    rw [if_pos hsame] at h
    cases h
  · next hnone =>
    split at h
    · next hfull =>
      rw [if_pos hfull]
      exact ⟨rfl, .inr ⟨hnone, hfull⟩⟩
    · cases h

theorem World.track_error {e : String}
    (h : (w.track lib ticket now later clock written).2 = .error e) :
    (w.track lib ticket now later clock written).1 = w ∨
    ∃ p st, w.store = some p ∧ (w.track lib ticket now later clock written).1 =
        ({ w with disk := .holding st } : World).expire p clock ∧
      (w.disk = .holding st ∨ written = true ∧
        ∃ s st, w.RefusesLate lib ticket now later clock p s st) := by
  unfold track at h ⊢
  split
  · exact .inl rfl
  next p hstore =>
  rw [hstore] at h
  dsimp only at h
  split
  · exact .inl rfl
  next s hverify =>
  rw [hverify] at h
  dsimp only at h
  split
  · exact .inl rfl
  next hdevice =>
  rw [if_neg hdevice] at h
  split
  · exact .inl rfl
  next w' hupdate =>
  rw [hupdate] at h
  dsimp only at h
  obtain ⟨st, st', hdisk, hreserve, rfl, hcheck, hwritten⟩ := update_ok hupdate
  obtain ⟨hworld, hrefuses⟩ := enlist_error rfl h
  refine .inr ⟨p, st', hstore, hworld, ?_⟩
  unfold reserve at hreserve
  split at hreserve
  · cases hreserve
  split at hreserve
  · cases hreserve
    exact .inl hdisk
  split at hreserve
  · cases hreserve
  next hdenied hfree hroom =>
  exact .inr ⟨hwritten, s, st, hstore, hverify, hdevice, hdisk, hcheck, by omega, hfree, by omega,
    hrefuses⟩

theorem World.RefusesLate.track {st : PolicyState}
    (h : w.RefusesLate lib ticket now later clock p s st) :
    (∃ e, (w.track lib ticket now later clock true).2 = .error e) ∧
    (w.track lib ticket now later clock true).1.disk =
      .holding { st with reserved := st.reserved ++ [s.grant.remote p.trust] } := by
  have hreserve : reserve p.trust s.grant later st =
      .ok { st with reserved := st.reserved ++ [s.grant.remote p.trust] } := by
    unfold reserve
    rw [if_neg (Int.not_lt.mpr h.undenied), if_neg h.free, if_neg (Nat.not_le.mpr h.room)]
  have hupdate : w.update p.trust true (reserve p.trust s.grant later) =
      .ok { w with disk := .holding { st with
        reserved := st.reserved ++ [s.grant.remote p.trust] } } := by
    unfold update
    rw [h.disk]
    dsimp only
    rw [h.valid]
    dsimp only
    rw [hreserve]
    rfl
  unfold World.track
  rw [h.store]
  dsimp only
  rw [h.verified]
  dsimp only
  rw [if_neg h.participant, hupdate]
  dsimp only
  unfold enlist
  rcases h.refuses with ⟨old, hold, hticket⟩ | ⟨hnone, hfull⟩
  · rw [hold]
    dsimp only
    rw [if_neg hticket]
    exact ⟨⟨_, rfl⟩, rfl⟩
  · rw [hnone]
    dsimp only
    rw [if_pos hfull]
    exact ⟨⟨_, rfl⟩, rfl⟩

/-- **When tracking is all or nothing.**  An error of `Track` leaves the record on disk and the
    unexpired sessions as they were, exactly if the table does not refuse a session whose free
    address has been reserved. -/
theorem track_all_or_nothing_iff (lib : StoreLib) (w : World) (ticket : GoString) (now later : Int)
    (clock : GoString → Int) (written : Bool) :
    (∀ e, (w.track lib ticket now later clock written).2 = .error e →
      (w.track lib ticket now later clock written).1.disk = w.disk ∧
      ∀ seen : GoString → Int, (∀ id, clock id ≤ seen id) →
        (w.track lib ticket now later clock written).1.live seen = w.live seen) ↔
    ¬(written = true ∧ ∃ p s st, w.RefusesLate lib ticket now later clock p s st) := by
  constructor
  · rintro hnothing ⟨rfl, p, s, st, hlate⟩
    obtain ⟨⟨e, herror⟩, hdisk⟩ := hlate.track
    have hsame := (hnothing e herror).1
    rw [hdisk, hlate.disk] at hsame
    have hreserved := congrArg (fun st => st.reserved.length) (Disk.holding.inj hsame)
    simp at hreserved
  · intro hlate e herror
    rcases World.track_error herror with hsame | ⟨p, st, hstore, hworld, hdisk⟩
    · rw [hsame]
      exact ⟨rfl, fun _ _ => rfl⟩
    · rcases hdisk with hdisk | ⟨hwritten, s, st, hlate'⟩
      · rw [hworld, hdisk]
        refine ⟨rfl, fun seen hseen => ?_⟩
        show ({ p with sessions := p.unexpired clock } : PolicyStore).unexpired seen = _
        rw [p.unexpired_unexpired hseen, World.live, hstore]
      · exact absurd ⟨hwritten, p, s, st, hlate'⟩ hlate

/-! ## A reservation without a session -/

/-- Two tickets with one session id: the second is for Devices 2 and 4. -/
def reissueLib : StoreLib where
  toGrantLib := { pilotGrantLib with
    decodeGrant := fun p =>
      if p = [1] then .ok pilotGrant
      else .ok { pilotGrant with participants := (pilotDevice 2, pilotDevice 4) } }
  decodeCheckpoint _ := .error "invalid P2P document"

/-- The machine of Device 2 after it has tracked the first ticket. -/
def reissueWorld : World :=
  ((Saga.start (Time.ofUnix 1700000000)).run reissueLib (pilotOps.take 2)).world

/-- The reserved addresses. -/
def Disk.reserved : Disk → List Addr
  | .holding st => st.reserved
  | _ => []

/-- **A reservation for nothing**: the second ticket is refused, its address reserved. -/
theorem track_reserves_for_nothing :
    let after := reissueWorld.track reissueLib [3] (Time.ofUnix 1700000002)
      (Time.ofUnix 1700000002) (fun _ => Time.ofUnix 1700000002) true
    after.2 = .error "P2P session ID reused" ∧
    reissueWorld.disk.reserved = [.v4 10 253 0 3] ∧
    after.1.disk.reserved = [.v4 10 253 0 3, .v4 10 253 0 4] := by
  decide +kernel

end Bpc.P2P

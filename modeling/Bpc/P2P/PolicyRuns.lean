/-
  RUNS OF THE POLICY STORE — fail-closed and monotone, through crashes and restarts.

  1. **History** — `Saga` adds the checkpoint IN FORCE and the sessions that were BARRED: stopped,
     or omitted from an accepted checkpoint while tracked.
  2. **Invariant** (`Saga.Core`) — an authorization comes from the checkpoint in force, and a bar
     that counts is on disk.  All operations but the two halves of `Apply` are `Quiet`
     (`Core.quiet`).
  3. **Result** — `policy_store_fail_closed`.
-/
import Bpc.P2P.PolicyStore

namespace Bpc.P2P

open Routed (GoString ascii)

/-! ## Operations -/

/-- An operation of the store, or a crash. -/
inductive Op where
  | create (trust : Trust) (written : Bool)
  | reopen (trust : Trust)
  | track (ticket : GoString) (now later : Int) (clock : GoString → Int) (written : Bool)
  | apply (ticket : GoString) (now : Int) (written : Bool)
  /-- The rest of an `Apply` whose transaction went through. -/
  | activate
  | stop (id : GoString) (clock : GoString → Int) (written : Bool)
  | failClosed
  | close
  | crash

/-- A machine, the time, and what its history says. -/
structure Saga where
  world : World
  clock : Int
  /-- The checkpoint in force. -/
  inForce : Option Checkpoint
  /-- Session ids, each with the end of its grant. -/
  barred : List (GoString × Int)

variable (lib : StoreLib)

/-- The sessions that a checkpoint on disk omits which is not in force yet. -/
def World.pendingBars (w : World) : List (GoString × Int) :=
  match w.activation, w.store with
  | some a, some p => p.omitted a.allowed
  | _, _ => []

/-- The machine and its history after an operation.  A checkpoint bars what it omits when it comes
    into force, or when the process dies before that. -/
def Saga.step (h : Saga) (event : Op × Int) : Saga :=
  match event.1 with
  | .create trust written =>
    let result := h.world.create trust written
    { h with
      world := result.1, clock := event.2
      inForce := match result.2 with | .ok () => none | .error _ => h.inForce }
  | .reopen trust =>
    let result := h.world.reopen trust
    { h with
      world := result.1, clock := event.2
      inForce := match result.2 with | .ok () => none | .error _ => h.inForce }
  | .track ticket now later clock written =>
    { h with world := (h.world.track lib ticket now later clock written).1, clock := event.2 }
  | .apply ticket now written =>
    let result := h.world.apply lib ticket now written
    { h with
      world := result.1, clock := event.2
      inForce := match result.2 with | .ok () => h.inForce | .error _ => none }
  | .activate =>
    match h.world.activation, h.world.store with
    | some a, some p =>
      { world := h.world.activate, clock := event.2, inForce := some a.policy
        barred := p.omitted a.allowed ++ h.barred }
    | _, _ => { h with clock := event.2 }
  | .stop id clock written =>
    let result := h.world.stop id clock written
    { world := result.1, clock := event.2, inForce := none
      barred :=
        match result.2, h.world.store.bind (·.sessions[id]?) with
        | .ok (), some s => (id, s.grant.expiresAt) :: h.barred
        | _, _ => h.barred }
  | .failClosed => { h with world := h.world.failClosed, clock := event.2, inForce := none }
  | .close => { h with world := h.world.close, clock := event.2, inForce := none }
  | .crash =>
    { world := h.world.crash, clock := event.2, inForce := none
      barred := h.world.pendingBars ++ h.barred }

/-- The readings of an operation lie between its begin and its end. -/
def Op.Reads (op : Op) (start finish : Int) : Prop :=
  match op with
  | .track _ now later clock _ =>
    start ≤ now ∧ now ≤ later ∧ ∀ id, later ≤ clock id ∧ clock id ≤ finish
  | .apply _ now _ => start ≤ now ∧ now ≤ finish
  | .stop _ clock _ => ∀ id, start ≤ clock id ∧ clock id ≤ finish
  | _ => True

/-- The operation holds the lock that an `Apply` in progress keeps. -/
def Op.Continues : Op → Bool
  | .activate | .crash => true
  | _ => false

/-- The clock does not run backwards; nothing comes between the halves of `Apply`. -/
def Saga.Permits (h : Saga) (event : Op × Int) : Prop :=
  h.clock ≤ event.2 ∧ event.1.Reads h.clock event.2 ∧
    (h.world.activation.isSome → event.1.Continues = true)

/-- A machine on which nothing has been created yet. -/
def Saga.start (clock : Int) : Saga :=
  { world := { disk := .absent, store := none, retired := [], activation := none }
    clock, inForce := none, barred := [] }

/-! ## What holds in every state -/

/-- A session that somebody holds. -/
def World.InMemory (w : World) (s : Session) : Prop :=
  (∃ p id, w.store = some p ∧ p.sessions[(id : GoString)]? = some s) ∨ s ∈ w.retired

/-- The checkpoint lists the session with the digest of its ticket. -/
def Listed (policy : Checkpoint) (s : Session) : Prop :=
  ⟨s.grant.sessionID, ticketHash lib s.ticket⟩ ∈ policy.allowed

/-- The record on disk is at or above the floors of a checkpoint. -/
def Disk.Above (d : Disk) (policy : Checkpoint) : Prop :=
  ∃ st, d = .holding st ∧ policy.revision ≤ st.revision ∧ policy.issuedAt ≤ st.issuedAt

/-- The record on disk denies the session until then, or longer. -/
def Disk.Denies (d : Disk) (bar : GoString × Int) : Prop :=
  ∃ st expiry, d = .holding st ∧ st.denied[bar.1]? = some expiry ∧ bar.2 ≤ expiry

/-- **Fail-closed, and durable before it counts.** -/
structure Saga.Safe (h : Saga) : Prop where
  /-- An active session is listed by the checkpoint in force. -/
  listed : ∀ s now, h.world.InMemory s → h.clock ≤ now → s.active now = true →
    ∃ policy, h.inForce = some policy ∧ Listed lib policy s ∧
      Time.unix now < policy.expiresAt ∧ Time.unix now < s.grant.expiresAt
  /-- A barred session id is not active before the barred grant ends. -/
  barred : ∀ bar ∈ h.barred, ∀ s now, h.world.InMemory s → s.grant.sessionID = bar.1 →
    h.clock ≤ now → Time.unix now < bar.2 → s.active now = false
  /-- The floors of what is, or is about to be, in force are on disk. -/
  floors : (∀ policy, h.inForce = some policy → h.world.disk.Above policy) ∧
    ∀ a, h.world.activation = some a → h.world.disk.Above a.policy
  /-- So are the denials that still count. -/
  denials : (∀ bar ∈ h.barred, Time.unix h.clock < bar.2 → h.world.disk.Denies bar) ∧
    ∀ a p, h.world.activation = some a → h.world.store = some p →
      ∀ bar ∈ p.omitted a.allowed, h.world.disk.Denies bar

/-! ## The invariant -/

/-- The bar is on disk, and a tracked session of that id is unauthorized. -/
structure World.Barred (w : World) (bar : GoString × Int) : Prop where
  denied : w.disk.Denies bar
  tracked : ∀ p s, w.store = some p → p.sessions[bar.1]? = some s →
    bar.2 ≤ s.grant.expiresAt ∧ s.authorization = none

/-- The invariant between two operations. -/
structure Saga.Core (h : Saga) : Prop where
  keyed : ∀ p id s, h.world.store = some p → p.sessions[(id : GoString)]? = some s →
    s.grant.sessionID = id ∧ s.managed = true
  retired : ∀ s ∈ h.world.retired, s.managed = true ∧ s.authorization = none
  authorized : ∀ p id s a, h.world.store = some p → p.sessions[(id : GoString)]? = some s →
    s.authorization = some a → ∃ policy, h.inForce = some policy ∧
      a.expiresAt = policy.expiresAt ∧ Listed lib policy s
  floors : ∀ policy, h.inForce = some policy → h.world.disk.Above policy
  barred : ∀ bar ∈ h.barred, Time.unix h.clock < bar.2 → h.world.Barred bar

/-- What the first half of `Apply` leaves for the second. -/
structure World.Prepared (w : World) (clock : Int) (a : Activation) (p : PolicyStore) : Prop where
  floors : w.disk.Above a.policy
  allowed : ∀ id s, id ∈ a.allowed → p.sessions[id]? = some s →
    Listed lib a.policy s ∧ ∀ bar, bar.1 = id → w.disk.Denies bar → bar.2 ≤ Time.unix clock
  omitted : ∀ bar ∈ p.omitted a.allowed, w.disk.Denies bar

/-- The invariant. -/
structure Saga.Inv (h : Saga) : Prop extends h.Core lib where
  prepared : ∀ a, h.world.activation = some a →
    ∃ p, h.world.store = some p ∧ h.world.Prepared lib h.clock a p

variable {lib}

variable {h : Saga}

theorem Saga.Inv.safe (hinv : h.Inv lib) : h.Safe lib where
  listed s now hmem hclock hactive := by
    unfold Session.active at hactive
    simp only [Bool.and_eq_true, decide_eq_true_eq] at hactive
    obtain ⟨⟨⟨hauth, -⟩, hgrant⟩, -⟩ := hactive
    rcases hmem with ⟨p, id, hstore, hget⟩ | hretired
    · rw [(hinv.keyed p id s hstore hget).2] at hauth
      cases hs : s.authorization with
      | none =>
        rw [hs] at hauth
        cases hauth
      | some a =>
        rw [hs] at hauth
        obtain ⟨policy, hforce, hexp, hlisted⟩ := hinv.authorized p id s a hstore hget hs
        simp only [Bool.not_true, Bool.false_or, Bool.and_eq_true, decide_eq_true_eq] at hauth
        exact ⟨policy, hforce, hlisted, hexp ▸ hauth.1, hgrant⟩
    · rw [(hinv.retired s hretired).1, (hinv.retired s hretired).2] at hauth
      cases hauth
  barred bar hbar s now hmem hid hclock hlt := by
    have hnone : s.managed = true ∧ s.authorization = none := by
      rcases hmem with ⟨p, id, hstore, hget⟩ | hretired
      · obtain ⟨hkey, hmanaged⟩ := hinv.keyed p id s hstore hget
        have hearlier := Time.unix_mono hclock
        have hb := hinv.toCore.barred bar hbar (by omega)
        exact ⟨hmanaged, (hb.tracked p s hstore (by rw [← hid, hkey]; exact hget)).2⟩
      · exact hinv.retired s hretired
    simp [Session.active, hnone.1, hnone.2]
  floors := by
    refine ⟨hinv.toCore.floors, fun a ha => ?_⟩
    obtain ⟨p, -, hprepared⟩ := hinv.prepared a ha
    exact hprepared.floors
  denials := by
    refine ⟨fun bar hbar hlt => (hinv.toCore.barred bar hbar hlt).denied, fun a p ha hp => ?_⟩
    obtain ⟨q, hq, hprepared⟩ := hinv.prepared a ha
    obtain rfl : q = p := Option.some.inj (hq.symm.trans hp)
    exact hprepared.omitted

/-! ## Quiet operations -/

/-- What a record may lose: denials that ran out, or that a tracked session's end replaces. -/
def PolicyState.Keeps (st st' : PolicyState) (w : World) (clock : Int) : Prop :=
  st.revision ≤ st'.revision ∧ st.issuedAt ≤ st'.issuedAt ∧
    ∀ (id : GoString) (d : Int), st.denied[id]? = some d → Time.unix clock < d →
      ∃ d', st'.denied[id]? = some d' ∧ (d ≤ d' ∨
        ∃ p s, w.store = some p ∧ p.sessions[id]? = some s ∧ d' = s.grant.expiresAt)

/-- **A quiet operation** authorizes nothing and forgets nothing. -/
structure Quiet (w w' : World) (clock : Int) : Prop where
  sessions : ∀ p' id s', w'.store = some p' → p'.sessions[(id : GoString)]? = some s' →
    (∃ p s, w.store = some p ∧ p.sessions[id]? = some s ∧ (s' = s ∨ s' = s.authorized none)) ∨
    (s'.grant.sessionID = id ∧ s'.managed = true ∧ s'.authorization = none ∧
      ∀ bar, bar.1 = id → w.disk.Denies bar → bar.2 ≤ Time.unix clock)
  retired : ∀ s' ∈ w'.retired, s' ∈ w.retired ∨
    ∃ p id s, w.store = some p ∧ p.sessions[(id : GoString)]? = some s ∧ s' = s.authorized none
  disk : ∀ st, w.disk = .holding st →
    ∃ st', w'.disk = .holding st' ∧ st.Keeps st' w clock
  idle : w.activation = none → w'.activation = none

/-- A table in which every session is unauthorized. -/
def World.AllClosed (w : World) : Prop :=
  ∀ p id s, w.store = some p → p.sessions[(id : GoString)]? = some s → s.authorization = none

variable {w w' : World} {clock : Int}

theorem World.Barred.quiet {bar : GoString × Int} (hbar : w.Barred bar) (hq : Quiet w w' clock)
    (hlt : Time.unix clock < bar.2) : w'.Barred bar := by
  obtain ⟨st, d, hdisk, hget, hle⟩ := hbar.denied
  obtain ⟨st', hdisk', -, -, hkeeps⟩ := hq.disk st hdisk
  obtain ⟨d', hget', hd'⟩ := hkeeps bar.1 d hget (by omega)
  refine ⟨⟨st', d', hdisk', hget', ?_⟩, fun p' s' hp' hs' => ?_⟩
  · rcases hd' with hle' | ⟨p, s, hp, hs, rfl⟩
    · omega
    · exact (hbar.tracked p s hp hs).1
  · rcases hq.sessions p' bar.1 s' hp' hs' with ⟨p, s, hp, hs, rfl | rfl⟩ | ⟨-, -, -, hfree⟩
    · exact hbar.tracked p _ hp hs
    · exact ⟨(hbar.tracked p s hp hs).1, rfl⟩
    · have hran := hfree bar rfl hbar.denied
      omega

variable {policy : Checkpoint}

theorem Disk.Above.quiet (habove : w.disk.Above policy) (hq : Quiet w w' clock) :
    w'.disk.Above policy := by
  obtain ⟨st, hdisk, hrev, hissued⟩ := habove
  obtain ⟨st', hdisk', hrev', hissued', -⟩ := hq.disk st hdisk
  exact ⟨st', hdisk', by omega, by omega⟩

/-- **Quiet operations keep the invariant.** -/
theorem Saga.Core.quiet (hcore : h.Core lib) {inForce : Option Checkpoint}
    (hclock : h.clock ≤ clock) (hq : Quiet h.world w' clock)
    (hforce : inForce = h.inForce ∨ (inForce = none ∧ w'.AllClosed)) :
    ({ world := w', clock, inForce, barred := h.barred } : Saga).Core lib where
  keyed p' id s' hp' hs' := by
    rcases hq.sessions p' id s' hp' hs' with ⟨p, s, hp, hs, rfl | rfl⟩ | ⟨hid, hmanaged, -⟩
    · exact hcore.keyed p id _ hp hs
    · exact hcore.keyed p id s hp hs
    · exact ⟨hid, hmanaged⟩
  retired s' hs' := by
    rcases hq.retired s' hs' with hold | ⟨p, id, s, hp, hs, rfl⟩
    · exact hcore.retired s' hold
    · exact ⟨(hcore.keyed p id s hp hs).2, rfl⟩
  authorized p' id s' a hp' hs' ha := by
    rcases hforce with hsame | ⟨-, hclosed⟩
    · rcases hq.sessions p' id s' hp' hs' with ⟨p, s, hp, hs, rfl | rfl⟩ | ⟨-, -, hnone, -⟩
      · rw [hsame]
        exact hcore.authorized p id _ a hp hs ha
      · cases ha
      · rw [hnone] at ha
        cases ha
    · rw [hclosed p' id s' hp' hs'] at ha
      cases ha
  floors policy hpolicy := by
    rcases hforce with hsame | ⟨hnone, -⟩
    · exact (hcore.floors policy (hsame ▸ hpolicy)).quiet hq
    · rw [hnone] at hpolicy
      cases hpolicy
  barred bar hbar hlt := by
    have hmono := Time.unix_mono hclock
    have hlt' : Time.unix clock < bar.2 := hlt
    exact (hcore.barred bar hbar (by omega)).quiet hq hlt'

/-! ## Which operations are quiet -/

variable {st st' : PolicyState}

theorem PolicyState.Keeps.of_same (hrev : st'.revision = st.revision)
    (hissued : st'.issuedAt = st.issuedAt) (hdenied : st'.denied = st.denied) :
    st.Keeps st' w clock := by
  refine ⟨by omega, by omega, fun id d hget _ => ⟨d, ?_, Or.inl (le_refl d)⟩⟩
  rw [hdenied]
  exact hget

theorem Quiet.refl (w : World) (clock : Int) : Quiet w w clock where
  sessions p' _ s' hp' hs' := Or.inl ⟨p', s', hp', hs', Or.inl rfl⟩
  retired _ hs' := Or.inl hs'
  disk st hst := ⟨st, hst, PolicyState.Keeps.of_same rfl rfl rfl⟩
  idle h := h

variable {id : GoString}

theorem World.failClosed_get {p' : PolicyStore} {s' : Session} (hp' : w.failClosed.store = some p')
    (hs' : p'.sessions[id]? = some s') :
    ∃ p s, w.store = some p ∧ p.sessions[id]? = some s ∧ s' = s.authorized none := by
  obtain ⟨p, hp, rfl⟩ := Option.map_eq_some_iff.mp hp'
  rw [PolicyStore.get_failClosed] at hs'
  obtain ⟨s, hs, rfl⟩ := Option.map_eq_some_iff.mp hs'
  exact ⟨p, s, hp, hs, rfl⟩

theorem World.failClosed_allClosed (w : World) : w.failClosed.AllClosed := by
  intro p' id s' hp' hs'
  obtain ⟨p, s, -, -, rfl⟩ := failClosed_get hp' hs'
  rfl

theorem World.failClosed_quiet (w : World) (clock : Int) : Quiet w w.failClosed clock where
  sessions p' id s' hp' hs' := by
    obtain ⟨p, s, hp, hs, rfl⟩ := failClosed_get hp' hs'
    exact Or.inl ⟨p, s, hp, hs, Or.inr rfl⟩
  retired s' hs' := Or.inl hs'
  disk st hst := ⟨st, hst, PolicyState.Keeps.of_same rfl rfl rfl⟩
  idle h := h

/-- An open store tracks nothing. -/
def World.Vacant (w : World) : Prop := ∀ p, w.store = some p → p.sessions = ∅

theorem World.Vacant.allClosed (h : w.Vacant) : w.AllClosed := by
  intro p id s hp hs
  rw [h p hp, SortedMap.get_empty] at hs
  cases hs

theorem Quiet.of_vacant (hvacant : w'.Vacant) (hretired : ∀ s ∈ w'.retired, s ∈ w.retired)
    (hdisk : ∀ st, w.disk = .holding st → w'.disk = .holding st)
    (hidle : w.activation = none → w'.activation = none) : Quiet w w' clock where
  sessions p' _ _ hp' hs' := by
    rw [hvacant p' hp', SortedMap.get_empty] at hs'
    cases hs'
  retired s' hs' := Or.inl (hretired s' hs')
  disk st hst := ⟨st, hdisk st hst, PolicyState.Keeps.of_same rfl rfl rfl⟩
  idle := hidle

theorem World.vacant_of_store {trust : Trust} (h : w.store = some { trust, sessions := ∅ }) :
    w.Vacant := by
  intro p hp
  rw [h] at hp
  cases hp
  rfl

theorem World.vacant_of_closed (h : w.store = none) : w.Vacant := by
  intro p hp
  rw [h] at hp
  cases hp

theorem World.create_quiet (w : World) (trust : Trust) (written : Bool) (clock : Int) :
    Quiet w (w.create trust written).1 clock ∧
      ((w.create trust written).2 = .ok () → (w.create trust written).1.AllClosed) := by
  unfold create
  split
  · exact ⟨Quiet.refl w clock, fun h => by cases h⟩
  split
  · next hdisk hstore =>
    have habsent : ∀ (d : Disk) st, w.disk = .holding st → d = .holding st := by
      intro d st hst
      rw [hdisk] at hst
      cases hst
    split
    · have hvacant := vacant_of_store (w := { w with
        disk := .holding (PolicyState.initial trust), store := some { trust, sessions := ∅ } }) rfl
      exact ⟨Quiet.of_vacant hvacant (fun _ hs => hs) (habsent _) id, fun _ => hvacant.allClosed⟩
    · exact ⟨Quiet.of_vacant (vacant_of_closed hstore) (fun _ hs => hs) (habsent _) id,
        fun h => by cases h⟩
  · exact ⟨Quiet.refl w clock, fun h => by cases h⟩

theorem World.reopen_quiet (w : World) (trust : Trust) (clock : Int) :
    Quiet w (w.reopen trust).1 clock ∧
      ((w.reopen trust).2 = .ok () → (w.reopen trust).1.AllClosed) := by
  unfold reopen
  split
  · exact ⟨Quiet.refl w clock, fun h => by cases h⟩
  split
  · split
    · exact ⟨Quiet.refl w clock, fun h => by cases h⟩
    · have hvacant := vacant_of_store
        (w := { w with store := some { trust, sessions := ∅ } }) rfl
      exact ⟨Quiet.of_vacant hvacant (fun _ hs => hs) (fun _ hst => hst) id,
        fun _ => hvacant.allClosed⟩
  all_goals exact ⟨Quiet.refl w clock, fun h => by cases h⟩

theorem reserve_free {trust : Trust} {g : Grant} {later : Int} (hdisk : w.disk = .holding st)
    (h : reserve trust g later st = .ok st') (hle : later ≤ clock) {bar : GoString × Int}
    (hid : bar.1 = g.sessionID) (hdenies : w.disk.Denies bar) : bar.2 ≤ Time.unix clock := by
  obtain ⟨st₀, d, hdisk₀, hget, hbar⟩ := hdenies
  obtain rfl : st₀ = st := by
    rw [hdisk] at hdisk₀
    exact (Disk.holding.inj hdisk₀).symm
  have hfree := (reserve_ok h).1
  rw [← hid, hget] at hfree
  have hmono := Time.unix_mono hle
  have hd : d ≤ Time.unix later := hfree
  omega

variable {now finish : Int}

theorem World.track_quiet (lib : StoreLib) (w : World) (ticket : GoString) {later : Int}
    {clock : GoString → Int} (written : Bool) (hle : later ≤ finish) :
    Quiet w (w.track lib ticket now later clock written).1 finish := by
  unfold track
  split
  · exact Quiet.refl w finish
  next p hstore =>
  split
  · exact Quiet.refl w finish
  next s hverify =>
  split
  · exact Quiet.refl w finish
  split
  · exact Quiet.refl w finish
  next w' hupdate =>
  obtain ⟨st, st', hdisk, hreserve, rfl, -⟩ := update_ok hupdate
  obtain ⟨-, hdenied, hrev, hissued⟩ := reserve_ok hreserve
  -- the table without its expired sessions: the first half of the rest of the call
  have hquiet : Quiet w (({ w with disk := .holding st' } : World).expire p clock) finish :=
    { sessions := fun p' id s' hp' hs' => by
        cases hp'
        exact Or.inl ⟨p, s', hstore, PolicyStore.get_unexpired hs', Or.inl rfl⟩
      retired := fun s' hs' => by
        rcases List.mem_append.mp hs' with hnew | hold
        · obtain ⟨t, ht, rfl⟩ := List.mem_map.mp hnew
          obtain ⟨id, hid⟩ := mem_sessionsOf.mp ht
          exact Or.inr ⟨p, id, t, hstore, PolicyStore.get_expired hid, rfl⟩
        · exact Or.inl hold
      disk := fun st₀ hst₀ => by
        rw [hdisk] at hst₀
        cases hst₀
        exact ⟨st', rfl, PolicyState.Keeps.of_same hrev hissued hdenied⟩
      idle := id }
  unfold enlist
  split
  · exact hquiet
  split
  · exact hquiet
  -- and the new session, if there is room for it
  refine { hquiet with sessions := fun p' id s' hp' hs' => ?_ }
  cases hp'
  dsimp only at hs'
  rw [SortedMap.get_insert] at hs'
  split at hs'
  · next hid =>
    cases hs'
    obtain ⟨-, -, hauth, -⟩ := verifyGrant_ok hverify
    exact Or.inr ⟨hid, rfl, hauth, fun bar hbar hdenies =>
      reserve_free hdisk hreserve hle (hbar.trans hid.symm) hdenies⟩
  · exact Or.inl ⟨p, s', hstore, PolicyStore.get_unexpired hs', Or.inl rfl⟩

theorem stopSession_ok {expiresAt : Int} {clock : GoString → Int}
    (h : stopSession id expiresAt clock st = .ok st') :
    st'.revision = st.revision ∧ st'.issuedAt = st.issuedAt ∧
      st'.denied = (st.denied.filter fun id expiry =>
        decide (Time.unix (clock id) < expiry)).insert id expiresAt := by
  unfold stopSession at h
  dsimp only at h
  split at h
  · cases h
  · cases h
    exact ⟨rfl, rfl, rfl⟩

variable {p : PolicyStore}

theorem stopSession_keeps {s : Session} {clock : GoString → Int} (hp : w.store = some p)
    (hs : p.sessions[id]? = some s) (hclock : ∀ id, clock id ≤ finish)
    (h : stopSession id s.grant.expiresAt clock st = .ok st') : st.Keeps st' w finish := by
  obtain ⟨hrev, hissued, hdenied⟩ := stopSession_ok h
  refine ⟨by omega, by omega, fun a d hget hlt => ?_⟩
  rw [hdenied, SortedMap.get_insert]
  by_cases ha : id = a
  · rw [if_pos ha]
    exact ⟨s.grant.expiresAt, rfl, Or.inr ⟨p, s, hp, ha ▸ hs, rfl⟩⟩
  · have hmono := Time.unix_mono (hclock a)
    rw [if_neg ha, Std.ExtTreeMap.getElem?_filter', hget]
    refine ⟨d, ?_, Or.inl (le_refl d)⟩
    simp only [Option.filter_some]
    rw [if_pos (by simp only [decide_eq_true_eq]; omega)]

/-- **`Stop` closes everything**, and bars the session. -/
theorem World.stop_quiet (w : World) (id : GoString) (written : Bool) {clock : GoString → Int}
    (hclock : ∀ id, clock id ≤ finish) :
    Quiet w (w.stop id clock written).1 finish ∧ (w.stop id clock written).1.AllClosed ∧
      ∀ p s, (w.stop id clock written).2 = .ok () → w.store = some p →
        p.sessions[id]? = some s →
          (w.stop id clock written).1.Barred (id, s.grant.expiresAt) := by
  have hfail := w.failClosed_quiet finish
  have hclosed := w.failClosed_allClosed
  unfold stop
  split
  · exact ⟨hfail, hclosed, fun _ _ h => by cases h⟩
  next p' hp' =>
  split
  · exact ⟨hfail, hclosed, fun _ _ h => by cases h⟩
  next s' hs' =>
  split
  · exact ⟨hfail, hclosed, fun _ _ h => by cases h⟩
  next w' hupdate =>
  obtain ⟨st, st', hdisk, hstop, rfl, -⟩ := update_ok hupdate
  obtain ⟨p, s, hp, hs, rfl⟩ := failClosed_get hp' hs'
  refine ⟨{ hfail with disk := fun st₀ hst₀ => ?_ }, hclosed, fun q t _ hq ht => ?_⟩
  · obtain rfl : st₀ = st := by
      rw [show w.failClosed.disk = w.disk from rfl, hst₀] at hdisk
      exact Disk.holding.inj hdisk
    exact ⟨st', rfl, stopSession_keeps hp hs hclock hstop⟩
  · obtain rfl : p = q := Option.some.inj (hp.symm.trans hq)
    obtain rfl : s = t := Option.some.inj (hs.symm.trans ht)
    refine ⟨⟨st', s.grant.expiresAt, rfl, ?_, le_refl _⟩, fun q' t' hq' ht' => ?_⟩
    · rw [(stopSession_ok hstop).2.2]
      exact SortedMap.get_insert_self _ _ _
    · obtain ⟨q, t, hq, ht, rfl⟩ := failClosed_get hq' ht'
      obtain rfl : p = q := Option.some.inj (hp.symm.trans hq)
      obtain rfl : s = t := Option.some.inj (hs.symm.trans ht)
      exact ⟨le_refl _, rfl⟩

theorem World.close_quiet (w : World) (clock : Int) :
    Quiet w w.close clock ∧ w.close.AllClosed := by
  unfold close
  split
  · next hnone =>
    have hstore : w.store = none := Option.map_eq_none_iff.mp hnone
    exact ⟨Quiet.refl w clock, (vacant_of_closed hstore).allClosed⟩
  · next p' hp' =>
    refine ⟨?_, (vacant_of_closed rfl).allClosed⟩
    refine { sessions := fun _ _ _ hp => (by cases hp), retired := fun s' hs' => ?_,
             disk := fun st hst => ⟨st, hst, PolicyState.Keeps.of_same rfl rfl rfl⟩, idle := id }
    rcases List.mem_append.mp hs' with hnew | hold
    · obtain ⟨id, hid⟩ := mem_sessionsOf.mp hnew
      obtain ⟨p, s, hp, hs, rfl⟩ := failClosed_get hp' hid
      exact Or.inr ⟨p, id, s, hp, hs, rfl⟩
    · exact Or.inl hold

theorem World.crash_quiet (w : World) (clock : Int) :
    Quiet w w.crash clock ∧ w.crash.AllClosed :=
  ⟨Quiet.of_vacant (vacant_of_closed rfl) (fun _ hs => by cases hs) (fun _ hst => hst)
    fun _ => rfl, (vacant_of_closed rfl).allClosed⟩

/-! ## The two halves of `Apply` -/

theorem PolicyStore.readCheckpoint_ok {ticket : GoString} {allowed : List GoString}
    (h : p.readCheckpoint lib ticket now = .ok (policy, allowed)) :
    ∀ id ∈ allowed, ∃ s, p.sessions[id]? = some s ∧
      ⟨id, ticketHash lib s.ticket⟩ ∈ policy.allowed := by
  unfold readCheckpoint at h
  split at h
  · cases h
  split at h
  · cases h
  split at h
  · cases h
  split at h
  · cases h
  split at h
  · cases h
  split at h
  · cases h
  next hallow =>
  cases h
  intro id hid
  rcases p.allow_ok lib hallow id hid with hseen | hlisted
  · cases hseen
  · exact hlisted

theorem PolicyStore.Persisted.keeps {allowed : List GoString}
    (h : p.Persisted policy allowed now st st') (hp : w.store = some p) (hle : now ≤ finish) :
    st.Keeps st' w finish := by
  have hmono := Time.unix_mono hle
  obtain ⟨hrev, hrev'⟩ := h.revision
  obtain ⟨hissued, hissued'⟩ := h.issuedAt
  refine ⟨by omega, by omega, fun id d hget hlt => ?_⟩
  by_cases hmem : id ∈ (p.omitted allowed).map Prod.fst
  · obtain ⟨⟨a, expiry⟩, he, rfl⟩ := List.mem_map.mp hmem
    obtain ⟨-, s, hs, rfl⟩ := mem_omitted.mp he
    exact ⟨_, h.omitted _ he, Or.inr ⟨p, s, hp, hs, rfl⟩⟩
  · exact ⟨d, h.kept id d hget (by omega) hmem, Or.inl (le_refl d)⟩

/-- **Persist before activating**: the first half authorizes nothing, and puts on disk what the
    second needs. -/
theorem World.apply_quiet (lib : StoreLib) (w : World) (ticket : GoString) (written : Bool)
    (hle : now ≤ finish)
    (hkeyed : ∀ p id s, w.store = some p → p.sessions[(id : GoString)]? = some s →
      s.grant.sessionID = id) :
    (∃ e, (w.apply lib ticket now written).2 = .error e ∧
      (w.apply lib ticket now written).1 = w.failClosed) ∨
    (∃ p a st st', (w.apply lib ticket now written).2 = .ok () ∧ w.store = some p ∧
      w.disk = .holding st ∧ st.revision < st'.revision ∧
      (w.apply lib ticket now written).1 =
        { w with disk := .holding st', activation := some a } ∧ st.Keeps st' w finish ∧
      ({ w with disk := .holding st', activation := some a } : World).Prepared lib finish a p) := by
  unfold apply
  split
  · exact Or.inl ⟨_, rfl, rfl⟩
  next p hp =>
  split
  · exact Or.inl ⟨_, rfl, rfl⟩
  next policy allowed hread =>
  split
  · exact Or.inl ⟨_, rfl, rfl⟩
  next w' hupdate =>
  obtain ⟨st, st', hdisk, hpersist, rfl, -⟩ := update_ok hupdate
  have hper := PolicyStore.persist_ok hpersist
  refine Or.inr ⟨p, ⟨policy, allowed, now⟩, st, st', rfl, hp, hdisk, ?_, rfl,
    hper.keeps hp hle, ?_⟩
  · rw [hper.revision.2]
    exact hper.revision.1
  · refine ⟨⟨st', rfl, le_of_eq hper.revision.2.symm, le_of_eq hper.issuedAt.2.symm⟩,
      fun id s hid hs => ⟨?_, ?_⟩, fun bar hbar => ⟨st', bar.2, rfl, hper.omitted bar hbar,
        le_refl _⟩⟩
    · obtain ⟨t, ht, hlisted⟩ := PolicyStore.readCheckpoint_ok hread id hid
      obtain rfl : t = s := Option.some.inj (ht.symm.trans hs)
      show (⟨_, _⟩ : PolicyEntry) ∈ policy.allowed
      rw [hkeyed p id t hp hs]
      exact hlisted
    · rintro bar rfl ⟨st₀, d, hst₀, hget, hbar⟩
      cases hst₀
      have hfree := hper.allowed bar.1 s hid hs
      rw [hget] at hfree
      have hd : d ≤ Time.unix now := hfree
      have hmono := Time.unix_mono hle
      omega

theorem Activation.get_cases {a : Activation} {s' : Session}
    (h : (p.sessions.map a.authorize)[id]? = some s') :
    ∃ s, p.sessions[id]? = some s ∧ s'.grant = s.grant ∧ s'.ticket = s.ticket ∧
      s'.managed = s.managed ∧ (s'.authorization = none ∨
        id ∈ a.allowed ∧ ∀ b, s'.authorization = some b → b.expiresAt = a.policy.expiresAt) := by
  rw [a.get_map] at h
  obtain ⟨s, hs, rfl⟩ := Option.map_eq_some_iff.mp h
  refine ⟨s, hs, rfl, rfl, rfl, ?_⟩
  unfold authorize Session.authorized
  dsimp only
  split
  · next hid =>
    refine Or.inr ⟨hid, fun b hb => ?_⟩
    cases hb
    rfl
  · exact Or.inl rfl

/-- **The second half of `Apply` keeps the invariant.** -/
theorem Saga.Inv.activate (hinv : h.Inv lib) {a : Activation} (ha : h.world.activation = some a)
    (hp : h.world.store = some p) (hle : h.clock ≤ finish) :
    ({ world := h.world.activate, clock := finish, inForce := some a.policy
       barred := p.omitted a.allowed ++ h.barred } : Saga).Inv lib := by
  obtain ⟨q, hq, hprep⟩ := hinv.prepared a ha
  obtain rfl : q = p := Option.some.inj (hq.symm.trans hp)
  have hmono := Time.unix_mono hle
  have hworld : h.world.activate = { h.world with
      store := some { q with sessions := q.sessions.map a.authorize }, activation := none } := by
    unfold World.activate
    rw [ha, hp]
  rw [hworld]
  refine ⟨⟨?_, hinv.retired, ?_, ?_, ?_⟩, fun b hb => by cases hb⟩
  · intro p' id s' hp' hs'
    cases hp'
    obtain ⟨s, hs, hgrant, -, hmanaged, -⟩ := Activation.get_cases hs'
    rw [hgrant, hmanaged]
    exact hinv.keyed q id s hp hs
  · intro p' id s' b hp' hs' hb
    cases hp'
    obtain ⟨s, hs, hgrant, hticket, -, hnone | ⟨hid, hexp⟩⟩ := Activation.get_cases hs'
    · rw [hnone] at hb
      cases hb
    · refine ⟨a.policy, rfl, hexp b hb, ?_⟩
      unfold Listed
      rw [hgrant, hticket]
      exact (hprep.allowed id s hid hs).1
  · intro policy hpolicy
    cases hpolicy
    exact hprep.floors
  · intro bar hbar hlt
    rcases List.mem_append.mp hbar with hnew | hold
    · -- a session that the checkpoint omits
      refine ⟨hprep.omitted bar hnew, fun p' s' hp' hs' => ?_⟩
      cases hp'
      obtain ⟨hnot, s, hs, hexp⟩ := PolicyStore.mem_omitted.mp hnew
      obtain ⟨t, ht, hgrant, -, -, hauth⟩ := Activation.get_cases hs'
      obtain rfl : s = t := Option.some.inj (hs.symm.trans ht)
      refine ⟨by rw [hgrant]; exact le_of_eq hexp, ?_⟩
      rcases hauth with hnone | ⟨hid, -⟩
      · exact hnone
      · exact absurd hid hnot
    · -- an older bar that still counts: the checkpoint cannot allow its session
      have hlt' : Time.unix finish < bar.2 := hlt
      have hb := hinv.toCore.barred bar hold (by omega)
      refine ⟨hb.denied, fun p' s' hp' hs' => ?_⟩
      cases hp'
      obtain ⟨s, hs, hgrant, -, -, hauth⟩ := Activation.get_cases hs'
      refine ⟨by rw [hgrant]; exact (hb.tracked q s hp hs).1, ?_⟩
      rcases hauth with hnone | ⟨hid, -⟩
      · exact hnone
      · have hran := (hprep.allowed bar.1 s hid hs).2 bar rfl hb.denied
        omega

/-! ## Whole runs -/

theorem Saga.Inv.quiet (hinv : h.Inv lib) {inForce : Option Checkpoint} (hclock : h.clock ≤ clock)
    (hq : Quiet h.world w' clock) (hidle : w'.activation = none)
    (hforce : inForce = h.inForce ∨ (inForce = none ∧ w'.AllClosed)) :
    ({ world := w', clock, inForce, barred := h.barred } : Saga).Inv lib where
  toCore := hinv.toCore.quiet hclock hq hforce
  prepared a ha := by
    have ha' : w'.activation = some a := ha
    rw [hidle] at ha'
    cases ha'

theorem Saga.Inv.bars (hinv : h.Inv lib) (bars : List (GoString × Int))
    (hbars : ∀ bar ∈ bars, h.world.Barred bar) :
    ({ h with barred := bars ++ h.barred } : Saga).Inv lib where
  keyed := hinv.keyed
  retired := hinv.retired
  authorized := hinv.authorized
  floors := hinv.floors
  barred b hb hlt := by
    rcases List.mem_append.mp hb with hnew | hold
    · exact hbars b hnew
    · exact hinv.barred b hold hlt
  prepared := hinv.prepared

/-- No floor sinks. -/
def Disk.Rises (d d' : Disk) : Prop :=
  ∀ st, d = .holding st → ∃ st', d' = .holding st' ∧ st.revision ≤ st'.revision ∧
    st.issuedAt ≤ st'.issuedAt

theorem Disk.Rises.refl (d : Disk) : d.Rises d :=
  fun st hst => ⟨st, hst, le_refl _, le_refl _⟩

theorem Disk.Rises.trans {d d' d'' : Disk} (h : d.Rises d') (h' : d'.Rises d'') : d.Rises d'' := by
  intro st hst
  obtain ⟨st', hst', hrev, hissued⟩ := h st hst
  obtain ⟨st'', hst'', hrev', hissued'⟩ := h' st' hst'
  exact ⟨st'', hst'', le_trans hrev hrev', le_trans hissued hissued'⟩

theorem Quiet.rises (h : Quiet w w' clock) : w.disk.Rises w'.disk := by
  intro st hst
  obtain ⟨st', hst', hrev, hissued, -⟩ := h.disk st hst
  exact ⟨st', hst', hrev, hissued⟩

/-- **One operation keeps the invariant and lowers no floor.** -/
theorem Saga.Inv.step (hinv : h.Inv lib) {event : Op × Int} (hok : h.Permits event) :
    (h.step lib event).Inv lib ∧ h.world.disk.Rises (h.step lib event).world.disk := by
  obtain ⟨op, finish⟩ := event
  obtain ⟨hclock, hreads, hlock⟩ := hok
  -- outside the lock of an `Apply`, nothing is waiting to be activated
  have hidle : op.Continues = false → h.world.activation = none := by
    intro hop
    rw [← Option.not_isSome_iff_eq_none]
    intro hsome
    rw [hlock hsome] at hop
    cases hop
  cases op with
  | create trust written =>
    obtain ⟨hq, hclosed⟩ := h.world.create_quiet trust written finish
    refine ⟨hinv.quiet hclock hq (hq.idle (hidle rfl)) ?_, hq.rises⟩
    cases hres : (h.world.create trust written).2 with
    | ok u => exact Or.inr ⟨rfl, hclosed hres⟩
    | error e => exact Or.inl rfl
  | reopen trust =>
    obtain ⟨hq, hclosed⟩ := h.world.reopen_quiet trust finish
    refine ⟨hinv.quiet hclock hq (hq.idle (hidle rfl)) ?_, hq.rises⟩
    cases hres : (h.world.reopen trust).2 with
    | ok u => exact Or.inr ⟨rfl, hclosed hres⟩
    | error e => exact Or.inl rfl
  | track ticket now later clock written =>
    have hlater : later ≤ finish := le_trans (hreads.2.2 []).1 (hreads.2.2 []).2
    have hq : Quiet h.world (h.world.track lib ticket now later clock written).1 finish :=
      h.world.track_quiet lib ticket written hlater
    exact ⟨hinv.quiet hclock hq (hq.idle (hidle rfl)) (Or.inl rfl), hq.rises⟩
  | apply ticket now written =>
    rcases h.world.apply_quiet lib ticket written hreads.2
        (fun p id s hp hs => (hinv.keyed p id s hp hs).1) with
      ⟨e, herror, hworld⟩ | ⟨p, a, st, st', hokay, hp, hdisk, -, hworld, hkeeps, hprep⟩
    · have hq := h.world.failClosed_quiet finish
      have hstep : h.step lib (.apply ticket now written, finish) =
          { world := h.world.failClosed, clock := finish, inForce := none,
            barred := h.barred } := by
        simp only [Saga.step, herror, hworld]
      rw [hstep]
      exact ⟨hinv.quiet hclock hq (hq.idle (hidle rfl))
        (Or.inr ⟨rfl, h.world.failClosed_allClosed⟩), hq.rises⟩
    · have hq : Quiet h.world { h.world with disk := .holding st' } finish :=
        { Quiet.refl h.world finish with
          disk := fun st₀ hst₀ => by
            rw [hdisk] at hst₀
            cases hst₀
            exact ⟨st', rfl, hkeeps⟩ }
      have hcore := hinv.toCore.quiet hclock hq (Or.inl rfl)
      have hstep : h.step lib (.apply ticket now written, finish) =
          { world := { h.world with disk := .holding st', activation := some a },
            clock := finish, inForce := h.inForce, barred := h.barred } := by
        simp only [Saga.step, hokay, hworld]
      rw [hstep]
      refine ⟨⟨⟨hcore.keyed, hcore.retired, hcore.authorized, hcore.floors, ?_⟩, ?_⟩, hq.rises⟩
      · intro bar hbar hlt
        have hb := hcore.barred bar hbar hlt
        exact ⟨hb.denied, hb.tracked⟩
      · intro b hb
        cases hb
        exact ⟨p, hp, hprep⟩
  | activate =>
    unfold Saga.step
    dsimp only
    split
    · next a p ha hp =>
      refine ⟨hinv.activate ha hp hclock, ?_⟩
      have hdisk : h.world.activate.disk = h.world.disk := by
        unfold World.activate
        rw [ha, hp]
      rw [hdisk]
      exact Disk.Rises.refl _
    · next hnone =>
      refine ⟨⟨hinv.toCore.quiet hclock (Quiet.refl _ _) (Or.inl rfl), fun a ha => ?_⟩,
        Disk.Rises.refl _⟩
      obtain ⟨p, hp, -⟩ := hinv.prepared a ha
      exact absurd hp (hnone a p ha)
  | stop id clock written =>
    obtain ⟨hq, hclosed, hbarred⟩ := h.world.stop_quiet id written fun id => (hreads id).2
    have hinv' := hinv.quiet hclock hq (hq.idle (hidle rfl)) (Or.inr ⟨rfl, hclosed⟩)
    refine ⟨?_, hq.rises⟩
    unfold Saga.step
    dsimp only
    split
    · next s hres hs =>
      obtain ⟨p, hp, hget⟩ := Option.bind_eq_some_iff.mp hs
      refine hinv'.bars [(id, s.grant.expiresAt)] fun bar hbar => ?_
      rw [List.mem_singleton.mp hbar]
      exact hbarred p s hres hp hget
    · exact hinv'
  | failClosed =>
    have hq := h.world.failClosed_quiet finish
    exact ⟨hinv.quiet hclock hq (hq.idle (hidle rfl))
      (Or.inr ⟨rfl, h.world.failClosed_allClosed⟩), hq.rises⟩
  | close =>
    obtain ⟨hq, hclosed⟩ := h.world.close_quiet finish
    exact ⟨hinv.quiet hclock hq (hq.idle (hidle rfl)) (Or.inr ⟨rfl, hclosed⟩), hq.rises⟩
  | crash =>
    obtain ⟨hq, hclosed⟩ := h.world.crash_quiet finish
    refine ⟨(hinv.quiet hclock hq rfl (Or.inr ⟨rfl, hclosed⟩)).bars _ fun bar hbar => ?_, hq.rises⟩
    -- the transaction went through, and no session is left
    refine ⟨?_, fun _ _ hp => by cases hp⟩
    unfold World.pendingBars at hbar
    split at hbar
    · next a p ha hp =>
      obtain ⟨q, hq', hprep⟩ := hinv.prepared a ha
      obtain rfl : q = p := Option.some.inj (hq'.symm.trans hp)
      exact hprep.omitted bar hbar
    · cases hbar

/-- A run. -/
def Saga.run (lib : StoreLib) (h : Saga) (ops : List (Op × Int)) : Saga := ops.foldl (step lib) h

theorem Saga.start_inv (lib : StoreLib) (clock : Int) : (Saga.start clock).Inv lib where
  keyed _ _ _ hp := by cases hp
  retired _ hs := by cases hs
  authorized _ _ _ _ hp := by cases hp
  floors _ hp := by cases hp
  barred _ hb := by cases hb
  prepared _ ha := by cases ha

theorem Saga.Inv.run (hinv : h.Inv lib) {ops : List (Op × Int)}
    (hrun : Guarded (Saga.step lib) Saga.Permits h ops) :
    (h.run lib ops).Inv lib ∧ h.world.disk.Rises (h.run lib ops).world.disk := by
  refine Guarded.invariant
    (I := fun t : Saga => t.Inv lib ∧ h.world.disk.Rises t.world.disk) ?_ ops hrun
    ⟨hinv, Disk.Rises.refl _⟩
  rintro t event ⟨ht, hrises⟩ hok
  obtain ⟨ht', hrises'⟩ := ht.step hok
  exact ⟨ht', hrises.trans hrises'⟩

/-- **The policy store is fail-closed and monotone.**  In every state reached, what is active is
    listed by the checkpoint in force, what was barred stays inactive until its grant ends, and the
    floors and denials are on disk; from there on no floor sinks, and an accepted checkpoint raises
    the revision. -/
theorem policy_store_fail_closed (lib : StoreLib) (clock : Int) (ops more : List (Op × Int))
    (hops : Guarded (Saga.step lib) Saga.Permits (Saga.start clock) ops)
    (hmore : Guarded (Saga.step lib) Saga.Permits ((Saga.start clock).run lib ops) more) :
    ((Saga.start clock).run lib ops).Safe lib ∧
    ((Saga.start clock).run lib ops).world.disk.Rises
      (((Saga.start clock).run lib ops).run lib more).world.disk ∧
    ∀ ticket now written,
      (((Saga.start clock).run lib ops).world.apply lib ticket now written).2 = .ok () →
        ∃ st st', ((Saga.start clock).run lib ops).world.disk = .holding st ∧
          (((Saga.start clock).run lib ops).world.apply lib ticket now written).1.disk =
            .holding st' ∧ st.revision < st'.revision := by
  obtain ⟨hinv, -⟩ := (Saga.start_inv lib clock).run hops
  refine ⟨hinv.safe, (hinv.run hmore).2, fun ticket now written hokay => ?_⟩
  rcases World.apply_quiet lib _ ticket written (le_refl now)
      (fun p id s hp hs => (hinv.keyed p id s hp hs).1) with
    ⟨e, herror, -⟩ | ⟨p, a, st, st', -, -, hdisk, hrev, hworld, -, -⟩
  · rw [herror] at hokay
    cases hokay
  · exact ⟨st, st', hdisk, by rw [hworld], hrev⟩

/-! ## A session that becomes active -/

/-- A checkpoint that allows the session of the known ticket. -/
def pilotCheckpoint : Checkpoint :=
  { version := 1, clusterID := [99], deviceID := [2], revision := 8, issuedAt := 1700000001
    expiresAt := 1700000031, allowed := [⟨List.replicate 32 48, encodeHex [1]⟩] }

/-- A library that knows one ticket and one checkpoint. -/
def pilotLib : StoreLib where
  toGrantLib := pilotGrantLib
  decodeCheckpoint p := if p = [2] then .ok pilotCheckpoint else .error "invalid P2P document"

/-- Seconds after the pilot starts. -/
def pilotAt (seconds : Int) : Int := Time.ofUnix (1700000000 + seconds)

/-- The trust of Device 2. -/
def pilotTrust : Trust := ⟨[99], [2], List.replicate 32 1⟩

/-- The session is tracked, and a checkpoint allows it. -/
def pilotOps : List (Op × Int) :=
  [(.create pilotTrust true, pilotAt 1),
    (.track [1] (pilotAt 1) (pilotAt 1) (fun _ => pilotAt 1) true, pilotAt 1),
    (.apply [2] (pilotAt 2) true, pilotAt 2), (.activate, pilotAt 2)]

/-- It is stopped; then the process dies, and the store is opened again. -/
def pilotStop : List (Op × Int) :=
  [(.stop (List.replicate 32 48) (fun _ => pilotAt 3) true, pilotAt 3), (.crash, pilotAt 4),
    (.reopen pilotTrust, pilotAt 5)]

/-- The ticket is tracked once more, and refused; then the store closes. -/
def pilotRetry : List (Op × Int) :=
  [(.track [1] (pilotAt 6) (pilotAt 6) (fun _ => pilotAt 6) true, pilotAt 6), (.close, pilotAt 7)]

/-- The session is active until it is stopped, and barred across the crash. -/
theorem policy_store_fail_closed_pilot :
    (((Saga.start (pilotAt 0)).run pilotLib pilotOps).world.store.bind fun p =>
      p.sessions[List.replicate 32 (48 : UInt8)]?).any (·.active (pilotAt 3)) = true ∧
    let h := (Saga.start (pilotAt 0)).run pilotLib (pilotOps ++ pilotStop)
    h.barred = [(List.replicate 32 48, 1700000060)] ∧ h.Safe pilotLib ∧
      h.world.disk.Rises (h.run pilotLib pilotRetry).world.disk ∧
      (h.run pilotLib pilotRetry).world.retired = [] := by
  refine ⟨by decide +kernel, ?_⟩
  intro h
  have hclock : ((Saga.start (pilotAt 0)).run pilotLib pilotOps).clock ≤ pilotAt 3 := by
    decide +kernel
  have hops : Guarded (Saga.step pilotLib) Saga.Permits (Saga.start (pilotAt 0))
      (pilotOps ++ pilotStop) := by
    refine ⟨⟨by decide, trivial, ?_⟩, ⟨by decide, ⟨by decide, by decide, ?_⟩, ?_⟩,
      ⟨by decide, ⟨by decide, by decide⟩, ?_⟩, ⟨by decide, trivial, fun _ => rfl⟩,
      ⟨hclock, ?_, ?_⟩, ⟨by decide, trivial, fun _ => rfl⟩, ⟨by decide, trivial, ?_⟩, trivial⟩
    · exact fun hsome => absurd hsome (by decide +kernel)
    · exact fun _ => ⟨le_refl _, le_refl _⟩
    · exact fun hsome => absurd hsome (by decide +kernel)
    · exact fun hsome => absurd hsome (by decide +kernel)
    · exact fun _ => ⟨hclock, le_refl _⟩
    · exact fun hsome => absurd hsome (by decide +kernel)
    · exact fun hsome => absurd hsome (by decide +kernel)
  have hmore : Guarded (Saga.step pilotLib) Saga.Permits h pilotRetry := by
    refine ⟨⟨by decide, ⟨by decide, by decide, ?_⟩, ?_⟩, ⟨by decide, trivial, ?_⟩, trivial⟩
    · exact fun _ => ⟨le_refl _, le_refl _⟩
    · exact fun hsome => absurd hsome (by decide +kernel)
    · exact fun hsome => absurd hsome (by decide +kernel)
  obtain ⟨hsafe, hrises, -⟩ := policy_store_fail_closed pilotLib (pilotAt 0) _ pilotRetry hops hmore
  have hretired : (h.run pilotLib pilotRetry).world.retired.length = 0 := by decide +kernel
  exact ⟨by decide +kernel, hsafe, hrises, List.length_eq_zero_iff.mp hretired⟩

end Bpc.P2P

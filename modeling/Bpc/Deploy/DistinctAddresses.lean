/-
  OVERLAY ADDRESSES — no two active Devices share one?

  An enrollment claims nothing, so two that overlap can commit one address
  (`enrollments_share_address`). If every step is `Current` (what the request has read of the OTHER
  active Devices is still so, or their addresses are claimed), addresses stay distinct
  (`addresses_distinct`).
-/
import Bpc.Deploy.Addresses
import Bpc.Deploy.PlainRuntime

namespace Bpc.Deploy.Addressing

open SlashPath Controlplane Interaction

variable {Data : Type} (P : Runtime Data)

/-! ## Distinct addresses -/

/-- An active Device with its address. -/
def Active (content : Content Data) (x : Str) (address : IpAddress) : Prop :=
  ∃ r, recordAt P content .devices x = some r ∧ deviceIsActive r = true ∧
    addressOf P r = some address

/-- The server's address, as the configuration gives it. -/
def serverAddress (config : Option Data) : Option IpAddress :=
  (recordOf P config).bind fun r => P.ipInterface (P.strField r "wireguard_server_address")

/-- Active Devices have addresses of their own. -/
structure Distinct (content : Content Data) : Prop where
  apart : ∀ x y address, '/' ∉ x → '/' ∉ y → Active P content x address →
    Active P content y address → x = y
  server : ∀ x address, '/' ∉ x → Active P content x address →
    serverAddress P (content.canonical[configKey]?) ≠ some address

/-! ## What a step may rely on -/

/-- The calls about addresses. -/
abbrev Calls (Data : Type) := Pool (World Data) AddressJob (Req Data) Ans PyError Outcome

/-- The Device was listed, and is as in every record of it that was read since. -/
def Seen (past : History Data) (y : Str) (now : Record) : Prop :=
  ∃ names after, LastList past names after ∧ y ++ jsonSuffix ∈ names ∧
    ∀ file, ⟨.readFile (recordKey .devices y), file⟩ ∈ after →
      ∃ r, recordOf P file = some r ∧ isRevoked r = isRevoked now ∧ addressOf P r = addressOf P now

/-- The address is claimed in the index. -/
def Claimed (content : Content Data) (device : Record) : Prop :=
  ∃ n, addressOf P device = some (.v4 n) ∧
    content.canonical[recordKey .deviceAddresses (P.ipText n)]? ≠ none

/-- The Device has the standing and the address that were read. -/
def Kept (content : Content Data) (past : History Data) (x : Str) : Prop :=
  ∀ r, ReadRecord P past .devices x r → ∃ now, recordAt P content .devices x = some now ∧
    standing now = standing r ∧ addressOf P now = addressOf P r

/-- What a step relies on is still so. -/
structure Current (c : Calls Data) (m : Move AddressJob Oracle) : Prop where
  /-- A Device that is put back has not changed since it was read. -/
  update : ∀ past ops, c.Calls m past (.mutate "UpdateRegisteredDevice" ops) →
    ∀ op ∈ ops, ∀ x, op.path = recordKey .devices x → Kept P c.world.content past x
  /-- The other Devices are as they were read, or claimed. -/
  create : ∀ past kind ops, c.Calls m past (.mutate kind ops) →
    kind ≠ "UpdateRegisteredDevice" →
    ∀ x r, putOp (recordKey .devices x) (P.dumps r) ∈ ops → deviceIsActive r = true →
    ∀ y now, '/' ∉ y → y ≠ x → recordAt P c.world.content .devices y = some now →
    deviceIsActive now = true →
      Seen P past y now ∨ kind = "RegisterDevice" ∧ Claimed P c.world.content now

section

variable {P} {past : History Data}

theorem LastList.unique {names names' : List Str} {after after' : History Data}
    (h : LastList past names after) (h' : LastList past names' after') :
    names = names' ∧ after = after' := by
  obtain ⟨before, rfl, hafter⟩ := h
  obtain ⟨before', heq, hafter'⟩ := h'
  -- the shorter of the two tails would contain the other list
  induction after generalizing after' with
  | nil =>
    cases after' with
    | nil =>
      have hevent := (List.cons.inj heq).1
      cases hevent
      exact ⟨rfl, rfl⟩
    | cons e rest =>
      have hevent := (List.cons.inj heq).1
      exact absurd (congrArg Sigma.fst hevent).symm (hafter' e List.mem_cons_self)
  | cons e rest ih =>
    cases after' with
    | nil =>
      have hevent := (List.cons.inj heq).1
      exact absurd (congrArg Sigma.fst hevent) (hafter e List.mem_cons_self)
    | cons e' rest' =>
      obtain ⟨rfl, htail⟩ := List.cons.inj heq
      obtain ⟨rfl, rfl⟩ := ih (fun e he => hafter e (List.mem_cons_of_mem _ he)) htail
        fun e he => hafter' e (List.mem_cons_of_mem _ he)
      exact ⟨rfl, rfl⟩

theorem not_revoked_of_active {r : Record} (h : deviceIsActive r = true) : isRevoked r = false := by
  unfold deviceIsActive at h
  rw [Bool.and_eq_true, Bool.and_eq_true] at h
  exact Bool.not_eq_true' _ ▸ h.1.2

theorem Allocated.not_seen {candidate : Nat} (h : Allocated P past candidate) {y : Str}
    {now : Record} (hy : '/' ∉ y) (hactive : deviceIsActive now = true)
      (hseen : Seen P past y now) :
    addressOf P now ≠ some (.v4 candidate) := by
  obtain ⟨names, after, hlist, hfree⟩ := h.free
  obtain ⟨names', after', hlist', hlisted, hpresent⟩ := hseen
  obtain ⟨rfl, rfl⟩ := hlist.unique hlist'
  obtain ⟨file, hread, hother⟩ := hfree y hy hlisted
  obtain ⟨r, hrecord, hrevoked, haddress⟩ := hpresent file hread
  rw [← haddress]
  exact hother r hrecord (hrevoked.trans (not_revoked_of_active hactive))

/-! ## What a step changes -/

theorem configKey_ne (d : Dir) (name : Str) : recordKey d name ≠ configKey := by
  intro heq
  have hpath : ∀ d : Dir, ¬ d.path ++ ['/'] <+: configKey := by
    intro d
    cases d <;> decide
  exact hpath d ⟨name ++ jsonSuffix, by rw [← heq]; simp [recordKey]⟩

theorem AddressWrite.onRecord {kind : Str} {ops : List (Operation Data)}
    (h : AddressWrite P past kind ops) : ∀ op ∈ ops, OnRecord op := by
  have haside : ∀ op : Operation Data, AsideOp op → OnRecord op := by
    rintro op ⟨d, name, _, hname, hpath, hop⟩
    exact ⟨⟨d, name, hpath, hname⟩, hop⟩
  intro op hop
  cases h with
  | aside h => exact haside op (h op hop)
  | device hnamed hextra _ =>
    rcases List.mem_cons.mp hop with rfl | hop
    · exact ⟨⟨_, _, rfl, not_slash_of_isHex hnamed.1⟩, .inl rfl⟩
    · exact haside op (hextra op hop)

theorem asideOp_ne {op : Operation Data} (h : AsideOp op) {d : Dir} {y : Str}
    (hd : d.isOther = false)
    (hy : '/' ∉ y) : op.path ≠ recordKey d y := by
  obtain ⟨d', name, hd', hname, hpath, _⟩ := h
  intro heq
  obtain ⟨rfl, _⟩ := recordKey_inj hname hy (hpath.symm.trans heq)
  cases hd.symm.trans hd'

variable {w w' : World Data} {o : Oracle}

theorem config_of_perform {r : Req Data} {a : Ans r} (hmust : (addressRules P).must past r)
    (h : perform P w o r = some (a, w')) :
    w'.content.canonical[configKey]? = w.content.canonical[configKey]? := by
  by_cases hquiet : Quiet r
  · rw [content_of_quiet hquiet h]
  · cases r with
    | mutate kind ops =>
      have hrecords := AddressWrite.onRecord hmust
      rcases perform_records hrecords h with rfl | ⟨content, command, hcommits, rfl⟩
      · rfl
      · show content.canonical[configKey]? = _
        rw [hcommits.canonical]
        refine get_applyOps_of_forall_ne fun op hop heq => ?_
        obtain ⟨⟨d, name, hpath, _⟩, _⟩ := hrecords op hop
        exact configKey_ne d name (hpath.symm.trans heq)
    | _ => exact absurd trivial hquiet

/-- **How Users and Devices can change in one step**: not at all, or one Device is put under the
    conditions of its mutation. -/
theorem records_of_perform {r : Req Data} {a : Ans r} (hmust : (addressRules P).must past r)
    (h : perform P w o r = some (a, w')) :
    (∀ d y, d.isOther = false → '/' ∉ y → recordAt P w'.content d y = recordAt P w.content d y) ∨
    ∃ kind x rec extra, r = .mutate kind (putOp (recordKey .devices x) (P.dumps rec) :: extra) ∧
      Named P .devices x rec ∧ DevicePut P past x kind rec extra ∧
      recordAt P w'.content .devices x = some rec ∧
      (∀ d y, d.isOther = false → '/' ∉ y → (d = .devices → y ≠ x) →
        recordAt P w'.content d y = recordAt P w.content d y) ∧
      ∀ op ∈ extra, precondition P.codec w.content.canonical op = none := by
  by_cases hquiet : Quiet r
  · left
    intro d y _ _
    rw [content_of_quiet hquiet h]
  · cases r with
    | mutate kind ops =>
      rcases perform_records (AddressWrite.onRecord hmust) h with
        rfl | ⟨content, command, hcommits, rfl⟩
      · exact .inl fun _ _ _ _ => rfl
      have hcanonical := hcommits.canonical
      have hwrite : AddressWrite P past kind ops := hmust
      cases hwrite with
      | aside haside =>
        left
        intro d y hd hy
        show recordOf P (content.canonical[recordKey d y]?) = _
        rw [hcanonical, get_applyOps_of_forall_ne fun op hop => asideOp_ne (haside op hop) hd hy]
        rfl
      | @device x rec extra hnamed hextra hdevice =>
        right
        have hx : '/' ∉ x := not_slash_of_isHex hnamed.1
        -- the index records come after the Device and do not touch it
        have hput : content.canonical = applyOps
            (w.content.canonical.insert (recordKey .devices x) (P.dumps rec)) extra := hcanonical
        refine ⟨kind, x, rec, extra, rfl, hnamed, hdevice, ?_, ?_, ?_⟩
        · show recordOf P (content.canonical[recordKey .devices x]?) = some rec
          rw [hput, get_applyOps_of_forall_ne fun op hop => asideOp_ne (hextra op hop) rfl hx,
            SortedMap.get_insert_self, recordOf_dumps]
        · intro d y hd hy hne
          have hother : recordKey .devices x ≠ recordKey d y := by
            intro heq
            obtain ⟨rfl, rfl⟩ := recordKey_inj hx hy heq
            exact hne rfl rfl
          show recordOf P (content.canonical[recordKey d y]?) = _
          rw [hput, get_applyOps_of_forall_ne fun op hop => asideOp_ne (hextra op hop) hd hy,
            SortedMap.get_insert_of_ne _ _ hother]
          rfl
        · exact fun op hop => hcommits.preconditions op (List.mem_cons_of_mem _ hop)
    | _ => exact absurd trivial hquiet

theorem Distinct.of_sub {content content' : Content Data} (h : Distinct P content)
    (hconfig : content'.canonical[configKey]? = content.canonical[configKey]?)
    (hsub : ∀ y address, '/' ∉ y → Active P content' y address → Active P content y address) :
    Distinct P content' := by
  refine ⟨fun x y address hx hy hactive hactive' => ?_, fun x address hx hactive => ?_⟩
  · exact h.apart x y address hx hy (hsub x address hx hactive) (hsub y address hy hactive')
  · rw [hconfig]
    exact h.server x address hx (hsub x address hx hactive)

theorem Distinct.of_put {content content' : Content Data} (h : Distinct P content)
    (hconfig : content'.canonical[configKey]? = content.canonical[configKey]?) {x : Str}
    (address : IpAddress) (hself : ∀ a, Active P content' x a → a = address)
    (hsub : ∀ y a, '/' ∉ y → y ≠ x → Active P content' y a → Active P content y a)
    (hother : ∀ y, '/' ∉ y → y ≠ x → ¬ Active P content y address)
    (hserver : serverAddress P (content.canonical[configKey]?) ≠ some address) :
    Distinct P content' := by
  have hnew : ∀ y a, '/' ∉ y → Active P content' x a → Active P content' y a → y = x := by
    intro y a hy hx hactive
    by_contra hne
    obtain rfl := hself a hx
    exact hother y hy hne (hsub y a hy hne hactive)
  refine ⟨fun y z a hy hz hay haz => ?_, fun y a hy hactive => ?_⟩
  · by_cases hyx : y = x
    · subst hyx
      exact (hnew z a hz hay haz).symm
    · by_cases hzx : z = x
      · subst hzx
        exact hnew y a hy haz hay
      · exact h.apart y z a hy hz (hsub y a hy hyx hay) (hsub z a hz hzx haz)
  · rw [hconfig]
    by_cases hyx : y = x
    · subst hyx
      rw [hself a hactive]
      exact hserver
    · exact h.server y a hy (hsub y a hy hyx hactive)

end

/-! ## The invariant -/

/-- The invariant of these calls. -/
structure Ordered (c : Calls Data) : Prop where
  files : Filed P c.world
  obeys : Obeys (addressRules P) (fun _ _ _ => True) c
  /-- Every call has read the configuration that is there. -/
  config : ∀ t ∈ c.threads, ∀ file, ⟨.readFile configKey, file⟩ ∈ t.past →
    file = c.world.content.canonical[configKey]?
  distinct : Distinct P c.world.content

section

variable {P} {c c' : Calls Data} {i : Nat} {o : Oracle} {job : AddressJob} {r : Req Data}
  {k : Ans r → Handler Data Outcome} {past : History Data} {a : Ans r} {w : World Data}

theorem filed_of_perform (hw : Filed P c.world) (hmust : (addressRules P).must past r)
    (h : perform P c.world o r = some (a, w)) : Filed P w := by
  refine ⟨fun d y rec hy hrec => ?_, ?_⟩
  · by_cases hd : d.isOther = false
    · rcases records_of_perform hmust h with hsame | ⟨_, x, rec', _, _, hnamed, _, hput, hsame, _⟩
      · exact hw.named d y rec hy ((hsame d y hd hy).symm.trans hrec)
      · by_cases hself : d = .devices ∧ y = x
        · obtain ⟨rfl, rfl⟩ := hself
          obtain rfl := Option.some.inj (hput.symm.trans hrec)
          exact hnamed
        · exact hw.named d y rec hy ((hsame d y hd hy fun hd hy => hself ⟨hd, hy⟩).symm.trans hrec)
    · cases d with
      | devices => exact absurd rfl hd
      | users => exact absurd rfl hd
      | _ => trivial
  · rw [(frame_of_perform h).2]
    exact hw.tokens

/-- **One call keeps the addresses apart**, if it is current. -/
theorem Ordered.distinct_advance (hs : Ordered P c)
    (ht : c.threads[i]? = some ⟨job, .call r k, past⟩) (hcurrent : Current P c (.advance i o))
    (h : perform P c.world o r = some (a, w)) : Distinct P w.content := by
  have hmust := hs.obeys.must ht
  have hconfig := config_of_perform hmust h
  have hcalls : ∀ {r'}, r' = r → c.Calls (.advance i o) past r' := by
    rintro _ rfl
    exact ⟨i, o, job, k, rfl, ht⟩
  rcases records_of_perform hmust h with
    hsame | ⟨kind, x, rec, extra, rfl, hnamed, hdevice, hput, hsame, hpre⟩
  · refine hs.distinct.of_sub hconfig fun y address hy hactive => ?_
    obtain ⟨now, hnow, hon⟩ := hactive
    exact ⟨now, (hsame .devices y rfl hy).symm.trans hnow, hon⟩
  -- one Device is put; the others are what they were
  have hx : '/' ∉ x := not_slash_of_isHex hnamed.1
  have hothers : ∀ y address, '/' ∉ y → y ≠ x → Active P w.content y address →
      Active P c.world.content y address := by
    rintro y address hy hne ⟨now, hnow, hon⟩
    exact ⟨now, (hsame .devices y rfl hy fun _ => hne).symm.trans hnow, hon⟩
  have hself : ∀ address, Active P w.content x address →
      deviceIsActive rec = true ∧ addressOf P rec = some address := by
    rintro address ⟨now, hnow, hon⟩
    obtain rfl := Option.some.inj (hput.symm.trans hnow)
    exact hon
  by_cases hactive : deviceIsActive rec = true
  swap
  · -- the Device is inactive now
    refine hs.distinct.of_sub hconfig fun y address hy hon => ?_
    by_cases hyx : y = x
    · subst hyx
      exact absurd (hself address hon).1 hactive
    · exact hothers y address hy hyx hon
  cases hdevice with
  | deactivated henabled => cases (not_active_of_enabled henabled).symm.trans hactive
  | updated hread hstanding haddress =>
    -- the Device was active before, with the same address
    obtain ⟨now, hnow, hkept, hsameAddress⟩ :=
      hcurrent.update past _ (hcalls rfl) _ List.mem_cons_self x rfl _ hread
    refine hs.distinct.of_sub hconfig fun y address hy hon => ?_
    by_cases hyx : y = x
    · subst hyx
      refine ⟨now, hnow, ?_, ?_⟩
      · exact (deviceIsActive_of_standing (hkept.trans hstanding.symm)).trans hactive
      · exact (hsameAddress.trans haddress.symm).trans (hself address hon).2
    · exact hothers y address hy hyx hon
  | @created _ _ candidate _ haddress hallocated hclaim hkind =>
    refine hs.distinct.of_put hconfig (.v4 candidate) (fun address hon => ?_) hothers
      (fun y hy hyx hon => ?_) ?_
    · exact Option.some.inj ((hself address hon).2.symm.trans haddress)
    · obtain ⟨now, hnow, hnowActive, hnowAddress⟩ := hon
      rcases hcurrent.create past kind _ (hcalls rfl) hkind x rec List.mem_cons_self hactive y
        now hy hyx
        hnow hnowActive with hseen | ⟨hregister, n, hn, hclaimed⟩
      · exact hallocated.not_seen hy hnowActive hseen hnowAddress
      · -- the registration finds the address claimed
        obtain rfl := IpAddress.v4.inj (Option.some.inj (hn.symm.trans hnowAddress))
        obtain ⟨data, hop⟩ := hclaim hregister
        exact hclaimed (absent_of_precondition (hpre _ hop) rfl)
    · obtain ⟨file, config, server, hread, hrecord, hserver, hne⟩ := hallocated.server
      have hfile := hs.config _ (List.mem_of_getElem? ht) file hread
      rw [← hfile, serverAddress, hrecord]
      show P.ipInterface (P.strField config "wireguard_server_address") ≠ _
      rw [hserver]
      exact fun heq => hne (Option.some.inj heq).symm

theorem Ordered.advance (hs : Ordered P c) (ht : c.threads[i]? = some ⟨job, .call r k, past⟩)
    (hcurrent : Current P c (.advance i o)) (h : perform P c.world o r = some (a, w)) :
    Ordered P ⟨w, c.threads.set i ⟨job, k a, ⟨r, a⟩ :: past⟩⟩ := by
  have hmemi := List.mem_of_getElem? ht
  have hmust := hs.obeys.must ht
  have hconfig := config_of_perform hmust h
  refine ⟨filed_of_perform hs.files hmust h, ?_, ?_, hs.distinct_advance ht hcurrent h⟩
  · intro t htmem
    rcases List.mem_or_eq_of_mem_set htmem with hmem | rfl
    · exact hs.obeys t hmem
    · exact (hs.obeys _ hmemi).2 a (answer_of_perform hs.files h)
  · intro t htmem file hread
    show file = w.content.canonical[configKey]?
    rw [hconfig]
    rcases List.mem_or_eq_of_mem_set htmem with hmem | rfl
    · exact hs.config t hmem file hread
    · rcases List.mem_cons.mp hread with heq | hread
      · cases heq
        exact (perform_readFile (by decide) h).1
      · exact hs.config _ hmemi file hread

theorem Ordered.step (hprints : PrintsAddresses P) (hs : Ordered P c) {m : Move AddressJob Oracle}
    (hcurrent : Current P c m) (h : c.step (addressers P) m = some c') : Ordered P c' := by
  obtain ⟨job, -, rfl⟩ | ⟨i, o, job, r, k, past, a, w, rfl, ht, hanswer, rfl⟩ := step_cases h
  · refine ⟨hs.files, fun t ht => ?_, fun t ht file hread => ?_, hs.distinct⟩
    · rcases List.mem_append.mp ht with ht | ht
      · exact hs.obeys t ht
      · rw [List.mem_singleton.mp ht]
        exact spec_addressProgram hprints job
    · rcases List.mem_append.mp ht with ht | ht
      · exact hs.config t ht file hread
      · rw [List.mem_singleton.mp ht] at hread
        cases hread
  · exact hs.advance ht hcurrent hanswer

end

/-- **In every run whose steps are all current, the active Devices have distinct addresses and none
    has the server's.** -/
theorem addresses_distinct (hprints : PrintsAddresses P) {w : World Data} (hfiles : Filed P w)
    (hstart : Distinct P w.content) {c : Calls Data}
    (hrun : Reaches (addressers P) (Current P) ⟨w, []⟩ c) : Distinct P c.world.content := by
  have hordered : Ordered P c := by
    induction hrun with
    | refl => exact ⟨hfiles, (fun t ht => by cases ht), (fun t ht => by cases ht), hstart⟩
    | tail _ hcurrent hmove ih => exact ih.step hprints hcurrent hmove
  exact hordered.distinct

/-! ## Enrollments, one after the other and at once -/

namespace Overlap

/-- The last list of Devices in a history, computed. -/
def lastList : History Data → Option (List Str × History Data)
  | [] => none
  | ⟨.glob .devices, names⟩ :: _ => some (names, [])
  | e :: rest => (lastList rest).map fun found => (found.1, e :: found.2)

theorem lastList_spec {names : List Str} {past after : History Data}
    (h : lastList past = some (names, after)) : LastList past names after := by
  fun_induction lastList past generalizing names after with
  | case1 => cases h
  | case2 listed before =>
    obtain ⟨rfl, rfl⟩ := Prod.mk.inj (Option.some.inj h)
    exact ⟨before, rfl, fun _ he => by cases he⟩
  | case3 e rest hother ih =>
    obtain ⟨⟨names', after'⟩, hrest, heq⟩ := Option.map_eq_some_iff.mp h
    obtain ⟨rfl, rfl⟩ := Prod.mk.inj heq
    refine (ih hrest).cons fun hglob => ?_
    obtain ⟨r, listed⟩ := e
    obtain rfl : r = .glob .devices := hglob
    exact hother listed rfl

/-- Does an event show the file as it is now, if it reads it? -/
def showsNow (name : Str) (now : Record) : Event (Req Data) Ans → Bool
  | ⟨.readFile path, file⟩ =>
    path ≠ filePath .devices name ||
      (recordOf P file).any fun r => isRevoked r = isRevoked now && addressOf P r = addressOf P now
  | _ => true

/-- Has the request seen every active Device as it is now? -/
def sawAll (content : Content Data) (past : History Data) : Bool :=
  match lastList past with
  | none => false
  | some (names, after) => (globNames content.canonical .devices).all fun name =>
      match recordOf P (content.canonical[filePath .devices name]?) with
      | none => true
      | some now => !deviceIsActive now || names.contains name && after.all (showsNow P name now)

/-- `Current`, as a test. -/
def isCurrent (c : Calls Data) (m : Move AddressJob Oracle) : Bool :=
  match c.next m with
  | some (past, .mutate kind _) =>
    kind ≠ "UpdateRegisteredDevice" && sawAll P c.world.content past
  | _ => true

variable {P} in
theorem seen_of_sawAll {content : Content Data} {past : History Data}
    (h : sawAll P content past = true) {y : Str} {now : Record} (hy : '/' ∉ y)
    (hnow : recordAt P content .devices y = some now) (hactive : deviceIsActive now = true) :
    Seen P past y now := by
  unfold sawAll at h
  split at h
  · cases h
  rename_i names after hlast
  have hpresent : content.canonical[recordKey .devices y]? ≠ none := by
    intro habsent
    rw [recordAt, habsent] at hnow
    cases hnow
  have hname : y ++ jsonSuffix ∈ globNames content.canonical .devices :=
    mem_globNames.mpr ⟨hpresent, (normalName_record hy).2.1, List.suffix_append y jsonSuffix⟩
  have hone := List.all_eq_true.mp h _ hname
  rw [show recordOf P (content.canonical[filePath .devices (y ++ jsonSuffix)]?) =
    some now from hnow]
    at hone
  simp only [hactive, Bool.not_true, Bool.false_or, Bool.and_eq_true, List.contains_iff_mem,
    List.all_eq_true] at hone
  refine ⟨names, after, lastList_spec hlast, hone.1, fun file hread => ?_⟩
  have hshows := hone.2 _ hread
  rw [showsNow, show filePath .devices (y ++ jsonSuffix) = recordKey .devices y from rfl] at hshows
  simp only [ne_eq, not_true_eq_false, decide_false, Bool.false_or, Option.any_eq_true,
    Bool.and_eq_true, decide_eq_true_eq] at hshows
  obtain ⟨r, hr, hrevoked, haddress⟩ := hshows
  exact ⟨r, hr, hrevoked, haddress⟩

variable {P} in
theorem current_of_isCurrent (c : Calls Data) (m : Move AddressJob Oracle)
    (h : isCurrent P c m = true) : Current P c m := by
  refine ⟨fun past ops hcalls => ?_, fun past kind ops hcalls _ x r _ _ y now hy _ hnow
    hactive => ?_⟩
  · rw [isCurrent, hcalls.next] at h
    simp at h
  · rw [isCurrent, hcalls.next] at h
    have hsaw : sawAll P c.world.content past = true := (Bool.and_eq_true _ _ ▸ h).2
    exact .inl (seen_of_sawAll hsaw hy hnow hactive)

theorem printsAddresses_plain : PrintsAddresses plainRuntime := by
  intro n hn
  have htext : plainRuntime.ipText n ++ "/32" = Prefix4.toText ⟨n, 32, hn, by decide⟩ := by
    have hlength : "/32".toList = '/' :: Prefix4.decimal 32 := by decide
    rw [Prefix4.toText_eq, hlength]
    show Prefix4.addrText (n % 2 ^ 32) ++ _ = _
    rw [Nat.mod_eq_of_lt hn]
  have hparse := Prefix4.parse_toText ⟨n, 32, hn, by decide⟩
  rw [htext, strip_eq_self fun c hc => isPySpace_of_digit (Prefix4.mem_of_parse hparse hc),
    plainRuntime_ipInterface, plainInterface, hparse]
  refine ⟨fun hempty => ?_, rfl⟩
  rw [hempty, show Prefix4.parse [] = none by decide] at hparse
  cases hparse

open Plain

/-- The token of a second enrollment. -/
def token' : Str := List.replicate 64 'b'

/-- The Controller has the first address of its network. -/
def config : Record :=
  .of [("config_version", .int 1), ("wgshim_server", .str "vpn.example.net:443"),
    ("wgshim_listen", .str "127.0.0.1:51821"), ("wgshim_target", .str "127.0.0.1:51820"),
    ("padding_min", .int 16), ("padding_max", .int 64), ("wireguard_interface", .str "wg0"),
    ("wireguard_subnet", .str "10.77.0.0/24"), ("wireguard_server_address", .str "10.77.0.1/24"),
    ("wireguard_server_public_key", .str (List.replicate 43 'A' ++ ['='])),
    ("wireguard_mtu", .int 1280), ("wireguard_keepalive", .int 25),
    ("wireguard_allowed_ips", .str "10.77.0.0/24"), ("wgshim_key_dir", .str "/etc/bpc/keys")]

/-- No Devices, and two enrollments that no request has used. -/
def start : World Loaded where
  content := { canonical := (∅ : Bucket Loaded).insert configKey (.object config), revision := 1 }
  log := []
  drawn := []
  localFiles := SortedMap.insertPairs ∅ ([token, token'].map fun t =>
    (enrollPath t, .object (.of [("device", .str ['n']), ("expires", .int 9)])))

/-- The enrollment of a token. -/
def request (t : Str) : AddressJob :=
  .enroll (some (.of [("token", .str t), ("device", .str ['n']),
    ("public_key", .str (List.replicate 32 'k')),
    ("wireguard_public_key", .str ['w'])]))

/-- An enrollment up to its commit. -/
def allocating (i : Nat) (device credential : Str) (names : List Str) :
    List (Move AddressJob Oracle) :=
  calls i 3 usual ++ .advance i { text := device } ::
    .advance i { text := credential } :: calls i 3 usual ++
    .advance i { names := names } :: calls i (names.length + 1) usual

/-- The id that the first enrollment draws; the second draws `deviceId`. -/
def firstId : Str := List.replicate 32 'c'

/-- Both allocate before either commits. -/
def atOnce : List (Move AddressJob Oracle) :=
  .start (request token) :: .start (request token') ::
    allocating 0 firstId token [] ++ allocating 1 deviceId token' [] ++ calls 0 1 usual ++
      calls 1 1 usual

/-- The second one looks after the first has committed. -/
def inTurn : List (Move AddressJob Oracle) :=
  .start (request token) :: .start (request token') ::
    allocating 0 firstId token [] ++ calls 0 1 usual ++
    allocating 1 deviceId token' [firstId ++ jsonSuffix] ++ calls 1 1 usual

theorem recordAt_start (d : Dir) (x : Str) : recordAt plainRuntime start.content d x = none := by
  unfold recordAt
  rw [show start.content.canonical = (∅ : Bucket Loaded).insert configKey (.object config) from rfl,
    SortedMap.get_insert_of_ne _ _ (configKey_ne d x).symm, SortedMap.get_empty]
  rfl

theorem distinct_start : Distinct plainRuntime start.content := by
  have hnone : ∀ x address, ¬ Active plainRuntime start.content x address := by
    rintro x address ⟨r, hr, _⟩
    cases (recordAt_start .devices x).symm.trans hr
  exact ⟨fun x _ address _ _ h => absurd h (hnone x address),
    fun x address _ h => absurd h (hnone x address)⟩

theorem filed_start : Filed plainRuntime start := by
  refine ⟨fun d x r _ hr => (by cases (recordAt_start d x).symm.trans hr),
    fun path r hr id hid => ?_⟩
  -- an enrollment file has no Device id
  have hfiles : ∀ pair ∈ [token, token'].map fun t => (enrollPath t, Loaded.object (.of
      [("device", .str ['n']), ("expires", .int 9)])),
      ∀ r, recordOf plainRuntime (some pair.2) = some r → r["device_id".toList]? = none := by
    intro pair hpair r hr
    obtain ⟨t, _, rfl⟩ := List.mem_map.mp hpair
    obtain rfl := Option.some.inj ((recordOf_dumps plainRuntime _).symm.trans hr)
    exact Record.get_of_outside (by decide)
  cases hfile : start.localFiles[path]? with
  | none =>
    rw [hfile] at hr
    cases hr
  | some data =>
    rw [hfile] at hr
    rcases SortedMap.mem_of_get_insertPairs hfile with hpair | hempty
    · cases (hfiles _ hpair r hr).symm.trans hid
    · rw [SortedMap.get_empty] at hempty
      cases hempty

/-- Is the Device active, with this address? -/
def holds (c : Calls Loaded) (x : Str) (n : Nat) : Bool :=
  (recordAt plainRuntime c.world.content .devices x).any fun r =>
    deviceIsActive r && addressOf plainRuntime r = some (.v4 n)

theorem active_of_holds {c : Calls Loaded} {x : Str} {n : Nat} (h : holds c x n = true) :
    Active plainRuntime c.world.content x (.v4 n) := by
  unfold holds at h
  simp only [Option.any_eq_true, Bool.and_eq_true, decide_eq_true_eq] at h
  exact h

/-- What both schedules come to, under a test of their moves. -/
def outcome (test : Calls Loaded → Move AddressJob Oracle → Bool)
    (schedule : List (Move AddressJob Oracle)) (n n' : Nat) : Bool :=
  ((⟨start, []⟩ : Calls Loaded).runIf (addressers plainRuntime) test schedule).any fun c =>
    holds c firstId n && holds c deviceId n'

theorem reaches_of_outcome {allowed : Calls Loaded → Move AddressJob Oracle → Prop}
    {test : Calls Loaded → Move AddressJob Oracle → Bool} {schedule : List (Move AddressJob Oracle)}
    {n n' : Nat} (htest : ∀ c m, test c m = true → allowed c m)
    (h : outcome test schedule n n' = true) :
    ∃ c, Reaches (addressers plainRuntime) allowed ⟨start, []⟩ c ∧
      Active plainRuntime c.world.content firstId (.v4 n) ∧
      Active plainRuntime c.world.content deviceId (.v4 n') := by
  unfold outcome at h
  simp only [Option.any_eq_true, Bool.and_eq_true] at h
  obtain ⟨c, hrun, hfirst, hsecond⟩ := h
  exact ⟨c, reaches_of_runIf htest .refl hrun, active_of_holds hfirst, active_of_holds hsecond⟩

end Overlap

open Overlap Plain in
/-- **Two enrollments that overlap commit the same address.** -/
theorem enrollments_share_address :
    Filed plainRuntime start ∧ Distinct plainRuntime start.content ∧
    ∃ c, Reaches (addressers plainRuntime) (fun _ _ => True) ⟨start, []⟩ c ∧
      Active plainRuntime c.world.content firstId (.v4 172818434) ∧
      Active plainRuntime c.world.content deviceId (.v4 172818434) ∧ firstId ≠ deviceId := by
  refine ⟨filed_start, distinct_start, ?_⟩
  have houtcome : outcome (fun _ _ => true) atOnce 172818434 172818434 = true := by decide +kernel
  obtain ⟨c, hrun, hfirst, hsecond⟩ := reaches_of_outcome (fun _ _ _ => trivial) houtcome
  exact ⟨c, hrun, hfirst, hsecond, by decide⟩

open Overlap Plain in
/-- One after the other they are current, and get two addresses. -/
theorem addresses_distinct_inTurn :
    ∃ c, Reaches (addressers plainRuntime) (Current plainRuntime) ⟨start, []⟩ c ∧
      Active plainRuntime c.world.content firstId (.v4 172818434) ∧
      Active plainRuntime c.world.content deviceId (.v4 172818435) ∧
      Distinct plainRuntime c.world.content := by
  have houtcome : outcome (isCurrent plainRuntime) inTurn 172818434 172818435 = true := by
    decide +kernel
  obtain ⟨c, hrun, hfirst, hsecond⟩ := reaches_of_outcome current_of_isCurrent houtcome
  exact ⟨c, hrun, hfirst, hsecond, addresses_distinct plainRuntime printsAddresses_plain filed_start
    distinct_start hrun⟩

end Bpc.Deploy.Addressing

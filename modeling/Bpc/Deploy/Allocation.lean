/-
  ALLOCATION — what a request has seen when it chooses an overlay address.

  `Allocated`: every Device file on its list was read, and none that is not revoked holds the
  address. The write comes LATER.
-/
import Bpc.Deploy.Calls

namespace Bpc.Deploy.Addressing

open SlashPath Controlplane Interaction

variable {Data : Type} (P : Runtime Data)

/-! ## Allocation -/

/-- The overlay address of a Device. -/
def addressOf (device : Record) : Option IpAddress :=
  let raw := strip (P.strField device "wireguard_address")
  if raw = [] then none else P.ipInterface raw

/-- `bool(device.get("revoked", False))`. -/
def isRevoked (device : Record) : Bool := (device.get "revoked" (.bool false)).truthy

/-- Reading an address gives back what was printed. -/
def PrintsAddresses : Prop :=
  ∀ n, n < 2 ^ 32 → strip (P.ipText n ++ "/32") ≠ [] ∧
    P.ipInterface (strip (P.ipText n ++ "/32")) = some (.v4 n)

/-- The configuration of the Controller. -/
def configKey : Str := "control/config.json"

/-- The last list of Devices in a history, and the calls after it. -/
def LastList (past : History Data) (names : List Str) (after : History Data) : Prop :=
  ∃ before, past = after ++ ⟨.glob .devices, names⟩ :: before ∧ ∀ e ∈ after, e.1 ≠ .glob .devices

/-- The address is not the server's, nor that of a Device found not revoked. -/
structure Allocated (past : History Data) (candidate : Nat) : Prop where
  bound : candidate < 2 ^ 32
  server : ∃ file config server, ⟨.readFile configKey, file⟩ ∈ past ∧
    recordOf P file = some config ∧
    P.ipInterface (P.strField config "wireguard_server_address") = some server ∧
    IpAddress.v4 candidate ≠ server
  free : ∃ names after, LastList past names after ∧ ∀ x, '/' ∉ x → x ++ jsonSuffix ∈ names →
    ∃ file, ⟨.readFile (recordKey .devices x), file⟩ ∈ after ∧
      ∀ r, recordOf P file = some r → isRevoked r = false → addressOf P r ≠ some (.v4 candidate)

/-- A call that reads a file. -/
def Reading : Req Data → Prop
  | .readFile _ => True
  | _ => False

section

variable {P} {R : Rules (Req Data) Ans} {past : History Data}

theorem LastList.cons {names : List Str} {after : History Data} (h : LastList past names after)
    {e : Event (Req Data) Ans} (he : e.1 ≠ .glob .devices) :
    LastList (e :: past) names (e :: after) := by
  obtain ⟨before, rfl, hafter⟩ := h
  refine ⟨before, rfl, fun e' he' => ?_⟩
  rcases List.mem_cons.mp he' with rfl | he'
  · exact he
  · exact hafter e' he'

theorem Allocated.cons {candidate : Nat} (h : Allocated P past candidate)
    {e : Event (Req Data) Ans} (he : e.1 ≠ .glob .devices) :
    Allocated P (e :: past) candidate := by
  obtain ⟨file, config, server, hmem, hserver⟩ := h.server
  obtain ⟨names, after, hlist, hfree⟩ := h.free
  refine ⟨h.bound, ⟨file, config, server, List.mem_cons_of_mem _ hmem, hserver⟩,
    names, e :: after, hlist.cons he, fun x hx hlisted => ?_⟩
  obtain ⟨file, hread, hnot⟩ := hfree x hx hlisted
  exact ⟨file, List.mem_cons_of_mem _ hread, hnot⟩

theorem firstFree_spec {server : IpAddress} {used : List IpAddress} {candidate first : Nat} :
    ∀ {count : Nat}, firstFree server used first count = some candidate →
      IpAddress.v4 candidate ≠ server ∧ IpAddress.v4 candidate ∉ used ∧
        candidate < first + count := by
  intro count
  induction count generalizing first with
  | zero => exact fun h => by cases h
  | succ count ih =>
    intro h
    rw [firstFree] at h
    split at h
    · obtain ⟨hserver, hused, hlt⟩ := ih h
      exact ⟨hserver, hused, by omega⟩
    · rename_i hfree
      obtain rfl := Option.some.inj h
      exact ⟨fun heq => hfree (.inl heq), fun hmem => hfree (.inr hmem), by omega⟩

theorem hosts_bound (network : Prefix4) : (hosts network).1 + (hosts network).2 ≤ 2 ^ 32 := by
  have hsize : Prefix4.block network.bits * 2 ^ network.bits = 2 ^ 32 := by
    have hbits := network.bits_le
    unfold Prefix4.block
    rw [← pow_add]
    congr 1
    omega
  have hdiv : network.addr / Prefix4.block network.bits < 2 ^ network.bits := by
    rw [Nat.div_lt_iff_lt_mul (Prefix4.block_pos _), mul_comm, hsize]
    exact network.addr_lt
  have hlast : (network.addr / Prefix4.block network.bits + 1) * Prefix4.block network.bits ≤
      2 ^ 32 := by
    rw [← hsize, mul_comm (Prefix4.block network.bits)]
    exact Nat.mul_le_mul_right _ hdiv
  have hsplit : (network.addr / Prefix4.block network.bits + 1) * Prefix4.block network.bits =
      network.addr / Prefix4.block network.bits * Prefix4.block network.bits +
        Prefix4.block network.bits := by ring
  have hpos := Prefix4.block_pos network.bits
  unfold hosts
  dsimp only
  split
  · show _ + Prefix4.block network.bits ≤ 2 ^ 32
    omega
  · show (_ + 1) + (Prefix4.block network.bits - 2) ≤ 2 ^ 32
    omega

theorem returns_usedAddress {x : Str} (hx : '/' ∉ x) :
    Returns (R.only Reading) (usedAddress P (x ++ jsonSuffix)) past fun past' found =>
      ∃ file, past' = ⟨.readFile (recordKey .devices x), file⟩ :: past ∧
        ∀ r, recordOf P file = some r → isRevoked r = false → addressOf P r = found := by
  unfold usedAddress
  rw [show filePath .devices (x ++ jsonSuffix) = recordKey .devices x from rfl]
  refine Spec.bind (Spec.handle (Spec.bind (Spec.bind
    ((spec_readJson_of (R := R.only Reading) trivial).mono fun past' res _ hres => ?_))))
  rw [clean_recordKey _ hx] at hres
  obtain ⟨file, _, rfl, hres⟩ := hres
  cases res with
  | error e =>
    dsimp only
    rw [if_pos hres.2]
    exact ⟨file, rfl, fun r hr => by cases hres.1.symm.trans hr⟩
  | ok device =>
    have hdevice : ∀ r, recordOf P file = some r → r = device := fun r hr =>
      Option.some.inj (hr.symm.trans hres)
    by_cases hskip : (isRevoked device || strip (P.strField device "wireguard_address") = []) = true
    · -- a revoked Device, or one without an address, occupies nothing
      dsimp only
      rw [show ((device.get "revoked" (.bool false)).truthy ||
        strip (P.strField device "wireguard_address") = []) = true from hskip, if_pos rfl]
      refine ⟨file, rfl, fun r hr hrevoked => ?_⟩
      rw [hdevice r hr] at hrevoked ⊢
      rw [hrevoked, Bool.false_or, decide_eq_true_eq] at hskip
      exact if_pos hskip
    · dsimp only
      rw [show ((device.get "revoked" (.bool false)).truthy ||
        strip (P.strField device "wireguard_address") = []) = false from
          Bool.eq_false_iff.mpr hskip, if_neg Bool.false_ne_true]
      have hraw : strip (P.strField device "wireguard_address") ≠ [] := by
        intro hraw
        rw [hraw] at hskip
        simp at hskip
      have haddress : addressOf P device =
          P.ipInterface (strip (P.strField device "wireguard_address")) := if_neg hraw
      cases hparse : P.ipInterface (strip (P.strField device "wireguard_address")) with
      | none =>
        refine ⟨file, rfl, fun r hr _ => ?_⟩
        rw [hdevice r hr, haddress, hparse]
        rfl
      | some address =>
        refine ⟨file, rfl, fun r hr _ => ?_⟩
        rw [hdevice r hr, haddress, hparse]
        rfl

theorem returns_globalConfig :
    Returns (R.only Quiet) (globalConfig P) past fun past' config =>
      ∃ file, past' = ⟨.readFile configKey, file⟩ :: past ∧ recordOf P file = some config := by
  have hclean : clean "control/config.json" = configKey := by decide
  refine (returns_readJson _).seq fun past₁ value _ h => ?_
  rw [hclean] at h
  obtain ⟨file, _, rfl, hvalue⟩ := h
  refine (returns_raiseIf _ _).seq fun past₂ _ _ hpast => ?_
  exact ⟨file, hpast.1, hvalue⟩

/-- **What an allocation has seen.** -/
theorem returns_allocateWireguardAddress :
    Returns (R.only Quiet) (allocateWireguardAddress P) past fun past' candidate =>
      Allocated P past' candidate := by
  refine returns_globalConfig.seq fun past₁ config h₁ hconfig => ?_
  obtain ⟨file, rfl, hconfig⟩ := hconfig
  split
  · rename_i network server hnetwork hserver
    refine (returns_ask trivial).seq fun past₂ names h₂ hnames => ?_
    obtain ⟨rfl, _⟩ := hnames
    -- every listed file is read, and nothing else is called
    have hcollect : Returns (R.only Reading) (Prog.collect (usedAddress P) names)
        (⟨.glob .devices, names⟩ :: ⟨.readFile configKey, file⟩ :: past) fun past' used =>
          ∀ name ∈ names, ∃ found, (∀ x, '/' ∉ x → name = x ++ jsonSuffix → ∃ file',
            Since (⟨.glob .devices, names⟩ :: ⟨.readFile configKey, file⟩ :: past) past'
              ⟨.readFile (recordKey .devices x), file'⟩ ∧
            ∀ r, recordOf P file' = some r → isRevoked r = false → addressOf P r = found) ∧
            ∀ a, found = some a → a ∈ used := by
      refine Returns.collect ?_ fun name _ past' hsuf => ?_
      · intro name found past' past'' hsuf h x hx hname
        obtain ⟨file', hsince, hrecord⟩ := h x hx hname
        exact ⟨file', hsince.mono hsuf, hrecord⟩
      · by_cases hname : ∃ x, '/' ∉ x ∧ name = x ++ jsonSuffix
        · obtain ⟨x, hx, rfl⟩ := hname
          refine (returns_usedAddress hx).mono fun past'' found _ h y hy heq => ?_
          obtain ⟨file', rfl, hrecord⟩ := h
          obtain rfl := List.append_cancel_right heq
          exact ⟨file', Since.newest _ hsuf, hrecord⟩
        · have hreads : Harmless (R.only Reading) (usedAddress P name) := by
            refine (harmless_orSkip (Harmless.bind (fun _ => ?_) fun device => ?_)).bind
              fun _ => harmless_ret _
            · exact (spec_readJson_of (R := R.only Reading) trivial).mono fun _ res _ _ => by
                cases res <;> trivial
            · refine Harmless.ite (harmless_ret _) ?_
              split
              · exact harmless_ret _
              · exact harmless_raise _
          refine (hreads past').mono fun _ _ _ _ x hx heq => ?_
          exact absurd ⟨x, hx, heq⟩ hname
    refine (Returns.only (R := R.only Quiet) hcollect fun _ r hr => ?_).seq
      fun past₃ used h₃ hused => ?_
    · cases r with
      | readFile path => trivial
      | _ => exact hr.elim
    obtain ⟨⟨events, rfl, hreading⟩, hused⟩ := hused
    split
    · rename_i candidate hfree
      obtain ⟨hnotServer, hnotUsed, hlt⟩ := firstFree_spec hfree
      refine ⟨Nat.lt_of_lt_of_le hlt (hosts_bound network), ?_, names, events, ?_, ?_⟩
      · refine ⟨file, config, server, ?_, hconfig, hserver, hnotServer⟩
        exact List.mem_append_right _ (List.mem_cons_of_mem _ List.mem_cons_self)
      · refine ⟨_, rfl, fun e he heq => ?_⟩
        have hr := hreading e he
        rw [heq] at hr
        exact hr
      · intro x hx hlisted
        obtain ⟨found, hfound, hmem⟩ := hused _ hlisted
        obtain ⟨file', ⟨after, heq, hread⟩, hrecord⟩ := hfound x hx rfl
        obtain rfl := List.append_cancel_right heq
        refine ⟨file', hread, fun r hr hrevoked haddress => ?_⟩
        rw [hrecord r hr hrevoked] at haddress
        exact hnotUsed (hmem _ haddress)
    · trivial
  · trivial

theorem addressOf_insert (r : Record) {key : Str} (v : Json)
    (h : key ≠ "wireguard_address") : addressOf P (r.insert key v) = addressOf P r := by
  unfold addressOf Runtime.strField Record.get
  rw [SortedMap.get_insert_of_ne _ _ h]

end

end Bpc.Deploy.Addressing

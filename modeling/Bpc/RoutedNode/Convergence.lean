/-
  CONVERGENCE — does the kernel end up with what the configuration asks for, whatever happened
  before?

  1. **What goes wrong** — a failed `iptables` command leaves or forgets a rule; a network keeps
     the rules of the OLD overlay subnet (`reconcile_keeps_old_overlay`); a route is never moved to
     another table.
  2. **What holds** — without these (`Steady`, `regular`) a call without an error leaves what a
     first call on a clean kernel creates (`reconcile_converges`).  Rules are COUNTED.
-/
import Bpc.RoutedNode.Ownership
import Bpc.Routed.PlainLibrary

namespace Bpc.RoutedNode

open Commands Routed

/-! ## The kernel -/

/-- The rules that the commands have left. -/
def rulesOf : Trace Request → List Rule
  | [] => []
  | ⟨.run (.iptables .insert rule), true⟩ :: past => rule :: rulesOf past
  | ⟨.run (.iptables .append rule), true⟩ :: past => rulesOf past ++ [rule]
  | ⟨.run (.iptables .delete rule), true⟩ :: past => (rulesOf past).erase rule
  | _ :: past => rulesOf past

/-- An object is added once; what is checked or deleted is there. -/
def possible (past : Trace Request) : Request → Bool
  | .requireFreshPublicPolicy => true
  | .run (.ip .add o) => !installed past o
  | .run (.ip .del o) => installed past o
  | .run (.iptables .check rule) => decide (rule ∈ rulesOf past)
  | .run (.iptables .delete rule) => decide (rule ∈ rulesOf past)
  | .run (.iptables _ _) => true

/-- An `iptables` command. -/
def isIptables : Request → Bool
  | .run (.iptables _ _) => true
  | _ => false

/-- Only what can succeed succeeds, and an `iptables` command fails only if it cannot. -/
def regular : Contract Request where
  must _ _ := True
  may past r ok := (ok = true → possible past r = true) ∧
    (ok = false → isIptables r = true → possible past r = false)

/-- Nothing fails, except checks for rules that are not there. -/
def Undisturbed (past : Trace Request) (r : Request) (ok : Bool) : Prop :=
  (ok = true → possible past r = true) ∧
    (ok = false → ∃ rule, r = .run (.iptables .check rule) ∧ rule ∉ rulesOf past)

variable {past : Trace Request} {r : Request} {k k₀ : KernelState} {rule : Rule}

theorem Undisturbed.regular {ok : Bool} (h : Undisturbed past r ok) : regular.may past r ok := by
  refine ⟨h.1, fun hok _ => ?_⟩
  obtain ⟨rule, rfl, habsent⟩ := h.2 hok
  exact decide_eq_false habsent

@[simp] theorem rulesOf_ip (action : IpAction) (o : IpObject) (ok : Bool) :
    rulesOf (⟨.run (.ip action o), ok⟩ :: past) = rulesOf past := by
  cases ok <;> rfl

@[simp] theorem rulesOf_inspect (ok : Bool) :
    rulesOf (⟨.requireFreshPublicPolicy, ok⟩ :: past) = rulesOf past := by
  cases ok <;> rfl

@[simp] theorem rulesOf_failed (r : Request) : rulesOf (⟨r, false⟩ :: past) = rulesOf past := by
  cases r with
  | requireFreshPublicPolicy => rfl
  | run c =>
    cases c with
    | ip action o => rfl
    | iptables action rule => cases action <;> rfl

@[simp] theorem rulesOf_check (ok : Bool) :
    rulesOf (⟨.run (.iptables .check rule), ok⟩ :: past) = rulesOf past := by
  cases ok <;> rfl

/-! ## Counting rules -/

/-- The memory is `k₀`, and every rule is there `f` times. -/
def Counts (k₀ : KernelState) (f : Rule → Nat) (k : KernelState) (past : Trace Request) : Prop :=
  k = k₀ ∧ ∀ rule, (rulesOf past).count rule = f rule

/-- The counts after `ensure`. -/
def raised (f : Rule → Nat) (rules : List Rule) : Rule → Nat :=
  fun rule => if rule ∈ rules then max 1 (f rule) else f rule

/-- The counts after `discard`. -/
def lowered (f : Rule → Nat) (rules : List Rule) : Rule → Nat :=
  fun rule => if rule ∈ rules then f rule - 1 else f rule

theorem raised_append (f : Rule → Nat) (a b : List Rule) :
    raised f (a ++ b) = raised (raised f a) b := by
  funext rule
  unfold raised
  by_cases ha : rule ∈ a <;> by_cases hb : rule ∈ b <;> simp [ha, hb]

theorem lowered_append (f : Rule → Nat) {a b : List Rule} (h : ∀ rule ∈ a, rule ∉ b) :
    lowered f (a ++ b) = lowered (lowered f a) b := by
  funext rule
  unfold lowered
  by_cases ha : rule ∈ a
  · have hb := h rule ha
    simp [ha, hb]
  · by_cases hb : rule ∈ b <;> simp [ha, hb]

/-- No end of this kind. -/
abbrev Never (_ : KernelState) (_ : Trace Request) : Prop := False

/-- `ensure`: the rule is there. -/
theorem triple_ensure {action : IptablesAction} (haction : action = .insert ∨ action = .append)
    (f : Rule → Nat) : Triple regular (Counts k₀ f) (ensure action rule)
      (Counts k₀ (raised f [rule])) Never := by
  refine triple_ifFails (S := fun k past => Counts k₀ f k past ∧ f rule = 0)
    (fun _ _ _ => trivial) ?_ ?_ (triple_require (fun _ _ _ => trivial) ?_ ?_)
  · rintro k past ⟨rfl, hcount⟩ hmay
    -- the rule is there
    have hmem : rule ∈ rulesOf past := of_decide_eq_true (hmay.1 rfl)
    refine ⟨rfl, fun r => ?_⟩
    rw [rulesOf_check, hcount]
    unfold raised
    by_cases hr : r ∈ [rule]
    · obtain rfl := List.mem_singleton.mp hr
      have hpos : 0 < f r := hcount r ▸ List.count_pos_iff.mpr hmem
      rw [if_pos hr]
      omega
    · rw [if_neg hr]
  · rintro k past ⟨rfl, hcount⟩ hmay
    have hmem : rule ∉ rulesOf past := of_decide_eq_false (hmay.2 rfl rfl)
    refine ⟨⟨rfl, fun r => ?_⟩, ?_⟩
    · rw [rulesOf_check, hcount]
    · rw [← hcount]
      exact List.count_eq_zero.mpr hmem
  · rintro k past ⟨⟨rfl, hcount⟩, hzero⟩ -
    refine ⟨rfl, fun r => ?_⟩
    have hone : (rulesOf (⟨.run (.iptables action rule), true⟩ :: past)).count r =
        (rulesOf past).count r + if rule = r then 1 else 0 := by
      obtain rfl | rfl := haction
      · show (rule :: rulesOf past).count r = _
        rw [List.count_cons]
        simp
      · show (rulesOf past ++ [rule]).count r = _
        rw [List.count_append, List.count_singleton]
        simp
    rw [hone, hcount]
    unfold raised
    by_cases hr : rule = r
    · subst hr
      simp [hzero]
    · simp [hr, Ne.symm hr]
  · rintro k past - hmay
    have himpossible := hmay.2 rfl rfl
    obtain rfl | rfl := haction <;> cases himpossible

/-- `discard`: one copy less. -/
theorem triple_discard (f : Rule → Nat) :
    Triple regular (Counts k₀ f) (discard rule) (Counts k₀ (lowered f [rule])) Never := by
  refine triple_attempt (fun _ _ _ => trivial) ?_
  rintro k past ok ⟨rfl, hcount⟩ hmay
  refine ⟨rfl, fun r => ?_⟩
  unfold lowered
  cases ok with
  | true =>
    show ((rulesOf past).erase rule).count r = _
    by_cases hr : r = rule
    · subst hr
      rw [List.count_erase_self, hcount]
      simp
    · rw [List.count_erase_of_ne hr, hcount]
      simp [hr]
  | false =>
    have hmem : rule ∉ rulesOf past := of_decide_eq_false (hmay.2 rfl rfl)
    rw [rulesOf_failed]
    by_cases hr : r = rule
    · subst hr
      rw [List.count_eq_zero.mpr hmem, ← hcount, List.count_eq_zero.mpr hmem]
      simp
    · rw [hcount]
      simp [hr]

/-- A loop that ensures rules. -/
theorem triple_raise_forEach {α : Type} {body : α → NodeStep} {rulesFor : α → List Rule}
    (hbody : ∀ x f, Triple regular (Counts k₀ f) (body x)
      (Counts k₀ (raised f (rulesFor x))) Never) :
    ∀ (xs : List α) (f : Rule → Nat), Triple regular (Counts k₀ f) (forEach body xs)
      (Counts k₀ (raised f (xs.flatMap rulesFor))) Never
  | [], f => triple_skip fun _ _ h => h
  | x :: xs, f => by
    rw [List.flatMap_cons, raised_append]
    exact (hbody x f).andThen (triple_raise_forEach hbody xs _)

/-- A loop that discards rules. -/
theorem triple_lower_forEach {α : Type} {body : α → NodeStep} {rulesFor : α → List Rule}
    (hbody : ∀ x f, Triple regular (Counts k₀ f) (body x)
      (Counts k₀ (lowered f (rulesFor x))) Never) :
    ∀ (xs : List α) (f : Rule → Nat), (xs.flatMap rulesFor).Nodup →
      Triple regular (Counts k₀ f) (forEach body xs)
        (Counts k₀ (lowered f (xs.flatMap rulesFor))) Never
  | [], f, _ => triple_skip fun _ _ h => h
  | x :: xs, f, hnodup => by
    rw [List.flatMap_cons] at hnodup ⊢
    obtain ⟨-, hrest, hdisjoint⟩ := List.nodup_append.mp hnodup
    rw [lowered_append f fun rule ha hb => hdisjoint rule ha rule hb rfl]
    exact (hbody x f).andThen (triple_lower_forEach hbody xs _ hrest)

variable {f : Rule → Nat}

theorem triple_reading_counts {s : KernelState → NodeStep}
    {Q X : KernelState → Trace Request → Prop} (h : Triple regular (Counts k₀ f) (s k₀) Q X) :
    Triple regular (Counts k₀ f) (reading s) Q X := by
  rintro m past ⟨rfl, hcount⟩
  exact h m past ⟨rfl, hcount⟩

variable {s : NodeStep} {rules : List Rule}

theorem Triple.onlyIf_raised {condition : Bool}
    (h : Triple regular (Counts k₀ f) s (Counts k₀ (raised f rules)) Never) :
    Triple regular (Counts k₀ f) (onlyIf condition s)
      (Counts k₀ (raised f (if condition then rules else []))) Never := by
  cases condition with
  | true => exact h
  | false => exact triple_skip fun _ _ h => h

theorem Triple.onlyIf_lowered {condition : Bool}
    (h : Triple regular (Counts k₀ f) s (Counts k₀ (lowered f rules)) Never) :
    Triple regular (Counts k₀ f) (onlyIf condition s)
      (Counts k₀ (lowered f (if condition then rules else []))) Never := by
  cases condition with
  | true => exact h
  | false => exact triple_skip fun _ _ h => h

/-! ## The rules of a network -/

/-- The network of a rule. -/
def Rule.cidr : Rule → GoString
  | noSNAT _ cidr _ => cidr
  | siteNAT _ cidr _ => cidr
  | forwardIn cidr _ => cidr
  | forwardOut _ cidr _ => cidr

section Families

variable {range : MapRange GoString Unit} {set : GoSet} {rulesFor : GoString → List Rule}

theorem mem_list_iff_has {cidr : GoString} :
    (cidr, ()) ∈ range.list set ↔ set.has cidr = true := by
  rw [MapRange.mem_list]
  unfold GoSet.has
  rw [Option.isSome_iff_exists]
  exact ⟨fun h => ⟨(), h⟩, fun ⟨_, h⟩ => h⟩

/-- The rules of a set of networks. -/
def rulesOver (range : MapRange GoString Unit) (set : GoSet) (rulesFor : GoString → List Rule) :
    List Rule :=
  (range.list set).flatMap fun e => rulesFor e.1

/-- A rule belongs to its own network. -/
theorem mem_rulesOver (hcidr : ∀ cidr, ∀ r ∈ rulesFor cidr, r.cidr = cidr) :
    rule ∈ rulesOver range set rulesFor ↔
      set.has rule.cidr = true ∧ rule ∈ rulesFor rule.cidr := by
  unfold rulesOver
  rw [List.mem_flatMap]
  constructor
  · rintro ⟨e, he, hrule⟩
    rw [hcidr e.1 rule hrule]
    exact ⟨has_of_mem_list he, hrule⟩
  · rintro ⟨hhas, hrule⟩
    exact ⟨(rule.cidr, ()), mem_list_iff_has.mpr hhas, hrule⟩

theorem nodup_rulesOver (hcidr : ∀ cidr, ∀ r ∈ rulesFor cidr, r.cidr = cidr)
    (hnodup : ∀ cidr, (rulesFor cidr).Nodup) : (rulesOver range set rulesFor).Nodup := by
  unfold rulesOver
  rw [List.nodup_flatMap]
  refine ⟨fun e _ => hnodup e.1, ?_⟩
  have hkeys : (range.list set).Pairwise fun a b => a.1 ≠ b.1 :=
    List.pairwise_map.mp (range.nodup_keys set)
  refine hkeys.imp fun {a b} hne rule ha hb => hne ?_
  rw [← hcidr a.1 rule ha, hcidr b.1 rule hb]

end Families

section Reconcile

variable {F : Type} (config : RoutingConfig F) (order : Order) (previous : GoString)

/-- The rules to add. -/
def newNoSNAT (k : KernelState) (cidr : GoString) : List Rule :=
  if !k.natNoSNAT.has cidr then [.noSNAT config.overlaySubnet cidr k.interfaceID] else []

/-- The rules to delete. -/
def staleNoSNAT (k : KernelState) (cidr : GoString) : List Rule :=
  if !(desiredNoSNAT config).has cidr then [.noSNAT previous cidr k.interfaceID] else []

/-- The site rules to add. -/
def newSite (k : KernelState) (cidr : GoString) : List Rule :=
  (if !k.siteNAT.has cidr then [.siteNAT config.overlaySubnet cidr k.interfaceID] else []) ++
    if !k.forward.has cidr then
      [.forwardIn cidr k.interfaceID, .forwardOut config.overlaySubnet cidr k.interfaceID] else []

/-- The NAT rules to delete. -/
def staleSiteNAT (k : KernelState) (cidr : GoString) : List Rule :=
  if !(desiredSiteNAT config k.localNodeID).has cidr then [.siteNAT previous cidr k.interfaceID]
  else []

/-- The forward rules to delete. -/
def staleForward (k : KernelState) (cidr : GoString) : List Rule :=
  if !(desiredSiteNAT config k.localNodeID).has cidr then
    [.forwardIn cidr k.interfaceID, .forwardOut previous cidr k.interfaceID] else []

section Cidr

variable {config previous} {cidr : GoString}

theorem cidr_newNoSNAT : ∀ r ∈ newNoSNAT config k cidr, r.cidr = cidr := by
  unfold newNoSNAT
  split <;> simp [Rule.cidr]

theorem cidr_staleNoSNAT : ∀ r ∈ staleNoSNAT config previous k cidr, r.cidr = cidr := by
  unfold staleNoSNAT
  split <;> simp [Rule.cidr]

theorem cidr_newSite : ∀ r ∈ newSite config k cidr, r.cidr = cidr := by
  unfold newSite
  split <;> split <;> simp [Rule.cidr]

theorem cidr_staleSiteNAT : ∀ r ∈ staleSiteNAT config previous k cidr, r.cidr = cidr := by
  unfold staleSiteNAT
  split <;> simp [Rule.cidr]

theorem cidr_staleForward : ∀ r ∈ staleForward config previous k cidr, r.cidr = cidr := by
  unfold staleForward
  split <;> simp [Rule.cidr]

end Cidr

variable {f : Rule → Nat}

/-- The counts after the no-SNAT part. -/
theorem triple_reconcileNoSNAT : Triple regular (Counts k₀ f)
    (reconcileNoSNAT config order previous)
    (Counts { k₀ with natNoSNAT := desiredNoSNAT config }
      (lowered (raised f (rulesOver order.desiredNoSNAT (desiredNoSNAT config)
        (newNoSNAT config k₀)))
        (rulesOver order.natNoSNAT k₀.natNoSNAT (staleNoSNAT config previous k₀))))
    Never := by
  have hnodup : (rulesOver order.natNoSNAT k₀.natNoSNAT
      (staleNoSNAT config previous k₀)).Nodup := by
    refine nodup_rulesOver (fun cidr => cidr_staleNoSNAT) fun cidr => ?_
    unfold staleNoSNAT
    split <;> simp
  refine (triple_raise_forEach (fun e f => triple_reading_counts
    (Triple.onlyIf_raised (triple_ensure (Or.inl rfl) f))) _ f).andThen
    ((triple_reading_counts (triple_lower_forEach (fun e f =>
      Triple.onlyIf_lowered (triple_discard f)) _ _ hnodup)).andThen (triple_assign ?_))
  rintro k past ⟨rfl, hcount⟩
  exact ⟨rfl, hcount⟩

theorem triple_ensureSite (cidr : GoString) (f : Rule → Nat) :
    Triple regular (Counts k₀ f) (ensureSite config cidr)
      (Counts k₀ (raised f (newSite config k₀ cidr))) Never := by
  unfold newSite
  rw [raised_append]
  have hpair : ∀ (g : Rule → Nat) (a b : Rule), Triple regular (Counts k₀ g)
      (andThen (ensure .insert a) (ensure .insert b)) (Counts k₀ (raised g [a, b])) Never := by
    intro g a b
    rw [show raised g [a, b] = raised (raised g [a]) [b] from raised_append g [a] [b]]
    exact (triple_ensure (Or.inl rfl) g).andThen (triple_ensure (Or.inl rfl) _)
  exact (triple_reading_counts (Triple.onlyIf_raised (triple_ensure (Or.inr rfl) f))).andThen
    (triple_reading_counts (Triple.onlyIf_raised (hpair _ _ _)))

/-- The counts after the site part. -/
theorem triple_reconcileSite : Triple regular (Counts k₀ f) (reconcileSite config order previous)
    (Counts { k₀ with
        siteNAT := desiredSiteNAT config k₀.localNodeID
        forward := desiredSiteNAT config k₀.localNodeID
        overlaySubnet := config.overlaySubnet }
      (lowered (lowered (raised f (rulesOver order.desiredSiteNAT
          (desiredSiteNAT config k₀.localNodeID) (newSite config k₀)))
          (rulesOver order.siteNAT k₀.siteNAT (staleSiteNAT config previous k₀)))
        (rulesOver order.forward k₀.forward (staleForward config previous k₀))))
    Never := by
  have hsite : (rulesOver order.siteNAT k₀.siteNAT (staleSiteNAT config previous k₀)).Nodup := by
    refine nodup_rulesOver (fun cidr => cidr_staleSiteNAT) fun cidr => ?_
    unfold staleSiteNAT
    split <;> simp
  have hforward : (rulesOver order.forward k₀.forward (staleForward config previous k₀)).Nodup := by
    refine nodup_rulesOver (fun cidr => cidr_staleForward) fun cidr => ?_
    unfold staleForward
    split <;> simp
  have hdiscards : ∀ (cidr : GoString) (f : Rule → Nat), Triple regular (Counts k₀ f)
      (onlyIf (!(desiredSiteNAT config k₀.localNodeID).has cidr)
        (andThen (discard (.forwardIn cidr k₀.interfaceID))
          (discard (.forwardOut previous cidr k₀.interfaceID))))
      (Counts k₀ (lowered f (staleForward config previous k₀ cidr))) Never := by
    intro cidr f
    refine Triple.onlyIf_lowered ?_
    have hdisjoint : ∀ rule ∈ [Rule.forwardIn cidr k₀.interfaceID],
        rule ∉ [Rule.forwardOut previous cidr k₀.interfaceID] := by
      simp
    have hpair := lowered_append f hdisjoint
    rw [List.singleton_append] at hpair
    rw [hpair]
    exact (triple_discard _).andThen (triple_discard _)
  refine triple_reading_counts ((triple_raise_forEach (fun e f => triple_ensureSite config _ f) _
    f).andThen ((triple_reading_counts (triple_lower_forEach (fun e f =>
      Triple.onlyIf_lowered (triple_discard f)) _ _ hsite)).andThen
        ((triple_reading_counts (triple_lower_forEach (fun e f => hdiscards _ f) _ _
          hforward)).andThen (triple_assign ?_))))
  rintro k past ⟨rfl, hcount⟩
  exact ⟨rfl, hcount⟩

/-! ## What is recorded -/

/-- The rule is recorded. -/
def tracked (k : KernelState) : Rule → Bool
  | .noSNAT overlay cidr device =>
    decide (device = k.interfaceID ∧ overlay = k.overlaySubnet) && k.natNoSNAT.has cidr
  | .siteNAT overlay cidr device =>
    decide (device = k.interfaceID ∧ overlay = k.overlaySubnet) && k.siteNAT.has cidr
  | .forwardIn cidr device => decide (device = k.interfaceID) && k.forward.has cidr
  | .forwardOut overlay cidr device =>
    decide (device = k.interfaceID ∧ overlay = k.overlaySubnet) && k.forward.has cidr

/-- Every recorded rule is there once, and no other. -/
def once (k : KernelState) (rule : Rule) : Nat := if tracked k rule then 1 else 0

/-- The kernel has the recorded rules. -/
structure TracksRules (k : KernelState) (past : Trace Request) : Prop where
  count : ∀ rule, (rulesOf past).count rule = once k rule
  forward : k.forward = k.siteNAT
  blank : k.overlaySubnet = [] → ∀ cidr, k.natNoSNAT.has cidr = false ∧ k.siteNAT.has cidr = false

/-- A route that stays keeps its table. -/
def SteadyTables (k : KernelState) : Prop :=
  ∀ cidr table table' : GoString, (desiredRoutes config)[cidr]? = some table →
    k.routeTables[cidr]? = some table' → table = table'

/-- If the overlay subnet changes, no network keeps its rules. -/
def SteadySubnet (k : KernelState) : Prop :=
  config.overlaySubnet ≠ k.overlaySubnet → ∀ cidr,
    (k.natNoSNAT.has cidr = true → (desiredNoSNAT config).has cidr = false) ∧
      (k.siteNAT.has cidr = true → (desiredSiteNAT config k.localNodeID).has cidr = false)

/-- One rule of a network: deleted for `previous`, added for `new`. -/
theorem settle_count {old new prior : GoString} (overlay : GoString) {had wanted : Bool}
    (hprior : had = true → prior = old) (hkept : had = true → wanted = true → new = old) :
    (if had = true ∧ wanted = false ∧ overlay = prior then
        (if wanted = true ∧ had = false ∧ overlay = new then
          max 1 (if overlay = old ∧ had = true then 1 else 0)
        else if overlay = old ∧ had = true then 1 else 0) - 1
      else if wanted = true ∧ had = false ∧ overlay = new then
        max 1 (if overlay = old ∧ had = true then 1 else 0)
      else if overlay = old ∧ had = true then 1 else 0) =
    if overlay = new ∧ wanted = true then 1 else 0 := by
  cases had with
  | true =>
    obtain rfl := hprior rfl
    cases wanted with
    | true =>
      obtain rfl := hkept rfl rfl
      simp
    | false => by_cases h : overlay = prior <;> simp [h]
  | false =>
    cases wanted with
    | true => by_cases h : overlay = new <;> simp [h]
    | false => simp

/-- Recorded rules name the recorded subnet. -/
theorem previousOverlay_eq (h : TracksRules k past) {cidr : GoString}
    (hhad : k.natNoSNAT.has cidr = true ∨ k.siteNAT.has cidr = true) :
    previousOverlay config k = k.overlaySubnet := by
  unfold previousOverlay
  split
  · rename_i hempty
    obtain ⟨hnat, hsite⟩ := h.blank hempty cidr
    rw [hnat, hsite] at hhad
    exact absurd hhad (by simp)
  · rfl

/-- The memory that a call leaves if it gets to its end. -/
def settled (k : KernelState) : KernelState :=
  { k with
    natNoSNAT := desiredNoSNAT config
    siteNAT := desiredSiteNAT config k.localNodeID
    forward := desiredSiteNAT config k.localNodeID
    overlaySubnet := config.overlaySubnet }

/-- The counts after a call. -/
def settledCount (k : KernelState) : Rule → Nat :=
  let previous := previousOverlay config k
  let desired := desiredSiteNAT config k.localNodeID
  lowered (lowered (raised
    (lowered (raised (once k)
        (rulesOver order.desiredNoSNAT (desiredNoSNAT config) (newNoSNAT config k)))
      (rulesOver order.natNoSNAT k.natNoSNAT (staleNoSNAT config previous k)))
    (rulesOver order.desiredSiteNAT desired (newSite config k)))
    (rulesOver order.siteNAT k.siteNAT (staleSiteNAT config previous k)))
    (rulesOver order.forward k.forward (staleForward config previous k))

/-- **The counts are those of the new memory.** -/
theorem settledCount_eq (h : TracksRules k past) (hsteady : SteadySubnet config k) (rule : Rule) :
    settledCount config order k rule = once (settled config k) rule := by
  have hkept : ∀ cidr, k.natNoSNAT.has cidr = true → (desiredNoSNAT config).has cidr = true →
      config.overlaySubnet = k.overlaySubnet := by
    intro cidr hhad hwanted
    by_contra hne
    rw [(hsteady hne cidr).1 hhad] at hwanted
    cases hwanted
  have hkept' : ∀ cidr, k.siteNAT.has cidr = true →
      (desiredSiteNAT config k.localNodeID).has cidr = true →
      config.overlaySubnet = k.overlaySubnet := by
    intro cidr hhad hwanted
    by_contra hne
    rw [(hsteady hne cidr).2 hhad] at hwanted
    cases hwanted
  unfold settledCount raised lowered
  simp only [mem_rulesOver fun _ => cidr_newNoSNAT, mem_rulesOver fun _ => cidr_staleNoSNAT,
    mem_rulesOver fun _ => cidr_newSite, mem_rulesOver fun _ => cidr_staleSiteNAT,
    mem_rulesOver fun _ => cidr_staleForward]
  cases rule
  case' noSNAT overlay cidr device =>
    have hsettle := settle_count overlay (fun hhad => previousOverlay_eq config h (Or.inl hhad))
      (hkept cidr)
  case' siteNAT overlay cidr device =>
    have hsettle := settle_count overlay (fun hhad => previousOverlay_eq config h (Or.inr hhad))
      (hkept' cidr)
  case' forwardIn cidr device =>
    -- this rule does not name the subnet
    have hnone : ([] : GoString) = [] := rfl
    have hsettle := settle_count [] (fun _ : k.siteNAT.has cidr = true => hnone)
      (fun _ (_ : (desiredSiteNAT config k.localNodeID).has cidr = true) => hnone)
  case' forwardOut overlay cidr device =>
    have hsettle := settle_count overlay (fun hhad => previousOverlay_eq config h (Or.inr hhad))
      (hkept' cidr)
  all_goals
    by_cases hdevice : device = k.interfaceID
    · simp only [Rule.cidr, newNoSNAT, staleNoSNAT, newSite, staleSiteNAT, staleForward,
        once, tracked,
        settled, hdevice, h.forward]
      simpa using hsettle
    · simp [Rule.cidr, newNoSNAT, staleNoSNAT, newSite, staleSiteNAT, staleForward, once, tracked,
        settled, hdevice]

theorem has_empty (cidr : GoString) : GoSet.has ∅ cidr = false := by
  unfold GoSet.has
  rw [SortedMap.get_empty]
  rfl

/-- **The rules follow the configuration.** -/
theorem triple_rules (hsteady : SteadySubnet config k₀) :
    Triple regular (fun k past => k = k₀ ∧ Owns k past ∧ TracksRules k past)
      (andThen (reconcileNoSNAT config order (previousOverlay config k₀))
        (reconcileSite config order (previousOverlay config k₀)))
      (fun k past => k = settled config k₀ ∧ Owns k past ∧ TracksRules k past) Never := by
  have howns : Keeps regular Owns
      (andThen (reconcileNoSNAT config order (previousOverlay config k₀))
        (reconcileSite config order (previousOverlay config k₀))) :=
    ((keeps_reconcileNoSNAT config order _).andThen (keeps_reconcileSite config order _)).contract
      (fun _ _ _ => trivial) fun _ _ _ _ => trivial
  rintro k past ⟨rfl, hk, htracks⟩
  have hcounts := ((triple_reconcileNoSNAT config order (previousOverlay config k)).andThen
    (triple_reconcileSite config order (previousOverlay config k))) k past ⟨rfl, htracks.count⟩
  refine (hcounts.and (howns k past hk)).mono fun past' r hr => ?_
  obtain ⟨k', e⟩ := r
  cases e with
  | some e => exact hr.1
  | none =>
    obtain ⟨⟨rfl, hcount⟩, hk'⟩ := hr
    refine ⟨rfl, hk', fun rule => ?_, rfl, fun hempty cidr => ?_⟩
    · rw [hcount]
      exact settledCount_eq config order htracks hsteady rule
    · have hempty : config.overlaySubnet = [] := hempty
      show (desiredNoSNAT config).has cidr = false ∧
        (desiredSiteNAT config k.localNodeID).has cidr = false
      unfold desiredNoSNAT desiredSiteNAT
      simp [hempty, has_empty]

/-! ## Routes and policy -/

/-- The fields that rules depend on. -/
def ruleView (k : KernelState) : GoString × GoString × GoString × GoSet × GoSet × GoSet :=
  (k.localNodeID, k.interfaceID, k.overlaySubnet, k.natNoSNAT, k.siteNAT, k.forward)

/-- The rules, and the memory of them, are those of `k₀`. -/
def SameRules (k₀ : KernelState) (rules : List Rule) (k : KernelState) (past : Trace Request) :
    Prop :=
  ruleView k = ruleView k₀ ∧ rulesOf past = rules

theorem TracksRules.of_same {past₀ : Trace Request} (h : TracksRules k₀ past₀)
    (hsame : SameRules k₀ (rulesOf past₀) k past) : TracksRules k past := by
  obtain ⟨hview, hrules⟩ := hsame
  obtain ⟨-, hdevice, hoverlay, hnat, hsite, hforward⟩ :
      k.localNodeID = k₀.localNodeID ∧ k.interfaceID = k₀.interfaceID ∧
      k.overlaySubnet = k₀.overlaySubnet ∧ k.natNoSNAT = k₀.natNoSNAT ∧ k.siteNAT = k₀.siteNAT ∧
      k.forward = k₀.forward := by
    simpa [ruleView] using hview
  have htracked : ∀ rule, tracked k rule = tracked k₀ rule := by
    intro rule
    cases rule <;> simp [tracked, hdevice, hoverlay, hnat, hsite, hforward]
  refine ⟨fun rule => ?_, ?_, fun hempty => ?_⟩
  · rw [hrules, h.count, once, once, htracked]
  · rw [hforward, hsite, h.forward]
  · rw [hnat, hsite]
    exact h.blank (hoverlay ▸ hempty)

theorem sameRules_require {update : KernelState → KernelState} (hr : isIptables r = false)
    (hupdate : ∀ k, ruleView (update k) = ruleView k) :
    Keeps regular (SameRules k₀ rules) (require r update) := by
  have hrules : ∀ past ok, rulesOf (⟨r, ok⟩ :: past) = rulesOf past := by
    intro past ok
    cases r with
    | requireFreshPublicPolicy => exact rulesOf_inspect ok
    | run c =>
      cases c with
      | ip action o => exact rulesOf_ip action o ok
      | iptables action rule => cases hr
  refine triple_require (fun _ _ _ => trivial) ?_ ?_
  · rintro k past ⟨hview, hpast⟩ -
    exact ⟨(hupdate k).trans hview, (hrules past true).trans hpast⟩
  · rintro k past ⟨hview, hpast⟩ -
    exact ⟨hview, (hrules past false).trans hpast⟩

variable {I : KernelState → Prop}

theorem memory_require {update : KernelState → KernelState} (hupdate : ∀ k, I k → I (update k)) :
    Keeps regular (fun k _ => I k) (require r update) :=
  triple_require (fun _ _ _ => trivial) (fun k _ h _ => hupdate k h) fun _ _ h _ => h

theorem sameRules_publicPolicy : Keeps regular (SameRules k₀ rules) publicPolicy := by
  refine Keeps.andThen (keeps_reading fun k => ?_)
    (Keeps.andThen (keeps_reading fun k => ?_) (keeps_reading fun k => ?_))
  · exact Keeps.onlyIf (sameRules_require (by rfl) fun _ => rfl)
  · exact Keeps.onlyIf (sameRules_require (by rfl) fun _ => rfl)
  · exact Keeps.onlyIf (sameRules_require (by rfl) fun _ => rfl)

theorem sameRules_disablePublicPolicy : Keeps regular (SameRules k₀ rules) disablePublicPolicy := by
  refine Keeps.andThen (keeps_reading fun k => ?_) (keeps_reading fun k => ?_)
  · exact Keeps.onlyIf (sameRules_require (by rfl) fun _ => rfl)
  · exact Keeps.onlyIf (sameRules_require (by rfl) fun _ => rfl)

/-- Routes leave the rules alone. -/
theorem sameRules_reconcileRoutes :
    Keeps regular (SameRules k₀ rules) (reconcileRoutes config order) := by
  refine Keeps.andThen (keeps_forEach (fun e => keeps_reading fun k => ?_) _)
    (keeps_reading fun k => keeps_forEach (fun e => Keeps.onlyIf (keeps_reading fun k => ?_)) _)
  · exact Keeps.onlyIf (sameRules_require (by rfl) fun _ => rfl)
  · exact sameRules_require (by rfl) fun _ => rfl

/-- A fact about the memory that does not depend on the policy. -/
structure PolicyFree (I : KernelState → Prop) : Prop where
  default : ∀ k b, I k → I { k with policyDefault := b }
  rule : ∀ k b, I k → I { k with policyRule := b }

theorem memory_publicPolicy (h : PolicyFree I) : Keeps regular (fun k _ => I k) publicPolicy := by
  refine Keeps.andThen (keeps_reading fun k => ?_)
    (Keeps.andThen (keeps_reading fun k => ?_) (keeps_reading fun k => ?_))
  · exact (memory_require fun _ hk => hk).onlyIf
  · exact (memory_require fun k hk => h.default k true hk).onlyIf
  · exact (memory_require fun k hk => h.rule k true hk).onlyIf

theorem memory_disablePublicPolicy (h : PolicyFree I) :
    Keeps regular (fun k _ => I k) disablePublicPolicy := by
  refine Keeps.andThen (keeps_reading fun k => ?_) (keeps_reading fun k => ?_)
  · exact (memory_require fun k hk => h.rule k false hk).onlyIf
  · exact (memory_require fun k hk => h.default k false hk).onlyIf

/-- The policy is on, or off. -/
def PolicyIs (b : Bool) (k : KernelState) : Prop := k.policyDefault = b ∧ k.policyRule = b

/-- No condition. -/
abbrev Anything (_ : KernelState) (_ : Trace Request) : Prop := True

theorem regular_guarded {guard : KernelState → Bool} {update : KernelState → KernelState}
    {I J : KernelState → Prop} (hok : ∀ k, I k → J (update k))
    (hskip : ∀ k, guard k = false → I k → J k) :
    Triple regular (fun k _ => I k) (reading fun k => onlyIf (guard k) (require r update))
      (fun k _ => J k) Anything :=
  triple_guarded (fun _ _ _ _ => trivial) (fun k _ _ h => hok k h) (fun _ _ _ => trivial)
    fun k _ hguard h => hskip k hguard h

/-- The policy is recorded. -/
theorem triple_publicPolicy :
    Triple regular Anything publicPolicy (fun k _ => PolicyIs true k) Anything :=
  (regular_guarded (J := fun _ => True) (fun _ h => h) fun _ _ h => h).andThen
    ((regular_guarded (J := fun k => k.policyDefault = true) (fun _ _ => rfl)
        fun _ hflag _ => by simpa using hflag).andThen
      (regular_guarded (fun _ h => ⟨h, rfl⟩) fun _ hflag h => ⟨h, by simpa using hflag⟩))

/-- The policy is forgotten. -/
theorem triple_disablePublicPolicy :
    Triple regular Anything disablePublicPolicy (fun k _ => PolicyIs false k) Anything :=
  (regular_guarded (J := fun k => k.policyRule = false)
    (fun _ _ => rfl) fun _ hflag _ => hflag).andThen
    (regular_guarded (fun _ h => ⟨rfl, h⟩) fun _ hflag h => ⟨hflag, h⟩)

/-- Both maps of the routes have the same networks. -/
def RoutesSteady (k : KernelState) : Prop :=
  (∀ cidr, k.routes.has cidr = (k.routeTables[cidr]?).isSome) ∧ SteadyTables config k

/-- The routes are those that the configuration asks for. -/
def RoutesSettled (k : KernelState) : Prop :=
  ∀ cidr : GoString, k.routeTables[cidr]? = (desiredRoutes config)[cidr]?

/-- While routes are added: those that are still missing are left to do. -/
def Adding (rest : List (GoString × GoString)) (k : KernelState) : Prop :=
  RoutesSteady config k ∧ (∀ e ∈ rest, (desiredRoutes config)[e.1]? = some e.2) ∧
    ∀ cidr table, (desiredRoutes config)[cidr]? = some table →
      (cidr, table) ∈ rest ∨ k.routeTables[cidr]? = some table

/-- One missing route less. -/
theorem triple_addRoute (e : GoString × GoString) (rest : List (GoString × GoString)) :
    Triple regular (fun k _ => Adding config (e :: rest) k) (addRoute e.1 e.2)
      (fun k _ => Adding config rest k) Anything := by
  obtain ⟨cidr, table⟩ := e
  refine triple_reading fun k => Triple.onlyIf (fun hnew => triple_require
    (fun _ _ _ => trivial) ?_ fun _ _ _ _ => trivial) ?_
  · rintro m past ⟨rfl, ⟨hsync, htables⟩, hdesired, hdone⟩ -
    have hwanted := hdesired (cidr, table) List.mem_cons_self
    refine ⟨⟨fun other => ?_, fun other t t' ht ht' => ?_⟩,
      fun e he => hdesired e (List.mem_cons_of_mem _ he), fun other t ht => ?_⟩
    · show GoSet.has (m.routes.insert cidr ()) other =
        ((m.routeTables.insert cidr table)[other]?).isSome
      rw [has_insert, SortedMap.get_insert, hsync]
      by_cases hsame : cidr = other <;> simp [hsame]
    · have hget : (m.routeTables.insert cidr table)[other]? = some t' := ht'
      rw [SortedMap.get_insert] at hget
      split at hget
      · rename_i hsame
        subst hsame
        exact Option.some.inj ((ht.symm.trans hwanted).trans hget)
      · exact htables other t t' ht hget
    · show (other, t) ∈ rest ∨ (m.routeTables.insert cidr table)[other]? = some t
      rw [SortedMap.get_insert]
      by_cases hsame : cidr = other
      · subst hsame
        rw [if_pos rfl]
        exact Or.inr (hwanted.symm.trans ht)
      · rw [if_neg hsame]
        obtain hmem | hget := hdone other t ht
        · obtain heq | hmem := List.mem_cons.mp hmem
          · exact absurd (Prod.mk.inj heq).1.symm hsame
          · exact Or.inl hmem
        · exact Or.inr hget
  · rintro hold m past ⟨rfl, ⟨hsync, htables⟩, hdesired, hdone⟩
    -- there is a route for the network, in the right table
    have hwanted := hdesired (cidr, table) List.mem_cons_self
    have hhas : m.routes.has cidr = true := by simpa using hold
    obtain ⟨t', ht'⟩ := Option.isSome_iff_exists.mp ((hsync cidr).symm.trans hhas)
    refine ⟨⟨hsync, htables⟩, fun e he => hdesired e (List.mem_cons_of_mem _ he),
      fun other t ht => ?_⟩
    obtain hmem | hget := hdone other t ht
    · obtain heq | hmem := List.mem_cons.mp hmem
      · obtain ⟨rfl, rfl⟩ := Prod.mk.inj heq
        rw [ht', htables other t t' ht ht']
        exact Or.inr rfl
      · exact Or.inl hmem
    · exact Or.inr hget

/-- While routes are removed: those that nobody asks for are left to do. -/
def Dropping (rest : List (GoString × Unit)) (k : KernelState) : Prop :=
  (∀ cidr, k.routes.has cidr = (k.routeTables[cidr]?).isSome) ∧
    (∀ cidr table : GoString, (desiredRoutes config)[cidr]? = some table →
      k.routeTables[cidr]? = some table) ∧
    ∀ cidr : GoString, (k.routeTables[cidr]?).isSome = true →
      ((desiredRoutes config)[cidr]?).isSome = true ∨ cidr ∈ rest.map Prod.fst

/-- One stale route less. -/
theorem triple_dropRoute (e : GoString × Unit) (rest : List (GoString × Unit)) :
    Triple regular (fun k _ => Dropping config (e :: rest) k)
      (onlyIf ((desiredRoutes config)[e.1]?).isNone (removeRoute e.1))
      (fun k _ => Dropping config rest k) Anything := by
  refine Triple.onlyIf (fun hstale => triple_reading fun k => triple_require
    (fun _ _ _ => trivial) ?_ fun _ _ _ _ => trivial) ?_
  · rintro m past ⟨rfl, hsync, hpresent, hleft⟩ -
    refine ⟨fun other => ?_, fun other t ht => ?_, fun other hother => ?_⟩
    · show GoSet.has (m.routes.erase e.1) other = ((m.routeTables.erase e.1)[other]?).isSome
      rw [has_erase, SortedMap.get_erase, hsync]
      by_cases hsame : e.1 = other <;> simp [hsame]
    · have hne : e.1 ≠ other := by
        rintro rfl
        rw [ht] at hstale
        cases hstale
      show (m.routeTables.erase e.1)[other]? = some t
      rw [SortedMap.get_erase_of_ne _ hne]
      exact hpresent other t ht
    · have hother : ((m.routeTables.erase e.1)[other]?).isSome = true := hother
      rw [SortedMap.get_erase] at hother
      split at hother
      · cases hother
      · rename_i hne
        obtain hwanted | hmem := hleft other hother
        · exact Or.inl hwanted
        · exact Or.inr ((List.mem_cons.mp hmem).resolve_left (Ne.symm hne))
  · rintro hkeep m past ⟨hsync, hpresent, hleft⟩
    refine ⟨hsync, hpresent, fun other hother => ?_⟩
    obtain hwanted | hmem := hleft other hother
    · exact Or.inl hwanted
    · obtain rfl | hmem := List.mem_cons.mp hmem
      · exact Or.inl (by simpa [Option.isSome_iff_ne_none] using hkeep)
      · exact Or.inr hmem

/-- **The routes follow the configuration**, if the call gets that far. -/
theorem triple_reconcileRoutes : Triple regular (fun k _ => RoutesSteady config k)
    (reconcileRoutes config order) (fun k _ => RoutesSettled config k) Anything := by
  have hadd := Triple.forEach (fun rest k _ => Adding config rest k) (triple_addRoute config)
    (order.desiredRoutes.list (desiredRoutes config))
  have hdrop : Triple regular (fun k _ => Adding config [] k)
      (reading fun k => forEach (fun e => onlyIf ((desiredRoutes config)[e.1]?).isNone
        (removeRoute e.1)) (order.routes.list k.routes))
      (fun k _ => RoutesSettled config k) Anything := by
    refine triple_reading fun k => (Triple.forEach (fun rest k _ => Dropping config rest k)
      (triple_dropRoute config) (order.routes.list k.routes)).conseq ?_ ?_ fun _ _ _ => trivial
    · rintro m past ⟨rfl, ⟨hsync, -⟩, -, hdone⟩
      refine ⟨hsync, fun cidr table ht => (hdone cidr table ht).resolve_left List.not_mem_nil,
        fun cidr hcidr => Or.inr ?_⟩
      exact List.mem_map.mpr ⟨(cidr, ()), mem_list_iff_has.mpr ((hsync cidr).trans hcidr), rfl⟩
    · rintro m past ⟨-, hpresent, hleft⟩ cidr
      cases hwanted : (desiredRoutes config)[cidr]? with
      | some table => exact hpresent cidr table hwanted
      | none =>
        cases hget : m.routeTables[cidr]? with
        | none => rfl
        | some table =>
          have hcidr := (hleft cidr (by rw [hget]; rfl)).resolve_right List.not_mem_nil
          rw [hwanted] at hcidr
          cases hcidr
  refine (hadd.conseq (fun k past h => ?_) (fun _ _ h => h) fun _ _ h => h).andThen hdrop
  exact ⟨h, fun e he => MapRange.mem_list.mp he,
    fun cidr table ht => Or.inl (MapRange.mem_list.mpr ht)⟩

/-! ## A whole call -/

/-- The memory and the kernel agree. -/
def Sound (k₀ : KernelState) (rules : List Rule) (k : KernelState) (past : Trace Request) : Prop :=
  Owns k past ∧ SameRules k₀ rules k past

theorem owns_regular (h : Keeps obligations Owns s) : Keeps regular Owns s :=
  Triple.contract h (fun _ _ _ => trivial) fun _ _ _ _ => trivial

variable {rules : List Rule}

/-- First part of a call. -/
theorem triple_call_policy : Triple regular
    (fun k past => Sound k₀ rules k past ∧ RoutesSteady config k)
    (onlyIf config.localPublic publicPolicy)
    (fun k past => Sound k₀ rules k past ∧ RoutesSteady config k ∧
      (config.localPublic = true → PolicyIs true k)) (Sound k₀ rules) := by
  refine Triple.onlyIf (fun _ => ?_) fun hnot k past h => ?_
  · have hfree : PolicyFree (RoutesSteady config) := ⟨fun _ _ h => h, fun _ _ h => h⟩
    exact (((owns_regular keeps_publicPolicy).and sameRules_publicPolicy).and
      ((memory_publicPolicy hfree).and triple_publicPolicy)).conseq
        (fun _ _ h => ⟨h.1, h.2, trivial⟩) (fun _ _ h => ⟨h.1, h.2.1, fun _ => h.2.2⟩)
        fun _ _ h => h.1
  · exact ⟨h.1, h.2, fun hyes => absurd (hnot.symm.trans hyes) (by decide)⟩

/-- Second part: the routes are settled. -/
theorem triple_call_routes : Triple regular
    (fun k past => Sound k₀ rules k past ∧ RoutesSteady config k ∧
      (config.localPublic = true → PolicyIs true k))
    (reconcileRoutes config order)
    (fun k past => Sound k₀ rules k past ∧ RoutesSettled config k ∧
      (config.localPublic = true → PolicyIs true k)) (Sound k₀ rules) := by
  have hpolicy : Keeps regular (fun k _ => config.localPublic = true → PolicyIs true k)
      (reconcileRoutes config order) := by
    refine Keeps.andThen (keeps_forEach (fun e => keeps_reading fun k => ?_) _)
      (keeps_reading fun k => keeps_forEach (fun e => Keeps.onlyIf (keeps_reading fun k => ?_)) _)
    · exact Keeps.onlyIf (memory_require fun _ h => h)
    · exact memory_require fun _ h => h
  exact (((owns_regular (keeps_reconcileRoutes config order)).and
    (sameRules_reconcileRoutes config order)).and ((triple_reconcileRoutes config order).and
      hpolicy)).conseq (fun _ _ h => h) (fun _ _ h => h) fun _ _ h => h.1

/-- Last part before the rules. -/
theorem triple_call_disable : Triple regular
    (fun k past => Sound k₀ rules k past ∧ RoutesSettled config k ∧
      (config.localPublic = true → PolicyIs true k))
    (onlyIf (!config.localPublic) disablePublicPolicy)
    (fun k past => Sound k₀ rules k past ∧ RoutesSettled config k ∧
      PolicyIs config.localPublic k) (Sound k₀ rules) := by
  refine Triple.onlyIf (fun hnot => ?_) fun hnot k past h => ?_
  · have hfree : PolicyFree (RoutesSettled config) := ⟨fun _ _ h => h, fun _ _ h => h⟩
    have hpublic : config.localPublic = false := by simpa using hnot
    rw [hpublic]
    exact (((owns_regular keeps_disablePublicPolicy).and sameRules_disablePublicPolicy).and
      ((memory_disablePublicPolicy hfree).and triple_disablePublicPolicy)).conseq
        (fun _ _ h => ⟨h.1, h.2.1, trivial⟩) (fun _ _ h => h) fun _ _ h => h.1
  · have hpublic : config.localPublic = true := by simpa using hnot
    rw [hpublic]
    exact ⟨h.1, h.2.1, h.2.2 hpublic⟩

/-- The memory after a call without an error. -/
structure Settled (k₀ k : KernelState) : Prop where
  policy : PolicyIs config.localPublic k
  routes : RoutesSettled config k
  view : ruleView k = ruleView (settled config k₀)

/-- **A steady call keeps memory and kernel in agreement.** -/
theorem holds_reconcile {past₀ : Trace Request} (howns : Owns k₀ past₀)
    (htracks : TracksRules k₀ past₀) (htables : SteadyTables config k₀)
    (hsubnet : SteadySubnet config k₀) :
    Holds regular (reconcile config order k₀) past₀ fun past r =>
      match r.2 with
      | none => Owns r.1 past ∧ TracksRules r.1 past ∧ Settled config k₀ r.1
      | some _ => Owns r.1 past ∧ TracksRules r.1 past ∧ ruleView r.1 = ruleView k₀ := by
  have hlast : Triple regular
      (fun k past => Sound k₀ (rulesOf past₀) k past ∧ RoutesSettled config k ∧
        PolicyIs config.localPublic k)
      (andThen (reconcileNoSNAT config order (previousOverlay config k₀))
        (reconcileSite config order (previousOverlay config k₀)))
      (fun k past => Owns k past ∧ TracksRules k past ∧ Settled config k₀ k)
      (Sound k₀ (rulesOf past₀)) := by
    rintro k past ⟨⟨hk, hsame⟩, hroutes, hpolicy⟩
    obtain ⟨hid, hdevice, hoverlay, hnat, hsite, hforward⟩ :
        k.localNodeID = k₀.localNodeID ∧ k.interfaceID = k₀.interfaceID ∧
        k.overlaySubnet = k₀.overlaySubnet ∧ k.natNoSNAT = k₀.natNoSNAT ∧ k.siteNAT = k₀.siteNAT ∧
        k.forward = k₀.forward := by
      simpa [ruleView] using hsame.1
    have hprevious : previousOverlay config k₀ = previousOverlay config k := by
      unfold previousOverlay
      rw [hoverlay]
    have hsteady : SteadySubnet config k := by
      unfold SteadySubnet
      rw [hoverlay, hnat, hsite, hid]
      exact hsubnet
    rw [hprevious]
    refine (triple_rules config order hsteady k past ⟨rfl, hk, htracks.of_same hsame⟩).mono
      fun past' r hr => ?_
    obtain ⟨k', e⟩ := r
    cases e with
    | some e => exact absurd hr id
    | none =>
      obtain ⟨rfl, hk', htracks'⟩ := hr
      refine ⟨hk', htracks', hpolicy, hroutes, ?_⟩
      simp [ruleView, settled, hid, hdevice]
  have hstart : Sound k₀ (rulesOf past₀) k₀ past₀ ∧ RoutesSteady config k₀ :=
    ⟨⟨howns, rfl, rfl⟩, howns.tables, htables⟩
  refine (((triple_call_policy config).andThen ((triple_call_routes config order).andThen
    ((triple_call_disable config).andThen hlast))) k₀ past₀ hstart).mono fun past r hr => ?_
  obtain ⟨k, e⟩ := r
  cases e with
  | none => exact hr
  | some e => exact ⟨hr.1, htracks.of_same hr.2, hr.2.1⟩

end Reconcile

/-! ## Sessions -/

/-- Tables and rules need not be moved. -/
structure Steady {F : Type} (config : RoutingConfig F) (k : KernelState) : Prop where
  tables : SteadyTables config k
  subnet : SteadySubnet config k

instance {F : Type} (config : RoutingConfig F) (k : KernelState) :
    Decidable (SteadyTables config k) :=
  decidable_of_iff (∀ e ∈ k.routeTables.toList, ∀ table ∈ (desiredRoutes config)[e.1]?, table = e.2)
    ⟨fun h cidr table table' ht ht' => h (cidr, table') (SortedMap.mem_toList.mpr ht') table ht,
      fun h e he table ht => h e.1 table e.2 ht (SortedMap.mem_toList.mp he)⟩

theorem has_iff_mem_toList {set : GoSet} {cidr : GoString} :
    set.has cidr = true ↔ (cidr, ()) ∈ set.toList := by
  unfold GoSet.has
  rw [Option.isSome_iff_exists, SortedMap.mem_toList]
  exact ⟨fun ⟨_, h⟩ => h, fun h => ⟨(), h⟩⟩

instance {F : Type} (config : RoutingConfig F) (k : KernelState) :
    Decidable (SteadySubnet config k) :=
  decidable_of_iff (config.overlaySubnet ≠ k.overlaySubnet →
    (∀ e ∈ k.natNoSNAT.toList, (desiredNoSNAT config).has e.1 = false) ∧
      ∀ e ∈ k.siteNAT.toList, (desiredSiteNAT config k.localNodeID).has e.1 = false)
    ⟨fun h hne _ => ⟨fun hhad => (h hne).1 _ (has_iff_mem_toList.mp hhad),
        fun hhad => (h hne).2 _ (has_iff_mem_toList.mp hhad)⟩,
      fun h hne => ⟨fun e he => (h hne e.1).1 (has_iff_mem_toList.mpr he),
        fun e he => (h hne e.1).2 (has_iff_mem_toList.mpr he)⟩⟩

instance {F : Type} (config : RoutingConfig F) (k : KernelState) : Decidable (Steady config k) :=
  decidable_of_iff (SteadyTables config k ∧ SteadySubnet config k)
    ⟨fun h => ⟨h.1, h.2⟩, fun h => ⟨h.tables, h.subnet⟩⟩

/-- After reconciliations that are steady and regular. -/
inductive SteadySession (F : Type) (start : KernelState) : KernelState → Trace Request → Prop where
  | start : SteadySession F start start []
  | call {k k' : KernelState} {past past' : Trace Request} {error : Option Request} (order : Order)
      (config : RoutingConfig F) (h : SteadySession F start k past) (hsteady : Steady config k)
      (hrun : Executes regular.may (reconcile config order k) past past' (k', error)) :
      SteadySession F start k' past'

theorem tracksRules_fresh (customCommand : Bool) (localNodeID device : GoString) :
    TracksRules (KernelState.fresh customCommand localNodeID device) [] where
  count rule := by
    have hno : tracked (KernelState.fresh customCommand localNodeID device) rule = false := by
      cases rule <;> simp [tracked, KernelState.fresh, has_empty]
    rw [once, hno]
    rfl
  forward := rfl
  blank _ cidr := ⟨has_empty cidr, has_empty cidr⟩

/-- What holds along a steady session. -/
theorem SteadySession.sound {F : Type} {customCommand : Bool} {localNodeID device : GoString}
    {k : KernelState}
    (h : SteadySession F (KernelState.fresh customCommand localNodeID device) k past) :
    Owns k past ∧ TracksRules k past ∧ k.interfaceID = device ∧ k.localNodeID = localNodeID := by
  induction h with
  | start => exact ⟨owns_fresh _ _ _, tracksRules_fresh _ _ _, rfl, rfl⟩
  | @call k k' past past' error order config _ hsteady hrun ih =>
    obtain ⟨howns, htracks, rfl, rfl⟩ := ih
    have hend := (holds_reconcile config order howns htracks hsteady.tables
      hsteady.subnet).ends hrun
    cases error with
    | none =>
      obtain ⟨howns', htracks', hsettled⟩ := hend
      have hview := hsettled.view
      simp only [ruleView, settled, Prod.mk.injEq] at hview
      exact ⟨howns', htracks', hview.2.1, hview.1⟩
    | some e =>
      obtain ⟨howns', htracks', hview⟩ := hend
      simp only [ruleView, Prod.mk.injEq] at hview
      exact ⟨howns', htracks', hview.2.1, hview.1⟩

/-- Two settled calls leave the same. -/
theorem Settled.same {F : Type} {config : RoutingConfig F} {k₀ k₁ k k' : KernelState}
    (h : Settled config k₀ k) (h' : Settled config k₁ k')
    (hdevice : k₀.interfaceID = k₁.interfaceID) (hid : k₀.localNodeID = k₁.localNodeID) :
    (∀ o, recorded k o = recorded k' o) ∧ ∀ rule, once k rule = once k' rule := by
  have hview : ruleView k = ruleView k' := by
    rw [h.view, h'.view]
    simp [ruleView, settled, hdevice, hid]
  simp only [ruleView, Prod.mk.injEq] at hview
  obtain ⟨-, hdevice', hoverlay, hnat, hsite, hforward⟩ := hview
  refine ⟨fun o => ?_, fun rule => ?_⟩
  · cases o with
    | route cidr device table => simp only [recorded, hdevice', h.routes cidr, h'.routes cidr]
    | unreachableDefault => exact h.policy.1.trans h'.policy.1.symm
    | markRule => exact h.policy.2.trans h'.policy.2.symm
  · have htracked : tracked k rule = tracked k' rule := by
      cases rule <;> simp [tracked, hdevice', hoverlay, hnat, hsite, hforward]
    rw [once, once, htracked]

/-- **The kernel converges to the configuration**: after a steady and regular session, a steady
    last call in which nothing fails leaves the routes, the policy and the rules that a first call
    on a clean kernel creates. -/
theorem reconcile_converges {F : Type} {customCommand customCommand' : Bool}
    {localNodeID device : GoString} {config : RoutingConfig F} {order order' : Order}
    {k k₁ k₂ : KernelState} {past past₁ past₂ : Trace Request}
    (h : SteadySession F (KernelState.fresh customCommand localNodeID device) k past)
    (hsteady : Steady config k)
    (hlast : Executes Undisturbed (reconcile config order k) past past₁ (k₁, none))
    (hclean : Executes Undisturbed (reconcile config order'
      (KernelState.fresh customCommand' localNodeID device)) [] past₂ (k₂, none)) :
    (∀ o, installed past₁ o = installed past₂ o) ∧ (rulesOf past₁).Perm (rulesOf past₂) := by
  obtain ⟨howns, htracks, hdevice, hid⟩ := h.sound
  have hfresh : Steady config (KernelState.fresh customCommand' localNodeID device) := by
    refine ⟨fun cidr table table' _ hget => ?_, fun _ cidr => ⟨fun hhad => ?_, fun hhad => ?_⟩⟩
    · rw [show (KernelState.fresh customCommand' localNodeID device).routeTables[cidr]? = none from
        SortedMap.get_empty cidr] at hget
      cases hget
    · exact absurd (hhad.symm.trans (has_empty cidr)) (by decide)
    · exact absurd (hhad.symm.trans (has_empty cidr)) (by decide)
  obtain ⟨howns₁, htracks₁, hsettled₁⟩ := (holds_reconcile config order howns htracks hsteady.tables
    hsteady.subnet).ends (hlast.mono fun _ _ _ => Undisturbed.regular)
  obtain ⟨howns₂, htracks₂, hsettled₂⟩ := (holds_reconcile config order'
    (owns_fresh customCommand' localNodeID device)
      (tracksRules_fresh customCommand' localNodeID device)
    hfresh.tables hfresh.subnet).ends (hclean.mono fun _ _ _ => Undisturbed.regular)
  obtain ⟨hobjects, hrules⟩ := hsettled₁.same hsettled₂ hdevice hid
  refine ⟨fun o => ?_, List.perm_iff_count.mpr fun rule => ?_⟩
  · rw [howns₁.objects, howns₂.objects, hobjects]
  · rw [htracks₁.count, htracks₂.count, hrules]

/-! ## Two runs -/

/-- `Undisturbed`, computed. -/
def undisturbed (past : Trace Request) (r : Request) (ok : Bool) : Bool :=
  if ok then possible past r
  else
    match r with
    | .run (.iptables .check rule) => decide (rule ∉ rulesOf past)
    | _ => false

/-- The test is sound. -/
theorem undisturbed_sound {ok : Bool} (h : undisturbed past r ok = true) :
    Undisturbed past r ok := by
  cases ok with
  | true => exact ⟨fun _ => h, fun hok => (by cases hok)⟩
  | false =>
    refine ⟨fun hok => (by cases hok), fun _ => ?_⟩
    unfold undisturbed at h
    rw [if_neg (by decide)] at h
    split at h
    · exact ⟨_, rfl, of_decide_eq_true h⟩
    · cases h

/-- A Public Node with one route. -/
def publicConfig (overlay cidr : GoString) : RoutingConfig Int :=
  { emptyConfig Int overlay with
    version := 1
    localPublic := true
    routes := [⟨cidr, ascii "home"⟩] }

/-- A Node before its first call. -/
def plainNode : KernelState := .fresh true (ascii "n") (ascii "bpcrt0")

/-- Everything succeeds, and the rule is not there before. -/
def firstOutcomes : List Bool := [true, true, true, false, true]

/-- Runs from their replays. -/
theorem exists_runs (config config' : RoutingConfig Int) (outcomes : List Bool)
    (test : KernelState → Trace Request → Trace Request → Bool)
    (h : ((replay undisturbed (reconcile config .sorted plainNode) [] firstOutcomes).bind fun r =>
      (replay undisturbed (reconcile config' .sorted r.2.1) r.1 outcomes).bind fun r₁ =>
        (replay undisturbed (reconcile config' .sorted plainNode) [] firstOutcomes).map fun r₂ =>
          (r.2.2, r₁.2.2, r₂.2.2, test r.2.1 r₁.1 r₂.1)) = some (none, none, none, true)) :
    ∃ k past k₁ past₁ k₂ past₂,
      Executes Undisturbed (reconcile config .sorted plainNode) [] past (k, none) ∧
      Executes Undisturbed (reconcile config' .sorted k) past past₁ (k₁, none) ∧
      Executes Undisturbed (reconcile config' .sorted plainNode) [] past₂ (k₂, none) ∧
      test k past₁ past₂ = true := by
  obtain ⟨⟨past, k, e⟩, hfirst, h⟩ := Option.bind_eq_some_iff.mp h
  obtain ⟨⟨past₁, k₁, e₁⟩, hsecond, h⟩ := Option.bind_eq_some_iff.mp h
  obtain ⟨⟨past₂, k₂, e₂⟩, hthird, h⟩ := Option.map_eq_some_iff.mp h
  simp only [Prod.mk.injEq] at h
  obtain ⟨rfl, rfl, rfl, htest⟩ := h
  exact ⟨k, past, k₁, past₁, k₂, past₂,
    (executes_of_replay hfirst).mono fun _ _ _ => undisturbed_sound,
    (executes_of_replay hsecond).mono fun _ _ _ => undisturbed_sound,
    (executes_of_replay hthird).mono fun _ _ _ => undisturbed_sound, htest⟩

/-- The route moves to another network. -/
theorem reconcile_converges_plain :
    ∃ k past k₁ past₁ k₂ past₂,
      Executes Undisturbed (reconcile (publicConfig (ascii "10.1.0.0/24") (ascii "192.168.1.0/24"))
        .sorted plainNode) [] past (k, none) ∧
      Executes Undisturbed (reconcile (publicConfig (ascii "10.1.0.0/24") (ascii "192.168.2.0/24"))
        .sorted k) past past₁ (k₁, none) ∧
      Executes Undisturbed (reconcile (publicConfig (ascii "10.1.0.0/24") (ascii "192.168.2.0/24"))
        .sorted plainNode) [] past₂ (k₂, none) ∧
      (∀ o, installed past₁ o = installed past₂ o) ∧ (rulesOf past₁).Perm (rulesOf past₂) := by
  obtain ⟨k, past, k₁, past₁, k₂, past₂, hexec, hexec₁, hexec₂, htest⟩ := exists_runs
    (publicConfig (ascii "10.1.0.0/24") (ascii "192.168.1.0/24"))
    (publicConfig (ascii "10.1.0.0/24") (ascii "192.168.2.0/24")) [true, true, false, true, true]
    (fun k _ _ => decide
      (Steady (publicConfig (ascii "10.1.0.0/24") (ascii "192.168.1.0/24")) plainNode ∧
        Steady (publicConfig (ascii "10.1.0.0/24") (ascii "192.168.2.0/24")) k)) (by decide +kernel)
  obtain ⟨hsteady, hsteady₁⟩ := of_decide_eq_true htest
  have hsession : SteadySession Int plainNode k past :=
    .call .sorted _ .start hsteady (hexec.mono fun _ _ _ => Undisturbed.regular)
  exact ⟨k, past, k₁, past₁, k₂, past₂, hexec, hexec₁, hexec₂,
    reconcile_converges hsession hsteady₁ hexec₁ hexec₂⟩

/-- **The overlay subnet changes and a network keeps its rule for the old one.** -/
theorem reconcile_keeps_old_overlay :
    (publicConfig (ascii "10.1.0.0/24") (ascii "192.168.1.0/24")).validate plainLibrary
      (ascii "n") =
      .ok () ∧
    (publicConfig (ascii "10.2.0.0/24") (ascii "192.168.1.0/24")).validate plainLibrary
      (ascii "n") =
      .ok () ∧
    ∃ k past k₁ past₁ k₂ past₂,
      Executes Undisturbed (reconcile (publicConfig (ascii "10.1.0.0/24") (ascii "192.168.1.0/24"))
        .sorted plainNode) [] past (k, none) ∧
      Executes Undisturbed (reconcile (publicConfig (ascii "10.2.0.0/24") (ascii "192.168.1.0/24"))
        .sorted k) past past₁ (k₁, none) ∧
      Executes Undisturbed (reconcile (publicConfig (ascii "10.2.0.0/24") (ascii "192.168.1.0/24"))
        .sorted plainNode) [] past₂ (k₂, none) ∧
      rulesOf past₁ = [.noSNAT (ascii "10.1.0.0/24") (ascii "192.168.1.0/24") (ascii "bpcrt0")] ∧
      rulesOf past₂ = [.noSNAT (ascii "10.2.0.0/24") (ascii "192.168.1.0/24") (ascii "bpcrt0")] ∧
      ¬ (rulesOf past₁).Perm (rulesOf past₂) := by
  obtain ⟨k, past, k₁, past₁, k₂, past₂, hexec, hexec₁, hexec₂, htest⟩ := exists_runs
    (publicConfig (ascii "10.1.0.0/24") (ascii "192.168.1.0/24"))
    (publicConfig (ascii "10.2.0.0/24") (ascii "192.168.1.0/24")) []
    (fun _ past₁ past₂ => decide
      (rulesOf past₁ = [.noSNAT (ascii "10.1.0.0/24") (ascii "192.168.1.0/24") (ascii "bpcrt0")] ∧
        rulesOf past₂ = [.noSNAT (ascii "10.2.0.0/24") (ascii "192.168.1.0/24") (ascii "bpcrt0")]))
    (by decide +kernel)
  obtain ⟨hrules, hrules'⟩ := of_decide_eq_true htest
  refine ⟨by decide +kernel, by decide +kernel, k, past, k₁, past₁, k₂, past₂, hexec,
    hexec₁, hexec₂,
    hrules, hrules', ?_⟩
  rw [hrules, hrules', List.singleton_perm_singleton]
  decide

end Bpc.RoutedNode

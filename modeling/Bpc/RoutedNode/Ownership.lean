/-
  OWNERSHIP — what a routed Node deletes, it has added; and its policy never opens a bypass.

  `Owns` holds after ANY calls with ANY outcomes: recorded routes are installed, the flags are
  exact, and the rule is never there without the default (`removals_owned_no_bypass`).
-/
import Bpc.RoutedNode.Reconcile

namespace Bpc.RoutedNode

open Commands Routed

/-! ## What is installed -/

/-- The last successful command that names the object added it. -/
def installed : Trace Request → IpObject → Bool
  | [], _ => false
  | ⟨.run (.ip action object), true⟩ :: past, o =>
    if object = o then decide (action = .add) else installed past o
  | _ :: past, o => installed past o

variable {past : Trace Request} {o o' : IpObject} {k : KernelState}

@[simp] theorem installed_failed (r : Request) :
    installed (⟨r, false⟩ :: past) o = installed past o := by
  cases r with
  | requireFreshPublicPolicy => rfl
  | run c => cases c <;> rfl

@[simp] theorem installed_iptables (action : IptablesAction) (rule : Rule) (ok : Bool) :
    installed (⟨.run (.iptables action rule), ok⟩ :: past) o = installed past o := by
  cases ok <;> rfl

@[simp] theorem installed_inspect (ok : Bool) :
    installed (⟨.requireFreshPublicPolicy, ok⟩ :: past) o = installed past o := by
  cases ok <;> rfl

@[simp] theorem installed_ip (action : IpAction) :
    installed (⟨.run (.ip action o'), true⟩ :: past) o =
      if o' = o then decide (action = .add) else installed past o := rfl

theorem installed_iff : installed past o = true ↔
    ∃ since before, past = since ++ ⟨.run (.ip .add o), true⟩ :: before ∧
      ⟨.run (.ip .del o), true⟩ ∉ since := by
  induction past with
  | nil => simp [installed]
  | cons event past ih =>
    obtain ⟨r, ok⟩ := event
    -- an event that does not decide the matter: the split lies further back
    have hskip : installed (⟨r, ok⟩ :: past) o = installed past o →
        (⟨r, ok⟩ : Interaction.Event Request fun _ => Bool) ≠ ⟨.run (.ip .add o), true⟩ →
        (⟨r, ok⟩ : Interaction.Event Request fun _ => Bool) ≠ ⟨.run (.ip .del o), true⟩ →
        (installed (⟨r, ok⟩ :: past) o = true ↔
          ∃ since before, ⟨r, ok⟩ :: past = since ++ ⟨.run (.ip .add o), true⟩ :: before ∧
            ⟨.run (.ip .del o), true⟩ ∉ since) := by
      intro hsame hadd hdel
      rw [hsame, ih]
      constructor
      · rintro ⟨since, before, rfl, hnot⟩
        refine ⟨⟨r, ok⟩ :: since, before, rfl, ?_⟩
        rw [List.mem_cons]
        rintro (heq | hmem)
        · exact hdel heq.symm
        · exact hnot hmem
      · rintro ⟨since, before, heq, hnot⟩
        cases since with
        | nil => exact absurd (List.cons.inj heq).1 hadd
        | cons e since =>
          obtain ⟨rfl, rfl⟩ := List.cons.inj heq
          exact ⟨since, before, rfl, fun hmem => hnot (List.mem_cons_of_mem _ hmem)⟩
    cases ok with
    | false => exact hskip (installed_failed r) (by simp) (by simp)
    | true =>
      cases r with
      | requireFreshPublicPolicy => exact hskip rfl (by simp) (by simp)
      | run c =>
        cases c with
        | iptables action rule => exact hskip rfl (by simp) (by simp)
        | ip action object =>
          by_cases hobject : object = o
          · subst hobject
            cases action with
            | add =>
              refine ⟨fun _ => ⟨[], past, rfl, List.not_mem_nil⟩, fun _ => ?_⟩
              simp
            | del =>
              constructor
              · simp
              · rintro ⟨since, before, heq, hnot⟩
                cases since with
                | nil => simp at heq
                | cons e since =>
                  obtain ⟨rfl, -⟩ := List.cons.inj heq
                  exact absurd List.mem_cons_self hnot
          · exact hskip (by simp [hobject]) (by simp [hobject]) (by simp [hobject])

/-! ## The invariant -/

/-- The object is recorded. -/
def recorded (k : KernelState) : IpObject → Bool
  | .route cidr device table =>
    decide (device = k.interfaceID) && decide (k.routeTables[cidr]? = some table)
  | .unreachableDefault => k.policyDefault
  | .markRule => k.policyRule

/-- What is recorded is what is installed, and there is no bypass. -/
structure Owns (k : KernelState) (past : Trace Request) : Prop where
  tables : ∀ cidr, k.routes.has cidr = (k.routeTables[cidr]?).isSome
  objects : ∀ o, installed past o = recorded k o
  no_bypass : k.policyRule = true → k.policyDefault = true

/-- A deletion names an installed object, and the rule is never left without the default. -/
def obligations : Contract Request where
  must past r := (∀ o, r = .run (.ip .del o) → installed past o = true) ∧
    ∀ ok, installed (⟨r, ok⟩ :: past) .markRule = true →
      installed (⟨r, ok⟩ :: past) .unreachableDefault = true
  may _ _ _ := True

theorem owns_fresh (customCommand : Bool) (localNodeID device : GoString) :
    Owns (KernelState.fresh customCommand localNodeID device) [] where
  tables cidr := by
    show ((∅ : GoSet)[cidr]?).isSome = ((∅ : SortedMap GoString GoString)[cidr]?).isSome
    rw [SortedMap.get_empty, SortedMap.get_empty]
    rfl
  objects o := by
    cases o with
    | route cidr dev table =>
      show false = (decide _ && decide ((∅ : SortedMap GoString GoString)[cidr]? = some table))
      rw [SortedMap.get_empty]
      simp
    | unreachableDefault => rfl
    | markRule => rfl
  no_bypass h := by cases h

theorem Owns.bypass_free (h : Owns k past) (hrule : installed past .markRule = true) :
    installed past .unreachableDefault = true := by
  rw [h.objects] at hrule ⊢
  exact h.no_bypass hrule

theorem Owns.congr {k' : KernelState} {past' : Trace Request} (h : Owns k past)
    (hpast : ∀ o, installed past' o = installed past o) (hdevice : k'.interfaceID = k.interfaceID)
    (hroutes : k'.routes = k.routes) (htables : k'.routeTables = k.routeTables)
    (hrule : k'.policyRule = k.policyRule) (hdefault : k'.policyDefault = k.policyDefault) :
    Owns k' past' where
  tables cidr := by rw [hroutes, htables, h.tables]
  objects o := by
    rw [hpast, h.objects]
    cases o with
    | route cidr dev table =>
      unfold recorded
      rw [hdevice, htables]
    | unreachableDefault => exact hdefault.symm
    | markRule => exact hrule.symm
  no_bypass hr := hdefault ▸ h.no_bypass (hrule ▸ hr)

theorem Owns.event (h : Owns k past) {r : Request} {ok : Bool}
    (hsame : ∀ o, installed (⟨r, ok⟩ :: past) o = installed past o) : Owns k (⟨r, ok⟩ :: past) :=
  h.congr hsame rfl rfl rfl rfl rfl

theorem Owns.success {k' : KernelState} {action : IpAction} (h : Owns k past)
    (htables : ∀ cidr, k'.routes.has cidr = (k'.routeTables[cidr]?).isSome)
    (hrecord : ∀ o', recorded k' o' = if o = o' then decide (action = .add) else recorded k o')
    (hbypass : k'.policyRule = true → k'.policyDefault = true) :
    Owns k' (⟨.run (.ip action o), true⟩ :: past) where
  tables := htables
  objects o' := by rw [installed_ip, h.objects, hrecord]
  no_bypass := hbypass

/-! ## Requests that are not about the objects -/

/-- A request that leaves the `ip` objects alone. -/
def Inert (r : Request) : Prop := ∀ past o ok, installed (⟨r, ok⟩ :: past) o = installed past o

theorem inert_iptables (action : IptablesAction) (rule : Rule) :
    Inert (.run (.iptables action rule)) :=
  fun _ _ ok => installed_iptables action rule ok

theorem inert_inspect : Inert .requireFreshPublicPolicy := fun _ _ ok => installed_inspect ok

theorem must_of_inert {r : Request} (hr : Inert r) (hdel : ∀ o, r ≠ .run (.ip .del o))
    (h : Owns k past) : obligations.must past r := by
  refine ⟨fun o heq => absurd heq (hdel o), fun ok hrule => ?_⟩
  rw [hr] at hrule ⊢
  exact h.bypass_free hrule

theorem keeps_require_inert {r : Request} (hr : Inert r) (hdel : ∀ o, r ≠ .run (.ip .del o)) :
    Keeps obligations Owns (require r id) :=
  triple_require (fun _ _ h => must_of_inert hr hdel h)
    (fun _ _ h _ => h.event fun o => hr _ o true)
    fun _ _ h _ => h.event fun o => hr _ o false

theorem keeps_ensure (action : IptablesAction) (rule : Rule) :
    Keeps obligations Owns (ensure action rule) := by
  have hcheck := inert_iptables .check rule
  refine triple_ifFails (fun _ _ h => must_of_inert hcheck (fun _ => nofun) h) ?_ ?_
    (keeps_require_inert (inert_iptables action rule) fun _ => nofun)
  · exact fun _ _ h _ => h.event fun o => hcheck _ o true
  · exact fun _ _ h _ => h.event fun o => hcheck _ o false

theorem keeps_discard (rule : Rule) : Keeps obligations Owns (discard rule) :=
  triple_attempt (fun _ _ h => must_of_inert (inert_iptables .delete rule) (fun _ => nofun) h)
    fun _ _ ok h _ => h.event fun o => inert_iptables .delete rule _ o ok

/-! ## The policy -/

theorem must_add (hobject : o ≠ .markRule) (h : Owns k past) :
    obligations.must past (.run (.ip .add o)) := by
  refine ⟨fun o' heq => (by cases heq), fun ok hrule => ?_⟩
  cases ok with
  | false =>
    rw [installed_failed] at hrule ⊢
    exact h.bypass_free hrule
  | true =>
    rw [installed_ip, if_neg hobject] at hrule
    rw [installed_ip, h.bypass_free hrule]
    simp

theorem must_del (hobject : o ≠ .unreachableDefault) (ho : installed past o = true)
    (h : Owns k past) : obligations.must past (.run (.ip .del o)) := by
  refine ⟨fun o' heq => ?_, fun ok hrule => ?_⟩
  · obtain rfl : o = o' := by
      cases heq
      rfl
    exact ho
  · cases ok with
    | false =>
      rw [installed_failed] at hrule ⊢
      exact h.bypass_free hrule
    | true =>
      rw [installed_ip] at hrule ⊢
      rw [if_neg hobject]
      split at hrule
      · exact absurd hrule (by decide)
      · exact h.bypass_free hrule

theorem keeps_addDefault : Triple obligations Owns
    (reading fun k => onlyIf (!k.policyDefault)
      (require (.run (.ip .add .unreachableDefault)) fun k => { k with policyDefault := true }))
    (fun k past => Owns k past ∧ k.policyDefault = true) Owns := by
  refine triple_reading fun k => Triple.onlyIf (fun _ => triple_require ?_ ?_ ?_) ?_
  · rintro _ past ⟨rfl, h⟩
    exact must_add (fun h => by cases h) h
  · rintro _ past ⟨rfl, h⟩ -
    refine ⟨h.success h.tables (fun o' => ?_) fun _ => rfl, rfl⟩
    cases o' <;> simp [recorded]
  · rintro _ past ⟨rfl, h⟩ -
    exact h.event fun o => installed_failed _
  · rintro hflag _ past ⟨rfl, h⟩
    exact ⟨h, by simpa using hflag⟩

theorem keeps_addRule : Triple obligations (fun k past => Owns k past ∧ k.policyDefault = true)
    (reading fun k => onlyIf (!k.policyRule)
      (require (.run (.ip .add .markRule)) fun k => { k with policyRule := true }))
    Owns Owns := by
  refine triple_reading fun k => Triple.onlyIf (fun _ => triple_require ?_ ?_ ?_) ?_
  · rintro _ past ⟨rfl, h, hdefault⟩
    -- the default is there already
    refine ⟨fun o heq => (by cases heq), fun ok _ => ?_⟩
    have hinstalled : installed past .unreachableDefault = true := (h.objects _).trans hdefault
    cases ok with
    | false => rwa [installed_failed]
    | true => rwa [installed_ip, if_neg (fun h => by cases h)]
  · rintro _ past ⟨rfl, h, hdefault⟩ -
    refine h.success h.tables (fun o' => ?_) fun _ => hdefault
    cases o' <;> simp [recorded]
  · rintro _ past ⟨rfl, h, -⟩ -
    exact h.event fun o => installed_failed _
  · rintro - _ past ⟨rfl, h, -⟩
    exact h

theorem keeps_enablePublicPolicy : Keeps obligations Owns enablePublicPolicy :=
  keeps_addDefault.andThen keeps_addRule

theorem keeps_delRule : Triple obligations Owns
    (reading fun k => onlyIf k.policyRule
      (require (.run (.ip .del .markRule)) fun k => { k with policyRule := false }))
    (fun k past => Owns k past ∧ k.policyRule = false) Owns := by
  refine triple_reading fun k => Triple.onlyIf (fun hflag => triple_require ?_ ?_ ?_) ?_
  · rintro _ past ⟨rfl, h⟩
    exact must_del (fun h => by cases h) ((h.objects _).trans hflag) h
  · rintro _ past ⟨rfl, h⟩ -
    refine ⟨h.success h.tables (fun o' => ?_) fun h => (by cases h), rfl⟩
    cases o' <;> simp [recorded]
  · rintro _ past ⟨rfl, h⟩ -
    exact h.event fun o => installed_failed _
  · rintro hflag _ past ⟨rfl, h⟩
    exact ⟨h, hflag⟩

theorem keeps_delDefault : Triple obligations (fun k past => Owns k past ∧ k.policyRule = false)
    (reading fun k => onlyIf k.policyDefault
      (require (.run (.ip .del .unreachableDefault)) fun k => { k with policyDefault := false }))
    Owns Owns := by
  refine triple_reading fun k => Triple.onlyIf (fun hflag => triple_require ?_ ?_ ?_) ?_
  · rintro _ past ⟨rfl, h, hrule⟩
    -- the rule is gone already
    have hnot : installed past .markRule = false := (h.objects _).trans hrule
    refine ⟨fun o heq => ?_, fun ok hok => ?_⟩
    · cases heq
      exact (h.objects _).trans hflag
    · cases ok with
      | false =>
        rw [installed_failed, hnot] at hok
        cases hok
      | true =>
        rw [installed_ip, if_neg (fun h => by cases h), hnot] at hok
        cases hok
  · rintro _ past ⟨rfl, h, hrule⟩ -
    refine h.success h.tables (fun o' => ?_) fun h => absurd (hrule.symm.trans h) (by decide)
    cases o' <;> simp [recorded]
  · rintro _ past ⟨rfl, h, -⟩ -
    exact h.event fun o => installed_failed _
  · rintro - _ past ⟨rfl, h, -⟩
    exact h

theorem keeps_disablePublicPolicy : Keeps obligations Owns disablePublicPolicy :=
  keeps_delRule.andThen keeps_delDefault

theorem keeps_publicPolicy : Keeps obligations Owns publicPolicy := by
  refine Keeps.andThen (keeps_reading fun k => Keeps.onlyIf ?_) keeps_enablePublicPolicy
  exact keeps_require_inert inert_inspect fun _ => nofun

/-! ## Routes -/

theorem has_insert {s : GoSet} {x y : GoString} :
    GoSet.has (s.insert x ()) y = (decide (x = y) || s.has y) := by
  unfold GoSet.has
  rw [SortedMap.get_insert]
  by_cases h : x = y
  · simp [h]
  · simp [h]

theorem has_erase {s : GoSet} {x y : GoString} :
    GoSet.has (s.erase x) y = (decide (x ≠ y) && s.has y) := by
  unfold GoSet.has
  rw [SortedMap.get_erase]
  by_cases h : x = y
  · simp [h]
  · simp [h]

theorem keeps_addRoute (cidr table : GoString) : Keeps obligations Owns (addRoute cidr table) := by
  refine triple_reading fun k => Triple.onlyIf
    (fun hnew => triple_require ?_ ?_ ?_) fun _ _ _ h => h.2
  · rintro _ past ⟨rfl, h⟩
    exact must_add (fun h => by cases h) h
  · rintro m past ⟨rfl, h⟩ -
    have hnone : m.routeTables[cidr]? = none := by
      have hhas := h.tables cidr
      rw [show m.routes.has cidr = false by simpa using hnew] at hhas
      exact Option.isSome_eq_false_iff.mp hhas.symm |> Option.isNone_iff_eq_none.mp
    refine h.success (fun other => ?_) (fun o' => ?_) h.no_bypass
    · show GoSet.has (m.routes.insert cidr ()) other =
        ((m.routeTables.insert cidr table)[other]?).isSome
      rw [has_insert, SortedMap.get_insert, h.tables]
      by_cases hsame : cidr = other <;> simp [hsame]
    · cases o' with
      | route other device table' =>
        show (decide (device = m.interfaceID) &&
          decide ((m.routeTables.insert cidr table)[other]? = some table')) = _
        rw [SortedMap.get_insert]
        by_cases hsame : cidr = other
        · subst hsame
          by_cases hdevice : device = m.interfaceID
          · simp [recorded, hnone, hdevice]
          · simp [recorded, hdevice, Ne.symm hdevice]
        · simp [recorded, hsame]
      | unreachableDefault => simp [recorded]
      | markRule => simp [recorded]
  · rintro _ past ⟨rfl, h⟩ -
    exact h.event fun o => installed_failed _

/-- The stale routes that are left are recorded, each once. -/
def Removing (rest : List GoString) (k : KernelState) (past : Trace Request) : Prop :=
  Owns k past ∧ rest.Nodup ∧ ∀ x ∈ rest, k.routes.has x = true

theorem Removing.tail {cidr : GoString} {rest : List GoString}
    (h : Removing (cidr :: rest) k past) : Removing rest k past :=
  ⟨h.1, (List.nodup_cons.mp h.2.1).2, fun x hx => h.2.2 x (List.mem_cons_of_mem _ hx)⟩

theorem triple_removeRoute (cidr : GoString) (rest : List GoString) :
    Triple obligations (Removing (cidr :: rest)) (removeRoute cidr) (Removing rest) Owns := by
  have htable : ∀ {m : KernelState} {past}, Removing (cidr :: rest) m past →
      m.routeTables[cidr]? = some ((m.routeTables[cidr]?).getD []) := by
    rintro m past ⟨h, -, hhas⟩
    have hsome := (h.tables cidr).symm.trans (hhas cidr List.mem_cons_self)
    obtain ⟨table, htable⟩ := Option.isSome_iff_exists.mp hsome
    rw [htable]
    rfl
  refine triple_reading fun k => triple_require ?_ ?_ ?_
  · rintro m past ⟨rfl, h⟩
    refine must_del (fun h => by cases h) ?_ h.1
    rw [h.1.objects]
    show (decide (m.interfaceID = m.interfaceID) && _) = true
    rw [Bool.and_eq_true]
    exact ⟨decide_eq_true rfl, decide_eq_true (htable h)⟩
  · rintro m past ⟨rfl, hremoving⟩ -
    have htable := htable hremoving
    obtain ⟨h, hnodup, hhas⟩ := hremoving
    obtain ⟨hnotin, hrest⟩ := List.nodup_cons.mp hnodup
    refine ⟨h.success (fun other => ?_) (fun o' => ?_) h.no_bypass, hrest, fun x hx => ?_⟩
    · show GoSet.has (m.routes.erase cidr) other = ((m.routeTables.erase cidr)[other]?).isSome
      rw [has_erase, SortedMap.get_erase, h.tables]
      by_cases hsame : cidr = other <;> simp [hsame]
    · cases o' with
      | route other device table' =>
        show (decide (device = m.interfaceID) &&
          decide ((m.routeTables.erase cidr)[other]? = some table')) = _
        rw [SortedMap.get_erase]
        by_cases hsame : cidr = other
        · subst hsame
          by_cases hdevice : device = m.interfaceID
          · generalize (m.routeTables[cidr]?).getD [] = table at htable
            simp [recorded, htable, hdevice]
          · simp [recorded, hdevice, Ne.symm hdevice]
        · simp [recorded, hsame]
      | unreachableDefault => simp [recorded]
      | markRule => simp [recorded]
    · show GoSet.has (m.routes.erase cidr) x = true
      rw [has_erase, hhas x (List.mem_cons_of_mem _ hx)]
      simpa using fun heq : cidr = x => hnotin (heq ▸ hx)
  · rintro _ past ⟨rfl, h, -⟩ -
    exact h.event fun o => installed_failed _

theorem has_of_mem_list {range : MapRange GoString Unit} {s : GoSet} {e : GoString × Unit}
    (h : e ∈ range.list s) : s.has e.1 = true := by
  have hget : s[e.1]? = some e.2 := MapRange.mem_list.mp h
  unfold GoSet.has
  rw [hget]
  rfl

section Reconcile

variable {F : Type} (config : RoutingConfig F) (order : Order)

theorem keeps_reconcileRoutes :
    Keeps obligations Owns (reconcileRoutes config order) := by
  refine Keeps.andThen (keeps_forEach (fun e => keeps_addRoute _ _) _) (triple_reading fun k => ?_)
  refine (Triple.forEach (fun rest => Removing (rest.map Prod.fst)) (fun e rest => ?_) _).conseq
    ?_ (fun _ _ h => h.1) fun _ _ h => h
  · exact Triple.onlyIf (fun _ => triple_removeRoute e.1 _) fun _ _ _ h => h.tail
  · rintro m past ⟨rfl, h⟩
    refine ⟨h, order.routes.nodup_keys _, fun x hx => ?_⟩
    obtain ⟨e, he, rfl⟩ := List.mem_map.mp hx
    exact has_of_mem_list he

theorem keeps_reconcileNoSNAT (previous : GoString) :
    Keeps obligations Owns (reconcileNoSNAT config order previous) := by
  refine Keeps.andThen (keeps_forEach (fun e => keeps_reading fun k => ?_) _)
    (Keeps.andThen (keeps_reading fun k => keeps_forEach (fun e => ?_) _)
      (keeps_assign fun k past h => ?_))
  · exact (keeps_ensure _ _).onlyIf
  · exact (keeps_discard _).onlyIf
  · exact h.congr (fun _ => rfl) rfl rfl rfl rfl rfl

theorem keeps_ensureSite (cidr : GoString) :
    Keeps obligations Owns (ensureSite config cidr) := by
  refine Keeps.andThen (keeps_reading fun k => ?_) (keeps_reading fun k => ?_)
  · exact (keeps_ensure _ _).onlyIf
  · exact ((keeps_ensure _ _).andThen (keeps_ensure _ _)).onlyIf

theorem keeps_reconcileSite (previous : GoString) :
    Keeps obligations Owns (reconcileSite config order previous) := by
  refine keeps_reading fun k => Keeps.andThen (keeps_forEach (fun e => ?_) _)
    (Keeps.andThen (keeps_reading fun k => keeps_forEach (fun e => ?_) _)
      (Keeps.andThen (keeps_reading fun k => keeps_forEach (fun e => ?_) _)
        (keeps_assign fun k past h => ?_)))
  · exact keeps_ensureSite config _
  · exact (keeps_discard _).onlyIf
  · exact ((keeps_discard _).andThen (keeps_discard _)).onlyIf
  · exact h.congr (fun _ => rfl) rfl rfl rfl rfl rfl

/-- **A reconciliation keeps the invariant**, wherever it fails. -/
theorem keeps_reconcile : Keeps obligations Owns (reconcile config order) := by
  refine keeps_reading fun k => ?_
  exact keeps_publicPolicy.onlyIf.andThen ((keeps_reconcileRoutes config order).andThen
    (keeps_disablePublicPolicy.onlyIf.andThen
      ((keeps_reconcileNoSNAT config order _).andThen (keeps_reconcileSite config order _))))

theorem keeps_cleanup :
    Keeps obligations Owns (cleanup F order) := by
  intro k past h
  refine ((keeps_reconcile (emptyConfig F k.overlaySubnet) order k past h).mono
    fun past' r hr => ?_).bind
  obtain ⟨k', e⟩ := r
  cases e with
  | none => exact hr
  | some e => exact hr

end Reconcile

/-! ## Runs -/

/-- A call of the process. -/
inductive NodeCall (F : Type) where
  | reconcile (order : Order) (config : RoutingConfig F)
  | cleanup (order : Order)

/-- What a call does. -/
def NodeCall.step {F : Type} : NodeCall F → NodeStep
  | reconcile order config => RoutedNode.reconcile config order
  | cleanup order => RoutedNode.cleanup F order

/-- After some calls, with any outcomes. -/
inductive Session (F : Type) (start : KernelState) : KernelState → Trace Request → Prop where
  | start : Session F start start []
  | call {k k' : KernelState} {past past' : Trace Request} {error : Option Request}
      (call : NodeCall F) (h : Session F start k past)
      (hrun : Executes (fun _ _ _ => True) (call.step k) past past' (k', error)) :
      Session F start k' past'

theorem Session.owns {F : Type} {customCommand : Bool} {localNodeID device : GoString}
    {trace : Trace Request}
    (h : Session F (KernelState.fresh customCommand localNodeID device) k trace) :
    Owns k trace ∧
      ∀ r ok before, ⟨r, ok⟩ :: before <:+ trace → obligations.must before r := by
  induction h with
  | start =>
    refine ⟨owns_fresh customCommand localNodeID device, fun r ok before hevent => ?_⟩
    exact absurd (List.eq_nil_of_suffix_nil hevent) (List.cons_ne_nil _ _)
  | @call k k' past past' error call _ hrun ih =>
    obtain ⟨howns, hmust⟩ := ih
    have hcall : Keeps obligations Owns call.step := by
      cases call with
      | reconcile order config => exact keeps_reconcile config order
      | cleanup order => exact keeps_cleanup order
    have hholds := hcall k past howns
    refine ⟨?_, fun r ok before hevent => ?_⟩
    · have hend := hholds.ends hrun
      cases error with
      | none => exact hend
      | some e => exact hend
    · obtain hold | hnew := hholds.obliged hrun hevent
      · exact hmust r ok before hold
      · exact hnew

/-- The memory and the trace after calls with given outcomes. -/
def replayCalls {F : Type} : List (NodeCall F × List Bool) → KernelState → Trace Request →
    Option (KernelState × Trace Request)
  | [], k, past => some (k, past)
  | (call, outcomes) :: calls, k, past =>
    match replay (fun _ _ _ => true) (call.step k) past outcomes with
    | none => none
    | some (past', k', _) => replayCalls calls k' past'

theorem Session.replayCalls {F : Type} {start k' : KernelState} {past' : Trace Request} :
    ∀ {calls : List (NodeCall F × List Bool)} {k : KernelState} {past : Trace Request},
      Session F start k past → RoutedNode.replayCalls calls k past = some (k', past') →
      Session F start k' past'
  | [], k, past, h, hrun => by
    obtain ⟨rfl, rfl⟩ := Prod.mk.inj (Option.some.inj hrun)
    exact h
  | (c, outcomes) :: calls, k, past, h, hrun => by
    rw [RoutedNode.replayCalls] at hrun
    split at hrun
    · cases hrun
    rename_i past₁ k₁ error hcall
    exact Session.replayCalls
      (.call c h ((executes_of_replay hcall).mono fun _ _ _ _ => trivial)) hrun

/-- **The process only deletes what it has added, and never opens a bypass.**  Whatever the
    outcomes: an object that an `ip … del` names was added with the same arguments and not deleted
    since; and whenever the policy rule is installed, so is the unreachable default of its table. -/
theorem removals_owned_no_bypass {F : Type} {customCommand : Bool} {localNodeID device : GoString}
    {trace : Trace Request}
    (h : Session F (KernelState.fresh customCommand localNodeID device) k trace) :
    (∀ o ok past, ⟨.run (.ip .del o), ok⟩ :: past <:+ trace →
      ∃ since before, past = since ++ ⟨.run (.ip .add o), true⟩ :: before ∧
        ⟨.run (.ip .del o), true⟩ ∉ since) ∧
    ∀ past, past <:+ trace → installed past .markRule = true →
      installed past .unreachableDefault = true := by
  obtain ⟨-, hmust⟩ := h.owns
  refine ⟨fun o ok past hevent => ?_, fun past hpast hrule => ?_⟩
  · exact installed_iff.mp ((hmust _ ok past hevent).1 o rfl)
  · cases past with
    | nil => cases hrule
    | cons event before =>
      obtain ⟨r, ok⟩ := event
      exact (hmust r ok before hpast).2 ok hrule

/-- A configuration with one route. -/
def oneRoute : RoutingConfig Unit :=
  { emptyConfig Unit (ascii "10.253.0.0/24") with
    localPublic := true
    routes := [⟨ascii "192.168.88.0/24", ascii "home"⟩] }

/-- A first clean-up fails at the rule; the second one removes the rest. -/
def oneRouteCalls : List (NodeCall Unit × List Bool) :=
  [(.reconcile .sorted oneRoute, [true, true, true, false, true]),
    (.cleanup .sorted, [true, false]),
    (.cleanup .sorted, [true, true, true])]

/-- One cleanup fails half-way, the next succeeds. -/
theorem removals_owned_oneRoute : ∃ k trace,
    Session Unit (KernelState.fresh true (ascii "n") (ascii "bpcrt0")) k trace ∧
    ⟨.run (.ip .del .markRule), false⟩ ∈ trace ∧
    (∀ o ok past, ⟨.run (.ip .del o), ok⟩ :: past <:+ trace →
      ∃ since before, past = since ++ ⟨.run (.ip .add o), true⟩ :: before ∧
        ⟨.run (.ip .del o), true⟩ ∉ since) ∧
    ∀ past, past <:+ trace → installed past .markRule = true →
      installed past .unreachableDefault = true := by
  have hrun : ((replayCalls oneRouteCalls
      (KernelState.fresh true (ascii "n") (ascii "bpcrt0")) []).map fun r =>
        decide (⟨.run (.ip .del .markRule), false⟩ ∈ r.2)) = some true := by
    decide +kernel
  obtain ⟨⟨k, trace⟩, hcalls, hmem⟩ := Option.map_eq_some_iff.mp hrun
  have hsession := Session.start.replayCalls hcalls
  exact ⟨k, trace, hsession, of_decide_eq_true hmem, removals_owned_no_bypass hsession⟩

end Bpc.RoutedNode

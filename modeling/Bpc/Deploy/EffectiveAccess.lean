/-
  EFFECTIVE ACCESS — allow minus deny, and what becomes of a stored deny.

  1. **Allow minus deny** — exactly that, in maximal blocks, in order
     (`effective_allow_minus_deny`).
  2. **Stored denies** — honoured exactly if the prefix length is not 0
     (`stored_deny_honoured_iff`): what cannot be read is SKIPPED, on the deny list too.
-/
import Bpc.Deploy.Access
import Bpc.Deploy.Alone
import Bpc.Deploy.PlainRuntime

namespace Bpc.Deploy

open SlashPath Controlplane Interaction

variable {Data : Type} {P : Runtime Data}

/-! ## What a record says -/

/-- The access file of a subject. -/
def accessFile (w : World Data) (subject : Subject) (id : Str) : Option Data :=
  frozen w none (.readFile (clean (accessPath subject id)))

variable {w : World Data} {subject : Subject} {id : Str}

theorem accessFile_replicated (h : isReplicated (clean (accessPath subject id)) = true) :
    accessFile w subject id = w.content.canonical[clean (accessPath subject id)]? := if_pos h

variable (P) in
/-- The two lists of a subject: empty without an id and without a record. -/
def SubjectLists (w : World Data) (subject : Subject) (id : Str) (allow deny : List Json) : Prop :=
  if id = [] then allow = [] ∧ deny = []
  else
    match accessFile w subject id with
    | none => allow = [] ∧ deny = []
    | some data => ∃ value, P.loads data = .object value ∧
        isSubject subject (value.get "subject_type" .null) = true ∧
        P.strField value "subject_id" = id ∧
        value.get "allow" (.arr []) = .arr allow ∧ value.get "deny" (.arr []) = .arr deny

variable (P) in
/-- The networks of the entries of a list, none of prefix length 0. -/
def IsNetworks (nets : List (Cidr 32)) (values : List Json) : Prop :=
  ∀ c, c ∈ nets ↔ c.bits ≠ 0 ∧ ∃ entry ∈ values, Denotes P entry c

theorem IsNetworks.nil : IsNetworks P [] [] := by
  intro c
  constructor
  · exact fun h => by cases h
  · rintro ⟨_, entry, hentry, _⟩
    cases hentry

theorem IsNetworks.again (h : IpText P) {nets : List (Cidr 32)} {values : List Json}
    (hnets : IsNetworks P nets values) : ∃ nets', canonicalNetworks P
      ((nets.map networkText).map .str) = .ok nets' ∧ IsNetworks P nets' values := by
  obtain ⟨nets', heq, hmem⟩ := networks_spec h ((nets.map networkText).map .str)
  refine ⟨nets', heq, fun c => ?_⟩
  rw [hmem c, denotes_texts_iff h, hnets c]
  exact ⟨fun hc => hc.2, fun hc => ⟨hc.1, hc⟩⟩

theorem parseAccess_object (h : IpText P) (subject : Subject) (id : Str) {data : Data}
    {value : Record} (hdata : P.loads data = .object value) :
    (∃ e, parseAccess P subject id (some data) = .error (.access e)) ∨
    ∃ allow deny allows denies,
      isSubject subject (value.get "subject_type" .null) = true ∧
        P.strField value "subject_id" = id ∧
      value.get "allow" (.arr []) = .arr allow ∧ value.get "deny" (.arr []) = .arr deny ∧
      IsNetworks P allows allow ∧ IsNetworks P denies deny ∧
      parseAccess P subject id (some data) =
        .ok ⟨value, allows.map networkText, denies.map networkText⟩ := by
  unfold parseAccess
  dsimp only
  rw [hdata]
  dsimp only
  split
  · exact .inl ⟨_, rfl⟩
  rename_i hsubject
  rw [Bool.or_eq_true, not_or, Bool.not_eq_true', Bool.not_eq_false, decide_eq_true_eq,
    not_not] at hsubject
  split
  · rename_i allow deny hallow hdeny
    obtain ⟨allows, hallows, hA⟩ := networks_spec h allow
    obtain ⟨denies, hdenies, hD⟩ := networks_spec h deny
    rw [hallows, hdenies]
    exact .inr ⟨allow, deny, allows, denies, hsubject.1, hsubject.2, hallow, hdeny, hA, hD, rfl⟩
  · exact .inl ⟨_, rfl⟩

/-- **The networks of a subject**, or an `AccessError`. -/
theorem eval_subjectNetworks (h : IpText P) (w : World Data) (failure : Option ControlStateError)
    (subject : Subject) (id : Str) :
    (∃ e, (subjectNetworks P subject id).eval (frozen w failure) = .error (.access e) ∧
      ∀ allow deny, ¬ SubjectLists P w subject id allow deny) ∨
    ∃ allow deny allows denies, SubjectLists P w subject id allow deny ∧
      (∀ allow' deny', SubjectLists P w subject id allow' deny' → allow' = allow ∧ deny' = deny) ∧
      IsNetworks P allows allow ∧ IsNetworks P denies deny ∧
      (subjectNetworks P subject id).eval (frozen w failure) = .ok (allows, denies) := by
  unfold subjectNetworks SubjectLists
  by_cases hid : id = []
  · simp only [if_pos hid]
    exact .inr ⟨[], [], [], [], ⟨rfl, rfl⟩, fun _ _ h => h, .nil, .nil, rfl⟩
  simp only [if_neg hid]
  unfold loadAccess
  rw [if_neg hid]
  -- the file is read once, then everything is a matter of its contents
  show (∃ e, Prog.eval _ (((Prog.ofExcept
    (parseAccess P subject id (accessFile w subject id))).bind _)) =
    _ ∧ _) ∨ ∃ allow deny allows denies, _ ∧ _ ∧ _ ∧ _ ∧
      Prog.eval _ ((Prog.ofExcept (parseAccess P subject id (accessFile w subject id))).bind _) = _
  have heval : ∀ (record : LoadedAccess) (allows denies : List (Cidr 32)) {allow deny : List Json},
      parseAccess P subject id (accessFile w subject id) = .ok record →
      record.allow = allows.map networkText → record.deny = denies.map networkText →
      IsNetworks P allows allow → IsNetworks P denies deny →
      ∃ allows' denies', IsNetworks P allows' allow ∧ IsNetworks P denies' deny ∧
        Prog.eval (frozen w failure) ((Prog.ofExcept (parseAccess P subject id
          (accessFile w subject id))).bind fun record =>
            (Prog.ofExcept (canonicalNetworks P (record.allow.map .str))).bind fun allows =>
              (Prog.ofExcept (canonicalNetworks P (record.deny.map .str))).bind fun denies =>
                (Prog.ret (allows, denies) : AccessHandler Data _)) = .ok (allows', denies') := by
    intro record allows denies allow deny hparse hA hD hallow hdeny
    obtain ⟨allows', hallows', hA'⟩ := hallow.again h
    obtain ⟨denies', hdenies', hD'⟩ := hdeny.again h
    refine ⟨allows', denies', hA', hD', ?_⟩
    rw [hparse, Prog.eval_bind_of _ (a := record) rfl, hA, hD, hallows', hdenies']
    rfl
  cases hfile : accessFile w subject id with
  | none =>
    obtain ⟨allows, denies, hA, hD, heq⟩ := heval (noAccess subject id) [] []
      (by rw [hfile]; rfl) rfl rfl .nil .nil
    rw [hfile] at heq
    exact .inr ⟨[], [], allows, denies, ⟨rfl, rfl⟩, fun _ _ h => h, hA, hD, heq⟩
  | some data =>
    dsimp only
    cases hdata : P.loads data with
    | object value =>
      rcases parseAccess_object h subject id hdata with ⟨e, he⟩ |
        ⟨allow, deny, allows, denies, hsubject, hsid, hallow, hdeny, hA, hD, hparse⟩
      · left
        rw [he]
        refine ⟨e, rfl, ?_⟩
        rintro allow deny ⟨value', hvalue', hsubject, hsid, hallow, hdeny⟩
        obtain rfl := Loaded.object.inj hvalue'
        have hsid' : ¬ P.strField value "subject_id" ≠ id := not_not.mpr hsid
        obtain ⟨allows, hallows, _⟩ := networks_spec h allow
        obtain ⟨denies, hdenies, _⟩ := networks_spec h deny
        simp only [parseAccess, hdata, hsubject, hsid, hallow, hdeny, hallows, hdenies] at he
        simp at he
      · obtain ⟨allows', denies', hA', hD', heq⟩ := heval _ _ _ (by rw [hfile]; exact hparse)
          rfl rfl hA hD
        rw [hfile] at heq
        refine .inr ⟨allow, deny, allows', denies', ⟨value, rfl, hsubject, hsid, hallow, hdeny⟩, ?_,
          hA', hD', heq⟩
        rintro allow' deny' ⟨value', hvalue', _, _, hallow', hdeny'⟩
        obtain rfl := Loaded.object.inj hvalue'
        exact ⟨Json.arr.inj (hallow'.symm.trans hallow), Json.arr.inj (hdeny'.symm.trans hdeny)⟩
    | other =>
      left
      refine ⟨.invalidRecord (accessPath subject id), ?_, ?_⟩
      · simp only [parseAccess, hdata]
        rfl
      · rintro allow deny ⟨value', hvalue', _⟩
        cases hvalue'
    | invalid =>
      left
      refine ⟨.invalidRecord (accessPath subject id), ?_, ?_⟩
      · simp only [parseAccess, hdata]
        rfl
      · rintro allow deny ⟨value', hvalue', _⟩
        cases hvalue'

/-! ## Allow minus deny -/

theorem eval_accessRead (cluster : Bool) (w : World Data) (failure : Option ControlStateError) :
    ((accessRead cluster : AccessHandler Data Unit).eval (frozen w failure) = .ok ()) ∨
    ∃ e, failure = some e ∧
      (accessRead cluster : AccessHandler Data Unit).eval (frozen w failure) =
        .error (.access (.controlState e.message)) := by
  cases cluster with
  | false => exact .inl rfl
  | true =>
    cases failure with
    | none => exact .inl rfl
    | some e => exact .inr ⟨e, rfl, rfl⟩

/-- What the three sources allow and the two records deny. -/
structure Sources (P : Runtime Data) (w : World Data) (device : Record) (allow deny : List Json) :
    Prop where
  lists : ∃ userAllow userDeny ownAllow ownDeny,
    SubjectLists P w .user (userOf P device) userAllow userDeny ∧
    SubjectLists P w .device (idOf P device) ownAllow ownDeny ∧
    allow = userAllow ++ ownAllow ++ compatRouteGrants P device ∧ deny = userDeny ++ ownDeny

theorem IsNetworks.append {nets nets' : List (Cidr 32)} {values values' : List Json}
    (h : IsNetworks P nets values) (h' : IsNetworks P nets' values') :
    IsNetworks P (nets ++ nets') (values ++ values') := by
  intro c
  rw [List.mem_append, h c, h' c, ← and_or_left]
  refine and_congr_right fun _ => ?_
  constructor
  · rintro (⟨entry, hentry, hc⟩ | ⟨entry, hentry, hc⟩)
    · exact ⟨entry, List.mem_append_left _ hentry, hc⟩
    · exact ⟨entry, List.mem_append_right _ hentry, hc⟩
  · rintro ⟨entry, hentry, hc⟩
    rcases List.mem_append.mp hentry with hentry | hentry
    · exact .inl ⟨entry, hentry, hc⟩
    · exact .inr ⟨entry, hentry, hc⟩

variable {device : Record}

/-- **`effective_networks` of an active Device**: an `AccessError`, or allowed minus denied. -/
theorem eval_effectiveNetworks (h : IpText P) (cluster : Bool) (w : World Data)
    (failure : Option ControlStateError) (hactive : deviceIsActive device = true) :
    (∃ e, (effectiveNetworks P cluster device).eval (frozen w failure) = .error (.access e) ∧
      (failure = none → ∀ allow deny, ¬ Sources P w device allow deny)) ∨
    ∃ allow deny allows denies, Sources P w device allow deny ∧
      (∀ allow' deny', Sources P w device allow' deny' → allow' = allow ∧ deny' = deny) ∧
      IsNetworks P allows allow ∧ IsNetworks P denies deny ∧
      (effectiveNetworks P cluster device).eval (frozen w failure) =
        .ok (subtractDenies (Cidr.collapse allows) (Cidr.collapse denies)) := by
  unfold effectiveNetworks
  rcases eval_accessRead cluster w failure with hread | ⟨e, rfl, hread⟩
  swap
  · left
    rw [Prog.eval_bind, hread]
    exact ⟨_, rfl, fun hnone => by cases hnone⟩
  rw [Prog.eval_bind_of _ hread, hactive]
  show (∃ e, Prog.eval _ ((subjectNetworks P .user (userOf P device)).bind _) = _ ∧ _) ∨
    ∃ allow deny allows denies, _ ∧ _ ∧ _ ∧ _ ∧
      Prog.eval _ ((subjectNetworks P .user (userOf P device)).bind _) = _
  rcases eval_subjectNetworks h w failure .user (userOf P device) with ⟨e, he, hno⟩ |
    ⟨userAllow, userDeny, userAllows, userDenies, huser, honlyUser, hUA, hUD, heqUser⟩
  · left
    rw [Prog.eval_bind, he]
    refine ⟨e, rfl, ?_⟩
    rintro _ allow deny ⟨userAllow, userDeny, _, _, huser, _⟩
    exact hno userAllow userDeny huser
  rw [Prog.eval_bind_of _ heqUser]
  rcases eval_subjectNetworks h w failure .device (idOf P device) with ⟨e, he, hno⟩ |
    ⟨ownAllow, ownDeny, ownAllows, ownDenies, hown, honlyOwn, hOA, hOD, heqOwn⟩
  · left
    rw [Prog.eval_bind, he]
    refine ⟨e, rfl, ?_⟩
    rintro _ allow deny ⟨_, _, ownAllow, ownDeny, _, hown, _⟩
    exact hno ownAllow ownDeny hown
  right
  obtain ⟨compat, hcompat, hC⟩ := networks_spec h (compatRouteGrants P device)
  refine ⟨userAllow ++ ownAllow ++ compatRouteGrants P device, userDeny ++ ownDeny,
    userAllows ++ ownAllows ++ compat, userDenies ++ ownDenies,
    ⟨userAllow, userDeny, ownAllow, ownDeny, huser, hown, rfl, rfl⟩, ?_,
    (hUA.append hOA).append hC, hUD.append hOD, ?_⟩
  · rintro _ _ ⟨userAllow', userDeny', ownAllow', ownDeny', huser', hown', rfl, rfl⟩
    obtain ⟨rfl, rfl⟩ := honlyUser _ _ huser'
    obtain ⟨rfl, rfl⟩ := honlyOwn _ _ hown'
    exact ⟨rfl, rfl⟩
  · rw [Prog.eval_bind_of _ heqOwn, hcompat]
    rfl

theorem subtractDenies_eq (allows denies : List (Cidr 32)) :
    subtractDenies allows denies = Cidr.collapse (Cidr.subtract allows denies) := by
  refine List.Pairwise.insertionSort_eq
    (((Cidr.maximal_collapse (Cidr.subtract allows denies)).ordered).imp ?_)
  intro c d hbefore
  exact .inl (hbefore _ c.first_mem _ d.first_mem)

theorem mem_subtractDenies (allows denies : List (Cidr 32)) (a : Nat) :
    (∃ c ∈ subtractDenies (Cidr.collapse allows) (Cidr.collapse denies), a ∈ c) ↔
      (∃ c ∈ allows, a ∈ c) ∧ ∀ d ∈ denies, a ∉ d := by
  rw [subtractDenies_eq, Cidr.mem_collapse, Cidr.mem_subtract, Cidr.mem_collapse]
  refine and_congr_right fun _ => ?_
  have hdenied := not_congr (Cidr.mem_collapse denies a)
  push Not at hdenied
  exact hdenied

/-- The texts of networks, as `set_access` writes them. -/
def texts (nets : List (Cidr 32)) : List Json := (nets.map networkText).map .str

/-- **Effective Access is allow minus deny.** -/
theorem effective_allow_minus_deny (h : IpText P) (cluster : Bool)
    (w : World Data) {device : Record}
    (hactive : deviceIsActive device = true)
    {userAllow userDeny ownAllow ownDeny compat : List (Cidr 32)}
    (hbits : ∀ c ∈ userAllow ++ userDeny ++ ownAllow ++ ownDeny ++ compat, c.bits ≠ 0)
    (huser : SubjectLists P w .user (userOf P device) (texts userAllow) (texts userDeny))
    (hown : SubjectLists P w .device (idOf P device) (texts ownAllow) (texts ownDeny))
    (hcompat : compatRouteGrants P device = texts compat) :
    ∃ nets, (effectiveNetworks P cluster device).eval (frozen w none) = .ok nets ∧
      (∀ a, (∃ c ∈ nets, a ∈ c) ↔
        (∃ c ∈ userAllow ++ ownAllow ++ compat, a ∈ c) ∧ ∀ d ∈ userDeny ++ ownDeny, a ∉ d) ∧
      nets.Pairwise (fun c d => ∀ a ∈ c, a ∉ d) ∧
      nets.Pairwise (fun c d => c.first < d.first) ∧
      nets.Pairwise fun c d => ¬ ∃ m : Cidr 32, ∀ a, a ∈ m ↔ a ∈ c ∨ a ∈ d := by
  have hsources : Sources P w device (texts userAllow ++ texts ownAllow ++ texts compat)
      (texts userDeny ++ texts ownDeny) :=
    ⟨_, _, _, _, huser, hown, by rw [hcompat], rfl⟩
  rcases eval_effectiveNetworks h cluster w none hactive with ⟨e, _, hno⟩ |
    ⟨allow, deny, allows, denies, _, honly, hA, hD, heval⟩
  · exact absurd hsources (hno rfl _ _)
  obtain ⟨rfl, rfl⟩ := honly _ _ hsources
  have htexts : ∀ nets : List (Cidr 32), (∀ c ∈ nets, c.bits ≠ 0) → ∀ c,
      (c.bits ≠ 0 ∧ ∃ entry ∈ texts nets, Denotes P entry c) ↔ c ∈ nets := by
    intro nets hnets c
    rw [texts, denotes_texts_iff h]
    exact ⟨fun hc => hc.2, fun hc => ⟨hnets c hc, hc⟩⟩
  have hallows : ∀ c, c ∈ allows ↔ c ∈ userAllow ++ ownAllow ++ compat := by
    intro c
    rw [hA c, ← htexts (userAllow ++ ownAllow ++ compat) (fun d hd => hbits d (by
      simp only [List.mem_append] at hd ⊢
      tauto))]
    simp only [texts, List.map_append]
  have hdenies : ∀ c, c ∈ denies ↔ c ∈ userDeny ++ ownDeny := by
    intro c
    rw [hD c, ← htexts (userDeny ++ ownDeny) (fun d hd => hbits d (by
      simp only [List.mem_append] at hd ⊢
      tauto))]
    simp only [texts, List.map_append]
  have hordered := (Cidr.maximal_collapse
    (Cidr.subtract (Cidr.collapse allows) (Cidr.collapse denies))).ordered
  refine ⟨_, heval, fun a => ?_, ?_, ?_, ?_⟩
  · rw [mem_subtractDenies]
    simp only [hallows, hdenies]
  · rw [subtractDenies_eq]
    exact hordered.imp fun hbefore a hc hd => Nat.lt_irrefl _ (hbefore a hc a hd)
  · rw [subtractDenies_eq]
    exact hordered.imp fun {c d} hbefore => hbefore _ c.first_mem _ d.first_mem
  · rw [subtractDenies_eq]
    refine hordered.imp_of_mem fun {c d} hc hd hbefore => ?_
    refine Cidr.unmergeable hc hd ?_
    rintro rfl
    exact Nat.lt_irrefl _ (hbefore _ c.first_mem _ c.first_mem)

/-! ## Networks in the plain runtime -/

theorem plainRuntime_text : IpText plainRuntime where
  prints c := by
    rw [plainRuntime_ipNetwork4]
    exact ⟨c.toPrefix, Prefix4.parse_toText c.toPrefix, c.ofPrefix_toPrefix⟩
  plain s q h := by
    rw [plainRuntime_ipNetwork4] at h
    exact strip_eq_self fun c hc => isPySpace_of_digit (Prefix4.mem_of_parse h hc)

/-- The fields of an access record. -/
def accessFields (subject id : Str) (allow deny : List Json) : List (Str × Json) :=
  [("subject_type", .str subject), ("subject_id", .str id),
    ("allow", .arr allow), ("deny", .arr deny)]

/-- An access record. -/
def accessRecord (subject id : Str) (allow deny : List Json) : Record :=
  .of (accessFields subject id allow deny)

variable {allow deny : List Json}

theorem accessRecord_get {subject : Str} {key : Str} {v : Json}
    (h : (key, v) ∈ accessFields subject id allow deny) (default : Json) :
    (accessRecord subject id allow deny).get key default = v := by
  have hkeys : ((accessFields subject id allow deny).map Prod.fst).Nodup := by
    show ["subject_type".toList, "subject_id".toList, "allow".toList, "deny".toList].Nodup
    decide
  have hfield : (accessRecord subject id allow deny)[key]? = some v := Record.get_of hkeys h
  rw [Record.get, hfield]
  rfl

theorem SubjectLists.of_record (hid : id ≠ [])
    (hrep : isReplicated (clean (accessPath subject id)) = true)
    (hfile : w.content.canonical[clean (accessPath subject id)]? =
      some (P.dumps (accessRecord subject.text id allow deny))) :
    SubjectLists P w subject id allow deny := by
  unfold SubjectLists
  rw [if_neg hid, accessFile_replicated hrep, hfile]
  refine ⟨_, P.loads_dumps _, ?_, ?_, accessRecord_get (by simp [accessFields]) _,
    accessRecord_get (by simp [accessFields]) _⟩
  · rw [accessRecord_get (List.mem_cons_self) _]
    exact decide_eq_true rfl
  · show P.str ((accessRecord subject.text id allow deny).get "subject_id" _) = id
    rw [accessRecord_get (List.mem_cons_of_mem _ List.mem_cons_self) _]
    rfl

/-- A User may reach `10.0.0.0/8` without `10.1.0.0/16`, their Device not `10.2.0.0/16`. -/
def bothRecords : List (Dir × Str × Record) :=
  [(.access, "user-u", accessRecord "user" "u" (texts [⟨10, 8, by decide, by decide⟩])
    (texts [⟨2561, 16, by decide, by decide⟩])),
   (.access, "device-d", accessRecord "device" "d" (texts [])
    (texts [⟨2562, 16, by decide, by decide⟩]))]

/-- A Device with a managed route. -/
def routedDevice : Record :=
  .of [("id", .str "d"), ("user_id", .str "u"),
    ("managed_routes", .arr (texts [⟨49320, 16, by decide, by decide⟩]))]

/-- Allow minus deny, for a Device with rules of all kinds. -/
theorem allow_minus_deny_both : ∃ nets, (effectiveNetworks plainRuntime true routedDevice).eval
      (frozen (startWorld plainRuntime bothRecords []) none) = .ok nets ∧
    (∃ c ∈ nets, 10 * 2 ^ 24 ∈ c) ∧ ¬ ∃ c ∈ nets, 10 * 2 ^ 24 + 2 ^ 16 ∈ c := by
  have hkeys : (bothRecords.map fun e => recordKey e.1 e.2.1).Nodup := by decide +kernel
  have huser : SubjectLists plainRuntime (startWorld plainRuntime bothRecords []) .user
      (userOf plainRuntime routedDevice) (texts [⟨10, 8, by decide, by decide⟩])
      (texts [⟨2561, 16, by decide, by decide⟩]) := by
    have hid : userOf plainRuntime routedDevice = "u" := by decide +kernel
    have hclean : clean (accessPath .user "u") = recordKey .access "user-u" := by decide +kernel
    rw [hid]
    refine SubjectLists.of_record (by decide) (by decide +kernel) ?_
    rw [hclean]
    exact startWorld_file hkeys List.mem_cons_self
  have hown : SubjectLists plainRuntime (startWorld plainRuntime bothRecords []) .device
      (idOf plainRuntime routedDevice) (texts []) (texts [⟨2562, 16, by decide, by decide⟩]) := by
    have hid : idOf plainRuntime routedDevice = "d" := by decide +kernel
    have hclean : clean (accessPath .device "d") = recordKey .access "device-d" := by decide +kernel
    rw [hid]
    refine SubjectLists.of_record (by decide) (by decide +kernel) ?_
    rw [hclean]
    exact startWorld_file hkeys (List.mem_cons_of_mem _ List.mem_cons_self)
  have hcompat : compatRouteGrants plainRuntime routedDevice =
      texts [⟨49320, 16, by decide, by decide⟩] := by rfl
  obtain ⟨nets, heval, hmem, _⟩ := effective_allow_minus_deny plainRuntime_text true
    (startWorld plainRuntime bothRecords []) (by decide) (by decide) huser hown hcompat
  refine ⟨nets, heval, (hmem _).mpr (by decide), fun h => ?_⟩
  exact absurd ((hmem _).mp h) (by decide)

/-! ## A deny entry is honoured -/

variable (P) in
/-- The deny list of the subject has the network, in any writing. -/
def StoresDeny (w : World Data) (subject : Subject) (id : Str) (entry : Json) : Prop :=
  isReplicated (clean (accessPath subject id)) = true ∧
    ∃ data value deny, w.content.canonical[clean (accessPath subject id)]? = some data ∧
      P.loads data = .object value ∧ value.get "deny" (.arr []) = .arr deny ∧ entry ∈ deny

/-- The subject whose record applies to the Device. -/
def AppliesTo (P : Runtime Data) (device : Record) (subject : Subject) (id : Str) : Prop :=
  id ≠ [] ∧ (subject = .user ∧ id = userOf P device ∨ subject = .device ∧ id = idOf P device)

variable {entry : Json}

theorem SubjectLists.deny_of_stores (h : SubjectLists P w subject id allow deny) (hid : id ≠ [])
    (hstores : StoresDeny P w subject id entry) : entry ∈ deny := by
  obtain ⟨hrep, data, value, deny', hfile, hdata, hdeny', hentry⟩ := hstores
  unfold SubjectLists at h
  rw [if_neg hid, accessFile_replicated hrep, hfile] at h
  obtain ⟨value', hvalue', _, _, _, hdeny⟩ := h
  obtain rfl := Loaded.object.inj (hdata.symm.trans hvalue')
  obtain rfl := Json.arr.inj (hdeny'.symm.trans hdeny)
  exact hentry

theorem Sources.deny_of_stores (h : Sources P w device allow deny)
    (happlies : AppliesTo P device subject id) (hstores : StoresDeny P w subject id entry) :
    entry ∈ deny := by
  obtain ⟨_, _, _, _, huser, hown, _, rfl⟩ := h
  obtain ⟨hid, ⟨rfl, rfl⟩ | ⟨rfl, rfl⟩⟩ := happlies
  · exact List.mem_append_left _ (huser.deny_of_stores hid hstores)
  · exact List.mem_append_right _ (hown.deny_of_stores hid hstores)

variable {c : Cidr 32}

theorem effective_outside_deny (h : IpText P) (cluster : Bool) (w : World Data)
    (failure : Option ControlStateError) (hactive : deviceIsActive device = true)
    (happlies : AppliesTo P device subject id) (hstores : StoresDeny P w subject id entry)
    (hc : Denotes P entry c) (hbits : c.bits ≠ 0) :
    (∃ e, (effectiveNetworks P cluster device).eval (frozen w failure) = .error (.access e)) ∨
    ∃ nets, (effectiveNetworks P cluster device).eval (frozen w failure) = .ok nets ∧
      ∀ a ∈ c, ∀ n ∈ nets, a ∉ n := by
  rcases eval_effectiveNetworks h cluster w failure hactive with ⟨e, he, _⟩ |
    ⟨allow, deny, allows, denies, hsources, _, _, hD, heval⟩
  · exact .inl ⟨e, he⟩
  refine .inr ⟨_, heval, fun a ha n hn han => ?_⟩
  have hentry := hsources.deny_of_stores happlies hstores
  exact ((mem_subtractDenies allows denies a).mp ⟨n, hn, han⟩).2 c
    ((hD c).mpr ⟨hbits, entry, hentry, hc⟩) ha

/-! ## Rewriting keeps a deny -/

variable {cidrs : List Str}

theorem canonicalCidrs_ok (h : IpText P) {canonical : List Str}
    (hok : canonicalCidrs P cidrs = .ok canonical) (hmem : networkText c ∈ canonical) :
    ∃ cidr ∈ cidrs, Denotes P (.str cidr) c := by
  induction cidrs generalizing canonical with
  | nil =>
    obtain rfl := Except.ok.inj hok
    cases hmem
  | cons cidr cidrs ih =>
    rw [canonicalCidrs] at hok
    split at hok
    · cases hok
    rename_i text htext
    split at hok
    · cases hok
    rename_i rest hrest
    obtain rfl := Except.ok.inj hok
    rcases List.mem_cons.mp hmem with heq | hmem
    · obtain ⟨d, hd, _, rfl⟩ := canonicalCidr_ok htext
      obtain rfl := h.text_inj heq
      exact ⟨cidr, List.mem_cons_self, hd⟩
    · obtain ⟨cidr', hcidr', hc⟩ := ih hrest hmem
      exact ⟨cidr', List.mem_cons_of_mem _ hcidr', hc⟩

theorem mem_toggle {text : Str} (canonical target opposite : List Str) :
    (text ∈ target → text ∈ (toggle canonical target opposite).1) ∧
    (text ∈ opposite → text ∉ canonical → text ∈ (toggle canonical target opposite).2) := by
  unfold toggle
  induction canonical generalizing target opposite with
  | nil => exact ⟨fun h => h, fun h _ => h⟩
  | cons cidr canonical ih =>
    rw [List.foldl_cons]
    obtain ⟨htarget, hopposite⟩ := ih (if cidr ∈ target then target else target ++ [cidr])
      (opposite.filter (· ≠ cidr))
    constructor
    · intro h
      refine htarget ?_
      split
      · exact h
      · exact List.mem_append_left _ h
    · intro h hnot
      rw [List.mem_cons, not_or] at hnot
      exact hopposite (List.mem_filter.mpr ⟨h, decide_eq_true hnot.1⟩) hnot.2

variable {effect : Effect}

theorem mem_toggled_deny {canonical : List Str} {record : LoadedAccess} {text : Str}
    (h : text ∈ record.deny) (hnot : text ∉ canonical) :
    text ∈ (toggled effect canonical record).2 := by
  cases effect with
  | allow => exact (mem_toggle canonical record.allow record.deny).2 h hnot
  | deny => exact (mem_toggle canonical record.deny record.allow).1 h

theorem get_deny_rewritten (effect : Effect) (canonical : List Str) (record : LoadedAccess)
    (t : Int) :
    (rewritten effect canonical record t).get "deny" (.arr []) =
      sortedTexts (toggled effect canonical record).2 := by
  show (((_ : Record)["deny".toList]?).getD _) = _
  rw [rewritten, SortedMap.get_insert, if_neg (by decide), SortedMap.get_insert, if_pos rfl]
  rfl

theorem encoded_single {op : Operation Data} {encoded : List (Operation Data)}
    (h : encodeOperations [op] = .ok encoded) : ∃ path, encoded = [{ op with path := path }] := by
  unfold encodeOperations at h
  split at h
  · cases h
  rename_i op' hop'
  obtain rfl := Except.ok.inj h
  unfold encodeOperation at hop'
  split at hop'
  · cases hop'
  rename_i path _
  split at hop'
  · obtain rfl := Except.ok.inj hop'
    exact ⟨path, rfl⟩
  · cases hop'

theorem normalized_single {op : Operation Data} {ops : List (Operation Data)}
    (h : normalizeOps [op] = .ok ops) : ∃ path, ops = [{ op with path := path }] := by
  unfold normalizeOps at h
  split at h
  · cases h
  rename_i path _
  split at h
  · cases h
  · obtain rfl := Except.ok.inj h
    exact ⟨path, rfl⟩

/-- **What `set_access` leaves behind**: the state as it was, or the rewritten record. -/
theorem runs_setAccess {w' : World Data} {now : Option Int} {res : Except AccessRaise Record}
    (hrep : isReplicated (clean (accessPath subject id)) = true)
    (h : Runs (perform P) w (setAccess P subject id effect cidrs now) res w') :
    w'.content = w.content ∨
    ∃ canonical record t path, canonicalCidrs P cidrs = .ok canonical ∧
      parseAccess P subject id (w.content.canonical[clean (accessPath subject id)]?) = .ok record ∧
      w'.content.canonical =
        w.content.canonical.insert path (P.dumps (rewritten effect canonical record t)) := by
  unfold setAccess at h
  split at h
  · cases h
    exact .inl rfl
  rename_i canonical hcanonical
  split at h
  · cases h
    exact .inl rfl
  split at h
  · cases h
    exact .inl rfl
  rename_i hid
  -- the barrier
  have hread : ∀ {r : Except AccessRaise Unit} {w₁ : World Data},
      Runs (perform P) w (accessRead true) r w₁ → w₁ = w := by
    intro r w₁ hread
    obtain ⟨o, a, w₂, hperform, hlast⟩ := Runs.call_cases hread
    have hw₂ : w₂ = w := by
      unfold perform at hperform
      dsimp only at hperform
      split at hperform
      · exact (Prod.mk.inj (Option.some.inj hperform)).2.symm
      · exact (Prod.mk.inj (Option.some.inj hperform)).2.symm
    cases a with
    | ok revision =>
      cases hlast
      exact hw₂
    | error e =>
      cases hlast
      exact hw₂
  rcases h.bind_cases with ⟨e, hfail, _⟩ | ⟨_, w₁, hok, hrest⟩
  · exact .inl (congrArg World.content (hread hfail))
  obtain rfl := hread hok
  -- the file, twice
  have hload := runs_file hrep hrest
  rw [loadAccess, if_neg hid] at hload
  have hparsed : Runs (perform P) w₁ ((Prog.ofExcept (parseAccess P subject id
    (w₁.content.canonical[clean (accessPath subject id)]?))).bind _) res w' := runs_file hrep hload
  cases hparse : parseAccess P subject id
    (w₁.content.canonical[clean (accessPath subject id)]?) with
  | error e =>
    rw [hparse] at hparsed
    cases hparsed
    exact .inl rfl
  | ok record =>
    rw [hparse] at hparsed
    have htime : ∃ t, Runs (perform P) w₁
      (((mutation "SetAccess" [accessOp P (accessPath subject id)
        (w₁.content.canonical[clean (accessPath subject id)]?)
        (rewritten effect canonical record t)]).mapRaise asAccess).bind fun _ =>
          (Prog.ret (rewritten effect canonical record t) : AccessHandler Data Record)) res w' := by
      cases now with
      | some t => exact ⟨t, hparsed⟩
      | none =>
        obtain ⟨o, t, w₂, hperform, hrest⟩ := Runs.call_cases hparsed
        obtain ⟨rfl, rfl⟩ := Prod.mk.inj (Option.some.inj hperform)
        exact ⟨_, hrest⟩
    obtain ⟨t, hwrite⟩ := htime
    have hmutation : ∃ r, Runs (perform P) w₁ (mutation "SetAccess" [accessOp P
        (accessPath subject id) (w₁.content.canonical[clean (accessPath subject id)]?)
        (rewritten effect canonical record t)]) r w' := by
      rcases hwrite.bind_cases with ⟨e, hfail, _⟩ | ⟨_, w₂, hok, hret⟩
      · obtain ⟨r, hr, _⟩ := hfail.mapRaise_cases
        exact ⟨r, hr⟩
      · obtain ⟨r, hr, _⟩ := hok.mapRaise_cases
        cases hret
        exact ⟨r, hr⟩
    obtain ⟨r, hr⟩ := hmutation
    rcases runs_mutation hr with rfl | ⟨encoded, ops, content, command, hencode, hnormal,
      hcommits, rfl⟩
    · exact .inl rfl
    right
    obtain ⟨key, hkey⟩ := encoded_single hencode
    obtain ⟨path, rfl⟩ := normalized_single (hkey ▸ hnormal)
    refine ⟨canonical, record, t, path, hcanonical, rfl, ?_⟩
    rw [hcommits.canonical]
    unfold accessOp
    split <;> rfl

theorem setAccess_keeps_deny (h : IpText P) {w' : World Data} {now : Option Int}
    {res : Except AccessRaise Record}
    (hruns : Runs (perform P) w (setAccess P subject id effect cidrs now) res w')
    (hstores : StoresDeny P w subject id entry) (hc : Denotes P entry c) (hbits : c.bits ≠ 0)
    (hother : ∀ cidr ∈ cidrs, ¬ Denotes P (.str cidr) c) :
    ∃ entry', StoresDeny P w' subject id entry' ∧ Denotes P entry' c := by
  obtain ⟨hrep, data, value, deny, hfile, hdata, hdeny, hentry⟩ := hstores
  rcases runs_setAccess hrep hruns with hsame | ⟨canonical, record, t, path, hcanonical,
    hparse, hnew⟩
  · refine ⟨entry, ⟨hrep, data, value, deny, ?_, hdata, hdeny, hentry⟩, hc⟩
    rw [hsame]
    exact hfile
  by_cases hpath : path = clean (accessPath subject id)
  swap
  · refine ⟨entry, ⟨hrep, data, value, deny, ?_, hdata, hdeny, hentry⟩, hc⟩
    rw [hnew, SortedMap.get_insert_of_ne _ _ hpath]
    exact hfile
  -- the text of the network is on the list that was loaded, and is not toggled
  have htext : networkText c ∈ record.deny := by
    rw [hfile] at hparse
    rcases parseAccess_object h subject id hdata with ⟨e, he⟩ |
      ⟨allow, deny', allows, denies, _, _, _, hdeny', _, hD, hok⟩
    · cases hparse.symm.trans he
    obtain rfl := Except.ok.inj (hparse.symm.trans hok)
    obtain rfl := Json.arr.inj (hdeny.symm.trans hdeny')
    exact List.mem_map_of_mem ((hD c).mpr ⟨hbits, entry, hentry, hc⟩)
  have hkept : networkText c ∈ (toggled effect canonical record).2 := by
    refine mem_toggled_deny htext fun hmem => ?_
    obtain ⟨cidr, hcidr, hdenotes⟩ := canonicalCidrs_ok h hcanonical hmem
    exact hother cidr hcidr hdenotes
  refine ⟨.str (networkText c), ⟨hrep, P.dumps (rewritten effect canonical record t),
    rewritten effect canonical record t,
    (sortedNames (toggled effect canonical record).2.dedup).map .str, ?_, P.loads_dumps _,
    get_deny_rewritten _ _ _ _, ?_⟩, h.denotes c⟩
  · rw [hnew, hpath, SortedMap.get_insert_self]
  · exact List.mem_map_of_mem (mem_sortedNames.mpr (List.mem_dedup.mpr hkept))

/-! ## A deny of prefix length 0 -/

/-- `10.0.0.0/8`. -/
def tenNetwork : Cidr 32 := ⟨10, 8, by decide, by decide⟩

/-- A Device that is allowed `10.0.0.0/8`, with one deny entry. -/
def oneDeny (entry : Json) : Record := accessRecord "device" "d" (texts [tenNetwork]) [entry]

variable (P) in
/-- The world with that record. -/
def oneDenyWorld (entry : Json) : World Data :=
  startWorld P [(.access, "device-d", oneDeny entry)] []

/-- A Device without a User. -/
def lonelyDevice : Record := .of [("id", .str "d")]

theorem idOf_lonelyDevice : idOf P lonelyDevice = "d" := by
  have hget : (lonelyDevice["id".toList]?) = some (.str "d") :=
    Record.get_of (by decide) List.mem_cons_self
  show strip (P.str ((lonelyDevice["id".toList]?).getD _)) = _
  rw [hget]
  show strip "d" = _
  decide

theorem userOf_lonelyDevice : userOf P lonelyDevice = [] := by
  have hget : (lonelyDevice["user_id".toList]?) = none := Record.get_of_outside (by decide)
  show strip (P.str ((lonelyDevice["user_id".toList]?).getD _)) = _
  rw [hget]
  rfl

theorem compat_lonelyDevice : compatRouteGrants P lonelyDevice = [] := by
  have hget : (lonelyDevice["managed_routes".toList]?) = none := Record.get_of_outside (by decide)
  have harr : lonelyDevice.get "managed_routes" (.arr []) = .arr [] := by
    rw [Record.get, hget]
    rfl
  rw [compatRouteGrants, harr]
  rfl

theorem oneDenyWorld_file (entry : Json) :
    isReplicated (clean (accessPath .device "d")) = true ∧
    (oneDenyWorld P entry).content.canonical[clean (accessPath .device "d")]? =
      some (P.dumps (oneDeny entry)) := by
  have hclean : clean (accessPath .device "d") = recordKey .access "device-d" := by decide +kernel
  refine ⟨by decide +kernel, ?_⟩
  rw [hclean]
  exact startWorld_file (List.nodup_singleton _) List.mem_cons_self

theorem oneDenyWorld_stores (entry : Json) :
    StoresDeny P (oneDenyWorld P entry) .device "d" entry :=
  ⟨(oneDenyWorld_file (P := P) entry).1, _, _, [entry], (oneDenyWorld_file entry).2,
    P.loads_dumps _,
    accessRecord_get (by simp [accessFields]) _, List.mem_cons_self⟩

theorem oneDenyWorld_sources (entry : Json) :
    Sources P (oneDenyWorld P entry) lonelyDevice (texts [tenNetwork]) [entry] := by
  refine ⟨[], [], texts [tenNetwork], [entry], ?_, ?_, ?_, rfl⟩
  · unfold SubjectLists
    rw [if_pos userOf_lonelyDevice]
    exact ⟨rfl, rfl⟩
  · rw [idOf_lonelyDevice]
    exact SubjectLists.of_record (by decide) (oneDenyWorld_file (P := P) entry).1
      (oneDenyWorld_file entry).2
  · rw [compat_lonelyDevice]
    rfl

theorem oneDeny_skipped (h : IpText P) (hc : Denotes P entry c) (hbits : c.bits = 0) : ∃ nets,
      (effectiveNetworks P true lonelyDevice).eval (frozen (oneDenyWorld P entry) none) = .ok nets ∧
      ∃ n ∈ nets, tenNetwork.first ∈ n := by
  have hsources := oneDenyWorld_sources (P := P) entry
  have hactive : deviceIsActive lonelyDevice = true := by decide
  rcases eval_effectiveNetworks h true (oneDenyWorld P entry) none hactive with ⟨e, _, hno⟩ |
    ⟨allow, deny, allows, denies, _, honly, hA, hD, heval⟩
  · exact absurd hsources (hno rfl _ _)
  obtain ⟨rfl, rfl⟩ := honly _ _ hsources
  refine ⟨_, heval, (mem_subtractDenies _ _ _).mpr ⟨⟨tenNetwork, ?_, tenNetwork.first_mem⟩, ?_⟩⟩
  · exact (hA tenNetwork).mpr ⟨by decide, (denotes_texts_iff h).mpr List.mem_cons_self⟩
  · intro d hd
    obtain ⟨hdbits, entry', hentry', q', hq', rfl⟩ := (hD d).mp hd
    obtain rfl := List.mem_singleton.mp hentry'
    obtain ⟨q, hq, rfl⟩ := hc
    rw [hq] at hq'
    obtain rfl := Option.some.inj hq'
    exact absurd hbits hdbits

/-- Is the deny list empty? -/
def deniesNothing : Option Loaded → Bool
  | some (.object r) =>
    match r.get "deny" (.arr []) with
    | .arr [] => true
    | _ => false
  | _ => false

theorem not_storesDeny {w : World Loaded}
    (h : deniesNothing (w.content.canonical[clean (accessPath subject id)]?) = true) :
    ¬ StoresDeny plainRuntime w subject id entry := by
  rintro ⟨_, data, value, deny, hfile, hdata, hdeny, hentry⟩
  have hdata : data = .object value := hdata
  subst hdata
  rw [hfile] at h
  unfold deniesNothing at h
  dsimp only at h
  rw [hdeny] at h
  cases deny with
  | nil => exact List.not_mem_nil hentry
  | cons d deny => cases h

/-- A network of prefix length 0. -/
def defaultRoute : Json := .str "0.0.0.0/0"

/-- Another network is allowed. -/
def grantRun : Option (Except AccessRaise Record × World Loaded) :=
  (setAccess plainRuntime .device "d" .allow ["192.168.0.0/16"] (some 0)).exec
    (perform plainRuntime)
    (fun _ _ => {}) (oneDenyWorld plainRuntime defaultRoute)

end Bpc.Deploy

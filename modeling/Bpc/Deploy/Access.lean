/-
  ACCESS — `bpc_access.py`: which networks a Device may reach.

  Every list goes through `_canonical_networks`: an entry that is no IPv4 network, OR has prefix
  length 0, is skipped without an error (`networks_spec`).  Python's `ipaddress` is the library of
  blocks (`Cidr`); `IpText` is assumed of reading and printing.
-/
import Bpc.Deploy.Calls
import Bpc.Lib.Alone
import Bpc.Lib.Cidr

namespace Bpc.Deploy

open SlashPath Controlplane Interaction

variable {Data : Type} (P : Runtime Data)

/-! ## Errors and subjects -/

/-- What an `AccessError` says. -/
inductive AccessError where
  | invalidCidr (raw : Str)
  | defaultRoute
  | emptySubject
  | invalidRecord (path : Str)
  | subjectMismatch (path : Str)
  | invalidLists (path : Str)
  | noCidr
  | controlState (message : Str)
  deriving DecidableEq

/-- An `AccessError`, or a `ValueError` that nobody catches. -/
inductive AccessRaise where
  | access (e : AccessError)
  | value
  deriving DecidableEq

/-- A program that may raise an access error. -/
abbrev AccessHandler (Data α : Type) := Prog (Req Data) Ans AccessRaise α

/-- Who an access record is about. -/
inductive Subject where
  | user
  | device
  deriving DecidableEq

/-- `subject_type`. -/
def Subject.text : Subject → Str
  | user => "user"
  | device => "device"

/-- `allow` or `deny`. -/
inductive Effect where
  | allow
  | deny
  deriving DecidableEq

/-- `_record_path`, of a subject id that is not empty. -/
def accessPath (subject : Subject) (id : Str) : Str :=
  recordPath .access (subject.text ++ '-' :: id)

/-- `except ControlStateError as exc: raise AccessError(str(exc))`. -/
def asAccess : PyError → AccessRaise
  | .controlState message _ => .access (.controlState message)
  | _ => .value

/-- `if cluster_enabled(root): strong_read(root)`. -/
def accessRead (cluster : Bool) : AccessHandler Data Unit :=
  if cluster then (barrier.mapRaise asAccess).bind fun _ => Prog.ret () else Prog.ret ()

/-! ## Networks -/

/-- `str(network)`. -/
def networkText (c : Cidr 32) : Str := c.toPrefix.toText

/-- `canonical_cidr`. -/
def canonicalCidr (raw : Str) : Except AccessError Str :=
  match P.ipNetwork4 (strip raw) with
  | none => .error (.invalidCidr raw)
  | some network =>
    if network.bits = 0 then .error .defaultRoute else .ok (networkText (Cidr.ofPrefix network))

/-- The loop of `_canonical_networks`, with the texts seen so far. -/
def canonicalLoop : List Str → List Json → Except AccessRaise (List (Cidr 32))
  | _, [] => .ok []
  | seen, raw :: values =>
    match canonicalCidr P (P.str raw) with
    | .error _ => canonicalLoop seen values
    | .ok canonical =>
      if canonical ∈ seen then canonicalLoop seen values
      else
        match P.ipNetwork4 canonical with
        | none => .error .value
        | some network =>
          match canonicalLoop (canonical :: seen) values with
          | .error e => .error e
          | .ok rest => .ok (Cidr.ofPrefix network :: rest)

/-- `_canonical_networks`. -/
def canonicalNetworks (values : List Json) : Except AccessRaise (List (Cidr 32)) :=
  canonicalLoop P [] values

/-! ## Records -/

/-- A loaded record, with its two lists apart. -/
structure LoadedAccess where
  value : Record
  allow : List Str
  deny : List Str

/-- The record of a subject without a file. -/
def noAccess (subject : Subject) (id : Str) : LoadedAccess where
  value := .of [("version", .int 1), ("subject_type", .str subject.text),
    ("subject_id", .str id), ("updated_at", .int 0)]
  allow := []
  deny := []

/-- `value.get("subject_type") != subject_type`. -/
def isSubject (subject : Subject) : Json → Bool
  | .str s => s = subject.text
  | _ => false

/-- `load_access`, of what the file holds. -/
def parseAccess (subject : Subject) (id : Str) (file : Option Data) :
    Except AccessRaise LoadedAccess :=
  match file with
  | none => .ok (noAccess subject id)
  | some data =>
    match P.loads data with
    | .object value =>
      if !isSubject subject (value.get "subject_type" .null) ||
          P.strField value "subject_id" ≠ id then
        .error (.access (.subjectMismatch (accessPath subject id)))
      else
        match value.get "allow" (.arr []), value.get "deny" (.arr []) with
        | .arr allow, .arr deny =>
          match canonicalNetworks P allow, canonicalNetworks P deny with
          | .ok allow, .ok deny => .ok ⟨value, allow.map networkText, deny.map networkText⟩
          | .error e, _ => .error e
          | _, .error e => .error e
        | _, _ => .error (.access (.invalidLists (accessPath subject id)))
    | _ => .error (.access (.invalidRecord (accessPath subject id)))

/-- The read of a record. -/
def askAccess (path : Str) : AccessHandler Data (Option Data) :=
    Prog.ask (Req.readFile (clean path))

/-- `load_access`. -/
def loadAccess (subject : Subject) (id : Str) : AccessHandler Data LoadedAccess :=
  if id = [] then Prog.raise (.access .emptySubject)
  else (askAccess (accessPath subject id)).bind fun file =>
    Prog.ofExcept (parseAccess P subject id file)

/-! ## Evaluation -/

/-- Allowed minus denied, collapsed and sorted. -/
def subtractDenies (allows denies : List (Cidr 32)) : List (Cidr 32) :=
  (Cidr.collapse (Cidr.subtract allows denies)).insertionSort fun a b =>
    a.first < b.first ∨ a.first = b.first ∧ a.bits ≤ b.bits

/-- `compat_route_grants`, as `_canonical_networks` reads it. -/
def compatRouteGrants (device : Record) : List Json :=
  match device.get "managed_routes" (.arr []) with
  | .arr values => values.map fun value => .str (P.str value)
  | _ => []

/-- The allowed and the denied networks of a subject. -/
def subjectNetworks (subject : Subject) (id : Str) :
    AccessHandler Data (List (Cidr 32) × List (Cidr 32)) :=
  if id = [] then Prog.ret ([], [])
  else (loadAccess P subject id).bind fun record =>
    (Prog.ofExcept (canonicalNetworks P (record.allow.map .str))).bind fun allows =>
      (Prog.ofExcept (canonicalNetworks P (record.deny.map .str))).bind fun denies =>
        Prog.ret (allows, denies)

/-- The owner of a Device. -/
def userOf (device : Record) : Str := strip (P.strField device "user_id")

/-- The id of a Device. -/
def idOf (device : Record) : Str := strip (P.deviceId device [])

/-- `effective_networks`. -/
def effectiveNetworks (cluster : Bool) (device : Record) : AccessHandler Data (List (Cidr 32)) :=
  (accessRead cluster).bind fun _ =>
    if !deviceIsActive device then Prog.ret []
    else (subjectNetworks P .user (userOf P device)).bind fun user =>
      (subjectNetworks P .device (idOf P device)).bind fun own =>
        (Prog.ofExcept (canonicalNetworks P (compatRouteGrants P device))).bind fun compat =>
          Prog.ret (subtractDenies (Cidr.collapse (user.1 ++ own.1 ++ compat))
            (Cidr.collapse (user.2 ++ own.2)))

/-! ## Rewriting -/

/-- `sorted(set(texts))`, as JSON. -/
def sortedTexts (texts : List Str) : Json := .arr ((sortedNames texts.dedup).map .str)

/-- Each CIDR is moved from the opposite list to the target list. -/
def toggle (canonical : List Str) (target opposite : List Str) : List Str × List Str :=
  canonical.foldl (fun lists cidr =>
    (if cidr ∈ lists.1 then lists.1 else lists.1 ++ [cidr], lists.2.filter (· ≠ cidr)))
    (target, opposite)

/-- The two lists of the new record, allow first. -/
def toggled (effect : Effect) (canonical : List Str) (record : LoadedAccess) :
    List Str × List Str :=
  match effect with
  | .allow => toggle canonical record.allow record.deny
  | .deny => (toggle canonical record.deny record.allow).swap

/-- The record that `set_access` writes. -/
def rewritten (effect : Effect) (canonical : List Str) (record : LoadedAccess)
    (now : Int) : Record :=
  ((record.value.insert "allow" (sortedTexts (toggled effect canonical record).1)).insert
    "deny" (sortedTexts (toggled effect canonical record).2)).insert "updated_at" (.int now)

/-- The write of `set_access`: the file must be as it was read. -/
def accessOp (path : Str) (existing : Option Data) (value : Record) : Operation Data :=
  match existing with
  | none => createOp path (P.dumps value)
  | some raw => replaceOp path (P.dumps value) (P.codec.sha256Hex raw)

/-- The list of `canonical_cidr`s. -/
def canonicalCidrs : List Str → Except AccessError (List Str)
  | [] => .ok []
  | cidr :: cidrs =>
    match canonicalCidr P cidr with
    | .error e => .error e
    | .ok canonical =>
      match canonicalCidrs cidrs with
      | .error e => .error e
      | .ok rest => .ok (canonical :: rest)

/-- `set_access` in a cluster. -/
def setAccess (subject : Subject) (id : Str) (effect : Effect) (cidrs : List Str)
    (now : Option Int) :
    AccessHandler Data Record :=
  match canonicalCidrs P cidrs with
  | .error e => Prog.raise (.access e)
  | .ok canonical =>
    if canonical = [] then Prog.raise (.access .noCidr)
    else if id = [] then Prog.raise (.access .emptySubject)
    else (accessRead true).bind fun _ =>
      (askAccess (accessPath subject id)).bind fun existing =>
        (loadAccess P subject id).bind fun record =>
          (match now with
            | some t => Prog.ret t
            | none => Prog.ask Req.time : AccessHandler Data Int).bind fun t =>
              ((mutation "SetAccess" [accessOp P (accessPath subject id) existing
                (rewritten effect canonical record t)]).mapRaise asAccess).bind fun _ =>
                  Prog.ret (rewritten effect canonical record t)

/-! ## Reading and printing networks -/

/-- A printed network is read back, and a network text has no blanks around it. -/
structure IpText : Prop where
  prints : ∀ c : Cidr 32, ∃ q, P.ipNetwork4 (networkText c) = some q ∧ Cidr.ofPrefix q = c
  plain : ∀ s q, P.ipNetwork4 s = some q → strip s = s

/-- The entry stands for the network. -/
def Denotes (entry : Json) (c : Cidr 32) : Prop :=
  ∃ q, P.ipNetwork4 (strip (P.str entry)) = some q ∧ Cidr.ofPrefix q = c

variable {P}

theorem IpText.strip_text (h : IpText P) (c : Cidr 32) : strip (networkText c) = networkText c := by
  obtain ⟨q, hq, _⟩ := h.prints c
  exact h.plain _ q hq

theorem IpText.denotes (h : IpText P) (c : Cidr 32) : Denotes P (.str (networkText c)) c := by
  obtain ⟨q, hq, heq⟩ := h.prints c
  refine ⟨q, ?_, heq⟩
  show P.ipNetwork4 (strip (networkText c)) = some q
  rw [h.strip_text, hq]

theorem IpText.text_inj (h : IpText P) {c d : Cidr 32} (heq : networkText c = networkText d) :
    c = d := by
  obtain ⟨q, hq, rfl⟩ := h.prints c
  obtain ⟨q', hq', rfl⟩ := h.prints d
  rw [heq, hq'] at hq
  rw [Option.some.inj hq]

theorem canonicalCidr_ok {raw canonical : Str} (h : canonicalCidr P raw = .ok canonical) :
    ∃ c : Cidr 32, Denotes P (.str raw) c ∧ c.bits ≠ 0 ∧ networkText c = canonical := by
  unfold canonicalCidr at h
  split at h
  · cases h
  rename_i q hq
  split at h
  · cases h
  rename_i hbits
  exact ⟨Cidr.ofPrefix q, ⟨q, hq, rfl⟩, hbits, Except.ok.inj h⟩

theorem canonicalCidr_of_denotes {raw : Str} {c : Cidr 32} (h : Denotes P (.str raw) c)
    (hbits : c.bits ≠ 0) : canonicalCidr P raw = .ok (networkText c) := by
  obtain ⟨q, hq, rfl⟩ := h
  unfold canonicalCidr
  have hq : P.ipNetwork4 (strip raw) = some q := hq
  rw [hq]
  exact if_neg hbits

theorem canonicalLoop_spec (h : IpText P) (values : List Json) (seen : List Str) :
    ∃ nets, canonicalLoop P seen values = .ok nets ∧ ∀ c, c ∈ nets ↔
      networkText c ∉ seen ∧ c.bits ≠ 0 ∧ ∃ entry ∈ values, Denotes P entry c := by
  induction values generalizing seen with
  | nil =>
    refine ⟨[], rfl, fun c => ⟨fun hc => (by cases hc), ?_⟩⟩
    rintro ⟨_, _, entry, hentry, _⟩
    cases hentry
  | cons raw values ih =>
    rw [canonicalLoop]
    -- what the head contributes, apart from the networks that its text denotes
    have hskip : ∀ nets : List (Cidr 32),
      (∀ c, Denotes P raw c → c.bits ≠ 0 → networkText c ∈ seen) →
        (∀ c, c ∈ nets ↔ networkText c ∉ seen ∧ c.bits ≠ 0 ∧ ∃ entry ∈ values, Denotes P entry c) →
        ∀ c, c ∈ nets ↔ networkText c ∉ seen ∧ c.bits ≠ 0 ∧
          ∃ entry ∈ raw :: values, Denotes P entry c := by
      intro nets hhead hnets c
      rw [hnets c]
      constructor
      · rintro ⟨hseen, hbits, entry, hentry, hdenotes⟩
        exact ⟨hseen, hbits, entry, List.mem_cons_of_mem _ hentry, hdenotes⟩
      · rintro ⟨hseen, hbits, entry, hentry, hdenotes⟩
        rcases List.mem_cons.mp hentry with rfl | hentry
        · exact absurd (hhead c hdenotes hbits) hseen
        · exact ⟨hseen, hbits, entry, hentry, hdenotes⟩
    cases hcanonical : canonicalCidr P (P.str raw) with
    | error e =>
      obtain ⟨nets, hnets, hmem⟩ := ih seen
      refine ⟨nets, hnets, hskip nets (fun c hdenotes hbits => ?_) hmem⟩
      cases hcanonical.symm.trans (canonicalCidr_of_denotes hdenotes hbits)
    | ok canonical =>
      obtain ⟨d, hd, hbits, rfl⟩ := canonicalCidr_ok hcanonical
      have honly : ∀ c, Denotes P raw c → c = d := by
        rintro c ⟨q, hq, rfl⟩
        obtain ⟨q', hq', rfl⟩ := hd
        have hq' : P.ipNetwork4 (strip (P.str raw)) = some q' := hq'
        rw [Option.some.inj (hq.symm.trans hq')]
      dsimp only
      by_cases hseen : networkText d ∈ seen
      · rw [if_pos hseen]
        obtain ⟨nets, hnets, hmem⟩ := ih seen
        refine ⟨nets, hnets, hskip nets (fun c hdenotes _ => ?_) hmem⟩
        rw [honly c hdenotes]
        exact hseen
      · rw [if_neg hseen]
        obtain ⟨q, hq, hqd⟩ := h.prints d
        obtain ⟨nets, hnets, hmem⟩ := ih (networkText d :: seen)
        rw [hq, hnets]
        refine ⟨Cidr.ofPrefix q :: nets, rfl, fun c => ?_⟩
        rw [hqd]
        rw [List.mem_cons, hmem c]
        constructor
        · rintro (rfl | ⟨hfresh, hcbits, entry, hentry, hdenotes⟩)
          · exact ⟨hseen, hbits, raw, List.mem_cons_self, hd⟩
          · exact ⟨fun hin => hfresh (List.mem_cons_of_mem _ hin), hcbits, entry,
              List.mem_cons_of_mem _ hentry, hdenotes⟩
        · rintro ⟨hfresh, hcbits, entry, hentry, hdenotes⟩
          by_cases hcd : c = d
          · exact .inl hcd
          right
          refine ⟨fun hin => ?_, hcbits, ?_⟩
          · rcases List.mem_cons.mp hin with heq | hin
            · exact hcd (h.text_inj heq)
            · exact hfresh hin
          · rcases List.mem_cons.mp hentry with rfl | hentry
            · exact absurd (honly c hdenotes) hcd
            · exact ⟨entry, hentry, hdenotes⟩

/-- **What `_canonical_networks` keeps**: networks, but none of prefix length 0. -/
theorem networks_spec (h : IpText P) (values : List Json) :
    ∃ nets, canonicalNetworks P values = .ok nets ∧
      ∀ c, c ∈ nets ↔ c.bits ≠ 0 ∧ ∃ entry ∈ values, Denotes P entry c := by
  obtain ⟨nets, hnets, hmem⟩ := canonicalLoop_spec h values []
  refine ⟨nets, hnets, fun c => ?_⟩
  rw [hmem c]
  exact ⟨fun hc => hc.2, fun hc => ⟨List.not_mem_nil, hc⟩⟩

theorem denotes_texts_iff (h : IpText P) {nets : List (Cidr 32)} {c : Cidr 32} :
    (∃ entry ∈ (nets.map networkText).map Json.str, Denotes P entry c) ↔ c ∈ nets := by
  constructor
  · rintro ⟨entry, hentry, q, hq, rfl⟩
    obtain ⟨text, htext, rfl⟩ := List.mem_map.mp hentry
    obtain ⟨d, hd, rfl⟩ := List.mem_map.mp htext
    obtain ⟨q', hq', heq⟩ := h.denotes d
    rw [Option.some.inj (hq.symm.trans hq'), heq]
    exact hd
  · intro hc
    exact ⟨_, List.mem_map_of_mem (List.mem_map_of_mem hc), h.denotes c⟩

end Bpc.Deploy

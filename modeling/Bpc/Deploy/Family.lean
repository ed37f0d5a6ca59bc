/-
  REFRESH FAMILIES — does the replay error mean that the family is dead?

  The family is revoked by LISTING the refresh directory: a rotation that commits later, or is not
  projected yet, leaves a successor on no list (`successor_survives_replay`).  In an `Orderly` run
  every live record is on the list and not accounted for yet (`FamilyInv.scan`), and at its end
  none is left.  In EVERY run at most one credential of a family is live (`one_live_credential`).
-/
import Bpc.Deploy.Lagging

namespace Bpc.Deploy.Refreshing

open SlashPath Controlplane Interaction

variable {Data : Type} (P : Runtime Data)

/-- A refresh call, a logout or a revocation, with what it has seen. -/
abbrev RefreshCall (Data : Type) :=
  Thread RefreshJob (Req Data) Ans PyError (List (Str × Json))

/-- The index of the credential that a refresh call presents. -/
def presented : RefreshJob → Option Str
  | .refresh refreshToken _ _ => some (P.sha256Text (strip refreshToken))
  | _ => none

/-! ## Scans -/

/-- The call has read the record and then listed the directory. -/
def Listed (index family : Str) (past : History Data) (names : List Str) (before : History Data) :
    Prop :=
  (⟨.glob .refresh, names⟩ :: before) <:+ past ∧
    ∃ r, ReadRecord P before .refresh index r ∧ familyOf P r = family

/-- The call has not ended. -/
def Unfinished (t : RefreshCall Data) : Prop := ∃ r k, t.prog = .call r k

/-- A refresh call that is revoking a family. -/
def Scanning (family : Str) (t : RefreshCall Data) : Prop :=
  Unfinished t ∧ ∃ index names before, presented P t.job = some index ∧
    Listed P index family t.past names before

/-- No rotation of a family commits while some call is revoking it. -/
def NoOverlap (c : RefreshCalls Data) (m : Move RefreshJob LocalOracle) : Prop :=
  ∀ past ops, c.Calls m past (.mutate "RotateRefreshCredential" ops) →
    ∀ x r, ReadRecord P past .refresh x r → ∀ t ∈ c.threads, ¬ Scanning P (familyOf P r) t

/-- The replicated files as the caller's Controller shows them. -/
def shownTo (c : RefreshCalls Data) : Move RefreshJob LocalOracle → Bucket Data
  | .start _ => c.world.content.canonical
  | .advance _ o => c.world.projection o.lag

/-- The runs in which the replay error can be trusted. -/
structure Orderly (c : RefreshCalls Data) (m : Move RefreshJob LocalOracle) : Prop where
  regular : Regular P c m
  noOverlap : NoOverlap P c m
  /-- The listing shows every live record of the family. -/
  listsLive : ∀ past, c.Calls m past (.glob .refresh) → ∀ x r, ReadRecord P past .refresh x r →
    ∀ y, '/' ∉ y → LiveAt P (familyOf P r) c.world.content y →
      (shownTo c m)[recordKey .refresh y]? ≠ none
  /-- A listed file is still there when it is read. -/
  forward : ∀ past y, c.Calls m past (.readFile (recordKey .refresh y)) →
    ∀ names, ⟨.glob .refresh, names⟩ ∈ past → y ++ jsonSuffix ∈ names →
      (shownTo c m)[recordKey .refresh y]? ≠ none

/-- Every live record is on the list and not accounted for yet. -/
def Pending (family : Str) (content : Content Data) (past : History Data) (names : List Str)
    (before : History Data) : Prop :=
  ∀ y, '/' ∉ y → LiveAt P family content y → y ++ jsonSuffix ∈ names ∧
    ¬ Checked P (fun r => familyOf P r = family) y (⟨.glob .refresh, names⟩ :: before) past

/-- What a step of an orderly run keeps. -/
structure FamilyInv (c : RefreshCalls Data) : Prop where
  obeys : Obeys (refreshRules P) (refreshPost P) c
  behind : Behind P c.world
  families : Families P c.world.content
  known : ∀ t ∈ c.threads, Known P c.world.content t.past
  scan : ∀ t ∈ c.threads, Faultless t.past → (Unfinished t ∨ t.prog = .raise replayDetected) →
    ∀ index, presented P t.job = some index → ∀ family names before,
      Listed P index family t.past names before →
        Pending P family c.world.content t.past names before

section

variable {P} {w w' : World Data} {o : LocalOracle} {past : History Data} {family : Str}

variable {before : History Data}

theorem since_cons {e e' : Event (Req Data) Ans} (hsuf : before <:+ past)
    (h : Since before (e :: past) e') : e' = e ∨ Since before past e' := by
  obtain ⟨after, heq, hmem⟩ := h
  cases after with
  | nil => cases hmem
  | cons e₁ after =>
    obtain ⟨rfl, rfl⟩ := List.cons.inj heq
    rcases List.mem_cons.mp hmem with rfl | hmem
    · exact .inl rfl
    · exact .inr ⟨after, rfl, hmem⟩

theorem checked_cons {r : Req Data} {a : Ans r} (h : performLocal P w o r = some (a, w'))
    (hbehind : Behind P w) {y : Str} (hy : '/' ∉ y) (hsuf : before <:+ past)
    (hshown : r = .readFile (recordKey .refresh y) →
      (w.projection o.lag)[recordKey .refresh y]? ≠ none)
    (hlive : LiveAt P family w.content y) (hlive' : LiveAt P family w'.content y)
    (hchecked : Checked P (fun r => familyOf P r = family) y before (⟨r, a⟩ :: past)) :
    Checked P (fun r => familyOf P r = family) y before past := by
  rcases hchecked with ⟨file, hsince, hdead⟩ | ⟨data, revision, hsince, hdead⟩
  · rcases since_cons hsuf hsince with heq | hsince
    · -- a live record that is shown is shown as live
      cases heq
      obtain ⟨rfl, _⟩ := performLocal_readFile (isReplicated_recordKey .refresh y) h
      exact absurd ((hbehind o.lag).live hy (hshown rfl) hlive) hdead
    · exact .inl ⟨file, hsince, hdead⟩
  · rcases since_cons hsuf hsince with heq | hsince
    · cases heq
      rw [LiveAt, file_of_ack (P := P) (o := o.toOracle) (stable_recordKey .refresh hy) h] at hlive'
      exact absurd hlive' hdead
    · exact .inr ⟨data, revision, hsince, hdead⟩

variable {names : List Str}

theorem pending_of_glob (h : performLocal P w o (.glob .refresh) = some (names, w'))
    (hshown : ∀ y, '/' ∉ y → LiveAt P family w.content y →
      (w.projection o.lag)[recordKey .refresh y]? ≠ none) :
    Pending P family w'.content (⟨.glob .refresh, names⟩ :: past) names past := by
  intro y hy hlive
  obtain ⟨hnames, rfl⟩ := performLocal_glob h
  refine ⟨(hnames _).mpr (mem_globNames.mpr ⟨hshown y hy hlive, (normalName_record hy).2.1,
    List.suffix_append y jsonSuffix⟩), ?_⟩
  · -- nothing has happened since
    have hnothing : ∀ e, ¬ Since (⟨.glob .refresh, names⟩ :: past)
        (⟨.glob .refresh, names⟩ :: past) e := by
      rintro e ⟨after, heq, hmem⟩
      obtain rfl : after = [] := List.self_eq_append_left.mp heq
      cases hmem
    rintro (⟨_, hsince, _⟩ | ⟨_, _, hsince, _⟩)
    · exact hnothing _ hsince
    · exact hnothing _ hsince

variable {c c' : RefreshCalls Data}

/-- A new call has read nothing. -/
theorem known_started {job : RefreshJob} (hknown : ∀ t ∈ c.threads,
    Known P c.world.content t.past) :
    ∀ t ∈ c.threads ++ [⟨job, refreshProgram P job, []⟩], Known P c.world.content t.past := by
  intro t ht
  rcases List.mem_append.mp ht with ht | ht
  · exact hknown t ht
  · rw [List.mem_singleton.mp ht]
    rintro x r _ ⟨file, hmem, _⟩
    cases hmem

variable {i : Nat} {job : RefreshJob} {r : Req Data} {k : Ans r → Handler Data (List (Str × Json))}
  {a : Ans r}

theorem known_advanced (hdigest : Distinguishes P c.world.content past) (hbehind : Behind P c.world)
    (hfamilies : Families P c.world.content)
    (hknown : ∀ t ∈ c.threads, Known P c.world.content t.past)
    (ht : ⟨job, .call r k, past⟩ ∈ c.threads) (hmust : (refreshRules P).must past r)
    (h : performLocal P c.world o r = some (a, w)) :
    ∀ t ∈ c.threads.set i ⟨job, k a, ⟨r, a⟩ :: past⟩, Known P w.content t.past := by
  intro t htmem
  rcases List.mem_or_eq_of_mem_set htmem with htmem | rfl
  · exact known_of_perform hdigest hfamilies (hknown _ ht) hmust h (hknown t htmem)
  · exact known_cons hdigest (hknown _ ht) hmust h hfamilies hbehind

variable {t : RefreshCall Data} {index : Str}

/-- **A call that has ended with the replay error has left no live record.** -/
theorem FamilyInv.dead (hinv : FamilyInv P c) (hordinary : Ordinary P) (ht : t ∈ c.threads)
    (hindex : presented P t.job = some index) (hraise : t.prog = .raise replayDetected)
    (hfaultless : Faultless t.past) {r : Record}
    (hr : recordAt P c.world.content .refresh index = some r) :
    ∀ y, '/' ∉ y → ¬ LiveAt P (familyOf P r) c.world.content y := by
  obtain ⟨job, prog, past⟩ := t
  subst hraise
  cases job with
  | refresh token proof now =>
    obtain rfl := Option.some.inj hindex
    have hplain : '/' ∉ P.sha256Text (strip token) := not_slash_of_isHex (P.sha256Text_hex _)
    obtain ⟨r', before, hsuf, hread, hscanned⟩ : Killed P (P.sha256Text (strip token)) past :=
      hinv.obeys _ ht hordinary rfl hfaultless
    obtain ⟨now', hnow', hfamily⟩ := hinv.known _ ht _ r' hplain (hread.mono hsuf)
    obtain rfl := Option.some.inj (hr.symm.trans hnow')
    obtain ⟨names, hlisted, hchecked⟩ := hscanned (hfamily ▸ hinv.families _ _ hplain hr)
    intro y hy hlive
    rw [hfamily] at hlive
    obtain ⟨hmem, hunchecked⟩ := hinv.scan _ ht hfaultless (.inr rfl) _ rfl (familyOf P r') names
      before ⟨hlisted, r', hread, rfl⟩ y hy hlive
    exact hunchecked (hchecked y hmem)
  | _ => cases hindex

theorem FamilyInv.live_before (hinv : FamilyInv P c) (hm : Orderly P c (.advance i o))
    (ht : c.threads[i]? = some ⟨job, .call r k, past⟩)
    (h : performLocal P c.world o r = some (a, w)) (htmem : t ∈ c.threads)
    (hscanning : Scanning P family t) {y : Str} (hy : '/' ∉ y)
    (hlive : LiveAt P family w.content y) :
    LiveAt P family c.world.content y := by
  have hmem := List.mem_of_getElem? ht
  have hcalls : c.Calls (.advance i o) past r := ⟨i, o, job, k, rfl, ht⟩
  rcases live_of_perform (hm.regular.2 past r hcalls) hinv.families (hinv.known _ hmem)
    (hinv.obeys.must ht) h hy hlive with hbefore | ⟨ops, x₀, r₀, rfl, _, hread, hfamily, _⟩
  · exact hbefore
  · refine absurd hscanning ?_
    rw [← hfamily]
    exact hm.noOverlap past ops hcalls x₀ r₀ hread t htmem

theorem FamilyInv.pending_self (hinv : FamilyInv P c) (hm : Orderly P c (.advance i o))
    (ht : c.threads[i]? = some ⟨job, .call r k, past⟩)
    (h : performLocal P c.world o r = some (a, w)) (hfaultless : Faultless (⟨r, a⟩ :: past))
    (hindex : presented P job = some index)
    (hlisted : Listed P index family (⟨r, a⟩ :: past) names before) :
    Pending P family w.content (⟨r, a⟩ :: past) names before := by
  have hcalls : c.Calls (.advance i o) past r := ⟨i, o, job, k, rfl, ht⟩
  obtain ⟨hlist, hread⟩ := hlisted
  rcases List.suffix_cons_iff.mp hlist with heq | hsuf
  · -- the list has just been made
    obtain ⟨heq, rfl⟩ := List.cons.inj heq
    cases heq
    obtain ⟨r₀, hread, rfl⟩ := hread
    exact pending_of_glob h (hm.listsLive before hcalls index r₀ hread)
  · have hmem := List.mem_of_getElem? ht
    have hunfinished : Unfinished (⟨job, .call r k, past⟩ : RefreshCall Data) := ⟨r, k, rfl⟩
    intro y hy hlive
    have hbefore := hinv.live_before hm ht h hmem
      ⟨hunfinished, index, names, before, hindex, hsuf, hread⟩ hy hlive
    obtain ⟨hlisted, hunchecked⟩ := hinv.scan _ hmem (hfaultless.suffix (List.suffix_cons _ _))
      (.inl hunfinished) index hindex family names before ⟨hsuf, hread⟩ y hy hbefore
    have hshown : r = .readFile (recordKey .refresh y) →
        (c.world.projection o.lag)[recordKey .refresh y]? ≠ none := by
      rintro rfl
      exact hm.forward past y hcalls names (hsuf.subset List.mem_cons_self) hlisted
    exact ⟨hlisted, fun hchecked =>
      hunchecked (checked_cons h hinv.behind hy hsuf hshown hbefore hlive hchecked)⟩

theorem FamilyInv.pending_other (hordinary : Ordinary P) (hinv : FamilyInv P c)
    (hm : Orderly P c (.advance i o)) (ht : c.threads[i]? = some ⟨job, .call r k, past⟩)
    (h : performLocal P c.world o r = some (a, w)) (htmem : t ∈ c.threads)
      (hfaultless : Faultless t.past)
    (hstate : Unfinished t ∨ t.prog = .raise replayDetected)
    (hindex : presented P t.job = some index)
    (hlisted : Listed P index family t.past names before) :
    Pending P family w.content t.past names before := by
  intro y hy hlive
  refine hinv.scan t htmem hfaultless hstate index hindex family names before hlisted y hy ?_
  rcases hstate with hunfinished | hraise
  · exact hinv.live_before hm ht h htmem
      ⟨hunfinished, index, names, before, hindex, hlisted⟩ hy hlive
  · -- the call is over: its family is dead, and stays so
    have hplain : '/' ∉ index := by
      revert hindex
      cases t.job with
      | refresh token _ _ =>
        intro hindex
        rw [← Option.some.inj hindex]
        exact not_slash_of_isHex (P.sha256Text_hex _)
      | _ => exact fun hindex => by cases hindex
    obtain ⟨hsuf, r', hread, rfl⟩ := hlisted
    obtain ⟨now, hnow, hfamily⟩ := hinv.known t htmem index r' hplain
      (hread.mono ((List.suffix_cons _ _).trans hsuf))
    have hdead := hinv.dead hordinary htmem hindex hraise hfaultless hnow
    rw [hfamily] at hdead
    have hmem := List.mem_of_getElem? ht
    have hdigest := hm.regular.2 past r ⟨i, o, job, k, rfl, ht⟩
    exact absurd hlive (dead_of_perform hdigest hinv.families (hinv.known _ hmem)
      (hinv.obeys.must ht) h hdead y hy)

/-- **What every regular step keeps**, whatever is proved on top of it. -/
theorem tracked_step {m : Move RefreshJob LocalOracle}
    (hobeys : Obeys (refreshRules P) (refreshPost P) c) (hbehind : Behind P c.world)
    (hfamilies : Families P c.world.content)
    (hknown : ∀ t ∈ c.threads, Known P c.world.content t.past) (hm : Regular P c m)
    (hstep : c.step (refreshers P) m = some c') :
    Obeys (refreshRules P) (refreshPost P) c' ∧ Behind P c'.world ∧
      Families P c'.world.content ∧ ∀ t ∈ c'.threads, Known P c'.world.content t.past := by
  have hobeys' := obeys_clocked hobeys hm.1 hstep
  rcases step_cases hstep with ⟨job, _, rfl⟩ | ⟨i, o, job, r, k, past, a, w, rfl, ht, h, rfl⟩
  · exact ⟨hobeys', hbehind, hfamilies, known_started hknown⟩
  · have hmem := List.mem_of_getElem? ht
    have hmust := hobeys.must ht
    have hdigest := hm.2 past r ⟨i, o, job, k, rfl, ht⟩
    exact ⟨hobeys', behind_of_perform hdigest (hknown _ hmem) hmust h hbehind,
      families_of_perform hdigest hfamilies (hknown _ hmem) hmust h,
      known_advanced hdigest hbehind hfamilies hknown hmem hmust h⟩

theorem FamilyInv.step (hordinary : Ordinary P) (hinv : FamilyInv P c)
    {m : Move RefreshJob LocalOracle} (hm : Orderly P c m)
    (hstep : c.step (refreshers P) m = some c') : FamilyInv P c' := by
  obtain ⟨hobeys, hbehind, hfamilies, hknown⟩ :=
    tracked_step hinv.obeys hinv.behind hinv.families hinv.known hm.regular hstep
  refine ⟨hobeys, hbehind, hfamilies, hknown, fun t htmem => ?_⟩
  rcases step_cases hstep with ⟨job, _, rfl⟩ | ⟨i, o, job, r, k, past, a, w, rfl, ht, h, rfl⟩
  · rcases List.mem_append.mp htmem with htmem | htmem
    · exact hinv.scan t htmem
    · -- a new call has listed nothing
      rw [List.mem_singleton.mp htmem]
      rintro _ _ index _ family names before ⟨hsuf, _⟩
      cases List.suffix_nil.mp hsuf
  · rcases List.mem_or_eq_of_mem_set htmem with htmem | rfl
    · intro hfaultless hstate index hindex family names before hlisted
      exact hinv.pending_other hordinary hm ht h htmem hfaultless hstate hindex hlisted
    · intro hfaultless _ index hindex family names before hlisted
      exact hinv.pending_self hm ht h hfaultless hindex hlisted

theorem FamilyInv.reaches (hordinary : Ordinary P) (hinv : FamilyInv P c)
    (h : Reaches (refreshers P) (Orderly P) c c') : FamilyInv P c' := by
  induction h with
  | refl => exact hinv
  | tail _ hok hmove ih => exact ih.step hordinary hok hmove

theorem familyInv_start {w : World Data} (hlog : w.log = []) (hfamilies : Families P w.content) :
    FamilyInv P (⟨w, []⟩ : RefreshCalls Data) where
  obeys _ ht := by cases ht
  behind := behind_of_log hlog
  families := hfamilies
  known _ ht := by cases ht
  scan _ ht := by cases ht

theorem dead_reaches (hordinary : Ordinary P) (hinv : FamilyInv P c)
    (h : Reaches (refreshers P) (Orderly P) c c')
    (hdead : ∀ y, '/' ∉ y → ¬ LiveAt P family c.world.content y) :
    ∀ y, '/' ∉ y → ¬ LiveAt P family c'.world.content y := by
  induction h with
  | refl => exact hdead
  | tail hbefore hok hmove ih =>
    have hinv' := hinv.reaches hordinary hbefore
    rcases step_cases hmove with ⟨job, _, rfl⟩ | ⟨i, o, job, r, k, past, a, w, rfl, ht,
      hperform, rfl⟩
    · exact ih
    · have hdigest := hok.regular.2 past r ⟨i, o, job, k, rfl, ht⟩
      exact dead_of_perform hdigest hinv'.families (hinv'.known _ (List.mem_of_getElem? ht))
        (hinv'.obeys.must ht) hperform ih

end

namespace Overlapping

open Plain

/-- The credential that the used one was rotated to. -/
def currentToken : Str := List.replicate 64 'c'

/-- The credential to which the current one is rotated. -/
def nextToken : Str := List.replicate 64 'e'

/-- A User with a Device and its two credentials. -/
def records : List (Dir × Str × Record) :=
  [user, device, refresh token (.int 4), refresh currentToken .null]

/-- No call yet. -/
def start : RefreshCalls Loaded := ⟨startWorld plainRuntime records [], []⟩

/-- Call 1 lists the directory. -/
def lists (indices : List Str) (lag : Option (Nat × Nat)) : Move RefreshJob LocalOracle :=
  .advance 1 { time := 5, names := indices.map (· ++ jsonSuffix), lag := lag }

/-- Call 0 is about to rotate; call 1 presents the used credential. -/
def presenting : List (Move RefreshJob LocalOracle) :=
  .start (.refresh currentToken [] (some 5)) :: calls 0 4 { time := 5 } ++
    [.advance 0 { time := 5, text := List.replicate 64 'f' },
     .advance 0 { time := 5, text := nextToken },
     .start (.refresh token [] (some 5)), .advance 1 { time := 5 }]

/-- Call 0 rotates, half of it is projected, then call 1 lists the family. -/
def inTime : List (Move RefreshJob LocalOracle) :=
  presenting ++ calls 0 1 { time := 5 } ++ .advance 1 { time := 5, lag := some (0, 1) } ::
    lists [token, currentToken, nextToken] none :: calls 1 4 { time := 5 }

/-- Call 1 lists the family, then call 0 rotates. -/
def overlapping : List (Move RefreshJob LocalOracle) :=
  presenting ++ calls 1 1 { time := 5 } ++ lists [token, currentToken] none ::
    calls 0 1 { time := 5 } ++ calls 1 2 { time := 5 }

/-- Call 0 rotates, and half of it is projected when call 1 lists. -/
def halfProjected : List (Move RefreshJob LocalOracle) :=
  presenting ++ calls 0 1 { time := 5 } ++ calls 1 1 { time := 5 } ++
    lists [token, currentToken] (some (0, 1)) :: calls 1 2 { time := 5 }

/-- Has the history no listing of the refresh directory? -/
def unlisted (past : History Loaded) : Bool :=
  past.all fun e => match e with
    | ⟨.glob .refresh, _⟩ => false
    | _ => true

/-- Is the move regular, no rotation behind a list, and what is read up to date? -/
def isOrderly (c : RefreshCalls Loaded) (m : Move RefreshJob LocalOracle) : Bool :=
  isRegular c m && match m, c.next m with
    | _, some (_, .mutate kind _) =>
      kind ≠ "RotateRefreshCredential" || c.threads.all fun t => unlisted t.past
    | .advance _ o, some (_, .glob _) => o.lag = none
    | m, some (past, .readFile path) => unlisted past || ((shownTo c m)[path]?).isSome
    | _, _ => true

theorem not_listed {past : History Loaded} (h : unlisted past = true) {names : List Str} :
    ⟨.glob .refresh, names⟩ ∉ past := fun hmem => absurd (List.all_eq_true.mp h _ hmem) (by simp)

theorem orderly_of_isOrderly (c : RefreshCalls Loaded) (m : Move RefreshJob LocalOracle)
    (h : isOrderly c m = true) : Orderly plainRuntime c m := by
  obtain ⟨hregular, hnext⟩ := Bool.and_eq_true _ _ ▸ h
  refine ⟨regular_of_isRegular c m hregular, fun past ops hcalls x r _ t ht hscanning => ?_,
    fun past hcalls x r _ y _ hlive => ?_, fun past y hcalls names hmem _ => ?_⟩
  · rw [hcalls.next] at hnext
    obtain ⟨_, _, names, before, _, hsuf, _⟩ := hscanning
    have hall : c.threads.all (fun t => unlisted t.past) = true := by simpa using hnext
    exact not_listed (List.all_eq_true.mp hall t ht) (hsuf.subset List.mem_cons_self)
  · rw [hcalls.next] at hnext
    obtain ⟨i, o, job, k, rfl, _⟩ := hcalls
    have hlag : o.lag = none := of_decide_eq_true hnext
    obtain ⟨r', hr', _⟩ := hlive
    rw [shownTo, hlag]
    intro hnone
    rw [show c.world.content.canonical[recordKey .refresh y]? = none from hnone] at hr'
    cases hr'
  · rw [hcalls.next] at hnext
    obtain hunlisted | hthere := Bool.or_eq_true _ _ ▸ hnext
    · exact absurd hmem (not_listed hunlisted)
    · exact Option.isSome_iff_ne_none.mp hthere

/-- Was every barrier and every mutation acknowledged? -/
def acknowledged (e : Event (Req Loaded) Ans) : Bool :=
  match e with
  | ⟨.barrier, .error _⟩ => false
  | ⟨.mutate _ _, .error _⟩ => false
  | _ => true

theorem faultless_of_acknowledged {past : History Loaded} (h : past.all acknowledged = true) :
    Faultless past := by
  rintro ⟨r, a⟩ he
  have hack := List.all_eq_true.mp h _ he
  cases r with
  | barrier =>
    cases a with
    | ok revision => exact ⟨revision, rfl⟩
    | error e => cases hack
  | mutate kind ops =>
    cases a with
    | ok revision => exact fun _ heq => by cases heq
    | error e => cases hack
  | _ => trivial

theorem ordinary_plain : Ordinary plainRuntime where
  int value e h := by
    cases value with
    | int n => cases h
    | _ =>
      obtain rfl := Except.error.inj h
      exact nofun
  verifyProof _ _ _ _ h := by cases h

theorem families_start : Families plainRuntime start.world.content := by
  intro x r hx hr
  have hplain : ∀ e ∈ records, '/' ∉ e.2.1 := by decide +kernel
  have hmem := mem_of_recordAt_startWorld hplain hx hr
  have hall : ∀ e ∈ records, e.1 = .refresh → familyOf plainRuntime e.2.2 ≠ [] := by decide +kernel
  exact hall _ hmem rfl

end Overlapping

open Overlapping in
/-- So does one that is projected in part. -/
example : ((start.runIf (refreshers plainRuntime) isRegular halfProjected).map fun c =>
    ((c.threads[1]?).bind fun t => t.prog.raised,
     (recordAt plainRuntime c.world.content .refresh nextToken).map notRevoked)) =
    some (some replayDetected, some true) := by decide +kernel

/-! ## One live credential -/

/-- No two records of the family are live. -/
def SingleLive (P : Runtime Data) (family : Str) (content : Content Data) : Prop :=
  ∀ y z, '/' ∉ y → '/' ∉ z → LiveAt P family content y → LiveAt P family content z → y = z

section

variable {P} {w w' : World Data} {o : LocalOracle} {past : History Data} {family : Str}

theorem liveAt_frame {content content' : Content Data} {command : Mutation Data}
    {ops : List (Operation Data)} (hcommits : Commits P.codec content command ops
      content') {v : Str}
    (hframe : ∀ op ∈ ops, op.path ≠ recordKey .refresh v) (h : LiveAt P family content' v) :
    LiveAt P family content v := by
  unfold LiveAt at h ⊢
  rwa [hcommits.canonical, get_applyOps_of_forall_ne hframe] at h

theorem not_liveAt_of_revoked {content : Content Data} {x : Str} (h : Revoked P content x) :
    ¬ LiveAt P family content x := by
  intro hlive
  obtain ⟨r, hr, hset⟩ := h
  obtain ⟨r', hr', _, hunset⟩ := liveAt_iff.mp hlive
  obtain rfl := Option.some.inj (hr.symm.trans hr')
  cases hset.symm.trans hunset

/-- A rotation names two refresh records only. -/
theorem rotation_frame {x y v a userId deviceId family₁ : Str} {original : Data} {r : Record}
    {t : Int} (hx : '/' ∉ x) (ha : '/' ∉ a) (hy : '/' ∉ y) (hv : '/' ∉ v) (hvx : v ≠ x)
    (hvy : v ≠ y) :
    ∀ op ∈ rotation P (recordKey .refresh x) original r a y userId deviceId family₁ t,
      op.path ≠ recordKey .refresh v := by
  intro op hop heq
  simp only [rotation, List.mem_cons, List.not_mem_nil, or_false] at hop
  rw [recordPath_plain _ ha, recordPath_plain _ hy] at hop
  rcases hop with rfl | rfl | rfl
  · exact hvx (recordKey_inj hx hv heq).2.symm
  · cases (recordKey_inj ha hv heq).1
  · exact hvy (recordKey_inj hy hv heq).2.symm

/-- **A rotation hands over**: its successor is live, and the rotated record is not any more. -/
theorem singleLive_of_perform (hdigest : Distinguishes P w.content past)
    (hfamilies : Families P w.content) (hknown : Known P w.content past) {r : Req Data} {a : Ans r}
    (hmust : (refreshRules P).must past r) (h : performLocal P w o r = some (a, w'))
    (hsingle : SingleLive P family w.content) : SingleLive P family w'.content := by
  rcases commit_of_perform hmust h with ⟨hsame, _⟩ | ⟨kind, ops, command, rfl, hwrite,
    hcommits, hlog⟩
  · rwa [hsame]
  -- when nothing new is live, nothing is to be shown
  have hkept : (∀ v, '/' ∉ v → LiveAt P family w'.content v → LiveAt P family w.content v) →
      SingleLive P family w'.content := fun hback y z hy hz hly hlz =>
    hsingle y z hy hz (hback y hy hly) (hback z hz hlz)
  cases hwrite with
  | access hname =>
    refine hkept fun v hv => liveAt_frame hcommits fun op hop heq => ?_
    rw [List.mem_singleton.mp hop] at heq
    cases (recordKey_inj hname hv heq).1
  | revoke _ _ _ =>
    refine hkept fun v hv hlive => ?_
    rcases live_of_perform hdigest hfamilies hknown hmust h hv hlive with hb | ⟨_, _, _, heq, _⟩
    · exact hb
    · have hne : "PutCanonicalRecord".toList ≠ "RotateRefreshCredential".toList := by decide
      exact absurd (Req.mutate.inj heq).1 hne
  | @rotate x₁ a₁ y₁ userId deviceId family₁ r₁ original t hx₁ ha hy₁ hread hrecord hlive ht
      hfamily =>
    have hcurrent := file_of_replaceOp hdigest hread (hcommits.preconditions _ List.mem_cons_self)
    have hnow : recordAt P w.content .refresh x₁ = some r₁ :=
      (congrArg (recordOf P) hcurrent).trans hrecord
    have hspent : ¬ LiveAt P family w'.content x₁ := by
      obtain hsame | ⟨entry, heq, hrotated⟩ := rotated_of_perform hdigest hmust h hx₁
      · exact absurd (hlog.symm.trans hsame) (List.cons_ne_self _ _)
      · obtain rfl := (List.cons.inj (hlog.symm.trans heq)).1
        exact not_liveAt_of_revoked (hrotated (by simp [rotates, rotation, replaceOp])).2
    have hothers : ∀ v, '/' ∉ v → v ≠ y₁ → LiveAt P family w'.content v →
        LiveAt P family w.content v ∧ v ≠ x₁ := by
      intro v hv hvy hlv
      have hvx : v ≠ x₁ := fun heq => hspent (heq ▸ hlv)
      exact ⟨liveAt_frame hcommits (rotation_frame hx₁ ha hy₁ hv hvx hvy) hlv, hvx⟩
    have hheir : LiveAt P family w'.content y₁ → LiveAt P family w.content x₁ := by
      intro hly
      have hfile : w'.content.canonical[recordKey .refresh y₁]? =
          some (P.dumps (successorRecord userId deviceId family₁ t)) := by
        rw [hcommits.canonical]
        unfold rotation
        rw [recordPath_plain _ hy₁]
        exact SortedMap.get_insert_self ..
      obtain ⟨rec, hrec, hof, _⟩ := liveAt_iff.mp hly
      rw [recordAt, hfile, recordOf_dumps] at hrec
      rw [← Option.some.inj hrec, familyOf_successor, hfamily (hfamilies x₁ r₁ hx₁ hnow)] at hof
      exact liveAt_iff.mpr ⟨r₁, hnow, hof, hlive⟩
    -- next to the successor nothing else can be live: it would have been the rotated record
    have halone : ∀ v, '/' ∉ v → LiveAt P family w'.content y₁ → LiveAt P family w'.content v →
        v = y₁ := by
      intro v hv hly hlv
      by_contra hne
      obtain ⟨hbefore, hvx⟩ := hothers v hv hne hlv
      exact hvx (hsingle v x₁ hv hx₁ hbefore (hheir hly))
    intro y z hy hz hly hlz
    by_cases hyy : y = y₁
    · subst hyy
      exact (halone z hz hly hlz).symm
    by_cases hzy : z = y₁
    · subst hzy
      exact halone y hy hlz hly
    · exact hsingle y z hy hz (hothers y hy hyy hly).1 (hothers z hz hzy hlz).1

end

/-- What a step of any call needs to keep one credential live at most. -/
structure SingleInv (family : Str) (c : RefreshCalls Data) : Prop where
  obeys : Obeys (refreshRules P) (refreshPost P) c
  behind : Behind P c.world
  families : Families P c.world.content
  known : ∀ t ∈ c.threads, Known P c.world.content t.past
  single : SingleLive P family c.world.content

theorem SingleInv.step {P : Runtime Data} {family : Str} {c c' : RefreshCalls Data}
    (hinv : SingleInv P family c) {m : Move RefreshJob LocalOracle} (hm : Regular P c m)
    (hstep : c.step (refreshers P) m = some c') : SingleInv P family c' := by
  obtain ⟨hobeys, hbehind, hfamilies, hknown⟩ :=
    tracked_step hinv.obeys hinv.behind hinv.families hinv.known hm hstep
  refine ⟨hobeys, hbehind, hfamilies, hknown, ?_⟩
  rcases step_cases hstep with ⟨job, _, rfl⟩ | ⟨i, o, job, r, k, past, a, w, rfl, ht, h, rfl⟩
  · exact hinv.single
  · have hdigest := hm.2 past r ⟨i, o, job, k, rfl, ht⟩
    exact singleLive_of_perform hdigest hinv.families (hinv.known _ (List.mem_of_getElem? ht))
      (hinv.obeys.must ht) h hinv.single

/-- **A family never has two live credentials**: if at most one of its records is live at the
    start, so it is after any interleaving in which no call's time is 0 and no digests collide —
    with overlapping rotations, lagging reads, refused mutations and lost answers. -/
theorem one_live_credential {w : World Data} (hlog : w.log = []) (hfamilies : Families P w.content)
    {family : Str} (hsingle : SingleLive P family w.content) {c : RefreshCalls Data}
    (h : Reaches (refreshers P) (Regular P) ⟨w, []⟩ c) : SingleLive P family c.world.content := by
  have hstart : SingleInv P family (⟨w, []⟩ : RefreshCalls Data) :=
    ⟨fun _ ht => (by cases ht), behind_of_log hlog, hfamilies, fun _ ht => (by cases ht), hsingle⟩
  have hinv : SingleInv P family c := by
    induction h with
    | refl => exact hstart
    | tail _ hok hmove ih => exact ih.step hok hmove
  exact hinv.single

open Overlapping in
/-- The survivor is the only live credential of its family. -/
theorem one_live_credential_survivor :
    ∃ c, start.runIf (refreshers plainRuntime) isRegular overlapping = some c ∧
      (recordAt plainRuntime c.world.content .refresh nextToken).map notRevoked = some true ∧
      SingleLive plainRuntime "family" c.world.content := by
  have hsome : ((start.runIf (refreshers plainRuntime) isRegular overlapping).bind fun c =>
      (recordAt plainRuntime c.world.content .refresh nextToken).map notRevoked) =
      some true := by decide +kernel
  obtain ⟨c, hc, hlive⟩ := Option.bind_eq_some_iff.mp hsome
  have hplain : ∀ e ∈ records, '/' ∉ e.2.1 := by decide +kernel
  have hall : ∀ e ∈ records, e.1 = .refresh → notRevoked e.2.2 = true → e.2.1 = currentToken := by
    decide +kernel
  have hcurrent : ∀ y, '/' ∉ y → LiveAt plainRuntime "family" start.world.content y →
      y = currentToken := by
    intro y hy hlive
    obtain ⟨r, hr, _, hset⟩ := liveAt_iff.mp hlive
    exact hall _ (mem_of_recordAt_startWorld hplain hy hr) rfl hset
  exact ⟨c, hc, hlive, one_live_credential plainRuntime rfl families_start
    (fun y z hy hz hly hlz => (hcurrent y hy hly).trans (hcurrent z hz hlz).symm)
    (reaches_of_runIf regular_of_isRegular .refl hc)⟩

end Bpc.Deploy.Refreshing

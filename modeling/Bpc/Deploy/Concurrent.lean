/-
  CONCURRENT REQUESTS — what holds in every state of any number of Controllers.

  1. **Invariant** — `Sound`: records lie in the files of their ids (`Unclashed`), every request is
     on its specification, and an id that is drawn and not used belongs to one request alone.
  2. **Effect** — `committed_device`, `committed_user`: how one record can change in one step.
-/
import Bpc.Deploy.Requests

namespace Bpc.Deploy

open SlashPath Controlplane Interaction

variable {Data : Type} (P : Runtime Data)

/-! ## Files -/

/-- Records lie in their own files, and ids were drawn. -/
structure Unclashed (w : World Data) : Prop where
  named : ∀ d x r, '/' ∉ x → recordAt P w.content d x = some r → Named P d x r
  drawn : ∀ x r, '/' ∉ x → recordAt P w.content .devices x = some r → x ∈ w.drawn
  tokens : ∀ (path : Str) r, recordOf P (w.localFiles[path]?) = some r →
    ∀ id, r["device_id".toList]? = some id → isHex 32 (P.str id) = true

/-- Records lie in the files of their ids. -/
structure Filed (w : World Data) : Prop where
  named : ∀ d x r, '/' ∉ x → recordAt P w.content d x = some r → Named P d x r
  tokens : ∀ (path : Str) r, recordOf P (w.localFiles[path]?) = some r →
    ∀ id, r["device_id".toList]? = some id → isHex 32 (P.str id) = true

theorem Unclashed.filed {P : Runtime Data} {w : World Data} (h : Unclashed P w) : Filed P w :=
  ⟨h.named, h.tokens⟩

/-- One request. -/
abbrev Request (Data : Type) := Thread Job (Req Data) Ans PyError Outcome

/-- Requests over one replicated state. -/
abbrev Requests (Data : Type) := Pool (World Data) Job (Req Data) Ans PyError Outcome

section

variable {P} {w w' : World Data} {o : Oracle}

theorem answer_of_perform (hw : Filed P w) {r : Req Data} {a : Ans r}
    (h : perform P w o r = some (a, w')) : Answer P r a := by
  cases r with
  | readFile path =>
    intro rec hrec
    by_cases hrep : isReplicated path = true
    · obtain ⟨rfl, _⟩ := perform_readFile hrep h
      refine ⟨?_, fun hlocal => by cases hrep.symm.trans hlocal⟩
      rintro d x hx rfl
      exact hw.named d x rec hx hrec
    · have hlocal : isReplicated path = false := by simpa using hrep
      unfold perform at h
      dsimp only at h
      rw [if_neg hrep] at h
      obtain ⟨rfl, _⟩ := Prod.mk.inj (Option.some.inj h)
      refine ⟨?_, fun _ => ?_⟩
      · rintro d x _ rfl
        exact absurd (isReplicated_recordKey d x) hrep
      · cases hpresent : o.present with
        | true =>
          rw [hpresent] at hrec
          exact hw.tokens path rec hrec
        | false =>
          rw [hpresent] at hrec
          cases hrec
  | glob d =>
    intro name hname
    exact (mem_globNames.mp (((perform_glob h).1 name).mp hname)).2
  | random bytes => exact (perform_random h).1
  | _ => trivial

theorem frame_of_perform {r : Req Data} {a : Ans r} (h : perform P w o r = some (a, w')) :
    (∀ s ∈ w.drawn, s ∈ w'.drawn) ∧ w'.localFiles = w.localFiles := by
  by_cases hr : ∀ kind ops, r ≠ .mutate kind ops
  · obtain ⟨hw', hdrawn⟩ := perform_other hr h
    exact ⟨hdrawn, by rw [hw']⟩
  · simp only [not_forall, not_not] at hr
    obtain ⟨kind, ops, rfl⟩ := hr
    obtain ⟨rfl, _⟩ | ⟨_, _, _, _, _, rfl, _⟩ := perform_mutate h
    · exact ⟨fun s hs => hs, rfl⟩
    · exact ⟨fun s hs => hs, rfl⟩

theorem file_of_perform {past : History Data} {r : Req Data} {a : Ans r}
    (hmust : (rules P).must past r) (h : perform P w o r = some (a, w')) {d : Dir} {x : Str}
    (hx : '/' ∉ x) (hd : d.isOther = false) :
    w'.content.canonical[recordKey d x]? = w.content.canonical[recordKey d x]? ∨
    ∃ kind ops op, r = .mutate kind ops ∧ op ∈ ops ∧ Write P past kind op ∧
      op.path = recordKey d x ∧ precondition P.codec w.content.canonical op = none ∧
      w'.content.canonical[recordKey d x]? = some op.data := by
  by_cases hr : ∀ kind ops, r ≠ .mutate kind ops
  · left
    rw [(perform_other hr h).1]
  · simp only [not_forall, not_not] at hr
    obtain ⟨kind, ops, rfl⟩ := hr
    obtain rfl | ⟨content, command, hcommits, rfl⟩ :=
      perform_records (fun op hop => ⟨(hmust op hop).path, (hmust op hop).put_or_delete⟩) h
    · exact .inl rfl
    · have hputs : ∀ op ∈ ops, op.path = recordKey d x → op.op = .put := by
        intro op hop hpath
        cases hmust op hop with
        | other hdevices husers hname hpath' _ =>
          rw [(recordKey_inj hname hx (hpath'.symm.trans hpath)).1] at hdevices husers
          cases d with
          | devices => exact absurd rfl hdevices
          | users => exact absurd rfl husers
          | _ => cases hd
        | device _ _ => rfl
        | user _ _ _ => rfl
      show content.canonical[recordKey d x]? = _ ∨ _
      rw [hcommits.canonical]
      obtain hsame | ⟨op, hop, hpath, hdata⟩ := get_applyOps_of_puts hputs
      · exact .inl hsame
      · exact .inr ⟨kind, ops, op, rfl, hop, hmust op hop, hpath, hcommits.preconditions op hop,
          hdata⟩

/-- **How one Device can change in one step.** -/
theorem device_of_perform {past : History Data} {r : Req Data} {a : Ans r}
    (hmust : (rules P).must past r) (h : perform P w o r = some (a, w')) {x : Str}
    (hx : '/' ∉ x) :
    recordAt P w'.content .devices x = recordAt P w.content .devices x ∨
    ∃ kind ops rec, r = .mutate kind ops ∧
      putOp (recordKey .devices x) (P.dumps rec) ∈ ops ∧ Named P .devices x rec ∧
      DeviceWrite P past kind x rec ∧ recordAt P w'.content .devices x = some rec := by
  obtain hsame | ⟨kind, ops, op, rfl, hop, hwrite, hpath, _, hdata⟩ :=
    file_of_perform (d := .devices) hmust h hx rfl
  · exact .inl (congrArg (recordOf P) hsame)
  · obtain ⟨rec, rfl, hnamed, hdevice⟩ := hwrite.device_inv hx hpath
    refine .inr ⟨kind, ops, rec, rfl, hop, hnamed, hdevice, ?_⟩
    exact (congrArg (recordOf P) hdata).trans (recordOf_dumps P rec)

/-- **How one User can change in one step.** -/
theorem user_of_perform {past : History Data} {r : Req Data} {a : Ans r}
    (hmust : (rules P).must past r) (h : perform P w o r = some (a, w')) {u : Str}
    (hu : '/' ∉ u) :
    recordAt P w'.content .users u = recordAt P w.content .users u ∨
    ∃ kind ops rec digest, r = .mutate kind ops ∧
      replaceOp (recordKey .users u) (P.dumps rec) digest ∈ ops ∧ Named P .users u rec ∧
      UserWrite P past kind u rec digest ∧
      precondition P.codec w.content.canonical
        (replaceOp (recordKey .users u) (P.dumps rec) digest) = none ∧
      recordAt P w'.content .users u = some rec := by
  obtain hsame | ⟨kind, ops, op, rfl, hop, hwrite, hpath, hpre, hdata⟩ :=
    file_of_perform (d := .users) hmust h hu rfl
  · exact .inl (congrArg (recordOf P) hsame)
  · obtain ⟨rec, digest, rfl, hnamed, huser⟩ := hwrite.user_inv hu hpath
    refine .inr ⟨kind, ops, rec, digest, rfl, hop, hnamed, huser, hpre, ?_⟩
    exact (congrArg (recordOf P) hdata).trans (recordOf_dumps P rec)

end

/-! ## The invariant -/

/-- The invariant of concurrent requests. -/
structure Sound (c : Requests Data) : Prop where
  files : Unclashed P c.world
  obeys : Obeys (rules P) (jobPost P) c
  /-- A Device that some request has read was drawn once. -/
  read : ∀ t ∈ c.threads, ∀ x r, '/' ∉ x → ReadRecord P t.past .devices x r → x ∈ c.world.drawn
  /-- An id that some request has drawn is an id. -/
  ids : ∀ t ∈ c.threads, ∀ x, ⟨.random 16, x⟩ ∈ t.past → isHex 32 x = true ∧ x ∈ c.world.drawn
  /-- An id that is drawn and not used yet is not the id of any record. -/
  fresh : ∀ t ∈ c.threads, ∀ x, Drawn t.past x → recordAt P c.world.content .devices x = none
  /-- Nor has any request read such a record. -/
  unread : ∀ t ∈ c.threads, ∀ x, Drawn t.past x → ∀ t' ∈ c.threads, ∀ r,
    ¬ ReadRecord P t'.past .devices x r
  /-- And no other request has drawn it. -/
  alone : ∀ (i j : Nat) (t t' : Request Data) (x : Str), c.threads[i]? = some t →
    c.threads[j]? = some t' → Drawn t.past x →
    ⟨.random 16, x⟩ ∈ t'.past → i = j

section

variable {P} {past : History Data} {e : Event (Req Data) Ans}

theorem drawn_cons {x : Str} (h : Drawn (e :: past) x) :
    (Quiet e.1 ∧ Drawn past x) ∨ e = ⟨.random 16, x⟩ := by
  obtain ⟨rest, events, heq, hquiet⟩ := h
  cases events with
  | nil => exact .inr (List.cons.inj heq).1
  | cons e' events =>
    obtain ⟨rfl, rfl⟩ := List.cons.inj heq
    exact .inl ⟨hquiet e List.mem_cons_self, rest, events, rfl,
      fun e' he' => hquiet e' (List.mem_cons_of_mem _ he')⟩

theorem thread_of_set {threads : List (Request Data)} {i j : Nat} {t t₁ : Request Data}
    (h : (threads.set i t₁)[j]? = some t) : (j ≠ i ∧ threads[j]? = some t) ∨ (j = i ∧ t = t₁) := by
  by_cases hij : j = i
  · subst hij
    rw [List.getElem?_set] at h
    simp only [if_true] at h
    split at h
    · exact .inr ⟨rfl, (Option.some.inj h).symm⟩
    · cases h
  · rw [List.getElem?_set_ne (Ne.symm hij)] at h
    exact .inl ⟨hij, h⟩

end

/-! ## One step -/

section

variable {P} {c : Requests Data} {i : Nat} {o : Oracle} {job : Job} {r : Req Data}
  {k : Ans r → Handler Data Outcome} {past : History Data} {a : Ans r} {w : World Data}

theorem Sound.files_advance (hs : Sound P c) (ht : c.threads[i]? = some ⟨job, .call r k, past⟩)
    (h : perform P c.world o r = some (a, w)) : Unclashed P w := by
  have hmust := hs.obeys.must ht
  have hthread := List.mem_of_getElem? ht
  obtain ⟨hdrawn, hlocal⟩ := frame_of_perform h
  refine ⟨?_, ?_, ?_⟩
  · intro d x rec hx hrec
    cases d with
    | devices =>
      obtain hsame | ⟨_, _, rec', _, _, hnamed, _, hrec'⟩ := device_of_perform hmust h hx
      · exact hs.files.named .devices x rec hx (hsame.symm.trans hrec)
      · obtain rfl := Option.some.inj (hrec'.symm.trans hrec)
        exact hnamed
    | users =>
      obtain hsame | ⟨_, _, rec', _, _, _, hnamed, _, _, hrec'⟩ := user_of_perform hmust h hx
      · exact hs.files.named .users x rec hx (hsame.symm.trans hrec)
      · obtain rfl := Option.some.inj (hrec'.symm.trans hrec)
        exact hnamed
    | _ => trivial
  · intro x rec hx hrec
    obtain hsame | ⟨_, _, rec', _, _, _, hwrite, _⟩ := device_of_perform hmust h hx
    · exact hdrawn x (hs.files.drawn x rec hx (hsame.symm.trans hrec))
    · cases hwrite with
      | registered _ hx' _ _ => exact hdrawn x (hs.ids _ hthread x hx'.mem).2
      | refreshed _ hread _ => exact hdrawn x (hs.read _ hthread x _ hx hread)
      | deactivated hread _ => exact hdrawn x (hs.read _ hthread x _ hx hread)
  · rw [hlocal]
    exact hs.files.tokens

theorem Sound.unknown (hs : Sound P c) {x : Str} (hx : x ∉ c.world.drawn) (hplain : '/' ∉ x) :
    recordAt P c.world.content .devices x = none ∧
    ∀ t ∈ c.threads, ⟨.random 16, x⟩ ∉ t.past ∧ ∀ rec, ¬ ReadRecord P t.past .devices x rec := by
  constructor
  · cases hrec : recordAt P c.world.content .devices x with
    | none => rfl
    | some rec => exact absurd (hs.files.drawn x rec hplain hrec) hx
  · intro t ht
    exact ⟨fun hmem => hx (hs.ids t ht x hmem).2,
      fun rec hread => hx (hs.read t ht x rec hplain hread)⟩

/-- **An id drawn by one request stays its own.** -/
theorem Sound.fresh_advance (hs : Sound P c) (ht : c.threads[i]? = some ⟨job, .call r k, past⟩)
    (h : perform P c.world o r = some (a, w)) {j : Nat} {t : Request Data} {x : Str} (hij : j ≠ i)
    (htj : c.threads[j]? = some t) (hx : Drawn t.past x) :
    recordAt P w.content .devices x = none := by
  have hmemj := List.mem_of_getElem? htj
  have hmemi := List.mem_of_getElem? ht
  have hplain := not_slash_of_isHex (hs.ids t hmemj x hx.mem).1
  obtain hsame | ⟨_, _, rec', _, _, _, hwrite, _⟩ := device_of_perform (hs.obeys.must ht) h hplain
  · exact hsame.trans (hs.fresh t hmemj x hx)
  · cases hwrite with
    | registered _ hx' _ _ => exact absurd (hs.alone j i t _ x htj ht hx hx'.mem) hij
    | refreshed _ hread _ => exact absurd hread (hs.unread t hmemj x hx _ hmemi _)
    | deactivated hread _ => exact absurd hread (hs.unread t hmemj x hx _ hmemi _)

theorem Sound.advance (hs : Sound P c) (ht : c.threads[i]? = some ⟨job, .call r k, past⟩)
    (h : perform P c.world o r = some (a, w)) :
    Sound P ⟨w, c.threads.set i ⟨job, k a, ⟨r, a⟩ :: past⟩⟩ := by
  have hmemi := List.mem_of_getElem? ht
  obtain ⟨hdrawn, _⟩ := frame_of_perform h
  -- what the new event of thread `i` adds
  have hread : ∀ x rec, '/' ∉ x → ReadRecord P (⟨r, a⟩ :: past) .devices x rec →
      ReadRecord P past .devices x rec ∨ recordAt P c.world.content .devices x = some rec := by
    intro x rec _ hrec
    obtain hrec | ⟨file, heq, hfile⟩ := readRecord_cons hrec
    · exact .inl hrec
    · cases heq
      exact .inr (recordAt_of_read h hfile)
  have hdraw : ∀ x, (⟨r, a⟩ : Event (Req Data) Ans) = ⟨.random 16, x⟩ →
      isHex 32 x = true ∧ x ∉ c.world.drawn ∧ x ∈ w.drawn ∧ w.content = c.world.content := by
    intro x heq
    cases heq
    obtain ⟨hhex, hnew, rfl⟩ := perform_random h
    exact ⟨hhex, hnew, List.mem_cons_self, rfl⟩
  refine ⟨hs.files_advance ht h, ?_, ?_, ?_, ?_, ?_, ?_⟩
  · intro t htmem
    obtain hmem | rfl := List.mem_or_eq_of_mem_set htmem
    · exact hs.obeys t hmem
    · exact (hs.obeys _ hmemi).2 a (answer_of_perform hs.files.filed h)
  · intro t htmem x rec hx hrec
    obtain hmem | rfl := List.mem_or_eq_of_mem_set htmem
    · exact hdrawn x (hs.read t hmem x rec hx hrec)
    · obtain hrec | hrec := hread x rec hx hrec
      · exact hdrawn x (hs.read _ hmemi x rec hx hrec)
      · exact hdrawn x (hs.files.drawn x rec hx hrec)
  · intro t htmem x hx
    obtain hmem | rfl := List.mem_or_eq_of_mem_set htmem
    · exact ⟨(hs.ids t hmem x hx).1, hdrawn x (hs.ids t hmem x hx).2⟩
    · obtain heq | hx := List.mem_cons.mp hx
      · exact ⟨(hdraw x heq.symm).1, (hdraw x heq.symm).2.2.1⟩
      · exact ⟨(hs.ids _ hmemi x hx).1, hdrawn x (hs.ids _ hmemi x hx).2⟩
  · intro t htmem x hx
    obtain ⟨j, htj⟩ := List.mem_iff_getElem?.mp htmem
    obtain ⟨hij, htj⟩ | ⟨rfl, rfl⟩ := thread_of_set htj
    · exact hs.fresh_advance ht h hij htj hx
    · obtain ⟨hquiet, hx⟩ | heq := drawn_cons hx
      · show recordAt P w.content .devices x = none
        rw [content_of_quiet hquiet h]
        exact hs.fresh _ hmemi x hx
      · obtain ⟨hhex, hnew, _, hcontent⟩ := hdraw x heq
        show recordAt P w.content .devices x = none
        rw [hcontent]
        exact (hs.unknown hnew (not_slash_of_isHex hhex)).1
  · intro t htmem x hx t' htmem' rec hrec
    -- before the step nothing of `x` was there to be read
    have hbefore : '/' ∉ x ∧ recordAt P c.world.content .devices x = none ∧
        ∀ t' ∈ c.threads, ∀ rec, ¬ ReadRecord P t'.past .devices x rec := by
      have hold : ∀ t ∈ c.threads, Drawn t.past x → '/' ∉ x ∧
          recordAt P c.world.content .devices x = none ∧
          ∀ t' ∈ c.threads, ∀ rec, ¬ ReadRecord P t'.past .devices x rec := fun t hmem hx =>
        ⟨not_slash_of_isHex (hs.ids t hmem x hx.mem).1, hs.fresh t hmem x hx, hs.unread t hmem x hx⟩
      obtain hmem | rfl := List.mem_or_eq_of_mem_set htmem
      · exact hold t hmem hx
      · obtain ⟨_, hx⟩ | heq := drawn_cons hx
        · exact hold _ hmemi hx
        · obtain ⟨hhex, hnew, _, _⟩ := hdraw x heq
          have hunknown := hs.unknown hnew (not_slash_of_isHex hhex)
          exact ⟨not_slash_of_isHex hhex, hunknown.1, fun t' ht' => (hunknown.2 t' ht').2⟩
    obtain ⟨hplain, hnone, hunread⟩ := hbefore
    obtain hmem | rfl := List.mem_or_eq_of_mem_set htmem'
    · exact hunread t' hmem rec hrec
    · obtain hrec | hrec := hread x rec hplain hrec
      · exact hunread _ hmemi rec hrec
      · cases hnone.symm.trans hrec
  · intro i₁ j₁ t t' x ht₁ ht₁' hx hx'
    obtain ⟨hi, hti⟩ | ⟨rfl, rfl⟩ := thread_of_set ht₁
    · obtain ⟨hj, htj⟩ | ⟨rfl, rfl⟩ := thread_of_set ht₁'
      · exact hs.alone i₁ j₁ t t' x hti htj hx hx'
      · obtain heq | hx' := List.mem_cons.mp hx'
        · exact absurd (hs.ids t (List.mem_of_getElem? hti) x hx.mem).2 (hdraw x heq.symm).2.1
        · exact hs.alone i₁ j₁ t _ x hti ht hx hx'
    · obtain ⟨hj, htj⟩ | ⟨rfl, rfl⟩ := thread_of_set ht₁'
      · obtain ⟨_, hx⟩ | heq := drawn_cons hx
        · exact hs.alone i₁ j₁ _ t' x ht htj hx hx'
        · exact absurd (hs.ids t' (List.mem_of_getElem? htj) x hx').2 (hdraw x heq).2.1
      · rfl

theorem Sound.start (hs : Sound P c) (job : Job) :
    Sound P { c with threads := c.threads ++ [⟨job, requestProgram P job, []⟩] } := by
  have hread : ∀ x rec, ¬ ReadRecord P ([] : History Data) .devices x rec := by
    rintro x rec ⟨file, hmem, _⟩
    cases hmem
  have hdrawn : ∀ x, ¬ Drawn ([] : History Data) x := fun x h => by cases h.mem
  have hsplit : ∀ {t : Request Data}, t ∈ c.threads ++ [⟨job, requestProgram P job, []⟩] →
      t ∈ c.threads ∨ t = ⟨job, requestProgram P job, []⟩ := fun h =>
    (List.mem_append.mp h).imp_right List.mem_singleton.mp
  refine ⟨hs.files, ?_, ?_, ?_, ?_, ?_, ?_⟩
  · intro t ht
    obtain ht | rfl := hsplit ht
    · exact hs.obeys t ht
    · exact requests_write job
  · intro t ht x rec hx hrec
    obtain ht | rfl := hsplit ht
    · exact hs.read t ht x rec hx hrec
    · exact absurd hrec (hread x rec)
  · intro t ht x hx
    obtain ht | rfl := hsplit ht
    · exact hs.ids t ht x hx
    · cases hx
  · intro t ht x hx
    obtain ht | rfl := hsplit ht
    · exact hs.fresh t ht x hx
    · exact absurd hx (hdrawn x)
  · intro t ht x hx t' ht' rec hrec
    obtain ht | rfl := hsplit ht
    · obtain ht' | rfl := hsplit ht'
      · exact hs.unread t ht x hx t' ht' rec hrec
      · exact hread x rec hrec
    · exact hdrawn x hx
  · intro i j t t' x hti htj hx hx'
    have hold : ∀ {i : Nat} {t : Request Data},
        (c.threads ++ [⟨job, requestProgram P job, []⟩])[i]? = some t →
        c.threads[i]? = some t ∨ t = ⟨job, requestProgram P job, []⟩ := by
      intro i t h
      rw [List.getElem?_append] at h
      split at h
      · exact .inl h
      · exact .inr (List.mem_singleton.mp (List.mem_of_getElem? h))
    obtain hti | rfl := hold hti
    · obtain htj | rfl := hold htj
      · exact hs.alone i j t t' x hti htj hx hx'
      · cases hx'
    · exact absurd hx (hdrawn x)

end

section

variable {P} {c c' : Requests Data} {allowed : Requests Data → Move Job Oracle → Prop}

theorem Sound.step (hs : Sound P c) {m : Move Job Oracle}
    (h : c.step (controllers P) m = some c') : Sound P c' := by
  obtain ⟨job, -, rfl⟩ | ⟨i, o, job, r, k, past, a, w, _, ht, hanswer, rfl⟩ := step_cases h
  · exact hs.start job
  · exact hs.advance ht hanswer

/-- **The invariant holds along every run.** -/
theorem Sound.reaches (hs : Sound P c) (h : Reaches (controllers P) allowed c c') : Sound P c' := by
  induction h with
  | refl => exact hs
  | tail _ _ hmove ih => exact ih.step hmove

theorem sound_of_unclashed {w : World Data} (hw : Unclashed P w) :
    Sound P (⟨w, []⟩ : Requests Data) where
  files := hw
  obeys _ ht := by cases ht
  read _ ht := by cases ht
  ids _ ht := by cases ht
  fresh _ ht := by cases ht
  unread _ ht := by cases ht
  alone _ _ _ _ _ hti := by cases hti

end

/-! ## Standing -/

/-- The Device has the standing that the request has read. -/
def Unmoved (content : Content Data) (past : History Data) (x : Str) : Prop :=
  ∀ r, ReadRecord P past .devices x r →
    ∃ now, recordAt P content .devices x = some now ∧ standing now = standing r

theorem deviceIsActive_of_standing {r r' : Record} (h : standing r = standing r') :
    deviceIsActive r = deviceIsActive r' := by
  obtain ⟨_, h⟩ := Prod.mk.inj h
  obtain ⟨henabled, h⟩ := Prod.mk.inj h
  obtain ⟨hrevoked, hat⟩ := Prod.mk.inj h
  unfold deviceIsActive Record.get
  rw [henabled, hrevoked, hat]

/-! ## Start states -/

instance (d : Dir) (x : Str) (r : Record) : Decidable (Named P d x r) :=
  match d with
  | .devices => inferInstanceAs (Decidable (isHex 32 x = true ∧ P.deviceId r x = x))
  | .users =>
    match h : r["id".toList]? with
    | none => .isTrue fun _ hid => by cases h.symm.trans hid
    | some id =>
      if hx : P.str id = x then
        .isTrue fun _ hid => Option.some.inj (h.symm.trans hid) ▸ hx
      else .isFalse fun hall => hx (hall id h)
  | .usernames => .isTrue trivial
  | .identityAccess => .isTrue trivial
  | .refresh => .isTrue trivial
  | .deviceAddresses => .isTrue trivial
  | .devicePublicKeys => .isTrue trivial
  | .access => .isTrue trivial
  | .p2pDelivery => .isTrue trivial
  | .revocations => .isTrue trivial
  | .nodeJoin => .isTrue trivial
  | .nodeJoinUsed => .isTrue trivial
  | .nodes => .isTrue trivial
  | .nodePublicKeys => .isTrue trivial
  | .nodeCredentials => .isTrue trivial
  | .routes => .isTrue trivial
  | .topologyLinks => .isTrue trivial
  | .controllers => .isTrue trivial

theorem unclashed_startWorld {records : List (Dir × Str × Record)} {drawn : List Str}
    (h : ∀ e ∈ records, '/' ∉ e.2.1 ∧ Named P e.1 e.2.1 e.2.2 ∧
      (e.1 = .devices → e.2.1 ∈ drawn)) : Unclashed P (startWorld P records drawn) := by
  have hentry : ∀ d x r, '/' ∉ x → recordAt P (startWorld P records drawn).content d x = some r →
      (d, x, r) ∈ records := fun d x r hx hrec =>
    mem_of_recordAt_startWorld (fun e he => (h e he).1) hx hrec
  refine ⟨fun d x r hx hrec => (h _ (hentry d x r hx hrec)).2.1,
    fun x r hx hrec => (h _ (hentry .devices x r hx hrec)).2.2 rfl, fun path r hrec => ?_⟩
  change recordOf P ((∅ : Bucket Data)[path]?) = some r at hrec
  rw [SortedMap.get_empty] at hrec
  cases hrec

end Bpc.Deploy

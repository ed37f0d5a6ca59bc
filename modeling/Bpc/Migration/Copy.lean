/-
  ONE STEP AT A TIME — the calls of the migration under the crash rules.

  What a function does is said by look-ups.  The crux is `safe_copyTree`: a copy is whole when it
  is done, and nothing outside it changes, whatever the order of the walk.
-/
import Bpc.Migration.State

namespace Bpc.Migration

open Interaction

/-! ## One request at a time -/

section Requests

variable {sha256 : Content → Nat} {leadsToFile : String → Bool} {I : Tree → Prop} {t : Tree}

theorem safe_question {α : Type} {Q : α → Tree → Prop} {r : Request} {a : Answer r}
    {f : Answer r → Script α} (h : perform sha256 leadsToFile t r = (a, t)) (hI : I t)
    (hf : Safe (perform sha256 leadsToFile) I Q (f a) t) :
    Safe (perform sha256 leadsToFile) I Q ((ask r).bind f) t := by
  show I (perform sha256 leadsToFile t r).2 ∧
    Safe _ I Q (f (perform sha256 leadsToFile t r).1) (perform sha256 leadsToFile t r).2
  rw [h]
  exact ⟨hI, hf⟩

theorem safe_doChange {Q : Unit → Tree → Prop} {c : Change} {t' : Tree} (h : c.apply t = .ok t')
    (hI : I t') (hQ : Q () t') : Safe (perform sha256 leadsToFile) I Q (doChange c) t := by
  have hperform : perform sha256 leadsToFile t (.change c) = (.ok (), t') := by
    unfold perform
    dsimp only
    rw [h]
  show I (perform sha256 leadsToFile t (.change c)).2 ∧ _
  rw [hperform]
  exact ⟨hI, hQ⟩

theorem safe_ensureDir {Q : Unit → Tree → Prop} {p : Path}
    (hp : t.get p = none ∨ t.get p = some .dir)
    (hparent : p ≠ [] → t.get p.dropLast = some .dir) (hI : I t)
    (hafter : ∀ t' : Tree, (∀ r, t'.get r = if r = p then some .dir else t.get r) →
      I t' ∧ Q () t') : Safe (perform sha256 leadsToFile) I Q (ensureDir p) t := by
  refine safe_question rfl hI ?_
  show Safe _ I Q (if t.isDir p then .ret () else doChange (.mkdir p)) t
  by_cases hdir : t.isDir p = true
  · rw [if_pos hdir]
    refine (hafter t fun r => ?_).2
    split
    · next hr => rw [hr, FileTree.isDir_iff.mp hdir]
    · rfl
  · rw [if_neg hdir]
    have hnone : t.get p = none := hp.resolve_right fun h => hdir (FileTree.isDir_iff.mpr h)
    have hne : p ≠ [] := by
      rintro rfl
      rw [t.get_root] at hnone
      cases hnone
    obtain ⟨t', ht'⟩ := FileTree.place_dir_ok hne hnone (hparent hne)
    obtain ⟨hI', hQ'⟩ := hafter t' (FileTree.get_place ht')
    exact safe_doChange ht' hI' hQ'

theorem safe_writeText {Q : Unit → Tree → Prop} {p : Path} {content : Content} (hne : p ≠ [])
    (hfree : t.get p = none ∨ ∃ c, t.get p = some (.file (.file c)))
    (hparent : t.get p.dropLast = some .dir)
    (hcrash : ∀ t' : Tree, (∃ c, ∀ r, t'.get r = if r = p then
      some (.file (.file c)) else t.get r) →
      I t')
    (hafter : ∀ t' : Tree, (∀ r, t'.get r = if r = p then
      some (.file (.file content)) else t.get r) →
      Q () t') : Safe (perform sha256 leadsToFile) I Q (writeText p content) t := by
  have hwrite : ∀ (t : Tree) (c : Content),
    (t.get p = none ∨ ∃ c, t.get p = some (.file (.file c))) →
      t.get p.dropLast = some .dir → ∃ t', (Change.write p c).apply t = .ok t' ∧
        ∀ r, t'.get r = if r = p then some (.file (.file c)) else t.get r := by
    intro t c hfree hparent
    have hnodir : t.get p ≠ some .dir := by
      rcases hfree with h | ⟨c, h⟩ <;> rw [h] <;> simp
    obtain ⟨t', ht'⟩ := FileTree.place_file_ok (d := Leaf.file c) hne hnodir hparent
    refine ⟨t', ?_, FileTree.get_place ht'⟩
    unfold Change.apply
    dsimp only
    rcases hfree with h | ⟨c, h⟩ <;> rw [h] <;> exact ht'
  obtain ⟨t₁, h₁, hget₁⟩ := hwrite t (.bytes []) hfree hparent
  have hlast : p.dropLast ≠ p := by
    intro h
    have hlen := congrArg List.length h
    rw [List.length_dropLast] at hlen
    have hpos : 0 < p.length := List.length_pos_iff.mpr hne
    omega
  have hparent₁ : t₁.get p.dropLast = some .dir := by
    rw [hget₁, if_neg hlast]
    exact hparent
  obtain ⟨t₂, h₂, hget₂⟩ := hwrite t₁ content (Or.inr ⟨_, by rw [hget₁, if_pos rfl]⟩) hparent₁
  have hget : ∀ r, t₂.get r = if r = p then some (.file (.file content)) else t.get r := by
    intro r
    rw [hget₂]
    split
    · rfl
    · next hr => rw [hget₁, if_neg hr]
  refine (safe_doChange (Q := fun _ w => w = t₁) h₁ (hcrash t₁ ⟨_, hget₁⟩) rfl).bind ?_
  rintro _ _ rfl
  exact safe_doChange h₂ (hcrash t₂ ⟨_, hget⟩) (hafter t₂ hget)

end Requests

/-! ## Copying a tree -/

/-- The trees agree on everything that is not at or below a path. -/
def Outside (dst : Path) (t t' : Tree) : Prop := ∀ r, ¬dst <+: r → t'.get r = t.get r

/-- Half of a copy: the entries `done` are there, and nothing else is. -/
structure Copying (t : Tree) (src dst : Path) (done : List (Path × Node Leaf)) (t' : Tree) :
    Prop where
  outside : Outside dst t t'
  top : t'.get dst = some .dir
  there : ∀ rel n, (rel, n) ∈ done → t'.get (dst ++ rel) = some n
  free : ∀ rel, rel ≠ [] → (∀ n, (rel, n) ∉ done) → t'.get (dst ++ rel) = none

theorem Copying.add {t t' t'' : Tree} {src dst : Path} {done : List (Path × Node Leaf)}
    (h : Copying t src dst done t') {rel : Path} {n : Node Leaf} (hne : rel ≠ [])
    (hnew : ∀ m, (rel, m) ∉ done)
    (hget : ∀ r, t''.get r = if r = dst ++ rel then some n else t'.get r) :
    Copying t src dst (done ++ [(rel, n)]) t'' where
  outside r hr := by
    have hne' : r ≠ dst ++ rel := by
      rintro rfl
      exact hr (List.prefix_append _ _)
    rw [hget, if_neg hne']
    exact h.outside r hr
  top := by
    have hne' : dst ≠ dst ++ rel := fun heq => hne (List.self_eq_append_right.mp heq)
    rw [hget, if_neg hne']
    exact h.top
  there rel' m hmem := by
    rw [hget]
    rcases List.mem_append.mp hmem with hold | hlast
    · have hne' : dst ++ rel' ≠ dst ++ rel := by
        intro heq
        rw [List.append_cancel_left heq] at hold
        exact hnew m hold
      rw [if_neg hne']
      exact h.there rel' m hold
    · cases List.mem_singleton.mp hlast
      rw [if_pos rfl]
  free rel' hne' hnot := by
    have hdiff : dst ++ rel' ≠ dst ++ rel := by
      intro heq
      have hsame := List.append_cancel_left heq
      exact hnot n (List.mem_append_right _ (by rw [hsame]; exact List.mem_singleton_self _))
    rw [hget, if_neg hdiff]
    exact h.free rel' hne' fun m hm => hnot m (List.mem_append_left _ hm)

section Copy

variable {sha256 : Content → Nat} {leadsToFile : String → Bool} {I : Tree → Prop} {t : Tree}

theorem safe_copyEntry {src dst : Path} {done : List (Path × Node Leaf)} {t' : Tree}
    (h : Copying t src dst done t') {rel : Path} {n : Node Leaf} (hne : rel ≠ [])
    (hnew : ∀ m, (rel, m) ∉ done) (hparent : t'.get (dst ++ rel).dropLast = some .dir)
    (hI : ∀ t'', Outside dst t t'' → I t'') :
    Safe (perform sha256 leadsToFile) I (fun _ t'' => Copying t src dst (done ++ [(rel, n)]) t'')
      (copyEntry dst (rel, n)) t' := by
  have hnil : dst ++ rel ≠ [] := by simp [hne]
  have hfree : t'.get (dst ++ rel) = none := h.free rel hne hnew
  unfold copyEntry
  split
  · next hn =>
    cases hn
    obtain ⟨t'', ht''⟩ := FileTree.place_dir_ok hnil hfree hparent
    have hadd := h.add hne hnew (FileTree.get_place ht'')
    exact safe_doChange ht'' (hI t'' hadd.outside) hadd
  · next content hn =>
    cases hn
    refine safe_writeText hnil (Or.inl hfree) hparent (fun t'' ⟨c, hget⟩ => ?_) fun t'' hget => ?_
    · exact hI t'' (h.add hne hnew hget).outside
    · exact h.add hne hnew hget
  · next target hn =>
    cases hn
    obtain ⟨t'', ht''⟩ := FileTree.place_file_ok (d := Leaf.link target) hnil
      (by rw [hfree]; simp) hparent
    have happly : (Change.symlink (dst ++ rel) target).apply t' = .ok t'' := by
      unfold Change.apply
      dsimp only
      rw [hfree]
      exact ht''
    have hadd := h.add hne hnew (FileTree.get_place ht'')
    exact safe_doChange happly (hI t'' hadd.outside) hadd

/-- **A copy**: below `dst` there is what is below `src`, and outside nothing changes, not even in
    between. -/
theorem safe_copyTree (env : Env) (src : Path) {dst : Path} (hne : dst ≠ [])
    (hdst : t.get dst = none) (hparent : t.get dst.dropLast = some .dir)
    (hI : ∀ t', Outside dst t t' → I t') :
    Safe (perform sha256 leadsToFile) I (fun _ t' => Outside dst t t' ∧ t'.get dst = some .dir ∧
      ∀ rel, rel ≠ [] → t'.get (dst ++ rel) = t.get (src ++ rel)) (copyTree env src dst) t := by
  refine ⟨hI t fun _ _ => rfl, ?_⟩
  obtain ⟨t₁, ht₁⟩ := FileTree.place_dir_ok hne hdst hparent
  have hget₁ := FileTree.get_place ht₁
  have hstart : Copying t src dst [] t₁ := by
    refine ⟨fun r hr => ?_, by rw [hget₁, if_pos rfl], fun _ _ h => (by cases h),
      fun rel hrel _ => ?_⟩
    · have hr' : r ≠ dst := by
        rintro rfl
        exact hr (List.prefix_refl _)
      rw [hget₁, if_neg hr']
    · have hdiff : dst ++ rel ≠ dst := fun heq => hrel (List.append_right_eq_self.mp heq)
      rw [hget₁, if_neg hdiff]
      by_contra hsome
      have habove : Above dst (dst ++ rel) := ⟨List.prefix_append _ _, fun heq => hdiff heq.symm⟩
      rw [FileTree.get_above hsome habove] at hdst
      cases hdst
  show Safe _ I _ ((doChange (.mkdir dst)).bind fun _ =>
    Prog.forEach (copyEntry dst) (env.scan.list (t.below src))) t
  have hmkdir : (Change.mkdir dst).apply t = .ok t₁ := ht₁
  refine (safe_doChange (Q := fun _ w => w = t₁) hmkdir (hI t₁ hstart.outside) rfl).bind ?_
  rintro _ _ rfl
  -- the loop: what is done and what is left are the listing
  refine (Safe.forEach (fun rest t' => ∃ done,
    env.scan.list (t.below src) = done ++ rest ∧ Copying t src dst done t') ?_
      (env.scan.list (t.below src)) ⟨[], rfl, hstart⟩).mono ?_
  rotate_left
  · rintro _ t' ⟨done, hlist, hcopy⟩
    rw [List.append_nil] at hlist
    refine ⟨hcopy.outside, hcopy.top, fun rel hrel => ?_⟩
    have hbelow : (t.below src)[rel]? = t.get (src ++ rel) := by
      rw [FileTree.get_below, if_neg hrel]
    cases hget : t.get (src ++ rel) with
    | some n =>
      rw [hget] at hbelow
      exact hcopy.there rel n (hlist ▸ (env.scan.mem _ rel n).mpr hbelow)
    | none =>
      refine hcopy.free rel hrel fun n hn => ?_
      have hsome := (env.scan.mem (t.below src) rel n).mp (hlist ▸ hn)
      rw [hbelow, hget] at hsome
      cases hsome
  · rintro ⟨rel, n⟩ rest t' ⟨done, hlist, hcopy⟩
    have hmem : (t.below src)[rel]? = some n :=
      (env.scan.mem _ rel n).mp (hlist ▸ List.mem_append_right _ List.mem_cons_self)
    have hrel : rel ≠ [] := by
      rintro rfl
      rw [FileTree.get_below, if_pos rfl] at hmem
      cases hmem
    have hnew : ∀ m, (rel, m) ∉ done := by
      intro m hm
      have honce := env.scan.once (t.below src)
      rw [hlist, List.map_append, List.nodup_append] at honce
      exact honce.2.2 rel (List.mem_map.mpr ⟨_, hm, rfl⟩) rel (List.mem_cons_self ..) rfl
    -- the directory of the entry was copied before it
    have hup : t'.get (dst ++ rel).dropLast = some .dir := by
      rw [List.dropLast_append_of_ne_nil hrel]
      by_cases htop : rel.dropLast = []
      · rw [htop, List.append_nil]
        exact hcopy.top
      · rw [FileTree.get_below, if_neg hrel] at hmem
        have habove : Above rel.dropLast rel := by
          refine ⟨List.dropLast_prefix rel, fun heq => ?_⟩
          have hlen := congrArg List.length heq
          rw [List.length_dropLast] at hlen
          have hpos := List.length_pos_iff.mpr hrel
          omega
        have hdir : t.get (src ++ rel.dropLast) = some .dir := by
          refine FileTree.get_above (by rw [hmem]; simp) ⟨?_, fun heq => ?_⟩
          · exact (List.prefix_append_right_inj src).mpr habove.1
          · exact habove.2 (List.append_cancel_left heq)
        have hentry : (t.below src)[rel.dropLast]? = some .dir := by
          rw [FileTree.get_below, if_neg htop]
          exact hdir
        obtain ⟨k, hk⟩ := env.scan.parents _ done rel n rest hlist rel.dropLast
          (by rw [hentry]; simp) habove
        have hkdir : (t.below src)[rel.dropLast]? = some k :=
          (env.scan.mem _ _ _).mp (hlist ▸ List.mem_append_left _ hk)
        rw [hentry] at hkdir
        cases hkdir
        exact hcopy.there _ _ hk
    refine (safe_copyEntry hcopy hrel hnew hup hI).mono fun _ t'' hadd => ?_
    exact ⟨done ++ [(rel, n)], by rw [hlist, List.append_assoc]; rfl, hadd⟩

end Copy

end Bpc.Migration

/-
  CANDIDATE PATHS — `candidate_paths` as a specification: distinct Nodes joined by links.

  On a topology whose names and numbers are in order (`Simple`) the search returns every admissible
  path, once, sorted (`candidates_are_admissible_paths`).  The limit on Public Nodes never bites.
-/
import Bpc.Deploy.PlainMesh
import Bpc.Deploy.TopologyGraph

namespace Bpc.Deploy

open SlashPath

variable {Data F : Type} {P : Runtime Data} {N : PyFloat F} {graph : Graph F} {includeFailed : Bool}
  {source owner : Str} {hops : List Str}

/-- A Node id: not empty, without surrounding whitespace. -/
abbrev IsNodeId (id : Str) : Prop := id ≠ [] ∧ strip id = id

/-- Names, one link for an ordered pair, numbers that convert. -/
structure Simple (P : Runtime Data) (N : PyFloat F) (graph : Graph F) : Prop where
  named : ∀ link ∈ graph.links, IsNodeId link.start ∧ IsNodeId link.target
  single : graph.links.Pairwise fun link link' =>
    link.start ≠ link.target → ¬(link.start = link'.start ∧ link.target = link'.target)
  numeric : ∀ link ∈ graph.links, Measurable P N link

/-- The paths that a search should find. -/
structure Admissible (graph : Graph F) (includeFailed : Bool) (source owner : Str)
    (hops : List Str) :
    Prop where
  head : hops.head? = some source
  last : hops.getLast? = some owner
  nodup : hops.Nodup
  passes : owner ∉ hops.dropLast
  least : 2 ≤ hops.length
  most : hops.length ≤ maxHops
  joined : hops.IsChain fun a b => ∃ link ∈ graph.links, link.start = a ∧ link.target = b ∧
    (includeFailed = true ∨ link.health ≠ "failed")
  middle : intermediates graph.publicIds hops ≤ maxIntermediate

theorem Simple.mem_adjacent (h : Simple P N graph) {link : Link F} {node : Str} :
    link ∈ graph.adjacent includeFailed node ↔ link ∈ graph.links ∧
      (includeFailed = true ∨ link.health ≠ "failed") ∧ link.start ≠ link.target ∧
      link.start = node := by
  unfold Graph.adjacent
  rw [List.mem_filter]
  refine and_congr_right fun hmem => ?_
  obtain ⟨⟨hstart, hstart'⟩, htarget, htarget'⟩ := h.named link hmem
  rw [hstart', htarget']
  simp [hstart, htarget, and_assoc, -String.reduceToList]

/-- **The admissible paths are the ways of the search.** -/
theorem Simple.admissible_iff (h : Simple P N graph) (hne : source ≠ owner) :
    Admissible graph includeFailed source owner hops ↔
      ∃ links, ShortWay graph includeFailed source owner hops links := by
  constructor
  · intro ha
    have hchain : hops.IsChain fun a b =>
        ∃ link ∈ graph.adjacent includeFailed a, link.target = b ∧ True := by
      refine List.isChain_iff_getElem.mpr fun i hi => ?_
      obtain ⟨link, hmem, hstart, htarget, hhealth⟩ := List.isChain_iff_getElem.mp ha.joined i hi
      have hdiffer : link.start ≠ link.target := by
        rw [hstart, htarget]
        intro hsame
        have hindex := ha.nodup.getElem_inj_iff.mp hsame
        omega
      exact ⟨link, h.mem_adjacent.mpr ⟨hmem, hhealth, hdiffer, hstart⟩, htarget, trivial⟩
    obtain ⟨links, hway, _⟩ := Ways.exists_way ha.head ha.last ha.nodup hchain
    exact ⟨links, hway, ha.most⟩
  · rintro ⟨links, hway, hshort⟩
    have hlimit := intermediates_lt graph.publicIds hops
    have hmax : maxHops = 3 := rfl
    have hmiddle : maxIntermediate = 2 := rfl
    refine ⟨hway.head, hway.last, hway.nodup, fun hmem => ?_, hway.two_le hne, hshort, ?_, by omega⟩
    · obtain ⟨front, rfl⟩ := List.getLast?_eq_some_iff.mp hway.last
      rw [List.dropLast_concat] at hmem
      exact (List.nodup_append.mp hway.nodup).2.2 _ hmem _ (List.mem_singleton_self _) rfl
    · refine hway.chain.imp fun a b ⟨link, _, hlink, htarget⟩ => ?_
      obtain ⟨hmem, hhealth, _, hstart⟩ := h.mem_adjacent.mp hlink
      exact ⟨link, hmem, hstart, htarget, hhealth⟩

theorem Simple.nodup_targets (h : Simple P N graph) (node : Str) :
    ((graph.adjacent includeFailed node).map Link.target).Nodup := by
  have hsingle : (graph.adjacent includeFailed node).Pairwise fun link link' =>
      link.start ≠ link.target → ¬(link.start = link'.start ∧ link.target = link'.target) :=
    h.single.sublist List.filter_sublist
  refine List.pairwise_map.mpr (hsingle.imp_of_mem fun {link link'} hlink hlink' hnot hsame => ?_)
  obtain ⟨_, _, hdiffer, hstart⟩ := h.mem_adjacent.mp hlink
  obtain ⟨_, _, _, hstart'⟩ := h.mem_adjacent.mp hlink'
  exact hnot hdiffer ⟨hstart.trans hstart'.symm, hsame⟩

theorem Simple.nodup_walk (h : Simple P N graph) {cidr : Str} {found : List (TopologyPath F)}
    (hfound : walk P N graph includeFailed owner cidr maxHops source [source] [] = .ok found) :
    (found.map TopologyPath.hops).Nodup := by
  rw [walk_eq_search _ _ _ _ (by simp) (by simp [maxHops]),
    show [source] = [] ++ [source] from rfl] at hfound
  refine Ways.nodup_search h.nodup_targets (fun hops links ys hys => ?_) List.not_mem_nil hfound
  obtain ⟨path, hpath, rfl⟩ := checkedCandidate_ok hys
  refine ⟨List.nodup_singleton _, fun y hy => ?_⟩
  rw [List.mem_singleton.mp hy]
  exact (candidateFromLinks_ok hpath).2.2.2

/-- The order of Python's tuples, over exact numbers. -/
def tupleLe [LinearOrder F] (a b : F × F × Str) : Prop :=
  a.1 < b.1 ∨ a.1 = b.1 ∧ (a.2.1 < b.2.1 ∨ a.2.1 = b.2.1 ∧ (compare a.2.2 b.2.2).isLE = true)

/-- `list.sort` puts exact numbers in order. -/
def PyFloat.Sorts [LinearOrder F] (N : PyFloat F) : Prop :=
  ∀ {α : Type} (key : α → F × F × Str) (l : List α),
    (N.sort key l).Pairwise fun a b => tupleLe (key a) (key b)

/-- **The candidates are the admissible paths**: each once, in order, made of the links between its
    hops; leaving out failed links leaves out candidates only. -/
theorem candidates_are_admissible_paths [LinearOrder F] (hsort : N.Sorts) (h : Simple P N graph)
    (hsource : IsNodeId source) (howner : IsNodeId owner) (hne : source ≠ owner) (cidr : Str)
    (includeFailed : Bool) :
    ∃ found, candidatePaths P N graph source owner cidr includeFailed = .ok found ∧
      (∀ hops, hops ∈ found.map TopologyPath.hops ↔
        Admissible graph includeFailed source owner hops) ∧
      (found.map TopologyPath.hops).Nodup ∧
      found.Pairwise (fun a b => tupleLe (a.score, a.rttMs, a.id) (b.score, b.rttMs, b.id)) ∧
      (∀ path ∈ found, ∃ links, ShortWay graph includeFailed source owner path.hops links ∧
        candidateFromLinks P N path.hops links owner cidr = .ok path) ∧
      ∀ all, candidatePaths P N graph source owner cidr true = .ok all → found ⊆ all := by
  have hmeasured : ∀ hops links, ShortWay graph includeFailed source owner hops links →
      ∀ link ∈ links, Measurable P N link := by
    intro hops links hway link hlink
    obtain ⟨node, hadjacent, _⟩ := hway.way.neighbours hlink
    exact h.numeric link (h.mem_adjacent.mp hadjacent).1
  obtain ⟨found, hfound⟩ :
      ∃ found, candidatePaths P N graph source owner cidr includeFailed = .ok found := by
    rw [candidatePaths_returns_iff, hsource.2, howner.2]
    exact ⟨hsource.1, howner.1, hne, hmeasured⟩
  have hmem : ∀ path, path ∈ found ↔ _ := fun path => mem_candidatePaths hfound
  obtain ⟨walked, hwalked, hsorted⟩ := candidatePaths_ok hfound
  rw [hsource.2, howner.2] at hwalked hmem
  refine ⟨found, hfound, fun hops => ?_, ?_, ?_, fun path hpath => ?_,
    fun all hall path hpath => ?_⟩
  · rw [h.admissible_iff hne, List.mem_map]
    constructor
    · rintro ⟨path, hpath, rfl⟩
      obtain ⟨hops, links, hway, hcandidate⟩ := (hmem path).mp hpath
      exact ⟨links, (candidateFromLinks_ok hcandidate).2.2.2 ▸ hway⟩
    · rintro ⟨links, hway⟩
      obtain ⟨path, hpath⟩ := candidateFromLinks_returns_iff.mpr (hmeasured hops links hway)
      exact ⟨path, (hmem path).mpr ⟨hops, links, hway, hpath⟩, (candidateFromLinks_ok hpath).2.2.2⟩
  · rw [hsorted]
    exact ((N.sort_perm _ walked).map _).nodup_iff.mpr (h.nodup_walk hwalked)
  · rw [hsorted]
    exact hsort _ walked
  · obtain ⟨hops, links, hway, hcandidate⟩ := (hmem path).mp hpath
    rw [(candidateFromLinks_ok hcandidate).2.2.2]
    exact ⟨links, hway, hcandidate⟩
  · obtain ⟨hops, links, hway, hcandidate⟩ := (hmem path).mp hpath
    refine (mem_candidatePaths hall).mpr ⟨hops, links, ?_⟩
    rw [hsource.2, howner.2]
    exact ⟨hway.weaken, hcandidate⟩

/-! ## A triangle -/

/-- A healthy link. -/
def plainLink (a b : String) : Link Int :=
  ⟨a.toList, b.toList, "healthy", .json (.int 5), .json (.int 0), .json (.int 10), .int 1⟩

/-- Three Nodes, with a link from `a` to `b` and a way around. -/
def triangle : Graph Int := ⟨[], [plainLink "a" "b", plainLink "a" "c", plainLink "c" "b"], []⟩

theorem tupleLE_iff {a b : Int × Int × Str} : tupleLE a b = true ↔ tupleLe a b := by
  simp [tupleLE, tupleLe]

theorem plainFloat_sorts : plainFloat.Sorts := by
  intro α key l
  have htrans : IsTrans α fun a b => tupleLE (key a) (key b) = true := by
    refine ⟨fun a b c hab hbc => ?_⟩
    simp only [tupleLE_iff, tupleLe] at hab hbc ⊢
    have hid := @Std.TransCmp.isLE_trans Str compare _ (key a).2.2 (key b).2.2 (key c).2.2
    grind
  have htotal : Std.Total fun a b : α => tupleLE (key a) (key b) = true := by
    refine ⟨fun a b => ?_⟩
    simp only [tupleLE_iff, tupleLe]
    have hid : (compare (key a).2.2 (key b).2.2).isLE ∨ (compare (key b).2.2 (key a).2.2).isLE := by
      rw [@Std.OrientedCmp.eq_swap _ compare _ (key b).2.2]
      cases compare (key a).2.2 (key b).2.2 <;> decide
    grind
  exact (List.pairwise_insertionSort _ l).imp fun h => tupleLE_iff.mp h

/-- From `a` to `b` there is a direct path, and one through `c`. -/
theorem candidates_of_triangle :
    ∃ found, candidatePaths meshRuntime plainFloat triangle "a" "b" "10.0.0.0/8"
      false = .ok found ∧ (found.map TopologyPath.hops).Nodup ∧
      ["a".toList, "c".toList, "b".toList] ∈ found.map TopologyPath.hops := by
  have hsimple : Simple meshRuntime plainFloat triangle := by
    refine ⟨by decide +kernel, by decide +kernel, fun link hlink => ?_⟩
    simp only [triangle, List.mem_cons, List.not_mem_nil, or_false] at hlink
    rcases hlink with rfl | rfl | rfl
    all_goals exact ⟨⟨_, rfl⟩, ⟨_, rfl⟩, Converts.caught ⟨_, rfl⟩, _, rfl⟩
  obtain ⟨found, hfound, hpaths, hnodup, _⟩ := candidates_are_admissible_paths plainFloat_sorts
    hsimple (show IsNodeId "a" by decide +kernel) (show IsNodeId "b" by decide +kernel)
    (by decide) "10.0.0.0/8" false
  refine ⟨found, hfound, hnodup, (hpaths _).mpr ?_⟩
  exact ⟨rfl, rfl, by decide, by decide, by decide, by decide, by decide +kernel, by decide +kernel⟩

end Bpc.Deploy

import CrateSafety.Obligation.Graph
import Mathlib.Data.List.Chain
import Mathlib.Data.List.Nodup
import Mathlib.Data.List.Perm.Subperm
import Mathlib.Logic.Relation

/-!
# Orders of ready items and cycles

Moving the first ready item until none is left lists every item after its callees and, among those that
are ready, the one of lowest rank first. If items are left that are not ready, each has a callee that is
left too, and following these callees ends in a cycle.
-/

namespace CrateSafety

namespace Graph

section Orders

variable {calls : String → String → Prop} {rank : String → Int} {paths order done remaining : List String}

/-- All callees of a path are done. -/
def Ready (calls : String → String → Prop) (done : List String) (path : String) : Prop :=
  ∀ callee, calls path callee → callee ∈ done

/-- A path is the one of lowest rank among those that are ready and not done. -/
structure NextReady (calls : String → String → Prop) (rank : String → Int) (paths done : List String)
    (path : String) : Prop where
  /-- It is one of the paths. -/
  listed : path ∈ paths
  /-- It is not done. -/
  fresh : path ∉ done
  /-- Its callees are done. -/
  ready : Ready calls done path
  /-- No other one has a lower rank. -/
  lowest : ∀ other ∈ paths, other ∉ done → Ready calls done other → rank path ≤ rank other

/-- Each entry of an order is the next ready one after those before it. -/
def Greedy (calls : String → String → Prop) (rank : String → Int) (paths order : List String) : Prop :=
  ∀ before path after, order = before ++ path :: after → NextReady calls rank paths before path

theorem greedy_nil : Greedy calls rank paths [] := by
  intro before path after h
  simp at h

theorem Greedy.snoc {path : String} (h : Greedy calls rank paths order)
    (hn : NextReady calls rank paths order path) : Greedy calls rank paths (order ++ [path]) := by
  intro before path' after he
  rcases List.eq_nil_or_concat after with rfl | ⟨rest, last, rfl⟩
  · obtain ⟨rfl, hp⟩ := List.append_inj' he rfl
    cases hp
    exact hn
  · rw [List.concat_eq_append, ← List.cons_append, ← List.append_assoc] at he
    exact h before path' rest (List.append_inj' he rfl).1

theorem Greedy.of_snoc {path : String} (h : Greedy calls rank paths (order ++ [path])) :
    Greedy calls rank paths order ∧ NextReady calls rank paths order path := by
  refine ⟨fun before path' after he => ?_, h order path [] rfl⟩
  refine h before path' (after ++ [path]) ?_
  rw [he, List.append_assoc, List.cons_append]

/-- No path is listed twice. -/
theorem Greedy.nodup (h : Greedy calls rank paths order) : order.Nodup := by
  induction order using List.reverseRecOn with
  | nil => exact List.nodup_nil
  | append_singleton rest path ih =>
    obtain ⟨hrest, hnext⟩ := h.of_snoc
    exact List.nodup_append.mpr ⟨ih hrest, List.nodup_singleton path, by
      intro a ha b hb he
      rw [List.mem_singleton.mp hb] at he
      exact hnext.fresh (he ▸ ha)⟩

/-- Only given paths are listed. -/
theorem Greedy.subset (h : Greedy calls rank paths order) : order ⊆ paths := by
  intro path hp
  obtain ⟨before, after, he⟩ := List.append_of_mem hp
  exact (h before path after he).listed

/-- Callees stand before their callers. -/
theorem Greedy.idxOf_lt (h : Greedy calls rank paths order) {path callee : String}
    (hp : path ∈ order) (hc : calls path callee) : order.idxOf callee < order.idxOf path := by
  obtain ⟨before, after, he⟩ := List.append_of_mem hp
  obtain ⟨-, hfresh, hready, -⟩ := h before path after he
  have hcallee := hready callee hc
  rw [he, List.idxOf_append_of_mem hcallee, List.idxOf_append_of_notMem hfresh, List.idxOf_cons_self,
    Nat.add_zero]
  exact List.idxOf_lt_length_of_mem hcallee

/-- Where everything that calls is listed, no path calls itself, not even through others. -/
theorem Greedy.acyclic (h : Greedy calls rank paths order)
    (hall : ∀ path callee, calls path callee → path ∈ order) (path : String) :
    ¬ Relation.TransGen calls path path := by
  have hlt : ∀ a b, Relation.TransGen calls a b → order.idxOf b < order.idxOf a := by
    intro a b hab
    induction hab with
    | single hc => exact h.idxOf_lt (hall _ _ hc) hc
    | tail _ hc ih => exact (h.idxOf_lt (hall _ _ hc) hc).trans ih
  exact fun hcycle => Nat.lt_irrefl _ (hlt path path hcycle)

end Orders

section Arranging

variable {callees : String → List String} {rank : String → Int} {paths done remaining : List String}

/-- What holds while items are moved: those that are done stand in order, the others follow by rank. -/
structure Underway (callees : String → List String) (rank : String → Int)
    (paths done remaining : List String) : Prop where
  /-- What is done stands in order. -/
  greedy : Greedy (fun path callee => callee ∈ callees path) rank paths done
  /-- The rest is what is not done. -/
  rest : ∀ path, path ∈ remaining ↔ path ∈ paths ∧ path ∉ done
  /-- The rest is sorted by rank. -/
  sorted : remaining.Pairwise fun a b => rank a < rank b

theorem Underway.nodup (h : Underway callees rank paths done remaining) : remaining.Nodup :=
  h.sorted.imp fun {a b} hlt he => by
    rw [he] at hlt
    omega

/-- One move keeps what is done in order. -/
theorem Underway.step (h : Underway callees rank paths done remaining) {path : String}
    (hf : (remaining.find? fun p => (callees p).all done.contains) = some path) :
    Underway callees rank paths (done ++ [path]) (remaining.erase path) := by
  obtain ⟨hready, before, after, he, hbefore⟩ := List.find?_eq_some_iff_append.mp hf
  have hmem : path ∈ remaining := by simp [he]
  obtain ⟨hlisted, hfresh⟩ := (h.rest path).mp hmem
  have hnext : NextReady (fun path callee => callee ∈ callees path) rank paths done path := by
    refine ⟨hlisted, hfresh, by simpa [Ready] using hready, fun other ho hd hr => ?_⟩
    have hor : other ∈ before ++ path :: after := he ▸ (h.rest other).mpr ⟨ho, hd⟩
    have hsorted := he ▸ h.sorted
    rcases List.mem_append.mp hor with hb | hb
    · have hnot := hbefore other hb
      simp only [Bool.not_eq_true', List.all_eq_false] at hnot
      obtain ⟨callee, hc, hn⟩ := hnot
      exact absurd (hr callee hc) (by simpa using hn)
    · rcases List.mem_cons.mp hb with rfl | hb
      · exact Int.le_refl _
      · have hpair := (List.pairwise_append.mp hsorted).2.1
        exact Int.le_of_lt (List.rel_of_pairwise_cons hpair hb)
  refine ⟨h.greedy.snoc hnext, fun other => ?_, h.sorted.sublist (List.erase_sublist ..)⟩
  rw [h.nodup.mem_erase_iff, h.rest, List.mem_append, List.mem_singleton, not_or]
  constructor
  · rintro ⟨hne, hp, hd⟩
    exact ⟨hp, hd, hne⟩
  · rintro ⟨hp, hd, hne⟩
    exact ⟨hne, hp, hd⟩

/-- All moves together keep what is done in order, and end when nothing more is ready. -/
theorem Underway.arrange (n : Nat) (h : Underway callees rank paths done remaining)
    (hn : remaining.length ≤ n) :
    Underway callees rank paths (arrange callees n done remaining).1
        (arrange callees n done remaining).2 ∧
      ∀ path ∈ (arrange callees n done remaining).2,
        ∃ callee ∈ callees path, callee ∉ (arrange callees n done remaining).1 := by
  induction n generalizing done remaining with
  | zero =>
    have hnil : remaining = [] := List.length_eq_zero_iff.mp (Nat.le_zero.mp hn)
    subst hnil
    exact ⟨h, fun path hp => absurd hp (List.not_mem_nil)⟩
  | succ n ih =>
    unfold Graph.arrange
    split
    case h_1 path hf =>
      refine ih (h.step hf) ?_
      have hlen := List.length_erase_of_mem (List.mem_of_find?_eq_some hf)
      omega
    case h_2 hf =>
      refine ⟨h, fun path hp => ?_⟩
      have hnot := List.find?_eq_none.mp hf path hp
      simpa using hnot

end Arranging

section Cycles

variable {calls : String → String → Prop} {callees : String → List String}
  {remaining trail : List String} {current : String}

/-- A chain of calls that ends where it starts and repeats nothing else. -/
structure IsCycle (calls : String → String → Prop) (cycle : List String) : Prop where
  /-- There is at least one call. -/
  length : 2 ≤ cycle.length
  /-- It ends where it starts. -/
  closed : cycle.head? = cycle.getLast?
  /-- Up to its end nothing is repeated. -/
  distinct : cycle.dropLast.Nodup
  /-- Each entry calls the next one. -/
  linked : cycle.IsChain calls

/-- A chain leads from its first entry to its last one. -/
theorem transGen_of_isChain {a b last : String} {rest : List String}
    (h : (a :: b :: rest).IsChain calls) (hl : (b :: rest).getLast? = some last) :
    Relation.TransGen calls a last := by
  obtain ⟨hab, htail⟩ := List.isChain_cons_cons.mp h
  induction rest generalizing a b with
  | nil =>
    cases hl
    exact .single hab
  | cons c rest ih =>
    rw [List.getLast?_cons_cons] at hl
    exact .head hab (ih htail hl (List.isChain_cons_cons.mp htail).1 (List.isChain_cons_cons.mp htail).2)

theorem IsCycle.transGen {cycle : List String} (h : IsCycle calls cycle) :
    ∃ path, Relation.TransGen calls path path := by
  obtain ⟨hlength, hclosed, -, hlinked⟩ := h
  match cycle, hlength with
  | a :: b :: rest, _ =>
    rw [List.head?_cons, List.getLast?_cons_cons] at hclosed
    exact ⟨a, transGen_of_isChain hlinked hclosed.symm⟩

/-- What holds while callees are followed among the remaining items. -/
structure Following (callees : String → List String) (remaining trail : List String)
    (current : String) : Prop where
  /-- The trail repeats nothing. -/
  nodup : trail.Nodup
  /-- The trail stays among the remaining items. -/
  within : trail ⊆ remaining
  /-- So does the next item. -/
  next : current ∈ remaining
  /-- Each entry calls the next one. -/
  linked : (trail ++ [current]).IsChain fun path callee => callee ∈ callees path

/-- A new item makes the trail longer. -/
theorem Following.step {callee : String} (h : Following callees remaining trail current)
    (hnew : current ∉ trail) (hf : (callees current).find? remaining.contains = some callee) :
    Following callees remaining (trail ++ [current]) callee := by
  have hcallee : callee ∈ remaining := by simpa using List.find?_some hf
  refine ⟨?_, ?_, hcallee, ?_⟩
  · rw [← List.concat_eq_append]
    exact h.nodup.concat hnew
  · exact List.append_subset.mpr ⟨h.within, by simpa using h.next⟩
  · refine List.isChain_append.mpr ⟨h.linked, List.isChain_singleton _, fun a ha b hb => ?_⟩
    simp only [List.getLast?_concat, Option.mem_def, Option.some.injEq, List.head?_cons] at ha hb
    subst ha hb
    exact List.mem_of_find?_eq_some hf

/-- A repeated item closes a cycle. -/
theorem Following.isCycle (h : Following callees remaining trail current) (hm : current ∈ trail) :
    IsCycle (fun path callee => callee ∈ callees path)
      (trail.dropWhile (· != current) ++ [current]) := by
  obtain ⟨before, after, he⟩ := List.append_of_mem hm
  have hbefore : current ∉ before := by
    intro hb
    have hnodup := he ▸ h.nodup
    exact (List.nodup_append.mp hnodup).2.2 current hb current List.mem_cons_self rfl
  have hdrop : trail.dropWhile (· != current) = current :: after := by
    rw [he, List.dropWhile_append_of_pos (by
      intro a ha
      simpa using fun heq : a = current => hbefore (heq ▸ ha))]
    simp
  have hsuffix : current :: after <:+ trail := ⟨before, he.symm⟩
  rw [hdrop]
  refine ⟨by simp, ?_, ?_, ?_⟩
  · rw [List.getLast?_concat]
    rfl
  · rw [List.dropLast_concat]
    exact h.nodup.sublist hsuffix.sublist
  · exact h.linked.suffix ⟨before, by rw [he, List.append_assoc]⟩

/-- A trail that repeats nothing is no longer than what remains. -/
theorem Following.length_le (h : Following callees remaining trail current) :
    trail.length ≤ remaining.length :=
  (List.subperm_of_subset h.nodup h.within).length_le

/-- Where each remaining item has a callee that remains, following callees ends in a cycle. -/
theorem Following.walk (hstuck : ∀ path ∈ remaining, ∃ callee ∈ callees path, callee ∈ remaining)
    (n : Nat) (h : Following callees remaining trail current)
    (hn : remaining.length < n + trail.length) :
    IsCycle (fun path callee => callee ∈ callees path) (walk callees remaining n trail current) ∧
      walk callees remaining (n + 1) trail current = walk callees remaining n trail current := by
  induction n generalizing trail current with
  | zero =>
    have hle := h.length_le
    omega
  | succ n ih =>
    obtain ⟨callee, hc, hr⟩ := hstuck current h.next
    obtain ⟨next, hf⟩ : ∃ next, (callees current).find? remaining.contains = some next := by
      rw [← Option.isSome_iff_exists, List.find?_isSome]
      exact ⟨callee, hc, by simpa using hr⟩
    rw [Graph.walk, Graph.walk]
    by_cases hm : current ∈ trail
    · simp only [List.contains_iff_mem, hm, if_true]
      exact ⟨h.isCycle hm, trivial⟩
    · simp only [List.contains_iff_mem, hm, if_false, hf]
      refine ih (h.step hm hf) ?_
      rw [List.length_append, List.length_singleton]
      omega

end Cycles

section CalleeFirst

variable {callees : String → List String} {rank : String → Int} {paths : List String}

theorem underway_start (callees : String → List String)
    (hs : paths.Pairwise fun a b => rank a < rank b) :
    Underway callees rank paths [] paths :=
  ⟨greedy_nil, by simp, hs⟩

/-- An order that is found lists every path, each as the next ready one. -/
theorem greedy_of_calleeFirst {order : List String} (hs : paths.Pairwise fun a b => rank a < rank b)
    (h : calleeFirst callees paths = .ok order) :
    Greedy (fun path callee => callee ∈ callees path) rank paths order ∧
      ∀ path, path ∈ order ↔ path ∈ paths := by
  obtain ⟨hway, -⟩ := (underway_start callees hs).arrange paths.length (Nat.le_refl _)
  unfold calleeFirst at h
  dsimp only at h
  split at h
  case isTrue he =>
    cases h
    have hnil := List.isEmpty_iff.mp he
    refine ⟨hway.greedy, fun path => ⟨fun hp => hway.greedy.subset hp, fun hp => ?_⟩⟩
    by_contra hnot
    have hrest := (hway.rest path).mpr ⟨hp, hnot⟩
    rw [hnil] at hrest
    exact List.not_mem_nil hrest
  case isFalse => cases h

/-- How the search for a cycle goes among items that are left: each has a callee that is left too, and the
search comes to its end within any bound above their number. -/
structure Search (callees : String → List String) (remaining cycle : List String) : Prop where
  /-- Something is left. -/
  nonempty : remaining ≠ []
  /-- There is always a next callee. -/
  next : ∀ path ∈ remaining, ∃ callee, (callees path).find? remaining.contains = some callee
  /-- The bound plays no part. -/
  ends : ∀ n, remaining.length < n → walk callees remaining n [] (remaining.headD "") = cycle

/-- Without an order there is a cycle, and the search for it ends. -/
theorem isCycle_of_calleeFirst {cycle : List String} (hs : paths.Pairwise fun a b => rank a < rank b)
    (hclosed : ∀ path ∈ paths, ∀ callee ∈ callees path, callee ∈ paths)
    (h : calleeFirst callees paths = .error cycle) :
    IsCycle (fun path callee => callee ∈ callees path) cycle ∧
      ∃ remaining, remaining ⊆ paths ∧ Search callees remaining cycle := by
  obtain ⟨hway, hstuck⟩ := (underway_start callees hs).arrange paths.length (Nat.le_refl _)
  unfold calleeFirst at h
  dsimp only at h
  generalize arrange callees paths.length [] paths = result at hway hstuck h
  obtain ⟨done, remaining⟩ := result
  split at h
  case isTrue => cases h
  case isFalse he =>
    cases h
    have hne : remaining ≠ [] := fun hnil => he (List.isEmpty_iff.mpr hnil)
    -- whatever keeps an item from being ready is left itself
    have hleft : ∀ path ∈ remaining, ∃ callee ∈ callees path, callee ∈ remaining := by
      intro path hp
      obtain ⟨callee, hc, hd⟩ := hstuck path hp
      exact ⟨callee, hc, (hway.rest callee).mpr ⟨hclosed path ((hway.rest path).mp hp).1 callee hc, hd⟩⟩
    have hstart : Following callees remaining [] (remaining.headD "") := by
      refine ⟨List.nodup_nil, List.nil_subset _, ?_, List.isChain_singleton _⟩
      cases remaining with
      | nil => exact absurd rfl hne
      | cons path rest => exact List.mem_cons_self
    have hwalk := fun n (hn : remaining.length < n) => hstart.walk hleft n (by simpa using hn)
    refine ⟨(hwalk _ (Nat.lt_succ_self _)).1, remaining,
      fun path hp => ((hway.rest path).mp hp).1, hne, fun path hp => ?_, fun n hn => ?_⟩
    · obtain ⟨callee, hc, hr⟩ := hleft path hp
      rw [← Option.isSome_iff_exists, List.find?_isSome]
      exact ⟨callee, hc, by simpa using hr⟩
    · induction n, hn using Nat.le_induction with
      | base => rfl
      | succ n hn ih => exact (hwalk n hn).2.trans ih

end CalleeFirst

end Graph

end CrateSafety

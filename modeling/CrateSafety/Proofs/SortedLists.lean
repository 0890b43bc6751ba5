import CrateSafety.Sorting
import Mathlib.Data.List.Sort

/-!
# Sorted lists

The stable sort agrees with insertion sort. It leaves entries that compare alike in their order, and entries
can be left out or mapped before or after sorting.
-/

namespace CrateSafety

namespace Sorting

variable {α β κ : Type} {le : α → α → Bool}

theorem sort_eq_insertionSort (l : List α) :
    sort le l = l.insertionSort fun a b => le a b = true := by
  have hplace : ∀ a (l : List α), place le a l = l.orderedInsert (fun a b => le a b = true) a := by
    intro a l
    induction l with
    | nil => rfl
    | cons b rest ih => rw [place, List.orderedInsert_cons, ih]
  induction l with
  | nil => rfl
  | cons a rest ih => rw [sort, hplace, ih, List.insertionSort_cons]

/-- Entries that compare alike stay in the order in which they came. -/
theorem filter_sort {p : α → Bool} (h : ∀ a b, p a = true → p b = true → le a b = true)
    (l : List α) : (sort le l).filter p = l.filter p := by
  have hsorted : (l.filter p).Pairwise fun a b => le a b = true := by
    refine List.pairwise_of_forall_mem_list fun a ha b hb => ?_
    exact h a b (List.mem_filter.mp ha).2 (List.mem_filter.mp hb).2
  have hsub : (l.filter p).Sublist (sort le l) := by
    rw [sort_eq_insertionSort]
    exact List.sublist_insertionSort hsorted List.filter_sublist
  have hfilter : (l.filter p).Sublist ((sort le l).filter p) := by
    simpa using hsub.filter p
  exact (hfilter.eq_of_length ((sort_perm le l).filter p).symm.length_eq).symm

theorem sort_map (f : α → β) (le : β → β → Bool) (l : List α) :
    sort le (l.map f) = (sort (fun x y => le (f x) (f y)) l).map f := by
  simp only [sort_eq_insertionSort]
  exact (List.map_insertionSort _ _ f l fun _ _ _ _ => Iff.rfl).symm

section Keys

variable [LinearOrder κ]

/-- Sorting by a key brings no entry before one of a smaller key. -/
theorem pairwise_sort_key (key : α → κ) (l : List α) :
    (sort (fun a b => decide (key a ≤ key b)) l).Pairwise fun a b => key a ≤ key b := by
  have htotal : Std.Total fun a b => decide (key a ≤ key b) = true :=
    ⟨fun a b => by simpa only [decide_eq_true_eq] using le_total (key a) (key b)⟩
  have htrans : IsTrans α fun a b => decide (key a ≤ key b) = true :=
    ⟨fun a b c => by simpa only [decide_eq_true_eq] using le_trans⟩
  rw [sort_eq_insertionSort]
  refine (List.pairwise_insertionSort _ l).imp fun hab => ?_
  exact of_decide_eq_true hab

theorem place_of_le (le : α → α → Bool) {a : α} {l : List α} (h : ∀ b ∈ l, le a b = true) :
    place le a l = a :: l := by
  cases l with
  | nil => rfl
  | cons b rest => rw [place, if_pos (h b List.mem_cons_self)]

/-- Entries can be left out of a sorted list before or after one more is placed in it. -/
theorem filter_place (key : α → κ) (p : α → Bool) (a : α) {l : List α}
    (hl : l.Pairwise fun x y => key x ≤ key y) :
    (place (fun x y => decide (key x ≤ key y)) a l).filter p =
      if p a then place (fun x y => decide (key x ≤ key y)) a (l.filter p) else l.filter p := by
  induction l with
  | nil => cases hp : p a <;> simp [place, hp]
  | cons b rest ih =>
    have hb := (List.pairwise_cons.mp hl).1
    have hrest := ih (List.pairwise_cons.mp hl).2
    by_cases hab : key a ≤ key b
    · -- the entry comes before all others, whichever of them are left out
      have hall : ∀ x ∈ (b :: rest).filter p, decide (key a ≤ key x) = true := by
        intro x hx
        have hbx : key b ≤ key x := by
          rcases List.mem_cons.mp (List.mem_of_mem_filter hx) with rfl | hx
          · exact le_rfl
          · exact hb x hx
        exact decide_eq_true (hab.trans hbx)
      have hfirst := place_of_le (fun x y => decide (key x ≤ key y)) hall
      rw [hfirst, place, if_pos (decide_eq_true hab), List.filter_cons]
    · rw [place, if_neg (by simpa using hab), List.filter_cons, List.filter_cons, hrest]
      cases p a <;> cases p b <;> simp [place, hab]

/-- Entries can be left out before or after sorting. -/
theorem filter_sort_key (key : α → κ) (p : α → Bool) (l : List α) :
    (sort (fun x y => decide (key x ≤ key y)) l).filter p =
      sort (fun x y => decide (key x ≤ key y)) (l.filter p) := by
  induction l with
  | nil => rfl
  | cons a rest ih =>
    rw [sort, filter_place key p a (pairwise_sort_key key rest), ih, List.filter_cons]
    split <;> rfl

end Keys

end Sorting

end CrateSafety

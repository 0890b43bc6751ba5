/-!
# Stable sorting

Lists in the order of a comparison. Entries that compare alike stay in the order in which they came.
-/

namespace CrateSafety.Sorting

variable {α : Type}

/-- One entry more in a sorted list, before the first that it may precede. -/
def place (le : α → α → Bool) (a : α) : List α → List α
  | [] => [a]
  | b :: rest => if le a b then a :: b :: rest else b :: place le a rest

/-- The entries in order. -/
def sort (le : α → α → Bool) : List α → List α
  | [] => []
  | a :: rest => place le a (sort le rest)

theorem place_perm (le : α → α → Bool) (a : α) (l : List α) : (place le a l).Perm (a :: l) := by
  induction l with
  | nil => exact .refl _
  | cons b rest ih =>
    rw [place]
    split
    · exact .refl _
    · exact (ih.cons b).trans (.swap a b rest)

/-- Sorting loses nothing and adds nothing. -/
theorem sort_perm (le : α → α → Bool) (l : List α) : (sort le l).Perm l := by
  induction l with
  | nil => exact .refl _
  | cons a rest ih => exact (place_perm le a (sort le rest)).trans (ih.cons a)

@[simp] theorem mem_sort {le : α → α → Bool} {a : α} {l : List α} : a ∈ sort le l ↔ a ∈ l :=
  (sort_perm le l).mem_iff

end CrateSafety.Sorting

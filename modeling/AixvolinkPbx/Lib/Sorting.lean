import Mathlib.Data.List.Sort

/-!
# Sorting with a comparison function

A sort that takes a comparison function promises a sorted list only if the function orders the elements
(`Consistent`); on others it returns some permutation of them (`Contract`). `insertionSort` is the sort
of the language modelled on up to twelve elements.
-/

namespace Sorting

variable {α : Type}

/-- The comparison orders the elements: a strict weak order, in terms of what may stand before what. -/
structure Consistent (cmp : α → α → ℤ) (l : List α) : Prop where
  asymm : ∀ a ∈ l, ∀ b ∈ l, cmp a b < 0 → ¬cmp b a < 0
  trans : ∀ a ∈ l, ∀ b ∈ l, ∀ c ∈ l, ¬cmp b a < 0 → ¬cmp c b < 0 → ¬cmp c a < 0

variable {cmp : α → α → ℤ}

theorem Consistent.of_perm {l l' : List α} (h : Consistent cmp l) (hl : l'.Perm l) :
    Consistent cmp l' := by
  have hsub : ∀ a ∈ l', a ∈ l := fun a ha => hl.mem_iff.mp ha
  exact ⟨fun a ha b hb => h.asymm a (hsub a ha) b (hsub b hb),
    fun a ha b hb c hc => h.trans a (hsub a ha) b (hsub b hb) c (hsub c hc)⟩

/-- What a sort promises. -/
structure Contract (sort : (α → α → ℤ) → List α → List α) : Prop where
  perm : ∀ cmp l, (sort cmp l).Perm l
  sorted : ∀ cmp l, Consistent cmp l → (sort cmp l).Pairwise fun a b => ¬cmp b a < 0

/-- Insertion sort: every element moves down past the elements it comes before. The elements placed so
far are in reverse. -/
def insertionSort (cmp : α → α → ℤ) (l : List α) : List α :=
  (l.foldl (fun placed a => placed.orderedInsert (fun a b => ¬cmp a b < 0) a) []).reverse

theorem insertionSort_eq (cmp : α → α → ℤ) (l : List α) :
    insertionSort cmp l = (l.reverse.insertionSort fun a b => ¬cmp a b < 0).reverse := by
  rw [insertionSort, List.foldl_eq_foldr_reverse]
  rfl

/-- Mathlib's sort by a relation that orders the elements of the list only. -/
theorem Consistent.pairwise_insertionSort {l : List α} (h : Consistent cmp l) :
    (l.insertionSort fun a b => ¬cmp a b < 0).Pairwise fun a b => ¬cmp a b < 0 := by
  let r : {a // a ∈ l} → {a // a ∈ l} → Prop := fun a b => ¬cmp a b < 0
  have htotal : Std.Total r := by
    refine ⟨fun a b => ?_⟩
    by_cases hlt : cmp a b < 0
    · exact .inr (h.asymm a a.2 b b.2 hlt)
    · exact .inl hlt
  have htrans : IsTrans _ r := ⟨fun a b c hab hbc => h.trans c c.2 b b.2 a a.2 hbc hab⟩
  have hsorted := l.attach.pairwise_insertionSort r
  have hmap := List.map_insertionSort r (fun a b => ¬cmp a b < 0) Subtype.val l.attach
    fun a _ b _ => Iff.rfl
  rw [List.attach_map_subtype_val] at hmap
  rw [← hmap, List.pairwise_map]
  exact hsorted

theorem contract_insertionSort : Contract (insertionSort (α := α)) where
  perm cmp l := by
    rw [insertionSort_eq]
    exact ((List.reverse_perm _).trans (List.perm_insertionSort _ _)).trans (List.reverse_perm l)
  sorted cmp l h := by
    rw [insertionSort_eq, List.pairwise_reverse]
    exact (h.of_perm (List.reverse_perm l)).pairwise_insertionSort

/-- The first element of a sorted list: no other comes before it. -/
theorem Contract.head {sort : (α → α → ℤ) → List α → List α}
    (h : Contract sort) {l rest : List α}
    (hl : Consistent cmp l) {a : α} (ha : sort cmp l = a :: rest) :
    ∀ b ∈ l, b = a ∨ ¬cmp b a < 0 := by
  intro b hb
  have hsorted := h.sorted cmp l hl
  have hmem := (h.perm cmp l).mem_iff.mpr hb
  rw [ha] at hsorted hmem
  rcases List.mem_cons.mp hmem with rfl | hrest
  · exact .inl rfl
  · exact .inr ((List.pairwise_cons.mp hsorted).1 b hrest)

open Classical in
/-- Nothing is promised where the comparison does not order the elements. -/
theorem exists_contract {l l' : List α} (h : ¬Consistent cmp l) (hl : l'.Perm l) :
    ∃ sort : (α → α → ℤ) → List α → List α, Contract sort ∧ sort cmp l = l' := by
  refine ⟨fun cmp' m => if cmp' = cmp ∧ m = l then l' else insertionSort cmp' m, ⟨?_, ?_⟩, ?_⟩
  · intro cmp' m
    split_ifs with hsame
    · obtain ⟨rfl, rfl⟩ := hsame
      exact hl
    · exact contract_insertionSort.perm cmp' m
  · intro cmp' m hm
    split_ifs with hsame
    · obtain ⟨rfl, rfl⟩ := hsame
      exact absurd hm h
    · exact contract_insertionSort.sorted cmp' m hm
  · exact if_pos ⟨rfl, rfl⟩

end Sorting

import AixvolinkPbx.Lib.Interleave
import Mathlib.Algebra.Order.Group.Multiset

/-!
# Shares of a multiset

The owners of resources stand in a list; each has a multiset of them as its share, which may depend on
its place in the list. The lemmas say how the sum of all shares moves when one owner changes or a new one
comes, who owns a resource, and that owners of different places share nothing when no resource is there
twice.
-/

section Places

variable {ι M : Type*} [AddCommMonoid M] (f : ℕ → ι → M) {l : List ι} {i : ℕ}

theorem sum_mapIdx_set {a : ι} (b : ι) (h : l[i]? = some a) :
    ((l.set i b).mapIdx f).sum + f i a = (l.mapIdx f).sum + f i b := by
  have hget : (l.mapIdx f)[i]? = some (f i a) := by rw [List.getElem?_mapIdx, h]; rfl
  have hsum := sum_map_set id (f i b) hget
  rwa [List.map_id, List.map_id, ← List.mapIdx_set] at hsum

theorem sum_mapIdx_modify {g : ι → ι} (hg : ∀ a, l[i]? = some a → f i (g a) = f i a) :
    ((l.modify i g).mapIdx f).sum = (l.mapIdx f).sum := by
  rw [List.modify_eq_set_getElem?]
  cases h : l[i]? with
  | none => rfl
  | some a =>
    have hget : (l.mapIdx f)[i]? = some (f i (g a)) := by
      rw [List.getElem?_mapIdx, h, hg a h]
      rfl
    obtain ⟨hlt, heq⟩ := List.getElem?_eq_some_iff.mp hget
    show ((l.set i (g a)).mapIdx f).sum = _
    rw [List.mapIdx_set, ← heq, List.set_getElem_self]

theorem sum_mapIdx_concat (a : ι) :
    ((l ++ [a]).mapIdx f).sum = (l.mapIdx f).sum + f l.length a := by
  rw [List.mapIdx_concat, List.sum_append, List.sum_singleton]

theorem map_modify_of_eq {κ : Type*} {f : ι → κ} {g : ι → ι}
    (hg : ∀ a, l[i]? = some a → f (g a) = f a) : (l.modify i g).map f = l.map f := by
  rw [List.modify_eq_set_getElem?]
  cases h : l[i]? with
  | none => rfl
  | some a => exact map_set_of_eq h (hg a h)

/-- A sum of shares that do not depend on the place, seen through a homomorphism. -/
theorem map_sum_mapIdx {N : Type*} [AddCommMonoid N] (φ : M →+ N) {g : ι → N}
    (hφ : ∀ i a, l[i]? = some a → φ (f i a) = g a) : φ (l.mapIdx f).sum = (l.map g).sum := by
  rw [map_list_sum]
  congr 1
  refine List.ext_getElem? fun i => ?_
  simp only [List.getElem?_map, List.getElem?_mapIdx, Option.map_map]
  cases h : l[i]? with
  | none => rfl
  | some a => exact congrArg some (hφ i a h)

end Places

section Owners

variable {ι α : Type*}

theorem mem_sum_iff {ms : List (Multiset α)} {x : α} : x ∈ ms.sum ↔ ∃ m ∈ ms, x ∈ m := by
  induction ms with
  | nil => simp
  | cons m ms ih => rw [List.sum_cons, Multiset.mem_add, ih, List.exists_mem_cons_iff]

theorem sum_map_coe (f : ι → List α) (l : List ι) :
    (l.map fun a => (↑(f a) : Multiset α)).sum = ↑(l.flatMap f) := by
  induction l with
  | nil => rfl
  | cons a l ih => rw [List.map_cons, List.sum_cons, ih, List.flatMap_cons, Multiset.coe_add]

theorem mem_sum_map {f : ι → Multiset α} {l : List ι} {a : ι} {x : α} (ha : a ∈ l) (hx : x ∈ f a) :
    x ∈ (l.map f).sum := mem_sum_iff.mpr ⟨f a, List.mem_map_of_mem ha, hx⟩

theorem mem_sum_mapIdx {f : ℕ → ι → Multiset α} {l : List ι} {x : α} :
    x ∈ (l.mapIdx f).sum ↔ ∃ i a, l[i]? = some a ∧ x ∈ f i a := by
  rw [mem_sum_iff]
  constructor
  · rintro ⟨m, hm, hx⟩
    obtain ⟨i, hi, rfl⟩ := List.mem_mapIdx.mp hm
    exact ⟨i, l[i], List.getElem?_eq_getElem hi, hx⟩
  · rintro ⟨i, a, hi, hx⟩
    obtain ⟨hlt, rfl⟩ := List.getElem?_eq_some_iff.mp hi
    exact ⟨_, List.mem_mapIdx.mpr ⟨i, hlt, rfl⟩, hx⟩

/-- When nothing is owned twice, the owners of different places share nothing. -/
theorem disjoint_of_nodup_sum [DecidableEq α] {f : ι → Multiset α} {l : List ι} {i j : ℕ} {a b : ι}
    (hnodup : (l.map f).sum.Nodup) (hi : l[i]? = some a) (hj : l[j]? = some b) (hij : i ≠ j) {x : α}
    (ha : x ∈ f a) : x ∉ f b := by
  -- without the share of `a` there is no second `x`
  have hsum := sum_map_set (fun m : Multiset α => m) 0
    (show (l.map f)[i]? = some (f a) by rw [List.getElem?_map, hi]; rfl)
  rw [List.map_id', List.map_id', add_zero] at hsum
  have hj' : ((l.map f).set i 0)[j]? = some (f b) := by
    rw [List.getElem?_set_ne hij, List.getElem?_map, hj]
    rfl
  intro hb
  have hrest : x ∈ ((l.map f).set i 0).sum := mem_sum_iff.mpr ⟨f b, List.mem_of_getElem? hj', hb⟩
  rw [← hsum] at hnodup
  exact Multiset.disjoint_left.mp (Multiset.nodup_add.mp hnodup).2.2 hrest ha

end Owners

import Mathlib.Data.List.AList

/-!
# Finite tables

A table maps finitely many keys to values, like a map of the language modelled: Mathlib's association
lists without repeated keys, with the loop that deletes the entries it finds fit (`deleteIf`). The table
of a database is a list of rows; `updateFirst` updates one of them.
-/

/-- Finite maps from `K` to `V`. -/
abbrev Table (K V : Type) := AList fun _ : K => V

namespace Table

variable {K V : Type}

def size (t : Table K V) : ℕ := t.entries.length

def deleteIf (p : K → V → Bool) (t : Table K V) : Table K V :=
  ⟨t.entries.filter fun s => !p s.1 s.2, t.nodupKeys.sublist (List.filter_sublist)⟩

variable {t : Table K V} {p : K → V → Bool}

theorem mem_entries_deleteIf {s : Sigma fun _ : K => V} :
    s ∈ (deleteIf p t).entries ↔ s ∈ t.entries ∧ p s.1 s.2 = false := by
  simp [deleteIf]

theorem size_deleteIf_le (p : K → V → Bool) (t : Table K V) : (deleteIf p t).size ≤ t.size :=
  List.length_filter_le _ _

/-- A loop that leaves the table as long as it was has found nothing to delete. -/
theorem forall_of_size_deleteIf (h : t.size ≤ (deleteIf p t).size) :
    ∀ s ∈ t.entries, p s.1 s.2 = false := by
  intro s hs
  have hlength : (t.entries.filter fun s => !p s.1 s.2).length = t.entries.length :=
    le_antisymm (List.length_filter_le _ _) h
  simpa using List.length_filter_eq_length_iff.mp hlength s hs

variable [DecidableEq K] {k : K} {v : V}

theorem lookup_eq_some :
    t.lookup k = some v ↔ ⟨k, v⟩ ∈ t.entries := AList.mem_lookup_iff

theorem lookup_deleteIf_eq_some :
    (deleteIf p t).lookup k = some v ↔ t.lookup k = some v ∧ p k v = false := by
  rw [lookup_eq_some, lookup_eq_some, mem_entries_deleteIf]

def values (t : Table K V) : List V := t.entries.map Sigma.snd

theorem mem_values : v ∈ t.values ↔ ∃ k, t.lookup k = some v := by
  constructor
  · intro h
    obtain ⟨⟨k, v⟩, hmem, rfl⟩ := List.mem_map.mp h
    exact ⟨k, lookup_eq_some.mpr hmem⟩
  · rintro ⟨k, hk⟩
    exact List.mem_map.mpr ⟨⟨k, v⟩, lookup_eq_some.mp hk, rfl⟩

theorem values_insert (t : Table K V) (k : K) (v : V) :
    values (t.insert k v) = v :: values (t.erase k) := by
  rw [values, AList.entries_insert, List.map_cons]
  rfl

theorem values_erase_of_none (h : t.lookup k = none) :
    values (t.erase k) = t.values := by
  show (List.kerase k t.entries).map Sigma.snd = t.entries.map Sigma.snd
  rw [List.kerase_of_notMem_keys]
  exact AList.lookup_eq_none.mp h

theorem values_perm_of_some (h : t.lookup k = some v) :
    t.values.Perm (v :: values (t.erase k)) := by
  have hmem : k ∈ t.entries.keys := AList.lookup_isSome.mp (by rw [h]; rfl)
  obtain ⟨v', before, after, hbefore, hentries, herase⟩ := List.exists_of_kerase hmem
  obtain rfl : v' = v := by
    have : t.lookup k = some v' := by
      rw [lookup_eq_some, hentries]
      exact List.mem_append_right _ List.mem_cons_self
    exact Option.some.inj (this.symm.trans h)
  have hvalues : values (t.erase k) = (before ++ after).map Sigma.snd := congrArg _ herase
  rw [hvalues, values, hentries, List.map_append, List.map_append, List.map_cons]
  exact List.perm_middle

omit [DecidableEq K] in
theorem size_eq_length_values (t : Table K V) : t.size = t.values.length :=
  (List.length_map _).symm

theorem size_insert_of_none (h : t.lookup k = none) (v : V) :
    size (t.insert k v) = t.size + 1 := by
  rw [size_eq_length_values, values_insert, values_erase_of_none h, List.length_cons,
    size_eq_length_values]

theorem size_insert_of_some (h : t.lookup k = some v) (v' : V) :
    size (t.insert k v') = t.size := by
  rw [size_eq_length_values, values_insert, size_eq_length_values, (values_perm_of_some h).length_eq,
    List.length_cons, List.length_cons]

end Table

/-! ## Tables of a database -/

/-- Update the first row that satisfies `p`, if there is one. -/
def updateFirst {α : Type} (p : α → Bool) (u : α → α) : List α → Option (List α)
  | [] => none
  | a :: l => if p a then some (u a :: l) else (updateFirst p u l).map (a :: ·)

section UpdateFirst

variable {α β : Type} {p : α → Bool} {u : α → α} {l l' : List α}

theorem updateFirst_eq_none : updateFirst p u l = none ↔ ∀ a ∈ l, p a = false := by
  induction l with
  | nil => simp [updateFirst]
  | cons a l ih =>
    rw [updateFirst]
    split_ifs with ha
    · simp [ha]
    · simp [ha, ih]

theorem updateFirst_eq_some (h : updateFirst p u l = some l') :
    ∃ a rest, p a = true ∧ l.Perm (a :: rest) ∧ l'.Perm (u a :: rest) := by
  induction l generalizing l' with
  | nil => cases h
  | cons b l ih =>
    rw [updateFirst] at h
    split_ifs at h with hb
    · cases h
      exact ⟨b, l, hb, .refl _, .refl _⟩
    · obtain ⟨l'', hl'', rfl⟩ := Option.map_eq_some_iff.mp h
      obtain ⟨a, rest, ha, hperm, hperm'⟩ := ih hl''
      exact ⟨a, b :: rest, ha, (hperm.cons b).trans (.swap ..), (hperm'.cons b).trans (.swap ..)⟩

theorem updateFirst_map (f : α → β) {q : β → Bool} {w : β → β}
    (hp : ∀ a ∈ l, q (f a) = p a) (hu : ∀ a ∈ l, p a = true → w (f a) = f (u a)) :
    updateFirst q w (l.map f) = (updateFirst p u l).map (List.map f) := by
  induction l with
  | nil => rfl
  | cons a l ih =>
    obtain ⟨hpa, hp⟩ := List.forall_mem_cons.mp hp
    obtain ⟨hua, hu⟩ := List.forall_mem_cons.mp hu
    rw [List.map_cons, updateFirst, updateFirst, hpa, ih hp hu]
    split_ifs with ha
    · rw [hua ha]
      rfl
    · cases updateFirst p u l <;> rfl

end UpdateFirst

import AixvolinkPbx.Registration.Equivalence
import Mathlib.Data.List.Induction

/-!
# The binding limit of the durable store

Every address of record has at most as many active rows as it may have devices, however refreshes,
returns of expired contacts, removals and cleanups follow one another (`binding_limit`).

1. `Indexed` is what the unique key of the table guarantees: the rows are those of bindings of different
   contacts.
2. `activeRows_insertRow_le` is the one place where the count can grow: the row of a contact that had
   no active one.
3. `Within` bounds the count at the current time and so at every later one (`activeRows_anti`); each
   call keeps it.
-/

namespace AixvolinkPbx.Registration

variable {H T : Type} {D : Database H T}

/-- The number of rows of an address of record that have not expired. -/
def activeRows (rows : List (Row H T)) (tenantID aor : String) (now : ℤ) : ℕ :=
  rows.countP (Database.active tenantID aor now)

/-! ## Rows with a unique key -/

/-- The rows are those of bindings of different contacts. -/
def Indexed (D : Database H T) (rows : List (Row H T)) : Prop :=
  ∃ bindings : List Binding, rows = bindings.map D.row ∧ (bindings.map Binding.key).Nodup

section Rows

variable {rows : List (Row H T)} {binding : Binding} {tenantID aor : String} {now now' : ℤ}

theorem indexed_nil : Indexed D [] := ⟨[], rfl, List.nodup_nil⟩

theorem Indexed.filter (h : Indexed D rows) (p : Row H T → Bool) : Indexed D (rows.filter p) := by
  obtain ⟨bindings, rfl, hnodup⟩ := h
  refine ⟨bindings.filter (p ∘ D.row), List.filter_map, ?_⟩
  exact hnodup.sublist (List.filter_sublist.map Binding.key)

theorem activeRows_filter_le (p : Row H T → Bool) :
    activeRows (rows.filter p) tenantID aor now ≤ activeRows rows tenantID aor now :=
  List.filter_sublist.countP_le

/-- Rows expire, they do not come back by waiting. -/
theorem activeRows_anti (h : now ≤ now') :
    activeRows rows tenantID aor now' ≤ activeRows rows tenantID aor now := by
  refine List.countP_mono_left fun r _ hr => ?_
  simp only [Database.active, Bool.and_eq_true, decide_eq_true_eq] at hr ⊢
  exact ⟨hr.1, lt_of_le_of_lt h hr.2⟩

theorem activeRows_map (bindings : List Binding) : activeRows (bindings.map D.row) tenantID aor now =
    bindings.countP fun b => b.activeFor tenantID aor now := by
  rw [activeRows, List.countP_map]
  rfl

variable [DecidableEq H]

theorem Indexed.insertRow (hhash : Function.Injective D.hash) (h : Indexed D rows)
    (hfresh : ∀ r ∈ rows, r.registrationID ≠ binding.id) :
    Indexed D (Database.insertRow rows (D.row binding)) := by
  obtain ⟨bindings, rfl, hnodup⟩ := h
  have hother : ∀ old ∈ bindings, old.id = binding.id → old.key = binding.key :=
    fun old hold hid => absurd hid (hfresh _ (List.mem_map_of_mem hold))
  refine ⟨storeBinding bindings binding, insertRow_map hhash hother, ?_⟩
  have hperm := (storeBinding_perm hnodup hother).map Binding.key
  rw [hperm.nodup_iff, List.map_cons, List.nodup_cons]
  constructor
  · intro hmem
    obtain ⟨b, hb, hkey⟩ := List.mem_map.mp hmem
    exact of_decide_eq_true (List.mem_filter.mp hb).2 hkey
  · exact hnodup.sublist (List.filter_sublist.map Binding.key)

/-- The row of a binding replaces the one of its contact. The count of its address grows by one at most,
and not at all if the contact had an active row. -/
theorem activeRows_insertRow_le (hhash : Function.Injective D.hash) (h : Indexed D rows)
    (hfresh : ∀ r ∈ rows, r.registrationID ≠ binding.id) (tenantID aor : String) (now : ℤ) :
    activeRows (Database.insertRow rows (D.row binding)) tenantID aor now +
        (rows.countP fun r =>
          Database.active tenantID aor now r && Database.sameUnique (D.row binding) r) ≤
      activeRows rows tenantID aor now +
        (if binding.tenantID = tenantID ∧ binding.aor = aor then 1 else 0) := by
  obtain ⟨bindings, rfl, hnodup⟩ := h
  have hother : ∀ old ∈ bindings, old.id = binding.id → old.key = binding.key :=
    fun old hold hid => absurd hid (hfresh _ (List.mem_map_of_mem hold))
  have hperm := storeBinding_perm hnodup hother
  have hsame : ∀ b : Binding, Database.sameUnique (D.row binding) (D.row b) =
      decide (b.key = binding.key) := by
    intro b
    rw [Bool.eq_iff_iff, sameUnique_iff hhash b, decide_eq_true_iff]
  -- the bindings of the address, with and without the one of the contact
  have hsplit : bindings.countP (fun b => b.activeFor tenantID aor now) =
      (bindings.filter fun b => b.key ≠ binding.key).countP (fun b => b.activeFor tenantID aor now) +
        bindings.countP fun b => b.activeFor tenantID aor now && decide (b.key = binding.key) := by
    rw [List.countP_eq_countP_filter_add _ _ fun b => decide (b.key ≠ binding.key),
      List.countP_filter (l := bindings) (q := fun b => !decide (b.key ≠ binding.key))]
    simp
  have hnew : (if binding.activeFor tenantID aor now = true then 1 else 0) ≤
      if binding.tenantID = tenantID ∧ binding.aor = aor then 1 else 0 := by
    rw [Binding.activeFor]
    split_ifs with hactive haddress
    · exact le_refl 1
    · simp only [Bool.and_eq_true, decide_eq_true_eq] at hactive
      exact absurd hactive.1 haddress
    · exact Nat.zero_le 1
    · exact le_refl 0
  have hcontact : ((bindings.map D.row).countP fun r =>
      Database.active tenantID aor now r && Database.sameUnique (D.row binding) r) =
      bindings.countP fun b => b.activeFor tenantID aor now && decide (b.key = binding.key) := by
    rw [List.countP_map]
    refine List.countP_congr fun b _ => ?_
    show (_ && Database.sameUnique (D.row binding) (D.row b)) = true ↔ _
    rw [hsame]
    rfl
  rw [insertRow_map hhash hother, activeRows_map, activeRows_map, hcontact, hperm.countP_eq,
    List.countP_cons]
  omega

/-- A contact has an active row exactly if a row with its unique key is locked. -/
theorem Indexed.contactExists_iff (hhash : Function.Injective D.hash) (h : Indexed D rows)
    (binding : Binding) :
    ((Database.locked rows binding).any fun r => r.contact = binding.contact) = true ↔
      0 < rows.countP fun r => Database.active binding.tenantID binding.aor binding.updatedAt r &&
        Database.sameUnique (D.row binding) r := by
  obtain ⟨bindings, rfl, -⟩ := h
  rw [List.countP_pos_iff, List.any_eq_true]
  refine exists_congr fun r => ?_
  rw [Database.locked, List.mem_filter, and_assoc]
  refine and_congr_right fun hr => ?_
  obtain ⟨b, -, rfl⟩ := List.mem_map.mp hr
  rw [Bool.and_eq_true, sameUnique_iff hhash b]
  refine and_congr_right fun hactive => ?_
  have hactive : b.activeFor binding.tenantID binding.aor binding.updatedAt = true := hactive
  simp only [Binding.activeFor, Bool.and_eq_true, decide_eq_true_eq] at hactive
  show decide (b.contact = binding.contact) = true ↔ b.key = binding.key
  rw [decide_eq_true_iff, Binding.key, Binding.key, BindingKey.mk.injEq]
  simp [hactive]

end Rows

/-! ## Calls -/

/-- No address of record has more than `M` active rows at the time `now`. -/
structure Within (D : Database H T) (M now : ℤ) (rows : List (Row H T)) : Prop where
  indexed : Indexed D rows
  limit : ∀ tenantID aor, (activeRows rows tenantID aor now : ℤ) ≤ M

section Calls

variable {rows : List (Row H T)} {binding : Binding} {M now now' : ℤ}

theorem Within.mono (h : Within D M now rows) (hle : now ≤ now') : Within D M now' rows := by
  refine ⟨h.indexed, fun tenantID aor => le_trans ?_ (h.limit tenantID aor)⟩
  exact_mod_cast activeRows_anti hle

theorem Within.filter (h : Within D M now rows) (p : Row H T → Bool) :
    Within D M now (rows.filter p) := by
  refine ⟨h.indexed.filter p, fun tenantID aor => le_trans ?_ (h.limit tenantID aor)⟩
  exact_mod_cast activeRows_filter_le p

theorem length_locked (rows : List (Row H T)) (binding : Binding) :
    (Database.locked rows binding).length =
      activeRows rows binding.tenantID binding.aor binding.updatedAt :=
  List.countP_eq_length_filter.symm

variable [DecidableEq H]

/-- `Upsert` keeps the limit at its own time: only the binding of a contact without an active row adds
one, and then there is room. -/
theorem Within.upsert (hhash : Function.Injective D.hash) (h : Within D M binding.updatedAt rows)
    (hfresh : ∀ r ∈ rows, r.registrationID ≠ binding.id) :
    Within D M binding.updatedAt (D.upsert rows binding M).2 := by
  have hcontact := h.indexed.contactExists_iff hhash binding
  rw [Database.upsert, length_locked]
  split_ifs with hlimit hholds
  · exact h
  · refine ⟨h.indexed.insertRow hhash hfresh, fun tenantID aor => ?_⟩
    show (activeRows (Database.insertRow rows (D.row binding)) tenantID aor binding.updatedAt : ℤ) ≤ M
    have hcount := activeRows_insertRow_le hhash h.indexed hfresh tenantID aor binding.updatedAt
    have hbefore := h.limit tenantID aor
    split_ifs at hcount with haddress
    · obtain ⟨rfl, rfl⟩ := haddress
      by_cases hexists :
          ((Database.locked rows binding).any fun r => r.contact = binding.contact) = true
      · have := hcontact.mp hexists
        omega
      · have hroom : ¬ M ≤ activeRows rows binding.tenantID binding.aor binding.updatedAt := by
          rw [Bool.not_eq_true] at hexists
          rw [hexists] at hlimit
          simpa using hlimit
        omega
    · omega
  · exact h

/-- `Upsert` refuses a binding exactly if its contact has no active row and the address is full. -/
theorem Within.upsert_eq_bindingLimit_iff (h : Within D M binding.updatedAt rows) :
    (D.upsert rows binding M).1 = .error .bindingLimit ↔
      (∀ r ∈ rows, Database.active binding.tenantID binding.aor binding.updatedAt r = true →
        r.contact ≠ binding.contact) ∧
      (activeRows rows binding.tenantID binding.aor binding.updatedAt : ℤ) = M := by
  have hbefore := h.limit binding.tenantID binding.aor
  have hexists : (!((Database.locked rows binding).any fun r => r.contact = binding.contact)) = true ↔
      ∀ r ∈ rows, Database.active binding.tenantID binding.aor binding.updatedAt r = true →
        r.contact ≠ binding.contact := by
    simp [Database.locked]
  rw [← hexists, Database.upsert, length_locked]
  split_ifs with hlimit hholds
  · simp only [true_iff]
    exact ⟨hlimit.1, le_antisymm hbefore hlimit.2⟩
  · simp only [false_iff]
    exact fun hfull => hlimit ⟨hfull.1, hfull.2.ge⟩
  · simp only [Except.error.injEq, reduceCtorEq, false_iff]
    exact fun hfull => hlimit ⟨hfull.1, hfull.2.ge⟩

theorem upsert_eq_of_bindingLimit {maxBindings : ℤ}
    (h : (D.upsert rows binding maxBindings).1 = .error .bindingLimit) :
    (D.upsert rows binding maxBindings).2 = rows := by
  rw [Database.upsert] at h ⊢
  split_ifs at h ⊢ with hlimit hholds
  · rfl
  · rfl

end Calls

/-! ## Runs -/

/-- A run of calls with times that do not decrease, one limit for all, and fresh registration IDs. -/
structure Orderly (D : Database H T) [DecidableEq H] (M : ℤ) (calls : List StoreCall) : Prop where
  times : (calls.filterMap StoreCall.time).Pairwise (· ≤ ·)
  constant : ∀ binding maxBindings, .upsert binding maxBindings ∈ calls → maxBindings = M
  fresh : ∀ pre binding maxBindings post, calls = pre ++ .upsert binding maxBindings :: post →
    ∀ r ∈ D.after [] pre, r.registrationID ≠ binding.id

section Runs

variable [DecidableEq H] {M now : ℤ} {calls pre post : List StoreCall} {c : StoreCall}

theorem after_concat (rows : List (Row H T)) (calls : List StoreCall) (c : StoreCall) :
    D.after rows (calls ++ [c]) = (D.call (D.after rows calls) c).2 := by
  simp [Database.after]

theorem Orderly.left (h : Orderly D M (pre ++ post)) : Orderly D M pre := by
  refine ⟨?_, fun b m hb => h.constant b m (List.mem_append_left _ hb), fun pre' b m post' heq => ?_⟩
  · have htimes := h.times
    rw [List.filterMap_append] at htimes
    exact (List.pairwise_append.mp htimes).1
  · exact h.fresh pre' b m (post' ++ post) (by rw [heq]; simp)

theorem orderly_nil : Orderly D M [] := ⟨.nil, by simp, by simp⟩

theorem Orderly.concat (h : Orderly D M calls)
    (htime : ∀ v ∈ c.time, ∀ u ∈ calls.filterMap StoreCall.time, u ≤ v)
    (hupsert : ∀ binding maxBindings, c = .upsert binding maxBindings →
      maxBindings = M ∧ ∀ r ∈ D.after [] calls, r.registrationID ≠ binding.id) :
    Orderly D M (calls ++ [c]) := by
  refine ⟨?_, fun b m hb => ?_, fun pre b m post heq => ?_⟩
  · rw [List.filterMap_append, List.pairwise_append]
    refine ⟨h.times, ?_, fun u hu v hv => htime v (by simpa using hv) u hu⟩
    cases hc : c.time with
    | none => simp [hc]
    | some v => simp [hc]
  · rcases List.mem_append.mp hb with hb | hb
    · exact h.constant b m hb
    · exact (hupsert b m (List.mem_singleton.mp hb).symm).1
  · rcases List.eq_nil_or_concat post with rfl | ⟨post, c', rfl⟩
    · obtain ⟨rfl, hc⟩ := List.append_inj' heq rfl
      exact (hupsert b m (List.singleton_inj.mp hc)).2
    · rw [List.concat_eq_append, ← List.cons_append, ← List.append_assoc] at heq
      exact h.fresh pre b m post (List.append_inj_left' heq rfl)

theorem Orderly.le_time (h : Orderly D M (pre ++ c :: post)) {u : ℤ} (hu : c.time = some u) :
    ∀ v ∈ pre.filterMap StoreCall.time, v ≤ u := by
  intro v hv
  have htimes := h.times
  rw [List.filterMap_append, List.filterMap_cons_some hu] at htimes
  exact (List.pairwise_append.mp htimes).2.2 v hv u List.mem_cons_self

/-- The limit holds after a run, at every time from then on. -/
theorem Orderly.within (hhash : Function.Injective D.hash) (hM : 0 ≤ M) (h : Orderly D M calls)
    (hnow : ∀ u ∈ calls.filterMap StoreCall.time, u ≤ now) :
    Within D M now (D.after [] calls) := by
  induction calls using List.reverseRecOn generalizing now with
  | nil => exact ⟨indexed_nil, fun _ _ => hM⟩
  | append_singleton calls c ih =>
    have hpast : ∀ u ∈ calls.filterMap StoreCall.time, u ≤ now := by
      intro u hu
      refine hnow u ?_
      rw [List.filterMap_append]
      exact List.mem_append_left _ hu
    have hwithin := ih h.left hpast
    rw [after_concat]
    cases c with
    | upsert binding maxBindings =>
      obtain rfl : maxBindings = M := h.constant binding maxBindings (by simp)
      have hupsert := (ih h.left (h.le_time rfl)).upsert hhash (h.fresh calls binding _ [] rfl)
      exact hupsert.mono (hnow _ (by simp [StoreCall.time]))
    | delete => exact hwithin.filter _
    | deleteAll tenantID aor => exact hwithin.filter _
    | listActive => exact hwithin
    | deleteExpired time => exact hwithin.filter _

end Runs

/-- After every part of an orderly run, at every time from then on, no address of record has more than
`M` active rows; and each `Upsert` of the run returns the limit error exactly if its contact has no
active row and the address has `M` of them, and then leaves the table as it was. -/
theorem binding_limit [DecidableEq H] (hhash : Function.Injective D.hash) {M : ℤ} (hM : 1 ≤ M)
    {calls : List StoreCall} (h : Orderly D M calls) :
    (∀ pre post, calls = pre ++ post → ∀ now, (∀ u ∈ pre.filterMap StoreCall.time, u ≤ now) →
      ∀ tenantID aor, (activeRows (D.after [] pre) tenantID aor now : ℤ) ≤ M) ∧
    ∀ pre binding post, calls = pre ++ .upsert binding M :: post →
      ((D.call (D.after [] pre) (.upsert binding M)).1 = .done (.error .bindingLimit) ↔
        (∀ r ∈ D.after [] pre,
          Database.active binding.tenantID binding.aor binding.updatedAt r = true →
            r.contact ≠ binding.contact) ∧
        (activeRows (D.after [] pre) binding.tenantID binding.aor binding.updatedAt : ℤ) = M) ∧
      ((D.call (D.after [] pre) (.upsert binding M)).1 = .done (.error .bindingLimit) →
        (D.call (D.after [] pre) (.upsert binding M)).2 = D.after [] pre) := by
  have hM : 0 ≤ M := by omega
  constructor
  · rintro pre post rfl now hnow
    exact (h.left.within hhash hM hnow).limit
  · rintro pre binding post rfl
    have hwithin := h.left.within hhash hM (h.le_time rfl)
    constructor
    · rw [← hwithin.upsert_eq_bindingLimit_iff]
      exact StoreResult.done.injEq _ _ ▸ Iff.rfl
    · intro hrefused
      exact upsert_eq_of_bindingLimit (StoreResult.done.inj hrefused)

def secondPhone : Binding := { mobilePhone with updatedAt := 5 }

/-- The second device of an address that may have one is refused, and the table stays as it was. -/
theorem binding_limit_secondPhone :
    (plainDatabase.call (plainDatabase.after [] [.upsert deskPhone 1]) (.upsert secondPhone 1)).1 =
        .done (.error .bindingLimit) ∧
      (plainDatabase.call (plainDatabase.after [] [.upsert deskPhone 1]) (.upsert secondPhone 1)).2 =
        plainDatabase.after [] [.upsert deskPhone 1] ∧
      (activeRows (plainDatabase.after [] [.upsert deskPhone 1, .upsert secondPhone 1])
        "tenant" "sip:alice@example.com" 5 : ℤ) ≤ 1 := by
  have hdesk : Orderly plainDatabase 1 ([] ++ [.upsert deskPhone 1]) := by
    refine orderly_nil.concat (by simp) fun b m heq => ?_
    obtain ⟨rfl, rfl⟩ := StoreCall.upsert.inj heq
    exact ⟨rfl, by decide⟩
  have hboth : Orderly plainDatabase 1 ([.upsert deskPhone 1] ++ [.upsert secondPhone 1]) := by
    refine hdesk.concat (by decide) fun b m heq => ?_
    obtain ⟨rfl, rfl⟩ := StoreCall.upsert.inj heq
    exact ⟨rfl, by decide⟩
  obtain ⟨hlimit, hupsert⟩ := binding_limit plainDatabase_sound.hash_injective (by decide) hboth
  obtain ⟨-, hsame⟩ := hupsert [.upsert deskPhone 1] secondPhone [] rfl
  have hrefused : (plainDatabase.call (plainDatabase.after [] [.upsert deskPhone 1])
      (.upsert secondPhone 1)).1 = .done (.error .bindingLimit) := by decide
  exact ⟨hrefused, hsame hrefused, hlimit _ [] rfl 5 (by decide) _ _⟩

end AixvolinkPbx.Registration

import AixvolinkPbx.Registration.Limit

/-!
# The cleanup of the durable store

`App.Run` calls `Manager.Expire` at every tick, beside the registrations and the calls. What these get
from the store does not depend on it (`cleanup_invisible`): as long as the times of the calls do not
decrease, all other calls have the results they have in the run without any cleanup.

1. `Alike` compares the table that is cleaned up with the one that is not: from the time of the last call
   on, the same rows are unexpired in both.
2. `Upsert` reads unexpired rows only, but writes into any row that has a key of the new one;
   `unexpired_insertRow` says that the unexpired rows after it depend on those before it only.
3. A cleanup changes one table only, and nothing in it that is unexpired (`Alike.cleanup`).
-/

namespace AixvolinkPbx.Registration

variable {H T : Type} {D : Database H T}

def StoreCall.isCleanup : StoreCall → Bool
  | .deleteExpired _ => true
  | _ => false

/-- The registration ID of the binding that is stored. -/
def StoreCall.newID : StoreCall → Option String
  | .upsert binding _ => some binding.id
  | _ => none

def withoutCleanup (calls : List StoreCall) : List StoreCall :=
  calls.filter fun c => !c.isCleanup

/-- The results of the calls other than the cleanup. -/
def Database.observed [DecidableEq H] (D : Database H T) (rows : List (Row H T))
    (calls : List StoreCall) : List StoreResult :=
  ((calls.zip (D.run rows calls)).filter fun p => !p.1.isCleanup).map Prod.snd

/-- The times of the calls do not decrease, and every binding gets an ID of its own. -/
structure Timely (calls : List StoreCall) : Prop where
  times : (calls.filterMap StoreCall.time).Pairwise (· ≤ ·)
  fresh : (calls.filterMap StoreCall.newID).Nodup

/-! ## Unexpired rows -/

section Rows

variable {rows rows' : List (Row H T)} {binding : Binding} {now : ℤ}

def unexpired (now : ℤ) (rows : List (Row H T)) : List (Row H T) :=
  rows.filter fun r => now < r.expiresAt

theorem unexpired_filter (p : Row H T → Bool) :
    unexpired now (rows.filter p) = (unexpired now rows).filter p := by
  simp only [unexpired, List.filter_filter, Bool.and_comm]

/-- The active rows of an address are among the unexpired ones. -/
theorem filter_active (rows : List (Row H T)) (tenantID aor : String) (now : ℤ) :
    rows.filter (Database.active tenantID aor now) =
      (unexpired now rows).filter fun r => r.tenantID = tenantID && r.aor = aor := by
  rw [unexpired, List.filter_filter]
  rfl

/-- The `INSERT` puts the row in the place of the one of its contact. -/
theorem Indexed.insertRow_perm [DecidableEq H] (hhash : Function.Injective D.hash) (h : Indexed D rows)
    (hfresh : ∀ r ∈ rows, r.registrationID ≠ binding.id) :
    (Database.insertRow rows (D.row binding)).Perm
      (D.row binding :: rows.filter fun r => !Database.sameUnique (D.row binding) r) := by
  obtain ⟨bindings, rfl, hnodup⟩ := h
  have hother : ∀ old ∈ bindings, old.id = binding.id → old.key = binding.key :=
    fun old hold hid => absurd hid (hfresh _ (List.mem_map_of_mem hold))
  rw [insertRow_map hhash hother, List.filter_map, ← List.map_cons]
  refine ((storeBinding_perm hnodup hother).trans (List.Perm.of_eq ?_)).map _
  refine congrArg _ (List.filter_congr fun b _ => ?_)
  rw [decide_not, Function.comp_apply, Bool.not_inj_iff, Bool.eq_iff_iff, sameUnique_iff hhash b,
    decide_eq_true_iff]

theorem unexpired_insertRow [DecidableEq H] (hhash : Function.Injective D.hash) (h : Indexed D rows)
    (hfresh : ∀ r ∈ rows, r.registrationID ≠ binding.id) :
    (unexpired now (Database.insertRow rows (D.row binding))).Perm (unexpired now [D.row binding] ++
      (unexpired now rows).filter fun r => !Database.sameUnique (D.row binding) r) := by
  rw [← unexpired_filter, unexpired, unexpired, unexpired, ← List.filter_append, List.singleton_append]
  exact (h.insertRow_perm hhash hfresh).filter _

/-- `ListActive` fails if one row does not scan, and reads every row otherwise. -/
theorem mapM_scan_eq (rows : List (Row H T)) : rows.mapM D.scan =
    if rows.all (fun r => (D.parseAddr r.receivedIP).isSome)
    then .ok (rows.filterMap fun r => (D.scan r).toOption) else .error .database := by
  induction rows with
  | nil => rfl
  | cons r rows ih =>
    rw [List.mapM_cons, ih, List.all_cons]
    cases hparse : D.parseAddr r.receivedIP with
    | none =>
      have hscan : D.scan r = .error .database := by rw [Database.scan, hparse]
      rw [hscan]
      rfl
    | some address =>
      obtain ⟨b, hscan⟩ : ∃ b, D.scan r = .ok b := by
        rw [Database.scan, hparse]
        exact ⟨_, rfl⟩
      rw [hscan, List.filterMap_cons_some (b := b) (by rw [hscan]; rfl)]
      simp only [Option.isSome_some, Bool.true_and]
      split_ifs <;> rfl

theorem same_mapM_scan (h : rows.Perm rows') :
    StoreResult.Same (.listed (rows.mapM D.scan)) (.listed (rows'.mapM D.scan)) := by
  rw [mapM_scan_eq, mapM_scan_eq, h.all_eq]
  split_ifs
  · exact h.filterMap _
  · rfl

end Rows

/-! ## The two tables -/

/-- The rows of a table after some calls: no two of one contact, and each from one of the calls. -/
structure Filed (D : Database H T) (pre : List StoreCall) (rows : List (Row H T)) : Prop where
  indexed : Indexed D rows
  ids : ∀ r ∈ rows, r.registrationID ∈ pre.filterMap StoreCall.newID

/-- After these calls the two tables have the same unexpired rows, at every time from then on. -/
structure Alike (D : Database H T) (pre : List StoreCall) (rows rows' : List (Row H T)) : Prop where
  left : Filed D pre rows
  right : Filed D pre rows'
  same : ∀ now, (∀ u ∈ pre.filterMap StoreCall.time, u ≤ now) →
    (unexpired now rows).Perm (unexpired now rows')

section Calls

variable {pre calls : List StoreCall} {c : StoreCall} {rows rows' : List (Row H T)} {binding : Binding}
  {maxBindings now : ℤ} {tenantID aor : String}

theorem alike_nil : Alike D [] [] [] :=
  ⟨⟨indexed_nil, by simp⟩, ⟨indexed_nil, by simp⟩, fun _ _ => .refl _⟩

theorem past_concat (h : ∀ u ∈ (pre ++ [c]).filterMap StoreCall.time, u ≤ now) :
    ∀ u ∈ pre.filterMap StoreCall.time, u ≤ now := by
  intro u hu
  refine h u ?_
  rw [List.filterMap_append]
  exact List.mem_append_left _ hu

/-- A call is made at or after the calls before it. -/
theorem Timely.past_le (h : Timely (pre ++ [c])) (hc : c.time = some now) :
    ∀ u ∈ pre.filterMap StoreCall.time, u ≤ now := by
  intro u hu
  have htimes := h.times
  rw [List.filterMap_append, List.pairwise_append] at htimes
  exact htimes.2.2 u hu now (by simp [hc])

theorem Timely.left {post : List StoreCall} (h : Timely (pre ++ post)) : Timely pre := by
  obtain ⟨htimes, hfresh⟩ := h
  rw [List.filterMap_append] at htimes hfresh
  exact ⟨(List.pairwise_append.mp htimes).1, hfresh.of_append_left⟩

theorem Filed.mono (h : Filed D pre rows) : Filed D (pre ++ [c]) rows := by
  refine ⟨h.indexed, fun r hr => ?_⟩
  rw [List.filterMap_append]
  exact List.mem_append_left _ (h.ids r hr)

theorem Filed.filter (h : Filed D pre rows) (p : Row H T → Bool) : Filed D pre (rows.filter p) :=
  ⟨h.indexed.filter p, fun r hr => h.ids r (List.mem_filter.mp hr).1⟩

theorem Filed.fresh (h : Filed D pre rows) (htimely : Timely (pre ++ [.upsert binding maxBindings])) :
    ∀ r ∈ rows, r.registrationID ≠ binding.id := by
  intro r hr hid
  have hfresh := htimely.fresh
  rw [List.filterMap_append] at hfresh
  exact List.disjoint_of_nodup_append hfresh (h.ids r hr) (by simp [StoreCall.newID, hid])

theorem Alike.mono (h : Alike D pre rows rows') : Alike D (pre ++ [c]) rows rows' :=
  ⟨h.left.mono, h.right.mono, fun now hnow => h.same now (past_concat hnow)⟩

theorem Alike.filter (h : Alike D pre rows rows') (p : Row H T → Bool) :
    Alike D pre (rows.filter p) (rows'.filter p) := by
  refine ⟨h.left.filter p, h.right.filter p, fun now hnow => ?_⟩
  rw [unexpired_filter, unexpired_filter]
  exact (h.same now hnow).filter p

theorem Alike.cleanup (h : Alike D pre rows rows') (u : ℤ) :
    Alike D (pre ++ [.deleteExpired u]) (Database.deleteExpired rows u).2 rows' := by
  refine ⟨(h.left.filter _).mono, h.right.mono, fun now hnow => ?_⟩
  have hu : u ≤ now := hnow u (by simp [StoreCall.time])
  refine (List.Perm.of_eq ?_).trans (h.same now (past_concat hnow))
  rw [Database.deleteExpired, unexpired_filter]
  refine List.filter_eq_self.mpr fun r hr => ?_
  have hr : now < r.expiresAt := of_decide_eq_true (List.mem_filter.mp hr).2
  simpa using lt_of_le_of_lt hu hr

theorem Alike.active (h : Alike D pre rows rows') (hnow : ∀ u ∈ pre.filterMap StoreCall.time, u ≤ now) :
    (rows.filter (Database.active tenantID aor now)).Perm
      (rows'.filter (Database.active tenantID aor now)) := by
  rw [filter_active, filter_active]
  exact (h.same now hnow).filter _

variable [DecidableEq H] (hhash : Function.Injective D.hash)
include hhash

theorem Filed.insertRow (h : Filed D pre rows)
    (htimely : Timely (pre ++ [.upsert binding maxBindings])) :
    Filed D (pre ++ [.upsert binding maxBindings]) (Database.insertRow rows (D.row binding)) := by
  have hfresh := h.fresh htimely
  refine ⟨h.indexed.insertRow hhash hfresh, fun r hr => ?_⟩
  rcases List.mem_cons.mp ((h.indexed.insertRow_perm hhash hfresh).mem_iff.mp hr) with rfl | hr
  · simp [StoreCall.newID, Database.row]
  · exact h.mono.ids r (List.mem_filter.mp hr).1

theorem Alike.insertRow (h : Alike D pre rows rows')
    (htimely : Timely (pre ++ [.upsert binding maxBindings])) :
    Alike D (pre ++ [.upsert binding maxBindings]) (Database.insertRow rows (D.row binding))
      (Database.insertRow rows' (D.row binding)) := by
  refine ⟨h.left.insertRow hhash htimely, h.right.insertRow hhash htimely, fun now hnow => ?_⟩
  have hbefore := ((h.same now (past_concat hnow)).filter fun r =>
    !Database.sameUnique (D.row binding) r).append_left (unexpired now [D.row binding])
  exact (unexpired_insertRow hhash h.left.indexed (h.left.fresh htimely)).trans
    (hbefore.trans (unexpired_insertRow hhash h.right.indexed (h.right.fresh htimely)).symm)

theorem Alike.upsert (h : Alike D pre rows rows')
    (htimely : Timely (pre ++ [.upsert binding maxBindings])) :
    (D.upsert rows binding maxBindings).1 = (D.upsert rows' binding maxBindings).1 ∧
      Alike D (pre ++ [.upsert binding maxBindings]) (D.upsert rows binding maxBindings).2
        (D.upsert rows' binding maxBindings).2 := by
  have hlocked : (Database.locked rows binding).Perm (Database.locked rows' binding) :=
    h.active (htimely.past_le rfl)
  have hcontact : ((Database.locked rows binding).any fun r => r.contact = binding.contact) =
      (Database.locked rows' binding).any fun r => r.contact = binding.contact := hlocked.any_eq
  rw [Database.upsert, Database.upsert, hcontact, hlocked.length_eq]
  split_ifs
  · exact ⟨rfl, h.mono⟩
  · exact ⟨rfl, h.insertRow hhash htimely⟩
  · exact ⟨rfl, h.mono⟩

theorem Alike.call (h : Alike D pre rows rows')
    (htimely : Timely (pre ++ [c])) (hc : c.isCleanup = false) :
    (D.call rows c).1.Same (D.call rows' c).1 ∧
      Alike D (pre ++ [c]) (D.call rows c).2 (D.call rows' c).2 := by
  cases c with
  | upsert binding maxBindings => exact h.upsert hhash htimely
  | delete => exact ⟨rfl, (h.filter _).mono⟩
  | deleteAll tenantID aor => exact ⟨rfl, (h.filter _).mono⟩
  | listActive => exact ⟨same_mapM_scan (h.active (htimely.past_le rfl)), h.mono⟩
  | deleteExpired now => cases hc

/-- The tables stay alike, and the calls other than the cleanup have the same results. -/
theorem Alike.run (h : Alike D pre rows rows') (htimely : Timely (pre ++ calls)) :
    List.Forall₂ StoreResult.Same (D.observed rows calls) (D.run rows' (withoutCleanup calls)) ∧
      Alike D (pre ++ calls) (D.after rows calls) (D.after rows' (withoutCleanup calls)) := by
  induction calls generalizing pre rows rows' with
  | nil => exact ⟨.nil, by rwa [List.append_nil]⟩
  | cons c calls ih =>
    rw [← List.singleton_append, ← List.append_assoc] at htimely ⊢
    cases hc : c.isCleanup with
    | true =>
      obtain ⟨u, rfl⟩ : ∃ u, c = .deleteExpired u := by
        cases c with
        | deleteExpired u => exact ⟨u, rfl⟩
        | _ => cases hc
      exact ih (h.cleanup u) htimely
    | false =>
      obtain ⟨hsame, halike⟩ := h.call hhash htimely.left hc
      obtain ⟨hresults, hafter⟩ := ih halike htimely
      have hwithout : withoutCleanup (c :: calls) = c :: withoutCleanup calls :=
        List.filter_cons_of_pos (by simp [hc])
      have hobserved : D.observed rows (c :: calls) =
          (D.call rows c).1 :: D.observed (D.call rows c).2 calls := by
        rw [Database.observed, Database.run, List.zip_cons_cons,
          List.filter_cons_of_pos (by simp [hc])]
        rfl
      rw [List.singleton_append, hwithout, hobserved]
      exact ⟨.cons hsame hresults, hafter⟩

end Calls

/-- In every run of calls with times that do not decrease and bindings with IDs of their own, the calls
other than the cleanup have the results they have without it; and the active rows of every address are
the same after it, at every time from then on. -/
theorem cleanup_invisible [DecidableEq H] (hhash : Function.Injective D.hash) {calls : List StoreCall}
    (h : Timely calls) :
    List.Forall₂ StoreResult.Same (D.observed [] calls) (D.run [] (withoutCleanup calls)) ∧
      ∀ now, (∀ u ∈ calls.filterMap StoreCall.time, u ≤ now) → ∀ tenantID aor,
        ((D.after [] calls).filter (Database.active tenantID aor now)).Perm
          ((D.after [] (withoutCleanup calls)).filter (Database.active tenantID aor now)) := by
  rw [← List.nil_append calls] at h
  obtain ⟨hresults, halike⟩ := alike_nil.run hhash h
  exact ⟨hresults, fun now hnow tenantID aor => halike.active hnow⟩

/-- The mobile phone is refused while the desk phone is registered, and comes again after its row was
removed. -/
def replaced : List StoreCall :=
  [.upsert deskPhone 1, .upsert secondPhone 1, .deleteExpired 10,
    .upsert { mobilePhone with id := "c" } 1]

theorem cleanup_invisible_replaced :
    plainDatabase.observed [] replaced = [.done (.ok ()), .done (.error .bindingLimit), .done (.ok ())] ∧
      (plainDatabase.after [] replaced).length = 1 ∧
      (plainDatabase.after [] (withoutCleanup replaced)).length = 2 ∧
      List.Forall₂ StoreResult.Same (plainDatabase.observed [] replaced)
        (plainDatabase.run [] (withoutCleanup replaced)) :=
  ⟨by decide +kernel, by decide +kernel, by decide +kernel,
    (cleanup_invisible plainDatabase_sound.hash_injective
      ⟨by decide +kernel, by decide +kernel⟩).1⟩

end AixvolinkPbx.Registration

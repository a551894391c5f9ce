import AixvolinkPbx.Registration.Mysql

/-!
# The two registration stores, call by call

The tests run on the store in memory, the server on the one on MySQL. Both keep one binding for each
contact, but they count differently when a contact comes back: the store in memory lets every contact
through that it still has a binding of, even an expired one; MySQL looks at active bindings only.

1. `Related` ties the rows of the table to the bindings in memory; every call keeps it.
2. `limit_iff` compares the decisions of the two `Upsert`: they differ exactly on a contact that comes
   back late to a full address (`Lapsed`).
3. `stores_agree`: in runs without such a call, all results are the same; `late_contact_refused` is a
   run in which they are not.
-/

namespace AixvolinkPbx.Registration

open Table (values)

variable {H T : Type} {D : Database H T}

/-! ## When the stores agree -/

/-- The contact has a binding that has expired, and its address has as many active bindings as it may
have. -/
def Lapsed (s : MemoryStore) (binding : Binding) (maxBindings : ℤ) : Prop :=
  (∃ old, s.lookup binding.key = some old ∧ old.expiresAt ≤ binding.updatedAt) ∧
    maxBindings ≤ s.activeCount binding.tenantID binding.aor binding.updatedAt

/-- The table can store the binding: its ID is not the one of another contact, the columns hold its
values, and its address is valid. -/
structure Storable (D : Database H T) (s : MemoryStore) (binding : Binding) : Prop where
  fresh : ∀ old ∈ values s, old.id = binding.id → old.key = binding.key
  holds : D.holds (D.row binding) = true
  valid : binding.received.addr.isValid = true

/-- The stores agree on this call, made when the store in memory is `s`. -/
def Agreeable (D : Database H T) (s : MemoryStore) : StoreCall → Prop
  | .upsert binding maxBindings => Storable D s binding ∧ ¬ Lapsed s binding maxBindings
  | _ => True

/-- Every call of the run is agreeable when it is made. -/
def AllAgreeable (D : Database H T) : MemoryStore → List StoreCall → Prop
  | _, [] => True
  | s, c :: calls => Agreeable D s c ∧ AllAgreeable D (s.call c).2 calls

/-! ## The store in memory as a list of bindings -/

/-- Every binding is stored under its key, and has a valid address. -/
structure Tidy (s : MemoryStore) : Prop where
  keyed : ∀ k b, s.lookup k = some b → b.key = k
  valid : ∀ k b, s.lookup k = some b → b.received.addr.isValid = true

section Memory

variable {s s' : MemoryStore} {k : BindingKey} {b : Binding} {tenantID aor : String} {now : ℤ}

theorem Tidy.sub (h : Tidy s) (hsub : ∀ k b, s'.lookup k = some b → s.lookup k = some b) : Tidy s' :=
  ⟨fun k b hb => h.keyed k b (hsub k b hb), fun k b hb => h.valid k b (hsub k b hb)⟩

theorem Tidy.lookup_key (h : Tidy s) (hb : b ∈ values s) : s.lookup b.key = some b := by
  obtain ⟨k, hk⟩ := Table.mem_values.mp hb
  rwa [h.keyed k b hk]

theorem Tidy.active_eq (h : Tidy s) {e : Sigma fun _ : BindingKey => Binding} (he : e ∈ s.entries) :
    MemoryStore.active tenantID aor now e.1 e.2 = e.2.activeFor tenantID aor now := by
  obtain ⟨k, b⟩ := e
  have hkey : b.key = k := h.keyed k b (Table.lookup_eq_some.mpr he)
  rw [← hkey]
  rfl

theorem Tidy.activeCount_eq (h : Tidy s) :
    s.activeCount tenantID aor now = (values s).countP fun b => b.activeFor tenantID aor now := by
  rw [MemoryStore.activeCount, values, List.countP_map]
  exact List.countP_congr fun e he => by rw [h.active_eq he]; rfl

theorem Tidy.listActive_eq (h : Tidy s) :
    s.listActive tenantID aor now = (values s).filter fun b => b.activeFor tenantID aor now := by
  rw [MemoryStore.listActive, values, List.filter_map]
  exact congrArg _ (List.filter_congr fun e he => h.active_eq he)

theorem Tidy.insert (h : Tidy s) (hb : b.received.addr.isValid = true) :
    Tidy (s.insert b.key b) := by
  have hlookup : ∀ k b', (s.insert b.key b).lookup k = some b' →
      (k = b.key ∧ b' = b) ∨ s.lookup k = some b' := by
    intro k b' hk
    by_cases hkey : k = b.key
    · rw [hkey, AList.lookup_insert] at hk
      exact .inl ⟨hkey, (Option.some.inj hk).symm⟩
    · rw [AList.lookup_insert_ne hkey] at hk
      exact .inr hk
  refine ⟨fun k b' hk => ?_, fun k b' hk => ?_⟩
  · rcases hlookup k b' hk with ⟨rfl, rfl⟩ | hk
    · rfl
    · exact h.keyed k b' hk
  · rcases hlookup k b' hk with ⟨rfl, rfl⟩ | hk
    · exact hb
    · exact h.valid k b' hk

theorem lookup_erase_some (hk : (s.erase k).lookup b.key = some b) :
    s.lookup b.key = some b ∧ b.key ≠ k := by
  by_cases hkey : b.key = k
  · rw [hkey, AList.lookup_erase] at hk
    cases hk
  · rw [AList.lookup_erase_ne hkey] at hk
    exact ⟨hk, hkey⟩

theorem Tidy.erase (h : Tidy s) (k : BindingKey) : Tidy (s.erase k) := by
  refine h.sub fun k' b hb => ?_
  by_cases hkey : k' = k
  · rw [hkey, AList.lookup_erase] at hb
    cases hb
  · rwa [AList.lookup_erase_ne hkey] at hb

theorem Tidy.deleteIf (h : Tidy s) (p : BindingKey → Binding → Bool) : Tidy (s.deleteIf p) :=
  h.sub fun _ _ hb => (Table.lookup_deleteIf_eq_some.mp hb).1

theorem Tidy.values_deleteIf (h : Tidy s) {p : BindingKey → Binding → Bool} :
    values (s.deleteIf p) = (values s).filter fun b => !p b.key b := by
  rw [values, values, List.filter_map]
  show (s.entries.filter fun e => !p e.1 e.2).map Sigma.snd = _
  refine congrArg _ (List.filter_congr fun e he => ?_)
  obtain ⟨k, b⟩ := e
  have hkey : b.key = k := h.keyed k b (Table.lookup_eq_some.mpr he)
  rw [← hkey]
  rfl

theorem Tidy.values_erase (h : Tidy s) (k : BindingKey) :
    (values (s.erase k)).Perm ((values s).filter fun b => b.key ≠ k) := by
  have hrest : (values (s.erase k)).filter (fun b => b.key ≠ k) = values (s.erase k) := by
    refine List.filter_eq_self.mpr fun b hb => ?_
    have := (lookup_erase_some ((h.erase k).lookup_key hb)).2
    simpa using this
  rcases hk : s.lookup k with _ | old
  · rw [Table.values_erase_of_none hk] at hrest ⊢
    rw [hrest]
  · have hperm := (Table.values_perm_of_some hk).filter fun b => b.key ≠ k
    rw [List.filter_cons_of_neg (by simp [h.keyed k old hk]), hrest] at hperm
    exact hperm.symm

end Memory

/-! ## The table as a list of bindings -/

/-- What the `INSERT` does to the bindings of the rows. -/
def storeBinding (bindings : List Binding) (binding : Binding) : List Binding :=
  ((updateFirst (fun b => b.id = binding.id) (fun _ => binding) bindings).or
    (updateFirst (fun b => b.key = binding.key) (fun _ => binding) bindings)).getD
      (bindings ++ [binding])

section Rows

variable {bindings : List Binding} {binding : Binding}

theorem update_row {b : Binding} (hkey : b.key = binding.key) :
    Database.update (D.row binding) (D.row b) = D.row binding := by
  simp only [Binding.key, BindingKey.mk.injEq] at hkey
  simp [Database.update, Database.row, hkey]

theorem sameUnique_iff [DecidableEq H] (hhash : Function.Injective D.hash) (b : Binding) :
    Database.sameUnique (D.row binding) (D.row b) = true ↔ b.key = binding.key := by
  rw [Database.sameUnique, Bool.and_eq_true, Bool.and_eq_true, decide_eq_true_iff,
    decide_eq_true_iff, decide_eq_true_iff, Binding.key, Binding.key, BindingKey.mk.injEq, and_assoc]
  show b.tenantID = binding.tenantID ∧ b.aor = binding.aor ∧
    D.hash b.contact = D.hash binding.contact ↔ _
  rw [hhash.eq_iff]

theorem insertRow_map [DecidableEq H] (hhash : Function.Injective D.hash)
    (hfresh : ∀ old ∈ bindings, old.id = binding.id → old.key = binding.key) :
    Database.insertRow (bindings.map D.row) (D.row binding) =
      (storeBinding bindings binding).map D.row := by
  have hprimary := updateFirst_map (l := bindings) (p := fun b => b.id = binding.id)
    (u := fun _ => binding) D.row (q := Database.samePrimary (D.row binding))
    (w := Database.update (D.row binding)) (fun b _ => rfl)
    (fun b hb hid => update_row (hfresh b hb (of_decide_eq_true hid)))
  have hunique := updateFirst_map (l := bindings) (p := fun b => b.key = binding.key)
    (u := fun _ => binding) D.row (q := Database.sameUnique (D.row binding))
    (w := Database.update (D.row binding))
    (fun b _ => Bool.eq_iff_iff.mpr ((sameUnique_iff hhash b).trans (by simp)))
    (fun b _ hkey => update_row (of_decide_eq_true hkey))
  rw [Database.insertRow, hprimary, hunique, storeBinding]
  cases updateFirst (fun b => decide (b.id = binding.id)) (fun _ => binding) bindings with
  | some bindings' => rfl
  | none =>
    cases updateFirst (fun b => decide (b.key = binding.key)) (fun _ => binding) bindings with
    | some bindings' => rfl
    | none => simp

/-- The binding takes the place of the one with its key. -/
theorem storeBinding_perm (hnodup : (bindings.map Binding.key).Nodup)
    (hfresh : ∀ old ∈ bindings, old.id = binding.id → old.key = binding.key) :
    (storeBinding bindings binding).Perm
      (binding :: bindings.filter fun b => b.key ≠ binding.key) := by
  -- the row that is updated is the one of the contact
  have replaced : ∀ {p : Binding → Bool} {bindings' : List Binding},
      (∀ b ∈ bindings, p b = true → b.key = binding.key) →
      updateFirst p (fun _ => binding) bindings = some bindings' →
      bindings'.Perm (binding :: bindings.filter fun b => b.key ≠ binding.key) := by
    intro p bindings' hp hupdate
    obtain ⟨old, rest, hold, hbefore, hafter⟩ := updateFirst_eq_some hupdate
    have hkey := hp old (hbefore.mem_iff.mpr List.mem_cons_self) hold
    have hkeys := (hbefore.map Binding.key).nodup_iff.mp hnodup
    rw [List.map_cons, List.nodup_cons, hkey] at hkeys
    have hrest : rest.filter (fun b => b.key ≠ binding.key) = rest := by
      refine List.filter_eq_self.mpr fun b hb => ?_
      have hne : b.key ≠ binding.key := fun h => hkeys.1 (h ▸ List.mem_map_of_mem hb)
      exact decide_eq_true hne
    have hfilter := hbefore.filter fun b => b.key ≠ binding.key
    rw [List.filter_cons_of_neg (by simp [hkey]), hrest] at hfilter
    exact hafter.trans (hfilter.symm.cons _)
  rw [storeBinding]
  rcases hfirst : updateFirst (fun b => decide (b.id = binding.id)) (fun _ => binding) bindings
    with _ | bindings'
  · rcases hsecond : updateFirst (fun b => decide (b.key = binding.key)) (fun _ => binding) bindings
      with _ | bindings'
    · -- no row has a key of the new one
      have hself : bindings.filter (fun b => b.key ≠ binding.key) = bindings := by
        refine List.filter_eq_self.mpr fun b hb => ?_
        simpa using updateFirst_eq_none.mp hsecond b hb
      rw [hfirst, hsecond, hself]
      exact List.perm_append_singleton binding bindings
    · rw [hfirst, hsecond]
      exact replaced (fun b _ hkey => of_decide_eq_true hkey) hsecond
  · rw [hfirst]
    exact replaced (fun b hb hid => hfresh b hb (of_decide_eq_true hid)) hfirst

end Rows

/-! ## The table and the store in memory -/

/-- The rows of the table are those of the bindings in memory. -/
structure Related (D : Database H T) (s : MemoryStore) (rows : List (Row H T)) : Prop where
  tidy : Tidy s
  rows : ∃ bindings : List Binding, rows = bindings.map D.row ∧ bindings.Perm (values s)

section Simulation

variable {s : MemoryStore} {rows : List (Row H T)} {binding : Binding} {maxBindings : ℤ}

theorem related_empty : Related D ∅ [] :=
  ⟨⟨fun _ _ h => (by cases h), fun _ _ h => (by cases h)⟩, [], rfl, .refl _⟩

theorem locked_eq {bindings : List Binding} : Database.locked (bindings.map D.row) binding =
    (bindings.filter fun b => b.activeFor binding.tenantID binding.aor binding.updatedAt).map D.row := by
  rw [Database.locked, List.filter_map]
  rfl

theorem Related.length_locked (h : Related D s rows) : (Database.locked rows binding).length =
    s.activeCount binding.tenantID binding.aor binding.updatedAt := by
  obtain ⟨bindings, rfl, hperm⟩ := h.rows
  rw [locked_eq, List.length_map, ← List.countP_eq_length_filter, h.tidy.activeCount_eq]
  exact hperm.countP_eq _

/-- A row of the contact is locked exactly if the contact has an active binding. -/
theorem Related.locked_iff (h : Related D s rows) :
    ((Database.locked rows binding).any fun r => r.contact = binding.contact) = true ↔
      ∃ old, s.lookup binding.key = some old ∧ binding.updatedAt < old.expiresAt := by
  obtain ⟨bindings, rfl, hperm⟩ := h.rows
  rw [locked_eq, List.any_eq_true]
  constructor
  · rintro ⟨r, hr, hcontact⟩
    obtain ⟨old, hold, rfl⟩ := List.mem_map.mp hr
    obtain ⟨hmem, hactive⟩ := List.mem_filter.mp hold
    simp only [Binding.activeFor, Bool.and_eq_true, decide_eq_true_eq] at hactive
    have hkey : old.key = binding.key := by
      rw [Binding.key, Binding.key, hactive.1.1, hactive.1.2]
      exact congrArg _ (of_decide_eq_true hcontact)
    exact ⟨old, hkey ▸ h.tidy.lookup_key (hperm.mem_iff.mp hmem), hactive.2⟩
  · rintro ⟨old, hlookup, hexpires⟩
    have hkey := h.tidy.keyed _ _ hlookup
    simp only [Binding.key, BindingKey.mk.injEq] at hkey
    have hmem := hperm.mem_iff.mpr (Table.mem_values.mpr ⟨_, hlookup⟩)
    refine ⟨D.row old, List.mem_map.mpr ⟨old, List.mem_filter.mpr ⟨hmem, ?_⟩, rfl⟩, ?_⟩
    · simp [Binding.activeFor, hkey, hexpires]
    · simp [Database.row, hkey]

/-- MySQL refuses a binding when the store in memory does, and when the contact comes back late. -/
theorem Related.limit_iff (h : Related D s rows) :
    (!((Database.locked rows binding).any fun r => r.contact = binding.contact) ∧
        maxBindings ≤ (Database.locked rows binding).length) ↔
      ((s.lookup binding.key).isNone ∧
        maxBindings ≤ s.activeCount binding.tenantID binding.aor binding.updatedAt) ∨
      Lapsed s binding maxBindings := by
  have hnot : (!((Database.locked rows binding).any fun r => r.contact = binding.contact)) = true ↔
      ¬ ∃ old, s.lookup binding.key = some old ∧ binding.updatedAt < old.expiresAt := by
    rw [← h.locked_iff, Bool.not_eq_true', Bool.not_eq_true]
  rw [hnot, h.length_locked, Lapsed]
  rcases hlookup : s.lookup binding.key with _ | old
  · simp
  · simp

/-- Without the rows for which `p` holds, when the store has lost the bindings of these rows. -/
theorem Related.filter (h : Related D s rows) {s' : MemoryStore} (htidy : Tidy s')
    {p : Row H T → Bool} {q : Binding → Bool} (hp : ∀ b, p (D.row b) = q b)
    (hvalues : (values s').Perm ((values s).filter fun b => !q b)) :
    Related D s' (rows.filter fun r => !p r) := by
  obtain ⟨bindings, rfl, hperm⟩ := h.rows
  refine ⟨htidy, bindings.filter fun b => !q b, ?_, (hperm.filter _).trans hvalues.symm⟩
  rw [List.filter_map]
  exact congrArg _ (List.filter_congr fun b _ => by simp [hp])

theorem scan_row (hD : D.Sound) {b : Binding} (hb : b.received.addr.isValid = true) :
    D.scan (D.row b) = .ok b := by
  have hparse : D.parseAddr (D.row b).receivedIP = some b.received.addr := hD.parse_text _ hb
  rw [Database.scan, hparse]
  rfl

theorem mapM_scan (hD : D.Sound) {bindings : List Binding}
    (h : ∀ b ∈ bindings, b.received.addr.isValid = true) :
    (bindings.map D.row).mapM D.scan = .ok bindings := by
  induction bindings with
  | nil => rfl
  | cons b bindings ih =>
    obtain ⟨hb, h⟩ := List.forall_mem_cons.mp h
    rw [List.map_cons, List.mapM_cons, scan_row hD hb, ih h]
    rfl

theorem Related.listActive (hD : D.Sound) (h : Related D s rows) (tenantID aor : String) (now : ℤ) :
    ∃ bindings, D.listActive rows tenantID aor now = .ok bindings ∧
      (s.listActive tenantID aor now).Perm bindings := by
  obtain ⟨bindings, rfl, hperm⟩ := h.rows
  refine ⟨bindings.filter fun b => b.activeFor tenantID aor now, ?_, ?_⟩
  · rw [Database.listActive, List.filter_map]
    refine mapM_scan hD fun b hb => ?_
    have hmem := hperm.mem_iff.mp (List.mem_filter.mp hb).1
    exact h.tidy.valid _ _ (h.tidy.lookup_key hmem)
  · rw [h.tidy.listActive_eq]
    exact (hperm.filter _).symm

theorem Related.deleteExpired (h : Related D s rows) (now : ℤ) :
    (s.deleteExpired now).1 = (Database.deleteExpired rows now).1 ∧
      Related D (s.deleteExpired now).2 (Database.deleteExpired rows now).2 := by
  refine ⟨?_, h.filter (h.tidy.deleteIf fun _ b => !(decide (now < b.expiresAt)))
    (p := fun r => decide (r.expiresAt ≤ now)) (fun _ => rfl) ?_⟩
  · obtain ⟨bindings, rfl, hperm⟩ := h.rows
    have hcount := hperm.countP_eq fun b => decide (b.expiresAt ≤ now)
    rw [values, List.countP_map] at hcount
    rw [MemoryStore.deleteExpired, Database.deleteExpired, List.countP_map]
    refine Eq.trans ?_ hcount.symm
    exact List.countP_congr fun e _ => by simp
  · rw [h.tidy.values_deleteIf]
    refine List.Perm.of_eq (List.filter_congr fun b _ => ?_)
    show (!(!decide (now < b.expiresAt))) = !decide (b.expiresAt ≤ now)
    rw [← decide_not]
    exact congrArg not (decide_eq_decide.mpr not_lt)

/-- No two bindings in memory have one key. -/
theorem Tidy.nodup_keys (h : Tidy s) : ((values s).map Binding.key).Nodup := by
  have hkeys : (values s).map Binding.key = s.entries.map Sigma.fst := by
    rw [values, List.map_map]
    refine List.map_congr_left fun e he => ?_
    exact h.keyed e.1 e.2 (Table.lookup_eq_some.mpr he)
  rw [hkeys]
  exact s.nodupKeys

/-- The `INSERT` stores the binding in the place of the one the contact had. -/
theorem Related.insertRow [DecidableEq H] (hD : D.Sound) (h : Related D s rows)
    (hstorable : Storable D s binding) :
    Related D (s.insert binding.key binding) (Database.insertRow rows (D.row binding)) := by
  obtain ⟨bindings, rfl, hperm⟩ := h.rows
  have hnodup : (bindings.map Binding.key).Nodup :=
    (hperm.map Binding.key).nodup_iff.mpr h.tidy.nodup_keys
  have hfresh : ∀ old ∈ bindings, old.id = binding.id → old.key = binding.key :=
    fun old hold => hstorable.fresh old (hperm.mem_iff.mp hold)
  refine ⟨h.tidy.insert hstorable.valid, storeBinding bindings binding,
    insertRow_map hD.hash_injective hfresh, ?_⟩
  rw [Table.values_insert]
  refine (storeBinding_perm hnodup hfresh).trans (.cons _ ?_)
  exact (hperm.filter _).trans (h.tidy.values_erase binding.key).symm

variable [DecidableEq H]

theorem Related.upsert (hD : D.Sound) (h : Related D s rows) (hstorable : Storable D s binding)
    (hlapsed : ¬ Lapsed s binding maxBindings) :
    (s.upsert binding maxBindings).1 = (D.upsert rows binding maxBindings).1 ∧
      Related D (s.upsert binding maxBindings).2 (D.upsert rows binding maxBindings).2 := by
  have hlimit : (!((Database.locked rows binding).any fun r => r.contact = binding.contact) ∧
        maxBindings ≤ (Database.locked rows binding).length) ↔
      ((s.lookup binding.key).isNone ∧
        maxBindings ≤ s.activeCount binding.tenantID binding.aor binding.updatedAt) := by
    rw [h.limit_iff, or_iff_left hlapsed]
  unfold MemoryStore.upsert Database.upsert
  dsimp only
  rw [if_congr hlimit rfl rfl]
  rw [if_pos hstorable.holds]
  split_ifs
  · exact ⟨rfl, h⟩
  · exact ⟨rfl, h.insertRow hD hstorable⟩

theorem Related.call (hD : D.Sound) (h : Related D s rows) {c : StoreCall} (hc : Agreeable D s c) :
    (s.call c).1.Same (D.call rows c).1 ∧ Related D (s.call c).2 (D.call rows c).2 := by
  cases c with
  | upsert binding maxBindings =>
    obtain ⟨hsame, hrelated⟩ := h.upsert hD hc.1 hc.2
    exact ⟨hsame, hrelated⟩
  | delete tenantID aor contact =>
    refine ⟨rfl, h.filter (h.tidy.erase _) (q := fun b => decide (b.key = ⟨tenantID, aor, contact⟩))
      (fun b => ?_) ?_⟩
    · show (decide (b.tenantID = tenantID) && decide (b.aor = aor) && decide (b.contact = contact)) = _
      simp [Binding.key, Bool.and_assoc]
    · refine (h.tidy.values_erase _).trans (List.Perm.of_eq (List.filter_congr fun b _ => ?_))
      simp
  | deleteAll tenantID aor =>
    refine ⟨rfl, h.filter (h.tidy.deleteIf fun key _ => key.tenantID = tenantID && key.aor = aor)
      (p := fun r => r.tenantID = tenantID && r.aor = aor) (fun _ => rfl) ?_⟩
    exact List.Perm.of_eq h.tidy.values_deleteIf
  | listActive tenantID aor now =>
    obtain ⟨bindings, hlisted, hperm⟩ := h.listActive hD tenantID aor now
    refine ⟨?_, h⟩
    show StoreResult.Same (.listed (.ok _)) (.listed (D.listActive rows tenantID aor now))
    rw [hlisted]
    exact hperm
  | deleteExpired now => exact h.deleteExpired now

/-- The stores stay related along a run of agreeable calls, and give the same results. -/
theorem Related.run (hD : D.Sound) (h : Related D s rows) {calls : List StoreCall}
    (hcalls : AllAgreeable D s calls) :
    List.Forall₂ StoreResult.Same (s.run calls) (D.run rows calls) ∧
      Related D (s.after calls) (D.after rows calls) := by
  induction calls generalizing s rows with
  | nil => exact ⟨.nil, h⟩
  | cons c calls ih =>
    obtain ⟨hsame, hrelated⟩ := h.call hD hcalls.1
    obtain ⟨hresults, hafter⟩ := ih hrelated hcalls.2
    exact ⟨.cons hsame hresults, hafter⟩

/-- MySQL refuses a contact that comes back late to a full address, the store in memory does not. -/
theorem Related.lapsed (h : Related D s rows) (hlapsed : Lapsed s binding maxBindings) :
    (s.upsert binding maxBindings).1 = .ok () ∧
      (D.upsert rows binding maxBindings).1 = .error .bindingLimit := by
  have hlimit := h.limit_iff.mpr (.inr hlapsed)
  obtain ⟨⟨old, hold, -⟩, -⟩ := hlapsed
  unfold MemoryStore.upsert Database.upsert
  dsimp only
  rw [if_pos hlimit, if_neg (by simp [hold])]
  exact ⟨rfl, rfl⟩

end Simulation

/-- In every run of calls that are agreeable when they are made the two stores give the same results; and
after such a run they differ on a binding the table can store exactly if its contact comes back late to
a full address. -/
theorem stores_agree [DecidableEq H] (hD : D.Sound) {calls : List StoreCall}
    (hcalls : AllAgreeable D ∅ calls) :
    List.Forall₂ StoreResult.Same (MemoryStore.run ∅ calls) (D.run [] calls) ∧
      ∀ binding maxBindings, Storable D (MemoryStore.after ∅ calls) binding →
        (((MemoryStore.after ∅ calls).call (.upsert binding maxBindings)).1.Same
            (D.call (D.after [] calls) (.upsert binding maxBindings)).1 ↔
          ¬ Lapsed (MemoryStore.after ∅ calls) binding maxBindings) := by
  obtain ⟨hresults, hrelated⟩ := related_empty.run hD hcalls
  refine ⟨hresults, fun binding maxBindings hstorable => ⟨fun hsame hlapsed => ?_, fun hlapsed => ?_⟩⟩
  · obtain ⟨hmemory, hmysql⟩ := hrelated.lapsed hlapsed
    have hequal : (MemoryStore.upsert _ binding maxBindings).1 =
      (D.upsert _ binding maxBindings).1 := hsame
    rw [hmemory, hmysql] at hequal
    cases hequal
  · have hagreeable : Agreeable D (MemoryStore.after ∅ calls) (.upsert binding maxBindings) :=
      ⟨hstorable, hlapsed⟩
    exact (hrelated.call hD hagreeable).1

/-! ## A contact that comes back late -/

/-- A database whose hashes and address texts are the values themselves. -/
def plainDatabase : Database String Addr := ⟨id, id, some, fun _ => true⟩

theorem plainDatabase_sound : plainDatabase.Sound :=
  ⟨fun _ _ h => h, fun _ _ => rfl⟩

def deskPhone : Binding := ⟨"a", "tenant", "sip:alice@example.com", "sip:desk", "10.0.0.1:5060", .udp,
  ⟨.v4 0x0a000001, 5060⟩, "", .num 1, 10, 0⟩

def mobilePhone : Binding :=
  { deskPhone with id := "b", contact := "sip:mobile", expiresAt := 100, updatedAt := 10 }

/-- Alice may have one device. The desk phone registers, its binding expires, the mobile phone registers,
and the desk phone comes back. -/
def lateReturn : List StoreCall :=
  [.upsert deskPhone 1, .upsert mobilePhone 1,
    .upsert { deskPhone with id := "c", expiresAt := 100, updatedAt := 11 } 1]

/-- The desk phone gets its second device past the limit in memory, and is refused by MySQL. -/
theorem late_contact_refused : plainDatabase.Sound ∧
    (lateReturn.map StoreCall.time).Pairwise (fun t t' => ∀ a b, t = some a → t' = some b → a ≤ b) ∧
    MemoryStore.run ∅ lateReturn = [.done (.ok ()), .done (.ok ()), .done (.ok ())] ∧
    plainDatabase.run [] lateReturn = [.done (.ok ()), .done (.ok ()), .done (.error .bindingLimit)] ∧
    ¬ List.Forall₂ StoreResult.Same (MemoryStore.run ∅ lateReturn)
      (plainDatabase.run [] lateReturn) := by
  have hmemory : MemoryStore.run ∅ lateReturn = [.done (.ok ()), .done (.ok ()), .done (.ok ())] := by
    decide +kernel
  have hmysql : plainDatabase.run [] lateReturn =
      [.done (.ok ()), .done (.ok ()), .done (.error .bindingLimit)] := by decide +kernel
  refine ⟨plainDatabase_sound, ?_, hmemory, hmysql, ?_⟩
  · simp [lateReturn, StoreCall.time, deskPhone, mobilePhone]
  · rw [hmemory, hmysql]
    simp [StoreResult.Same]

/-- A mobile phone that comes while the desk phone is registered, and again after it has gone. -/
def inTurn : List StoreCall :=
  [.upsert deskPhone 1, .upsert { mobilePhone with updatedAt := 5 } 1, .deleteExpired 10,
    .upsert mobilePhone 1]

/-- The stores agree on it: both refuse the mobile phone first and take it then. -/
theorem stores_agree_inTurn :
    MemoryStore.run ∅ inTurn =
        [.done (.ok ()), .done (.error .bindingLimit), .count 1, .done (.ok ())] ∧
      List.Forall₂ StoreResult.Same (MemoryStore.run ∅ inTurn) (plainDatabase.run [] inTurn) := by
  -- a contact without a binding does not come back late
  have new : ∀ (s : MemoryStore) (b : Binding), (s.lookup b.key).isNone = true → ¬ Lapsed s b 1 := by
    rintro s b hnone ⟨⟨old, hold, -⟩, -⟩
    rw [hold] at hnone
    cases hnone
  refine ⟨by decide +kernel, (stores_agree plainDatabase_sound ?_).1⟩
  refine ⟨⟨⟨by decide +kernel, rfl, rfl⟩, new _ _ (by decide +kernel)⟩,
    ⟨⟨by decide +kernel, rfl, rfl⟩, new _ _ (by decide +kernel)⟩, trivial,
    ⟨⟨by decide +kernel, rfl, rfl⟩, new _ _ (by decide +kernel)⟩, trivial⟩

end AixvolinkPbx.Registration

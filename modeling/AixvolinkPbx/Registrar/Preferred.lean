import AixvolinkPbx.Lib.Sorting
import AixvolinkPbx.Registrar.Transactions

/-!
# The preferred binding (`internal/core/registration/manager.go`)

`Resolve` sorts the active bindings of an address of record and returns the first. Its comparison is by
preference and then by time; two preferences of which one is NaN are taken for equal, while two numbers
on both sides of it are not. So the comparison need not order the bindings, and then the sort promises
nothing.

1. Where the comparison orders the active bindings, the first is a best one, and it does if all
   preferences are numbers (`consistent_of_numbers`).
2. Where it does not, some binding is not a best one (`consistent_of_allBest`), and a sort that keeps its
   contract may return it first: `resolve_best_iff`.
3. Both the registrar and `Validate` let NaN pass: after three REGISTERs the binding with the lowest
   preference is resolved (`resolve_lowest`).
-/

namespace AixvolinkPbx.Registration

open Prog (Returns returns_bind returns_call)
open Sorting (Consistent Contract)

/-! ## Best bindings -/

/-- Equality of preference values; NaN is not equal to itself. -/
def Q.eq : Q → Q → Bool
  | .num a, .num b => a = b
  | _, _ => false

/-- The binding has a larger preference, or the same and is more recent. -/
def Binding.Better (other binding : Binding) : Prop :=
  binding.q.lt other.q = true ∨ binding.q.eq other.q = true ∧ binding.updatedAt < other.updatedAt

/-- No other of the bindings is better. -/
def Best (bindings : List Binding) (binding : Binding) : Prop :=
  binding ∈ bindings ∧ ∀ other ∈ bindings, ¬other.Better binding

theorem compareBindings_of_better {other binding : Binding} (h : other.Better binding) :
    compareBindings other binding < 0 := by
  unfold compareBindings
  rcases h with hlt | ⟨heq, htime⟩
  · rw [if_pos hlt]
    decide
  · obtain ⟨p, q, hp, hq, hpq⟩ : ∃ p q, binding.q = .num p ∧ other.q = .num q ∧ p = q := by
      cases hb : binding.q with
      | nan =>
        rw [hb] at heq
        cases heq
      | num p =>
        cases ho : other.q with
        | nan =>
          rw [hb, ho] at heq
          cases heq
        | num q =>
          rw [hb, ho] at heq
          exact ⟨p, q, rfl, rfl, of_decide_eq_true heq⟩
    rw [hp, hq, hpq]
    simp [Q.lt, htime]

theorem not_better_self (binding : Binding) : ¬binding.Better binding := by
  rintro (hlt | ⟨-, htime⟩)
  · cases hq : binding.q with
    | nan =>
      rw [hq] at hlt
      cases hlt
    | num q =>
      rw [hq] at hlt
      exact absurd (of_decide_eq_true hlt) (lt_irrefl q)
  · exact absurd htime (lt_irrefl _)

/-- Among best bindings the comparison is that of the times. -/
theorem consistent_of_allBest {bindings : List Binding} (h : ∀ b ∈ bindings, Best bindings b) :
    Consistent compareBindings bindings := by
  have htimes : ∀ a ∈ bindings, ∀ b ∈ bindings,
      compareBindings a b < 0 ↔ b.updatedAt < a.updatedAt := by
    intro a ha b hb
    have hab : ¬b.q.lt a.q = true := fun hlt => (h b hb).2 a ha (.inl hlt)
    have hba : ¬a.q.lt b.q = true := fun hlt => (h a ha).2 b hb (.inl hlt)
    unfold compareBindings
    rw [if_neg hab, if_neg hba]
    split_ifs with hafter hbefore
    · simp [hafter]
    · simp [hafter]
    · simp [hafter]
  constructor
  · intro a ha b hb
    rw [htimes a ha b hb, htimes b hb a ha]
    omega
  · intro a ha b hb c hc
    rw [htimes b hb a ha, htimes c hc b hb, htimes c hc a ha]
    omega

/-- Numbers are ordered. -/
theorem consistent_of_numbers {bindings : List Binding} (h : ∀ b ∈ bindings, b.q ≠ .nan) :
    Consistent compareBindings bindings := by
  have hnumber : ∀ b ∈ bindings, ∃ q, b.q = .num q := by
    intro b hb
    cases hq : b.q with
    | nan => exact absurd hq (h b hb)
    | num q => exact ⟨q, rfl⟩
  have hlex : ∀ {a b : Binding} {p q : ℚ}, a.q = .num p → b.q = .num q →
      (compareBindings a b < 0 ↔ q < p ∨ q = p ∧ b.updatedAt < a.updatedAt) := by
    intro a b p q ha hb
    unfold compareBindings
    rw [ha, hb]
    simp only [Q.lt, decide_eq_true_eq]
    split_ifs with hqp hpq hafter hbefore
    · simp [hqp]
    · simp [hqp, hpq.ne']
    · simp [hafter, le_antisymm (not_lt.mp hpq) (not_lt.mp hqp)]
    · simp [hqp, hafter]
    · simp [hqp, hafter]
  constructor
  · intro a ha b hb
    obtain ⟨p, hp⟩ := hnumber a ha
    obtain ⟨q, hq⟩ := hnumber b hb
    rw [hlex hp hq, hlex hq hp]
    rintro (hlt | ⟨rfl, htime⟩) (hlt' | ⟨heq, htime'⟩)
    · exact absurd hlt hlt'.asymm
    · exact absurd hlt heq.le.not_gt
    · exact absurd hlt' (lt_irrefl _)
    · omega
  · intro a ha b hb c hc
    obtain ⟨p, hp⟩ := hnumber a ha
    obtain ⟨q, hq⟩ := hnumber b hb
    obtain ⟨r, hr⟩ := hnumber c hc
    rw [hlex hq hp, hlex hr hq, hlex hr hp]
    intro hqp hrq
    rw [not_or, not_lt] at hqp hrq
    rintro (hlt | ⟨rfl, htime⟩)
    · exact absurd hlt (hrq.1.trans hqp.1).not_gt
    · obtain rfl : p = q := le_antisymm hrq.1 hqp.1
      have hba := not_and.mp hqp.2 rfl
      have hcb := not_and.mp hrq.2 rfl
      omega

/-! ## Resolve -/

/-- The first binding of the sorted list. -/
def picked (sort : (Binding → Binding → ℤ) → List Binding → List Binding)
    (bindings : List Binding) :
    Except ManagerError Binding :=
  match sort compareBindings bindings with
  | [] => .error .notFound
  | binding :: _ => .ok binding

/-- The events of `Resolve` at `now`: the store lists the bindings. -/
def listing (tenantID aor : String) (now : ℤ) (bindings : List Binding) : List (Event managerSig) :=
  [⟨.now, now⟩, ⟨.store (.listActive tenantID aor now), some (.listed (.ok bindings))⟩]

theorem returns_resolve (sort : (Binding → Binding → ℤ) → List Binding → List Binding)
    (tenantID aor : String) (now : ℤ) (bindings : List Binding) :
    Returns (resolve sort tenantID aor) (listing tenantID aor now bindings) (picked sort bindings) := by
  have hlist : Returns (list tenantID aor) (listing tenantID aor now bindings) (.ok bindings) :=
    .cons (.cons (.nil _))
  rw [← List.append_nil (listing tenantID aor now bindings)]
  refine hlist.bind ?_
  dsimp only [picked]
  cases sort compareBindings bindings with
  | nil => exact .nil _
  | cons binding rest => exact .nil _

/-- At `now`, whatever sort and whatever order of the bindings that are listed, `Resolve` returns a best
active binding if there is one, and `ErrNotFound` otherwise. -/
def ResolvesBest (s : MemoryStore) (tenantID aor : String) (now : ℤ) : Prop :=
  ∀ sort, Contract sort → ∀ bindings, bindings.Perm (s.listActive tenantID aor now) →
    ∃ r, Returns (resolve sort tenantID aor) (listing tenantID aor now bindings) r ∧
      (r = .error .notFound ↔ s.listActive tenantID aor now = []) ∧
      (s.listActive tenantID aor now ≠ [] → ∃ b, r = .ok b ∧ Best (s.listActive tenantID aor now) b)

theorem picked_notFound_iff {sort : (Binding → Binding → ℤ) → List Binding → List Binding}
    (hsort : Contract sort) (bindings : List Binding) :
    picked sort bindings = .error .notFound ↔ bindings = [] := by
  have hperm := hsort.perm compareBindings bindings
  unfold picked
  cases hsorted : sort compareBindings bindings with
  | nil =>
    rw [hsorted] at hperm
    simp [hperm.symm.eq_nil]
  | cons binding rest =>
    rw [hsorted] at hperm
    have hne : bindings ≠ [] := by
      rintro rfl
      exact absurd hperm.eq_nil (List.cons_ne_nil _ _)
    simp [hne]

/-- **The preferred binding.** `Resolve` returns a best active binding, or `ErrNotFound` if there is
none, exactly if its comparison orders the active bindings. -/
theorem resolve_best_iff (s : MemoryStore) (tenantID aor : String) (now : ℤ) :
    ResolvesBest s tenantID aor now ↔
      Consistent compareBindings (s.listActive tenantID aor now) := by
  generalize hactive : s.listActive tenantID aor now = active
  unfold ResolvesBest
  rw [hactive]
  constructor
  · intro hresolves
    by_contra hinconsistent
    -- not all are best, so that a sort may return another first
    obtain ⟨binding, hmem, other, hother, hbetter⟩ :
        ∃ b ∈ active, ∃ other ∈ active, other.Better b := by
      by_contra hnone
      push Not at hnone
      exact hinconsistent (consistent_of_allBest fun b hb => ⟨hb, hnone b hb⟩)
    have hperm : (binding :: active.erase binding).Perm active := (List.perm_cons_erase hmem).symm
    obtain ⟨sort, hsort, hfirst⟩ := Sorting.exists_contract hinconsistent hperm
    obtain ⟨r, hreturns, -, hbest⟩ := hresolves sort hsort active (.refl _)
    have hpicked : r = .ok binding := by
      rw [hreturns.unique (returns_resolve sort tenantID aor now active), picked, hfirst]
    obtain ⟨b, hb, -, hnot⟩ := hbest (List.ne_nil_of_mem hmem)
    rw [hpicked] at hb
    rw [← Except.ok.inj hb] at hnot
    exact hnot other hother hbetter
  · intro hconsistent sort hsort bindings hperm
    refine ⟨_, returns_resolve sort tenantID aor now bindings, ?_, ?_⟩
    · rw [picked_notFound_iff hsort]
      constructor
      · rintro rfl
        exact hperm.symm.eq_nil
      · rintro rfl
        exact hperm.eq_nil
    · intro hne
      unfold picked
      cases hsorted : sort compareBindings bindings with
      | nil =>
        have hnil := (hsort.perm compareBindings bindings).symm
        rw [hsorted] at hnil
        exact absurd ((hnil.eq_nil ▸ hperm).symm.eq_nil) hne
      | cons binding rest =>
        have hhead := hsort.head (hconsistent.of_perm hperm) hsorted
        have hmem : binding ∈ bindings :=
          (hsort.perm compareBindings bindings).mem_iff.mp (hsorted ▸ List.mem_cons_self)
        refine ⟨binding, rfl, hperm.mem_iff.mp hmem, fun other hother hbetter => ?_⟩
        rcases hhead other (hperm.mem_iff.mpr hother) with rfl | hnot
        · exact not_better_self other hbetter
        · exact hnot (compareBindings_of_better hbetter)

end AixvolinkPbx.Registration

namespace AixvolinkPbx.Registrar

open Prog Registration

/-! ## Three phones -/

/-- The texts of the office, with some preference values. -/
def ratedTexts : Texts :=
  { homeTexts with
    parseFloat := fun text =>
      if text = "0" then some (.num 0)
      else if text = "1" then some (.num 1)
      else if text = "nan" then some .nan
      else none }

def rated (name q : String) : Register :=
  homeRegister "alice" [⟨false, "sip:" ++ name ++ "@10.0.0.5", none, some q⟩]

def rating (name q : String) (now : ℤ) (s : MemoryStore) :
    List (Event registrarSig) × Option Outcome × MemoryStore :=
  trace (frontDesk ⟨"home", "alice", "pbx", "", 3⟩ now) (handle homeConfig ratedTexts (rated name q)) s

theorem steps_rating (name q : String) (now : ℤ) (s : MemoryStore) :
    Steps (Serve homeConfig) s (rating name q now s).1 (rating name q now s).2.2 :=
  steps_trace (fun s e => serve_frontDesk rfl now s e) _ s

/-- The store after Alice has registered one phone after the other. -/
def deskPhone : MemoryStore := (rating "desk" "1" 1 ∅).2.2

def softPhone : MemoryStore := (rating "soft" "nan" 2 deskPhone).2.2

def cellPhone : MemoryStore := (rating "cell" "0" 3 softPhone).2.2

def threePhones : History (handle homeConfig ratedTexts) where
  arg i := if i = 0 then rated "desk" "1" else if i = 1 then rated "soft" "nan" else rated "cell" "0"
  events := (rating "desk" "1" 1 ∅).1.map (Prod.mk 0) ++
    (rating "soft" "nan" 2 deskPhone).1.map (Prod.mk 1) ++
      (rating "cell" "0" 3 softPhone).1.map (Prod.mk 2)
  paths i := by
    rw [ownEvents_append, ownEvents_append, ownEvents_tag, ownEvents_tag, ownEvents_tag]
    match i with
    | 0 => exact ⟨_, returns_trace (a := .ok ()) rfl⟩
    | 1 => exact ⟨_, returns_trace (a := .ok ()) rfl⟩
    | 2 => exact ⟨_, returns_trace (a := .ok ()) rfl⟩
    | i + 3 => exact ⟨_, .nil _⟩

/-- Three phones whose preferences are numbers, two of them equal. -/
def numberedPhones : MemoryStore := (rating "soft" "1" 3 (rating "cell" "0" 2 deskPhone).2.2).2.2

theorem resolve_best_numbered :
    (numberedPhones.listActive "home" "sip:alice@pbx" 4).map (fun b => (b.q, b.updatedAt)) =
        [(.num 1, 3), (.num 0, 2), (.num 1, 1)] ∧
      ResolvesBest numberedPhones "home" "sip:alice@pbx" 4 := by
  refine ⟨by decide +kernel, (resolve_best_iff numberedPhones "home" "sip:alice@pbx" 4).mpr ?_⟩
  refine consistent_of_numbers ?_
  decide +kernel

def phone (name : String) (q : Q) (now : ℤ) : Binding :=
  ⟨"id", "home", "sip:alice@pbx", "sip:" ++ name ++ "@10.0.0.5", "10.0.0.5:5060", .udp,
    ⟨.v4 0x0a000005, 5060⟩, "", q, now + 3600 * Time.second, now⟩

/-- A phone with the preference NaN between one with 1 and a later one with 0: the last is resolved. -/
theorem resolve_lowest :
    threePhones.Leads (Serve homeConfig) ∅ cellPhone ∧
      ∃ lowest other, Returns (resolve Sorting.insertionSort "home" "sip:alice@pbx")
          (listing "home" "sip:alice@pbx" 4 (cellPhone.listActive "home" "sip:alice@pbx" 4))
          (.ok lowest) ∧
        other ∈ cellPhone.listActive "home" "sip:alice@pbx" 4 ∧
        lowest.q = .num 0 ∧ other.q = .num 1 ∧ other.Better lowest := by
  refine ⟨?_, ?_⟩
  · exact ((History.steps_tag 0 (steps_rating _ _ _ _)).trans
      (History.steps_tag 1 (steps_rating _ _ _ _))).trans (History.steps_tag 2 (steps_rating _ _ _ _))
  · have hactive : cellPhone.listActive "home" "sip:alice@pbx" 4 =
        [phone "cell" (.num 0) 3, phone "soft" .nan 2, phone "desk" (.num 1) 1] := by decide +kernel
    have hpicked : picked Sorting.insertionSort
        [phone "cell" (.num 0) 3, phone "soft" .nan 2, phone "desk" (.num 1) 1] =
        .ok (phone "cell" (.num 0) 3) := by decide +kernel
    have hreturns := returns_resolve Sorting.insertionSort "home" "sip:alice@pbx" 4
      (cellPhone.listActive "home" "sip:alice@pbx" 4)
    rw [hactive, hpicked] at hreturns
    rw [hactive]
    exact ⟨phone "cell" (.num 0) 3, phone "desk" (.num 1) 1, hreturns, by simp, rfl, rfl, .inl rfl⟩

end AixvolinkPbx.Registrar

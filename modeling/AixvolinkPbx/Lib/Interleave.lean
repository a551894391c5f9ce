import AixvolinkPbx.Lib.Prog
import Mathlib.Algebra.BigOperators.Group.List.Basic
import Mathlib.Algebra.Order.Ring.Int
import Mathlib.Data.List.Nodup

/-!
# Interleavings of programs over a shared state

A `System` runs any number of programs over one shared state. A step starts a new thread, lets one
thread perform its next operation, or lets the environment move; the labels of a run record all of
this in order. A thread keeps the events it has performed so far.

`System.invariant` is the rule the safety proofs use. When the programs are safe for a monitor, the
threads may be looked at through their monitor states only: an invariant of the labels, the shared
state and those states is shown step by step, without looking into a program again. `sum_map_set`
moves a sum over all threads along with the one thread that changed, and `exec` computes the run of
a given schedule.
-/

/-! ## Runs of a labelled step relation -/

/-- `Steps step s ls s'`: the labels `ls` lead from `s` to `s'`. -/
inductive Steps {σ ℓ : Type*} (step : σ → ℓ → σ → Prop) (s : σ) : List ℓ → σ → Prop
  | nil : Steps step s [] s
  | snoc {ls : List ℓ} {l : ℓ} {s' s'' : σ} (h : Steps step s ls s') (hs : step s' l s'') :
      Steps step s (ls ++ [l]) s''

namespace Steps

variable {σ ℓ : Type*} {step : σ → ℓ → σ → Prop} {s s' s'' : σ} {ls ls' : List ℓ}

/-- What every step keeps, every run keeps; the invariant may speak of the labels so far. -/
theorem invariant {I : List ℓ → σ → Prop}
    (hstep : ∀ ls s l s', I ls s → step s l s' → I (ls ++ [l]) s')
    (h : Steps step s ls s') (hI : I [] s) : I ls s' := by
  induction h with
  | nil => exact hI
  | snoc _ hs ih => exact hstep _ _ _ _ ih hs

theorem invariant_of_run {I : List ℓ → σ → Prop}
    (hstep : ∀ ls s' l s'', Steps step s ls s' → I ls s' → step s' l s'' → I (ls ++ [l]) s'')
    (h : Steps step s ls s') (hI : I [] s) : I ls s' := by
  induction h with
  | nil => exact hI
  | snoc h hs ih => exact hstep _ _ _ _ h ih hs

/-- What every step says of its label holds of every label of a run. -/
theorem forall_labels {P : ℓ → Prop} (hP : ∀ s l s', step s l s' → P l) (h : Steps step s ls s') :
    ∀ l ∈ ls, P l := by
  induction h with
  | nil => exact fun l hl => absurd hl List.not_mem_nil
  | snoc _ hs ih =>
    intro l hl
    rcases List.mem_append.mp hl with hl | hl
    · exact ih l hl
    · rw [List.mem_singleton.mp hl]
      exact hP _ _ _ hs

theorem mono {step' : σ → ℓ → σ → Prop} (h : Steps step s ls s')
    (hle : ∀ s l s', l ∈ ls → step s l s' → step' s l s') : Steps step' s ls s' := by
  induction h with
  | nil => exact .nil
  | snoc _ hs ih =>
    refine (ih fun s l s' hl => hle s l s' (List.mem_append_left _ hl)).snoc ?_
    exact hle _ _ _ (by simp) hs

theorem keeps {β : Type*} {f : σ → β} (h : Steps step s ls s')
    (hf : ∀ s l s', l ∈ ls → step s l s' → f s' = f s) : f s' = f s := by
  induction h with
  | nil => rfl
  | snoc _ hs ih =>
    rw [hf _ _ _ (List.mem_append_right _ List.mem_cons_self) hs]
    exact ih fun s l s' hl => hf s l s' (List.mem_append_left _ hl)

theorem trans (h : Steps step s ls s') (h' : Steps step s' ls' s'') :
    Steps step s (ls ++ ls') s'' := by
  induction h' with
  | nil => rwa [List.append_nil]
  | snoc _ hs ih =>
    rw [← List.append_assoc]
    exact ih.snoc hs

theorem split (h : Steps step s (ls ++ ls') s'') : ∃ s', Steps step s ls s' ∧ Steps step s' ls' s'' := by
  generalize hall : ls ++ ls' = all at h
  induction h generalizing ls' with
  | nil =>
    obtain ⟨rfl, rfl⟩ := List.append_eq_nil_iff.mp hall
    exact ⟨s, .nil, .nil⟩
  | @snoc all l s₁ s₂ h hs ih =>
    rcases List.eq_nil_or_concat ls' with rfl | ⟨rest, l', rfl⟩
    · rw [List.append_nil] at hall
      exact ⟨s₂, hall ▸ h.snoc hs, .nil⟩
    · rw [List.concat_eq_append, ← List.append_assoc] at hall
      obtain ⟨hrest, hl⟩ := List.append_inj' hall rfl
      obtain rfl := (List.cons.inj hl).1
      obtain ⟨s', hbefore, hafter⟩ := ih hrest
      rw [List.concat_eq_append]
      exact ⟨s', hbefore, hafter.snoc hs⟩

theorem last {l : ℓ} (h : Steps step s (ls ++ [l]) s'') : ∃ s', Steps step s ls s' ∧ step s' l s'' := by
  generalize hall : ls ++ [l] = all at h
  cases h with
  | nil => simp at hall
  | snoc h hs =>
    obtain ⟨rfl, hl⟩ := List.append_inj' hall rfl
    obtain rfl := (List.cons.inj hl).1
    exact ⟨_, h, hs⟩

theorem single {l : ℓ} (h : step s l s') : Steps step s [l] s' := Steps.nil.snoc h

theorem eq_of_nil (h : Steps step s [] s') : s' = s := by
  generalize hall : ([] : List ℓ) = all at h
  cases h with
  | nil => rfl
  | snoc => simp at hall

/-- A run around one of its steps. -/
theorem split_cons {l : ℓ} (h : Steps step s (ls ++ l :: ls') s'') :
    ∃ s₁ s₂, Steps step s ls s₁ ∧ step s₁ l s₂ ∧ Steps step s₂ ls' s'' := by
  rw [← List.singleton_append, ← List.append_assoc] at h
  obtain ⟨s₂, hbefore, hafter⟩ := h.split
  obtain ⟨s₁, hbefore, hl⟩ := hbefore.last
  exact ⟨s₁, s₂, hbefore, hl, hafter⟩

theorem uncons {l : ℓ} (h : Steps step s (l :: ls) s'') : ∃ s', step s l s' ∧ Steps step s' ls s'' := by
  rw [← List.nil_append (l :: ls)] at h
  obtain ⟨s₁, s₂, hbefore, hl, hafter⟩ := h.split_cons
  obtain rfl := hbefore.eq_of_nil
  exact ⟨s₂, hl, hafter⟩

end Steps

/-! ## Replacing one element of a list -/

theorem mem_set_or_eq {ι : Type*} {l : List ι} {i : ℕ} {a x : ι} (b : ι) (h : l[i]? = some a)
    (hx : x ∈ l) : x ∈ l.set i b ∨ x = a := by
  obtain ⟨j, hj⟩ := List.mem_iff_getElem?.mp hx
  by_cases hij : i = j
  · subst hij
    rw [h] at hj
    exact .inr (Option.some.inj hj).symm
  · exact .inl (List.mem_iff_getElem?.mpr ⟨j, by rw [List.getElem?_set_ne hij, hj]⟩)

theorem getElem?_set_cases {ι : Type*} {l : List ι} {i j : ℕ} {a b : ι}
    (h : (l.set i b)[j]? = some a) : (j ≠ i ∧ l[j]? = some a) ∨ (j = i ∧ a = b) := by
  by_cases hij : i = j
  · subst hij
    have hlt : i < l.length := by
      have := (List.getElem?_eq_some_iff.mp h).1
      rwa [List.length_set] at this
    rw [List.getElem?_set_self hlt] at h
    exact .inr ⟨rfl, (Option.some.inj h).symm⟩
  · rw [List.getElem?_set_ne hij] at h
    exact .inl ⟨Ne.symm hij, h⟩

theorem map_set_of_eq {ι κ : Type*} {f : ι → κ} {l : List ι} {i : ℕ} {a b : ι} (h : l[i]? = some a)
    (hf : f b = f a) : (l.set i b).map f = l.map f := by
  obtain ⟨hlt, rfl⟩ := List.getElem?_eq_some_iff.mp h
  rw [List.map_set, hf, ← List.getElem_map f (h := by simpa using hlt), List.set_getElem_self]

/-- When `f` tells the elements of a list apart, all but the replaced one differ from it by `f`. -/
theorem eq_or_ne_of_mem_set {ι κ : Type*} {f : ι → κ} {l : List ι} {i : ℕ} {a b x : ι}
    (hnodup : (l.map f).Nodup) (h : l[i]? = some a) (hf : f b = f a) (hx : x ∈ l.set i b) :
    x = b ∨ (x ∈ l ∧ f x ≠ f a) := by
  have hb : b ∈ l.set i b := List.mem_set (List.getElem?_eq_some_iff.mp h).1 b
  by_cases heq : f x = f b
  · exact .inl (List.inj_on_of_nodup_map (by rwa [map_set_of_eq h hf]) hx hb heq)
  · rcases List.mem_or_eq_of_mem_set hx with hx | rfl
    · exact .inr ⟨hx, hf ▸ heq⟩
    · exact absurd rfl heq

/-- Replacing one element of a list moves a sum over the list by that element's share. -/
theorem sum_map_set {ι M : Type*} [AddCommMonoid M] (f : ι → M) {l : List ι} {i : ℕ} {a : ι} (b : ι)
    (h : l[i]? = some a) : ((l.set i b).map f).sum + f a = (l.map f).sum + f b := by
  induction l generalizing i with
  | nil => simp at h
  | cons c l ih =>
    cases i with
    | zero =>
      obtain rfl : c = a := by simpa using h
      simp only [List.set_cons_zero, List.map_cons, List.sum_cons]
      rw [add_comm, add_comm (f b), add_assoc]
    | succ i =>
      have := ih (i := i) (by simpa using h)
      simp only [List.set_cons_succ, List.map_cons, List.sum_cons, add_assoc, this]

theorem le_sum_map {ι : Type*} {f : ι → ℕ} {l : List ι} {a : ι} (h : a ∈ l) :
    f a ≤ (l.map f).sum := by
  induction l with
  | nil => cases h
  | cons b l ih =>
    rw [List.map_cons, List.sum_cons]
    rcases List.mem_cons.mp h with rfl | h
    · omega
    · have := ih h
      omega

/-- At most one element has a share of a sum that is at most one. -/
theorem eq_of_sum_le_one {ι : Type*} {f : ι → ℕ} {l : List ι} (h : (l.map f).sum ≤ 1) {i j : ℕ}
    {a b : ι} (hi : l[i]? = some a) (ha : 0 < f a) (hj : l[j]? = some b) (hb : 0 < f b) :
    i = j := by
  induction l generalizing i j with
  | nil => simp at hi
  | cons c l ih =>
    rw [List.map_cons, List.sum_cons] at h
    cases i with
    | zero =>
      cases j with
      | zero => rfl
      | succ j =>
        obtain rfl : c = a := by simpa using hi
        have := le_sum_map (f := f) (List.mem_of_getElem? (show l[j]? = some b by simpa using hj))
        omega
    | succ i =>
      cases j with
      | zero =>
        obtain rfl : c = b := by simpa using hj
        have := le_sum_map (f := f) (List.mem_of_getElem? (show l[i]? = some a by simpa using hi))
        omega
      | succ j => exact congrArg (· + 1) (ih (by omega) (by simpa using hi) (by simpa using hj))

theorem sum_map_eq_countP {ι : Type*} {f : ι → ℕ} {p : ι → Bool} {l : List ι}
    (h : ∀ x ∈ l, f x = if p x then 1 else 0) : (l.map f).sum = l.countP p := by
  induction l with
  | nil => rfl
  | cons x l ih =>
    obtain ⟨hx, hl⟩ := List.forall_mem_cons.mp h
    rw [List.map_cons, List.sum_cons, List.countP_cons, ih hl, hx, add_comm]

/-! ## Systems of threads -/

/-- A thread: what it was started for, the events it performed, and the rest of its program. -/
structure Thread (S : Sig) (X α : Type) where
  arg : X
  past : List (Event S)
  rest : Prog S α

namespace Thread

variable {S : Sig} {X α : Type}

def advance (th : Thread S X α) (ev : Event S) (rest : Prog S α) : Thread S X α :=
  ⟨th.arg, th.past ++ [ev], rest⟩

def live (th : Thread S X α) : Bool :=
  match th.rest with
  | .pure _ => false
  | _ => true

end Thread

/-- Programs over a shared state `σ`: the program of a thread started for `x`, when such a thread may
be started, how an operation answers and changes the shared state, and the moves of the
environment. -/
structure System (S : Sig) (X α σ L : Type) where
  prog : X → Prog S α
  spawns : σ → X → Prop
  perform : σ → X → (e : S.Op) → S.Ans e → σ → Prop
  env : σ → L → σ → Prop

namespace System

variable {S : Sig} {X α σ L φ : Type}

structure State (S : Sig) (X α σ : Type) where
  shared : σ
  threads : List (Thread S X α)

inductive Label (S : Sig) (X L : Type)
  | spawn (x : X)
  | act (i : ℕ) (ev : Event S)
  | env (l : L)

/-- The steps of a system. -/
inductive Step (sys : System S X α σ L) : State S X α σ → Label S X L → State S X α σ → Prop
  | spawn (st : State S X α σ) (x : X) (h : sys.spawns st.shared x) :
      Step sys st (.spawn x) ⟨st.shared, st.threads ++ [⟨x, [], sys.prog x⟩]⟩
  | act (st : State S X α σ) (i : ℕ) (th : Thread S X α) (e : S.Op) (k : S.Ans e → Prog S α)
      (r : S.Ans e) (sh : σ) (hget : st.threads[i]? = some th) (hrest : th.rest = .op e k)
      (hperf : sys.perform st.shared th.arg e r sh) :
      Step sys st (.act i ⟨e, r⟩) ⟨sh, st.threads.set i (th.advance ⟨e, r⟩ (k r))⟩
  | env (st : State S X α σ) (l : L) (sh : σ) (h : sys.env st.shared l sh) :
      Step sys st (.env l) ⟨sh, st.threads⟩

/-- The runs of a system from the shared state `sh` and no threads. -/
def Reaches (sys : System S X α σ L) (sh : σ) (ls : List (Label S X L)) (st : State S X α σ) :
    Prop :=
  Steps sys.Step ⟨sh, []⟩ ls st

/-- The runs all of whose steps meet a condition on the state before the step and the label. -/
def ReachesUnder (sys : System S X α σ L) (C : State S X α σ → Label S X L → Prop) (sh : σ)
    (ls : List (Label S X L)) (st : State S X α σ) : Prop :=
  Steps (fun st l st' => sys.Step st l st' ∧ C st l) ⟨sh, []⟩ ls st

variable {ls : List (Label S X L)} {st : State S X α σ} {sh : σ}

theorem Reaches.under {sys : System S X α σ L} (h : sys.Reaches sh ls st) :
    sys.ReachesUnder (fun _ _ => True) sh ls st :=
  h.mono fun _ _ _ _ hs => ⟨hs, trivial⟩

variable {C : State S X α σ → Label S X L → Prop}

theorem ReachesUnder.reaches {sys : System S X α σ L} (h : sys.ReachesUnder C sh ls st) :
    sys.Reaches sh ls st :=
  h.mono fun _ _ _ _ hs => hs.1

/-! ### Looking at threads through a monitor -/

/-- What a monitor sees of a thread. -/
structure Seen (X φ : Type) where
  arg : X
  ghost : φ
  live : Bool

variable (M : Monitor S φ) (g₀ : X → φ)

def see (th : Thread S X α) : Seen X φ := ⟨th.arg, M.run (g₀ th.arg) th.past, th.live⟩

/-- The threads of a state as a monitor sees them. -/
def view (st : State S X α σ) : List (Seen X φ) := st.threads.map (see M g₀)

/-- What is seen of a thread after an event `e` answered by `r`. -/
def Seen.next (v : Seen X φ) (e : S.Op) (r : S.Ans e) (live : Bool) : Seen X φ :=
  ⟨v.arg, M.next v.ghost e r, live⟩

theorem see_advance (th : Thread S X α) (e : S.Op) (r : S.Ans e) (rest : Prog S α) :
    see M g₀ (th.advance ⟨e, r⟩ rest) =
      (see M g₀ th).next M e r (th.advance ⟨e, r⟩ rest).live := by
  simp [see, Seen.next, Thread.advance]

/-- Every thread is safe from its monitor state on. -/
def Tracked (Q : α → φ → Prop) (st : State S X α σ) : Prop :=
  ∀ th ∈ st.threads, Prog.Safe M (see M g₀ th).ghost th.rest Q

variable {M g₀} {sys : System S X α σ L} {Q : α → φ → Prop}

theorem tracked_step {st' : State S X α σ} {l : Label S X L}
    (hsafe : ∀ x, Prog.Safe M (g₀ x) (sys.prog x) Q)
    (hadm : ∀ sh x e r sh', sys.perform sh x e r sh' → M.admits e r) (ht : Tracked M g₀ Q st)
    (h : sys.Step st l st') : Tracked M g₀ Q st' := by
  cases h with
  | spawn x _ =>
    intro th hth
    rcases List.mem_append.mp hth with hth | hth
    · exact ht th hth
    · rw [List.mem_singleton.mp hth]
      exact hsafe x
  | act i th e k r sh hget hrest hperf =>
    intro th' hth'
    rcases List.mem_or_eq_of_mem_set hth' with hth' | rfl
    · exact ht th' hth'
    · have hs := ht th (List.mem_of_getElem? hget)
      rw [hrest, Prog.safe_op] at hs
      rw [see_advance]
      exact (hs r (hadm _ _ _ _ _ hperf)).2
  | env => exact ht

/-- The invariant rule. Every thread of a run is safe from its monitor state on, and an invariant of
the labels, the shared state and what the monitor sees of the threads holds in every state of the
run once the steps keep it. The condition `C` restricts the runs looked at. -/
theorem invariant {I : List (Label S X L) → σ → List (Seen X φ) → Prop}
    (hsafe : ∀ x, Prog.Safe M (g₀ x) (sys.prog x) Q)
    (hadm : ∀ sh x e r sh', sys.perform sh x e r sh' → M.admits e r)
    (hspawn : ∀ ls (st : State S X α σ) x live, I ls st.shared (view M g₀ st) →
      sys.spawns st.shared x → I (ls ++ [.spawn x]) st.shared (view M g₀ st ++ [⟨x, g₀ x, live⟩]))
    (hact : ∀ ls (st : State S X α σ) i th e r sh live, Tracked M g₀ Q st →
      I ls st.shared (view M g₀ st) → C st (.act i ⟨e, r⟩) →
      st.threads[i]? = some th → th.live = true → M.good (M.next (see M g₀ th).ghost e r) →
      sys.perform st.shared th.arg e r sh →
      I (ls ++ [.act i ⟨e, r⟩]) sh ((view M g₀ st).set i ((see M g₀ th).next M e r live)))
    (henv : ∀ ls (st : State S X α σ) l sh, I ls st.shared (view M g₀ st) →
      sys.env st.shared l sh → I (ls ++ [.env l]) sh (view M g₀ st))
    (h : sys.ReachesUnder C sh ls st) (hI : I [] sh []) :
    Tracked M g₀ Q st ∧ I ls st.shared (view M g₀ st) := by
  refine Steps.invariant (I := fun ls st => Tracked M g₀ Q st ∧ I ls st.shared (view M g₀ st)) ?_ h
    ⟨fun th hth => absurd hth List.not_mem_nil, hI⟩
  rintro ls st l st' ⟨ht, hI⟩ ⟨hstep, hC⟩
  refine ⟨tracked_step hsafe hadm ht hstep, ?_⟩
  cases hstep with
  | spawn x hx => simpa [view, see] using hspawn ls st x _ hI hx
  | act i th e k r sh hget hrest hperf =>
    have hs := ht th (List.mem_of_getElem? hget)
    have hlive : th.live = true := by rw [Thread.live, hrest]
    rw [hrest, Prog.safe_op] at hs
    have hg := (hs r (hadm _ _ _ _ _ hperf)).1
    have := hact ls st i th e r sh (th.advance ⟨e, r⟩ (k r)).live ht hI hC hget hlive hg hperf
    rwa [← see_advance, view, ← List.map_set] at this
  | env l sh hl => exact henv ls st l sh hI hl

variable {th : Thread S X α}

theorem Tracked.returned (h : Tracked M g₀ Q st) (hth : th ∈ st.threads) (hlive : th.live = false) :
    ∃ a, th.rest = Pure.pure a ∧ Q a (see M g₀ th).ghost := by
  have hsafe := h th hth
  unfold Thread.live at hlive
  split at hlive
  · next a hrest =>
    rw [hrest] at hsafe
    exact ⟨a, hrest, Prog.safe_pure.mp hsafe⟩
  · cases hlive

variable {i : ℕ}

theorem view_getElem? (h : st.threads[i]? = some th) : (view M g₀ st)[i]? = some (see M g₀ th) := by
  simp [view, h]

/-! ### The events of a thread and the labels of the run -/

/-- The events of a thread are a path of its program. -/
theorem Reaches.path (h : sys.Reaches sh ls st) (hth : th ∈ st.threads) :
    Prog.Path (sys.prog th.arg) th.past th.rest := by
  revert th
  refine Steps.invariant (I := fun _ st => ∀ {th : Thread S X α}, th ∈ st.threads →
    Prog.Path (sys.prog th.arg) th.past th.rest) ?_ h (fun hth => absurd hth List.not_mem_nil)
  intro ls st l st' hI hstep th hth
  cases hstep with
  | spawn x _ =>
    rcases List.mem_append.mp hth with hth | hth
    · exact hI hth
    · rw [List.mem_singleton.mp hth]
      exact .nil _
  | act i th' e k r sh hget hrest hperf =>
    rcases List.mem_or_eq_of_mem_set hth with hth | rfl
    · exact hI hth
    · have hpath := hI (List.mem_of_getElem? hget)
      rw [hrest] at hpath
      exact hpath.snoc r
  | env => exact hI hth

/-- The events of thread `i` among the labels of a run. -/
def eventsOf (i : ℕ) (ls : List (Label S X L)) : List (Event S) :=
  ls.filterMap fun
    | .act j ev => if j = i then some ev else none
    | _ => none

@[simp] theorem eventsOf_spawn (i : ℕ) (ls : List (Label S X L)) (x : X) :
    eventsOf i (ls ++ [.spawn x]) = eventsOf i ls := by simp [eventsOf]

@[simp] theorem eventsOf_env (i : ℕ) (ls : List (Label S X L)) (l : L) :
    eventsOf i (ls ++ [.env l]) = eventsOf i ls := by simp [eventsOf]

@[simp] theorem eventsOf_act_self (i : ℕ) (ls : List (Label S X L)) (ev : Event S) :
    eventsOf i (ls ++ [.act i ev]) = eventsOf i ls ++ [ev] := by simp [eventsOf]

theorem eventsOf_act_ne {j : ℕ} (ls : List (Label S X L)) (ev : Event S) (h : j ≠ i) :
    eventsOf i (ls ++ [.act j ev]) = eventsOf i ls := by simp [eventsOf, h]

theorem mem_eventsOf {ev : Event S} :
    ev ∈ eventsOf i ls ↔ .act i ev ∈ ls := by
  refine List.mem_filterMap.trans ⟨?_, fun h => ⟨_, h, if_pos rfl⟩⟩
  rintro ⟨l, hl, heq⟩
  cases l with
  | act j ev' =>
    replace heq : (if j = i then some ev' else none) = some ev := heq
    split_ifs at heq with hj
    rw [← hj, ← Option.some.inj heq]
    exact hl
  | spawn x => cases heq
  | env l => cases heq

/-- The labels of a run have the events of its threads, and no others. -/
theorem eventsOf_of_reaches (h : sys.Reaches sh ls st) :
    (∀ i th, st.threads[i]? = some th → th.past = eventsOf i ls) ∧
      ∀ i, st.threads.length ≤ i → eventsOf i ls = [] := by
  refine Steps.invariant (I := fun ls st => (∀ i th, st.threads[i]? = some th →
    th.past = eventsOf i ls) ∧ ∀ i, st.threads.length ≤ i → eventsOf i ls = []) ?_ h ?_
  · rintro ls st l st' ⟨hp, hn⟩ hstep
    cases hstep with
    | spawn x _ =>
      refine ⟨fun i th hi => ?_, fun i hi => ?_⟩
      · rw [eventsOf_spawn]
        rcases Nat.lt_or_ge i st.threads.length with hlt | hge
        · exact hp i th (by rwa [List.getElem?_append_left hlt] at hi)
        · rw [List.getElem?_append_right hge] at hi
          obtain rfl := List.mem_singleton.mp (List.mem_of_getElem? hi)
          exact (hn i hge).symm
      · rw [eventsOf_spawn]
        exact hn i (by simp at hi; omega)
    | act j th' e k r sh hget' =>
      have hlt : j < st.threads.length := (List.getElem?_eq_some_iff.mp hget').1
      refine ⟨fun i th hi => ?_, fun i hi => ?_⟩
      · by_cases hij : j = i
        · subst hij
          obtain rfl : th'.advance ⟨e, r⟩ (k r) = th := by
            simpa [List.getElem?_set, hlt] using hi
          rw [eventsOf_act_self, ← hp j th' hget', Thread.advance]
        · rw [eventsOf_act_ne _ _ hij]
          exact hp i th (by simpa [List.getElem?_set, hij] using hi)
      · have hlen : st.threads.length ≤ i := by simpa using hi
        rw [eventsOf_act_ne _ _ (by omega)]
        exact hn i hlen
    | env => simpa using ⟨hp, hn⟩
  · exact ⟨fun i th hi => by simp at hi, fun i _ => rfl⟩

/-- A thread remembers exactly the events it has in the labels of the run. -/
theorem past_eq_eventsOf (h : sys.Reaches sh ls st) (hget : st.threads[i]? = some th) :
    th.past = eventsOf i ls := (eventsOf_of_reaches h).1 i th hget

theorem exists_of_act (h : sys.Reaches sh ls st) {ev : Event S} (hev : .act i ev ∈ ls) :
    ∃ th, st.threads[i]? = some th ∧ ev ∈ th.past := by
  have hmem := mem_eventsOf.mpr hev
  by_cases hi : i < st.threads.length
  · have hget := List.getElem?_eq_getElem hi
    rw [← past_eq_eventsOf h hget] at hmem
    exact ⟨_, hget, hmem⟩
  · rw [(eventsOf_of_reaches h).2 i (by omega)] at hmem
    cases hmem

/-- Threads stay, for what they were started for. -/
theorem args_prefix {st' : State S X α σ} (h : Steps sys.Step st ls st') :
    st.threads.map (·.arg) <+: st'.threads.map (·.arg) := by
  induction h with
  | nil => exact List.prefix_rfl
  | snoc _ hs ih =>
    refine ih.trans ?_
    cases hs with
    | spawn x _ =>
      rw [List.map_append]
      exact List.prefix_append ..
    | act i th e k r sh hget =>
      have hsame := map_set_of_eq (f := Thread.arg) (b := th.advance ⟨e, r⟩ (k r)) hget rfl
      exact ⟨[], (List.append_nil _).trans hsame.symm⟩
    | env => exact List.prefix_rfl

theorem arg_of_steps {st' : State S X α σ} (h : Steps sys.Step st ls st')
    (hget : st.threads[i]? = some th) :
    ∃ th', st'.threads[i]? = some th' ∧ th'.arg = th.arg := by
  obtain ⟨later, hlater⟩ := args_prefix h
  have hi : (st.threads.map (·.arg))[i]? = some th.arg := by rw [List.getElem?_map, hget]; rfl
  have hlater' : (st.threads.map (·.arg) ++ later)[i]? = some th.arg :=
    (List.getElem?_append_left (List.getElem?_eq_some_iff.mp hi).1).trans hi
  rw [hlater, List.getElem?_map] at hlater'
  exact Option.map_eq_some_iff.mp hlater'

/-! ### Running a schedule -/

/-- A schedule names who moves next; the answers are computed. -/
inductive Move (X L : Type)
  | spawn (x : X)
  | run (i : ℕ)
  | env (l : L)

/-- Run a schedule, with `handle` computing answers and `move` the environment: the steps with the
states they start from, and the last state. -/
def exec (sys : System S X α σ L) (handle : σ → X → (e : S.Op) → S.Ans e × σ)
    (move : σ → L → σ) :
    List (Move X L) → State S X α σ → List (State S X α σ × Label S X L) × State S X α σ
  | [], st => ([], st)
  | .spawn x :: ms, st =>
    let rest := exec sys handle move ms ⟨st.shared, st.threads ++ [⟨x, [], sys.prog x⟩]⟩
    ((st, .spawn x) :: rest.1, rest.2)
  | .env l :: ms, st =>
    let rest := exec sys handle move ms ⟨move st.shared l, st.threads⟩
    ((st, .env l) :: rest.1, rest.2)
  | .run i :: ms, st =>
    match st.threads[i]? with
    | some ⟨x, past, .op e k⟩ =>
      let r := handle st.shared x e
      let rest := exec sys handle move ms
        ⟨r.2, st.threads.set i (Thread.advance ⟨x, past, .op e k⟩ ⟨e, r.1⟩ (k r.1))⟩
      ((st, .act i ⟨e, r.1⟩) :: rest.1, rest.2)
    | _ => exec sys handle move ms st

def labels (run : List (State S X α σ × Label S X L) × State S X α σ) : List (Label S X L) :=
  run.1.map Prod.snd

section Exec

variable {handle : σ → X → (e : S.Op) → S.Ans e × σ} {move : σ → L → σ}
  (hperf : ∀ sh x e, sys.perform sh x e (handle sh x e).1 (handle sh x e).2)
  (henv : ∀ sh l, sys.env sh l (move sh l))

include hperf henv

/-- A computed schedule is a run of the system when its threads may be started, under every condition
its steps meet. -/
theorem exec_steps (ms : List (Move X L)) (st : State S X α σ)
    (hC : ∀ p ∈ (exec sys handle move ms st).1,
      (∀ x, p.2 = .spawn x → sys.spawns p.1.shared x) ∧ C p.1 p.2) :
    Steps (fun st l st' => sys.Step st l st' ∧ C st l) st (labels (exec sys handle move ms st))
      (exec sys handle move ms st).2 := by
  have one : ∀ {st st' : State S X α σ} {l : Label S X L}, sys.Step st l st' → C st l →
      Steps (fun st l st' => sys.Step st l st' ∧ C st l) st [l] st' :=
    fun hs hc => Steps.nil.snoc ⟨hs, hc⟩
  induction ms generalizing st with
  | nil => exact .nil
  | cons m ms ih =>
    cases m with
    | spawn x =>
      obtain ⟨⟨hs, hc⟩, hC⟩ := List.forall_mem_cons.mp hC
      exact (one (.spawn st x (hs x rfl)) hc).trans (ih _ hC)
    | env l =>
      obtain ⟨⟨-, hc⟩, hC⟩ := List.forall_mem_cons.mp hC
      exact (one (.env st l _ (henv _ _)) hc).trans (ih _ hC)
    | run i =>
      rw [exec] at hC ⊢
      split at hC
      · next x past e k hget =>
        obtain ⟨⟨-, hc⟩, hC⟩ := List.forall_mem_cons.mp hC
        exact (one (.act st i _ e k _ _ hget rfl (hperf _ _ _)) hc).trans (ih _ hC)
      · exact ih st hC

theorem exec_reaches (ms : List (Move X L)) (sh : σ)
    (hspawn : ∀ p ∈ (exec sys handle move ms ⟨sh, []⟩).1, ∀ x, p.2 = .spawn x →
      sys.spawns p.1.shared x) :
    sys.Reaches sh (labels (exec sys handle move ms ⟨sh, []⟩)) (exec sys handle move ms ⟨sh, []⟩).2 :=
  ReachesUnder.reaches <|
    exec_steps hperf henv (C := fun _ _ => True) ms _ fun p hp => ⟨hspawn p hp, trivial⟩

end Exec

/-! ### Running a schedule with given answers -/

/-- A schedule that also gives the answers of the operations. -/
inductive Choice (S : Sig) (X L : Type)
  | spawn (x : X)
  | act (i : ℕ) (answer : (e : S.Op) → S.Ans e)
  | env (l : L)

/-- Run such a schedule, where `handle` says whether an operation may have an answer and what it does
then, and `move` the same for the environment. A choice that is not possible is skipped. -/
def follow (sys : System S X α σ L) (handle : σ → X → (e : S.Op) → S.Ans e → Option σ)
    (move : σ → L → Option σ) :
    List (Choice S X L) → State S X α σ → List (State S X α σ × Label S X L) × State S X α σ
  | [], st => ([], st)
  | .spawn x :: cs, st =>
    let rest := follow sys handle move cs ⟨st.shared, st.threads ++ [⟨x, [], sys.prog x⟩]⟩
    ((st, .spawn x) :: rest.1, rest.2)
  | .env l :: cs, st =>
    match move st.shared l with
    | some sh =>
      let rest := follow sys handle move cs ⟨sh, st.threads⟩
      ((st, .env l) :: rest.1, rest.2)
    | none => follow sys handle move cs st
  | .act i answer :: cs, st =>
    match st.threads[i]? with
    | some ⟨x, past, .op e k⟩ =>
      match handle st.shared x e (answer e) with
      | some sh =>
        let rest := follow sys handle move cs
          ⟨sh, st.threads.set i (Thread.advance ⟨x, past, .op e k⟩ ⟨e, answer e⟩ (k (answer e)))⟩
        ((st, .act i ⟨e, answer e⟩) :: rest.1, rest.2)
      | none => follow sys handle move cs st
    | _ => follow sys handle move cs st

/-- A schedule followed is a run of the system, under every condition its steps meet. -/
theorem follow_steps {handle : σ → X → (e : S.Op) → S.Ans e → Option σ}
    {move : σ → L → Option σ}
    (hperf : ∀ sh x e r sh', handle sh x e r = some sh' → sys.perform sh x e r sh')
    (henv : ∀ sh l sh', move sh l = some sh' → sys.env sh l sh') (cs : List (Choice S X L))
    (st : State S X α σ) (hC : ∀ p ∈ (follow sys handle move cs st).1,
      (∀ x, p.2 = .spawn x → sys.spawns p.1.shared x) ∧ C p.1 p.2) :
    Steps (fun st l st' => sys.Step st l st' ∧ C st l) st
      (labels (follow sys handle move cs st)) (follow sys handle move cs st).2 := by
  have one : ∀ {st st' : State S X α σ} {l : Label S X L}, sys.Step st l st' → C st l →
      Steps (fun st l st' => sys.Step st l st' ∧ C st l) st [l] st' :=
    fun hs hc => Steps.nil.snoc ⟨hs, hc⟩
  induction cs generalizing st with
  | nil => exact .nil
  | cons c cs ih =>
    cases c with
    | spawn x =>
      obtain ⟨⟨hs, hc⟩, hC⟩ := List.forall_mem_cons.mp hC
      exact (one (.spawn st x (hs x rfl)) hc).trans (ih _ hC)
    | env l =>
      rw [follow] at hC ⊢
      split at hC
      · next sh hmove =>
        obtain ⟨⟨-, hc⟩, hC⟩ := List.forall_mem_cons.mp hC
        exact (one (.env st l _ (henv _ _ _ hmove)) hc).trans (ih _ hC)
      · exact ih st hC
    | act i answer =>
      rw [follow] at hC ⊢
      split at hC
      · next x past e k hget =>
        split at hC
        · next sh hhandle =>
          obtain ⟨⟨-, hc⟩, hC⟩ := List.forall_mem_cons.mp hC
          exact (one (.act st i _ e k _ _ hget rfl (hperf _ _ _ _ _ hhandle)) hc).trans (ih _ hC)
        · exact ih st hC
      · exact ih st hC

end System

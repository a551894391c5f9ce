import AixvolinkPbx.Lib.Interleave

/-!
# Histories

A history interleaves the events of any number of programs that work on one state: each program's own
events are the beginning of one of its event sequences. `Leads` follows the state along a history.

Two histories are compared through a relation of their states. `leads_keep` is the unwinding rule: when
the events of some programs keep the relation by themselves, and the events of the others keep it from
related states, leaving out the former changes nothing that the relation sees. `trace` computes the
events of a program whose operations a state answers.
-/

def ownEvents {S : Sig} (i : ℕ) (t : List (ℕ × Event S)) : List (Event S) :=
  (t.filter fun l => l.1 = i).map Prod.snd

/-- An interleaving of the events of `prog (arg 0)`, `prog (arg 1)` and so on. -/
structure History {S : Sig} {X α : Type} (prog : X → Prog S α) where
  arg : ℕ → X
  events : List (ℕ × Event S)
  paths : ∀ i, ∃ q, Prog.Path (prog (arg i)) (ownEvents i events) q

section Own

variable {S : Sig} {t t' : List (ℕ × Event S)} {i : ℕ} {ev : Event S}

theorem mem_ownEvents : ev ∈ ownEvents i t ↔ (i, ev) ∈ t := by
  simp [ownEvents]

theorem ownEvents_append : ownEvents i (t ++ t') = ownEvents i t ++ ownEvents i t' := by
  simp [ownEvents]

theorem ownEvents_tag (j : ℕ) (u : List (Event S)) :
    ownEvents i (u.map (Prod.mk j)) = if j = i then u else [] := by
  by_cases hj : j = i
  · simp [ownEvents, List.filter_map, Function.comp_def, hj]
  · simp [ownEvents, List.filter_map, Function.comp_def, hj]

theorem ownEvents_keep (p : ℕ → Bool) :
    ownEvents i (t.filter fun l => p l.1) = if p i then ownEvents i t else [] := by
  unfold ownEvents
  rw [List.filter_filter]
  by_cases hi : p i = true
  · rw [if_pos hi]
    refine congrArg _ (List.filter_congr fun l _ => ?_)
    by_cases hl : l.1 = i
    · simp [hl, hi]
    · simp [hl]
  · rw [if_neg hi, List.map_eq_nil_iff, List.filter_eq_nil_iff]
    intro l _ hl
    simp only [Bool.and_eq_true, decide_eq_true_eq] at hl
    rw [hl.1] at hl
    exact hi hl.2

end Own

namespace History

variable {S : Sig} {X α σ : Type} {prog : X → Prog S α} (h : History prog)
  (step : σ → Event S → σ → Prop)

/-- The history leads from the state `s` to `s'`. -/
def Leads (s s' : σ) : Prop := Steps (fun s l s' => step s l.2 s') s h.events s'

/-- The history of the programs that `p` selects. -/
def keep (p : ℕ → Bool) : History prog where
  arg := h.arg
  events := h.events.filter fun l => p l.1
  paths i := by
    obtain ⟨q, hq⟩ := h.paths i
    rw [ownEvents_keep]
    split_ifs
    · exact ⟨q, hq⟩
    · exact ⟨_, .nil _⟩

variable {h step}

theorem steps_tag (i : ℕ) {t : List (Event S)} {s s' : σ} (ht : Steps step s t s') :
    Steps (fun s (l : ℕ × Event S) s' => step s l.2 s') s (t.map (Prod.mk i)) s' := by
  induction ht with
  | nil => exact .nil
  | snoc _ hs ih =>
    rw [List.map_append]
    exact ih.snoc hs

theorem leads_keep {R : σ → σ → Prop} {p : ℕ → Bool} {s s' u : σ} (hlead : h.Leads step s s')
    (hkeep : ∀ i ev, (i, ev) ∈ h.events → p i = true → ∀ s s' u, R s u → step s ev s' →
      ∃ u', step u ev u' ∧ R s' u')
    (hdrop : ∀ i ev, (i, ev) ∈ h.events → p i = false → ∀ s s' u, R s u → step s ev s' → R s' u)
    (hR : R s u) : ∃ u', (h.keep p).Leads step u u' ∧ R s' u' := by
  unfold Leads at hlead ⊢
  show ∃ u', Steps _ u (h.events.filter fun l => p l.1) u' ∧ R s' u'
  generalize h.events = t at hlead hkeep hdrop
  induction hlead with
  | nil => exact ⟨u, .nil, hR⟩
  | @snoc t l s₁ s₂ _ hl ih =>
    obtain ⟨u₁, hu₁, hR₁⟩ := ih
      (fun i ev hev => hkeep i ev (List.mem_append_left _ hev))
      (fun i ev hev => hdrop i ev (List.mem_append_left _ hev))
    have hmem : (l.1, l.2) ∈ t ++ [l] := List.mem_append_right _ List.mem_cons_self
    rw [List.filter_append]
    by_cases hp : p l.1 = true
    · obtain ⟨u₂, hu₂, hR₂⟩ := hkeep l.1 l.2 hmem hp s₁ s₂ u₁ hR₁ hl
      refine ⟨u₂, ?_, hR₂⟩
      rw [List.filter_singleton, hp]
      exact hu₁.snoc hu₂
    · rw [Bool.not_eq_true] at hp
      refine ⟨u₁, ?_, hdrop l.1 l.2 hmem hp s₁ s₂ u₁ hR₁ hl⟩
      rw [List.filter_singleton, hp]
      simpa using hu₁

end History

/-! ## Programs whose operations a state answers -/

namespace Prog

variable {S : Sig} {α σ : Type} (handle : σ → (e : S.Op) → S.Ans e × σ)

/-- The events of a program, what it returns, and the state after it. -/
def trace : Prog S α → σ → List (Event S) × Option α × σ
  | .pure a, s => ([], some a, s)
  | .op e k, s =>
    let rest := trace (k (handle s e).1) (handle s e).2
    (⟨e, (handle s e).1⟩ :: rest.1, rest.2)
  | .diverge, s => ([], none, s)

variable {handle}

theorem returns_trace {p : Prog S α} {s : σ} {a : α} (h : (trace handle p s).2.1 = some a) :
    Returns p (trace handle p s).1 a := by
  induction p generalizing s with
  | pure b =>
    cases h
    exact .nil _
  | diverge => cases h
  | op e k ih => exact .cons (ih _ h)

theorem steps_trace {step : σ → Event S → σ → Prop}
    (hstep : ∀ s e, step s ⟨e, (handle s e).1⟩ (handle s e).2) (p : Prog S α) (s : σ) :
    Steps step s (trace handle p s).1 (trace handle p s).2.2 := by
  induction p generalizing s with
  | pure b => exact .nil
  | diverge => exact .nil
  | op e k ih => exact (Steps.snoc .nil (hstep s e)).trans (ih _ _)

end Prog

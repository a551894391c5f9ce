import AixvolinkPbx.Lib.Prog

/-!
# Operations that need a reason

A summary of the events of a program moves by `next`, and `P v e` says that the operation `e` may be
performed when the summary is `v`. `Guarded next P v p Q` says that from the summary `v` the program
performs no operation without such a reason and returns only with `Q`; the rules for it go by the shape
of the program. `Guarded.of_path` reads off an event sequence that the summary of what came before an
event is a reason for it.
-/

namespace Prog

variable {S : Sig} {φ α β : Type} (next : φ → Event S → φ) (P : φ → S.Op → Prop)

/-- The monitor of the summary, with whether there was a reason for everything so far. -/
def guard : Monitor S (φ × Prop) where
  next s e r := (next s.1 ⟨e, r⟩, s.2 ∧ P s.1 e)
  good s := s.2
  admits _ _ := True

def Guarded (v : φ) (p : Prog S α) (Q : α → φ → Prop) : Prop :=
  ∀ ok : Prop, ok → Safe (guard next P) (v, ok) p fun a s => Q a s.1

variable {next P} {v : φ} {p : Prog S α} {Q Q' : α → φ → Prop}

theorem guarded_pure {a : α} (h : Q a v) : Guarded next P v (Pure.pure a) Q :=
  fun _ _ => safe_pure.mpr h

theorem guarded_call {e : S.Op} {Q : S.Ans e → φ → Prop} (he : P v e)
    (h : ∀ r, Q r (next v ⟨e, r⟩)) :
    Guarded next P v (call e) Q :=
  fun _ hok => safe_call.mpr fun r _ => ⟨⟨hok, he⟩, h r⟩

theorem guarded_bind {f : α → Prog S β} {R : β → φ → Prop}
    (h : Guarded next P v p fun a v' => Guarded next P v' (f a) R) : Guarded next P v (p >>= f) R := by
  intro ok hok
  rw [safe_bind]
  refine safe_mono ((h ok hok).and_good hok) ?_
  rintro a s ⟨ha, hgood⟩
  exact ha s.2 hgood

theorem Guarded.mono (h : Guarded next P v p Q) (hQ : ∀ a v', Q a v' → Q' a v') :
    Guarded next P v p Q' :=
  fun ok hok => safe_mono (h ok hok) fun a s => hQ a s.1

theorem Guarded.bind {f : α → Prog S β} {R : β → φ → Prop} (h : Guarded next P v p Q)
    (hf : ∀ a v', Q a v' → Guarded next P v' (f a) R) : Guarded next P v (p >>= f) R :=
  guarded_bind (h.mono hf)

theorem Guarded.and_ensures {R : α → Prop} (h : Guarded next P v p Q) (hp : Ensures R p) :
    Guarded next P v p fun a v' => Q a v' ∧ R a :=
  fun ok hok => (h ok hok).and_ensures hp

/-- The rule for loops: a body that keeps `I` on every further round and leaves only with `Q`. -/
theorem guarded_loop {body : β → Prog S (β ⊕ α)} {I : β → φ → Prop}
    (hbody : ∀ b v, I b v → Guarded next P v (body b) fun x v' => x.elim (I · v') (Q · v')) (n : ℕ)
    {b : β} (hI : I b v) : Guarded next P v (loop body n b) Q := by
  intro ok hok
  refine safe_loop (I := fun b s => I b s.1 ∧ s.2) (fun b s hs => ?_) n ⟨hI, hok⟩
  refine safe_mono ((hbody b s.1 hs.1 s.2 hs.2).and_good hs.2) ?_
  rintro (b' | a) s' ⟨hx, hgood⟩
  · exact ⟨hx, hgood⟩
  · exact hx

/-- Operations that need no reason and do not show in the summary. -/
theorem Only.guarded {F : S.Op → Prop} (hp : Only F p) (hfree : ∀ v e, F e → P v e)
    (hnext : ∀ v e r, F e → next v ⟨e, r⟩ = v) : Guarded next P v p fun _ v' => v' = v := by
  intro ok hok
  refine safe_mono (hp.safe_inv (I := fun s : φ × Prop => s.2 ∧ s.1 = v) ⟨hok, rfl⟩ ?_)
    fun _ _ h => h.2
  rintro ⟨_, _⟩ e r ⟨hs, rfl⟩ he _
  exact ⟨⟨hs, hfree _ e he⟩, ⟨hs, hfree _ e he⟩, hnext _ e r he⟩

theorem run_guard (s : φ × Prop) (t : List (Event S)) :
    ((guard next P).run s t).1 = t.foldl next s.1 := by
  induction t generalizing s with
  | nil => rfl
  | cons ev t ih =>
    rw [Monitor.run_cons, ih]
    rfl

/-- There is a reason for every event of a program in what came before it. -/
theorem Guarded.of_path (h : Guarded next P v p Q) {pre post : List (Event S)} {ev : Event S}
    {q : Prog S α} (hpath : Path p (pre ++ ev :: post) q) : P (pre.foldl next v) ev.op := by
  rw [← List.singleton_append, ← List.append_assoc] at hpath
  obtain ⟨q', hbefore, -⟩ := hpath.split
  have hgood := good_of_path (h True trivial) trivial hbefore fun _ _ => trivial
  rw [Monitor.run_append, Monitor.run_cons, Monitor.run_nil] at hgood
  rw [← run_guard (P := P) (v, True) pre]
  exact hgood.2

attribute [irreducible] Guarded

end Prog

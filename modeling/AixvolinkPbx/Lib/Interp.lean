import AixvolinkPbx.Lib.Prog

/-!
# Interpreting the operations of a program

`eval` runs a program against a handler with a state of its own. `interp` replaces every operation of a
program by a program over another signature, `interpWith` does so with a state. Two uses of `interp`:

1. `Sig.sum` puts two signatures side by side, so that programs over different ones run in one system.
2. `Sig.noted` adds notes to a signature: operations that do nothing but stand in the event sequence.
   A program with notes is the program without them (`erase`) as far as its operations go: their event
   sequences are the same up to the notes (`Path.erase`, `path_erase`).
-/

namespace Prog

section Eval

variable {S : Sig} {α β σ : Type}

/-- Run a program against a handler; a program that diverges has no result. -/
def eval (handle : σ → (e : S.Op) → S.Ans e × σ) : Prog S α → σ → Option (α × σ)
  | .pure a, s => some (a, s)
  | .op e k, s => eval handle (k (handle s e).1) (handle s e).2
  | .diverge, _ => none

variable (handle : σ → (e : S.Op) → S.Ans e × σ)

@[simp] theorem eval_pure (a : α) (s : σ) :
    eval handle (Pure.pure a : Prog S α) s = some (a, s) := rfl

@[simp] theorem eval_call (e : S.Op) (s : σ) :
    eval (α := no_index (S.Ans e)) handle (call e) s = some (handle s e) := rfl

@[simp] theorem eval_bind (p : Prog S α) (f : α → Prog S β) (s : σ) :
    eval handle (p >>= f) s = (eval handle p s).bind fun r => eval handle (f r.1) r.2 := by
  induction p generalizing s with
  | pure a => rfl
  | diverge => rfl
  | op e k ih => exact ih _ _

end Eval

variable {S S' : Sig} {α β : Type}

/-- Replace every operation by a program. -/
def interp (f : (e : S.Op) → Prog S' (S.Ans e)) : Prog S α → Prog S' α
  | .pure a => .pure a
  | .op e k => (f e).bind fun r => interp f (k r)
  | .diverge => .diverge

variable (f : (e : S.Op) → Prog S' (S.Ans e))

@[simp] theorem interp_pure (a : α) : interp f (Pure.pure a : Prog S α) = Pure.pure a := rfl

@[simp] theorem interp_op (e : S.Op) (k : S.Ans e → Prog S α) :
    interp f (.op e k) = f e >>= fun r => interp f (k r) := rfl

@[simp] theorem interp_diverge : interp f (.diverge : Prog S α) = .diverge := rfl

@[simp] theorem interp_call (e : S.Op) : interp f (call e) = f e := bind_pure_aux (f e)

@[simp] theorem interp_bind (p : Prog S α) (g : α → Prog S β) :
    interp f (p >>= g) = interp f p >>= fun a => interp f (g a) := by
  induction p with
  | pure a => rfl
  | diverge => rfl
  | op e k ih => simp only [op_bind, interp_op, bind_assoc, ih]

theorem interp_loop (body : β → Prog S (β ⊕ α)) (n : ℕ) (b : β) :
    interp f (loop body n b) = loop (fun b => interp f (body b)) n b := by
  induction n generalizing b with
  | zero => rfl
  | succ n ih =>
    rw [loop, loop, interp_bind]
    refine congrArg _ (funext fun x => ?_)
    cases x with
    | inl b' => exact ih b'
    | inr a => rfl

theorem only_interp {P : S'.Op → Prop} {p : Prog S α} (h : Only (fun e => Only P (f e)) p) :
    Only P (interp f p) := by
  induction p with
  | pure a => exact only_pure
  | diverge => exact only_diverge
  | op e k ih =>
    obtain ⟨he, hk⟩ := only_op_iff.mp h
    exact only_bind he fun r => ih r (hk r)

end Prog

/-! ## Handlers with a state -/

namespace Prog

variable {S S' : Sig} {σ α : Type}

/-- Replace every operation by a program that carries a state along. -/
def interpWith (f : σ → (e : S.Op) → Prog S' (S.Ans e × σ)) : σ → Prog S α → Prog S' (α × σ)
  | s, .pure a => .pure (a, s)
  | s, .op e k => (f s e).bind fun r => interpWith f r.2 (k r.1)
  | _, .diverge => .diverge

/-- The rule for such handlers: a program that is safe for one monitor is safe for another one after its
operations are replaced, when the programs that replace them keep a relation between the states. -/
theorem safe_interpWith {φ ψ : Type} {M : Monitor S φ} {M' : Monitor S' ψ}
    {f : σ → (e : S.Op) → Prog S' (S.Ans e × σ)} {R : φ → σ → ψ → Prop}
    (hf : ∀ g s h e, R g s h → (∀ r, M.admits e r → M.good (M.next g e r)) →
      Safe M' h (f s e) fun r h' => M.admits e r.1 ∧ R (M.next g e r.1) r.2 h')
    {p : Prog S α} {Q : α → φ → Prop} {g : φ} {s : σ} {h : ψ} (hp : Safe M g p Q) (hR : R g s h) :
    Safe M' h (interpWith f s p) fun a h' => ∃ g', Q a.1 g' ∧ R g' a.2 h' := by
  induction p generalizing g s h with
  | pure a => exact safe_pure.mpr ⟨g, safe_pure.mp hp, hR⟩
  | diverge => exact safe_diverge
  | op e k ih =>
    rw [safe_op] at hp
    refine .bind (hf g s h e hR fun r hr => (hp r hr).1) ?_
    rintro ⟨r, s'⟩ h' ⟨hadmits, hR'⟩
    exact ih r (hp r hadmits).2 hR'

end Prog

/-! ## Two signatures side by side -/

/-- The operations of both signatures. -/
abbrev Sig.sum (S S' : Sig) : Sig where
  Op := S.Op ⊕ S'.Op
  Ans
    | .inl e => S.Ans e
    | .inr e => S'.Ans e

namespace Prog

variable {S S' : Sig} {α : Type}

def inl (p : Prog S α) : Prog (S.sum S') α := interp (fun e => call (S := S.sum S') (.inl e)) p

def inr (p : Prog S' α) : Prog (S.sum S') α := interp (fun e => call (S := S.sum S') (.inr e)) p

theorem only_inl {P : (S.sum S').Op → Prop} {p : Prog S α} (h : Only (fun e => P (.inl e)) p) :
    Only P (p.inl : Prog (S.sum S') α) := only_interp _ (h.mono fun _ he => only_call.mpr he)

theorem only_inr {P : (S.sum S').Op → Prop} {p : Prog S' α} (h : Only (fun e => P (.inr e)) p) :
    Only P (p.inr : Prog (S.sum S') α) := only_interp _ (h.mono fun _ he => only_call.mpr he)

end Prog

def Event.inl {S S' : Sig} (ev : Event S) : Event (S.sum S') := ⟨.inl ev.op, ev.ans⟩

def Event.inr {S S' : Sig} (ev : Event S') : Event (S.sum S') := ⟨.inr ev.op, ev.ans⟩

namespace Prog

variable {S S' : Sig} {α : Type} {t : List (Event (S.sum S'))} {q : Prog (S.sum S') α}

theorem path_inr {p : Prog S' α} (h : Path p.inr t q) :
    ∃ u p', t = u.map Event.inr ∧ q = p'.inr ∧ Path p u p' := by
  generalize hp : p.inr = p₀ at h
  induction h generalizing p with
  | nil _ => exact ⟨[], p, rfl, hp.symm, .nil _⟩
  | cons h ih =>
    cases p with
    | op e k =>
      cases hp
      obtain ⟨u, p', rfl, rfl, hpath⟩ := ih rfl
      exact ⟨⟨e, _⟩ :: u, p', rfl, rfl, .cons hpath⟩
    | pure a => cases hp
    | diverge => cases hp

theorem Path.inr {p p' : Prog S' α} {u : List (Event S')} (h : Path p u p') :
    Path (p.inr : Prog (S.sum S') α) (u.map Event.inr) p'.inr := by
  induction h with
  | nil p => exact .nil _
  | cons _ ih => exact .cons ih

theorem returns_inr {p : Prog S' α} {a : α} (h : Returns p.inr t a) :
    ∃ u, t = u.map Event.inr ∧ Returns p u a := by
  obtain ⟨u, p', rfl, hp', hu⟩ := path_inr h
  cases p' with
  | pure b =>
    cases hp'
    exact ⟨u, rfl, hu⟩
  | op e k => cases hp'
  | diverge => cases hp'

end Prog

/-! ### The events of an interpreted program -/

namespace Prog

variable {S S' : Sig} {α : Type}

/-- An operation that stays as it is: before it, the interpreted program went through the programs that
replace the events before it in the program itself. -/
theorem path_interp_inl {f : (e : S.Op) → Prog (S.sum S') (S.Ans e)} {e₀ : S.Op}
    (hf₀ : f e₀ = call (S := S.sum S') (.inl e₀))
    (hf : ∀ e, e ≠ e₀ → Only (fun e' : (S.sum S').Op => e' ≠ .inl e₀) (f e))
    {p : Prog S α} {pre post : List (Event (S.sum S'))} {r : S.Ans e₀} {q : Prog (S.sum S') α}
    (h : Path (interp f p) (pre ++ ⟨.inl e₀, r⟩ :: post) q) :
    ∃ u v p', Path p (u ++ ⟨e₀, r⟩ :: v) p' ∧
      ∀ ev ∈ u, ∃ seg, Returns (f ev.op) seg ev.ans ∧ seg ⊆ pre := by
  induction p generalizing pre with
  | pure a =>
    generalize hall : pre ++ _ = all at h
    cases h
    simp at hall
  | diverge =>
    generalize hall : pre ++ _ = all at h
    cases h
    simp at hall
  | op e k ih =>
    -- the event is one of the program that replaces `e` only if `e` is the operation itself
    have first : ∀ {t : List (Event (S.sum S'))} {q' : Prog (S.sum S') (S.Ans e)}, Path (f e) t q' →
        ∀ {mid : List (Event (S.sum S'))}, t = pre ++ ⟨.inl e₀, r⟩ :: mid →
        ∃ u v p', Path (.op e k) (u ++ ⟨e₀, r⟩ :: v) p' ∧
          ∀ ev ∈ u, ∃ seg, Returns (f ev.op) seg ev.ans ∧ seg ⊆ pre := by
      intro t q' hpath mid ht
      have hmem : (⟨.inl e₀, r⟩ : Event (S.sum S')) ∈ t := by simp [ht]
      by_cases he : e = e₀
      · subst he
        rw [hf₀] at hpath
        rcases path_call hpath with rfl | ⟨r', rfl⟩
        · cases hmem
        · cases pre with
          | nil => exact ⟨[], [], k r, .cons (.nil _), by simp⟩
          | cons ev pre => simp at ht
      · exact absurd rfl ((hf e he).of_path hpath _ hmem)
    -- otherwise that program has returned, and the event is one of the rest
    have later : ∀ {a : S.Ans e} {s₁ pre' : List (Event (S.sum S'))}, Returns (f e) s₁ a →
        pre = s₁ ++ pre' → Path (interp f (k a)) (pre' ++ ⟨.inl e₀, r⟩ :: post) q →
        ∃ u v p', Path (.op e k) (u ++ ⟨e₀, r⟩ :: v) p' ∧
          ∀ ev ∈ u, ∃ seg, Returns (f ev.op) seg ev.ans ∧ seg ⊆ pre := by
      rintro a s₁ pre' hreturns rfl hrest
      obtain ⟨u, v, p', hp', hu⟩ := ih a hrest
      refine ⟨⟨e, a⟩ :: u, v, p', .cons hp', List.forall_mem_cons.mpr ⟨?_, fun ev hev => ?_⟩⟩
      · exact ⟨s₁, hreturns, List.subset_append_left ..⟩
      · obtain ⟨seg, hseg, hsub⟩ := hu ev hev
        exact ⟨seg, hseg, fun _ hmem => List.mem_append_right _ (hsub hmem)⟩
    rcases path_bind h with ⟨q', hpath, -⟩ | ⟨a, s₁, s₂, heq, hreturns, hrest⟩
    · exact first hpath rfl
    rcases List.append_eq_append_iff.mp heq with
      ⟨_ | ⟨ev, mid⟩, hs₁, hs₂⟩ | ⟨mid, hpre, hs₂⟩
    · rw [List.nil_append] at hs₂
      have hnext : Path (interp f (k a)) ([] ++ ⟨.inl e₀, r⟩ :: post) q := hs₂ ▸ hrest
      exact later hreturns (by simp [hs₁]) hnext
    · obtain ⟨rfl, -⟩ := List.cons.inj hs₂
      exact first hreturns hs₁
    · exact later hreturns hpre (hs₂ ▸ hrest)

end Prog

namespace Event

variable {S S' : Sig}

def lefts (t : List (Event (S.sum S'))) : List (Event S) :=
  t.filterMap fun
    | ⟨.inl e, r⟩ => some ⟨e, r⟩
    | ⟨.inr _, _⟩ => none

def rights (t : List (Event (S.sum S'))) : List (Event S') :=
  t.filterMap fun
    | ⟨.inl _, _⟩ => none
    | ⟨.inr e, r⟩ => some ⟨e, r⟩

theorem mem_lefts {t : List (Event (S.sum S'))} {ev : Event S} : ev ∈ lefts t ↔ ev.inl ∈ t := by
  refine List.mem_filterMap.trans ⟨?_, fun h => ⟨_, h, rfl⟩⟩
  rintro ⟨⟨e | e, r⟩, hmem, heq⟩
  · cases heq
    exact hmem
  · cases heq

theorem mem_rights {t : List (Event (S.sum S'))} {ev : Event S'} : ev ∈ rights t ↔ ev.inr ∈ t := by
  refine List.mem_filterMap.trans ⟨?_, fun h => ⟨_, h, rfl⟩⟩
  rintro ⟨⟨e | e, r⟩, hmem, heq⟩
  · cases heq
  · cases heq
    exact hmem

@[simp] theorem rights_append (t u : List (Event (S.sum S'))) :
    rights (t ++ u) = rights t ++ rights u := List.filterMap_append

theorem lefts_map_inr (u : List (Event S')) : lefts (u.map inr : List (Event (S.sum S'))) = [] := by
  induction u with
  | nil => rfl
  | cons ev u ih => exact ih

theorem rights_map_inr (u : List (Event S')) : rights (u.map inr : List (Event (S.sum S'))) = u := by
  induction u with
  | nil => rfl
  | cons ev u ih => exact congrArg (ev :: ·) ih

end Event

def Monitor.left {S S' : Sig} {φ : Type} (M : Monitor (S.sum S') φ) : Monitor S φ where
  next s e r := M.next s (.inl e) r
  good := M.good
  admits e r := M.admits (.inl e) r

def Monitor.right {S S' : Sig} {φ : Type} (M : Monitor (S.sum S') φ) : Monitor S' φ where
  next s e r := M.next s (.inr e) r
  good := M.good
  admits e r := M.admits (.inr e) r

namespace Prog

variable {S S' : Sig} {α φ : Type} {M : Monitor (S.sum S') φ} {s : φ} {Q : α → φ → Prop}

theorem safe_inl {p : Prog S α} (h : Safe M.left s p Q) : Safe M s p.inl Q := by
  induction p generalizing s with
  | pure a => exact safe_pure.mpr (safe_pure.mp h)
  | diverge => exact safe_diverge
  | op e k ih =>
    refine safe_op.mpr fun r hr => ?_
    obtain ⟨hgood, hrest⟩ := safe_op.mp h r hr
    exact ⟨hgood, ih r hrest⟩

theorem safe_inr {p : Prog S' α} (h : Safe M.right s p Q) : Safe M s p.inr Q := by
  induction p generalizing s with
  | pure a => exact safe_pure.mpr (safe_pure.mp h)
  | diverge => exact safe_diverge
  | op e k ih =>
    refine safe_op.mpr fun r hr => ?_
    obtain ⟨hgood, hrest⟩ := safe_op.mp h r hr
    exact ⟨hgood, ih r hrest⟩

end Prog

/-! ## Notes -/

/-- The operations of a signature and notes. -/
abbrev Sig.noted (S : Sig) (N : Type) : Sig := S.sum ⟨N, fun _ => Unit⟩

namespace Prog

variable {S : Sig} {N α : Type}

def note (n : N) : Prog (S.noted N) Unit := call (S := S.noted N) (.inr n)

/-- A program that makes no notes. -/
abbrev plain (p : Prog S α) : Prog (S.noted N) α := inl p

theorem safe_plain_call {φ : Type} {M : Monitor (S.noted N) φ} {s : φ} {e : S.Op}
    {Q : S.Ans e → φ → Prop} : Safe (α := no_index (S.Ans e)) M s (plain (call e)) Q ↔
      ∀ r : S.Ans e, M.admits (.inl e) r →
        M.good (M.next s (.inl e) r) ∧ Q r (M.next s (.inl e) r) := by
  rw [plain, inl, interp_call]
  exact safe_call

theorem safe_note {φ : Type} {M : Monitor (S.noted N) φ} {s : φ} {n : N} {Q : Unit → φ → Prop} :
    Safe M s (note n) Q ↔ (M.admits (.inr n) () →
      M.good (M.next s (.inr n) ()) ∧ Q () (M.next s (.inr n) ())) := by
  rw [note, safe_call]
  exact ⟨fun h => h (), fun h _ => h⟩

def dropNote : (e : (S.noted N).Op) → Prog S ((S.noted N).Ans e)
  | .inl e => call e
  | .inr _ => .pure ()

def erase (p : Prog (S.noted N) α) : Prog S α := interp dropNote p

@[simp] theorem erase_pure (a : α) : erase (Pure.pure a : Prog (S.noted N) α) = Pure.pure a := rfl

@[simp] theorem erase_bind {β : Type} (p : Prog (S.noted N) α) (g : α → Prog (S.noted N) β) :
    erase (p >>= g) = erase p >>= fun a => erase (g a) := interp_bind ..

@[simp] theorem erase_note (n : N) : erase (note n : Prog (S.noted N) Unit) = Pure.pure () := rfl

@[simp] theorem erase_plain (p : Prog S α) : erase (plain p : Prog (S.noted N) α) = p := by
  induction p with
  | pure a => rfl
  | diverge => rfl
  | op e k ih => exact congrArg (Prog.op e) (funext ih)

/-- The events of a sequence that are not notes. -/
def eraseEvents (t : List (Event (S.noted N))) : List (Event S) :=
  t.filterMap fun
    | ⟨.inl e, r⟩ => some ⟨e, r⟩
    | ⟨.inr _, _⟩ => none

theorem Path.erase {p q : Prog (S.noted N) α} {t : List (Event (S.noted N))} (h : Path p t q) :
    Path p.erase (eraseEvents t) q.erase := by
  induction h with
  | nil p => exact .nil _
  | @cons e k r t q _ ih =>
    cases e with
    | inl e => exact .cons ih
    | inr n => exact ih

/-- Every event sequence of the program without notes is one of the program with notes. -/
theorem path_erase {p : Prog (S.noted N) α} {t : List (Event S)} {q : Prog S α}
    (h : Path p.erase t q) : ∃ t' q', Path p t' q' ∧ eraseEvents t' = t ∧ q'.erase = q := by
  induction p generalizing t with
  | pure a =>
    cases h
    exact ⟨[], _, .nil _, rfl, rfl⟩
  | diverge =>
    cases h
    exact ⟨[], _, .nil _, rfl, rfl⟩
  | op e k ih =>
    cases e with
    | inl e =>
      cases h with
      | nil => exact ⟨[], _, .nil _, rfl, rfl⟩
      | @cons _ _ r t _ h =>
        obtain ⟨t', q', hpath, rfl, rfl⟩ := ih r h
        exact ⟨⟨.inl e, r⟩ :: t', q', .cons hpath, rfl, rfl⟩
    | inr n =>
      obtain ⟨t', q', hpath, rfl, rfl⟩ := ih () h
      exact ⟨⟨.inr n, ()⟩ :: t', q', .cons hpath, rfl, rfl⟩

end Prog

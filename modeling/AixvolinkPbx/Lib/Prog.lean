import Mathlib.Data.List.Basic
import Mathlib.Control.Basic

/-!
# Programs over a signature of effects

A program is a tree of operations: it asks its environment for the answer to an operation and goes
on from there. Everything a program shares with other programs (memory, channels, locks, the
network, clocks) is an operation, so the steps of a program are exactly the points at which others
may run in between.

A `Monitor` follows the events of a program with a state of its own. `Safe M s p Q` says that from
the monitor state `s` no event of `p` is a bad one and that `p` returns only with `Q`; the rules for
it (`safe_bind`, `safe_mono`, `safe_loop`) go by the shape of the program, and `safe_path` reads it
off the event sequences of the program. `Only` and `Ensures` are the two simpler statements that need
no monitor: which operations a program performs, and what it returns.
-/

/-- A signature of effects: the operations, and what each of them is answered with. -/
structure Sig where
  Op : Type
  Ans : Op → Type

/-- Programs over a signature. `diverge` neither asks nor returns. -/
inductive Prog (S : Sig) (α : Type) : Type
  | pure (a : α)
  | op (e : S.Op) (k : S.Ans e → Prog S α)
  | diverge

/-- An operation together with the answer it got. -/
structure Event (S : Sig) where
  op : S.Op
  ans : S.Ans op

instance {S : Sig} [DecidableEq S.Op] [∀ e, DecidableEq (S.Ans e)] : DecidableEq (Event S)
  | ⟨e, r⟩, ⟨e', r'⟩ =>
    if h : e = e' then
      decidable_of_iff (h ▸ r = r') ⟨fun hr => by subst h; exact congrArg _ hr, fun hr => by
        subst h; exact eq_of_heq (Event.mk.inj hr).2⟩
    else .isFalse fun heq => h (congrArg Event.op heq)

namespace Prog

variable {S : Sig} {α β γ : Type}

/-! ## Sequencing -/

protected def bind : Prog S α → (α → Prog S β) → Prog S β
  | .pure a, f => f a
  | .op e k, f => .op e fun r => (k r).bind f
  | .diverge, _ => .diverge

instance : Monad (Prog S) where
  pure := Prog.pure
  bind := Prog.bind

/-- The program that performs one operation and returns its answer. -/
def call (e : S.Op) : Prog S (S.Ans e) := .op e .pure

@[simp] theorem pure_eq (a : α) : (Prog.pure a : Prog S α) = Pure.pure a := rfl

@[simp] theorem op_bind (e : S.Op) (k : S.Ans e → Prog S α) (f : α → Prog S β) :
    Prog.op e k >>= f = .op e fun r => k r >>= f := rfl

@[simp] theorem diverge_bind (f : α → Prog S β) : (Prog.diverge : Prog S α) >>= f = .diverge := rfl

theorem bind_assoc_aux (p : Prog S α) (f : α → Prog S β) (g : β → Prog S γ) :
    p >>= f >>= g = p >>= fun a => f a >>= g := by
  induction p with
  | pure a => rfl
  | op e k ih => simp only [op_bind, ih]
  | diverge => rfl

theorem bind_pure_aux (p : Prog S α) : p >>= Pure.pure = p := by
  induction p with
  | pure a => rfl
  | op e k ih => simp only [op_bind, ih]
  | diverge => rfl

instance : LawfulMonad (Prog S) :=
  LawfulMonad.mk' (Prog S) bind_pure_aux (fun _ _ => rfl) bind_assoc_aux

def when (c : Prop) [Decidable c] (p : Prog S Unit) : Prog S Unit := if c then p else Pure.pure ()

/-- `loop body n b` runs `body` from the loop state `b`: an answer `.inl b'` is one more round from
`b'`, an answer `.inr a` leaves the loop. The loop itself is unbounded; `n` bounds the rounds of the
runs looked at, and a run that is still inside after `n` rounds does not return. -/
def loop (body : β → Prog S (β ⊕ α)) : ℕ → β → Prog S α
  | 0, _ => .diverge
  | n + 1, b => do
    match ← body b with
    | .inl b' => loop body n b'
    | .inr a => Pure.pure a

/-! ## Event sequences -/

/-- `Path p t q`: the program `p` can perform the events `t` and is then at `q`. -/
inductive Path : Prog S α → List (Event S) → Prog S α → Prop
  | nil (p : Prog S α) : Path p [] p
  | cons {e : S.Op} {k : S.Ans e → Prog S α} {r : S.Ans e} {t : List (Event S)} {q : Prog S α}
      (h : Path (k r) t q) : Path (.op e k) (⟨e, r⟩ :: t) q

/-- `Returns p t a`: the program `p` can perform the events `t` and return `a`. -/
def Returns (p : Prog S α) (t : List (Event S)) (a : α) : Prop := Path p t (Pure.pure a)

variable {t u : List (Event S)} {p : Prog S α}

theorem Path.append {q r : Prog S α} (h : Path p t q) (h' : Path q u r) :
    Path p (t ++ u) r := by
  induction h with
  | nil p => exact h'
  | cons _ ih => exact .cons (ih h')

theorem Path.split {r : Prog S α} (h : Path p (t ++ u) r) :
    ∃ q, Path p t q ∧ Path q u r := by
  induction t generalizing p with
  | nil => exact ⟨p, .nil p, h⟩
  | cons ev t ih =>
    cases h with
    | cons h =>
      obtain ⟨q, hq, hr⟩ := ih h
      exact ⟨q, .cons hq, hr⟩

theorem Path.unique {q q' : Prog S α} (h : Path p t q) (h' : Path p t q') :
    q = q' := by
  induction h with
  | nil p =>
    cases h'
    rfl
  | cons _ ih =>
    cases h' with
    | cons h' => exact ih h'

theorem Returns.unique {a b : α} (h : Returns p t a) (h' : Returns p t b) : a = b := by
  injection Path.unique h h'

variable {e : S.Op}

theorem Path.snoc {k : S.Ans e → Prog S α} (h : Path p t (.op e k)) (r : S.Ans e) :
    Path p (t ++ [⟨e, r⟩]) (k r) :=
  h.append (.cons (.nil _))

theorem Path.bind {p' : Prog S α} (h : Path p t p') (f : α → Prog S β) :
    Path (p >>= f) t (p' >>= f) := by
  induction h with
  | nil p => exact .nil _
  | cons _ ih => exact .cons ih

variable {f : α → Prog S β}

/-- A path of `p >>= f` from one that runs `p` to its end. -/
theorem Returns.bind {a : α} {q : Prog S β} (h : Returns p t a) (h' : Path (f a) u q) :
    Path (p >>= f) (t ++ u) q := by
  induction p generalizing t with
  | pure b =>
    cases h
    exact h'
  | diverge => cases h
  | op e k ih =>
    cases h with
    | cons h => exact .cons (ih _ h)

variable {body : β → Prog S (β ⊕ α)}

/-- A path of a loop from one round of it and a path of the rounds after. -/
theorem Returns.loop {n : ℕ} {b b' : β} {q : Prog S α} (h : Returns (body b) t (.inl b'))
    (h' : Path (Prog.loop body n b') u q) :
    Path (Prog.loop body (n + 1) b) (t ++ u) q :=
  Returns.bind h h'

theorem path_call {q : Prog S (S.Ans e)} (h : Path (call e) t q) :
    t = [] ∨ ∃ r, t = [⟨e, r⟩] := by
  cases h with
  | nil => exact .inl rfl
  | @cons _ _ r _ _ h =>
    cases h
    exact .inr ⟨r, rfl⟩

/-- What a program that is at its end returns. -/
def result : Prog S α → Option α
  | .pure a => some a
  | _ => none

/-- A path of `p >>= f` stays inside `p`, or runs `p` to its end and goes on in `f`. -/
theorem path_bind {q : Prog S β} (h : Path (p >>= f) t q) :
    (∃ p', Path p t p' ∧ q.result = none) ∨
      ∃ a u v, t = u ++ v ∧ Returns p u a ∧ Path (f a) v q := by
  induction p generalizing t with
  | pure a => exact .inr ⟨a, [], t, rfl, .nil _, h⟩
  | diverge =>
    cases h
    exact .inl ⟨_, .nil _, rfl⟩
  | op e k ih =>
    rw [op_bind] at h
    cases h with
    | nil => exact .inl ⟨_, .nil _, rfl⟩
    | @cons _ _ r t' _ h =>
      rcases ih r h with ⟨p', hp, hq⟩ | ⟨a, u, v, rfl, hu, hv⟩
      · exact .inl ⟨p', .cons hp, hq⟩
      · exact .inr ⟨a, ⟨e, r⟩ :: u, v, rfl, .cons hu, hv⟩

theorem returns_call {r : S.Ans e} (h : Returns (call e) t r) :
    t = [⟨e, r⟩] := by
  cases h with
  | cons h =>
    cases h
    rfl

theorem returns_pure {a b : α} :
    Returns (Pure.pure a : Prog S α) t b ↔ t = [] ∧ b = a := by
  constructor
  · intro h
    cases h
    exact ⟨rfl, rfl⟩
  · rintro ⟨rfl, rfl⟩
    exact .nil _

theorem returns_bind {b : β} (h : Returns (p >>= f) t b) :
    ∃ a u v, t = u ++ v ∧ Returns p u a ∧ Returns (f a) v b := by
  rcases path_bind h with ⟨-, -, hresult⟩ | hparts
  · cases hresult
  · exact hparts

theorem returns_call_pure {f : S.Ans e → α} {a : α} :
    Returns (call e >>= fun r => Pure.pure (f r)) t a ↔ ∃ r, t = [⟨e, r⟩] ∧ a = f r := by
  constructor
  · intro h
    obtain ⟨r, u, v, rfl, hcall, hpure⟩ := returns_bind h
    obtain ⟨rfl, rfl⟩ := returns_pure.mp hpure
    exact ⟨r, by rw [returns_call hcall, List.append_nil], rfl⟩
  · rintro ⟨r, rfl, rfl⟩
    exact .cons (.nil _)

/-- `Rounds body b ts b'`: from the loop state `b` the rounds `ts` lead to `b'`. -/
inductive Rounds (body : β → Prog S (β ⊕ α)) : β → List (List (Event S)) → β → Prop
  | nil (b : β) : Rounds body b [] b
  | cons {b b' b'' : β} {t : List (Event S)} {ts : List (List (Event S))}
      (h : Returns (body b) t (.inl b')) (hs : Rounds body b' ts b'') : Rounds body b (t :: ts) b''

/-- A path of `p >>= f` that diverges does so in `p`, or in `f` after `p` has returned. -/
theorem path_bind_diverge (h : Path (p >>= f) t .diverge) :
    Path p t .diverge ∨ ∃ a u v, t = u ++ v ∧ Returns p u a ∧ Path (f a) v .diverge := by
  induction p generalizing t with
  | pure a => exact .inr ⟨a, [], t, rfl, .nil _, h⟩
  | diverge =>
    cases h
    exact .inl (.nil _)
  | op e k ih =>
    rw [op_bind] at h
    cases h with
    | @cons _ _ r t' _ h =>
      rcases ih r h with hp | ⟨a, u, v, rfl, hu, hv⟩
      · exact .inl (.cons hp)
      · exact .inr ⟨a, ⟨e, r⟩ :: u, v, rfl, .cons hu, hv⟩

/-- A loop diverges only after rounds none of which leaves it. -/
theorem path_loop_diverge (hbody : ∀ b t, ¬ Path (body b) t .diverge) {n : ℕ} {b : β}
    (h : Path (Prog.loop body n b) t .diverge) :
    ∃ ts b', t = ts.flatten ∧ Rounds body b ts b' := by
  induction n generalizing b t with
  | zero =>
    cases h
    exact ⟨[], b, rfl, .nil b⟩
  | succ n ih =>
    rcases path_bind_diverge h with hp | ⟨x, u, v, rfl, hu, hv⟩
    · exact absurd hp (hbody b t)
    · cases x with
      | inl b' =>
        obtain ⟨ts, b'', rfl, hts⟩ := ih hv
        exact ⟨u :: ts, b'', rfl, .cons hu hts⟩
      | inr a => cases hv

/-- Perform at most `n` operations, the `i`-th one answered by `answer i`. -/
def play (answer : ℕ → (e : S.Op) → S.Ans e) :
    ℕ → ℕ → Prog S α → List (Event S) × Prog S α
  | n + 1, i, .op e k =>
    let rest := play answer n (i + 1) (k (answer i e))
    (⟨e, answer i e⟩ :: rest.1, rest.2)
  | _, _, p => ([], p)

theorem play_path (answer : ℕ → (e : S.Op) → S.Ans e) (n i : ℕ) (p : Prog S α) :
    Path p (play answer n i p).1 (play answer n i p).2 := by
  induction n generalizing i p with
  | zero => exact .nil _
  | succ n ih =>
    cases p with
    | op e k => exact .cons (ih _ _)
    | pure a => exact .nil _
    | diverge => exact .nil _

theorem play_returns {answer : ℕ → (e : S.Op) → S.Ans e} {n i : ℕ}
    (h : (play answer n i p).2.result.isSome = true) : ∃ a, Returns p (play answer n i p).1 a := by
  have hpath := play_path answer n i p
  generalize (play answer n i p).2 = q at h hpath
  cases q with
  | pure a => exact ⟨a, hpath⟩
  | op e k => cases h
  | diverge => cases h

end Prog

/-! ## Monitors -/

/-- A monitor: how its state moves with an event, which states are good, and which answers the
environment may give at all. -/
structure Monitor (S : Sig) (φ : Type) where
  next : φ → (e : S.Op) → S.Ans e → φ
  good : φ → Prop
  admits : (e : S.Op) → S.Ans e → Prop

namespace Monitor

variable {S : Sig} {φ : Type} (M : Monitor S φ)

/-- The monitor state after a sequence of events. -/
def run (s : φ) (t : List (Event S)) : φ := t.foldl (fun s ev => M.next s ev.op ev.ans) s

@[simp] theorem run_nil (s : φ) : M.run s [] = s := rfl

@[simp] theorem run_cons (s : φ) (ev : Event S) (t : List (Event S)) :
    M.run s (ev :: t) = M.run (M.next s ev.op ev.ans) t := rfl

@[simp] theorem run_append (s : φ) (t u : List (Event S)) :
    M.run s (t ++ u) = M.run (M.run s t) u := List.foldl_append ..

theorem run_of_keeps {M : Monitor S (List (Event S))} (h : ∀ t e r, M.next t e r = t ++ [⟨e, r⟩])
    (t u : List (Event S)) : M.run t u = t ++ u := by
  induction u generalizing t with
  | nil => simp
  | cons ev u ih => rw [run_cons, ih, h, List.append_assoc, List.singleton_append]

/-- The monitor that keeps the events and looks at all of them. -/
def history (good : List (Event S) → Prop) : Monitor S (List (Event S)) where
  next t e r := t ++ [⟨e, r⟩]
  good := good
  admits _ _ := True

def prod {ψ : Type} (M : Monitor S φ) (N : Monitor S ψ) : Monitor S (φ × ψ) where
  next s e r := (M.next s.1 e r, N.next s.2 e r)
  good s := M.good s.1 ∧ N.good s.2
  admits e r := M.admits e r ∧ N.admits e r

theorem run_history (good : List (Event S) → Prop) (t u : List (Event S)) :
    (history good).run t u = t ++ u := run_of_keeps (fun _ _ _ => rfl) t u

end Monitor

namespace Prog

variable {S : Sig} {φ α β : Type} {M : Monitor S φ}

/-- From the monitor state `s` every admitted run of the program stays good, and returns only with
`Q`. -/
def Safe (M : Monitor S φ) : φ → Prog S α → (α → φ → Prop) → Prop
  | s, .pure a, Q => Q a s
  | s, .op e k, Q => ∀ r, M.admits e r → M.good (M.next s e r) ∧ Safe M (M.next s e r) (k r) Q
  | _, .diverge, _ => True

variable {s : φ} {a : α}

@[simp] theorem safe_pure {Q : α → φ → Prop} :
    Safe M s (Pure.pure a) Q ↔ Q a s := Iff.rfl

variable {e : S.Op}

theorem safe_op {k : S.Ans e → Prog S α} {Q : α → φ → Prop} :
    Safe M s (.op e k) Q ↔
      ∀ r, M.admits e r → M.good (M.next s e r) ∧ Safe M (M.next s e r) (k r) Q := Iff.rfl

@[simp] theorem safe_diverge {Q : α → φ → Prop} : Safe M s .diverge Q := trivial

@[simp] theorem safe_call {Q : S.Ans e → φ → Prop} :
    Safe (α := no_index (S.Ans e)) M s (call e) Q ↔
      ∀ r, M.admits e r → M.good (M.next s e r) ∧ Q r (M.next s e r) := Iff.rfl

variable {p : Prog S α} {f : α → Prog S β}

@[simp] theorem safe_bind {Q : β → φ → Prop} :
    Safe M s (p >>= f) Q ↔ Safe M s p fun a s' => Safe M s' (f a) Q := by
  induction p generalizing s with
  | pure a => rfl
  | diverge => exact Iff.rfl
  | op e k ih =>
    rw [op_bind, safe_op, safe_op]
    exact forall_congr' fun r => imp_congr_right fun _ => and_congr_right fun _ => ih r

theorem safe_when {c : Prop} [Decidable c] {p : Prog S Unit} {Q : Unit → φ → Prop} :
    Safe M s (when c p) Q ↔ (c → Safe M s p Q) ∧ (¬ c → Q () s) := by
  unfold when
  split_ifs with h <;> simp [h]

theorem safe_mono {Q Q' : α → φ → Prop} (h : Safe M s p Q) (hQ : ∀ a s', Q a s' → Q' a s') :
    Safe M s p Q' := by
  induction p generalizing s with
  | pure a => exact hQ a s h
  | diverge => trivial
  | op e k ih => exact fun r hr => ⟨(h r hr).1, ih r (h r hr).2⟩

theorem Safe.bind {Q : α → φ → Prop} {R : β → φ → Prop} (h : Safe M s p Q)
    (hf : ∀ a s', Q a s' → Safe M s' (f a) R) : Safe M s (p >>= f) R :=
  safe_bind.mpr (safe_mono h hf)

/-- A program that is safe for a monitor is safe for every monitor that follows it. -/
theorem Safe.map {ψ : Type} {M' : Monitor S ψ} {f : φ → ψ}
    (hnext : ∀ s e r, M'.next (f s) e r = f (M.next s e r)) (hgood : ∀ s, M.good s → M'.good (f s))
    (hadmits : ∀ e r, M'.admits e r → M.admits e r) {Q : α → φ → Prop} (h : Safe M s p Q) :
    Safe M' (f s) p fun a s' => ∃ s₀, s' = f s₀ ∧ Q a s₀ := by
  induction p generalizing s with
  | pure a => exact ⟨s, rfl, h⟩
  | diverge => trivial
  | op e k ih =>
    intro r hr
    obtain ⟨hg, hrest⟩ := h r (hadmits e r hr)
    rw [hnext]
    exact ⟨hgood _ hg, ih r hrest⟩

variable {body : β → Prog S (β ⊕ α)}

/-- The rule for loops: a body that keeps `I` on every further round and leaves only with `Q`. -/
theorem safe_loop {I : β → φ → Prop} {Q : α → φ → Prop}
    (hbody : ∀ b s, I b s → Safe M s (body b) (fun x s' => x.elim (I · s') (Q · s'))) (n : ℕ) :
    ∀ {b : β} {s : φ}, I b s → Safe M s (loop body n b) Q := by
  induction n with
  | zero => intro b s _; trivial
  | succ n ih =>
    intro b s hI
    rw [loop, safe_bind]
    refine safe_mono (hbody b s hI) fun x s' hx => ?_
    cases x with
    | inl b' => exact ih hx
    | inr a => exact hx

/-- Every answer in the sequence is one the environment may give. -/
def Admitted (M : Monitor S φ) (t : List (Event S)) : Prop := ∀ ev ∈ t, M.admits ev.op ev.ans

variable {t : List (Event S)} {q : Prog S α}

/-- A safe program stays safe along its event sequences. -/
theorem safe_path {Q : α → φ → Prop} (h : Safe M s p Q) (hp : Path p t q) (ht : Admitted M t) :
    Safe M (M.run s t) q Q := by
  induction hp generalizing s with
  | nil p => exact h
  | cons _ ih =>
    have hr := h _ (ht _ List.mem_cons_self)
    exact ih hr.2 fun ev hev => ht ev (List.mem_cons_of_mem _ hev)

/-- The monitor state is good all along an event sequence. -/
theorem good_of_path {Q : α → φ → Prop} (h : Safe M s p Q) (hs : M.good s) (hp : Path p t q)
    (ht : Admitted M t) :
    M.good (M.run s t) := by
  induction hp generalizing s with
  | nil p => exact hs
  | cons _ ih =>
    have hr := h _ (ht _ List.mem_cons_self)
    exact ih hr.2 hr.1 fun ev hev => ht ev (List.mem_cons_of_mem _ hev)

/-- Every event sequence of a program that is safe for the history is good. -/
theorem history_of_path {good : List (Event S) → Prop} {Q : α → List (Event S) → Prop}
    (h : Safe (.history good) [] p Q) (hnil : good []) (hp : Path p t q) : good t := by
  have := good_of_path h hnil hp fun _ _ => trivial
  rwa [Monitor.run_history] at this

/-- What a safe program returns satisfies `Q` at the monitor state of its events. -/
theorem safe_returns {Q : α → φ → Prop} (h : Safe M s p Q) (hp : Returns p t a) (ht : Admitted M t)
    : Q a (M.run s t) :=
  safe_path h hp ht

/-! ## Programs that keep to some operations -/

/-- Every operation of the program satisfies `P`. -/
def Only (P : S.Op → Prop) : Prog S α → Prop
  | .pure _ => True
  | .op e k => P e ∧ ∀ r, Only P (k r)
  | .diverge => True

variable {P : S.Op → Prop}

@[simp] theorem only_pure : Only P (Pure.pure a : Prog S α) := trivial

@[simp] theorem only_diverge : Only P (.diverge : Prog S α) := trivial

theorem only_op_iff {k : S.Ans e → Prog S α} :
    Only P (.op e k) ↔ P e ∧ ∀ r, Only P (k r) := Iff.rfl

@[simp] theorem only_call : Only (α := no_index (S.Ans e)) P (call e) ↔ P e :=
  ⟨fun h => h.1, fun h => ⟨h, fun _ => trivial⟩⟩

theorem only_bind (hp : Only P p) (hf : ∀ a, Only P (f a)) :
    Only P (p >>= f) := by
  induction p with
  | pure a => exact hf a
  | diverge => trivial
  | op e k ih => exact ⟨hp.1, fun r => ih r (hp.2 r)⟩

theorem only_when {c : Prop} [Decidable c] {p : Prog S Unit} (hp : Only P p) :
    Only P (when c p) := by
  unfold when
  split_ifs
  · exact hp
  · exact only_pure

theorem only_loop (hbody : ∀ b, Only P (body b)) (n : ℕ) (b : β) :
    Only P (loop body n b) := by
  induction n generalizing b with
  | zero => trivial
  | succ n ih =>
    refine only_bind (hbody b) fun x => ?_
    cases x with
    | inl b' => exact ih b'
    | inr a => trivial

theorem Only.mono {P' : S.Op → Prop} (h : Only P p) (hP : ∀ e, P e → P' e) :
    Only P' p := by
  induction p with
  | pure a => trivial
  | diverge => trivial
  | op e k ih => exact ⟨hP e h.1, fun r => ih r (h.2 r)⟩

theorem only_of_forall (hP : ∀ e, P e) (p : Prog S α) : Only P p := by
  induction p with
  | pure a => trivial
  | diverge => trivial
  | op e k ih => exact ⟨hP e, ih⟩

theorem Only.of_path (h : Only P p) (hp : Path p t q) :
    ∀ ev ∈ t, P ev.op := by
  induction hp with
  | nil p => exact fun ev hev => absurd hev List.not_mem_nil
  | cons _ ih => exact List.forall_mem_cons.mpr ⟨h.1, ih (h.2 _)⟩

/-- What every operation of a program keeps, the program keeps. -/
theorem Only.safe_inv {I : φ → Prop} (h : Only P p) (hs : I s)
    (hstep : ∀ s e r, I s → P e → M.admits e r → M.good (M.next s e r) ∧ I (M.next s e r)) :
    Safe M s p fun _ s' => I s' := by
  induction p generalizing s with
  | pure a => exact hs
  | diverge => trivial
  | op e k ih =>
    intro r hr
    obtain ⟨hgood, hI⟩ := hstep s e r hs h.1 hr
    exact ⟨hgood, ih r (h.2 r) hI⟩

/-- A program whose operations a monitor does not look at leaves it as it is. -/
theorem Only.safe (h : Only P p) (hs : M.good s) (hnext : ∀ e r, P e → M.next s e r = s) :
    Safe M s p fun _ s' => s' = s := by
  refine h.safe_inv (I := (· = s)) rfl ?_
  rintro _ e r rfl he _
  rw [hnext e r he]
  exact ⟨hs, rfl⟩

theorem Only.safe_bind {Q : β → φ → Prop} (h : Only P p) (hs : M.good s)
    (hnext : ∀ e r, P e → M.next s e r = s) (hf : ∀ a, Safe M s (f a) Q) :
    Safe M s (p >>= f) Q := by
  rw [Prog.safe_bind]
  refine safe_mono (h.safe hs hnext) ?_
  rintro a _ rfl
  exact hf a

/-- Every operation of the program satisfies `P`, and the program returns after finitely many of them. -/
def Ends (P : S.Op → Prop) : Prog S α → Prop
  | .pure _ => True
  | .op e k => P e ∧ ∀ r, Ends P (k r)
  | .diverge => False

theorem ends_pure : Ends P (Pure.pure a : Prog S α) := trivial

theorem ends_call (h : P e) : Ends P (call e) := ⟨h, fun _ => trivial⟩

theorem ends_bind (hp : Ends P p) (hf : ∀ a, Ends P (f a)) :
    Ends P (p >>= f) := by
  induction p with
  | pure a => exact hf a
  | diverge => exact hp.elim
  | op e k ih => exact ⟨hp.1, fun r => ih r (hp.2 r)⟩

theorem Ends.not_diverge (h : Ends P p) (t : List (Event S)) : ¬ Path p t .diverge := by
  intro hp
  induction p generalizing t with
  | pure a => cases hp
  | diverge => exact h
  | op e k ih =>
    cases hp with
    | cons hp => exact ih _ (h.2 _) _ hp

theorem ends_of_not_diverge (h : ∀ t, ¬ Path p t .diverge) :
    Ends (fun _ => True) p := by
  induction p with
  | pure a => trivial
  | diverge => exact h [] (.nil _)
  | op e k ih => exact ⟨trivial, fun r => ih r fun t ht => h _ (.cons ht)⟩

/-! ## What a program returns -/

/-- Whatever it is answered, the program returns only values with `Q`. -/
def Ensures (Q : α → Prop) : Prog S α → Prop
  | .pure a => Q a
  | .op _ k => ∀ r, Ensures Q (k r)
  | .diverge => True

variable {Q : α → Prop}

@[simp] theorem ensures_pure : Ensures Q (Pure.pure a : Prog S α) ↔ Q a := Iff.rfl

theorem Ensures.mono {R : α → Prop} (h : Ensures Q p) (hQ : ∀ a, Q a → R a) :
    Ensures R p := by
  induction p with
  | pure a => exact hQ a h
  | diverge => trivial
  | op e k ih => exact fun r => ih r (h r)

theorem ensures_bind {R : β → Prop} (hp : Ensures Q p) (hf : ∀ a, Q a → Ensures R (f a)) :
    Ensures R (p >>= f) := by
  induction p with
  | pure a => exact hf a hp
  | diverge => trivial
  | op e k ih => exact fun r => ih r (hp r)

theorem ensures_after {R : β → Prop} (hf : ∀ a, Ensures R (f a)) : Ensures R (p >>= f) := by
  induction p with
  | pure a => exact hf a
  | diverge => trivial
  | op e k ih => exact fun r => ih r

theorem ensures_loop {I : β → Prop} (hbody : ∀ b, I b → Ensures (fun x => x.elim I Q) (body b))
    (n : ℕ) {b : β} (hb : I b) :
    Ensures Q (loop body n b) := by
  induction n generalizing b with
  | zero => trivial
  | succ n ih =>
    refine ensures_bind (hbody b hb) fun x hx => ?_
    cases x with
    | inl b' => exact ih hx
    | inr a => exact hx

variable {R : α → φ → Prop}

theorem Safe.and_ensures (h : Safe M s p R) (hp : Ensures Q p) :
    Safe M s p fun a s' => R a s' ∧ Q a := by
  induction p generalizing s with
  | pure a => exact ⟨h, hp⟩
  | diverge => trivial
  | op e k ih => exact fun r hr => ⟨(h r hr).1, ih r (h r hr).2 (hp r)⟩

/-! ## Monitors side by side -/

/-- A program that is safe ends in a good state when it begins in one. -/
theorem Safe.and_good (h : Safe M s p R) (hs : M.good s) :
    Safe M s p fun a s' => R a s' ∧ M.good s' := by
  induction p generalizing s with
  | pure a => exact ⟨h, hs⟩
  | diverge => trivial
  | op e k ih => exact fun r hr => ⟨(h r hr).1, ih r (h r hr).2 (h r hr).1⟩

/-- A program is safe for a monitor that moves as another one on the operations of the program. -/
theorem Safe.congr {M' : Monitor S φ} (h : Safe M s p R) (hp : Only P p)
    (hnext : ∀ s e r, P e → M'.next s e r = M.next s e r) (hgood : ∀ s, M.good s → M'.good s)
    (hadmits : ∀ e r, M'.admits e r → M.admits e r) :
    Safe M' s p R := by
  induction p generalizing s with
  | pure a => exact h
  | diverge => trivial
  | op e k ih =>
    intro r hr
    obtain ⟨hg, hrest⟩ := h r (hadmits e r hr)
    rw [hnext s e r hp.1]
    exact ⟨hgood _ hg, ih r hrest (hp.2 r)⟩

theorem Safe.prod {ψ : Type} {N : Monitor S ψ} {t : ψ} {R' : α → ψ → Prop} (h : Safe M s p R)
    (h' : Safe N t p R') :
    Safe (M.prod N) (s, t) p fun a g => R a g.1 ∧ R' a g.2 := by
  induction p generalizing s t with
  | pure a => exact ⟨h, h'⟩
  | diverge => trivial
  | op e k ih =>
    intro r hr
    obtain ⟨hg, hrest⟩ := h r hr.1
    obtain ⟨hg', hrest'⟩ := h' r hr.2
    exact ⟨⟨hg, hg'⟩, ih r hrest hrest'⟩

attribute [irreducible] Safe Only Ensures

end Prog

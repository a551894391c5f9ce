import AixvolinkPbx.Media.Ledger
import Mathlib.Data.List.Induction

/-!
# The leases of open sessions

What the ledger says about a factory.

1. Outside of the steps of `New` and `Close`, `InUse` is twice the number of sessions that `New` has
   returned and nobody has closed (`inUse_of_quiet`).
2. A `New` that fails leaves the counter and the leased ports as the other calls have left them
   (`failed_new`).
3. Two open sessions have no local port in common (`disjoint_of_open`).
4. A program that closes what it makes has released the leases of all its sessions when it returns
   (`released_of_returned`).
-/

namespace AixvolinkPbx.Factory

open Portalloc (Config Hands Lease Once PoolOp Pool poolSig)

variable {E : Sig} {X : Type} {pool : Pool} {client : X → Prog (leaseSig E) Unit}

/-! ## Outside of `New` and `Close` -/

/-- A call with these events is inside of `New`. -/
def inNew (past : List (Event (leaseSig E))) : Bool :=
  past.foldl (fun inside ev =>
    match ev.op with
    | .inr (.inl .newCalled) => true
    | .inr (.inl (.newReturned _)) => false
    | _ => inside) false

theorem inNew_of_creating {x : Call X} {past : List (Event (leaseSig E))} {made : Option MediaSession}
    (h : (keeper.run (Keeper.start x) past).2.stage = .creating made) : inNew past = true := by
  induction past using List.reverseRecOn generalizing made with
  | nil => cases h
  | append_singleton past ev ih =>
    obtain ⟨e, r⟩ := ev
    rw [Monitor.run_append] at h
    rw [inNew, List.foldl_append]
    rcases e with e | e | e
    · exact ih ((nextPool_other _ e r).1.symm.trans h)
    · cases e with
      | newCalled => rfl
      | newReturned | closeExit => cases h
      | closeEnter m =>
        cases r with
        | false => exact ih h
        | true => cases h
      | make caller callee =>
        replace h : Stage.make _ (keeper.run (Keeper.start x) past).2.stage = .creating made := h
        cases hstage : (keeper.run (Keeper.start x) past).2.stage with
        | creating made' => exact ih hstage
        | outside | closing =>
          rw [hstage] at h
          cases h
      | _ => exact ih h
    · exact ih h

/-- No call is inside of `New`, and no session is being closed. -/
structure Quiet (st : FactoryState E X) : Prop where
  new : ∀ th ∈ st.threads, inNew th.past = false
  close : ∀ s ∈ st.shared.sessions, s.closeOnce ≠ .running

variable {st : FactoryState E X}

theorem running_of_quiet (hquiet : Quiet st) : st.shared.running = 0 := by
  refine Multiset.eq_zero_of_forall_notMem fun j hj => ?_
  obtain ⟨k, s, hs, hmem⟩ := mem_sum_mapIdx.mp hj
  rw [runningAt, if_neg (hquiet.close s (List.mem_of_getElem? hs))] at hmem
  exact Multiset.notMem_zero _ hmem

theorem outside_of_quiet (h : Ledger pool st.shared (keepers st)) (hquiet : Quiet st) {g : Keeper}
    (hg : g ∈ keepers st) : g.2.stage = .outside := by
  cases hstage : g.2.stage with
  | outside => rfl
  | creating made =>
    obtain ⟨th, hth, rfl⟩ := List.mem_map.mp hg
    cases (hquiet.new th hth).symm.trans (inNew_of_creating hstage)
  | closing m =>
    have hmem : m.id ∈ g.2.closing := by
      rw [Own.closing, hstage]
      exact Multiset.mem_singleton_self _
    have hin := mem_sum_map (f := fun g : Keeper => g.2.closing) hg hmem
    rw [h.closers, running_of_quiet hquiet] at hin
    cases Multiset.notMem_zero _ hin

/-! ## The sessions that `New` has returned -/

def returnedBy (ev : Event (leaseSig E)) : Option MediaSession :=
  match ev.op with
  | .inr (.inl (.newReturned m)) => m
  | _ => none

/-- The sessions that `New` has returned. -/
def returnedSessions (st : FactoryState E X) : List MediaSession :=
  st.threads.flatMap fun th => th.past.filterMap returnedBy

/-- Nobody has begun to close the session. -/
def Shared.isOpen (sh : Shared) (m : MediaSession) : Bool :=
  (sh.sessions[m.id]?).any fun s => s.closeOnce = .idle

/-- The number of sessions returned by `New` that nobody has begun to close. -/
def openSessions (st : FactoryState E X) : ℕ := (returnedSessions st).countP st.shared.isOpen

theorem next_made (g : Keeper) (e : (leaseSig E).Op) (r : (leaseSig E).Ans e) :
    (keeper.next g e r).2.made = (returnedBy ⟨e, r⟩).toList ++ g.2.made := by
  rcases e with e | e | e
  · exact (nextPool_other g.2 e r).2.2.1
  · cases e with
    | closeEnter m => cases r <;> rfl
    | _ => rfl
  · rfl

theorem made_run (g : Keeper) (past : List (Event (leaseSig E))) :
    (↑(keeper.run g past).2.made : Multiset MediaSession) =
      ↑(past.filterMap returnedBy) + ↑g.2.made := by
  induction past generalizing g with
  | nil => exact (zero_add _).symm
  | cons ev past ih =>
    obtain ⟨e, r⟩ := ev
    rw [Monitor.run_cons, ih, next_made]
    cases hev : returnedBy ⟨e, r⟩ with
    | none => rw [List.filterMap_cons_none hev, Option.toList_none, List.nil_append]
    | some m =>
      rw [List.filterMap_cons_some hev, Option.toList_some, List.singleton_append, ← Multiset.cons_coe,
        ← Multiset.cons_coe, Multiset.add_cons, Multiset.cons_add]

/-- Outside of `New`, the sessions there are have been returned. -/
theorem returned_of_quiet (h : Ledger pool st.shared (keepers st)) (hquiet : Quiet st) :
    (↑(returnedSessions st) : Multiset MediaSession) = st.shared.pointers := by
  rw [← h.brought, returnedSessions, ← sum_map_coe, keepers, List.map_map]
  refine congrArg List.sum (List.map_congr_left fun th hth => ?_)
  have hstage := outside_of_quiet h hquiet (List.mem_map_of_mem hth)
  show _ = Own.brought (keeper.run (Keeper.start th.arg) th.past).2
  rw [Own.brought, hstage]
  show _ = (↑(keeper.run (Keeper.start th.arg) th.past).2.made : Multiset MediaSession)
  rw [made_run]
  exact (add_zero _).symm

/-- An open session counts once. -/
def SessionState.counts (s : SessionState) : ℕ := if s.closeOnce = .idle then 1 else 0

theorem card_openLeases (sh : Shared) :
    sh.openLeases.card = 2 * (sh.sessions.map SessionState.counts).sum := by
  unfold Shared.openLeases
  induction sh.sessions with
  | nil => rfl
  | cons s sessions ih =>
    have hone : s.openLeases.card = 2 * s.counts := by
      unfold SessionState.openLeases SessionState.counts
      split_ifs <;> rfl
    rw [List.map_cons, List.sum_cons, Multiset.card_add, ih, hone, List.map_cons, List.sum_cons, mul_add]

theorem countP_pointers (sh : Shared) :
    sh.pointers.countP (fun m => sh.isOpen m) = (sh.sessions.map SessionState.counts).sum := by
  refine map_sum_mapIdx pointerAt (Multiset.countPAddMonoidHom fun m => sh.isOpen m) fun i s hs => ?_
  show Multiset.countP _ {_} = _
  have hopen : sh.isOpen ⟨i, s.caller, s.callee⟩ = decide (s.closeOnce = .idle) := by
    rw [Shared.isOpen, hs]
    rfl
  rw [← Multiset.cons_zero, Multiset.countP_cons, Multiset.countP_zero, zero_add, hopen,
    SessionState.counts]
  exact if_congr decide_eq_true_iff rfl rfl

variable {gs : List Keeper}

theorem sum_keepers {M : Type} [AddMonoid M] {f : Keeper → M} (h : ∀ g ∈ gs, f g = 0) :
    (gs.map f).sum = 0 := by
  refine List.sum_eq_zero fun x hx => ?_
  obtain ⟨g, hg, rfl⟩ := List.mem_map.mp hx
  exact h g hg

/-- Outside of the steps of `New` and `Close`, the leases are those of the open sessions. -/
theorem inUse_of_quiet (h : Ledger pool st.shared (keepers st)) (hquiet : Quiet st) :
    st.shared.pool.inUse = 2 * openSessions st := by
  have hrest := fun g hg => (h.fits g hg).rest (outside_of_quiet h hquiet hg)
  have hleases : ((keepers st).map fun g => g.2.leases).sum = 0 := sum_keepers fun g hg => (hrest g hg).1
  have howes : ((keepers st).map fun g => g.1.owes).sum = 0 := sum_keepers fun g hg => (hrest g hg).2.2
  have howners := h.owners
  rw [hleases, zero_add] at howners
  have hinUse := h.inUse
  rw [howes, add_zero] at hinUse
  have hopen : openSessions st = (st.shared.sessions.map SessionState.counts).sum := by
    rw [← countP_pointers, ← returned_of_quiet h hquiet, Multiset.coe_countP, openSessions]
    simp only [Bool.decide_eq_true]
  rw [hinUse, ← card_idleLeases, ← howners, card_openLeases, hopen]
  push_cast
  rfl

/-! ## A `New` that fails -/

/-- What an event adds to the counter. -/
def counted : Event (leaseSig E) → ℤ
  | ⟨.inl (.addInUse delta), _⟩ => delta
  | _ => 0

/-- The lease that an event makes. -/
def leasedBy : Event (leaseSig E) → Multiset Lease
  | ⟨.inl (.allocate port), id⟩ => {⟨id, port⟩}
  | _ => 0

/-- The lease that an event begins to release. -/
def releasedBy : Event (leaseSig E) → Multiset Lease
  | ⟨.inl (.onceEnter lease), true⟩ => {lease}
  | _ => 0

def otherEvents (i : ℕ) (ls : List (FactoryLabel E X)) : List (Event (leaseSig E)) :=
  ls.filterMap fun
    | .act j ev => if j = i then none else some ev
    | _ => none

section Events

variable {sh sh' : Shared} {i : ℕ} {g : Keeper} {psh psh' : Portalloc.Shared} {capacity : ℕ}

/-- A lease is released by the call that is responsible for it. -/
theorem entered_of_perform {lease : Lease} {r : Bool} (hidle : lease ∈ idleLeases psh)
    (hperf : Portalloc.perform capacity psh (.onceEnter lease) r psh') :
    r = true := by
  obtain ⟨s, hs, honce, -⟩ := mem_idleLeases.mp hidle
  replace hperf : Portalloc.entersOnce psh lease r psh' := hperf
  rw [Portalloc.entersOnce, hs, Option.map_some, honce] at hperf
  exact hperf.1

theorem leases_pool {e : PoolOp} {o : Own} {r : poolSig.Ans e}
    (hidle : ∀ lease ∈ o.leases, lease ∈ idleLeases psh) (hgood : (o.nextPool e r).bad = false)
    (hperf : Portalloc.perform capacity psh e r psh') :
    (o.nextPool e r).leases + releasedBy (E := E) ⟨.inl e, r⟩ =
      o.leases + leasedBy (E := E) ⟨.inl e, r⟩ := by
  cases e with
  | allocate port =>
    show (⟨r, port⟩ ::ₘ o.leases) + 0 = o.leases + {_}
    rw [add_zero, ← Multiset.singleton_add, add_comm]
  | onceEnter lease =>
    have hmem : lease ∈ o.leases := by
      by_contra hmem
      simp [Own.nextPool, hmem] at hgood
    obtain rfl := entered_of_perform (hidle lease hmem) hperf
    show o.leases.erase lease + {lease} = o.leases + 0
    rw [add_zero, add_comm, Multiset.singleton_add, Multiset.cons_erase hmem]
  | _ => rfl

theorem owes_pool (h : Hands) (e : PoolOp) (r : poolSig.Ans e) :
    ((handsBefore h e).next e r).owes + counted (E := E) ⟨.inl e, r⟩ +
        (releasedBy (E := E) ⟨.inl e, r⟩).card =
      h.owes + (leasedBy (E := E) ⟨.inl e, r⟩).card := by
  have hnone : h.owes + 0 + ((0 : Multiset Lease).card : ℤ) =
    h.owes + ((0 : Multiset Lease).card : ℤ) := by
    rw [add_zero]
  cases e with
  | select => cases r <;> exact hnone
  | onceEnter lease =>
    cases r with
    | true =>
      show h.owes - 1 + 0 + 1 = h.owes + 0
      omega
    | false => exact hnone
  | addInUse delta =>
    show h.owes - delta + delta + 0 = h.owes + 0
    omega
  | allocate port =>
    show h.owes + 1 + 0 + 0 = h.owes + 1
    omega
  | _ => exact hnone

theorem inUse_pool {e : PoolOp} {r : poolSig.Ans e}
    (hperf : Portalloc.perform capacity psh e r psh') :
    psh'.inUse = psh.inUse + counted (E := E) ⟨.inl e, r⟩ := by
  cases e with
  | select =>
    cases r with
    | received port =>
      obtain ⟨rest, -, rfl⟩ := hperf
      exact (add_zero _).symm
    | done =>
      obtain rfl : psh' = psh := hperf
      exact (add_zero _).symm
    | empty =>
      obtain ⟨-, rfl⟩ := hperf
      exact (add_zero _).symm
  | send port =>
    obtain ⟨-, rfl⟩ := hperf
    exact (add_zero _).symm
  | addInUse delta =>
    obtain rfl : psh' = _ := hperf
    rfl
  | allocate port =>
    obtain ⟨-, rfl⟩ := hperf
    exact (add_zero _).symm
  | onceEnter lease =>
    replace hperf : Portalloc.entersOnce psh lease r psh' := hperf
    unfold Portalloc.entersOnce at hperf
    split at hperf
    · obtain ⟨-, rfl⟩ := hperf
      exact (add_zero _).symm
    · obtain ⟨-, rfl⟩ := hperf
      exact (add_zero _).symm
    · exact hperf.elim
  | storeReleased | onceExit =>
    obtain rfl : psh' = _ := hperf
    exact (add_zero _).symm
  | listen | close =>
    obtain rfl : psh' = psh := hperf
    exact (add_zero _).symm

theorem pool_of_performSession {e : SessionOp} {r : sessionSig.Ans e} (h : performSession sh e r sh') :
    sh'.pool = sh.pool := by
  have henters : ∀ {once start m r}, enters once start sh m r sh' → sh'.pool = sh.pool := by
    intro once start m r h
    unfold enters at h
    split at h
    · rw [h.2]
      rfl
    · rw [h.2]
    · exact h.elim
  cases e with
  | make =>
    obtain ⟨-, rfl⟩ := h
    rfl
  | runEnter m => exact henters h
  | closeEnter m => exact henters h
  | loadRunErr =>
    obtain ⟨-, rfl⟩ := h
    rfl
  | storeRunErr | runExit | closeDone | closeExit =>
    obtain rfl : sh' = _ := h
    rfl
  | newCalled | newReturned | newRewriter | newV7 | isConfigured | groupWait =>
    obtain rfl : sh' = sh := h
    rfl

/-- What an event does to the counter and to the leases nobody has begun to release. -/
theorem Ledger.event (h : Ledger pool sh gs) (hget : gs[i]? = some g) {e : (leaseSig E).Op}
    {r : (leaseSig E).Ans e} (hgood : (keeper (E := E)).good (keeper.next g e r))
    (hperf : perform pool.capacity sh e r sh') :
    sh'.pool.inUse = sh.pool.inUse + counted ⟨e, r⟩ ∧
      idleLeases sh'.pool + releasedBy ⟨e, r⟩ = idleLeases sh.pool + leasedBy ⟨e, r⟩ := by
  have hsame : sh'.pool = sh.pool → sh'.pool.inUse = sh.pool.inUse + 0 ∧
      idleLeases sh'.pool + 0 = idleLeases sh.pool + 0 := by
    intro hpool
    rw [hpool]
    exact ⟨(add_zero _).symm, rfl⟩
  rcases e with e | e | e
  · obtain ⟨hperf, -⟩ := hperf
    have hidle : ∀ lease ∈ g.2.leases, lease ∈ idleLeases sh.pool :=
      fun lease => h.idle_of_mem (List.mem_of_getElem? hget)
    have hbefore := handsBefore_fits (h.fits g (List.mem_of_getElem? hget)).hands hidle hgood.2
    have howners := owners_pool hidle hbefore hgood.1 hgood.2 hperf
    have hleases := leases_pool (E := E) hidle hgood.2 hperf
    refine ⟨inUse_pool hperf, add_left_cancel (a := g.2.leases) ?_⟩
    calc g.2.leases + (idleLeases sh'.pool + releasedBy ⟨.inl e, r⟩)
        = (g.2.nextPool e r).leases + releasedBy ⟨.inl e, r⟩ + idleLeases sh.pool := by
          rw [← add_assoc, ← howners]
          abel
      _ = g.2.leases + (idleLeases sh.pool + leasedBy ⟨.inl e, r⟩) := by
          rw [hleases]
          abel
  · exact hsame (pool_of_performSession hperf)
  · obtain rfl : sh' = sh := hperf
    exact hsame rfl

end Events

/-- A call inside of `New` that has made no session: apart from what the other calls did since, the
leases are those before and those of the call. -/
structure Pending (before : Portalloc.Shared) (others : List (Event (leaseSig E))) (psh : Portalloc.Shared)
    (g : Keeper) : Prop where
  stage : g.2.stage = .creating none
  inUse : psh.inUse + g.1.owes = before.inUse + (others.map counted).sum + g.2.leases.card
  leases : idleLeases psh + (others.map releasedBy).sum =
    idleLeases before + (others.map leasedBy).sum + g.2.leases

section Pending

variable {before : Portalloc.Shared} {others : List (Event (leaseSig E))} {g : Keeper}

theorem Pending.other {ev : Event (leaseSig E)} (h : Pending before others psh g)
    (hinUse : psh'.inUse = psh.inUse + counted ev)
    (hidle : idleLeases psh' + releasedBy ev = idleLeases psh + leasedBy ev) :
    Pending before (others ++ [ev]) psh' g := by
  refine ⟨h.stage, ?_, ?_⟩
  · have hbefore := h.inUse
    rw [List.map_append, List.sum_append, List.map_singleton, List.sum_singleton]
    omega
  · rw [List.map_append, List.map_append, List.sum_append, List.sum_append, List.map_singleton,
      List.map_singleton, List.sum_singleton, List.sum_singleton]
    calc idleLeases psh' + ((others.map releasedBy).sum + releasedBy ev)
        = idleLeases psh + (others.map releasedBy).sum + leasedBy ev := by
          rw [add_comm (List.sum _), ← add_assoc, hidle]
          abel
      _ = idleLeases before + ((others.map leasedBy).sum + leasedBy ev) + g.2.leases := by
          rw [h.leases]
          abel

theorem Pending.own {e : PoolOp} {r : poolSig.Ans e} (h : Pending before others psh g)
    (hleases : (g.2.nextPool e r).leases + releasedBy (E := E) ⟨.inl e, r⟩ =
      g.2.leases + leasedBy (E := E) ⟨.inl e, r⟩)
    (hinUse : psh'.inUse = psh.inUse + counted (E := E) ⟨.inl e, r⟩)
    (hidle : idleLeases psh' + releasedBy (E := E) ⟨.inl e, r⟩ =
      idleLeases psh + leasedBy (E := E) ⟨.inl e, r⟩) :
    Pending before others psh' ((handsBefore g.1 e).next e r, g.2.nextPool e r) := by
  refine ⟨(nextPool_other g.2 e r).1.trans h.stage, ?_, ?_⟩
  · have hbefore := h.inUse
    have howes := owes_pool (E := E) g.1 e r
    have hcard := congrArg (fun m : Multiset Lease => (m.card : ℤ)) hleases
    simp only [Multiset.card_add, Nat.cast_add] at hcard
    show psh'.inUse + ((handsBefore g.1 e).next e r).owes = _ + ((g.2.nextPool e r).leases.card : ℤ)
    omega
  · refine add_right_cancel (b := releasedBy (E := E) ⟨.inl e, r⟩) ?_
    calc idleLeases psh' + (others.map releasedBy).sum + releasedBy (E := E) ⟨.inl e, r⟩
        = idleLeases psh + (others.map releasedBy).sum + leasedBy (E := E) ⟨.inl e, r⟩ := by
          rw [add_right_comm, hidle]
          abel
      _ = idleLeases before + (others.map leasedBy).sum +
            (g.2.leases + leasedBy (E := E) ⟨.inl e, r⟩) := by
          rw [h.leases]
          abel
      _ = idleLeases before + (others.map leasedBy).sum + (g.2.nextPool e r).leases +
            releasedBy (E := E) ⟨.inl e, r⟩ := by
          rw [← hleases]
          abel

/-- Inside of `New`: with no session made, or with one. -/
def Inside (before : Portalloc.Shared) (others : List (Event (leaseSig E))) (psh : Portalloc.Shared)
    (g : Keeper) : Prop :=
  Pending before others psh g ∨ ∃ m, g.2.stage = .creating (some m)

theorem Inside.session {e : SessionOp} {r : sessionSig.Ans e} (h : Inside before others psh g)
    (hgood : (g.2.nextSession g.1 e r).bad = false) (hreturn : ∀ m, e ≠ .newReturned m) :
    Inside before others psh (handsAt g.1 e, g.2.nextSession g.1 e r) := by
  have hstage : ∃ made, g.2.stage = .creating made := by
    rcases h with h | ⟨m, hm⟩
    · exact ⟨none, h.stage⟩
    · exact ⟨some m, hm⟩
  obtain ⟨made, hstage⟩ := hstage
  cases e with
  | newReturned m => exact absurd rfl (hreturn m)
  | newCalled => simp [Own.nextSession, hstage] at hgood
  | closeExit m => simp [Own.nextSession, hstage] at hgood
  | make caller callee => exact .inr ⟨⟨r, caller, callee⟩, congrArg (Stage.make _) hstage⟩
  | closeEnter m =>
    cases r with
    | true => simp [Own.nextSession, hstage] at hgood
    | false => exact h.imp (fun h => ⟨h.stage, h.inUse, h.leases⟩) id
  | _ => exact h

end Pending

def newCall : Event (leaseSig E) := ⟨.inr (.inl .newCalled), ()⟩

/-- Its return; none is an error. -/
def newReturn (m : Option MediaSession) : Event (leaseSig E) := ⟨.inr (.inl (.newReturned m)), ()⟩

variable {ls : List (FactoryLabel E X)} {i : ℕ}

theorem otherEvents_own (h : ∀ l ∈ ls, ∃ ev, l = .act i ev) :
    otherEvents i ls = [] := by
  refine List.filterMap_eq_nil_iff.mpr fun l hl => ?_
  obtain ⟨ev, rfl⟩ := h l hl
  exact if_pos rfl

theorem otherEvents_append (i : ℕ) (ls ls' : List (FactoryLabel E X)) :
    otherEvents i (ls ++ ls') = otherEvents i ls ++ otherEvents i ls' := List.filterMap_append

variable {st' : FactoryState E X}

theorem inside_step {l : FactoryLabel E X} {g : Keeper} {before : Portalloc.Shared}
    {others : List (Event (leaseSig E))} (ht : FactoryTracked st)
    (hledger : Ledger pool st.shared (keepers st))
    (hstep : (factorySystem pool client).Step st l st') (hreturn : ∀ m, l ≠ .act i (newReturn m))
    (hget : (keepers st)[i]? = some g) (h : Inside before others st.shared.pool g) :
    ∃ g', (keepers st')[i]? = some g' ∧
      Inside before (others ++ otherEvents i [l]) st'.shared.pool g' := by
  rcases factoryStep_cases ht hstep with
    ⟨x, rfl, hshared, hkeepers, -⟩ | ⟨j, e, r, g', rfl, hget', hkeepers, hgood, hperf⟩
  · refine ⟨g, ?_, ?_⟩
    · rw [hkeepers, List.getElem?_append_left (List.getElem?_eq_some_iff.mp hget).1, hget]
    · rwa [hshared, show otherEvents i [System.Label.spawn x] = [] from rfl, List.append_nil]
  · obtain ⟨hinUse, hidle⟩ := hledger.event hget' hgood hperf
    by_cases hij : j = i
    · -- an event of the call itself
      subst j
      obtain rfl := Option.some.inj (hget'.symm.trans hget)
      have hnone : otherEvents (X := X) i [.act i ⟨e, r⟩] = [] := by simp [otherEvents]
      refine ⟨keeper.next g' e r, ?_, ?_⟩
      · rw [hkeepers, List.getElem?_set_self (List.getElem?_eq_some_iff.mp hget).1]
      rw [hnone, List.append_nil]
      rcases e with e | e | e
      · rcases h with h | ⟨m, hm⟩
        · refine .inl (h.own (leases_pool ?_ hgood.2 hperf.1) hinUse hidle)
          exact fun lease => hledger.idle_of_mem (List.mem_of_getElem? hget)
        · exact .inr ⟨m, (nextPool_other g'.2 e r).1.trans hm⟩
      · have hpool : st'.shared.pool = st.shared.pool := pool_of_performSession hperf
        rw [hpool]
        refine h.session hgood.2 fun m hm => ?_
        subst e
        exact hreturn m rfl
      · have hshared : st'.shared = st.shared := hperf
        rwa [hshared]
    · have hother : otherEvents (X := X) i [.act j ⟨e, r⟩] = [⟨e, r⟩] := by simp [otherEvents, hij]
      refine ⟨g, ?_, ?_⟩
      · rw [hkeepers, List.getElem?_set_ne hij, hget]
      · rw [hother]
        exact h.imp (fun h => h.other hinUse hidle) id

/-- The call of `New` finds nothing in the hands of its thread. -/
theorem inside_called (ht : FactoryTracked st) (hledger : Ledger pool st.shared (keepers st))
    (hcalled : (factorySystem pool client).Step st (.act i newCall) st') :
    ∃ g, (keepers st')[i]? = some g ∧ Inside (E := E) st.shared.pool [] st'.shared.pool g := by
  rcases factoryStep_cases ht hcalled with ⟨x, hl, -⟩ | ⟨j, e, r, g, hl, hget, hkeepers, hgood, hperf⟩
  · cases hl
  · cases hl
    have hshared : st'.shared = st.shared := hperf
    have houtside : g.2.stage = .outside := by
      by_contra hstage
      have hbad : (g.2.nextSession g.1 .newCalled ()).bad = false := hgood.2
      simp [Own.nextSession, hstage] at hbad
    obtain ⟨hleases, -, howes⟩ := (hledger.fits g (List.mem_of_getElem? hget)).rest houtside
    refine ⟨(handsAt g.1 .newCalled, g.2.nextSession g.1 .newCalled ()), ?_, .inl ⟨rfl, ?_, ?_⟩⟩
    · rw [hkeepers, List.getElem?_set_self (List.getElem?_eq_some_iff.mp hget).1]
      rfl
    · show st'.shared.pool.inUse + g.1.owes = _ + 0 + (g.2.leases.card : ℤ)
      rw [hshared, howes, hleases, Multiset.card_zero, Nat.cast_zero, add_zero, add_zero]
    · show idleLeases st'.shared.pool + 0 = _ + 0 + g.2.leases
      rw [hshared, hleases, add_zero, add_zero]

/-- What a `New` has done so far, in a run on from its call. -/
theorem inside_of_steps (hclient : Closes client) {st₁ : FactoryState E X}
    {mid : List (FactoryLabel E X)} (h : (factorySystem pool client).Reaches (initial pool) ls st)
    (hcalled : (factorySystem pool client).Step st (.act i newCall) st₁)
    (hmid : Steps (factorySystem pool client).Step st₁ mid st')
    (hreturn : ∀ m, System.Label.act i (newReturn m) ∉ mid) :
    ∃ g, (keepers st')[i]? = some g ∧ Inside st.shared.pool (otherEvents i mid) st'.shared.pool g := by
  induction hmid with
  | nil =>
    obtain ⟨ht, hledger⟩ := ledger_of_reaches hclient h
    exact inside_called ht hledger hcalled
  | snoc hbefore hstep ih =>
    obtain ⟨ht, hledger⟩ := ledger_of_reaches hclient ((h.snoc hcalled).trans hbefore)
    obtain ⟨g, hget, hinside⟩ := ih fun m hm => hreturn m (List.mem_append_left _ hm)
    rw [otherEvents_append]
    refine inside_step ht hledger hstep (fun m hl => hreturn m ?_) hget hinside
    rw [hl]
    exact List.mem_append_right _ List.mem_cons_self

/-- A `New` that fails: what its call, its steps and its return change, the other calls changed. -/
theorem failed_new (hclient : Closes client) {mid : List (FactoryLabel E X)}
    (h : (factorySystem pool client).Reaches (initial pool) ls st)
    (hsteps : Steps (factorySystem pool client).Step st
      (.act i newCall :: mid ++ [.act i (newReturn none)]) st')
    (hreturn : ∀ m, System.Label.act i (newReturn m) ∉ mid) :
    st'.shared.pool.inUse = st.shared.pool.inUse + ((otherEvents i mid).map counted).sum ∧
      idleLeases st'.shared.pool + ((otherEvents i mid).map releasedBy).sum =
        idleLeases st.shared.pool + ((otherEvents i mid).map leasedBy).sum := by
  obtain ⟨st₂, hsteps, hlast⟩ := hsteps.last
  obtain ⟨st₁, hcalled, hmid⟩ := hsteps.uncons
  obtain ⟨g, hget, hinside⟩ := inside_of_steps hclient h hcalled hmid hreturn
  obtain ⟨ht, hledger⟩ := ledger_of_reaches hclient ((h.snoc hcalled).trans hmid)
  rcases factoryStep_cases ht hlast with ⟨x, hl, -⟩ | ⟨j, e, r, g', hl, hget', -, hgood, hperf⟩
  · cases hl
  · cases hl
    obtain rfl := Option.some.inj (hget'.symm.trans hget)
    have hshared : st'.shared = st₂.shared := hperf
    have hbad : (g'.2.nextSession g'.1 (.newReturned none) ()).bad = false := hgood.2
    obtain ⟨⟨⟨-, hstage⟩, hleases⟩, hrest⟩ :
        ((g'.2.bad = false ∧ g'.2.stage = .creating none) ∧
        g'.2.leases = 0) ∧ Resting g'.1 := by
      simpa [Own.nextSession] using hbad
    rw [hshared]
    rcases hinside with hpending | ⟨m, hm⟩
    · have hinUse := hpending.inUse
      have hidle := hpending.leases
      rw [hleases] at hinUse hidle
      rw [hrest.2] at hinUse
      rw [add_zero] at hidle
      exact ⟨by simpa using hinUse, hidle⟩
    · cases hstage.symm.trans hm

/-! ## The ports of open sessions -/

/-- The ports of the RTP and RTCP addresses of both legs. -/
def MediaSession.localPorts (advertisedIP : Addr) (m : MediaSession) : List UInt16 :=
  [.caller, .callee].flatMap fun leg =>
    [(m.localEndpoint advertisedIP leg).1.port, (m.localEndpoint advertisedIP leg).2.port]

/-- The leased ports are ports of the pool, each leased once. -/
theorem Ledger.openPorts_le {sh : Shared} (h : Ledger pool sh gs) :
    (sh.sessions.map fun s => s.openLeases.map Lease.rtpPort).sum ≤ (↑pool.ports : Multiset UInt16) := by
  have hsum : (sh.sessions.map fun s => s.openLeases.map Lease.rtpPort).sum =
      sh.openLeases.map Lease.rtpPort := by
    have := map_list_sum (Multiset.mapAddMonoidHom Lease.rtpPort) (sh.sessions.map SessionState.openLeases)
    rw [List.map_map] at this
    exact this.symm
  rw [hsum, ← h.ports]
  refine le_trans ?_ (Multiset.le_add_left _ _)
  rw [← map_idleLeases, ← h.owners]
  exact Multiset.map_le_map (Multiset.le_add_left _ _)

/-- The ports of the leases of an open session: the RTP port is even, and the RTCP port follows it. -/
theorem Ledger.openPort {cfg : Config} (hpool : Portalloc.new cfg = .ok pool) {sh : Shared}
    (h : Ledger pool sh gs) {s : SessionState} (hs : s ∈ sh.sessions) {lease : Lease}
    (hlease : lease ∈ s.openLeases) :
    lease.rtpPort.toNat % 2 = 0 ∧ lease.rtcpPort.toNat = lease.rtpPort.toNat + 1 := by
  have hmem : lease.rtpPort ∈ (sh.sessions.map fun s => s.openLeases.map Lease.rtpPort).sum :=
    mem_sum_map (f := fun s : SessionState => s.openLeases.map Lease.rtpPort) hs
      (Multiset.mem_map_of_mem _ hlease)
  have hport : lease.rtpPort ∈ pool.ports := Multiset.mem_coe.mp (Multiset.mem_of_le h.openPorts_le hmem)
  obtain ⟨-, heven, hend⟩ := ((Portalloc.accepted_of_new hpool).mem_ports _).mp hport
  have hlt := cfg.endPort.toNat_lt
  refine ⟨heven, ?_⟩
  rw [Lease.rtcpPort, UInt16.toNat_add]
  show (_ + 1) % 65536 = _
  omega

variable {m : MediaSession}

theorem lease_of_localPort {advertisedIP : Addr} {port : UInt16}
    (h : port ∈ m.localPorts advertisedIP) :
    ∃ lease ∈ ({m.caller, m.callee} : Multiset Lease), port = lease.rtpPort ∨
      port = lease.rtcpPort := by
  obtain ⟨leg, -, h⟩ := List.mem_flatMap.mp h
  cases leg with
  | caller => exact ⟨m.caller, by simp, by simpa [MediaSession.localEndpoint] using h⟩
  | callee => exact ⟨m.callee, by simp, by simpa [MediaSession.localEndpoint] using h⟩

def Open (sh : Shared) (m : MediaSession) : Prop :=
  ∃ s, sh.sessions[m.id]? = some s ∧ (s.caller = m.caller ∧ s.callee = m.callee) ∧ s.closeOnce = .idle

theorem disjoint_of_open {cfg : Config} (hpool : Portalloc.new cfg = .ok pool) {sh : Shared}
    (h : Ledger pool sh gs) {m' : MediaSession} (hm : Open sh m) (hm' : Open sh m')
    (hne : m.id ≠ m'.id) (advertisedIP : Addr) :
    List.Disjoint (m.localPorts advertisedIP) (m'.localPorts advertisedIP) := by
  obtain ⟨s, hs, ⟨hcaller, hcallee⟩, hidle⟩ := hm
  obtain ⟨s', hs', ⟨hcaller', hcallee'⟩, hidle'⟩ := hm'
  have hopen : s.openLeases = {m.caller, m.callee} := by
    rw [SessionState.openLeases, if_pos hidle, hcaller, hcallee]
  have hopen' : s'.openLeases = {m'.caller, m'.callee} := by
    rw [SessionState.openLeases, if_pos hidle', hcaller', hcallee']
  intro port hmem hmem'
  obtain ⟨lease, hlease, hport⟩ := lease_of_localPort hmem
  obtain ⟨lease', hlease', hport'⟩ := lease_of_localPort hmem'
  rw [← hopen] at hlease
  rw [← hopen'] at hlease'
  obtain ⟨heven, hrtcp⟩ := h.openPort hpool (List.mem_of_getElem? hs) hlease
  obtain ⟨heven', hrtcp'⟩ := h.openPort hpool (List.mem_of_getElem? hs') hlease'
  -- the two leases have the same even port
  have hsame : lease.rtpPort = lease'.rtpPort := by
    refine UInt16.toNat_inj.mp ?_
    rcases hport with rfl | rfl
    · rcases hport' with hport' | hport'
      · rw [hport']
      · have htoNat := congrArg UInt16.toNat hport'
        omega
    · rcases hport' with hport' | hport'
      · have htoNat := congrArg UInt16.toNat hport'
        omega
      · have htoNat := congrArg UInt16.toNat hport'
        omega
  have hnodup : (sh.sessions.map fun s : SessionState => s.openLeases.map Lease.rtpPort).sum.Nodup :=
    Multiset.nodup_of_le h.openPorts_le
      (Multiset.coe_nodup.mpr (Portalloc.accepted_of_new hpool).nodup_ports)
  have hshare : lease.rtpPort ∈ s.openLeases.map Lease.rtpPort := Multiset.mem_map_of_mem _ hlease
  have hshare' : lease.rtpPort ∈ s'.openLeases.map Lease.rtpPort := by
    rw [hsame]
    exact Multiset.mem_map_of_mem _ hlease'
  exact disjoint_of_nodup_sum hnodup hs hs' hne hshare hshare'

/-! ## Programs that close what they make -/

theorem released_of_returned (ht : FactoryTracked st) (h : Ledger pool st.shared (keepers st))
    {th : Thread (leaseSig E) (Call X) Outcome} (hth : th ∈ st.threads)
    (hreturned : th.rest = pure .finished) (hm : m ∈ th.past.filterMap returnedBy) :
    Closed st.shared m ∧ Gone st.shared.pool m.caller ∧ Gone st.shared.pool m.callee := by
  have hsafe := ht th hth
  rw [hreturned] at hsafe
  have hmade : m ∈ (keeper.run (Keeper.start th.arg) th.past).2.made := by
    rw [← Multiset.mem_coe, made_run]
    exact Multiset.mem_add.mpr (.inl hm)
  have hclosed : Closed st.shared m :=
    (h.fits _ (List.mem_map_of_mem hth)).closed m (Prog.safe_pure.mp hsafe rfl m hmade)
  obtain ⟨s, hs, ⟨hcaller, hcallee⟩, hdone⟩ := hclosed
  obtain ⟨hcallerGone, hcalleeGone⟩ := h.closed s (List.mem_of_getElem? hs) hdone
  exact ⟨⟨s, hs, ⟨hcaller, hcallee⟩, hdone⟩, hcaller ▸ hcallerGone, hcallee ▸ hcalleeGone⟩

end AixvolinkPbx.Factory

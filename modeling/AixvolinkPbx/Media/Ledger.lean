import AixvolinkPbx.Lib.Shares
import AixvolinkPbx.Media.Leases
import Mathlib.Tactic.Abel

/-!
# Media leases follow sessions

The ledger of all leases of a factory: every lease that nobody has begun to release belongs to one call
that is responsible for it, or to one session that nobody has begun to close (`Ledger`). It is kept by
every step (`pool_step`, `session_step`) and so holds in every state of a run (`ledger_of_reaches`).
-/

namespace AixvolinkPbx.Factory

open Portalloc (Grows Hands Lease LeaseState Once PoolOp Pool poolSig)
open Prog (Safe safe_bind safe_mono safe_pure)

variable {E : Sig}

/-! ## The leases that are not released -/

def idleAt (i : ℕ) (s : LeaseState) : Multiset Lease :=
  if s.once = .idle then {⟨i, s.rtpPort⟩} else 0

/-- The leases nobody has begun to release. -/
def idleLeases (sh : Portalloc.Shared) : Multiset Lease := (sh.leases.mapIdx idleAt).sum

def Gone (sh : Portalloc.Shared) (lease : Lease) : Prop :=
  ∃ s, sh.leases[lease.id]? = some s ∧ s.once = .done

theorem map_idleLeases (sh : Portalloc.Shared) : (idleLeases sh).map Lease.rtpPort = sh.held := by
  refine map_sum_mapIdx idleAt (Multiset.mapAddMonoidHom Lease.rtpPort) fun i s _ => ?_
  unfold idleAt LeaseState.held
  split_ifs <;> rfl

theorem card_idleLeases (sh : Portalloc.Shared) : ((idleLeases sh).card : ℤ) = sh.leased := by
  refine map_sum_mapIdx idleAt ((Nat.castAddMonoidHom ℤ).comp Multiset.cardHom) fun i s _ => ?_
  unfold idleAt LeaseState.counts
  split_ifs <;> rfl

theorem mem_idleLeases {sh : Portalloc.Shared} {lease : Lease} : lease ∈ idleLeases sh ↔
    ∃ s, sh.leases[lease.id]? = some s ∧ s.once = .idle ∧ s.rtpPort = lease.rtpPort := by
  refine mem_sum_mapIdx.trans ⟨?_, ?_⟩
  · rintro ⟨i, s, hs, hlease⟩
    unfold idleAt at hlease
    split_ifs at hlease with hidle
    · obtain rfl := Multiset.mem_singleton.mp hlease
      exact ⟨s, hs, hidle, rfl⟩
    · cases Multiset.notMem_zero _ hlease
  · rintro ⟨s, hs, hidle, hport⟩
    refine ⟨lease.id, s, hs, ?_⟩
    rw [idleAt, if_pos hidle, hport]
    exact Multiset.mem_singleton_self lease

section PoolStep

variable {capacity : ℕ} {sh sh' : Portalloc.Shared} {lease : Lease}

theorem idleLeases_setLease {f : LeaseState → LeaseState}
    (hf : ∀ s, sh.leases[lease.id]? = some s → idleAt lease.id (f s) = idleAt lease.id s) :
    idleLeases (sh.setLease lease f) = idleLeases sh := sum_mapIdx_modify idleAt hf

theorem idle_allocate {port : UInt16} {id : ℕ}
    (hperf : Portalloc.perform capacity sh (.allocate port) id sh') :
    idleLeases sh' = ⟨id, port⟩ ::ₘ idleLeases sh := by
  obtain ⟨rfl, rfl⟩ := hperf
  rw [idleLeases, sum_mapIdx_concat, add_comm]
  rfl

theorem idle_onceEnter {r : Bool} (hidle : lease ∈ idleLeases sh)
    (hperf : Portalloc.perform capacity sh (.onceEnter lease) r sh') :
    idleLeases sh = lease ::ₘ idleLeases sh' := by
  obtain ⟨s, hs, honce, hport⟩ := mem_idleLeases.mp hidle
  replace hperf : Portalloc.entersOnce sh lease r sh' := hperf
  rw [Portalloc.entersOnce, hs, Option.map_some, honce] at hperf
  obtain ⟨-, rfl⟩ := hperf
  have hsum := sum_mapIdx_set idleAt { s with once := .running } hs
  have hset : sh.leases.modify lease.id (fun s => { s with once := .running }) =
      sh.leases.set lease.id { s with once := .running } := by
    rw [List.modify_eq_set_getElem?, hs]
    rfl
  rw [← hset] at hsum
  have hshare : idleAt lease.id s = {lease} := by rw [idleAt, if_pos honce, hport]
  have hzero : idleAt lease.id { s with once := .running } = 0 := if_neg (by simp)
  rw [hshare, hzero, add_zero, add_comm, Multiset.singleton_add] at hsum
  exact hsum.symm

/-- A lease somebody has begun to release does not become one nobody has. -/
theorem idle_onceExit {r : Unit} (hentered : ∃ s, sh.leases[lease.id]? = some s ∧ s.once ≠ .idle)
    (hperf : Portalloc.perform capacity sh (.onceExit lease) r sh') : idleLeases sh' = idleLeases sh := by
  obtain rfl : sh' = _ := hperf
  obtain ⟨s, hs, honce⟩ := hentered
  refine idleLeases_setLease fun s' hs' => ?_
  cases hs.symm.trans hs'
  rw [idleAt, idleAt, if_neg honce, if_neg nofun]

variable {e : PoolOp} {r : poolSig.Ans e}

theorem Gone.step (h : Gone sh lease) (hperf : Portalloc.perform capacity sh e r sh') :
    Gone sh' lease := by
  obtain ⟨s, hs, hdone⟩ := h
  have hset : ∀ (lease' : Lease) {f : LeaseState → LeaseState},
    (∀ s, s.once = .done → (f s).once = .done) →
      Gone (sh.setLease lease' f) lease := by
    intro lease' f hf
    show ∃ s, (sh.leases.modify lease'.id f)[lease.id]? = some s ∧ _
    rw [List.getElem?_modify, hs]
    by_cases hid : lease'.id = lease.id
    · exact ⟨f s, by simp [hid], hf s hdone⟩
    · exact ⟨s, by simp [hid], hdone⟩
  cases e with
  | select =>
    cases r with
    | received port =>
      obtain ⟨rest, -, rfl⟩ := hperf
      exact ⟨s, hs, hdone⟩
    | done =>
      obtain rfl : sh' = sh := hperf
      exact ⟨s, hs, hdone⟩
    | empty =>
      obtain ⟨-, rfl⟩ := hperf
      exact ⟨s, hs, hdone⟩
  | send port =>
    obtain ⟨-, rfl⟩ := hperf
    exact ⟨s, hs, hdone⟩
  | addInUse delta =>
    obtain rfl : sh' = _ := hperf
    exact ⟨s, hs, hdone⟩
  | allocate port =>
    obtain ⟨-, rfl⟩ := hperf
    refine ⟨s, ?_, hdone⟩
    show (sh.leases ++ _)[lease.id]? = some s
    rw [List.getElem?_append_left (List.getElem?_eq_some_iff.mp hs).1, hs]
  | onceEnter lease' =>
    replace hperf : Portalloc.entersOnce sh lease' r sh' := hperf
    unfold Portalloc.entersOnce at hperf
    split at hperf
    · next hidle =>
      obtain ⟨-, rfl⟩ := hperf
      have hne : lease'.id ≠ lease.id := by
        intro hid
        rw [hid, hs, Option.map_some, hdone] at hidle
        cases hidle
      refine ⟨s, ?_, hdone⟩
      show (sh.leases.modify lease'.id _)[lease.id]? = some s
      rw [List.getElem?_modify, hs]
      simp [hne]
    · obtain ⟨-, rfl⟩ := hperf
      exact ⟨s, hs, hdone⟩
    · exact hperf.elim
  | storeReleased lease' =>
    obtain rfl : sh' = _ := hperf
    exact hset lease' fun _ h => h
  | onceExit lease' =>
    obtain rfl : sh' = _ := hperf
    exact hset lease' fun _ _ => rfl
  | listen | close =>
    obtain rfl : sh' = sh := hperf
    exact ⟨s, hs, hdone⟩

end PoolStep

/-! ## The sessions -/

/-- The leases of a session nobody has begun to close. -/
def SessionState.openLeases (s : SessionState) : Multiset Lease :=
  if s.closeOnce = .idle then {s.caller, s.callee} else 0

def Shared.openLeases (sh : Shared) : Multiset Lease := (sh.sessions.map SessionState.openLeases).sum

def runningAt (i : ℕ) (s : SessionState) : Multiset ℕ := if s.closeOnce = .running then {i} else 0

/-- The sessions that are being closed. -/
def Shared.running (sh : Shared) : Multiset ℕ := (sh.sessions.mapIdx runningAt).sum

def Closed (sh : Shared) (m : MediaSession) : Prop :=
  ∃ s, sh.sessions[m.id]? = some s ∧ (s.caller = m.caller ∧ s.callee = m.callee) ∧ s.closeOnce = .done

/-- The session that a call is closing. -/
def Own.closing (o : Own) : Multiset ℕ :=
  match o.stage with
  | .closing m => {m.id}
  | _ => 0

def pointerAt (i : ℕ) (s : SessionState) : Multiset MediaSession := {⟨i, s.caller, s.callee⟩}

def Shared.pointers (sh : Shared) : Multiset MediaSession := (sh.sessions.mapIdx pointerAt).sum

/-- The sessions that calls of `New` have made: those returned, and the one about to be. -/
def Own.brought (o : Own) : Multiset MediaSession :=
  match o.stage with
  | .creating (some m) => m ::ₘ ↑o.made
  | _ => ↑o.made

/-- What stays true in later states. -/
structure Later (sh sh' : Shared) : Prop where
  pool : Grows sh.pool sh'.pool
  gone : ∀ lease, Gone sh.pool lease → Gone sh'.pool lease
  has : ∀ m, sh.has m → sh'.has m
  closed : ∀ m, Closed sh m → Closed sh' m

/-- A call knows what there is, and is responsible for nothing outside of `New` and `Close`. -/
structure Fits (sh : Shared) (g : Keeper) : Prop where
  hands : g.1.Fits sh.pool
  gone : ∀ lease ∈ g.2.gone, Gone sh.pool lease
  known : ∀ m ∈ g.2.known, sh.has m
  closed : ∀ m ∈ g.2.closed, Closed sh m
  rest : g.2.stage = .outside → g.2.leases = 0 ∧ Resting g.1

theorem Fits.later {sh sh' : Shared} {g : Keeper} (h : Fits sh g) (hlater : Later sh sh') : Fits sh' g :=
  ⟨h.hands.grows hlater.pool, fun lease hlease => hlater.gone lease (h.gone lease hlease),
    fun m hm => hlater.has m (h.known m hm), fun m hm => hlater.closed m (h.closed m hm), h.rest⟩

/-- The ledger of all leases. -/
structure Ledger (pool : Pool) (sh : Shared) (gs : List Keeper) : Prop where
  ports : ↑sh.pool.available + (gs.map (·.1.ports)).sum + sh.pool.held = ↑pool.ports
  inUse : sh.pool.inUse + (gs.map (·.1.owes)).sum = sh.pool.leased
  owners : (gs.map (·.2.leases)).sum + sh.openLeases = idleLeases sh.pool
  closers : (gs.map (·.2.closing)).sum = sh.running
  brought : (gs.map (·.2.brought)).sum = sh.pointers
  closed : ∀ s ∈ sh.sessions, s.closeOnce = .done → Gone sh.pool s.caller ∧ Gone sh.pool s.callee
  fits : ∀ g ∈ gs, Fits sh g

/-! ## Steps on the pool -/

section Steps

variable {capacity : ℕ} {pool : Pool} {sh sh' : Shared} {gs : List Keeper} {i : ℕ} {g : Keeper}

theorem Ledger.idle_of_mem (h : Ledger pool sh gs) (hg : g ∈ gs) {lease : Lease}
    (hlease : lease ∈ g.2.leases) : lease ∈ idleLeases sh.pool := by
  rw [← h.owners]
  exact Multiset.mem_add.mpr (.inl (mem_sum_map (f := fun g : Keeper => g.2.leases) hg hlease))

/-- The hands of a call that is responsible for the lease it releases. -/
theorem handsBefore_fits {h : Hands} {o : Own} {sh : Portalloc.Shared} (hfits : h.Fits sh)
    (hidle : ∀ lease ∈ o.leases, lease ∈ idleLeases sh) (hgood : (o.nextPool e r).bad = false) :
    (handsBefore h e).Fits sh := by
  cases e with
  | onceEnter lease =>
    have hmem : lease ∈ o.leases := by
      by_contra hmem
      simp [Own.nextPool, hmem] at hgood
    intro lease' hlease'
    cases hlease'
    obtain ⟨s, hs, -, hport⟩ := mem_idleLeases.mp (hidle lease hmem)
    exact ⟨s, hs, hport, by rintro ⟨⟩⟩
  | _ => exact hfits

/-- An operation moves the leases of its call and those nobody has begun to release alike. -/
theorem owners_pool {h : Hands} {o : Own} {sh sh' : Portalloc.Shared}
    (hidle : ∀ lease ∈ o.leases, lease ∈ idleLeases sh) (hfits : (handsBefore h e).Fits sh)
    (hhands : ((handsBefore h e).next e r).bad = false) (hgood : (o.nextPool e r).bad = false)
    (hperf : Portalloc.perform capacity sh e r sh') :
    (o.nextPool e r).leases + idleLeases sh = o.leases + idleLeases sh' := by
  cases e with
  | allocate port =>
    show (⟨r, port⟩ ::ₘ o.leases) + _ = _
    rw [idle_allocate hperf, Multiset.cons_add, Multiset.add_cons]
  | onceEnter lease =>
    have hmem : lease ∈ o.leases := by
      by_contra hmem
      simp [Own.nextPool, hmem] at hgood
    show o.leases.erase lease + _ = _
    rw [idle_onceEnter (hidle lease hmem) hperf, Multiset.add_cons, ← Multiset.cons_add,
      Multiset.cons_erase hmem]
  | onceExit lease =>
    replace hhands : (h.next (.onceExit lease) r).bad = false := hhands
    obtain ⟨⟨-, hentered⟩, hlease⟩ : (h.bad = false ∧ h.entered = true) ∧
      h.lease = some lease := by
      simpa [Hands.next] using hhands
    obtain ⟨s, hs, -, honce⟩ := hfits lease hlease
    rw [idle_onceExit ⟨s, hs, honce hentered⟩ hperf]
    rfl
  | select =>
    cases r with
    | received port =>
      obtain ⟨rest, -, rfl⟩ := hperf
      rfl
    | done =>
      obtain rfl : sh' = sh := hperf
      rfl
    | empty =>
      obtain ⟨-, rfl⟩ := hperf
      rfl
  | send port =>
    obtain ⟨-, rfl⟩ := hperf
    rfl
  | addInUse delta =>
    obtain rfl : sh' = _ := hperf
    rfl
  | storeReleased lease =>
    obtain rfl : sh' = _ := hperf
    have hsame : idleLeases (sh.setLease lease fun s => { s with released := true }) = idleLeases sh :=
      idleLeases_setLease fun _ _ => rfl
    rw [hsame]
    rfl
  | listen | close =>
    obtain rfl : sh' = sh := hperf
    rfl

theorem gone_pool {h : Hands} {o : Own} {sh sh' : Portalloc.Shared}
    (hgone : ∀ lease ∈ o.gone, Gone sh lease) (hidle : ∀ lease ∈ o.leases, lease ∈ idleLeases sh)
    (hfits : (handsBefore h e).Fits sh) (hhands : ((handsBefore h e).next e r).bad = false)
    (hgood : (o.nextPool e r).bad = false) (hperf : Portalloc.perform capacity sh e r sh') :
    ∀ lease ∈ (o.nextPool e r).gone, Gone sh' lease := by
  have hold : ∀ lease ∈ o.gone, Gone sh' lease := fun lease hlease => (hgone lease hlease).step hperf
  cases e with
  | onceEnter lease' =>
    have hmem : lease' ∈ o.leases := by
      by_contra hmem
      simp [Own.nextPool, hmem] at hgood
    obtain ⟨s, hs, honce, -⟩ := mem_idleLeases.mp (hidle lease' hmem)
    replace hperf : Portalloc.entersOnce sh lease' r sh' := hperf
    rw [Portalloc.entersOnce, hs, Option.map_some, honce] at hperf
    obtain ⟨rfl, -⟩ := hperf
    exact hold
  | onceExit lease' =>
    replace hhands : (h.next (.onceExit lease') r).bad = false := hhands
    obtain ⟨-, hlease⟩ : (h.bad = false ∧ h.entered = true) ∧ h.lease = some lease' := by
      simpa [Hands.next] using hhands
    obtain ⟨s, hs, -, -⟩ := hfits lease' hlease
    intro lease hlease
    rcases List.mem_cons.mp hlease with rfl | hlease
    · obtain rfl : sh' = _ := hperf
      refine ⟨{ s with once := .done }, ?_, rfl⟩
      show (sh.leases.modify lease.id _)[lease.id]? = _
      rw [List.getElem?_modify, hs]
      simp
    · exact hold lease hlease
  | _ => exact hold

theorem nextPool_other (o : Own) (e : PoolOp) (r : poolSig.Ans e) :
    (o.nextPool e r).stage = o.stage ∧ (o.nextPool e r).known = o.known ∧
      (o.nextPool e r).made = o.made ∧ (o.nextPool e r).closed = o.closed := by
  cases e <;> exact ⟨rfl, rfl, rfl, rfl⟩

/-- The operations of the pool belong into `New` and `Close`. -/
theorem inside_of_nextPool {o : Own} (h : (o.nextPool e r).bad = false) :
    o.stage ≠ .outside := by
  intro hstage
  cases e <;> simp [Own.nextPool, hstage] at h

theorem Ledger.pool_step (h : Ledger pool sh gs) (hget : gs[i]? = some g)
    (hhands : ((handsBefore g.1 e).next e r).bad = false) (hgood : (g.2.nextPool e r).bad = false)
    (hperf : Portalloc.perform pool.capacity sh.pool e r sh'.pool)
    (hsessions : sh'.sessions = sh.sessions) :
    Ledger pool sh' (gs.set i ((handsBefore g.1 e).next e r, g.2.nextPool e r)) := by
  have hg := List.mem_of_getElem? hget
  have hfits := h.fits g hg
  have hidle : ∀ lease ∈ g.2.leases, lease ∈ idleLeases sh.pool := fun lease => h.idle_of_mem hg
  have hbefore := handsBefore_fits hfits.hands hidle hgood
  have hbalance := Portalloc.perform_balance hbefore hhands hperf
  have hhandsAt : (gs.map Prod.fst)[i]? = some g.1 := by rw [List.getElem?_map, hget]; rfl
  have hset : (gs.set i ((handsBefore g.1 e).next e r, g.2.nextPool e r)).map Prod.fst =
      (gs.map Prod.fst).set i ((handsBefore g.1 e).next e r) := List.map_set
  have hsame : g.1.ports = (handsBefore g.1 e).ports ∧ g.1.owes = (handsBefore g.1 e).owes := by
    cases e <;> exact ⟨rfl, rfl⟩
  obtain ⟨hstage, hknown, hmade, hclosed⟩ := nextPool_other g.2 e r
  have hlater : Later sh sh' := by
    refine ⟨hbalance.grows, fun lease hlease => hlease.step hperf, fun m hm => ?_, fun m hm => ?_⟩
    · rwa [Shared.has, hsessions]
    · rwa [Closed, hsessions]
  refine ⟨?_, ?_, ?_, ?_, ?_, ?_, ?_⟩
  · have hports := hbalance.ports_sum hhandsAt hsame.1
    rw [← hset, List.map_map, List.map_map] at hports
    exact hports.trans h.ports
  · have howes := hbalance.owes_sum hhandsAt hsame.2
    rw [← hset, List.map_map, List.map_map] at howes
    have hinUse : sh.pool.inUse + (gs.map (Hands.owes ∘ Prod.fst)).sum = sh.pool.leased := h.inUse
    show sh'.pool.inUse + (List.map (Hands.owes ∘ Prod.fst) _).sum = _
    omega
  · have howners := owners_pool hidle hbefore hhands hgood hperf
    have hsum := sum_map_set (fun g : Keeper => g.2.leases)
      ((handsBefore g.1 e).next e r, g.2.nextPool e r) hget
    have hopen : sh'.openLeases = sh.openLeases := by rw [Shared.openLeases, Shared.openLeases, hsessions]
    refine add_right_cancel (b := g.2.leases) ?_
    calc (List.map (fun g : Keeper => g.2.leases) (gs.set i _)).sum + sh'.openLeases + g.2.leases
        = (List.map (fun g : Keeper => g.2.leases) (gs.set i _)).sum + g.2.leases + sh.openLeases := by
          rw [hopen]
          abel
      _ = (g.2.nextPool e r).leases + idleLeases sh.pool := by
          rw [hsum, ← h.owners]
          abel
      _ = idleLeases sh'.pool + g.2.leases := by rw [howners, add_comm]
  · have hsum := map_set_of_eq (f := fun g : Keeper => g.2.closing)
      (b := ((handsBefore g.1 e).next e r, g.2.nextPool e r)) hget (by simp only [Own.closing, hstage])
    rw [hsum, h.closers, Shared.running, Shared.running, hsessions]
  · have hsum := map_set_of_eq (f := fun g : Keeper => g.2.brought)
      (b := ((handsBefore g.1 e).next e r, g.2.nextPool e r)) hget
      (by simp only [Own.brought, hstage, hmade])
    rw [hsum, h.brought, Shared.pointers, Shared.pointers, hsessions]
  · intro s hs hdone
    rw [hsessions] at hs
    obtain ⟨hcaller, hcallee⟩ := h.closed s hs hdone
    exact ⟨hcaller.step hperf, hcallee.step hperf⟩
  · intro g' hg'
    rcases List.mem_or_eq_of_mem_set hg' with hg' | rfl
    · exact (h.fits g' hg').later hlater
    · refine ⟨hbalance.fits, gone_pool hfits.gone hidle hbefore hhands hgood hperf, ?_, ?_, ?_⟩
      · exact fun m hm => hlater.has m (hfits.known m (hknown ▸ hm))
      · exact fun m hm => hlater.closed m (hfits.closed m (hclosed ▸ hm))
      · exact fun houtside => absurd (hstage.symm.trans houtside) (inside_of_nextPool hgood)

/-! ## Steps on sessions -/

/-- What an operation on sessions does to the ledger. -/
structure SessionMove (sh : Shared) (g : Keeper) (sh' : Shared) (o' : Own) : Prop where
  pool : sh'.pool = sh.pool
  owners : o'.leases + sh'.openLeases = g.2.leases + sh.openLeases
  closers : o'.closing + sh.running = g.2.closing + sh'.running
  brought : o'.brought + sh.pointers = g.2.brought + sh'.pointers
  has : ∀ m, sh.has m → sh'.has m
  closed : ∀ m, Closed sh m → Closed sh' m
  done : ∀ s ∈ sh'.sessions, s.closeOnce = .done →
    (∃ s₀ ∈ sh.sessions, s₀.closeOnce = .done ∧ s₀.caller = s.caller ∧
      s₀.callee = s.callee) ∨
      s.caller ∈ g.2.gone ∧ s.callee ∈ g.2.gone
  gone : o'.gone = g.2.gone
  known : ∀ m ∈ o'.known, sh'.has m
  seen : ∀ m ∈ o'.closed, Closed sh' m
  rest : o'.stage = .outside → o'.leases = 0 ∧ Resting g.1

theorem Ledger.of_move (h : Ledger pool sh gs) (hget : gs[i]? = some g) {hands : Hands} {o' : Own}
    (hports : hands.ports = g.1.ports) (howes : hands.owes = g.1.owes) (hfits : hands.Fits sh.pool)
    (hmove : SessionMove sh g sh' o') : Ledger pool sh' (gs.set i (hands, o')) := by
  have hg := List.mem_of_getElem? hget
  -- a sum over the calls and one over the sessions move alike
  have hmoves : ∀ {α : Type} (f : Keeper → Multiset α) (total total' : Multiset α),
      (gs.map f).sum = total → f (hands, o') + total = f g + total' →
        ((gs.set i (hands, o')).map f).sum = total' := by
    intro α f total total' htotal hboth
    refine add_right_cancel (b := f g) ?_
    rw [sum_map_set f (hands, o') hget, htotal, add_comm, hboth, add_comm]
  refine ⟨?_, ?_, ?_, ?_, ?_, ?_, ?_⟩
  · rw [map_set_of_eq (f := fun g : Keeper => g.1.ports) hget hports, hmove.pool]
    exact h.ports
  · rw [map_set_of_eq (f := fun g : Keeper => g.1.owes) hget howes, hmove.pool]
    exact h.inUse
  · have hsum := sum_map_set (fun g : Keeper => g.2.leases) (hands, o') hget
    rw [hmove.pool, ← h.owners]
    refine add_right_cancel (b := g.2.leases) ?_
    calc (List.map (fun g : Keeper => g.2.leases) (gs.set i _)).sum + sh'.openLeases + g.2.leases
        = (List.map (fun g : Keeper => g.2.leases) (gs.set i _)).sum + g.2.leases + sh'.openLeases := by
          abel
      _ = (gs.map fun g : Keeper => g.2.leases).sum + (o'.leases + sh'.openLeases) := by
          rw [hsum, add_assoc]
      _ = (gs.map fun g : Keeper => g.2.leases).sum + sh.openLeases + g.2.leases := by
          rw [hmove.owners]
          abel
  · exact hmoves (fun g => g.2.closing) _ _ h.closers hmove.closers
  · exact hmoves (fun g => g.2.brought) _ _ h.brought hmove.brought
  · intro s hs hdone
    rw [hmove.pool]
    rcases hmove.done s hs hdone with ⟨s₀, hs₀, hdone₀, hcaller, hcallee⟩ | ⟨hcaller, hcallee⟩
    · rw [← hcaller, ← hcallee]
      exact h.closed s₀ hs₀ hdone₀
    · exact ⟨(h.fits g hg).gone _ hcaller, (h.fits g hg).gone _ hcallee⟩
  · have hlater : Later sh sh' := by
      refine ⟨?_, ?_, hmove.has, hmove.closed⟩
      · rw [hmove.pool]
        exact .refl _
      · rw [hmove.pool]
        exact fun _ h => h
    intro g' hg'
    rcases List.mem_or_eq_of_mem_set hg' with hg' | rfl
    · exact (h.fits g' hg').later hlater
    · refine ⟨hfits.grows hlater.pool, fun lease hlease => ?_, hmove.known, hmove.seen, fun hstage => ?_⟩
      · exact hlater.gone lease ((h.fits g hg).gone lease (hmove.gone ▸ hlease))
      · obtain ⟨hleases, hrest⟩ := hmove.rest hstage
        exact ⟨hleases, hports.trans hrest.1, howes.trans hrest.2⟩

variable {s : SessionState}

theorem getElem?_setSession (m : MediaSession) (f : SessionState → SessionState) {j : ℕ}
    (hs : sh.sessions[j]? = some s) :
    (sh.setSession m f).sessions[j]? = some (if m.id = j then f s else s) := by
  show (sh.sessions.modify m.id f)[j]? = _
  rw [List.getElem?_modify, hs]
  split_ifs <;> rfl

variable {f : SessionState → SessionState} {m : MediaSession}

theorem has_setSession {m' : MediaSession}
    (hf : ∀ s, (f s).caller = s.caller ∧ (f s).callee = s.callee) (h : sh.has m') :
    (sh.setSession m f).has m' := by
  obtain ⟨s, hs, hcaller, hcallee⟩ := h
  refine ⟨_, getElem?_setSession m f hs, ?_⟩
  split_ifs
  · exact ⟨(hf s).1.trans hcaller, (hf s).2.trans hcallee⟩
  · exact ⟨hcaller, hcallee⟩

theorem closed_setSession {m' : MediaSession}
    (hf : ∀ s, (f s).caller = s.caller ∧ (f s).callee = s.callee)
    (honce : ∀ s, sh.sessions[m.id]? = some s → s.closeOnce = .done → (f s).closeOnce = .done)
    (h : Closed sh m') : Closed (sh.setSession m f) m' := by
  obtain ⟨s, hs, ⟨hcaller, hcallee⟩, hdone⟩ := h
  refine ⟨_, getElem?_setSession m f hs, ?_⟩
  split_ifs with hid
  · exact ⟨⟨(hf s).1.trans hcaller, (hf s).2.trans hcallee⟩, honce s (hid ▸ hs) hdone⟩
  · exact ⟨⟨hcaller, hcallee⟩, hdone⟩

theorem pointers_setSession (hf : ∀ s, (f s).caller = s.caller ∧ (f s).callee = s.callee) :
    (sh.setSession m f).pointers = sh.pointers := by
  refine sum_mapIdx_modify pointerAt fun s _ => ?_
  rw [pointerAt, pointerAt, (hf s).1, (hf s).2]

theorem mem_setSession (h : s ∈ (sh.setSession m f).sessions) :
    s ∈ sh.sessions ∨ ∃ s₀, sh.sessions[m.id]? = some s₀ ∧ s = f s₀ := by
  replace h : s ∈ sh.sessions.modify m.id f := h
  rw [List.modify_eq_set_getElem?] at h
  cases hs : sh.sessions[m.id]? with
  | none =>
    rw [hs] at h
    exact .inl h
  | some s₀ =>
    rw [hs] at h
    rcases List.mem_or_eq_of_mem_set h with h | rfl
    · exact .inl h
    · exact .inr ⟨s₀, rfl, rfl⟩

theorem SessionMove.refl (hfits : Fits sh g) : SessionMove sh g sh g.2 :=
  ⟨rfl, rfl, rfl, rfl, fun _ h => h, fun _ h => h, fun s hs hdone => .inl ⟨s, hs, hdone, rfl, rfl⟩, rfl,
    hfits.known, hfits.closed, hfits.rest⟩

/-- A change of a session that does not concern its leases and its `closeOnce`. -/
theorem SessionMove.modify (hfits : Fits sh g) (m : MediaSession)
    (hf : ∀ s, (f s).caller = s.caller ∧ (f s).callee = s.callee)
    (honce : ∀ s, (f s).closeOnce = s.closeOnce) : SessionMove sh g (sh.setSession m f) g.2 := by
  have hhas : ∀ m', sh.has m' → (sh.setSession m f).has m' := fun m' => has_setSession hf
  have hclosed : ∀ m', Closed sh m' → Closed (sh.setSession m f) m' :=
    fun m' => closed_setSession hf fun s _ hdone => (honce s).trans hdone
  refine ⟨rfl, ?_, ?_, ?_, hhas, hclosed, ?_, rfl, fun m' hm' => hhas m' (hfits.known m' hm'),
    fun m' hm' => hclosed m' (hfits.closed m' hm'), hfits.rest⟩
  · have hopen : (sh.setSession m f).openLeases = sh.openLeases := by
      refine congrArg List.sum (map_modify_of_eq fun s _ => ?_)
      rw [SessionState.openLeases, SessionState.openLeases, honce, (hf s).1, (hf s).2]
    rw [hopen]
  · have hrunning : (sh.setSession m f).running = sh.running := by
      refine sum_mapIdx_modify runningAt fun s _ => ?_
      rw [runningAt, runningAt, honce]
    rw [hrunning]
  · rw [pointers_setSession hf]
  · intro s hs hdone
    rcases mem_setSession hs with hs | ⟨s₀, hs₀, rfl⟩
    · exact .inl ⟨s, hs, hdone, rfl, rfl⟩
    · exact .inl ⟨s₀, List.mem_of_getElem? hs₀, (honce s₀).symm.trans hdone, (hf s₀).1.symm,
        (hf s₀).2.symm⟩

theorem move_newCalled {r : Unit} (hfits : Fits sh g)
    (hgood : (g.2.nextSession g.1 .newCalled r).bad = false) :
    SessionMove sh g sh (g.2.nextSession g.1 .newCalled r) := by
  have hstage : g.2.stage = .outside := by
    by_contra hstage
    simp [Own.nextSession, hstage] at hgood
  refine { SessionMove.refl hfits with closers := ?_, brought := ?_, rest := (by rintro ⟨⟩) }
  · have hclosing : g.2.closing = 0 := by rw [Own.closing, hstage]
    rw [hclosing]
    rfl
  · have hbrought : g.2.brought = ↑g.2.made := by rw [Own.brought, hstage]
    rw [hbrought]
    rfl

theorem move_newReturned {m : Option MediaSession} {r : Unit} (hfits : Fits sh g)
    (hgood : (g.2.nextSession g.1 (.newReturned m) r).bad = false) :
    SessionMove sh g sh (g.2.nextSession g.1 (.newReturned m) r) := by
  obtain ⟨⟨⟨-, hstage⟩, hleases⟩, hrest⟩ : ((g.2.bad = false ∧ g.2.stage = .creating m) ∧
      g.2.leases = 0) ∧ Resting g.1 := by
    simpa [Own.nextSession] using hgood
  refine { SessionMove.refl hfits with closers := ?_, brought := ?_, rest := fun _ => ⟨hleases, hrest⟩ }
  · have hclosing : g.2.closing = 0 := by rw [Own.closing, hstage]
    rw [hclosing]
    rfl
  · have hbrought : g.2.brought = ↑(m.toList ++ g.2.made) := by
      rw [Own.brought, hstage]
      cases m <;> rfl
    rw [hbrought]
    rfl

theorem move_make {caller callee : Lease} {id : ℕ} (hfits : Fits sh g)
    (hgood : (g.2.nextSession g.1 (.make caller callee) id).bad = false)
    (hperf : performSession sh (.make caller callee) id sh') :
    SessionMove sh g sh' (g.2.nextSession g.1 (.make caller callee) id) := by
  obtain ⟨rfl, rfl⟩ := hperf
  obtain ⟨⟨-, hstage⟩, hle⟩ : (g.2.bad = false ∧ g.2.stage = .creating none) ∧
      {caller, callee} ≤ g.2.leases := by
    simpa [Own.nextSession] using hgood
  have hold : ∀ {j : ℕ} {s : SessionState}, sh.sessions[j]? = some s →
      (sh.sessions ++ [⟨caller, callee, .idle, none, .idle, false⟩])[j]? = some s := by
    intro j s hs
    rw [List.getElem?_append_left (List.getElem?_eq_some_iff.mp hs).1, hs]
  have hhas : ∀ m, sh.has m → Shared.has { sh with sessions := sh.sessions ++
      [⟨caller, callee, .idle, none, .idle, false⟩] } m := by
    rintro m ⟨s, hs, hm⟩
    exact ⟨s, hold hs, hm⟩
  have hclosed : ∀ m, Closed sh m → Closed { sh with sessions := sh.sessions ++
      [⟨caller, callee, .idle, none, .idle, false⟩] } m := by
    rintro m ⟨s, hs, hdone⟩
    exact ⟨s, hold hs, hdone⟩
  have hmade : (g.2.nextSession g.1 (.make caller callee) sh.sessions.length).stage =
      .creating (some ⟨sh.sessions.length, caller, callee⟩) := congrArg (Stage.make _) hstage
  refine ⟨rfl, ?_, ?_, ?_, hhas, hclosed, ?_, rfl, ?_, fun m hm => hclosed m (hfits.closed m hm), ?_⟩
  · show g.2.leases - {caller, callee} + (List.map _ (sh.sessions ++ [_])).sum = _
    rw [List.map_append, List.sum_append, List.map_singleton, List.sum_singleton]
    show _ + (_ + ({caller, callee} : Multiset Lease)) = _
    rw [add_comm (List.sum _), ← add_assoc, Multiset.sub_add_cancel hle]
    rfl
  · show _ + sh.running = g.2.closing + (List.mapIdx _ (sh.sessions ++ [_])).sum
    rw [sum_mapIdx_concat, Own.closing, Own.closing, hmade, hstage]
    show 0 + _ = 0 + (_ + 0)
    rw [add_zero]
    rfl
  · show _ + sh.pointers = g.2.brought + (List.mapIdx _ (sh.sessions ++ [_])).sum
    rw [sum_mapIdx_concat, Own.brought, Own.brought, hmade, hstage]
    show (_ ::ₘ (↑g.2.made : Multiset MediaSession)) + _ = ↑g.2.made + (sh.pointers + {_})
    rw [← Multiset.singleton_add]
    abel
  · intro s hs hdone
    rcases List.mem_append.mp hs with hs | hs
    · exact .inl ⟨s, hs, hdone, rfl, rfl⟩
    · rw [List.mem_singleton.mp hs] at hdone
      cases hdone
  · intro m hm
    rcases List.mem_cons.mp hm with rfl | hm
    · exact ⟨_, List.getElem?_concat_length, rfl, rfl⟩
    · exact hhas m (hfits.known m hm)
  · rw [hmade]
    simp

/-- A change of the `closeOnce` of a session moves the leases of open sessions and the sessions being
closed by the shares of that session. -/
theorem sums_setSession (hs : sh.sessions[m.id]? = some s) (f : SessionState → SessionState) :
    (sh.setSession m f).openLeases + s.openLeases = sh.openLeases + (f s).openLeases ∧
      (sh.setSession m f).running + runningAt m.id s = sh.running + runningAt m.id (f s) := by
  have hset : (sh.setSession m f).sessions = sh.sessions.set m.id (f s) := by
    show sh.sessions.modify m.id f = _
    rw [List.modify_eq_set_getElem?, hs]
    rfl
  rw [Shared.openLeases, Shared.running, hset]
  exact ⟨sum_map_set SessionState.openLeases (f s) hs, sum_mapIdx_set runningAt (f s) hs⟩

theorem move_closeEnter {r : Bool} (hfits : Fits sh g)
    (hgood : (g.2.nextSession g.1 (.closeEnter m) r).bad = false)
    (hperf : performSession sh (.closeEnter m) r sh') :
    SessionMove sh g sh' (g.2.nextSession g.1 (.closeEnter m) r) := by
  have hmem : m ∈ g.2.known := by
    cases r <;> (by_contra hmem; simp [Own.nextSession, hmem] at hgood)
  obtain ⟨s, hs, hcaller, hcallee⟩ := hfits.known m hmem
  replace hperf : enters SessionState.closeOnce _ sh m r sh' := hperf
  rw [enters, hs, Option.map_some] at hperf
  split at hperf
  · next hidle =>
    obtain ⟨rfl, rfl⟩ := hperf
    have hidle := Option.some.inj hidle
    have hstage : g.2.stage = .outside := by
      by_contra hstage
      simp [Own.nextSession, hstage] at hgood
    obtain ⟨hopen, hrunning⟩ := sums_setSession hs fun s => { s with closeOnce := .running }
    have hhas : ∀ m', sh.has m' → (sh.setSession m fun s => { s with closeOnce := .running }).has m' :=
      fun m' => has_setSession fun _ => ⟨rfl, rfl⟩
    have hclosed : ∀ m', Closed sh m' →
        Closed (sh.setSession m fun s => { s with closeOnce := .running }) m' := by
      intro m'
      refine closed_setSession (fun _ => ⟨rfl, rfl⟩) fun s' hs' hdone => ?_
      cases hs.symm.trans hs'
      cases hidle.symm.trans hdone
    refine ⟨rfl, ?_, ?_, ?_, hhas, hclosed, ?_, rfl, fun m' hm' => hhas m' (hfits.known m' hm'),
      fun m' hm' => hclosed m' (hfits.closed m' hm'), by rintro ⟨⟩⟩
    · have hshare : s.openLeases = {m.caller, m.callee} := by
        rw [SessionState.openLeases, if_pos hidle, hcaller, hcallee]
      have hnone : SessionState.openLeases { s with closeOnce := .running } = 0 := if_neg (by simp)
      rw [hshare, hnone, add_zero] at hopen
      show g.2.leases + {m.caller, m.callee} + _ = _
      rw [add_assoc, add_comm _ (Shared.openLeases _), hopen]
    · have hnone : runningAt m.id s = 0 := by
        rw [runningAt, hidle]
        rfl
      have hshare : runningAt m.id { s with closeOnce := .running } = {m.id} := if_pos rfl
      rw [hnone, hshare, add_zero] at hrunning
      have hmine : g.2.closing = 0 := by rw [Own.closing, hstage]
      show ({m.id} : Multiset ℕ) + sh.running = g.2.closing + _
      rw [hmine, hrunning, zero_add, add_comm]
    · have hbrought : g.2.brought = ↑g.2.made := by rw [Own.brought, hstage]
      rw [pointers_setSession (f := fun s => { s with closeOnce := .running }) fun _ => ⟨rfl, rfl⟩,
        hbrought]
      rfl
    · intro s' hs' hdone
      rcases mem_setSession hs' with hs' | ⟨s₀, hs₀, rfl⟩
      · exact .inl ⟨s', hs', hdone, rfl, rfl⟩
      · cases hdone
  · next hdone =>
    obtain ⟨rfl, rfl⟩ := hperf
    refine { SessionMove.refl hfits with seen := fun m' hm' => ?_ }
    rcases List.mem_cons.mp hm' with rfl | hm'
    · exact ⟨s, hs, ⟨hcaller, hcallee⟩, Option.some.inj hdone⟩
    · exact hfits.closed m' hm'
  · exact hperf.elim

theorem move_closeExit {r : Unit} (hfits : Fits sh g) (hclosing : ∀ j ∈ g.2.closing, j ∈ sh.running)
    (hgood : (g.2.nextSession g.1 (.closeExit m) r).bad = false) :
    SessionMove sh g (sh.setSession m fun s => { s with closeOnce := .done })
      (g.2.nextSession g.1 (.closeExit m) r) := by
  obtain ⟨⟨⟨⟨⟨⟨-, hstage⟩, hleases⟩, hmem⟩, hcallerGone⟩, hcalleeGone⟩, hrest⟩ :
      (((((g.2.bad = false ∧ g.2.stage = .closing m) ∧ g.2.leases = 0) ∧ m ∈ g.2.known) ∧
        m.caller ∈ g.2.gone) ∧ m.callee ∈ g.2.gone) ∧ Resting g.1 := by
    simpa [Own.nextSession] using hgood
  obtain ⟨s, hs, hcaller, hcallee⟩ := hfits.known m hmem
  have hmine : g.2.closing = {m.id} := by rw [Own.closing, hstage]
  -- nobody but this call closes the session
  have hrunning : s.closeOnce = .running := by
    have hin := hclosing m.id (by rw [hmine]; exact Multiset.mem_singleton_self _)
    obtain ⟨j, s', hs', hj⟩ := mem_sum_mapIdx.mp hin
    unfold runningAt at hj
    split_ifs at hj with hrun
    · obtain rfl := Multiset.mem_singleton.mp hj
      cases hs.symm.trans hs'
      exact hrun
    · cases Multiset.notMem_zero _ hj
  obtain ⟨hopen, hrunningSum⟩ := sums_setSession hs fun s => { s with closeOnce := .done }
  have hhas : ∀ m', sh.has m' → (sh.setSession m fun s => { s with closeOnce := .done }).has m' :=
    fun m' => has_setSession fun _ => ⟨rfl, rfl⟩
  have hclosed : ∀ m', Closed sh m' →
    Closed (sh.setSession m fun s => { s with closeOnce := .done }) m' :=
    fun m' => closed_setSession (fun _ => ⟨rfl, rfl⟩) fun _ _ _ => rfl
  refine ⟨rfl, ?_, ?_, ?_, hhas, hclosed, ?_, rfl, fun m' hm' => hhas m' (hfits.known m' hm'), ?_,
    fun _ => ⟨hleases, hrest⟩⟩
  · have hnone : s.openLeases = 0 := by
      rw [SessionState.openLeases, hrunning]
      rfl
    have hnone' : SessionState.openLeases { s with closeOnce := .done } = 0 := if_neg (by simp)
    rw [hnone, hnone', add_zero, add_zero] at hopen
    rw [hopen]
    rfl
  · have hshare : runningAt m.id s = {m.id} := if_pos hrunning
    have hnone : runningAt m.id { s with closeOnce := .done } = 0 := if_neg (by simp)
    rw [hshare, hnone, add_zero] at hrunningSum
    show (0 : Multiset ℕ) + sh.running = g.2.closing + _
    rw [zero_add, hmine, ← hrunningSum, add_comm]
  · have hbrought : g.2.brought = ↑g.2.made := by rw [Own.brought, hstage]
    rw [pointers_setSession (f := fun s => { s with closeOnce := .done }) fun _ => ⟨rfl, rfl⟩, hbrought]
    rfl
  · intro s' hs' hdone
    rcases mem_setSession hs' with hs' | ⟨s₀, hs₀, rfl⟩
    · exact .inl ⟨s', hs', hdone, rfl, rfl⟩
    · cases hs.symm.trans hs₀
      exact .inr ⟨hcaller ▸ hcallerGone, hcallee ▸ hcalleeGone⟩
  · intro m' hm'
    rcases List.mem_cons.mp hm' with rfl | hm'
    · refine ⟨_, getElem?_setSession m' _ hs, ?_⟩
      rw [if_pos rfl]
      exact ⟨⟨hcaller, hcallee⟩, rfl⟩
    · exact hclosed m' (hfits.closed m' hm')

theorem Ledger.session_step (h : Ledger pool sh gs) (hget : gs[i]? = some g) {e : SessionOp}
    {r : sessionSig.Ans e} (hgood : (g.2.nextSession g.1 e r).bad = false)
    (hperf : performSession sh e r sh') :
    Ledger pool sh' (gs.set i (handsAt g.1 e, g.2.nextSession g.1 e r)) := by
  have hg := List.mem_of_getElem? hget
  have hfits := h.fits g hg
  have hhands : (handsAt g.1 e).ports = g.1.ports ∧ (handsAt g.1 e).owes = g.1.owes ∧
      (handsAt g.1 e).Fits sh.pool := by
    cases e with
    | newCalled => exact ⟨rfl, rfl, nofun⟩
    | _ => exact ⟨rfl, rfl, hfits.hands⟩
  refine h.of_move hget hhands.1 hhands.2.1 hhands.2.2 ?_
  cases e with
  | newCalled =>
    obtain rfl : sh' = sh := hperf
    exact move_newCalled hfits hgood
  | newReturned m =>
    obtain rfl : sh' = sh := hperf
    exact move_newReturned hfits hgood
  | make caller callee => exact move_make hfits hgood hperf
  | closeEnter m => exact move_closeEnter hfits hgood hperf
  | closeExit m =>
    obtain rfl : sh' = _ := hperf
    refine move_closeExit hfits (fun j hj => ?_) hgood
    rw [← h.closers]
    exact mem_sum_map (f := fun g : Keeper => g.2.closing) hg hj
  | closeDone m =>
    obtain rfl : sh' = _ := hperf
    exact .modify hfits m (fun _ => ⟨rfl, rfl⟩) fun _ => rfl
  | storeRunErr m err =>
    obtain rfl : sh' = _ := hperf
    exact .modify hfits m (fun _ => ⟨rfl, rfl⟩) fun _ => rfl
  | runExit m =>
    obtain rfl : sh' = _ := hperf
    exact .modify hfits m (fun _ => ⟨rfl, rfl⟩) fun _ => rfl
  | runEnter m =>
    replace hperf : enters SessionState.runOnce _ sh m r sh' := hperf
    unfold enters at hperf
    split at hperf
    · obtain ⟨-, rfl⟩ := hperf
      exact .modify hfits m (fun _ => ⟨rfl, rfl⟩) fun _ => rfl
    · obtain ⟨-, rfl⟩ := hperf
      exact .refl hfits
    · exact hperf.elim
  | loadRunErr m =>
    obtain ⟨-, rfl⟩ := hperf
    exact .refl hfits
  | newRewriter | newV7 | isConfigured | groupWait =>
    obtain rfl : sh' = sh := hperf
    exact .refl hfits

end Steps

/-! ## Runs -/

section Runs

variable {X : Type} {pool : Pool} {client : X → Prog (leaseSig E) Unit}

abbrev FactoryState (E : Sig) (X : Type) := System.State (leaseSig E) (Call X) Outcome Shared
abbrev FactoryLabel (E : Sig) (X : Type) := System.Label (leaseSig E) (Call X) Empty

/-- The sessions a call is given. -/
def Call.sessions : Call X → List MediaSession
  | .run m => [m]
  | .close m => [m]
  | _ => []

def Keeper.start (x : Call X) : Keeper :=
  (Hands.start .acquire, ⟨0, [], x.sessions, [], [], .outside, false⟩)

theorem atRest_start (x : Call X) : AtRest x.sessions [] [] (Keeper.start x) :=
  ⟨⟨⟨rfl, rfl⟩, rfl⟩, rfl, rfl, rfl, rfl, rfl, rfl⟩

/-- A call of another package that has returned has closed all sessions it has made. -/
def Returned (outcome : Outcome) (g : Keeper) : Prop :=
  outcome = .finished → ∀ m ∈ g.2.made, m ∈ g.2.closed

/-- The programs of other packages call `New` and `Close` as they should, and close what they make. -/
def Closes (client : X → Prog (leaseSig E) Unit) : Prop :=
  ∀ x, Safe keeper (Keeper.start (.client x : Call X)) (client x) fun _ g =>
    ∀ m ∈ g.2.made, m ∈ g.2.closed

theorem prog_keeps (hclient : Closes client) (x : Call X) :
    Safe keeper (Keeper.start x) ((factorySystem pool client).prog x) Returned := by
  have hrest := atRest_start x
  cases x with
  | new => exact .bind (callNew_keeps pool hrest) fun _ _ _ => safe_pure.mpr nofun
  | run m =>
    exact .bind (run_keeps pool.bindIP hrest List.mem_cons_self)
      fun _ _ _ => safe_pure.mpr nofun
  | close m =>
    exact .bind (close_keeps pool.bindIP hrest List.mem_cons_self)
      fun _ _ _ => safe_pure.mpr nofun
  | client x => exact .bind (hclient x) fun _ _ hg => safe_pure.mpr fun _ => hg

def keepers (st : FactoryState E X) : List Keeper :=
  st.threads.map fun th => keeper.run (Keeper.start th.arg) th.past

abbrev FactoryTracked (st : FactoryState E X) : Prop := System.Tracked keeper Keeper.start Returned st

theorem Ledger.spawn {sh : Shared} {gs : List Keeper} {x : Call X} (h : Ledger pool sh gs)
    (hx : ∀ m ∈ x.sessions, sh.has m) : Ledger pool sh (gs ++ [Keeper.start x]) := by
  have hsum : ∀ {M : Type} [AddCommMonoid M] (f : Keeper → M), f (Keeper.start x) = 0 →
      ((gs ++ [Keeper.start x]).map f).sum = (gs.map f).sum := by
    intro M _ f hf
    rw [List.map_append, List.sum_append, List.map_singleton, List.sum_singleton, hf, add_zero]
  refine ⟨?_, ?_, ?_, ?_, ?_, h.closed, ?_⟩
  · rw [hsum _ rfl]
    exact h.ports
  · rw [hsum _ rfl]
    exact h.inUse
  · rw [hsum _ rfl]
    exact h.owners
  · rw [hsum _ rfl]
    exact h.closers
  · rw [hsum _ rfl]
    exact h.brought
  · intro g hg
    rcases List.mem_append.mp hg with hg | hg
    · exact h.fits g hg
    · rw [List.mem_singleton.mp hg]
      exact ⟨nofun, nofun, hx, nofun, fun _ => ⟨rfl, rfl, rfl⟩⟩

theorem factoryStep_cases {st st' : FactoryState E X} {l : FactoryLabel E X} (ht : FactoryTracked st)
    (h : (factorySystem pool client).Step st l st') :
    (∃ x : Call X, l = .spawn x ∧ st'.shared = st.shared ∧
      keepers st' = keepers st ++ [Keeper.start x] ∧
        ∀ m ∈ x.sessions, st.shared.has m) ∨
      ∃ i e r g, l = .act i ⟨e, r⟩ ∧ (keepers st)[i]? = some g ∧
        keepers st' = (keepers st).set i (keeper.next g e r) ∧
        (keeper (E := E)).good (keeper.next g e r) ∧
        perform pool.capacity st.shared e r st'.shared := by
  cases h with
  | spawn x hx =>
    refine .inl ⟨x, rfl, rfl, by simp [keepers], fun m hm => ?_⟩
    cases x with
    | new | client => cases hm
    | run m' | close m' =>
      obtain rfl := List.mem_singleton.mp hm
      exact hx
  | act i th e k r sh hget hrest hperf =>
    have hsafe := ht th (List.mem_of_getElem? hget)
    rw [hrest, Prog.safe_op] at hsafe
    refine .inr ⟨i, e, r, _, rfl, ?_, ?_, (hsafe r trivial).1, hperf⟩
    · rw [keepers, List.getElem?_map, hget]
      rfl
    · rw [keepers, List.map_set, Thread.advance, Monitor.run_append]
      rfl
  | env l => cases l

theorem Ledger.step {sh sh' : Shared} {gs : List Keeper} {i : ℕ} {g : Keeper} {e : (leaseSig E).Op}
    {r : (leaseSig E).Ans e} (h : Ledger pool sh gs) (hget : gs[i]? = some g)
    (hgood : (keeper (E := E)).good (keeper.next g e r)) (hperf : perform pool.capacity sh e r sh') :
    Ledger pool sh' (gs.set i (keeper.next g e r)) := by
  rcases e with e | e | e
  · exact h.pool_step hget hgood.1 hgood.2 hperf.1 hperf.2
  · exact h.session_step hget hgood.2 hperf
  · obtain rfl : sh' = sh := hperf
    obtain ⟨hlt, rfl⟩ := List.getElem?_eq_some_iff.mp hget
    show Ledger pool sh' (gs.set i gs[i])
    rwa [List.set_getElem_self]

theorem ledger_of_reaches (hclient : Closes client) {st : FactoryState E X} {ls : List (FactoryLabel E X)}
    (h : (factorySystem pool client).Reaches (initial pool) ls st) :
    FactoryTracked st ∧ Ledger pool st.shared (keepers st) := by
  refine Steps.invariant (I := fun _ st => FactoryTracked st ∧ Ledger pool st.shared (keepers st)) ?_ h
    ⟨fun th hth => absurd hth List.not_mem_nil, ?_⟩
  · rintro ls st l st' ⟨ht, hledger⟩ hstep
    refine ⟨System.tracked_step (prog_keeps hclient) (fun _ _ _ _ _ _ => trivial) ht hstep, ?_⟩
    rcases factoryStep_cases ht hstep with
      ⟨x, -, hshared, hkeepers, hx⟩ | ⟨i, e, r, g, -, hget, hkeepers, hgood, hperf⟩
    · rw [hshared, hkeepers]
      exact hledger.spawn hx
    · rw [hkeepers]
      exact hledger.step hget hgood hperf
  · refine ⟨?_, rfl, rfl, rfl, rfl, nofun, nofun⟩
    show ↑pool.ports + 0 + 0 = (↑pool.ports : Multiset UInt16)
    rw [add_zero, add_zero]

end Runs

end AixvolinkPbx.Factory

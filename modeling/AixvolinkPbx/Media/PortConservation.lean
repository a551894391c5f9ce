import AixvolinkPbx.Media.Portalloc
import Mathlib.Algebra.Order.Ring.Int
import Mathlib.Algebra.Order.Group.Multiset
import Mathlib.Tactic.Abel

/-!
# No port pair is lost or handed out twice

Any number of `Acquire` and `Release` calls run on one pool, their steps interleaved in any order,
sockets failing and contexts ending at any time. Every even port of the range is at all times in exactly
one place: in the channel, in the hands of an `Acquire`, or in a lease that is not released.

1. `handsMonitor` follows the ports one call has taken and not passed on; `acquire_hands` and
   `release_hands` show the calls to pass on only ports they have, and in the end all of them.
2. `perform_balance` is what one step does to channel, hands, leases and counter; `Account` is the
   invariant it keeps.
3. `Alone` are the runs of one call while all others rest; `acquire_alone` says what such an `Acquire`
   returns.
-/

namespace AixvolinkPbx.Portalloc

open Prog (Safe Ends safe_bind safe_call safe_pure safe_mono ends_bind ends_call ends_pure Path)

/-! ## What a call holds -/

/-- The ports a call has taken and not passed on, what it still has to add to the counter, the lease it
was called for, and whether it has entered its `once.Do`. -/
structure Hands where
  ports : Multiset UInt16
  owes : ℤ
  lease : Option Lease
  entered : Bool
  bad : Bool

def Hands.next (h : Hands) : (e : PoolOp) → poolSig.Ans e → Hands
  | .select, .received port => { h with ports := port ::ₘ h.ports }
  | .send port, _ => { h with ports := h.ports.erase port, bad := h.bad || port ∉ h.ports }
  | .allocate port, _ =>
    { h with
      ports := h.ports.erase port
      owes := h.owes + 1
      bad := h.bad || port ∉ h.ports }
  | .addInUse delta, _ => { h with owes := h.owes - delta }
  | .onceEnter lease, true =>
    { h with
      ports := lease.rtpPort ::ₘ h.ports
      owes := h.owes - 1
      entered := true
      bad := h.bad || h.lease ≠ some lease }
  | .onceExit lease, _ => { h with bad := h.bad || !h.entered || h.lease ≠ some lease }
  | _, _ => h

def handsMonitor : Monitor poolSig Hands where
  next := Hands.next
  good h := h.bad = false
  admits _ _ := True

def Hands.start : Call → Hands
  | .acquire => ⟨0, 0, none, false, false⟩
  | .release lease => ⟨0, 0, some lease, false, false⟩

/-- An `Acquire` that has these ports. -/
def Hands.failed (failed : List UInt16) : Hands := ⟨↑failed, 0, none, false, false⟩

theorem coe_concat (ports : List UInt16) (port : UInt16) :
    (↑(ports ++ [port]) : Multiset UInt16) = port ::ₘ ↑ports := by
  rw [Multiset.cons_coe, Multiset.coe_eq_coe]
  exact List.perm_append_singleton port ports

variable {e : PoolOp}

theorem op_hands {h : Hands} (hgood : ∀ r, (h.next e r).bad = false) :
    Safe handsMonitor h (op e) fun r h' => h' = h.next e r := by
  rw [safe_call]
  exact fun r _ => ⟨hgood r, rfl⟩

theorem skip_hands {h : Hands} (hskip : ∀ r, h.next e r = h) (hgood : h.bad = false) :
    Safe handsMonitor h (op e) fun _ h' => h' = h := by
  rw [safe_call]
  intro r _
  have hnext : handsMonitor.next h e r = h := hskip r
  rw [hnext]
  exact ⟨hgood, rfl⟩

/-- Making a lease takes the port out of the hands of the call. -/
theorem next_allocate (failed : List UInt16) (port : UInt16) (id : ℕ) :
    (Hands.failed (failed ++ [port])).next (.allocate port) id =
      { Hands.failed failed with owes := 1 } := by
  have hmem : port ∈ (↑(failed ++ [port]) : Multiset UInt16) := by simp
  have hports : (↑(failed ++ [port]) : Multiset UInt16).erase port = ↑failed := by
    rw [coe_concat, Multiset.erase_cons_head]
  simp only [Hands.next, Hands.failed, hports, hmem]
  rfl

theorem bind_hands (bindIP : Addr) (port : UInt16) (failed : List UInt16) :
    Safe handsMonitor (.failed (failed ++ [port])) (bind bindIP port) fun res h =>
      match res with
      | none => h = .failed (failed ++ [port])
      | some _ => h = { Hands.failed failed with owes := 1 } := by
  unfold bind
  refine .bind (skip_hands (fun _ => rfl) rfl) ?_
  rintro rtpBound _ rfl
  split_ifs
  · exact safe_pure.mpr rfl
  refine .bind (skip_hands (fun _ => rfl) rfl) ?_
  rintro rtcpBound _ rfl
  split_ifs
  · refine .bind (skip_hands (fun _ => rfl) rfl) ?_
    rintro closed _ rfl
    exact safe_pure.mpr rfl
  refine .bind (op_hands fun id => ?_) ?_
  · rw [next_allocate]
    rfl
  · rintro id _ rfl
    exact safe_pure.mpr (next_allocate failed port id)

theorem acquireLoop_hands (bindIP : Addr) (attempts : ℕ) (failed : List UInt16) :
    Safe handsMonitor (.failed failed) (acquireLoop bindIP attempts failed) fun res h =>
      h = .failed res.2 := by
  induction attempts generalizing failed with
  | zero => exact safe_pure.mpr rfl
  | succ attempts ih =>
    unfold acquireLoop
    rw [safe_bind, safe_call]
    intro r _
    refine ⟨by cases r <;> rfl, ?_⟩
    cases r with
    | done => exact safe_pure.mpr rfl
    | empty => exact safe_pure.mpr rfl
    | received port =>
      have hnext : handsMonitor.next (.failed failed) .select (.received port) =
          .failed (failed ++ [port]) := by
        show Hands.mk _ _ _ _ _ = Hands.mk _ _ _ _ _
        congr 1
        exact (coe_concat failed port).symm
      rw [hnext]
      refine .bind (bind_hands bindIP port failed) ?_
      intro lease h hh
      cases lease with
      | none =>
        rw [hh]
        exact ih (failed ++ [port])
      | some lease =>
        rw [hh]
        refine .bind (op_hands fun _ => rfl) ?_
        rintro _ _ rfl
        exact safe_pure.mpr rfl

theorem giveBack_hands (failed : List UInt16) :
    Safe handsMonitor (.failed failed) (giveBack failed) fun _ h => h = .failed [] := by
  induction failed with
  | nil => exact safe_pure.mpr rfl
  | cons port failed ih =>
    unfold giveBack
    refine .bind (op_hands fun _ => ?_) ?_
    · simp [Hands.next, Hands.failed]
    · rintro _ _ rfl
      have hnext : (Hands.failed (port :: failed)).next (.send port) () = .failed failed := by
        simp [Hands.next, Hands.failed]
      rw [hnext]
      exact ih

theorem acquire_hands (pool : Pool) :
    Safe handsMonitor (.start .acquire) (acquire pool) fun _ h => h = .failed [] := by
  unfold acquire
  refine .bind (acquireLoop_hands pool.bindIP pool.capacity []) ?_
  rintro ⟨result, failed⟩ _ rfl
  refine .bind (giveBack_hands failed) ?_
  rintro _ _ rfl
  exact safe_pure.mpr rfl

theorem release_hands (bindIP : Addr) (lease : Lease) :
    Safe handsMonitor (.start (.release lease)) (release bindIP lease) fun _ h =>
      h.ports = 0 ∧ h.owes = 0 := by
  unfold release
  rw [safe_bind, safe_call]
  intro entered _
  cases entered with
  | false => exact ⟨rfl, safe_pure.mpr ⟨rfl, rfl⟩⟩
  | true =>
    have hnext : handsMonitor.next (.start (.release lease)) (.onceEnter lease) true =
        ⟨{lease.rtpPort}, -1, some lease, true, false⟩ := by
      simp [handsMonitor, Hands.next, Hands.start]
    rw [hnext]
    refine ⟨rfl, ?_⟩
    rw [if_neg (by simp)]
    refine .bind (skip_hands (fun _ => rfl) rfl) ?_
    rintro _ _ rfl
    refine .bind (skip_hands (fun _ => rfl) rfl) ?_
    rintro rtpClosed _ rfl
    refine .bind (skip_hands (fun _ => rfl) rfl) ?_
    rintro rtcpClosed _ rfl
    refine .bind (op_hands fun _ => rfl) ?_
    rintro _ _ rfl
    refine .bind (op_hands fun _ => ?_) ?_
    · simp [Hands.next]
    rintro _ _ rfl
    refine .bind (op_hands fun _ => ?_) ?_
    · simp [Hands.next]
    rintro _ _ rfl
    exact safe_pure.mpr ⟨by simp [Hands.next], by simp [Hands.next]⟩

theorem prog_hands (pool : Pool) (x : Call) :
    Safe handsMonitor (.start x) ((poolSystem pool).prog x) fun _ h =>
      h.ports = 0 ∧ h.owes = 0 := by
  cases x with
  | acquire =>
    refine .bind (acquire_hands pool) ?_
    rintro _ _ rfl
    exact safe_pure.mpr ⟨rfl, rfl⟩
  | release lease =>
    refine .bind (release_hands pool.bindIP lease) ?_
    exact fun _ _ h => safe_pure.mpr h

/-! ## The account of all ports -/

/-- The port of a lease nobody has begun to release. -/
def LeaseState.held (s : LeaseState) : Multiset UInt16 := if s.once = .idle then {s.rtpPort} else 0

def LeaseState.counts (s : LeaseState) : ℤ := if s.once = .idle then 1 else 0

/-- The ports in leases nobody has begun to release. -/
def Shared.held (sh : Shared) : Multiset UInt16 := (sh.leases.map LeaseState.held).sum

/-- The number of those leases. -/
def Shared.leased (sh : Shared) : ℤ := (sh.leases.map LeaseState.counts).sum

/-- The lease a call is for is one of the pool, and is not idle once the call has entered `once.Do`. -/
def Hands.Fits (h : Hands) (sh : Shared) : Prop :=
  ∀ lease, h.lease = some lease → ∃ s, sh.leases[lease.id]? = some s ∧
    s.rtpPort = lease.rtpPort ∧ (h.entered = true → s.once ≠ .idle)

/-- Leases stay what they are, and are not idle again once `once.Do` was entered. -/
def Grows (sh sh' : Shared) : Prop :=
  ∀ (i : ℕ) (s : LeaseState), sh.leases[i]? = some s → ∃ s', sh'.leases[i]? = some s' ∧
    s'.rtpPort = s.rtpPort ∧ (s.once ≠ .idle → s'.once ≠ .idle)

theorem Grows.refl (sh : Shared) : Grows sh sh := fun _ s h => ⟨s, h, rfl, id⟩

theorem Hands.Fits.grows {h : Hands} {sh sh' : Shared} (hfits : h.Fits sh) (hgrows : Grows sh sh') :
    h.Fits sh' := by
  intro lease hlease
  obtain ⟨s, hs, hport, honce⟩ := hfits lease hlease
  obtain ⟨s', hs', hport', honce'⟩ := hgrows _ _ hs
  exact ⟨s', hs', hport'.trans hport, fun hentered => honce' (honce hentered)⟩

/-- What a step of a call does to channel, hands, leases and counter. -/
structure Balance (sh : Shared) (h : Hands) (sh' : Shared) (h' : Hands) : Prop where
  ports : ↑sh'.available + h'.ports + sh'.held = ↑sh.available + h.ports + sh.held
  inUse : sh'.inUse + h'.owes - sh'.leased = sh.inUse + h.owes - sh.leased
  grows : Grows sh sh'
  fits : h'.Fits sh'

section Balance

variable {capacity : ℕ} {sh sh' : Shared} {h : Hands}

theorem Balance.refl (hfits : h.Fits sh) : Balance sh h sh h := ⟨rfl, rfl, .refl sh, hfits⟩

variable {lease : Lease}

/-- Changing a lease moves a sum over all leases by the share of that lease. -/
theorem sum_setLease {M : Type} [AddCommMonoid M] (g : LeaseState → M) {s : LeaseState}
    (hs : sh.leases[lease.id]? = some s) (f : LeaseState → LeaseState) :
    ((sh.setLease lease f).leases.map g).sum + g s = (sh.leases.map g).sum + g (f s) := by
  have hmodify : sh.leases.modify lease.id f = sh.leases.set lease.id (f s) := by
    rw [List.modify_eq_set_getElem?, hs]
    rfl
  show ((sh.leases.modify lease.id f).map g).sum + g s = _
  rw [hmodify]
  exact sum_map_set g (f s) hs

variable {f : LeaseState → LeaseState}

theorem grows_setLease (lease : Lease) (hport : ∀ s, (f s).rtpPort = s.rtpPort)
    (honce : ∀ s, s.once ≠ .idle → (f s).once ≠ .idle) :
    Grows sh (sh.setLease lease f) := by
  intro i s hs
  show ∃ s', (sh.leases.modify lease.id f)[i]? = some s' ∧ _
  rw [List.getElem?_modify, hs]
  by_cases hi : lease.id = i
  · exact ⟨f s, by simp [hi], hport s, honce s⟩
  · exact ⟨s, by simp [hi], rfl, id⟩

theorem balance_select {r : Selected} (hfits : h.Fits sh) (hperf : perform capacity sh .select r sh') :
    Balance sh h sh' (h.next .select r) := by
  cases r with
  | received port =>
    obtain ⟨rest, havailable, rfl⟩ := hperf
    refine ⟨?_, rfl, fun _ s h => ⟨s, h, rfl, id⟩, hfits⟩
    show ↑rest + port ::ₘ h.ports + sh.held = _
    rw [havailable, ← Multiset.cons_coe, Multiset.add_cons, Multiset.cons_add, Multiset.cons_add,
      Multiset.cons_add]
  | done =>
    obtain rfl : sh' = sh := hperf
    exact .refl hfits
  | empty =>
    obtain ⟨-, rfl⟩ := hperf
    exact .refl hfits

variable {port : UInt16}

theorem balance_send {r : Unit} (hfits : h.Fits sh) (hgood : (h.next (.send port) r).bad = false)
    (hperf : perform capacity sh (.send port) r sh') :
    Balance sh h sh' (h.next (.send port) r) := by
  obtain ⟨-, rfl⟩ := hperf
  have hmem : port ∈ h.ports := by
    by_contra hmem
    simp [Hands.next, hmem] at hgood
  refine ⟨?_, rfl, fun _ s h => ⟨s, h, rfl, id⟩, hfits⟩
  show ↑(sh.available ++ [port]) + h.ports.erase port + sh.held = _
  rw [coe_concat, Multiset.cons_add, ← Multiset.add_cons, Multiset.cons_erase hmem]

theorem balance_allocate {id : ℕ} (hfits : h.Fits sh)
    (hgood : (h.next (.allocate port) id).bad = false)
    (hperf : perform capacity sh (.allocate port) id sh') :
    Balance sh h sh' (h.next (.allocate port) id) := by
  obtain ⟨-, rfl⟩ := hperf
  have hmem : port ∈ h.ports := by
    by_contra hmem
    simp [Hands.next, hmem] at hgood
  have hgrows : Grows sh { sh with leases := sh.leases ++ [⟨port, .idle, false⟩] } := by
    intro i s hs
    refine ⟨s, ?_, rfl, fun h => h⟩
    show (sh.leases ++ _)[i]? = some s
    rw [List.getElem?_append_left (List.getElem?_eq_some_iff.mp hs).1, hs]
  refine ⟨?_, ?_, hgrows, ?_⟩
  · have hheld : Shared.held { sh with leases := sh.leases ++ [⟨port, .idle, false⟩] } =
        port ::ₘ sh.held := by
      rw [← Multiset.singleton_add, add_comm]
      simp [Shared.held, LeaseState.held]
    rw [hheld]
    show ↑sh.available + h.ports.erase port + port ::ₘ sh.held = _
    rw [Multiset.add_cons, ← Multiset.cons_add, ← Multiset.add_cons, Multiset.cons_erase hmem]
  · have hleased : Shared.leased { sh with leases := sh.leases ++ [⟨port, .idle, false⟩] } =
        sh.leased + 1 := by
      simp [Shared.leased, LeaseState.counts]
    rw [hleased]
    show sh.inUse + (h.owes + 1) - (sh.leased + 1) = _
    omega
  · exact fun lease hlease => hfits.grows hgrows lease hlease

theorem balance_onceEnter {r : Bool} (hfits : h.Fits sh)
    (hgood : (h.next (.onceEnter lease) r).bad = false)
    (hperf : perform capacity sh (.onceEnter lease) r sh') :
    Balance sh h sh' (h.next (.onceEnter lease) r) := by
  replace hperf : entersOnce sh lease r sh' := hperf
  unfold entersOnce at hperf
  split at hperf
  · next hidle =>
    obtain ⟨rfl, rfl⟩ := hperf
    obtain ⟨s, hs, hs_idle⟩ := Option.map_eq_some_iff.mp hidle
    have hlease : h.lease = some lease := by
      by_contra hlease
      simp [Hands.next, hlease] at hgood
    obtain ⟨s', hs', hport, -⟩ := hfits lease hlease
    cases hs.symm.trans hs'
    have hgrows : Grows sh (sh.setLease lease fun s => { s with once := .running }) :=
      grows_setLease lease (fun _ => rfl) (fun _ _ => by simp)
    have hheld := sum_setLease LeaseState.held hs fun s => { s with once := .running }
    have hleased := sum_setLease LeaseState.counts hs fun s => { s with once := .running }
    simp only [LeaseState.held, hs_idle, if_true, hport, reduceCtorEq, if_false, add_zero] at hheld
    simp only [LeaseState.counts, hs_idle, if_true, reduceCtorEq, if_false, add_zero] at hleased
    refine ⟨?_, ?_, hgrows, ?_⟩
    · have hcons : lease.rtpPort ::ₘ Shared.held (sh.setLease lease fun s =>
          { s with once := .running }) = sh.held := by
        rw [← Multiset.singleton_add, add_comm]
        exact hheld
      show ↑sh.available + lease.rtpPort ::ₘ h.ports + Shared.held _ = _
      rw [Multiset.add_cons, Multiset.cons_add, ← Multiset.add_cons, hcons]
    · show sh.inUse + (h.owes - 1) - Shared.leased _ = sh.inUse + h.owes - sh.leased
      have : Shared.leased (sh.setLease lease fun s => { s with once := .running }) + 1 = sh.leased :=
        hleased
      omega
    · intro lease' hlease'
      cases hlease.symm.trans hlease'
      refine ⟨{ s with once := .running }, ?_, hport, fun _ => by simp⟩
      show (sh.leases.modify lease.id _)[lease.id]? = _
      rw [List.getElem?_modify, hs]
      simp
  · obtain ⟨rfl, rfl⟩ := hperf
    exact .refl hfits
  · exact hperf.elim

theorem sum_setLease_eq {M : Type} [AddCancelCommMonoid M] (g : LeaseState → M) (lease : Lease)
    (hg : ∀ s, sh.leases[lease.id]? = some s → g (f s) = g s) :
    ((sh.setLease lease f).leases.map g).sum = (sh.leases.map g).sum := by
  rcases hs : sh.leases[lease.id]? with _ | s
  · show ((sh.leases.modify lease.id f).map g).sum = _
    rw [List.modify_eq_set_getElem?, hs]
    rfl
  · have hsum := sum_setLease g hs f
    rw [hg s hs] at hsum
    exact add_right_cancel hsum

/-- Changing a lease that stays idle, or stays not idle, changes no account. -/
theorem balance_setLease (hfits : h.Fits sh) (hport : ∀ s, (f s).rtpPort = s.rtpPort)
    (honce : ∀ s, sh.leases[lease.id]? = some s → ((f s).once = .idle ↔ s.once = .idle))
    (hgrows : Grows sh (sh.setLease lease f)) : Balance sh h (sh.setLease lease f) h := by
  have hheld : (sh.setLease lease f).held = sh.held := by
    refine sum_setLease_eq LeaseState.held lease fun s hs => ?_
    unfold LeaseState.held
    rw [hport, if_congr (honce s hs) rfl rfl]
  have hleased : (sh.setLease lease f).leased = sh.leased := by
    refine sum_setLease_eq LeaseState.counts lease fun s hs => ?_
    unfold LeaseState.counts
    rw [if_congr (honce s hs) rfl rfl]
  refine ⟨?_, ?_, hgrows, hfits.grows hgrows⟩
  · rw [hheld]
    rfl
  · rw [hleased]
    rfl

theorem balance_onceExit {r : Unit} (hfits : h.Fits sh)
    (hgood : (h.next (.onceExit lease) r).bad = false)
    (hperf : perform capacity sh (.onceExit lease) r sh') :
    Balance sh h sh' (h.next (.onceExit lease) r) := by
  obtain rfl : sh' = _ := hperf
  obtain ⟨⟨hbad, hentered⟩, hlease⟩ : (h.bad = false ∧ h.entered = true) ∧
    h.lease = some lease := by
    simpa [Hands.next] using hgood
  have hnext : h.next (.onceExit lease) r = h := by
    obtain ⟨ports, owes, lease', entered, bad⟩ := h
    simp_all [Hands.next]
  rw [hnext]
  obtain ⟨s, hs, -, honce⟩ := hfits lease hlease
  refine balance_setLease hfits (fun _ => rfl) ?_ (grows_setLease lease (fun _ => rfl) fun _ _ => by simp)
  intro s' hs'
  cases hs.symm.trans hs'
  simp [honce hentered]

variable {r : poolSig.Ans e}

/-- Every step of a call that passes on only what it has keeps the balance. -/
theorem perform_balance (hfits : h.Fits sh) (hgood : (h.next e r).bad = false)
    (hperf : perform capacity sh e r sh') :
    Balance sh h sh' (h.next e r) := by
  cases e with
  | select => exact balance_select hfits hperf
  | send port => exact balance_send hfits hgood hperf
  | allocate port => exact balance_allocate hfits hgood hperf
  | onceEnter lease => exact balance_onceEnter hfits hgood hperf
  | onceExit lease => exact balance_onceExit hfits hgood hperf
  | addInUse delta =>
    obtain rfl : sh' = _ := hperf
    refine ⟨rfl, ?_, fun _ s h => ⟨s, h, rfl, id⟩, hfits⟩
    show sh.inUse + delta + (h.owes - delta) - sh.leased = sh.inUse + h.owes - sh.leased
    omega
  | storeReleased lease =>
    obtain rfl : sh' = _ := hperf
    exact balance_setLease hfits (fun _ => rfl) (fun _ _ => Iff.rfl)
      (grows_setLease lease (fun _ => rfl) fun _ h => h)
  | listen | close =>
    obtain rfl : sh' = sh := hperf
    exact .refl hfits

/-- The balance of one call, with the hands of the others added on both sides. -/
theorem Balance.ports_sum {h' h₀ : Hands} (hbalance : Balance sh h sh' h') {hs : List Hands} {i : ℕ}
    (hget : hs[i]? = some h₀) (hports : h₀.ports = h.ports) :
    ↑sh'.available + ((hs.set i h').map Hands.ports).sum + sh'.held =
      ↑sh.available + (hs.map Hands.ports).sum + sh.held := by
  have hsum := sum_map_set Hands.ports h' hget
  rw [hports] at hsum
  refine add_right_cancel (b := h.ports) ?_
  calc ↑sh'.available + ((hs.set i h').map Hands.ports).sum + sh'.held + h.ports
      = ↑sh'.available + sh'.held + (((hs.set i h').map Hands.ports).sum + h.ports) := by abel
    _ = (↑sh'.available + h'.ports + sh'.held) + (hs.map Hands.ports).sum := by
        rw [hsum]
        abel
    _ = ↑sh.available + (hs.map Hands.ports).sum + sh.held + h.ports := by
        rw [hbalance.ports]
        abel

theorem Balance.owes_sum {h' h₀ : Hands} (hbalance : Balance sh h sh' h') {hs : List Hands} {i : ℕ}
    (hget : hs[i]? = some h₀) (howes : h₀.owes = h.owes) :
    sh'.inUse + ((hs.set i h').map Hands.owes).sum - sh'.leased =
      sh.inUse + (hs.map Hands.owes).sum - sh.leased := by
  have hsum := sum_map_set Hands.owes h' hget
  have hinUse := hbalance.inUse
  omega

end Balance

/-! ## The invariant -/

abbrev PoolState := System.State poolSig Call Outcome Shared
abbrev PoolLabel := System.Label poolSig Call Empty

/-- All ports of the pool are in the channel, in the hands of calls, or in leases. -/
structure Account (pool : Pool) (sh : Shared) (seen : List (System.Seen Call Hands)) : Prop where
  ports : ↑sh.available + (seen.map (·.ghost.ports)).sum + sh.held = ↑pool.ports
  inUse : sh.inUse + (seen.map (·.ghost.owes)).sum = sh.leased
  fits : ∀ s ∈ seen, s.ghost.Fits sh

section Account

variable {pool : Pool} {sh sh' : Shared} {seen : List (System.Seen Call Hands)}

theorem Account.spawn (h : Account pool sh seen) {x : Call} (hx : (poolSystem pool).spawns sh x)
    (live : Bool) : Account pool sh (seen ++ [⟨x, .start x, live⟩]) := by
  have hstart : (Hands.start x).ports = 0 ∧ (Hands.start x).owes = 0 := by
    cases x with
    | acquire => exact ⟨rfl, rfl⟩
    | release => exact ⟨rfl, rfl⟩
  refine ⟨?_, ?_, ?_⟩
  · rw [List.map_append, List.sum_append, List.map_singleton, List.sum_singleton, hstart.1, add_zero]
    exact h.ports
  · rw [List.map_append, List.sum_append, List.map_singleton, List.sum_singleton, hstart.2, add_zero]
    exact h.inUse
  · intro s hs
    rcases List.mem_append.mp hs with hs | hs
    · exact h.fits s hs
    · obtain rfl := List.mem_singleton.mp hs
      cases x with
      | acquire => exact fun lease hlease => by cases hlease
      | release lease =>
        intro lease' hlease'
        cases hlease'
        obtain ⟨s, hs, hport⟩ := Option.map_eq_some_iff.mp hx
        exact ⟨s, hs, hport, fun hentered => by cases hentered⟩

theorem Account.act (h : Account pool sh seen) {i : ℕ} {s : System.Seen Call Hands}
    (hget : seen[i]? = some s) {live : Bool} (hgood : (s.ghost.next e r).bad = false)
    (hperf : perform pool.capacity sh e r sh') :
    Account pool sh' (seen.set i (s.next handsMonitor e r live)) := by
  have hmem := List.mem_of_getElem? hget
  have hbalance := perform_balance (h.fits s hmem) hgood hperf
  have hghost : (seen.map (·.ghost))[i]? = some s.ghost := by rw [List.getElem?_map, hget]; rfl
  have hset : (seen.set i (s.next handsMonitor e r live)).map (·.ghost) =
      (seen.map (·.ghost)).set i (s.ghost.next e r) := List.map_set
  refine ⟨?_, ?_, ?_⟩
  · have hports := hbalance.ports_sum hghost rfl
    rw [← hset, List.map_map, List.map_map] at hports
    exact hports.trans h.ports
  · have howes := hbalance.owes_sum hghost rfl
    rw [← hset, List.map_map, List.map_map] at howes
    have hinUse : sh.inUse + (seen.map (Hands.owes ∘ (·.ghost))).sum = sh.leased := h.inUse
    show sh'.inUse + ((seen.set i _).map (Hands.owes ∘ (·.ghost))).sum = _
    omega
  · intro s' hs'
    rcases List.mem_or_eq_of_mem_set hs' with hs' | rfl
    · exact (h.fits s' hs').grows hbalance.grows
    · exact hbalance.fits

variable {ls : List PoolLabel} {st : PoolState}

theorem account_of_reaches (h : (poolSystem pool).Reaches pool.initial ls st) :
    System.Tracked handsMonitor Hands.start (fun _ h => h.ports = 0 ∧ h.owes = 0) st ∧
      Account pool st.shared (System.view handsMonitor Hands.start st) := by
  refine System.invariant (I := fun _ sh seen => Account pool sh seen) (prog_hands pool)
    (fun _ _ _ _ _ _ => trivial) ?_ ?_ ?_ h.under ?_
  · exact fun _ _ _ live hI hx => hI.spawn hx live
  · exact fun _ _ _ _ _ _ _ _ _ hI _ hget _ hgood hperf =>
      hI.act (System.view_getElem? hget) hgood hperf
  · exact fun _ _ l => nomatch l
  · refine ⟨?_, rfl, by simp⟩
    show ↑pool.ports + 0 + 0 = (↑pool.ports : Multiset UInt16)
    rw [add_zero, add_zero]

end Account

/-! ## The ports of a pool -/

def Pair (cfg : Config) (port : UInt16) : Prop :=
  cfg.startPort.toNat ≤ port.toNat ∧ port.toNat % 2 = 0 ∧ port.toNat + 1 ≤ cfg.endPort.toNat

instance (cfg : Config) (port : UInt16) : Decidable (Pair cfg port) := by
  unfold Pair
  infer_instance

theorem fill_eq {n port endPort : ℕ} (h : endPort < port + 2 * n) :
    fill n port endPort = (List.range' port ((endPort + 1 - port) / 2) 2).map UInt16.ofNat := by
  induction n generalizing port with
  | zero =>
    have hempty : (endPort + 1 - port) / 2 = 0 := by omega
    rw [fill, hempty]
    rfl
  | succ n ih =>
    rw [fill]
    split_ifs with hport
    · have hsucc : (endPort + 1 - port) / 2 = (endPort + 1 - (port + 2)) / 2 + 1 := by omega
      rw [hsucc, List.range'_succ, List.map_cons, ih (by omega)]
    · have hempty : (endPort + 1 - port) / 2 = 0 := by omega
      rw [hempty]
      rfl

/-- The checks of `New`. -/
structure Accepted (cfg : Config) (pool : Pool) : Prop where
  startEven : cfg.startPort.toNat % 2 = 0
  endOdd : cfg.endPort.toNat % 2 = 1
  ordered : cfg.startPort.toNat < cfg.endPort.toNat
  capacity : pool.capacity = (cfg.endPort.toNat + 1 - cfg.startPort.toNat) / 2
  ports : pool.ports =
    (List.range' cfg.startPort.toNat pool.capacity 2).map UInt16.ofNat

variable {pool : Pool}

theorem accepted_of_new {cfg : Config} (h : new cfg = .ok pool) :
    Accepted cfg pool := by
  unfold new at h
  split_ifs at h with hip hstart hend
  dsimp only at h
  split_ifs at h with hpairs
  cases h
  simp only [Bool.or_eq_true, decide_eq_true_eq, not_or, not_not] at hstart hend
  have hstartEven : cfg.startPort.toNat % 2 = 0 := by
    have := congrArg UInt16.toNat hstart.2
    simpa using this
  have hendOdd : cfg.endPort.toNat % 2 = 1 := by
    have : cfg.endPort.toNat % 2 ≠ 0 := fun h => hend.2 (UInt16.toNat_inj.mp (by simpa using h))
    omega
  have hordered : cfg.startPort.toNat < cfg.endPort.toNat :=
    UInt16.lt_iff_toNat_lt.mp (UInt16.not_le.mp hend.1)
  have hcapacity : (((cfg.endPort.toNat : ℤ) - cfg.startPort.toNat + 1).tdiv 2).toNat =
      (cfg.endPort.toNat + 1 - cfg.startPort.toNat) / 2 := by
    rw [Int.tdiv_eq_ediv_of_nonneg (by omega)]
    omega
  refine ⟨hstartEven, hendOdd, hordered, hcapacity, ?_⟩
  rw [hcapacity]
  exact fill_eq (by omega)

section Ports

variable {cfg : Config}

theorem Accepted.length_ports (h : Accepted cfg pool) : pool.ports.length = pool.capacity := by
  rw [h.ports, List.length_map, List.length_range']

theorem Accepted.lt_size (h : Accepted cfg pool) {i : ℕ} (hi : i < pool.capacity) :
    cfg.startPort.toNat + 2 * i + 1 ≤ cfg.endPort.toNat := by
  have hcapacity := h.capacity
  omega

theorem Accepted.mem_ports (h : Accepted cfg pool) (port : UInt16) :
    port ∈ pool.ports ↔ Pair cfg port := by
  have hsize : cfg.endPort.toNat < UInt16.size := cfg.endPort.toNat_lt
  rw [h.ports, List.mem_map]
  constructor
  · rintro ⟨value, hvalue, rfl⟩
    obtain ⟨i, hi, rfl⟩ := List.mem_range'.mp hvalue
    have hle := h.lt_size hi
    have heven := h.startEven
    have htoNat : (UInt16.ofNat (cfg.startPort.toNat + 2 * i)).toNat =
        cfg.startPort.toNat + 2 * i := UInt16.toNat_ofNat_of_lt' (by omega)
    unfold Pair
    rw [htoNat]
    omega
  · rintro ⟨hstart, heven, hend⟩
    refine ⟨port.toNat, ?_, UInt16.ofNat_toNat⟩
    refine List.mem_range'.mpr ⟨(port.toNat - cfg.startPort.toNat) / 2, ?_, ?_⟩
    · have := h.capacity
      have := h.startEven
      omega
    · have := h.startEven
      omega

theorem Accepted.nodup_ports (h : Accepted cfg pool) : pool.ports.Nodup := by
  have hsize : cfg.endPort.toNat < UInt16.size := cfg.endPort.toNat_lt
  rw [h.ports]
  refine List.Nodup.map_on ?_ (List.nodup_range' 2)
  intro a ha b hb hab
  obtain ⟨i, hi, rfl⟩ := List.mem_range'.mp ha
  obtain ⟨j, hj, rfl⟩ := List.mem_range'.mp hb
  have hi' := h.lt_size hi
  have hj' := h.lt_size hj
  have htoNat := congrArg UInt16.toNat hab
  rwa [UInt16.toNat_ofNat_of_lt' (by omega), UInt16.toNat_ofNat_of_lt' (by omega)] at htoNat

theorem Accepted.count_ports (h : Accepted cfg pool) (port : UInt16) :
    pool.ports.count port = if Pair cfg port then 1 else 0 := by
  rw [h.nodup_ports.count]
  exact if_congr (h.mem_ports port) rfl rfl

end Ports

/-! ## An `Acquire` that runs alone -/

/-- What the channel holds after an event of a call that runs alone, with a live context and sockets
that can be bound on the ports of `canListen`; none if the event cannot happen then. -/
def nextQueue (canListen : UInt16 → Bool) :
    Option (List UInt16) → (e : PoolOp) → poolSig.Ans e → Option (List UInt16)
  | none, _, _ => none
  | some queue, .select, .received port => if queue.head? = some port then some queue.tail else none
  | some queue, .select, .empty => if queue = [] then some queue else none
  | some _, .select, .done => none
  | some queue, .send port, _ => some (queue ++ [port])
  | some queue, .listen _ address, r => if r = canListen address.port then some queue else none
  | some queue, _, _ => some queue

def queueMonitor (canListen : UInt16 → Bool) : Monitor poolSig (Option (List UInt16)) where
  next := nextQueue canListen
  good _ := True
  admits _ _ := True

section Alone

variable {canListen : UInt16 → Bool} {α : Type}

/-- Both ports of the pair can be bound. -/
def canBind (canListen : UInt16 → Bool) (port : UInt16) : Prop :=
  canListen port = true ∧ canListen (port + 1) = true

theorem dead_safe (p : Prog poolSig α) :
    Safe (queueMonitor canListen) none p fun _ g => g = none := by
  induction p with
  | pure a => exact safe_pure.mpr rfl
  | diverge => exact Prog.safe_diverge
  | op e k ih => exact Prog.safe_op.mpr fun r _ => ⟨trivial, ih r⟩

theorem any_safe (p : Prog poolSig α) (g : Option (List UInt16)) :
    Safe (queueMonitor canListen) g p fun _ _ => True := by
  induction p generalizing g with
  | pure a => exact safe_pure.mpr trivial
  | diverge => exact Prog.safe_diverge
  | op e k ih => exact Prog.safe_op.mpr fun r _ => ⟨trivial, ih r _⟩

/-- Postconditions say nothing about runs that cannot happen. -/
theorem dead_or {p : Prog poolSig α} {Q : α → Option (List UInt16) → Prop} :
    Safe (queueMonitor canListen) none p fun a g => g = none ∨ Q a g :=
  safe_mono (dead_safe p) fun _ _ h => .inl h

theorem listen_alone (network : Network) (address : AddrPort) (queue : List UInt16) :
    Safe (queueMonitor canListen) (some queue) (op (.listen network address)) fun r g =>
      g = none ∨ g = some queue ∧ r = canListen address.port := by
  rw [safe_call]
  refine fun r _ => ⟨trivial, ?_⟩
  show (if r = canListen address.port then some queue else none) = none ∨ _
  split_ifs with hr
  · exact .inr ⟨if_pos hr, hr⟩
  · exact .inl rfl

theorem bind_alone (bindIP : Addr) (port : UInt16) (queue : List UInt16) :
    Safe (queueMonitor canListen) (some queue) (bind bindIP port) fun res g =>
      g = none ∨ g = some queue ∧ (res.isSome = true ↔ canBind canListen port) := by
  unfold bind
  refine .bind (listen_alone _ _ queue) ?_
  rintro rtpBound _ (rfl | ⟨rfl, hrtp⟩)
  · exact dead_or
  split_ifs
  · exact safe_pure.mpr (.inr ⟨rfl, by simp_all [canBind]⟩)
  refine .bind (listen_alone _ _ queue) ?_
  rintro rtcpBound _ (rfl | ⟨rfl, hrtcp⟩)
  · exact dead_or
  split_ifs
  · refine safe_bind.mpr (safe_call.mpr fun closed _ => ⟨trivial, ?_⟩)
    exact safe_pure.mpr (.inr ⟨rfl, by simp_all [canBind]⟩)
  · refine safe_bind.mpr (safe_call.mpr fun id _ => ⟨trivial, ?_⟩)
    exact safe_pure.mpr (.inr ⟨rfl, by simp_all [canBind]⟩)

/-- The loop tries every port of a channel that holds no more ports than there are attempts. -/
theorem acquireLoop_alone (bindIP : Addr) {attempts : ℕ} (failed : List UInt16) {queue : List UInt16}
    (hqueue : queue.length ≤ attempts) :
    Safe (queueMonitor canListen) (some queue) (acquireLoop bindIP attempts failed) fun res g =>
      g = none ∨ ((∃ lease, res.1 = .ok lease) ↔ ∃ port ∈ queue, canBind canListen port) := by
  induction attempts generalizing failed queue with
  | zero =>
    obtain rfl := List.eq_nil_of_length_eq_zero (Nat.le_zero.mp hqueue)
    exact safe_pure.mpr (.inr (by simp))
  | succ attempts ih =>
    unfold acquireLoop
    rw [safe_bind, safe_call]
    refine fun r _ => ⟨trivial, ?_⟩
    cases r with
    | done => exact dead_or
    | empty =>
      show Safe _ (if queue = [] then some queue else none) _ _
      split_ifs with hempty
      · exact safe_pure.mpr (.inr (by simp [hempty]))
      · exact dead_or
    | received port =>
      show Safe _ (if queue.head? = some port then some queue.tail else none) _ _
      split_ifs with hport
      · obtain ⟨rest, rfl⟩ := List.head?_eq_some_iff.mp hport
        refine .bind (bind_alone bindIP port rest) ?_
        rintro lease _ (rfl | ⟨rfl, hlease⟩)
        · exact dead_or
        cases lease with
        | none =>
          have hnot : ¬ canBind canListen port := fun h => by simpa using hlease.mpr h
          refine safe_mono (ih (failed ++ [port]) (by simpa using hqueue)) fun res g hg => ?_
          simpa [hnot] using hg
        | some lease =>
          refine safe_bind.mpr (safe_call.mpr fun _ _ => ⟨trivial, safe_pure.mpr (.inr ?_)⟩)
          exact ⟨fun _ => ⟨port, List.mem_cons_self, hlease.mp rfl⟩, fun _ => ⟨lease, rfl⟩⟩
      · exact dead_or

theorem acquire_alone {queue : List UInt16} (hqueue : queue.length ≤ pool.capacity) :
    Safe (queueMonitor canListen) (some queue) (acquire pool) fun res g =>
      g = none ∨ ((∃ lease, res = .ok lease) ↔ ∃ port ∈ queue, canBind canListen port) := by
  unfold acquire
  refine .bind (acquireLoop_alone pool.bindIP [] hqueue) ?_
  rintro ⟨result, failed⟩ g (rfl | hresult)
  · exact dead_or
  exact .bind (any_safe _ g) fun _ _ _ => safe_pure.mpr (.inr hresult)

/-! ### Runs in which only one call moves -/

/-- The context lives, and sockets can be bound on the ports of `canListen`. -/
def Live (canListen : UInt16 → Bool) : Event poolSig → Prop
  | ⟨.select, r⟩ => r ≠ .done
  | ⟨.listen _ address, r⟩ => r = canListen address.port
  | _ => True

/-- A new `Acquire` is called in the state `st`, and only it moves. -/
def Alone (pool : Pool) (canListen : UInt16 → Bool) (st : PoolState) (ls : List PoolLabel)
    (st' : PoolState) : Prop :=
  Steps (fun st₁ l st₂ => (poolSystem pool).Step st₁ l st₂ ∧
      ∃ ev, l = .act st.threads.length ev ∧ Live canListen ev)
    ⟨st.shared, st.threads ++ [⟨.acquire, [], (poolSystem pool).prog .acquire⟩]⟩ ls st'

/-- A live answer is one the channel allows. -/
theorem nextQueue_of_perform {capacity : ℕ} {sh sh' : Shared} (hperf : perform capacity sh e r sh')
    (hlive : Live canListen ⟨e, r⟩) :
    nextQueue canListen (some sh.available) e r = some sh'.available := by
  cases e with
  | select =>
    cases r with
    | received port =>
      obtain ⟨rest, havailable, rfl⟩ := hperf
      simp [nextQueue, havailable]
    | done => exact absurd rfl hlive
    | empty =>
      obtain ⟨hempty, rfl⟩ := hperf
      exact if_pos hempty
  | send port =>
    obtain ⟨-, rfl⟩ := hperf
    rfl
  | listen network address =>
    obtain rfl : sh' = sh := hperf
    exact if_pos hlive
  | allocate port =>
    obtain ⟨-, rfl⟩ := hperf
    rfl
  | onceEnter lease =>
    replace hperf : entersOnce sh lease r sh' := hperf
    unfold entersOnce at hperf
    split at hperf
    · obtain ⟨-, rfl⟩ := hperf
      rfl
    · obtain ⟨-, rfl⟩ := hperf
      rfl
    · exact hperf.elim
  | addInUse | storeReleased | onceExit | close =>
    obtain rfl : sh' = _ := hperf
    rfl

/-- What holds along a run in which only the new call moves. -/
def Followed (pool : Pool) (canListen : UInt16 → Bool) (st st' : PoolState) : Prop :=
  ∃ th, st'.threads[st.threads.length]? = some th ∧
    Path ((poolSystem pool).prog .acquire) th.past th.rest ∧
    (queueMonitor canListen).run (some st.shared.available) th.past = some st'.shared.available

theorem followed_of_alone {st' : PoolState} (h : Alone pool canListen st ls st') :
    Followed pool canListen st st' := by
  refine Steps.invariant (I := fun _ st' => Followed pool canListen st st') ?_ h ?_
  · rintro ls st₁ l st₂ ⟨th, hget, hpath, hrun⟩ ⟨hstep, ev, rfl, hlive⟩
    cases hstep with
    | act _ th' e k r sh hget' hrest hperf =>
      cases hget.symm.trans hget'
      have hlt := (List.getElem?_eq_some_iff.mp hget).1
      refine ⟨th.advance ⟨e, r⟩ (k r), List.getElem?_set_self hlt, ?_, ?_⟩
      · rw [hrest] at hpath
        exact hpath.snoc r
      · rw [Thread.advance, Monitor.run_append, hrun]
        exact nextQueue_of_perform hperf hlive
  · exact ⟨⟨.acquire, [], (poolSystem pool).prog .acquire⟩, by simp, .nil _, rfl⟩

theorem result_of_alone {st' : PoolState} (hqueue : st.shared.available.length ≤ pool.capacity)
    (h : Alone pool canListen st ls st') {result : Except AcquireError Lease}
    (hresult : (st'.threads[st.threads.length]?).map Thread.rest = some (pure (.acquired result))) :
    (∃ lease, result = .ok lease) ↔ ∃ port ∈ st.shared.available, canBind canListen port := by
  have hsafe : Safe (queueMonitor canListen) (some st.shared.available)
      ((poolSystem pool).prog .acquire) fun outcome g => g = none ∨ ∀ result,
        outcome = .acquired result →
          ((∃ lease, result = .ok lease) ↔ ∃ port ∈ st.shared.available, canBind canListen port) := by
    refine .bind (acquire_alone hqueue) ?_
    rintro result g (rfl | hg)
    · exact safe_pure.mpr (.inl rfl)
    · refine safe_pure.mpr (.inr ?_)
      rintro _ ⟨rfl⟩
      exact hg
  obtain ⟨th, hget, hpath, hrun⟩ := followed_of_alone h
  rw [hget] at hresult
  rw [Option.some.inj hresult] at hpath
  have hpost := Prog.safe_returns hsafe hpath fun _ _ => trivial
  rw [hrun] at hpost
  rcases hpost with hpost | hpost
  · cases hpost
  · exact hpost result rfl

end Alone

/-! ## Conservation -/

def hands (th : Thread poolSig Call Outcome) : Hands :=
  handsMonitor.run (.start th.arg) th.past

/-- The ports in the hands of `Acquire` calls: being bound, or failed. -/
def acquiring (st : PoolState) : Multiset UInt16 :=
  (st.threads.map fun th => if th.arg = .acquire then (hands th).ports else 0).sum

/-- The ports of the leases that are not released: those nobody has begun to release, and those whose
`Release` has not put the port back. -/
def unreleased (st : PoolState) : Multiset UInt16 :=
  st.shared.held + (st.threads.map fun th => if th.arg = .acquire then 0 else (hands th).ports).sum

/-- What holds in every state of a pool. -/
structure Conserved (cfg : Config) (pool : Pool) (st : PoolState) : Prop where
  /-- Every even port of the range is in exactly one place, and no other port is anywhere. -/
  once : ∀ port, st.shared.available.count port + (acquiring st).count port +
    (unreleased st).count port = if Pair cfg port then 1 else 0
  /-- No two leases share a port. -/
  distinct : (unreleased st).Nodup
  /-- Both ports of a lease are in the range. -/
  range : ∀ port ∈ unreleased st, cfg.startPort.toNat ≤ port.toNat ∧
    port.toNat + 1 ≤ cfg.endPort.toNat
  /-- The counter is the number of leases, up to the calls that are about to change it. -/
  inUse : st.shared.inUse + (st.threads.map fun th => (hands th).owes).sum = st.shared.leased
  /-- No send waits. -/
  room : ∀ th ∈ st.threads, ∀ port k, th.rest = .op (.send port) k →
    st.shared.available.length < pool.capacity
  /-- When no call is in progress the counter is the number of leases not released. -/
  atRest : (∀ th ∈ st.threads, th.live = false) → st.shared.inUse = (unreleased st).card
  /-- When no call is in progress and nothing is leased, all pairs are in the channel. -/
  full : (∀ th ∈ st.threads, th.live = false) → unreleased st = 0 →
    st.shared.available.Perm pool.ports

section Conserved

variable {cfg : Config}

theorem card_held (sh : Shared) : (sh.held.card : ℤ) = sh.leased := by
  unfold Shared.held Shared.leased
  induction sh.leases with
  | nil => rfl
  | cons s leases ih =>
    have hs : (s.held.card : ℤ) = s.counts := by
      unfold LeaseState.held LeaseState.counts
      split_ifs
      · rfl
      · rfl
    rw [List.map_cons, List.sum_cons, List.map_cons, List.sum_cons, Multiset.card_add]
    push_cast
    rw [hs, ih]

theorem ports_eq (h : Account pool st.shared (System.view handsMonitor Hands.start st)) :
    ↑st.shared.available + acquiring st + unreleased st = (↑pool.ports : Multiset UInt16) := by
  have hsplit : (st.threads.map fun th => (hands th).ports).sum =
      (st.threads.map fun th => if th.arg = .acquire then (hands th).ports else 0).sum +
        (st.threads.map fun th => if th.arg = .acquire then 0 else (hands th).ports).sum := by
    rw [← List.sum_map_add]
    congr 2
    funext th
    split_ifs
    · rw [add_zero]
    · rw [zero_add]
  have hports := h.ports
  rw [System.view, List.map_map] at hports
  rw [acquiring, unreleased, ← hports]
  show _ = ↑st.shared.available + (st.threads.map fun th => (hands th).ports).sum + st.shared.held
  rw [hsplit]
  abel

/-- A call that is about to send holds the port, so there is room for it. -/
theorem room_of_account (hlength : pool.ports.length = pool.capacity)
    (htracked : System.Tracked handsMonitor Hands.start (fun _ h => h.ports = 0 ∧ h.owes = 0) st)
    (h : Account pool st.shared (System.view handsMonitor Hands.start st))
    {th : Thread poolSig Call Outcome} (hth : th ∈ st.threads) {k : Unit → Prog poolSig Outcome}
    (hrest : th.rest = .op (.send port) k) :
    st.shared.available.length < pool.capacity := by
  have hsafe := htracked th hth
  rw [hrest, Prog.safe_op] at hsafe
  have hgood : ((hands th).next (.send port) ()).bad = false := (hsafe () trivial).1
  have hmem : port ∈ (hands th).ports := by
    by_contra hmem
    simp [Hands.next, hmem] at hgood
  obtain ⟨before, after, hsplit⟩ := List.append_of_mem
    (List.mem_map_of_mem (f := System.see handsMonitor Hands.start) hth)
  have hcard := congrArg Multiset.card h.ports
  rw [System.view, hsplit, List.map_append, List.map_cons, List.sum_append, List.sum_cons] at hcard
  simp only [Multiset.card_add, Multiset.coe_card] at hcard
  have hpos : 0 < (hands th).ports.card := Multiset.card_pos_iff_exists_mem.mpr ⟨port, hmem⟩
  have hsee : (System.see handsMonitor Hands.start th).ghost.ports = (hands th).ports := rfl
  rw [hsee] at hcard
  omega

theorem conserved_of_reaches (hnew : new cfg = .ok pool)
    (h : (poolSystem pool).Reaches pool.initial ls st) : Conserved cfg pool st := by
  have haccepted := accepted_of_new hnew
  obtain ⟨htracked, haccount⟩ := account_of_reaches h
  have hports := ports_eq haccount
  have hcount : ∀ port, st.shared.available.count port + (acquiring st).count port +
      (unreleased st).count port = if Pair cfg port then 1 else 0 := by
    intro port
    rw [← haccepted.count_ports port, ← Multiset.coe_count, ← Multiset.coe_count, ← hports,
      Multiset.count_add, Multiset.count_add]
  -- a call that has returned holds nothing
  have hdone : (∀ th ∈ st.threads, th.live = false) →
      ∀ th ∈ st.threads, (hands th).ports = 0 ∧ (hands th).owes = 0 := by
    intro hlive th hth
    obtain ⟨_, -, hnothing⟩ := htracked.returned hth (hlive th hth)
    exact hnothing
  have hinUse : st.shared.inUse + (st.threads.map fun th => (hands th).owes).sum =
      st.shared.leased := by
    have hinUse := haccount.inUse
    rw [System.view, List.map_map] at hinUse
    exact hinUse
  have hheld : (∀ th ∈ st.threads, th.live = false) → unreleased st = st.shared.held := by
    intro hlive
    rw [unreleased, List.sum_eq_zero, add_zero]
    intro ports hports
    obtain ⟨th, hth, rfl⟩ := List.mem_map.mp hports
    rw [(hdone hlive th hth).1, ite_self]
  refine ⟨hcount, ?_, ?_, hinUse, ?_, ?_, ?_⟩
  · refine Multiset.nodup_iff_count_le_one.mpr fun port => ?_
    have hport := hcount port
    split_ifs at hport
    · omega
    · omega
  · intro port hport
    have hpos := Multiset.count_pos.mpr hport
    have hsum := hcount port
    split_ifs at hsum with hpair
    · exact ⟨hpair.1, hpair.2.2⟩
    · omega
  · exact fun th hth port k hrest =>
      room_of_account haccepted.length_ports htracked haccount hth hrest
  · intro hlive
    have howes : (st.threads.map fun th => (hands th).owes).sum = 0 := by
      refine List.sum_eq_zero fun owes howes => ?_
      obtain ⟨th, hth, rfl⟩ := List.mem_map.mp howes
      exact (hdone hlive th hth).2
    rw [hheld hlive, card_held]
    rw [howes, add_zero] at hinUse
    exact hinUse
  · intro hlive hnone
    have hacquiring : acquiring st = 0 := by
      refine List.sum_eq_zero fun ports hports => ?_
      obtain ⟨th, hth, rfl⟩ := List.mem_map.mp hports
      rw [(hdone hlive th hth).1, ite_self]
    rw [hnone, hacquiring, add_zero, add_zero] at hports
    exact Multiset.coe_eq_coe.mp hports

end Conserved

/-! ### An `Acquire` that runs alone returns -/

/-- An operation that no other call can hold up for good. -/
def Prompt : PoolOp → Prop
  | .onceEnter _ => False
  | _ => True

theorem bind_ends (bindIP : Addr) (port : UInt16) : Ends Prompt (bind bindIP port) := by
  unfold bind
  refine ends_bind (ends_call trivial) fun rtpBound => ?_
  split_ifs
  · exact ends_pure
  refine ends_bind (ends_call trivial) fun rtcpBound => ?_
  split_ifs
  · exact ends_bind (ends_call trivial) fun _ => ends_pure
  · exact ends_bind (ends_call trivial) fun _ => ends_pure

theorem acquireLoop_ends (bindIP : Addr) (attempts : ℕ) (failed : List UInt16) :
    Ends Prompt (acquireLoop bindIP attempts failed) := by
  induction attempts generalizing failed with
  | zero => exact ends_pure
  | succ attempts ih =>
    unfold acquireLoop
    refine ends_bind (ends_call trivial) fun r => ?_
    cases r with
    | done => exact ends_pure
    | empty => exact ends_pure
    | received port =>
      refine ends_bind (bind_ends bindIP port) fun lease => ?_
      cases lease with
      | none => exact ih _
      | some lease => exact ends_bind (ends_call trivial) fun _ => ends_pure

theorem acquire_ends (pool : Pool) : Ends Prompt (acquire pool) := by
  unfold acquire
  refine ends_bind (acquireLoop_ends _ _ _) fun res => ends_bind ?_ fun _ => ends_pure
  induction res.2 with
  | nil => exact ends_pure
  | cons port failed ih => exact ends_bind (ends_call trivial) fun _ => ih

section Progress

variable {cfg : Config} {canListen : UInt16 → Bool}

/-- An operation of an `Acquire` is answered at once. -/
theorem enabled {capacity : ℕ} (sh : Shared) (he : Prompt e)
    (hroom : ∀ port, e = .send port → sh.available.length < capacity) :
    ∃ r sh', perform capacity sh e r sh' ∧ Live canListen ⟨e, r⟩ := by
  cases e with
  | select =>
    rcases havailable : sh.available with _ | ⟨port, rest⟩
    · exact ⟨.empty, sh, ⟨havailable, rfl⟩, nofun⟩
    · exact ⟨.received port, _, ⟨rest, havailable, rfl⟩, nofun⟩
  | send port => exact ⟨(), _, ⟨hroom port rfl, rfl⟩, trivial⟩
  | listen network address => exact ⟨canListen address.port, sh, rfl, rfl⟩
  | close address => exact ⟨true, sh, rfl, trivial⟩
  | allocate port => exact ⟨_, _, ⟨rfl, rfl⟩, trivial⟩
  | onceEnter lease => exact he.elim
  | addInUse | storeReleased | onceExit => exact ⟨(), _, rfl, trivial⟩

/-- From every state of its run alone, an `Acquire` gets to its end. -/
theorem alone_ends (hnew : new cfg = .ok pool) {p : Prog poolSig Outcome} (hp : Ends Prompt p)
    {st₁ : PoolState} {ls₁ : List PoolLabel}
    (hreach : (poolSystem pool).Reaches pool.initial ls₁ st₁)
    (halone : Alone pool canListen st ls st₁) {th : Thread poolSig Call Outcome}
    (hget : st₁.threads[st.threads.length]? = some th) (hrest : th.rest = p) :
    ∃ ls' st' outcome, Alone pool canListen st ls' st' ∧
      (st'.threads[st.threads.length]?).map Thread.rest = some (pure outcome) := by
  induction p generalizing st₁ ls₁ ls th with
  | pure outcome => exact ⟨ls, st₁, outcome, halone, by rw [hget, Option.map_some, hrest]; rfl⟩
  | diverge => exact hp.elim
  | op e k ih =>
    have hconserved := conserved_of_reaches hnew hreach
    obtain ⟨r, sh, hperf, hlive⟩ : ∃ r sh', perform pool.capacity st₁.shared e r sh' ∧
        Live canListen ⟨e, r⟩ := by
      refine enabled st₁.shared hp.1 ?_
      rintro port rfl
      exact hconserved.room th (List.mem_of_getElem? hget) port k hrest
    have hstep : (poolSystem pool).Step st₁ _ _ := .act st₁ _ th e k r sh hget hrest hperf
    have hlt := (List.getElem?_eq_some_iff.mp hget).1
    exact ih r (hp.2 r) (hreach.snoc hstep) (halone.snoc ⟨hstep, _, rfl, hlive⟩)
      (List.getElem?_set_self hlt) rfl

end Progress

/-- The pool conserves its pairs; and an `Acquire` that runs alone returns, with a lease if and only if
some pair in the channel can be bound. -/
theorem pool_conserved {cfg : Config} {pool : Pool} (hnew : new cfg = .ok pool) {st : PoolState}
    {ls : List PoolLabel} (h : (poolSystem pool).Reaches pool.initial ls st) :
    Conserved cfg pool st ∧ ∀ canListen : UInt16 → Bool,
      (∃ ls' st' result, Alone pool canListen st ls' st' ∧
        (st'.threads[st.threads.length]?).map Thread.rest = some (pure (.acquired result))) ∧
      ∀ ls' st' result, Alone pool canListen st ls' st' →
        (st'.threads[st.threads.length]?).map Thread.rest = some (pure (.acquired result)) →
        ((∃ lease, result = .ok lease) ↔
          ∃ port ∈ st.shared.available, canBind canListen port) := by
  have haccepted := accepted_of_new hnew
  have hconserved := conserved_of_reaches hnew h
  refine ⟨hconserved, fun canListen => ⟨?_, ?_⟩⟩
  · have hspawn : (poolSystem pool).Step st _ _ := .spawn st .acquire trivial
    have hreach := h.snoc hspawn
    obtain ⟨ls', st', outcome, halone, hrest⟩ := alone_ends hnew
      (ends_bind (acquire_ends pool) fun _ => ends_pure) hreach
      (Steps.nil : Alone pool canListen st [] _) List.getElem?_concat_length rfl
    obtain ⟨th, hget, hpath, -⟩ := followed_of_alone halone
    rw [hget] at hrest
    rw [Option.some.inj hrest] at hpath
    have hsafe : Safe (queueMonitor canListen) none ((poolSystem pool).prog .acquire)
        fun outcome _ => ∃ result, outcome = .acquired result :=
      .bind (any_safe _ _) fun result _ _ => safe_pure.mpr ⟨result, rfl⟩
    obtain ⟨result, rfl⟩ := Prog.safe_returns hsafe hpath fun _ _ => trivial
    exact ⟨ls', st', result, halone, by rw [hget, hrest]⟩
  · refine fun ls' st' result halone hresult => result_of_alone ?_ halone hresult
    have hcard := congrArg Multiset.card (ports_eq (account_of_reaches h).2)
    simp only [Multiset.card_add, Multiset.coe_card] at hcard
    have := haccepted.length_ports
    omega

def twoPairs : Config := ⟨.v4 0x0a000001, 10000, 10003⟩

def twoPairPool : Pool := ⟨.v4 0x0a000001, 2, [10000, 10002]⟩

theorem new_twoPairs : new twoPairs = .ok twoPairPool := by decide +kernel

/-- A socket on one of the ports cannot be opened. -/
def answering (busy port : UInt16) (id : ℕ) : (e : PoolOp) → poolSig.Ans e
  | .select => .received port
  | .listen _ address => address.port ≠ busy
  | .close _ => true
  | .allocate _ => id
  | .onceEnter _ => true
  | .send _ | .addInUse _ | .storeReleased _ | .onceExit _ => ()

/-- An `Acquire` cannot bind the first pair and takes the second one; another one takes the first pair
while the second one is released. -/
def releasedPair : List (PoolState × PoolLabel) × PoolState :=
  (poolSystem twoPairPool).follow (fun sh _ => stepPool twoPairPool.capacity sh) (fun _ l => l.elim)
    (.spawn .acquire :: List.replicate 2 (.act 0 (answering 10000 10000 0)) ++
      List.replicate 6 (.act 0 (answering 10000 10002 0)) ++
      .spawn .acquire :: .spawn (.release ⟨0, 10002⟩) :: List.replicate 4 (.act 2 (answering 0 0 0)) ++
      List.replicate 5 (.act 1 (answering 0 10000 1)) ++ List.replicate 3 (.act 2 (answering 0 0 0)))
    ⟨twoPairPool.initial, []⟩

/-- Whether a call of `Release` that is started is one of a lease there is. -/
def releasesLease (p : PoolState × PoolLabel) : Bool :=
  match p.2 with
  | .spawn (.release lease) => (p.1.shared.leases[lease.id]?).map LeaseState.rtpPort = some lease.rtpPort
  | _ => true

theorem releasedPair_reaches :
    (poolSystem twoPairPool).Reaches twoPairPool.initial (System.labels releasedPair) releasedPair.2 := by
  have hleases : releasedPair.1.all releasesLease = true := by decide +kernel
  refine (System.follow_steps (C := fun _ _ => True) (fun _ _ _ _ _ => stepPool_perform)
    (fun _ l => l.elim) _ _ fun p hp => ⟨fun x hx => ?_, trivial⟩).mono fun _ _ _ _ hs => hs.1
  cases x with
  | acquire => trivial
  | release lease =>
    have hlease := List.all_eq_true.mp hleases p hp
    simp only [releasesLease, hx, decide_eq_true_eq] at hlease
    exact hlease

/-- The pairs are conserved by the run; after it an `Acquire` gets the pair that was released, unless its
second socket cannot be opened. -/
theorem pool_conserved_twoPairs :
    (poolSystem twoPairPool).Reaches twoPairPool.initial (System.labels releasedPair) releasedPair.2 ∧
    releasedPair.2.shared.available = [10002] ∧ unreleased releasedPair.2 = {10000} ∧
    Conserved twoPairs twoPairPool releasedPair.2 ∧
    (∃ ls st lease, Alone twoPairPool (fun _ => true) releasedPair.2 ls st ∧
      (st.threads[3]?).map Thread.rest = some (pure (.acquired (.ok lease)))) ∧
    ∃ ls st err, Alone twoPairPool (· ≠ 10003) releasedPair.2 ls st ∧
      (st.threads[3]?).map Thread.rest = some (pure (.acquired (.error err))) := by
  obtain ⟨hconserved, hacquire⟩ := pool_conserved new_twoPairs releasedPair_reaches
  have havailable : releasedPair.2.shared.available = [10002] := by decide +kernel
  refine ⟨releasedPair_reaches, havailable, by decide +kernel, hconserved, ?_, ?_⟩
  · obtain ⟨⟨ls, st, result, halone, hresult⟩, hiff⟩ := hacquire fun _ => true
    obtain ⟨lease, rfl⟩ := (hiff ls st result halone hresult).mpr ⟨10002, by simp [havailable],
      rfl, rfl⟩
    exact ⟨ls, st, lease, halone, hresult⟩
  · obtain ⟨⟨ls, st, result, halone, hresult⟩, hiff⟩ := hacquire (· ≠ 10003)
    cases result with
    | error err => exact ⟨ls, st, err, halone, hresult⟩
    | ok lease =>
      obtain ⟨port, hport, hbind⟩ := (hiff ls st _ halone hresult).mp ⟨lease, rfl⟩
      rw [havailable] at hport
      cases List.mem_singleton.mp hport
      exact absurd hbind.2 (by decide)

end AixvolinkPbx.Portalloc

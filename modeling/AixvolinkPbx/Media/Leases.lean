import AixvolinkPbx.Media.Factory
import AixvolinkPbx.Media.PortConservation

/-!
# The leases of media sessions

Calls of `New`, `Run` and `Close` run on one factory, with programs of other packages that call them,
their steps interleaved in any order. Every lease that is not released belongs to exactly one call that
will pass it on or release it, or to one session that nobody has begun to close.

1. `keeper` follows what one call has: the ports in its hands (`PortConservation`), and the leases it is
   responsible for. `new_keeps`, `close_keeps` and `run_keeps` show that a call is responsible for nothing
   once it is over.
2. `Ledger` is the invariant of all runs; `pool_step` and `session_step` are its steps.
-/

namespace AixvolinkPbx.Factory

open Portalloc (AcquireError Hands Lease LeaseState Once PoolOp Pool acquire acquireLoop giveBack
  handsMonitor poolSig release)
open Prog (Only Safe only_bind only_call only_pure safe_bind safe_call safe_pure safe_mono)

variable {E : Sig}

/-! ## What a call is responsible for -/

/-- Whether a call is inside of `New`, and the session it has made there, or inside of `closeOnce.Do`. -/
inductive Stage
  | outside
  | creating (made : Option MediaSession)
  | closing (m : MediaSession)
  deriving DecidableEq

def Stage.make (m : MediaSession) : Stage → Stage
  | .creating _ => .creating (some m)
  | stage => stage

/-- The leases a call has to pass on or to release, those it has seen released, the sessions it may close,
those that its calls of `New` returned, and those it has seen closed. -/
structure Own where
  leases : Multiset Lease
  gone : List Lease
  known : List MediaSession
  made : List MediaSession
  closed : List MediaSession
  stage : Stage
  bad : Bool

/-- The operations of the pool belong into `New` and `Close`. -/
def Own.nextPool (o : Own) : (e : PoolOp) → poolSig.Ans e → Own
  | .allocate port, id =>
    { o with leases := ⟨id, port⟩ ::ₘ o.leases, bad := o.bad || o.stage = .outside }
  | .onceEnter lease, entered =>
    { o with
      leases := o.leases.erase lease
      gone := if entered then o.gone else lease :: o.gone
      bad := o.bad || o.stage = .outside || lease ∉ o.leases }
  | .onceExit lease, _ => { o with gone := lease :: o.gone, bad := o.bad || o.stage = .outside }
  | _, _ => { o with bad := o.bad || o.stage = .outside }

def ownMonitor : Monitor poolSig Own where
  next := Own.nextPool
  good o := o.bad = false
  admits _ _ := True

/-- The hands of a call, which may release several leases one after the other. -/
def handsBefore (h : Hands) : PoolOp → Hands
  | .onceEnter lease => { h with lease := some lease, entered := false }
  | _ => h

def handsPool : Monitor poolSig Hands where
  next h e r := (handsBefore h e).next e r
  good h := h.bad = false
  admits _ _ := True

def Resting (h : Hands) : Prop := h.ports = 0 ∧ h.owes = 0

instance (h : Hands) : Decidable (Resting h) := by
  unfold Resting
  infer_instance

/-- The hands and what the call is responsible for. -/
abbrev Keeper := Hands × Own

/-- What an operation on sessions does to the responsibilities of a call with these hands. -/
def Own.nextSession (o : Own) (h : Hands) : (e : SessionOp) → sessionSig.Ans e → Own
  | .newCalled, _ => { o with stage := .creating none, bad := o.bad || o.stage ≠ .outside }
  | .newReturned m, _ =>
    { o with
      stage := .outside
      made := m.toList ++ o.made
      bad := o.bad || o.stage ≠ .creating m || o.leases ≠ 0 || ¬ Resting h }
  | .make caller callee, id =>
    { o with
      leases := o.leases - {caller, callee}
      known := ⟨id, caller, callee⟩ :: o.known
      stage := o.stage.make ⟨id, caller, callee⟩
      bad := o.bad || o.stage ≠ .creating none || ¬ {caller, callee} ≤ o.leases }
  | .closeEnter m, true =>
    { o with
      leases := o.leases + {m.caller, m.callee}
      stage := .closing m
      bad := o.bad || o.stage ≠ .outside || m ∉ o.known }
  | .closeEnter m, false => { o with closed := m :: o.closed, bad := o.bad || m ∉ o.known }
  | .closeExit m, _ =>
    { o with
      stage := .outside
      closed := m :: o.closed
      bad := o.bad || o.stage ≠ .closing m || o.leases ≠ 0 || m ∉ o.known || m.caller ∉ o.gone ||
        m.callee ∉ o.gone || ¬ Resting h }
  | _, _ => o

/-- The hands at an operation on sessions: `New` begins with empty ones. -/
def handsAt (h : Hands) : SessionOp → Hands
  | .newCalled => { h with lease := none, entered := false }
  | _ => h

/-- Follows one call. -/
def keeper : Monitor (leaseSig E) Keeper where
  next
    | g, .inl e, r => ((handsBefore g.1 e).next e r, g.2.nextPool e r)
    | g, .inr (.inl e), r => (handsAt g.1 e, g.2.nextSession g.1 e r)
    | g, .inr (.inr _), _ => g
  good g := g.1.bad = false ∧ g.2.bad = false
  admits _ _ := True

/-! ## The functions of the pool -/

variable {o : Own}

theorem pooled_keeps {α : Type} {p : Prog poolSig α} {h : Hands} {Q : α → Hands → Prop}
    {R : α → Own → Prop} (hhands : Safe handsPool h p Q) (hown : Safe ownMonitor o p R) :
    Safe (keeper (E := E)) (h, o) (pooled p) fun a g => Q a g.1 ∧ R a g.2 := by
  have hboth : Safe (keeper (E := E)).left (id (h, o)) p fun a g =>
      ∃ g₀, g = id g₀ ∧ Q a g₀.1 ∧ R a g₀.2 := by
    refine Prog.Safe.map (M := handsPool.prod ownMonitor) ?_ ?_ ?_ (hhands.prod hown)
    · exact fun _ _ _ => rfl
    · exact fun _ h => h
    · exact fun _ _ _ => ⟨trivial, trivial⟩
  refine Prog.safe_inl (safe_mono hboth ?_)
  rintro a _ ⟨g, rfl, hg⟩
  exact hg

/-- An operation of the pool that does not concern leases. -/
def Plain : PoolOp → Prop
  | .allocate _ => False
  | .onceEnter _ => False
  | .onceExit _ => False
  | _ => True

theorem plain_own {α : Type} {p : Prog poolSig α} (hp : Only Plain p) (hbad : o.bad = false)
    (hstage : o.stage ≠ .outside) : Safe ownMonitor o p fun _ o' => o' = o := by
  refine hp.safe hbad fun e r he => ?_
  have hsame : { o with bad := o.bad || o.stage = .outside } = o := by
    obtain ⟨leases, gone, known, made, closed, stage, bad⟩ := o
    simp_all
  cases e with
  | allocate | onceEnter | onceExit => exact he.elim
  | _ => exact hsame

/-- The leases of a call after an `Acquire`. -/
def Own.add (o : Own) : Except AcquireError Lease → Own
  | .ok lease => { o with leases := lease ::ₘ o.leases }
  | .error _ => o

theorem bind_own (bindIP : Addr) (port : UInt16) (hbad : o.bad = false)
    (hstage : o.stage ≠ .outside) :
    Safe ownMonitor o (Portalloc.bind bindIP port) fun lease o' =>
      o' = (lease.elim o fun lease => o.add (.ok lease)) := by
  have hplain : ∀ {e : PoolOp}, Plain e → Safe ownMonitor o (Portalloc.op e) fun _ o' => o' = o :=
    fun he => plain_own (only_call.mpr he) hbad hstage
  unfold Portalloc.bind
  refine .bind (hplain trivial) ?_
  rintro rtpBound _ rfl
  split_ifs
  · exact safe_pure.mpr rfl
  refine .bind (hplain trivial) ?_
  rintro rtcpBound _ rfl
  split_ifs
  · refine .bind (hplain trivial) ?_
    rintro closed _ rfl
    exact safe_pure.mpr rfl
  rw [safe_bind, safe_call]
  refine fun id _ => ⟨?_, safe_pure.mpr ?_⟩
  · simp [ownMonitor, Own.nextPool, hbad, hstage]
  · simp [ownMonitor, Own.nextPool, Own.add, hbad, hstage]

theorem acquireLoop_own (bindIP : Addr) (hbad : o.bad = false) (hstage : o.stage ≠ .outside)
    (attempts : ℕ) (failed : List UInt16) :
    Safe ownMonitor o (acquireLoop bindIP attempts failed) fun res o' => o' = o.add res.1 := by
  induction attempts generalizing failed with
  | zero => exact safe_pure.mpr rfl
  | succ attempts ih =>
    unfold acquireLoop
    refine .bind (plain_own (only_call.mpr trivial) hbad hstage) ?_
    rintro selected _ rfl
    cases selected with
    | done => exact safe_pure.mpr rfl
    | empty => exact safe_pure.mpr rfl
    | received port =>
      refine .bind (bind_own bindIP port hbad hstage) ?_
      rintro (_ | lease) o' rfl
      · exact ih (failed ++ [port])
      · refine .bind (plain_own (only_call.mpr trivial) hbad hstage) ?_
        rintro _ _ rfl
        exact safe_pure.mpr rfl

theorem plain_giveBack (failed : List UInt16) : Only Plain (giveBack failed) := by
  induction failed with
  | nil => exact only_pure
  | cons port failed ih => exact only_bind (only_call.mpr trivial) fun _ => ih

theorem acquire_own (pool : Pool) (hbad : o.bad = false) (hstage : o.stage ≠ .outside) :
    Safe ownMonitor o (acquire pool) fun res o' => o' = o.add res := by
  unfold acquire
  refine .bind (acquireLoop_own pool.bindIP hbad hstage pool.capacity []) ?_
  rintro ⟨result, failed⟩ _ rfl
  have hadd : (o.add result).bad = false ∧ (o.add result).stage ≠ .outside := by
    cases result <;> exact ⟨hbad, hstage⟩
  refine .bind (plain_own (plain_giveBack failed) hadd.1 hadd.2) ?_
  rintro _ _ rfl
  exact safe_pure.mpr rfl

/-- The responsibilities of a call after a `Release`. -/
def Own.drop (o : Own) (lease : Lease) : Own :=
  { o with leases := o.leases.erase lease, gone := lease :: o.gone }

theorem release_own {lease : Lease} (bindIP : Addr) (hbad : o.bad = false)
    (hstage : o.stage ≠ .outside) (hmem : lease ∈ o.leases) :
    Safe ownMonitor o (release bindIP lease) fun _ o' => o' = o.drop lease := by
  unfold release
  rw [safe_bind, safe_call]
  intro entered _
  cases entered with
  | false =>
    have hnext : ownMonitor.next o (.onceEnter lease) false = o.drop lease := by
      simp [ownMonitor, Own.nextPool, Own.drop, hbad, hstage, hmem]
    rw [hnext]
    exact ⟨hbad, safe_pure.mpr rfl⟩
  | true =>
    have hnext : ownMonitor.next o (.onceEnter lease) true =
        { o with leases := o.leases.erase lease } := by
      simp [ownMonitor, Own.nextPool, hbad, hstage, hmem]
    rw [hnext]
    refine ⟨hbad, ?_⟩
    have hplain : ∀ {e : PoolOp}, Plain e → Safe ownMonitor { o with leases := o.leases.erase lease }
        (Portalloc.op e) fun _ o' => o' = { o with leases := o.leases.erase lease } :=
      fun he => plain_own (only_call.mpr he) hbad hstage
    rw [if_neg (by simp)]
    refine .bind (hplain trivial) ?_
    rintro _ _ rfl
    refine .bind (hplain trivial) ?_
    rintro rtpClosed _ rfl
    refine .bind (hplain trivial) ?_
    rintro rtcpClosed _ rfl
    refine .bind (hplain trivial) ?_
    rintro _ _ rfl
    refine .bind (hplain trivial) ?_
    rintro _ _ rfl
    rw [safe_bind, safe_call]
    refine fun _ _ => ⟨?_, safe_pure.mpr ?_⟩
    · simp [ownMonitor, Own.nextPool, hbad, hstage]
    · simp [ownMonitor, Own.nextPool, Own.drop, hbad, hstage]

/-! The hands of the same functions. -/

def Unprepared (e : PoolOp) : Prop := ∀ h, handsBefore h e = h

theorem unprepared_safe {α : Type} {p : Prog poolSig α} {h : Hands} {Q : α → Hands → Prop}
    (hsafe : Safe handsMonitor h p Q) (hp : Only Unprepared p) : Safe handsPool h p Q :=
  hsafe.congr hp (fun h e r he => congrArg (Hands.next · e r) (he h)) (fun _ h => h)
    fun _ _ _ => trivial

theorem unprepared_acquire (pool : Pool) : Only Unprepared (acquire pool) := by
  have hop : ∀ {e : PoolOp}, (∀ lease, e ≠ .onceEnter lease) → Only Unprepared (Portalloc.op e) := by
    intro e he
    refine only_call.mpr fun h => ?_
    cases e with
    | onceEnter lease => exact absurd rfl (he lease)
    | _ => rfl
  have hbind : ∀ port, Only Unprepared (Portalloc.bind pool.bindIP port) := by
    intro port
    unfold Portalloc.bind
    refine only_bind (hop (by simp)) fun rtpBound => ?_
    split_ifs
    · exact only_pure
    refine only_bind (hop (by simp)) fun rtcpBound => ?_
    split_ifs
    · exact only_bind (hop (by simp)) fun _ => only_pure
    · exact only_bind (hop (by simp)) fun _ => only_pure
  have hloop : ∀ attempts failed, Only Unprepared (acquireLoop pool.bindIP attempts failed) := by
    intro attempts
    induction attempts with
    | zero => exact fun _ => only_pure
    | succ attempts ih =>
      intro failed
      unfold acquireLoop
      refine only_bind (hop (by simp)) fun selected => ?_
      cases selected with
      | done => exact only_pure
      | empty => exact only_pure
      | received port =>
        refine only_bind (hbind port) fun lease => ?_
        cases lease with
        | none => exact ih _
        | some lease => exact only_bind (hop (by simp)) fun _ => only_pure
  have hgive : ∀ failed, Only Unprepared (giveBack failed) := by
    intro failed
    induction failed with
    | nil => exact only_pure
    | cons port failed ih => exact only_bind (hop (by simp)) fun _ => ih
  exact only_bind (hloop _ _) fun res => only_bind (hgive _) fun _ => only_pure

theorem release_hands {h : Hands} (bindIP : Addr) (lease : Lease) (hrest : Resting h)
    (hbad : h.bad = false) : Safe handsPool h (release bindIP lease) fun _ h' => Resting h' := by
  have hstart : handsBefore h (.onceEnter lease) = .start (.release lease) := by
    obtain ⟨ports, owes, lease', entered, bad⟩ := h
    obtain ⟨rfl, rfl⟩ : ports = 0 ∧ owes = 0 := hrest
    obtain rfl : bad = false := hbad
    rfl
  have hsafe := Portalloc.release_hands bindIP lease
  unfold release at hsafe ⊢
  rw [safe_bind, safe_call] at hsafe ⊢
  intro entered hadmits
  obtain ⟨hgood, hafter⟩ := hsafe entered hadmits
  have hnext : handsPool.next h (.onceEnter lease) entered =
      handsMonitor.next (.start (.release lease)) (.onceEnter lease) entered :=
    congrArg (Hands.next · (.onceEnter lease) entered) hstart
  rw [hnext]
  refine ⟨hgood, unprepared_safe hafter ?_⟩
  cases entered with
  | false => exact only_pure
  | true =>
    refine only_bind (only_call.mpr fun _ => rfl) fun _ => ?_
    refine only_bind (only_call.mpr fun _ => rfl) fun _ => ?_
    refine only_bind (only_call.mpr fun _ => rfl) fun _ => ?_
    refine only_bind (only_call.mpr fun _ => rfl) fun _ => ?_
    refine only_bind (only_call.mpr fun _ => rfl) fun _ => ?_
    exact only_bind (only_call.mpr fun _ => rfl) fun _ => only_pure

/-! ## `New`, `Close` and `Run` -/

def Clean (h : Hands) : Prop := Resting h ∧ h.bad = false

theorem acquire_keeps (pool : Pool) (hbad : o.bad = false) (hstage : o.stage ≠ .outside) :
    Safe (keeper (E := E)) (.start .acquire, o) (pooled (acquire pool)) fun res g =>
      g = (.start .acquire, o.add res) := by
  have hhands := unprepared_safe (Portalloc.acquire_hands pool) (unprepared_acquire pool)
  refine safe_mono (pooled_keeps hhands (acquire_own pool hbad hstage)) ?_
  rintro res ⟨h, o'⟩ ⟨rfl, rfl⟩
  rfl

/-- A call with nothing in its hands that is responsible for these leases. -/
structure Holds (stage : Stage) (leases : Multiset Lease) (known made closed : List MediaSession)
    (g : Keeper) : Prop where
  clean : Clean g.1
  stage : g.2.stage = stage
  leases : g.2.leases = leases
  known : g.2.known = known
  made : g.2.made = made
  closed : g.2.closed = closed
  good : g.2.bad = false

/-- A call outside of `New` and `Close`. -/
abbrev AtRest := Holds .outside 0

section Functions

variable {stage : Stage} {leases : Multiset Lease} {known made closed : List MediaSession} {g : Keeper}

theorem release_keeps {lease : Lease} (bindIP : Addr)
    (h : Holds stage (lease ::ₘ leases) known made closed g) (hstage : stage ≠ .outside) :
    Safe (keeper (E := E)) g (pooled (release bindIP lease)) fun _ g' =>
      Holds stage leases known made closed g' ∧ g'.2.gone = lease :: g.2.gone := by
  obtain ⟨hands, o⟩ := g
  have hown := release_own bindIP h.good (h.stage ▸ hstage)
    (h.leases ▸ Multiset.mem_cons_self lease leases)
  refine safe_mono (pooled_keeps
    ((release_hands bindIP lease h.clean.1 h.clean.2).and_good h.clean.2) hown) ?_
  rintro _ ⟨hands', o'⟩ ⟨hclean, rfl⟩
  refine ⟨⟨hclean, h.stage, ?_, h.known, h.made, h.closed, h.good⟩, rfl⟩
  have hleases : o.leases = lease ::ₘ leases := h.leases
  show o.leases.erase lease = leases
  rw [hleases, Multiset.erase_cons_head]

/-- Two leases are released one after the other. -/
theorem giveUp_keeps {caller callee : Lease} (bindIP : Addr)
    (h : Holds stage {caller, callee} known made closed g) (hstage : stage ≠ .outside) :
    Safe (keeper (E := E)) g (giveUp bindIP caller callee) fun _ g' =>
      Holds stage 0 known made closed g' := by
  unfold giveUp
  refine .bind (release_keeps bindIP h hstage) ?_
  rintro _ g₁ ⟨h₁, -⟩
  refine .bind (release_keeps bindIP h₁ hstage) ?_
  rintro _ g₂ ⟨h₂, -⟩
  exact safe_pure.mpr h₂

theorem skip_keeps {e : SessionOp} (h : Holds stage leases known made closed g)
    (hown : ∀ o hands r, Own.nextSession o hands e r = o) (hhands : ∀ hands, handsAt hands e = hands) :
    Safe (keeper (E := E)) g (op e) fun _ g' => g' = g := by
  refine safe_call.mpr fun r _ => ?_
  have hnext : (keeper (E := E)).next g (.inr (.inl e)) r = g := Prod.ext (hhands _) (hown _ _ r)
  rw [hnext]
  exact ⟨⟨h.clean.2, h.good⟩, rfl⟩

theorem new_keeps (pool : Pool)
    (h : Holds (.creating none) 0 known made closed (.start .acquire, o)) :
    Safe (keeper (E := E)) (.start .acquire, o) (new pool) fun res g' =>
      match res with
      | .ok m => Holds (.creating (some m)) 0 (m :: known) made closed g'
      | .error _ => Holds (.creating none) 0 known made closed g' := by
  have hstage : o.stage ≠ .outside := by
    rw [show o.stage = _ from h.stage]
    nofun
  have hleases : o.leases = 0 := h.leases
  unfold new
  refine .bind (acquire_keeps pool h.good hstage) ?_
  rintro (err | caller) _ rfl
  · exact safe_pure.mpr h
  refine .bind (acquire_keeps pool h.good hstage) ?_
  rintro (err | callee) _ rfl
  · have hone : Holds (.creating none) (caller ::ₘ 0) known made closed
        (.start .acquire, o.add (.ok caller)) :=
      ⟨h.clean, h.stage, congrArg (caller ::ₘ ·) hleases, h.known, h.made, h.closed, h.good⟩
    refine .bind (release_keeps pool.bindIP hone nofun) ?_
    rintro _ g' ⟨hg', -⟩
    exact safe_pure.mpr hg'
  have htwo : Holds (.creating none) {caller, callee} known made closed
      (.start .acquire, (o.add (.ok caller)).add (.ok callee)) := by
    refine ⟨h.clean, h.stage, ?_, h.known, h.made, h.closed, h.good⟩
    show callee ::ₘ caller ::ₘ o.leases = _
    rw [hleases, Multiset.cons_swap]
    rfl
  have hgiveUp : ∀ err : NewError, Safe (keeper (E := E))
      (.start .acquire, (o.add (.ok caller)).add (.ok callee))
      (do giveUp pool.bindIP caller callee; return (.error err : Except NewError MediaSession))
      fun res g' =>
        match res with
        | .ok m => Holds (.creating (some m)) 0 (m :: known) made closed g'
        | .error _ => Holds (.creating none) 0 known made closed g' := fun err =>
    .bind (giveUp_keeps pool.bindIP htwo nofun) fun _ _ hg => safe_pure.mpr hg
  have hskip : ∀ {e : SessionOp}, (∀ o hands r, Own.nextSession o hands e r = o) →
      (∀ hands, handsAt hands e = hands) → Safe (keeper (E := E))
        (.start .acquire, (o.add (.ok caller)).add (.ok callee)) (op e) fun _ g' => g' = _ :=
    fun hown hhands => skip_keeps htwo hown hhands
  refine .bind (hskip (fun _ _ _ => rfl) fun _ => rfl) ?_
  rintro first _ rfl
  split_ifs
  · exact hgiveUp .rewriter
  refine .bind (hskip (fun _ _ _ => rfl) fun _ => rfl) ?_
  rintro second _ rfl
  split_ifs
  · exact hgiveUp .rewriter
  refine .bind (hskip (fun _ _ _ => rfl) fun _ => rfl) ?_
  rintro named _ rfl
  split_ifs
  · exact hgiveUp .mediaID
  rw [safe_bind, safe_call]
  intro id _
  have hpair : ((o.add (.ok caller)).add (.ok callee)).leases = {caller, callee} := htwo.leases
  have hbad : ((o.add (.ok caller)).add (.ok callee)).bad = false := htwo.good
  have hcreating : ((o.add (.ok caller)).add (.ok callee)).stage = .creating none := htwo.stage
  have hgood : (Own.nextSession ((o.add (.ok caller)).add (.ok callee)) (.start .acquire)
      (.make caller callee) id).bad = false := by
    simp [Own.nextSession, hpair, hbad, hcreating]
  refine ⟨⟨rfl, hgood⟩, safe_pure.mpr ⟨h.clean, ?_, ?_, ?_, h.made, h.closed, hgood⟩⟩
  · exact congrArg (Stage.make _) hcreating
  · show ((o.add (.ok caller)).add (.ok callee)).leases - {caller, callee} = 0
    rw [hpair]
    simp
  · exact congrArg (_ :: ·) h.known

theorem callNew_keeps (pool : Pool) (h : AtRest known made closed g) :
    Safe (keeper (E := E)) g (callNew pool) fun res g' =>
      match res with
      | .ok m => AtRest (m :: known) (m :: made) closed g'
      | .error _ => AtRest known made closed g' := by
  obtain ⟨⟨ports, owes, lease, entered, bad⟩, o⟩ := g
  obtain ⟨⟨rfl, rfl⟩, rfl⟩ : (ports = 0 ∧ owes = 0) ∧ bad = false := h.clean
  have hstage : o.stage = .outside := h.stage
  have hbad : o.bad = false := h.good
  unfold callNew
  rw [safe_bind, safe_call]
  intro _ _
  have hgood : (o.nextSession (⟨0, 0, lease, entered, false⟩ : Hands) .newCalled ()).bad = false := by
    simp [Own.nextSession, hstage, hbad]
  refine ⟨⟨rfl, hgood⟩, ?_⟩
  have hcreating : Holds (.creating none) 0 known made closed
      (Hands.start .acquire, o.nextSession (⟨0, 0, lease, entered, false⟩ : Hands) .newCalled ()) :=
    ⟨⟨⟨rfl, rfl⟩, rfl⟩, rfl, h.leases, h.known, h.made, h.closed, hgood⟩
  refine .bind (new_keeps pool hcreating) ?_
  intro res g' hg'
  -- the return of `New` finds nothing left
  have hreturn : ∀ m : Option MediaSession, Holds (.creating m) 0 (m.toList ++ known) made closed g' →
      Safe (keeper (E := E)) g' (op (.newReturned m)) fun _ g'' =>
        AtRest (m.toList ++ known) (m.toList ++ made) closed g'' := by
    intro m hm
    refine safe_call.mpr fun _ _ => ?_
    have hgood' : (g'.2.nextSession g'.1 (.newReturned m) ()).bad = false := by
      simp [Own.nextSession, hm.good, hm.stage, hm.leases, hm.clean.1]
    exact ⟨⟨hm.clean.2, hgood'⟩, hm.clean, rfl, hm.leases, hm.known,
      congrArg (m.toList ++ ·) hm.made, hm.closed, hgood'⟩
  cases res with
  | error err => exact .bind (hreturn none hg') fun _ _ hg => safe_pure.mpr hg
  | ok m => exact .bind (hreturn (some m) hg') fun _ _ hg => safe_pure.mpr hg

theorem close_keeps {m : MediaSession} (bindIP : Addr) (h : AtRest known made closed g) (hm : m ∈ known) :
    Safe (keeper (E := E)) g (close bindIP m) fun _ g' => AtRest known made (m :: closed) g' := by
  unfold close
  rw [safe_bind, safe_call]
  intro entered _
  have hm' : m ∈ g.2.known := h.known ▸ hm
  cases entered with
  | false =>
    have hgood : (g.2.nextSession g.1 (.closeEnter m) false).bad = false := by
      simp [Own.nextSession, h.good, hm']
    exact ⟨⟨h.clean.2, hgood⟩, safe_pure.mpr
      ⟨h.clean, h.stage, h.leases, h.known, h.made, congrArg (m :: ·) h.closed, hgood⟩⟩
  | true =>
    have hgood : (g.2.nextSession g.1 (.closeEnter m) true).bad = false := by
      simp [Own.nextSession, h.good, h.stage, hm']
    refine ⟨⟨h.clean.2, hgood⟩, ?_⟩
    have hentered : Holds (.closing m) {m.caller, m.callee} known made closed
        ((keeper (E := E)).next g (.inr (.inl (.closeEnter m))) true) := by
      refine ⟨h.clean, rfl, ?_, h.known, h.made, h.closed, hgood⟩
      show g.2.leases + {m.caller, m.callee} = _
      rw [h.leases, zero_add]
    rw [if_neg (by simp)]
    refine .bind (release_keeps bindIP hentered nofun) ?_
    rintro callerClosed g₁ ⟨h₁, hgone₁⟩
    refine .bind (release_keeps bindIP h₁ nofun) ?_
    rintro calleeClosed g₂ ⟨h₂, hgone₂⟩
    refine .bind (skip_keeps h₂ (fun _ _ _ => rfl) fun _ => rfl) ?_
    rintro _ g₂ rfl
    rw [safe_bind, safe_call]
    intro _ _
    have hexit : (g₂.2.nextSession g₂.1 (.closeExit m) ()).bad = false := by
      simp [Own.nextSession, h₂.good, h₂.stage, h₂.leases, h₂.known, hm, h₂.clean.1, hgone₂,
        hgone₁]
    exact ⟨⟨h₂.clean.2, hexit⟩, safe_pure.mpr
      ⟨h₂.clean, rfl, h₂.leases, h₂.known, h₂.made, congrArg (m :: ·) h₂.closed, hexit⟩⟩

theorem run_keeps {m : MediaSession} (bindIP : Addr) (h : AtRest known made closed g) (hm : m ∈ known) :
    Safe (keeper (E := E)) g (run bindIP m) fun _ g' => ∃ closed', AtRest known made closed' g' := by
  have hload : ∀ {g' : Keeper} {closed' : List MediaSession}, AtRest known made closed' g' →
      Safe (keeper (E := E)) g' (op (.loadRunErr m)) fun _ g'' => ∃ closed',
        AtRest known made closed' g'' := by
    intro g' closed' hg'
    refine safe_mono (skip_keeps hg' (fun _ _ _ => rfl) fun _ => rfl) ?_
    rintro _ _ rfl
    exact ⟨closed', hg'⟩
  unfold run
  refine .bind (skip_keeps h (fun _ _ _ => rfl) fun _ => rfl) ?_
  rintro entered g rfl
  split_ifs
  · have hbody : Safe (keeper (E := E)) g (runBody bindIP m) fun _ g' =>
        ∃ closed', AtRest known made closed' g' := by
      unfold runBody
      refine .bind (skip_keeps h (fun _ _ _ => rfl) fun _ => rfl) ?_
      rintro configured _ rfl
      split_ifs
      · exact safe_pure.mpr ⟨closed, h⟩
      refine .bind (skip_keeps h (fun _ _ _ => rfl) fun _ => rfl) ?_
      rintro group _ rfl
      refine .bind (close_keeps bindIP h hm) ?_
      exact fun _ _ hg => safe_pure.mpr ⟨m :: closed, hg⟩
    refine .bind hbody ?_
    rintro err g' ⟨closed', hg'⟩
    refine .bind (skip_keeps hg' (fun _ _ _ => rfl) fun _ => rfl) ?_
    rintro _ _ rfl
    refine .bind (skip_keeps hg' (fun _ _ _ => rfl) fun _ => rfl) ?_
    rintro _ _ rfl
    exact hload hg'
  · exact hload h

end Functions

end AixvolinkPbx.Factory

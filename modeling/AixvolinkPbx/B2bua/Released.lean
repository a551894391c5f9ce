import AixvolinkPbx.B2bua.Answering
import AixvolinkPbx.Media.OpenSessions

/-!
# Calls give their media ports back

`handleInvite` takes a media session from the factory and closes it before it returns. `mediaMonitor`
follows that (`handleInvite_media`). In `callProgram` its two operations on the factory are `New` and
`Close` themselves: handlers of INVITEs run in one system with all other users of the factory, so that
the ledger of the leases holds with them (`closes_callProgram`).
-/

namespace AixvolinkPbx.B2bua

open Calls (Actor)
open Factory (AtRest FactoryLabel FactoryState Gone Keeper MediaSession Open SessionOp callNew counted
  factorySystem idleLeases keeper leaseSig leasedBy newCall newReturn openSessions otherEvents releasedBy
  returnedBy)
open Portalloc (Lease Pool PoolOp poolSig stepOnce stepOnce_cases stepPool stepPool_perform)
open Registration (Binding)
open Sdp (Body Codecs)
open Prog (Only Safe only_bind only_pure only_when safe_bind safe_call safe_mono safe_pure)

/-! ## A handler closes the media session it takes -/

/-- What a handler has done with the factory. -/
inductive MediaUse
  | unused
  | opened
  | closed
  | bad
  deriving DecidableEq

def MediaUse.next : MediaUse → (e : EngineOp) → engineSig.Ans e → MediaUse
  | .unused, .newMedia, media => if media.isSome then .opened else .unused
  | _, .newMedia, _ => .bad
  | .opened, .closeMedia, _ => .closed
  | _, .closeMedia, _ => .bad
  | use, _, _ => use

def mediaMonitor : Monitor engineSig MediaUse where
  next := MediaUse.next
  good use := use ≠ .bad
  admits _ _ := True

/-- The session has the media session that is open. -/
def Uses (s : Session) (use : MediaUse) : Prop := use = if s.media.isSome then .opened else .unused

variable {use : MediaUse} {s : Session}

theorem Uses.ne_bad (h : Uses s use) : use ≠ .bad := by
  unfold Uses at h
  split_ifs at h <;> simp [h]

theorem Uses.same {s' : Session} (h : Uses s use) (hmedia : s'.media = s.media) :
    Uses s' use := by rwa [Uses, hmedia]

def Apart (e : EngineOp) : Prop := e ≠ .newMedia ∧ e ≠ .closeMedia

variable {e : EngineOp}

theorem next_of_apart (h : Apart e) (use : MediaUse) (r : engineSig.Ans e) :
    use.next e r = use := by
  cases e with
  | newMedia => exact absurd rfl h.1
  | closeMedia => exact absurd rfl h.2
  | _ => cases use <;> rfl

theorem apart_safe {α : Type} {p : Prog engineSig α} (hp : Only Apart p) (huse : use ≠ .bad) :
    Safe mediaMonitor use p fun _ use' => use' = use :=
  hp.safe huse fun _ r he => next_of_apart he use r

theorem apart_of_among {α : Type} {p : Prog engineSig α} {kinds : List Kind} (hp : Only (Among kinds) p)
    (hkinds : ∀ k ∈ [Kind.lease, .cleanup], k ∉ kinds) : Only Apart p := by
  refine hp.mono fun e he => ⟨?_, ?_⟩
  · rintro rfl
    exact hkinds .lease (by simp) he
  · rintro rfl
    exact hkinds .cleanup (by simp) he

variable (cfg : Config) (C : Codecs)

theorem prepare_media (hs : s.media = none) (invite : Invite) :
    Safe mediaMonitor .unused (prepare cfg C s invite) fun res use => Uses res.1 use := by
  have huses : ∀ {s' : Session}, s'.media = none → Uses s' .unused := by
    intro s' hs'
    rw [Uses, hs']
    rfl
  have refused : ∀ {status : ℕ} {reason text protocolEvent : String} {s' : Session} {use : MediaUse},
      Uses s' use → Safe mediaMonitor use (do
        let _ ← respond status reason [] []
        fail s' text protocolEvent
        return (s', (none : Option (Binding × Body)))) fun res use' => Uses res.1 use' := by
    intro status reason text protocolEvent s' use h
    have hpair : Prog.Ensures (fun res : Session × Option (Binding × Body) => res.1 = s') (do
        let _ ← respond status reason [] []
        fail s' text protocolEvent
        return (s', (none : Option (Binding × Body)))) :=
      Prog.ensures_after fun _ => Prog.ensures_after fun _ => Prog.ensures_pure.mpr rfl
    refine safe_mono ((apart_safe (apart_of_among (only_refuse s') (by simp [setupKinds]))
      h.ne_bad).and_ensures hpair) ?_
    rintro res _ ⟨rfl, hres⟩
    rwa [hres]
  have hop : ∀ {e : EngineOp} {use : MediaUse}, Apart e → use ≠ .bad →
      Safe mediaMonitor use (op e) fun _ use' => use' = use :=
    fun he huse => apart_safe (Prog.only_call.mpr he) huse
  unfold prepare
  refine .bind (hop (by simp [Apart]) (by simp)) ?_
  rintro err _ rfl
  split
  · exact safe_pure.mpr (huses hs)
  refine .bind (hop (by simp [Apart]) (by simp)) ?_
  rintro sent _ rfl
  split
  · refine .bind (apart_safe (apart_of_among (only_fail ..) (by simp)) (by simp)) ?_
    rintro _ _ rfl
    exact safe_pure.mpr (huses hs)
  refine .bind (hop (by simp [Apart]) (by simp)) ?_
  rintro binding _ rfl
  split
  swap
  · exact refused (huses hs)
  split
  · exact refused (huses hs)
  rw [safe_bind, safe_call]
  intro media _
  cases media with
  | none => exact ⟨by rintro ⟨⟩, refused (huses hs)⟩
  | some media =>
    refine ⟨by rintro ⟨⟩, ?_⟩
    show Safe mediaMonitor .opened _ _
    dsimp only
    split
    · exact refused rfl
    refine .bind (hop (by simp [Apart]) (by simp)) ?_
    rintro sessionID _ rfl
    split
    · exact refused rfl
    · exact safe_pure.mpr rfl

theorem setup_media (hs : s.media = none) (n : ℕ) (actor : Actor) (invite : Invite) :
    Safe mediaMonitor .unused (setup cfg C n s actor invite) fun res use => Uses res.1 use := by
  unfold setup
  refine .bind (apart_safe (Prog.only_call.mpr (by simp [Apart])) (by simp)) ?_
  rintro _ _ rfl
  refine .bind (prepare_media cfg C hs invite) ?_
  rintro ⟨s₁, _ | ⟨binding, offer⟩⟩ use h
  · exact safe_pure.mpr h
  have hdial : Only Apart (dial C n s₁ binding offer) :=
    apart_of_among (only_dial C s₁ n binding offer) (by simp [setupKinds])
  refine .bind
    ((apart_safe hdial h.ne_bad).and_ensures (ensures_dial C n binding offer)) ?_
  rintro ⟨s₂, _ | response⟩ _ ⟨rfl, ⟨-, hmedia⟩, -⟩
  · exact safe_pure.mpr (h.same hmedia)
  have hanswer : Only Apart (answer C s₂ response) :=
    apart_of_among (only_answer C s₂ response) (by simp [setupKinds])
  refine safe_mono ((apart_safe hanswer h.ne_bad).and_ensures (ensures_answer C response)) ?_
  rintro res _ ⟨rfl, hsame⟩
  exact h.same (hsame.media.trans hmedia)

theorem finish_media (h : Uses s use) :
    Safe mediaMonitor use (finish s) fun _ use' => use' ≠ .opened := by
  have hop : ∀ {e : EngineOp}, Apart e → Only Apart (op e) := fun he => Prog.only_call.mpr he
  have hstop : Safe mediaMonitor use (stopMedia s) fun _ use' => use' ≠ .opened ∧ use' ≠ .bad := by
    unfold stopMedia
    split_ifs with hnone
    · have hunused : use = .unused := by
        rw [h, if_neg (by simpa using hnone)]
      rw [hunused]
      exact safe_pure.mpr ⟨by simp, by simp⟩
    · have hopened : use = .opened := by
        rw [h, if_pos (by simpa [Option.isSome_iff_ne_none] using hnone)]
      rw [hopened]
      refine .bind (apart_safe (only_when (hop (by simp [Apart]))) (by simp)) ?_
      rintro _ _ rfl
      rw [safe_bind, safe_call]
      refine fun _ _ => ⟨by rintro ⟨⟩, ?_⟩
      show Safe mediaMonitor .closed _ _
      refine .bind (apart_safe (only_when (only_bind (hop (by simp [Apart]))
        fun _ => only_pure)) (by simp)) ?_
      rintro _ _ rfl
      refine safe_mono (apart_safe (hop (by simp [Apart])) (by simp)) ?_
      rintro _ _ rfl
      exact ⟨by simp, by simp⟩
  have hrest : Only Apart (do
      op .closeInbound
      remove s
      op .closeDone
      op .wgDone) := by
    unfold remove
    refine only_bind (hop (by simp [Apart])) fun _ => ?_
    refine only_bind (only_bind (hop (by simp [Apart])) fun _ => ?_) fun _ => ?_
    · exact only_when (hop (by simp [Apart]))
    exact only_bind (hop (by simp [Apart])) fun _ => hop (by simp [Apart])
  unfold finish
  refine .bind (apart_safe (hop (by simp [Apart])) h.ne_bad) ?_
  rintro _ _ rfl
  refine .bind (apart_safe (apart_of_among only_completePendingReInvite (by simp))
    h.ne_bad) ?_
  rintro _ _ rfl
  refine .bind hstop ?_
  rintro _ use' ⟨hopened, hbad⟩
  refine safe_mono (apart_safe hrest hbad) ?_
  rintro _ _ rfl
  exact hopened

/-- When a handler returns, it has closed the media session it took. -/
theorem handleInvite_media (n : ℕ) (invite : Invite) :
    Safe mediaMonitor .unused (handleInvite cfg C n invite) fun _ use => use ≠ .opened := by
  have hadmission : Only Apart (admission cfg invite) :=
    apart_of_among (only_admission cfg invite) (by simp [admissionKinds])
  have hunused : MediaUse.unused ≠ .bad := by simp
  unfold handleInvite answerInvite
  refine safe_bind.mpr (.bind ((apart_safe hadmission hunused).and_ensures
    (ensures_admission_fresh cfg invite)) ?_)
  rintro (_ | ⟨s, actor⟩) _ ⟨rfl, hfresh⟩
  · exact safe_pure.mpr (safe_pure.mpr (by simp))
  refine .bind (setup_media cfg C hfresh.2 n actor invite) ?_
  rintro ⟨s, _ | _⟩ use h
  · exact safe_pure.mpr (finish_media h)
  · have hloop : Only Apart (commandLoop C n s) :=
      apart_of_among (only_commandLoop C s n) (by simp [commandKinds, requestKinds])
    refine safe_pure.mpr (.bind ((apart_safe hloop h.ne_bad).and_ensures
      (ensures_commandLoop C n)) ?_)
    rintro s' _ ⟨rfl, hsame⟩
    exact finish_media (h.same hsame.media)

/-! ## Handlers on a factory -/

/-- The operations of the engine, with those on the factory performed; the state is the media session
that was taken. -/
def mediaHandler (pool : Pool) (advertisedIP : Addr) (taken : Option MediaSession) :
    (e : EngineOp) → Prog (leaseSig engineSig) (engineSig.Ans e × Option MediaSession)
  | .newMedia => do
    match ← callNew pool with
    | .ok m => return (some ⟨advertisedIP, m.caller.rtpPort, m.callee.rtpPort⟩, some m)
    | .error _ => return (none, taken)
  | .closeMedia => do
    match taken with
    | some m =>
      let _ ← Factory.close pool.bindIP m
      return ((), taken)
    | none => return ((), none)
  | e => do
    let r ← Prog.call (S := leaseSig engineSig) (.inr (.inr e))
    return (r, taken)

def callProgram (pool : Pool) (advertisedIP : Addr) (call : ℕ × Invite) :
    Prog (leaseSig engineSig) Unit := do
  let _ ← Prog.interpWith (mediaHandler pool advertisedIP) none (handleInvite cfg C call.1 call.2)

/-- The use of the factory, the media session taken, and what the handler is responsible for. -/
def Responsible : MediaUse → Option MediaSession → Keeper → Prop
  | .unused, none, g => AtRest [] [] [] g
  | .opened, some m, g => AtRest [m] [m] [] g
  | .closed, some m, g => AtRest [m] [m] [m] g
  | _, _, _ => False

theorem Responsible.good {taken : Option MediaSession} {g : Keeper} (h : Responsible use taken g) :
    (keeper (E := engineSig)).good g := by
  cases use with
  | bad => exact h.elim
  | unused =>
    cases taken with
    | none => exact ⟨h.clean.2, Factory.Holds.good h⟩
    | some m => exact h.elim
  | opened | closed =>
    cases taken with
    | none => exact h.elim
    | some m => exact ⟨h.clean.2, Factory.Holds.good h⟩

theorem mediaHandler_other (pool : Pool) (advertisedIP : Addr) (taken : Option MediaSession)
    (he : Apart e) : mediaHandler pool advertisedIP taken e = (do
      let r ← Prog.call (S := leaseSig engineSig) (.inr (.inr e))
      return (r, taken)) := by
  cases e with
  | newMedia => exact absurd rfl he.1
  | closeMedia => exact absurd rfl he.2
  | _ => rfl

theorem mediaHandler_keeps (pool : Pool) (advertisedIP : Addr) {taken : Option MediaSession}
    {g : Keeper} (h : Responsible use taken g)
    (hgood : ∀ r, mediaMonitor.good (mediaMonitor.next use e r)) :
    Safe (keeper (E := engineSig)) g (mediaHandler pool advertisedIP taken e) fun r g' =>
      Responsible (mediaMonitor.next use e r.1) r.2 g' := by
  by_cases hnew : e = .newMedia
  · subst e
    have hunused : use = .unused := by
      have := hgood none
      cases use with
      | unused => rfl
      | _ => exact absurd rfl this
    subst use
    cases taken with
    | some m => exact h.elim
    | none =>
      refine .bind (Factory.callNew_keeps pool h) ?_
      rintro (err | m) g' hg'
      · exact safe_pure.mpr hg'
      · exact safe_pure.mpr hg'
  by_cases hclose : e = .closeMedia
  · subst e
    have hopened : use = .opened := by
      have := hgood ()
      cases use with
      | opened => rfl
      | _ => exact absurd rfl this
    subst use
    cases taken with
    | none => exact h.elim
    | some m =>
      refine .bind (Factory.close_keeps pool.bindIP h List.mem_cons_self) ?_
      exact fun _ g' hg' => safe_pure.mpr hg'
  · rw [mediaHandler_other pool advertisedIP taken ⟨hnew, hclose⟩, safe_bind, safe_call]
    refine fun r _ => ⟨h.good, safe_pure.mpr ?_⟩
    have hnext : mediaMonitor.next use e r = use := next_of_apart ⟨hnew, hclose⟩ use r
    show Responsible (mediaMonitor.next use e r) taken g
    rwa [hnext]

theorem closes_callProgram (pool : Pool) (advertisedIP : Addr) :
    Factory.Closes (callProgram cfg C pool advertisedIP) := by
  intro call
  have hstart : Responsible .unused none (Keeper.start (.client call : Factory.Call (ℕ × Invite))) :=
    Factory.atRest_start (.client call : Factory.Call (ℕ × Invite))
  unfold callProgram
  refine .bind (Prog.safe_interpWith (fun use taken g e h hgood => ?_)
    (handleInvite_media cfg C call.1 call.2) hstart) ?_
  · refine safe_mono (mediaHandler_keeps pool advertisedIP h fun r => hgood r trivial) ?_
    exact fun r g' hg' => ⟨trivial, hg'⟩
  · rintro ⟨_, taken⟩ g ⟨use, huse, h⟩
    refine safe_pure.mpr fun m hm => ?_
    cases use with
    | bad => exact h.elim
    | opened => exact absurd rfl huse
    | unused =>
      cases taken with
      | some m => exact h.elim
      | none =>
        rw [Factory.Holds.made h] at hm
        cases hm
    | closed =>
      cases taken with
      | none => exact h.elim
      | some m' =>
        rw [Factory.Holds.made h] at hm
        rwa [Factory.Holds.closed h]

/-! ## Leases follow sessions -/

/-- Handlers of INVITEs and any other calls of `New`, `Run` and `Close` on one factory. (a) Outside of the
steps of `New` and `Close`, `InUse` is twice the number of sessions returned by `New` and not closed.
(b) A `New` that fails changes neither `InUse` nor the leased ports: what changes meanwhile is what the
other calls do. (c) The local ports of two open sessions are disjoint. (d) A handler that has returned has
released both leases of the media session it took. -/
theorem leases_follow_sessions {range : Portalloc.Config} {pool : Pool}
    (hpool : Portalloc.new range = .ok pool) (advertisedIP : Addr)
    {st : FactoryState engineSig (ℕ × Invite)} {ls : List (FactoryLabel engineSig (ℕ × Invite))}
    (h : (factorySystem pool (callProgram cfg C pool advertisedIP)).Reaches (Factory.initial pool) ls st) :
    (Factory.Quiet st → st.shared.pool.inUse = 2 * openSessions st) ∧
    (∀ i mid st', Steps (factorySystem pool (callProgram cfg C pool advertisedIP)).Step st
        (.act i newCall :: mid ++ [.act i (newReturn none)]) st' →
      (∀ m, System.Label.act i (newReturn m) ∉ mid) →
        (st'.shared.pool.inUse = st.shared.pool.inUse + ((otherEvents i mid).map counted).sum ∧
          st'.shared.pool.held + ((otherEvents i mid).map releasedBy).sum.map Lease.rtpPort =
            st.shared.pool.held + ((otherEvents i mid).map leasedBy).sum.map Lease.rtpPort) ∧
        ((∀ l ∈ mid, ∃ ev, l = .act i ev) → st'.shared.pool.inUse = st.shared.pool.inUse ∧
          st'.shared.pool.held = st.shared.pool.held)) ∧
    (∀ m m', Open st.shared m → Open st.shared m' → m.id ≠ m'.id →
      (m.localPorts advertisedIP).Disjoint (m'.localPorts advertisedIP)) ∧
    (∀ th ∈ st.threads, th.rest = pure .finished → ∀ m ∈ th.past.filterMap returnedBy,
      Gone st.shared.pool m.caller ∧ Gone st.shared.pool m.callee) := by
  have hcloses := closes_callProgram cfg C pool advertisedIP
  obtain ⟨ht, hledger⟩ := Factory.ledger_of_reaches hcloses h
  refine ⟨Factory.inUse_of_quiet hledger, fun i mid st' hsteps hreturn => ?_, ?_, ?_⟩
  · obtain ⟨hinUse, hleases⟩ := Factory.failed_new hcloses h hsteps hreturn
    have hports := congrArg (Multiset.map Lease.rtpPort) hleases
    rw [Multiset.map_add, Multiset.map_add, Factory.map_idleLeases, Factory.map_idleLeases] at hports
    refine ⟨⟨hinUse, hports⟩, fun hown => ?_⟩
    rw [Factory.otherEvents_own hown] at hinUse hports
    exact ⟨hinUse.trans (add_zero _), by simpa using hports⟩
  · exact fun m m' hm hm' hne => Factory.disjoint_of_open hpool hledger hm hm' hne advertisedIP
  · exact fun th hth hreturned m hm => (Factory.released_of_returned ht hledger hth hreturned hm).2

/-! ### A call that nobody answers -/

/-- An operation of a handler with this answer, if it may have it; the packet loops do not run. -/
def stepLease (capacity : ℕ) (sh : Factory.Shared) :
    (e : (leaseSig engineSig).Op) → (leaseSig engineSig).Ans e → Option Factory.Shared
  | .inl e, r => (stepPool capacity sh.pool e r).map fun pool => { sh with pool := pool }
  | .inr (.inl (.make caller callee)), id =>
    if id = sh.sessions.length then
      some { sh with sessions := sh.sessions ++ [⟨caller, callee, .idle, none, .idle, false⟩] }
    else none
  | .inr (.inl (.closeEnter m)), r =>
    stepOnce ((sh.sessions[m.id]?).map Factory.SessionState.closeOnce) r
      (sh.setSession m fun s => { s with closeOnce := .running }) sh
  | .inr (.inl (.closeDone m)), _ => some (sh.setSession m fun s => { s with done := true })
  | .inr (.inl (.closeExit m)), _ => some (sh.setSession m fun s => { s with closeOnce := .done })
  | .inr (.inl .newCalled), _ => some sh
  | .inr (.inl (.newReturned _)), _ => some sh
  | .inr (.inl .newRewriter), _ => some sh
  | .inr (.inl .newV7), _ => some sh
  | .inr (.inl _), _ => none
  | .inr (.inr _), _ => some sh

theorem stepLease_perform {capacity : ℕ} {sh sh' : Factory.Shared} {e : (leaseSig engineSig).Op}
    {r : (leaseSig engineSig).Ans e} (h : stepLease capacity sh e r = some sh') :
    Factory.perform capacity sh e r sh' := by
  rcases e with e | e | e
  · obtain ⟨pool, hpool, rfl⟩ := Option.map_eq_some_iff.mp h
    exact ⟨stepPool_perform hpool, rfl⟩
  · cases e with
    | make caller callee =>
      rw [stepLease] at h
      split_ifs at h with hid
      cases h
      exact ⟨hid, rfl⟩
    | closeEnter m =>
      show Factory.enters _ _ _ _ _ _
      rcases stepOnce_cases h with ⟨honce, hr, hsh⟩ | ⟨honce, hr, hsh⟩
      · rw [Factory.enters, honce]
        exact ⟨hr, hsh⟩
      · rw [Factory.enters, honce]
        exact ⟨hr, hsh⟩
    | closeDone | closeExit | newCalled | newReturned | newRewriter | newV7 =>
      cases h
      rfl
    | _ => cases h
  · cases h
    rfl

/-- Everything succeeds, but nobody answers the call; `k` chooses the port and the number of what is made. -/
def unanswered (k : ℕ) : (e : (leaseSig engineSig).Op) → (leaseSig engineSig).Ans e
  | .inl .select => .received (UInt16.ofNat (20000 + 2 * k))
  | .inl (.listen _ _) => true
  | .inl (.close _) => true
  | .inl (.allocate _) => k
  | .inl (.onceEnter _) => true
  | .inl (.send _) => ()
  | .inl (.addInUse _) => ()
  | .inl (.storeReleased _) => ()
  | .inl (.onceExit _) => ()
  | .inr (.inl .newRewriter) => true
  | .inr (.inl .newV7) => true
  | .inr (.inl (.make _ _)) => k
  | .inr (.inl (.runEnter _)) => true
  | .inr (.inl (.isConfigured _)) => true
  | .inr (.inl (.groupWait _)) => .closed
  | .inr (.inl (.loadRunErr _)) => none
  | .inr (.inl (.closeEnter _)) => true
  | .inr (.inl .newCalled) => ()
  | .inr (.inl (.newReturned _)) => ()
  | .inr (.inl (.storeRunErr _ _)) => ()
  | .inr (.inl (.runExit _)) => ()
  | .inr (.inl (.closeDone _)) => ()
  | .inr (.inl (.closeExit _)) => ()
  | .inr (.inr e) => succeeding (fun _ => .failed .timeout) (fun _ => .parentDone) 0 e

def fourPairs : Portalloc.Config := ⟨.v4 0x0A000009, 20000, 20007⟩
def fourPool : Pool := ⟨.v4 0x0A000009, 4, [20000, 20002, 20004, 20006]⟩

/-- Alice's call comes to its end; then another call of `New` makes a session. -/
def unansweredCall :
    List (FactoryState engineSig (ℕ × Invite) × FactoryLabel engineSig (ℕ × Invite)) ×
    FactoryState engineSig (ℕ × Invite) :=
  (factorySystem fourPool (callProgram smallConfig phoneCodecs fourPool fourPool.bindIP)).follow
    (fun sh _ => stepLease fourPool.capacity sh) (fun _ l => l.elim)
    (.spawn (.client (2, aliceInvite)) :: (List.range 80).map (fun k => .act 0 (unanswered (k % 4))) ++
      .spawn .new :: (List.range 40).map fun k => .act 1 (unanswered (k % 4)))
    ⟨Factory.initial fourPool, []⟩

def startsOther : FactoryLabel engineSig (ℕ × Invite) → Bool
  | .spawn (.run _) => false
  | .spawn (.close _) => false
  | _ => true

theorem unansweredCall_reaches :
    (factorySystem fourPool (callProgram smallConfig phoneCodecs fourPool fourPool.bindIP)).Reaches
      (Factory.initial fourPool) (System.labels unansweredCall) unansweredCall.2 := by
  have hstarts : unansweredCall.1.all (fun p => startsOther p.2) = true := by decide +kernel
  refine (System.follow_steps (C := fun _ _ => True) (fun _ _ _ _ _ => stepLease_perform) (fun _ l => l.elim)
    _ _ fun p hp => ⟨fun x hx => ?_, trivial⟩).mono fun _ _ _ _ hs => hs.1
  have hother := List.all_eq_true.mp hstarts p hp
  rw [hx] at hother
  cases x with
  | new | client => trivial
  | run | close => cases hother

/-- The call has returned, and no session is being made or closed. -/
def settled (st : FactoryState engineSig (ℕ × Invite)) : Bool :=
  st.threads.all (fun th => !Factory.inNew th.past) &&
    st.shared.sessions.all (fun s => s.closeOnce ≠ .running)

theorem quiet_of_settled {st : FactoryState engineSig (ℕ × Invite)} (h : settled st = true) :
    Factory.Quiet st := by
  obtain ⟨hnew, hclose⟩ := Bool.and_eq_true_iff.mp h
  constructor
  · intro th hth
    simpa using List.all_eq_true.mp hnew th hth
  · intro s hs
    simpa using List.all_eq_true.mp hclose s hs

def aliceMedia : MediaSession := ⟨0, ⟨0, 20000⟩, ⟨1, 20002⟩⟩

/-- The first thread has returned, and `New` had returned this session to it. -/
def hadMedia (m : MediaSession) (st : FactoryState engineSig (ℕ × Invite)) : Bool :=
  (st.threads.take 1).any fun th =>
    decide (m ∈ th.past.filterMap returnedBy) &&
      match th.rest with
      | .pure .finished => true
      | _ => false

theorem returned_of_hadMedia {m : MediaSession} {st : FactoryState engineSig (ℕ × Invite)}
    (h : hadMedia m st = true) :
    ∃ th ∈ st.threads, th.rest = pure .finished ∧ m ∈ th.past.filterMap returnedBy := by
  obtain ⟨th, hth, hhad⟩ := List.any_eq_true.mp h
  obtain ⟨hm, hrest⟩ := Bool.and_eq_true_iff.mp hhad
  refine ⟨th, List.mem_of_mem_take hth, ?_, of_decide_eq_true hm⟩
  split at hrest
  · next hfinished => exact hfinished
  · cases hrest

theorem leases_follow_sessions_unanswered : ∃ ls st,
    Portalloc.new fourPairs = .ok fourPool ∧
    (factorySystem fourPool (callProgram smallConfig phoneCodecs fourPool fourPool.bindIP)).Reaches
      (Factory.initial fourPool) ls st ∧
    openSessions st = 1 ∧ st.shared.pool.inUse = 2 ∧
    Gone st.shared.pool aliceMedia.caller ∧ Gone st.shared.pool aliceMedia.callee := by
  have hquiet : settled unansweredCall.2 = true := by decide +kernel
  have hopen : openSessions unansweredCall.2 = 1 := by decide +kernel
  have hmedia : hadMedia aliceMedia unansweredCall.2 = true := by decide +kernel
  obtain ⟨hinUse, -, -, hreleased⟩ := leases_follow_sessions smallConfig phoneCodecs
    (show Portalloc.new fourPairs = .ok fourPool by decide) fourPool.bindIP unansweredCall_reaches
  obtain ⟨th, hth, hreturned, hm⟩ := returned_of_hadMedia hmedia
  refine ⟨_, _, by decide, unansweredCall_reaches, hopen, ?_, hreleased th hth hreturned _ hm⟩
  rw [hinUse (quiet_of_settled hquiet), hopen]
  rfl

end AixvolinkPbx.B2bua

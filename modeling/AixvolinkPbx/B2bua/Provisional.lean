import AixvolinkPbx.B2bua.Answering
import AixvolinkPbx.Call.History
import AixvolinkPbx.Lib.Interp

/-!
# Provisional responses of the callee

A session set up against the call actor itself: every transition it asks for is applied by `apply`, over
a publisher that accepts every event. The callee's responses are given, and how many of them `WaitAnswer`
reads before it gives up; everything else succeeds.

1. `handle` is that environment, and `applied` what the actor does with a transition in it.
2. A provisional response moves the call by `progress`; only ringing after early media is refused
   (`waitRound_provisional`), which happens exactly if the responses are not `Ordered`.
3. `answered_iff`: the answer that follows brings the call to answered if and only if they are and
   `WaitAnswer` gets as far.
-/

namespace AixvolinkPbx.B2bua

open Calls (Actor ActorError Transition allowedTransition)
open Registration (Binding)
open Sdp (Body Codecs Endpoint Mapping)

/-! ## The environment -/

abbrev Clock := ℕ → ℤ

def Clock.rest (clock : Clock) : Clock := fun k => clock (k + 1)

/-- A publisher that accepts every event, and a clock. -/
def accepting (clock : Clock) : (e : Calls.ActorOp) → Calls.actorSig.Ans e × Clock
  | .now => (clock 0, clock.rest)
  | .publish _ => (.ok (), clock)
  | .store _ => ((), clock)
  | .select => (.done, clock)
  | .reply _ _ => ((), clock)
  | .close => ((), clock)

structure World where
  /-- The responses of the callee that `WaitAnswer` is going to read. -/
  responses : List Response
  actor : Actor
  clock : Clock
  /-- The transitions refused with `ErrInvalidTransition`. -/
  refused : List Transition

def World.tick (w : World) : World := { w with clock := w.clock.rest }

def World.transition (w : World) (t : Transition) : Option ActorError × World :=
  match (Calls.apply w.actor t).eval accepting w.clock with
  | none => (none, w)
  | some ((err, actor), clock) =>
    let refused := match err with
      | some (.invalidTransition _ _) => w.refused ++ [t]
      | _ => w.refused
    (err, { w with actor := actor, clock := clock, refused := refused })

variable (binding : Binding) (media : Media) (outbound : String)

/-- The callee's responses come in their order, the actor applies the transitions, and every other
operation succeeds. -/
def handle (w : World) : (e : EngineOp) → engineSig.Ans e × World
  | .nextResponse =>
    match w.responses with
    | [] => (.failed .other, w)
    | response :: rest => (.response response, { w with responses := rest })
  | .transition _ t => w.transition t
  | .now => (w.clock 0, w.tick)
  | .resolve _ _ => (some binding, w)
  | .newMedia => (some media, w)
  | .createOutbound _ _ => (some outbound, w)
  | e => (succeeding (fun _ => .failed .timeout) (fun _ => .parentDone) 0 e, w)

section Handle

variable (w : World)

@[simp] theorem handle_startActor (actor : Actor) :
    handle binding media outbound w (.startActor actor) = ((), w) := rfl

@[simp] theorem handle_transition (ctx : Ctx) (t : Transition) :
    handle binding media outbound w (.transition ctx t) = w.transition t := rfl

@[simp] theorem handle_now : handle binding media outbound w .now = (w.clock 0, w.tick) := rfl

@[simp] theorem handle_resolve (tenantID aor : String) :
    handle binding media outbound w (.resolve tenantID aor) = (some binding, w) := rfl

@[simp] theorem handle_newMedia : handle binding media outbound w .newMedia = (some media, w) := rfl

@[simp] theorem handle_configure (caller callee : Endpoint) (mapping : Mapping) :
    handle binding media outbound w (.configure caller callee mapping) = ((), w) := rfl

@[simp] theorem handle_createOutbound (callee : Binding) (offer : Body) :
    handle binding media outbound w (.createOutbound callee offer) = (some outbound, w) := rfl

@[simp] theorem handle_respond (via : Via) (response : Response) :
    handle binding media outbound w (.respond via response) = (true, w) := rfl

@[simp] theorem handle_ack : handle binding media outbound w .ack = (true, w) := rfl

@[simp] theorem handle_registerOutbound (id : String) :
    handle binding media outbound w (.registerOutbound id) = ((), w) := rfl

variable {response : Response}

theorem handle_nextResponse {w : World} {rest : List Response}
    (h : w.responses = response :: rest) :
    handle binding media outbound w .nextResponse =
      (Waited.response response, { w with responses := rest }) := by
  obtain ⟨responses, actor, clock, refused⟩ := w
  obtain rfl : responses = response :: rest := h
  rfl

end Handle

/-! ## Transitions -/

theorem transition_accepted {w : World} {t : Transition}
    (h : t.state = w.actor.call.state ∨ allowedTransition w.actor.call.state t.state = true) :
    ∃ w', w.transition t = (none, w') ∧ w'.actor.call.state = t.state ∧
      w'.responses = w.responses ∧ w'.refused = w.refused := by
  unfold World.transition Calls.apply
  by_cases hsame : t.state = w.actor.call.state
  · rw [if_pos hsame]
    exact ⟨_, rfl, hsame.symm, rfl, rfl⟩
  · rw [if_neg hsame, if_neg (by simp [h.resolve_left hsame])]
    refine ⟨_, rfl, ?_, rfl, rfl⟩
    exact Calls.advance_state ..

theorem transition_refused {w : World} {t : Transition} (hne : t.state ≠ w.actor.call.state)
    (h : allowedTransition w.actor.call.state t.state = false) :
    ∃ err w', w.transition t = (some err, w') ∧ w'.actor = w.actor ∧ w'.refused ≠ [] := by
  unfold World.transition Calls.apply
  rw [if_neg hne, if_pos (by simp [h])]
  exact ⟨_, _, rfl, rfl, List.concat_ne_nil t w.refused⟩

/-! ## Media answers -/

/-- A body that negotiates the mapping with the caller's offer, so that the caller can be answered. -/
def Usable (C : Codecs) (offer : Endpoint) (mapping : Mapping) (body : Body) : Prop :=
  ∃ answer, Sdp.parseAudio C body = .ok answer ∧ Sdp.negotiate offer answer = .ok mapping ∧
    ∀ sessionID, ∃ sdp, sdp ≠ [] ∧
      Sdp.buildAudio C sessionID ⟨media.advertisedIP, media.callerPort⟩
        ⟨media.advertisedIP, media.callerPort + 1⟩ (Sdp.codecListForAnswer mapping)
        answer.direction = .ok sdp

/-- A session with the caller's offer that has negotiated nothing else than the mapping. -/
structure Ready (offer : Endpoint) (mapping : Mapping) (s : Session) : Prop where
  media : s.media = some media
  offer : s.callerOffer = offer
  mapping : s.mediaMapping.name = "" ∨ s.mediaMapping = mapping

variable {media} {C : Codecs} {offer : Endpoint} {mapping : Mapping} {s : Session}

section Eval

variable (media)

theorem startMedia_eval (s : Session) (w : World) :
    ∃ started running, (startMedia s).eval (handle binding media outbound) w =
      some ({ s with mediaStarted := started, mediaRunning := running }, w) := by
  unfold startMedia
  by_cases hrunning : s.mediaRunning = true
  · rw [if_pos hrunning]
    exact ⟨s.mediaStarted, s.mediaRunning, rfl⟩
  · rw [if_neg hrunning]
    exact ⟨true, true, rfl⟩

theorem applyMediaAnswer_eval (hs : Ready media offer mapping s) {body : Body}
    (hbody : Usable media C offer mapping body) (w : World) :
    ∃ sdp s', (applyMediaAnswer C s body).eval (handle binding media outbound) w =
        some ((.ok sdp, s'), w.tick) ∧
      Ready media offer mapping s' ∧ s'.callerAnswer ≠ [] := by
  obtain ⟨answer, hparse, hnegotiate, hbuild⟩ := hbody
  obtain ⟨sdp, hsdp, hbuild⟩ := hbuild (w.clock 0)
  obtain ⟨hname, hrate⟩ := Sdp.negotiate_valid hparse hnegotiate
  have hsame : ¬ (s.mediaMapping.name ≠ "" ∧ s.mediaMapping ≠ mapping) := by
    rintro ⟨hset, hchanged⟩
    exact hs.mapping.elim hset hchanged
  have hvalid : ¬ (mapping.name = "" ∨ mapping.clockRate = 0) := by
    rw [hrate]
    rintro (h | h)
    · exact hname h
    · cases h
  unfold applyMediaAnswer
  rw [hparse]
  dsimp only
  rw [hs.offer, hnegotiate]
  dsimp only
  rw [if_neg hsame]
  simp only [configure, if_neg hvalid, Prog.eval_bind, Prog.eval_pure, Prog.eval_call,
    Option.bind_some, handle_configure, handle_now, localEndpoint, hs.media, Media.localEndpoint, hbuild]
  obtain ⟨started, running, hstart⟩ := startMedia_eval binding media outbound
    { s with
      media := some media, callerOffer := offer, mediaMapping := mapping, callerAnswer := sdp } w.tick
  rw [hstart]
  exact ⟨sdp, _, rfl, ⟨rfl, rfl, .inr rfl⟩, hsdp⟩

end Eval

/-! ## One provisional response -/

def early (response : Response) : Bool :=
  response.status = statusSessionProgress && response.body ≠ []

def rings (response : Response) : Bool :=
  response.status = 180 || (response.status = statusSessionProgress && response.body = [])

/-- The state of the call after a provisional response; none is a transition refused. -/
def progress (state : Calls.State) (response : Response) : Option Calls.State :=
  if early response then some .earlyMedia
  else if rings response then if state = .earlyMedia then none else some .ringing
  else some state

def Waiting (state : Calls.State) : Prop :=
  state = .routing ∨ state = .ringing ∨ state = .earlyMedia

theorem Waiting.progress {state state' : Calls.State} (h : Waiting state)
    (hprogress : progress state response = some state') : Waiting state' := by
  unfold B2bua.progress at hprogress
  split_ifs at hprogress
  · exact .inr (.inr (Option.some.inj hprogress).symm)
  · exact .inr (.inl (Option.some.inj hprogress).symm)
  · exact Option.some.inj hprogress ▸ h

section Round

variable {w : World} {rest : List Response}

theorem onResponse_early (hs : Ready media offer mapping s) (hprovisional : response.isProvisional)
    (hearly : early response = true) (husable : Usable media C offer mapping response.body)
    (hstate : Waiting w.actor.call.state) :
    ∃ s' w', (onResponse C s response).eval (handle binding media outbound) w =
        some ((none, s'), w') ∧ Ready media offer mapping s' ∧ w'.responses = w.responses ∧
      w'.actor.call.state = .earlyMedia ∧ w'.refused = w.refused := by
  obtain ⟨hstatus, hbody⟩ : response.status = statusSessionProgress ∧ response.body ≠ [] := by
    simpa [early] using hearly
  have hskip : ¬ ((!response.isProvisional || decide (response.status = 100)) = true) := by
    rw [hprovisional, hstatus]
    decide
  obtain ⟨sdp, s', hmedia, hready, -⟩ := applyMediaAnswer_eval binding media outbound hs husable w
  obtain ⟨w', htransition, hstate', hresponses, hrefused⟩ := transition_accepted (w := w.tick)
    (t := ⟨.earlyMedia, s'.call.calleeLeg, "", Text.itoa response.status⟩) (by
      rcases hstate with h | h | h
      · exact .inr (by rw [show w.tick.actor = w.actor from rfl, h]; rfl)
      · exact .inr (by rw [show w.tick.actor = w.actor from rfl, h]; rfl)
      · exact .inl h.symm)
  refine ⟨s', w', ?_, hready, hresponses, hstate', hrefused⟩
  unfold onResponse
  rw [if_neg hskip]
  dsimp only
  rw [if_pos ⟨hstatus, hbody⟩]
  simp only [Prog.eval_bind, hmedia, Option.bind_some, transition, Prog.eval_call, handle_transition,
    htransition]
  rfl

theorem onResponse_ring (hprovisional : response.isProvisional) (hearly : early response = false)
    (htrying : response.status ≠ 100) :
    onResponse C s response = (do
      if let some err ← ring s response then return (some (.transition err), s)
      if ← respond response.status response.reason response.body (contentTypeHeaders response) then
        return (none, s)
      else return (some .respond, s)) := by
  have hskip : ¬ ((!response.isProvisional || decide (response.status = 100)) = true) := by
    rw [hprovisional]
    simpa using htrying
  have hnone : ¬ (response.status = statusSessionProgress ∧ response.body ≠ []) := by
    rintro ⟨hstatus, hbody⟩
    simp [early, hstatus, hbody] at hearly
  unfold onResponse
  rw [if_neg hskip]
  dsimp only
  refine (if_neg hnone).trans (congrArg _ (funext fun err => ?_))
  cases err <;> rfl

theorem onResponse_accepted (hs : Ready media offer mapping s) (hprovisional : response.isProvisional)
    (husable : early response = true → Usable media C offer mapping response.body)
    (hstate : Waiting w.actor.call.state) {state : Calls.State}
    (hprogress : progress w.actor.call.state response = some state) :
    ∃ s' w', (onResponse C s response).eval (handle binding media outbound) w =
        some ((none, s'), w') ∧ Ready media offer mapping s' ∧ w'.responses = w.responses ∧
      w'.actor.call.state = state ∧ w'.refused = w.refused := by
  unfold progress at hprogress
  by_cases hearly : early response = true
  · rw [if_pos hearly] at hprogress
    cases hprogress
    exact onResponse_early binding outbound hs hprovisional hearly (husable hearly) hstate
  rw [if_neg hearly] at hprogress
  by_cases htrying : response.status = 100
  · have hrings : ¬ rings response = true := by
      simp [rings, htrying, statusSessionProgress]
    rw [if_neg hrings] at hprogress
    refine ⟨s, w, ?_, hs, rfl, Option.some.inj hprogress, rfl⟩
    unfold onResponse
    rw [if_pos (by simp [htrying])]
    rfl
  rw [onResponse_ring hprovisional (by simpa using hearly) htrying]
  by_cases hrings : rings response = true
  · rw [if_pos hrings] at hprogress
    split_ifs at hprogress with hnot
    cases hprogress
    obtain ⟨w', htransition, hstate', hresponses, hrefused⟩ := transition_accepted (w := w)
      (t := ⟨.ringing, s.call.calleeLeg, "", Text.itoa response.status⟩) (by
        rcases hstate with h | h | h
        · exact .inr (by rw [h]; rfl)
        · exact .inl h.symm
        · exact absurd h hnot)
    have hring : response.status = 180 ∨ response.status = statusSessionProgress := by
      simp only [rings, Bool.or_eq_true, Bool.and_eq_true, decide_eq_true_eq] at hrings
      exact hrings.imp id And.left
    refine ⟨s, w', ?_, hs, hresponses, hstate', hrefused⟩
    simp only [ring, if_pos hring, transition, Prog.eval_bind, Prog.eval_call, handle_transition,
      htransition, Option.bind_some]
    rfl
  · rw [if_neg hrings] at hprogress
    have hsilent : ¬ (response.status = 180 ∨ response.status = statusSessionProgress) := by
      rintro (h | h)
      · exact hrings (by simp [rings, h])
      · by_cases hbody : response.body = []
        · exact hrings (by simp [rings, h, hbody])
        · exact hearly (by simp [early, h, hbody])
    refine ⟨s, w, ?_, hs, rfl, Option.some.inj hprogress, rfl⟩
    simp only [ring, if_neg hsilent, Prog.eval_bind, Prog.eval_pure, Option.bind_some]
    rfl

/-- Ringing after early media is refused. -/
theorem onResponse_refused (hprovisional : response.isProvisional)
    (hprogress : progress w.actor.call.state response = none) :
    ∃ err w', (onResponse C s response).eval (handle binding media outbound) w =
        some ((some (.transition err), s), w') ∧ w'.actor = w.actor ∧
      w.actor.call.state = .earlyMedia ∧ w'.refused ≠ [] := by
  unfold progress at hprogress
  split_ifs at hprogress with hearly hrings hstate
  have htrying : response.status ≠ 100 := by
    intro htrying
    simp [rings, htrying, statusSessionProgress] at hrings
  rw [onResponse_ring hprovisional (by simpa using hearly) htrying]
  have hring : response.status = 180 ∨ response.status = statusSessionProgress := by
    simp only [rings, Bool.or_eq_true, Bool.and_eq_true, decide_eq_true_eq] at hrings
    exact hrings.imp id And.left
  obtain ⟨err, w', htransition, hactor, hrefused⟩ := transition_refused (w := w)
    (t := ⟨.ringing, s.call.calleeLeg, "", Text.itoa response.status⟩) (by rw [hstate]; nofun)
    (by rw [hstate]; rfl)
  refine ⟨err, w', ?_, hactor, hstate, hrefused⟩
  simp only [ring, if_pos hring, transition, Prog.eval_bind, Prog.eval_call, handle_transition,
    htransition, Option.bind_some]
  rfl

end Round

/-! ## A sequence of provisional responses -/

/-- The state of the call after provisional responses; none if a transition was refused. -/
def walk (state : Calls.State) : List Response → Option Calls.State
  | [] => some state
  | response :: rest => (progress state response).bind fun state => walk state rest

/-- No response rings after one with early media. -/
def Ordered (responses : List Response) : Prop :=
  responses.Pairwise fun r r' => ¬ (early r = true ∧ rings r' = true)

theorem not_rings_of_early (h : early response = true) :
    rings response = false := by
  simp only [early, Bool.and_eq_true, decide_eq_true_eq] at h
  simp [rings, h.1, h.2, statusSessionProgress]

theorem walk_isSome_iff (state : Calls.State) (responses : List Response) :
    (walk state responses).isSome = true ↔
      Ordered responses ∧ (state = .earlyMedia → ∀ r ∈ responses, rings r = false) := by
  induction responses generalizing state with
  | nil => simp [walk, Ordered]
  | cons r rest ih =>
    rw [walk, Ordered, List.pairwise_cons, List.forall_mem_cons]
    unfold progress
    by_cases hearly : early r = true
    · rw [if_pos hearly, Option.bind_some, ih]
      have hnot := not_rings_of_early hearly
      simp only [hearly, hnot, true_and, forall_const, Bool.not_eq_true]
      exact ⟨fun h => ⟨⟨h.2, h.1⟩, fun _ => h.2⟩, fun h => ⟨h.1.2, h.1.1⟩⟩
    · rw [if_neg hearly]
      by_cases hrings : rings r = true
      · rw [if_pos hrings]
        by_cases hstate : state = .earlyMedia
        · simp [hstate, hrings]
        · rw [if_neg hstate, Option.bind_some, ih]
          simp [hearly, hstate, Ordered]
      · rw [if_neg hrings, Option.bind_some, ih]
        simp [hearly, hrings, Ordered]

section Wait

variable {responses : List Response} {final : Response} {s' : Session}

theorem waitRound_eval {w : World} {rest : List Response}
    (hresponses : w.responses = response :: rest) {err : Option WaitError} {w' : World}
    (h : (onResponse C s response).eval (handle binding media outbound)
      { w with responses := rest } = some ((err, s'), w')) :
    (waitRound C s).eval (handle binding media outbound) w = some (match err with
      | some err => .inr (.error err, s')
      | none =>
        if response.isSuccess then .inr (.ok response, s')
        else if response.isProvisional then .inl s'
        else .inr (.error (.rejected response), s'), w') := by
  simp only [waitRound, Prog.eval_bind, Prog.eval_call, handle_nextResponse binding media outbound
    hresponses, Option.bind_some, h]
  cases err with
  | some err => rfl
  | none => split_ifs <;> rfl

/-- The responses are waited for up to the first one that is refused, or up to the answer; if it is not
read, `WaitAnswer` gives up. -/
theorem waitAnswer_eval {n : ℕ} (hn : responses.length < n) {w : World} {last : Option Response}
    (hs : Ready media offer mapping s) (hprovisional : ∀ r ∈ responses, r.isProvisional = true)
    (husable : ∀ r ∈ responses, early r = true → Usable media C offer mapping r.body)
    (hlast : ∀ r ∈ last, r.isSuccess = true) (hresponses : w.responses = responses ++ last.toList)
    (hstate : Waiting w.actor.call.state) (hrefused : w.refused = []) :
    ∃ res s' w', (waitAnswer C n s).eval (handle binding media outbound) w = some ((res, s'), w') ∧
      Ready media offer mapping s' ∧
      match walk w.actor.call.state responses with
      | some state => res = last.elim (.error (.failed .other)) .ok ∧ w'.actor.call.state = state ∧
        Waiting state ∧ w'.refused = []
      | none => (∃ err, res = .error (.transition err)) ∧ w'.actor.call.state = .earlyMedia ∧
        w'.refused ≠ [] := by
  induction responses generalizing s w n with
  | nil =>
    obtain ⟨n, rfl⟩ : ∃ m, n = m + 1 := ⟨n - 1, by simp at hn; omega⟩
    cases last with
    | none =>
      refine ⟨_, s, w, ?_, hs, rfl, rfl, hstate, hrefused⟩
      have hnext : handle binding media outbound w .nextResponse = (Waited.failed .other, w) := by
        obtain ⟨responses, actor, clock, refused⟩ := w
        obtain rfl : responses = [] := hresponses
        rfl
      rw [waitAnswer, Prog.loop, Prog.eval_bind, waitRound, Prog.eval_bind, Prog.eval_call, hnext]
      rfl
    | some final =>
      have hfinal : final.isSuccess = true := hlast final rfl
      have hon : (onResponse C s final).eval (handle binding media outbound)
          { w with responses := [] } = some ((none, s), { w with responses := [] }) := by
        have hnot : final.isProvisional = false := by
          simp only [Response.isSuccess, Bool.and_eq_true, decide_eq_true_eq] at hfinal
          simp only [Response.isProvisional, decide_eq_false_iff_not]
          omega
        unfold onResponse
        rw [if_pos (by rw [hnot]; rfl)]
        rfl
      have hround := waitRound_eval binding outbound hresponses hon
      refine ⟨.ok final, s, { w with responses := [] }, ?_, hs, rfl, rfl, hstate, hrefused⟩
      rw [waitAnswer, Prog.loop, Prog.eval_bind, hround]
      simp [hfinal]
  | cons r rest ih =>
    obtain ⟨n, rfl⟩ : ∃ m, n = m + 1 := ⟨n - 1, by simp at hn; omega⟩
    obtain ⟨hr, hprovisional⟩ := List.forall_mem_cons.mp hprovisional
    obtain ⟨hu, husable⟩ := List.forall_mem_cons.mp husable
    rw [walk]
    cases hprogress : progress w.actor.call.state r with
    | none =>
      obtain ⟨err, w', hon, hactor, hearly, hne⟩ := onResponse_refused (C := C) (s := s) binding
        outbound (w := { w with responses := rest ++ last.toList }) hr hprogress
      have hround := waitRound_eval binding outbound hresponses hon
      refine ⟨.error (.transition err), s, w', ?_, hs, ⟨err, rfl⟩, ?_, hne⟩
      · rw [waitAnswer, Prog.loop, Prog.eval_bind, hround]
        rfl
      · rw [hactor]
        exact hearly
    | some state =>
      obtain ⟨s', w', hon, hs', hresponses', hstate', hrefused'⟩ := onResponse_accepted binding outbound
        (w := { w with responses := rest ++ last.toList }) hs hr hu hstate hprogress
      have hround := waitRound_eval binding outbound hresponses hon
      have hwaiting : Waiting w'.actor.call.state := hstate' ▸ hstate.progress hprogress
      obtain ⟨res, s'', w'', heval, hs'', hresult⟩ := ih (n := n) (by simp at hn; omega) hs'
        hprovisional husable hresponses' hwaiting (hrefused'.trans hrefused)
      rw [hstate'] at hresult
      refine ⟨res, s'', w'', ?_, hs'', hresult⟩
      have hnot : r.isSuccess = false := by
        simp only [Response.isProvisional, decide_eq_true_eq] at hr
        simp only [Response.isSuccess, Bool.and_eq_false_iff, decide_eq_false_iff_not]
        omega
      rw [waitAnswer, Prog.loop, Prog.eval_bind, hround]
      simp only [hnot, hr, Bool.false_eq_true, if_false, if_true, Option.bind_some]
      exact heval

theorem answer_eval {w : World} (hs : Ready media offer mapping s) (hbody : final.body ≠ [])
    (husable : Usable media C offer mapping final.body) (hstate : Waiting w.actor.call.state)
    (hrefused : w.refused = []) :
    ∃ s' w', (answer C s final).eval (handle binding media outbound) w = some ((s', true), w') ∧
      w'.actor.call.state = .answered ∧ w'.refused = [] := by
  obtain ⟨sdp, s', hmedia, -, hanswer⟩ := applyMediaAnswer_eval binding media outbound hs husable w
  obtain ⟨w', htransition, hstate', -, hrefused'⟩ := transition_accepted (w := w.tick)
    (t := ⟨.answered, s'.call.calleeLeg, "", "200"⟩) (by
      refine .inr ?_
      rw [show w.tick.actor = w.actor from rfl]
      rcases hstate with h | h | h
      · rw [h]
        rfl
      · rw [h]
        rfl
      · rw [h]
        rfl)
  refine ⟨s', w', ?_, hstate', hrefused'.trans hrefused⟩
  have hok : (Except.ok sdp : Except MediaError Body).isOk = true := rfl
  simp only [answer, answerMedia, if_neg hbody, Prog.eval_bind, hmedia, Option.bind_some,
    Prog.eval_pure, hok, Bool.not_true, Bool.false_eq_true, if_false, if_neg hanswer, Prog.eval_call,
    handle_ack, handle_registerOutbound, transition, handle_transition, htransition, Option.isSome_none,
    respond, handle_respond]

end Wait

/-! ## Setting up the call -/

theorem prepare_eval (cfg : Config) (mapping : Mapping) {invite : Invite}
    (hfresh : s.mediaMapping = .zero) (hoffer : Sdp.parseAudio C invite.body = .ok offer)
    (hbuild : ∀ sessionID, ∃ sdp, Sdp.buildAudio C sessionID ⟨media.advertisedIP, media.calleePort⟩
      ⟨media.advertisedIP, media.calleePort + 1⟩ (Sdp.codecListForOffer offer) offer.direction =
        .ok sdp) {w : World} (hnew : w.actor.call.state = .new) :
    ∃ s' sdp w', (prepare cfg C s invite).eval (handle binding media outbound) w =
        some ((s', some (binding, sdp)), w') ∧
      Ready media offer mapping s' ∧ w'.actor.call.state = .routing ∧ w'.responses = w.responses ∧
      w'.refused = w.refused := by
  obtain ⟨w', htransition, hstate', hresponses, hrefused⟩ := transition_accepted (w := w)
    (t := ⟨.routing, s.call.callerLeg, "", "INVITE"⟩) (.inr (by rw [hnew]; rfl))
  obtain ⟨sdp, hsdp⟩ := hbuild (w'.clock 0)
  refine ⟨{ s with callerOffer := offer, media := some media }, sdp, w'.tick, ?_,
    ⟨rfl, rfl, .inl ?_⟩, hstate', hresponses, hrefused⟩
  · simp only [prepare, transition, Prog.eval_bind, Prog.eval_call, handle_transition, htransition,
      Option.bind_some, Option.isSome_none, Bool.false_eq_true, if_false, respond, handle_respond,
      Bool.not_true, handle_resolve, hoffer, handle_newMedia, Media.localEndpoint, handle_now, hsdp,
      Prog.eval_pure]
  · rw [hfresh]
    rfl

/-- A refused transition ends the setup, as does an error of `WaitAnswer`, and the call fails. -/
theorem dial_failed {n : ℕ} {offerBody : Body} {w w' : World} {err : WaitError}
    (hwait : (waitAnswer C n { s with outbound := some outbound }).eval
      (handle binding media outbound) w = some ((.error err, s'), w'))
    (herr : (∃ cause, err = .transition cause) ∨ err = .failed .other)
    (hstate : Waiting w'.actor.call.state) :
    ∃ w'', (dial C n s binding offerBody).eval (handle binding media outbound) w =
        some ((s', none), w'') ∧ w''.refused = w'.refused := by
  obtain ⟨w'', htransition, -, -, hrefused⟩ := transition_accepted (w := w')
    (t := ⟨.failed, s'.call.calleeLeg, "outbound invite canceled or timed out", "CANCEL"⟩) (.inr (by
      rcases hstate with h | h | h
      · rw [h]
        rfl
      · rw [h]
        rfl
      · rw [h]
        rfl))
  refine ⟨w'', ?_, hrefused⟩
  rcases herr with ⟨cause, rfl⟩ | rfl <;>
    simp only [dial, Prog.eval_bind, Prog.eval_call, handle_createOutbound, Option.bind_some, hwait, fail,
      transition, handle_transition, htransition, Prog.eval_pure]

theorem dial_answered {n : ℕ} {offerBody : Body} {w w' : World} {final : Response}
    (hwait : (waitAnswer C n { s with outbound := some outbound }).eval
      (handle binding media outbound) w = some ((.ok final, s'), w')) :
    (dial C n s binding offerBody).eval (handle binding media outbound) w =
      some ((s', some final), w') := by
  simp only [dial, Prog.eval_bind, Prog.eval_call, handle_createOutbound, Option.bind_some, hwait,
    Prog.eval_pure]

theorem take_append_singleton {α : Type} (l : List α) (x : α) (n : ℕ) :
    (l ++ [x]).take n = l.take n ++ (if l.length < n then some x else none).toList := by
  rw [List.take_append]
  split_ifs with hn
  · have hone : [x].length ≤ n - l.length := by
      rw [List.length_singleton]
      omega
    rw [List.take_of_length_le hone]
    rfl
  · rw [show n - l.length = 0 by omega]
    rfl

/-- A call set up against a callee that sends provisional responses, all early media of one mapping, and
then an answer with usable media, of which `WaitAnswer` reads at most `limit`. No transition is refused
exactly if no response that is read rings after one with early media; the call is answered exactly if no
response rings after one with early media and the answer is read. -/
theorem answered_iff (cfg : Config) (C : Codecs) (binding : Binding) (media : Media)
    (outbound : String) (invite : Invite) (s : Session) (hfresh : s.mediaMapping = .zero)
    (actor : Actor) (hnew : actor.call.state = .new) (offer : Endpoint)
    (hoffer : Sdp.parseAudio C invite.body = .ok offer)
    (hbuild : ∀ sessionID, ∃ sdp, Sdp.buildAudio C sessionID ⟨media.advertisedIP, media.calleePort⟩
      ⟨media.advertisedIP, media.calleePort + 1⟩ (Sdp.codecListForOffer offer) offer.direction =
        .ok sdp) (mapping : Mapping) (responses : List Response)
    (hprovisional : ∀ r ∈ responses, r.isProvisional = true)
    (husable : ∀ r ∈ responses, early r = true → Usable media C offer mapping r.body)
    (final : Response) (hfinal : final.isSuccess = true) (hbody : final.body ≠ [])
    (hfinalUsable : Usable media C offer mapping final.body) (clock : Clock) (limit n : ℕ)
    (hn : responses.length < n) :
    ∃ s' entered w', (setup cfg C n s actor invite).eval (handle binding media outbound)
        ⟨(responses ++ [final]).take limit, actor, clock, []⟩ = some ((s', entered), w') ∧
      (w'.refused = [] ↔ Ordered (responses.take limit)) ∧
      (entered = true ∧ w'.actor.call.state = .answered ↔
        Ordered responses ∧ responses.length < limit) := by
  have hread := take_append_singleton responses final limit
  have hsuccess : ∀ r ∈ if responses.length < limit then some final else none, r.isSuccess = true := by
    intro r hr
    split_ifs at hr
    · cases hr
      exact hfinal
    · cases hr
  have hmem : ∀ r ∈ responses.take limit, r ∈ responses := fun _ => List.mem_of_mem_take
  obtain ⟨s₁, sdp, w₁, hprepare, hready, hrouting, hresponses, hrefused⟩ :=
    prepare_eval binding outbound cfg mapping hfresh hoffer hbuild
      (w := ⟨(responses ++ [final]).take limit, actor, clock, []⟩) hnew
  have hlength : (responses.take limit).length < n := by
    rw [List.length_take]
    omega
  obtain ⟨res, s₂, w₂, hwait, hready₂, hresult⟩ := waitAnswer_eval binding outbound hlength
    (s := { s₁ with outbound := some outbound }) ⟨hready.media, hready.offer, hready.mapping⟩
    (fun r hr => hprovisional r (hmem r hr)) (fun r hr => husable r (hmem r hr)) hsuccess
    (hresponses.trans hread) (.inl hrouting) hrefused
  have hwalk := walk_isSome_iff .routing (responses.take limit)
  simp only [reduceCtorEq, false_imp_iff, and_true] at hwalk
  rw [hrouting] at hresult
  have hsetup : ∀ {r w}, (dial C n s₁ binding sdp).eval (handle binding media outbound) w₁ =
      some ((s₂, r), w) → (setup cfg C n s actor invite).eval (handle binding media outbound)
        ⟨(responses ++ [final]).take limit, actor, clock, []⟩ =
      (r.elim (Pure.pure (s₂, false)) (answer C s₂)).eval (handle binding media outbound) w := by
    intro r w hdial
    simp only [setup, Prog.eval_bind, Prog.eval_call, handle_startActor, Option.bind_some, hprepare,
      hdial]
    cases r <;> rfl
  cases hcase : walk .routing (responses.take limit) with
  | none =>
    rw [hcase] at hresult hwalk
    obtain ⟨⟨err, rfl⟩, hearly, hne⟩ := hresult
    obtain ⟨w₃, hdial, hrefused₃⟩ := dial_failed binding outbound hwait (.inl ⟨err, rfl⟩)
      (.inr (.inr hearly))
    have hnot : ¬ Ordered (responses.take limit) := fun h => by simpa using hwalk.mpr h
    refine ⟨s₂, false, w₃, hsetup hdial, iff_of_false (hrefused₃ ▸ hne) hnot,
      iff_of_false (by simp) fun h => hnot (List.Pairwise.sublist (List.take_sublist ..) h.1)⟩
  | some state =>
    rw [hcase] at hresult hwalk
    obtain ⟨hres, hstate, hwaiting, hrefused₂⟩ := hresult
    have hordered : Ordered (responses.take limit) := hwalk.mp rfl
    by_cases hlimit : responses.length < limit
    · obtain rfl : res = .ok final := by rw [hres, if_pos hlimit]; rfl
      obtain ⟨s₃, w₃, hanswer, hanswered, hrefused₃⟩ := answer_eval binding outbound hready₂ hbody
        hfinalUsable (hstate ▸ hwaiting) hrefused₂
      rw [List.take_of_length_le hlimit.le] at hordered ⊢
      exact ⟨s₃, true, w₃, (hsetup (dial_answered binding outbound hwait)).trans hanswer,
        iff_of_true hrefused₃ hordered, iff_of_true ⟨rfl, hanswered⟩ ⟨hordered, hlimit⟩⟩
    · obtain rfl : res = .error (.failed .other) := by rw [hres, if_neg hlimit]; rfl
      obtain ⟨w₃, hdial, hrefused₃⟩ := dial_failed binding outbound hwait (.inr rfl)
        (hstate ▸ hwaiting)
      exact ⟨s₂, false, w₃, hsetup hdial, iff_of_true (hrefused₃.trans hrefused₂) hordered,
        iff_of_false (by simp) fun h => hlimit h.2⟩

/-! ## Bob's phone rings after early media -/

section Call

def bobProgress : Response := ⟨183, "Session Progress", phoneBody 2 5000, []⟩
def bobRinging : Response := ⟨180, "Ringing", [], []⟩

def callMedia : Media := ⟨.v4 0x0A000009, 20000, 20002⟩

def newSession : Session := ⟨Calls.callIn .new, "inbound", none, none, .zero, .zero, [], false, false⟩

def phoneEndpoint (h : BitVec 32) (port : UInt16) : Endpoint :=
  ⟨⟨.v4 (0x0A000000 + h), port⟩, ⟨.v4 (0x0A000000 + h), port + 1⟩, .sendRecv,
    [⟨"PCMU", 0, 8000⟩]⟩

def pcmuMapping : Mapping := ⟨"PCMU", 8000, 0, 0, 0, 0, false⟩

/-- Alice calls Bob, whose phone sends the responses and then answers; ten responses are read. -/
def callBob (responses : List Response) : Option ((Session × Bool) × World) :=
  (setup smallConfig phoneCodecs 3 newSession ⟨Calls.callIn .new, 0⟩ aliceInvite).eval
    (handle (phoneBinding "bob" 2) callMedia "outbound")
    ⟨(responses ++ [bobAnswers]).take 10, ⟨Calls.callIn .new, 0⟩, fun _ => 0, []⟩

theorem alice_offer : Sdp.parseAudio phoneCodecs aliceInvite.body = .ok (phoneEndpoint 1 4000) := by
  decide +kernel

theorem phone_built (direction : Sdp.Direction) (port : UInt16) (sessionID : ℤ) :
    ∃ sdp, sdp ≠ [] ∧ Sdp.buildAudio phoneCodecs sessionID ⟨callMedia.advertisedIP, port⟩
      ⟨callMedia.advertisedIP, port + 1⟩ [⟨"PCMU", 0, 8000⟩] direction = .ok sdp := by
  refine ⟨_, ?_, rfl⟩
  simp [Sdp.ascii, Sdp.lines]

theorem bob_usable : Usable callMedia phoneCodecs (phoneEndpoint 1 4000) pcmuMapping (phoneBody 2 5000) :=
  ⟨phoneEndpoint 2 5000, by decide +kernel, by decide +kernel, phone_built _ _⟩

/-- Early media, then ringing: the transition to ringing is refused and the call fails, though Bob's phone
answers with the media it had announced. -/
theorem ringing_after_early_media :
    (∀ r ∈ [bobProgress, bobRinging], r.isProvisional = true) ∧
      Usable callMedia phoneCodecs (phoneEndpoint 1 4000) pcmuMapping bobProgress.body ∧
      Usable callMedia phoneCodecs (phoneEndpoint 1 4000) pcmuMapping bobAnswers.body ∧
      (callBob [bobProgress, bobRinging]).map (fun r => (r.1.2, r.2.refused, r.2.actor.call.state)) =
        some (false, [⟨.ringing, "callee", "", "180"⟩], .failed) := by
  refine ⟨by decide, bob_usable, bob_usable, ?_⟩
  decide +kernel

/-- Ringing, then early media: the call is answered. -/
theorem answered_iff_ringing_first : ∃ s' w',
    callBob [bobRinging, bobProgress] = some ((s', true), w') ∧ w'.actor.call.state = .answered ∧
      w'.refused = [] := by
  have hbuild : ∀ sessionID, ∃ sdp, Sdp.buildAudio phoneCodecs sessionID
      ⟨callMedia.advertisedIP, callMedia.calleePort⟩
      ⟨callMedia.advertisedIP, callMedia.calleePort + 1⟩
      (Sdp.codecListForOffer (phoneEndpoint 1 4000)) (phoneEndpoint 1 4000).direction = .ok sdp := by
    intro sessionID
    obtain ⟨sdp, -, h⟩ := phone_built .sendRecv callMedia.calleePort sessionID
    exact ⟨sdp, h⟩
  obtain ⟨s', entered, w', heval, hrefused, hentered⟩ := answered_iff smallConfig phoneCodecs
    (phoneBinding "bob" 2) callMedia "outbound" aliceInvite newSession rfl ⟨Calls.callIn .new, 0⟩ rfl
    (phoneEndpoint 1 4000) alice_offer hbuild pcmuMapping [bobRinging, bobProgress] (by decide)
    (by
      intro r hr hearly
      rcases List.mem_cons.mp hr with rfl | hr
      · cases hearly
      · obtain rfl := List.mem_singleton.mp hr
        exact bob_usable)
    bobAnswers (by decide) (by decide +kernel) bob_usable (fun _ => 0) 10 3 (by decide)
  have hordered : Ordered [bobRinging, bobProgress] := by
    unfold Ordered
    decide +kernel
  obtain ⟨rfl, hanswered⟩ := hentered.mpr ⟨hordered, by decide⟩
  exact ⟨s', w', heval, hanswered, hrefused.mpr hordered⟩

end Call

end AixvolinkPbx.B2bua

import AixvolinkPbx.B2bua.Operations

/-!
# Final responses to an initial INVITE

When is an INVITE answered exactly once by the time `handleInvite` returns or its session enters the
command loop? Never twice; but some exits of `session.run` send nothing: those taken when the actor
refuses one of the transitions of the setup, when a provisional response cannot be sent, and when
waiting for the callee ends without a response (`silences`). `answered_once_iff` says that these are
the only ones: without a CANCEL of the caller, the INVITE is answered exactly once if and only if
none of them happens.

1. `tallyMonitor` counts final responses and remembers a silent exit and a CANCEL.
2. Each part of the setup starts with nothing sent and either goes on so or settles the INVITE
   (`prepare_safe`, `dial_safe`, `answer_safe`).
-/

namespace AixvolinkPbx.B2bua

open Calls (Actor ActorError)
open Registration (Binding)
open Sdp (Body Codecs)
open Prog (Safe Only safe_bind safe_call safe_pure safe_mono safe_loop only_bind only_call only_pure
  Returns)

variable (cfg : Config) (C : Codecs)

/-! ## Events -/

/-- A final response is handed to the caller's transaction. -/
def handsFinal : Event engineSig → Bool
  | ⟨.respond _ response, _⟩ => response.isFinal
  | _ => false

/-- The states an actor is asked to enter before the command loop of its session. -/
def setupStates : List Calls.State := [.routing, .ringing, .earlyMedia, .answered]

/-- The events after which the setup ends without a final response: the actor refuses a transition,
a provisional response cannot be sent, or waiting for the callee ends by anything but a response or a
CANCEL: its timeout, the end of the process or of the transaction, or another error of `WaitAnswer`. -/
def silences : Event engineSig → Bool
  | ⟨.transition _ t, some _⟩ => t.state ∈ setupStates
  | ⟨.respond _ response, sent⟩ => !response.isFinal && !sent
  | ⟨.nextResponse, .failed cause⟩ => cause ≠ .canceled
  | _ => false

def cancels : Event engineSig → Bool
  | ⟨.nextResponse, .failed cause⟩ => cause = .canceled
  | _ => false

def finals (t : List (Event engineSig)) : ℕ := t.countP handsFinal

/-! ## The monitor -/

structure Tally where
  finals : ℕ
  silent : Bool
  canceled : Bool

def tallyMonitor : Monitor engineSig Tally where
  next g e r :=
    ⟨g.finals + (if handsFinal ⟨e, r⟩ then 1 else 0), g.silent || silences ⟨e, r⟩,
      g.canceled || cancels ⟨e, r⟩⟩
  good _ := True
  admits _ _ := True

def Tally.none : Tally := ⟨0, false, false⟩

def Tally.one : Tally := ⟨1, false, false⟩

/-- The INVITE is answered once, or not at all after a silent exit, or canceled. -/
def Tally.Settled (g : Tally) : Prop :=
  g.canceled = true ∨ g.silent = false ∧ g.finals = 1 ∨ g.silent = true ∧ g.finals = 0

theorem settled_one : Tally.one.Settled := .inr (.inl ⟨rfl, rfl⟩)

theorem tally_run (g : Tally) (t : List (Event engineSig)) :
    tallyMonitor.run g t =
      ⟨g.finals + finals t, g.silent || t.any silences, g.canceled || t.any cancels⟩ := by
  induction t generalizing g with
  | nil => simp [finals]
  | cons ev t ih =>
    obtain ⟨e, r⟩ := ev
    rw [Monitor.run_cons, ih]
    simp only [tallyMonitor, finals, List.countP_cons, List.any_cons, Bool.or_assoc]
    congr 1
    omega

/-! ## Operations the monitor does not look at -/

def Neutral (e : EngineOp) : Prop :=
  ∀ r, handsFinal ⟨e, r⟩ = false ∧ silences ⟨e, r⟩ = false ∧ cancels ⟨e, r⟩ = false

theorem Neutral.next {e : EngineOp} (h : Neutral e) (g : Tally) (r : engineSig.Ans e) :
    tallyMonitor.next g e r = g := by
  obtain ⟨h1, h2, h3⟩ := h r
  simp [tallyMonitor, h1, h2, h3]

theorem neutral_safe {α : Type} {p : Prog engineSig α} (h : Only Neutral p) (g : Tally) :
    Safe tallyMonitor g p fun _ g' => g' = g :=
  h.safe trivial fun _ r he => he.next g r

theorem neutral_transition {ctx : Ctx} {t : Calls.Transition} (h : t.state ∉ setupStates) :
    Neutral (.transition ctx t) := by
  rintro (_ | err)
  · exact ⟨rfl, rfl, rfl⟩
  · exact ⟨rfl, by simp [silences, h], rfl⟩

theorem neutral_of_among {e : EngineOp}
    (h : Among [.admission, .wiring, .registration, .actor, .lease, .media, .bye] e) : Neutral e := by
  intro r
  cases e with
  | transition ctx t =>
    simp only [Among, kind] at h
    split_ifs at h <;> simp at h
  | _ => first | exact ⟨rfl, rfl, rfl⟩ | simp [Among, kind] at h

theorem op_safe {e : EngineOp}
    (h : Among [.admission, .wiring, .registration, .actor, .lease, .media, .bye] e) (g : Tally) :
    Safe tallyMonitor g (op e) fun _ g' => g' = g :=
  neutral_safe (only_call.mpr (neutral_of_among h)) g

theorem fail_safe (s : Session) (reason protocolEvent : String) (g : Tally) :
    Safe tallyMonitor g (fail s reason protocolEvent) fun _ g' => g' = g := by
  refine neutral_safe (only_bind (only_call.mpr (neutral_transition ?_)) fun _ => only_pure) g
  simp [setupStates]

theorem applyMediaAnswer_safe (s : Session) (body : Body) (g : Tally) :
    Safe tallyMonitor g (applyMediaAnswer C s body) fun _ g' => g' = g :=
  neutral_safe ((only_applyMediaAnswer C s body).mono fun _ he =>
    neutral_of_among (Among.mono (by simp) _ he)) g

/-! ## Responses and transitions -/

theorem respond_final_safe {via : Via} {response : Response} (h : response.isFinal = true) :
    Safe tallyMonitor .none (op (.respond via response)) fun _ g => g = .one := by
  rw [safe_call]
  intro r _
  exact ⟨trivial, by simp [tallyMonitor, handsFinal, silences, cancels, h, Tally.none, Tally.one]⟩

theorem respond_provisional_safe {via : Via} {response : Response} (h : response.isFinal = false) :
    Safe tallyMonitor .none (op (.respond via response)) fun sent g =>
      g = ⟨0, !sent, false⟩ := by
  rw [safe_call]
  intro r _
  exact ⟨trivial, by simp [tallyMonitor, handsFinal, silences, cancels, h, Tally.none]⟩

theorem transition_safe {ctx : Ctx} {state : Calls.State} {legID protocolEvent reason : String}
    (h : state ∈ setupStates) :
    Safe tallyMonitor .none (transition ctx state legID protocolEvent reason) fun err g =>
      g = ⟨0, err.isSome, false⟩ := by
  rw [transition, safe_call]
  rintro (_ | err) _
  · exact ⟨trivial, rfl⟩
  · exact ⟨trivial, by simp [tallyMonitor, handsFinal, silences, cancels, h, Tally.none]⟩

theorem settled_silent : Tally.Settled ⟨0, true, false⟩ := .inr (.inr ⟨rfl, rfl⟩)

theorem refuse_safe {α : Type} {status : ℕ} {reason : String} {body : Body} {headers : List Header}
    {s : Session} {text protocolEvent : String} {a : α} (h : 200 ≤ status) :
    Safe tallyMonitor .none (do
      let _ ← respond status reason body headers
      fail s text protocolEvent
      return a) fun a' g => a' = a ∧ g = .one := by
  refine .bind (respond_final_safe (by simpa [Response.isFinal] using h)) ?_
  rintro _ _ rfl
  refine .bind (fail_safe ..) ?_
  rintro _ _ rfl
  exact safe_pure.mpr ⟨rfl, rfl⟩

/-! ## The parts of the setup -/

/-- A part of the setup goes on with nothing sent, or settles the INVITE. -/
def Goes {α : Type} (next : Option α) (g : Tally) : Prop :=
  match next with
  | some _ => g = .none
  | none => g.Settled

theorem prepare_safe (s : Session) (invite : Invite) :
    Safe tallyMonitor .none (prepare cfg C s invite) fun res g => Goes res.2 g := by
  have refused : ∀ {status : ℕ} {reason text protocolEvent : String} {s : Session},
      200 ≤ status → Safe tallyMonitor .none (do
        let _ ← respond status reason [] []
        fail s text protocolEvent
        return (s, (none : Option (Binding × Body)))) fun res g => Goes res.2 g := by
    intro status reason text protocolEvent s h
    refine safe_mono (refuse_safe h) ?_
    rintro _ _ ⟨rfl, rfl⟩
    exact settled_one
  unfold prepare
  refine .bind (transition_safe (by simp [setupStates])) ?_
  rintro (_ | err) _ rfl
  swap
  · exact safe_pure.mpr settled_silent
  refine .bind (respond_provisional_safe rfl) ?_
  rintro (_ | _) _ rfl
  · refine .bind (fail_safe ..) ?_
    rintro _ _ rfl
    exact safe_pure.mpr settled_silent
  refine .bind (op_safe (of_decide_eq_true rfl) _) ?_
  rintro (_ | binding) _ rfl
  · exact refused (by omega)
  dsimp only
  split
  · exact refused (by omega)
  refine .bind (op_safe (by decide) _) ?_
  rintro (_ | media) _ rfl
  · exact refused (by omega)
  dsimp only
  split
  · exact refused (by omega)
  refine .bind (op_safe (by decide) _) ?_
  rintro sessionID _ rfl
  split
  · exact refused (by omega)
  · exact safe_pure.mpr rfl

/-- `OnResponse` sends no final response; when it fails otherwise than in the negotiation, that is a
silent exit. -/
theorem onResponse_safe (s : Session) (response : Response) :
    Safe tallyMonitor .none (onResponse C s response) fun res g =>
      match res.1 with
      | none => g = .none
      | some (.mediaNegotiation _) => g = .none
      | some (.rejected _) => False
      | some _ => g.Settled := by
  have relay : ∀ (s : Session) (body : Body) (headers : List Header), response.isProvisional = true →
      Safe tallyMonitor .none (do
        if ← respond response.status response.reason body headers then
          return ((none : Option WaitError), s)
        else return (some .respond, s)) fun res g =>
          match res.1 with
          | none => g = .none
          | some (.mediaNegotiation _) => g = .none
          | some (.rejected _) => False
          | some _ => g.Settled := by
    intro s body headers hprov
    have hfinal : (⟨response.status, response.reason, body, headers⟩ : Response).isFinal = false := by
      simp [Response.isFinal, Response.isProvisional] at hprov ⊢
      omega
    refine .bind (respond_provisional_safe hfinal) ?_
    rintro (_ | _) _ rfl
    · exact safe_pure.mpr settled_silent
    · exact safe_pure.mpr rfl
  unfold onResponse
  split
  · exact safe_pure.mpr rfl
  next hskip =>
  have hprov : response.isProvisional = true := by
    cases h : response.isProvisional <;> simp [h] at hskip ⊢
  dsimp only
  split
  · refine .bind (applyMediaAnswer_safe ..) ?_
    rintro ⟨_ | body, s⟩ _ rfl
    · exact safe_pure.mpr rfl
    refine .bind (transition_safe (by simp [setupStates])) ?_
    rintro (_ | err) _ rfl
    · exact relay s body _ hprov
    · exact safe_pure.mpr settled_silent
  · have hring : Safe tallyMonitor .none (ring s response) fun err g =>
        g = ⟨0, err.isSome, false⟩ := by
      unfold ring
      split
      · exact transition_safe (by simp [setupStates])
      · exact safe_pure.mpr rfl
    refine .bind hring ?_
    rintro (_ | err) _ rfl
    · exact relay s _ _ hprov
    · exact safe_pure.mpr settled_silent

/-- `WaitAnswer` ends with nothing sent when the callee answered or refused, or its early media
failed; otherwise the exit is silent or the caller canceled. -/
theorem waitAnswer_safe (n : ℕ) (s : Session) :
    Safe tallyMonitor .none (waitAnswer C n s) fun res g =>
      match res.1 with
      | .ok _ => g = .none
      | .error (.mediaNegotiation _) => g = .none
      | .error (.rejected response) => g = .none ∧ response.isFinal = true
      | .error _ => g.Settled := by
  refine safe_loop (I := fun _ g => g = .none) (fun s g hg => ?_) n rfl
  subst hg
  unfold waitRound
  rw [safe_bind, safe_call]
  rintro (response | cause) _
  · refine ⟨trivial, .bind (onResponse_safe C s response) ?_⟩
    rintro ⟨err, s⟩ g h
    match err, h with
    | some (.mediaNegotiation _), h => exact safe_pure.mpr h
    | some (.failed _), h => exact safe_pure.mpr h
    | some (.transition _), h => exact safe_pure.mpr h
    | some .respond, h => exact safe_pure.mpr h
    | none, h =>
      dsimp only
      split_ifs with hsuccess hprov
      · exact safe_pure.mpr h
      · exact safe_pure.mpr h
      · refine safe_pure.mpr ⟨h, ?_⟩
        simpa [Response.isFinal, Response.isProvisional] using hprov
  · refine ⟨trivial, safe_pure.mpr ?_⟩
    cases cause with
    | canceled => exact .inl rfl
    | _ => exact settled_silent

theorem dial_safe (n : ℕ) (s : Session) (binding : Binding) (offer : Body) :
    Safe tallyMonitor .none (dial C n s binding offer) fun res g => Goes res.2 g := by
  have refused : ∀ {status : ℕ} {reason text protocolEvent : String} {body : Body} {s : Session},
      200 ≤ status → Safe tallyMonitor .none (do
        let _ ← respond status reason body []
        fail s text protocolEvent
        return (s, (none : Option Response))) fun res g => Goes res.2 g := by
    intro status reason text protocolEvent body s h
    refine safe_mono (refuse_safe h) ?_
    rintro _ _ ⟨rfl, rfl⟩
    exact settled_one
  unfold dial
  rw [safe_bind, safe_call]
  rintro (_ | outbound) _
  · exact ⟨trivial, refused (by omega)⟩
  refine ⟨trivial, .bind (waitAnswer_safe C n _) ?_⟩
  rintro ⟨err | response, s⟩ g h
  · have silent : g.Settled → Safe tallyMonitor g (do
        fail s "outbound invite canceled or timed out" "CANCEL"
        return (s, (none : Option Response))) fun res g => Goes res.2 g := by
      intro hg
      refine .bind (fail_safe ..) ?_
      rintro _ _ rfl
      exact safe_pure.mpr hg
    cases err with
    | rejected response =>
      obtain ⟨rfl, hfinal⟩ := h
      exact refused (by simpa [Response.isFinal] using hfinal)
    | mediaNegotiation err =>
      obtain rfl : g = .none := h
      exact refused (by omega)
    | failed cause => exact silent h
    | transition err => exact silent h
    | respond => exact silent h
  · exact safe_pure.mpr h

theorem neutral_ack : Neutral .ack := fun _ => ⟨rfl, rfl, rfl⟩

theorem ack_safe (g : Tally) : Safe tallyMonitor g (op .ack) fun _ g' => g' = g :=
  neutral_safe (only_call.mpr neutral_ack) g

theorem rejectAnswer_safe (s : Session) (reason : String) :
    Safe tallyMonitor .none (rejectAnswer s reason) fun _ g => g = .one := by
  unfold rejectAnswer
  refine .bind (ack_safe _) ?_
  rintro _ _ rfl
  refine .bind (op_safe (by decide) _) ?_
  rintro _ _ rfl
  refine .bind (respond_final_safe rfl) ?_
  rintro _ _ rfl
  exact fail_safe ..

theorem answerMedia_safe (s : Session) (response : Response) (g : Tally) :
    Safe tallyMonitor g (answerMedia C s response) fun _ g' => g' = g := by
  unfold answerMedia
  split
  · exact safe_pure.mpr rfl
  · refine .bind (applyMediaAnswer_safe ..) ?_
    rintro _ _ rfl
    exact safe_pure.mpr rfl

theorem answer_safe (s : Session) (response : Response) :
    Safe tallyMonitor .none (answer C s response) fun _ g => g.Settled := by
  have rejected : ∀ (s : Session) (reason : String), Safe tallyMonitor .none (do
      rejectAnswer s reason
      return (s, false)) fun _ g => g.Settled := by
    intro s reason
    refine .bind (rejectAnswer_safe ..) ?_
    rintro _ _ rfl
    exact safe_pure.mpr settled_one
  unfold answer
  refine .bind (answerMedia_safe ..) ?_
  rintro ⟨negotiated, s⟩ _ rfl
  dsimp only
  split_ifs
  · exact rejected ..
  · exact rejected ..
  refine .bind (ack_safe _) ?_
  rintro (_ | _) _ rfl
  · refine safe_mono (refuse_safe (by omega)) ?_
    rintro _ _ ⟨_, rfl⟩
    exact settled_one
  refine .bind (op_safe (of_decide_eq_true rfl) _) ?_
  rintro _ _ rfl
  refine .bind (transition_safe (by simp [setupStates])) ?_
  rintro (_ | err) _ rfl
  swap
  · refine .bind (op_safe (by decide) _) ?_
    rintro _ _ rfl
    exact safe_pure.mpr settled_silent
  refine .bind (respond_final_safe rfl) ?_
  rintro (_ | _) _ rfl
  · refine .bind (op_safe (by decide) _) ?_
    rintro _ _ rfl
    have hterminate : Only Neutral
        (terminate "caller answer transaction failed" "CANCEL" s.call.callerLeg) :=
      only_bind (only_call.mpr (neutral_transition (by simp [setupStates]))) fun _ =>
        only_bind (only_call.mpr (neutral_transition (by simp [setupStates]))) fun _ => only_pure
    refine .bind (neutral_safe hterminate _) ?_
    rintro _ _ rfl
    exact safe_pure.mpr settled_one
  · exact safe_pure.mpr settled_one

theorem setup_safe (n : ℕ) (s : Session) (actor : Actor) (invite : Invite) :
    Safe tallyMonitor .none (setup cfg C n s actor invite) fun _ g => g.Settled := by
  unfold setup
  refine .bind (op_safe (of_decide_eq_true rfl) _) ?_
  rintro _ _ rfl
  refine .bind (prepare_safe cfg C s invite) ?_
  rintro ⟨s, _ | ⟨binding, offer⟩⟩ g hg
  · exact safe_pure.mpr hg
  obtain rfl : g = .none := hg
  refine .bind (dial_safe C n s binding offer) ?_
  rintro ⟨s, _ | response⟩ g hg
  · exact safe_pure.mpr hg
  obtain rfl : g = .none := hg
  exact answer_safe C s response

theorem reject_safe {status : ℕ} {reason : String} {headers : List Header} (h : 200 ≤ status) :
    Safe tallyMonitor .none (do
      reject status reason headers
      return (none : Option (Session × Actor))) fun res g => Goes res g := by
  unfold reject
  refine safe_bind.mpr (.bind (respond_final_safe ?_) ?_)
  · simpa [Response.isFinal] using h
  · rintro _ _ rfl
    exact safe_pure.mpr (safe_pure.mpr settled_one)

theorem release_safe {α : Type} {p : Prog engineSig α} {Q : α → Tally → Prop}
    (h : Safe tallyMonitor .none p Q) : Safe tallyMonitor .none (release >>= fun _ => p) Q := by
  have hneutral : Only Neutral release :=
    only_release.mono fun _ he => neutral_of_among (Among.mono (by simp) _ he)
  refine .bind (neutral_safe hneutral _) ?_
  rintro _ _ rfl
  exact h

theorem openSession_safe :
    Safe tallyMonitor .none (openSession cfg) fun res g => Goes res g := by
  have failed : Safe tallyMonitor .none (do
      let _ ← respond 500 "Server Internal Error" [] []
      return (none : Option (Session × Actor))) fun res g => Goes res g := by
    refine .bind (respond_final_safe rfl) ?_
    rintro _ _ rfl
    exact safe_pure.mpr settled_one
  unfold openSession
  refine .bind (op_safe (by decide) _) ?_
  rintro (_ | inbound) _ rfl
  · refine release_safe ?_
    exact reject_safe (by omega)
  refine .bind (op_safe (of_decide_eq_true rfl) _) ?_
  rintro (_ | current) _ rfl
  · exact release_safe failed
  dsimp only
  split
  · exact release_safe failed
  · refine .bind (op_safe (of_decide_eq_true rfl) _) ?_
    rintro _ _ rfl
    exact safe_pure.mpr rfl

/-- The admission refuses the INVITE with one final response, or sends nothing. -/
theorem admission_safe (invite : Invite) :
    Safe tallyMonitor .none (admission cfg invite) fun res g => Goes res g := by
  unfold admission
  refine .bind (op_safe (by decide) _) ?_
  rintro (_ | _) _ rfl
  · exact reject_safe (by omega)
  dsimp only
  rw [if_neg (by simp)]
  split
  · refine release_safe ?_
    exact reject_safe (by omega)
  have hsource : Only Neutral (sourceIsRegistered cfg
      (addressOfRecord cfg (invite.fromUser.getD "")) invite.source invite.transport) :=
    (only_sourceIsRegistered ..).mono fun _ he => neutral_of_among (Among.mono (by simp) _ he)
  refine .bind (neutral_safe hsource _) ?_
  rintro registered _ rfl
  split
  · refine release_safe ?_
    exact reject_safe (by omega)
  · exact openSession_safe cfg

/-! ## The result -/

theorem answerInvite_safe (n : ℕ) (invite : Invite) :
    Safe tallyMonitor .none (answerInvite cfg C n invite) fun _ g => g.Settled := by
  unfold answerInvite
  refine .bind (admission_safe cfg invite) ?_
  rintro (_ | ⟨s, actor⟩) g hg
  · exact safe_pure.mpr hg
  obtain rfl : g = .none := hg
  refine .bind (setup_safe cfg C n s actor invite) ?_
  intro res g hg
  exact safe_pure.mpr hg

/-- Without a CANCEL of the caller, by the time `handleInvite` returns or its session enters the
command loop exactly one final response has been handed over, if and only if no event of the setup
was one that ends it silently. -/
theorem answered_once_iff (n : ℕ) (invite : Invite) (t : List (Event engineSig))
    (res : Option (Session × Bool)) (h : Returns (answerInvite cfg C n invite) t res)
    (hcancel : ∀ ev ∈ t, cancels ev = false) :
    finals t = 1 ↔ ∀ ev ∈ t, silences ev = false := by
  have hsettled := Prog.safe_returns (answerInvite_safe cfg C n invite) h fun _ _ => trivial
  rw [tally_run] at hsettled
  have hcanceled : t.any cancels = false := by simpa using hcancel
  simp only [Tally.Settled, Tally.none, hcanceled, Bool.or_self, Bool.false_or, Nat.zero_add,
    Bool.false_eq_true, false_or] at hsettled
  rcases hsettled with ⟨hsilent, hone⟩ | ⟨hsilent, hzero⟩
  · exact ⟨fun _ => by simpa using hsilent, fun _ => hone⟩
  · constructor
    · intro hone
      omega
    · intro hall
      have : t.any silences = false := by simpa using hall
      rw [hsilent] at this
      cases this

/-! ## A call from Alice to Bob -/

section Call

def smallConfig : Config :=
  ⟨"tenant", "pbx", "node", 1, 8, 30 * Time.second, 2 * Time.second⟩

/-- The description of a phone at `10.0.0.h` with the PCMU codec. -/
def phoneDescription (h : BitVec 32) (port : ℤ) : Sdp.SessionDescription where
  origin := ⟨"-", 1, 1, "IN", "IP4", Sdp.dotted (0x0A000000 + h)⟩
  sessionName := "-"
  connection := some ⟨"IN", "IP4", Sdp.dotted (0x0A000000 + h)⟩
  attributes := []
  mediaDescriptions := [⟨"audio", port, ["RTP", "AVP"], ["0"], none, []⟩]

def phoneBody (h : BitVec 32) (port : ℤ) : Body := Sdp.ascii (Sdp.lines (phoneDescription h port))

def phoneCodecs : Codecs :=
  Sdp.encodingOf [phoneDescription 1 4000, phoneDescription 2 5000] [0x0A000001, 0x0A000002]

def aliceInvite : Invite :=
  ⟨some "alice", some "bob", "10.0.0.1:5060", "UDP", phoneBody 1 4000⟩

def phoneBinding (user : String) (h : BitVec 32) : Binding where
  id := user
  tenantID := "tenant"
  aor := "sip:" ++ user ++ "@pbx"
  contact := "sip:" ++ user ++ "@" ++ Sdp.dotted (0x0A000000 + h)
  routeTarget := Sdp.dotted (0x0A000000 + h) ++ ":5060"
  transport := .udp
  received := ⟨.v4 (0x0A000000 + h), 5060⟩
  userAgent := ""
  q := .num 1
  expiresAt := 3600 * Time.second
  updatedAt := 0

/-- An environment in which every operation succeeds; the callee's responses and what the command
loop selects are given, by the number of the operation. -/
def succeeding (waited : ℕ → Waited) (selected : ℕ → Selected) (i : ℕ) :
    (e : EngineOp) → engineSig.Ans e
  | .reserve => true
  | .release => ()
  | .wgDone => ()
  | .registerInbound _ => ()
  | .registerOutbound _ => ()
  | .remove _ _ => ()
  | .listBindings _ _ => some [phoneBinding "alice" 1]
  | .resolve _ _ => some (phoneBinding "bob" 2)
  | .newCall tenantID nodeID =>
    some ⟨"call", tenantID, nodeID, "internal", "caller", "callee", .new, 0, 0, 0, ""⟩
  | .startActor _ => ()
  | .transition _ _ => none
  | .stopActor => ()
  | .newMedia => some ⟨.v4 0x0A000009, 20000, 20002⟩
  | .configure _ _ _ => ()
  | .startMedia => ()
  | .cancelMedia => ()
  | .closeMedia => ()
  | .awaitMedia => true
  | .publishSummary => ()
  | .now => (0 : ℤ)
  | .readInvite => some "inbound"
  | .respond _ _ => true
  | .closeInbound => ()
  | .createOutbound _ _ => some "outbound"
  | .nextResponse => waited i
  | .ack => true
  | .closeOutbound => ()
  | .bye _ _ => ()
  | .request .. => none
  | .select => selected i
  | .respondTo _ _ => true
  | .closeResult _ => ()
  | .closeDone => ()
  | .readPending => none
  | .pollAcks _ => false
  | .clearPending _ => false
  | .setPending _ _ => ()
  | .takePending => none
  | .terminate _ => ()

def bobAnswers : Response := ⟨200, "OK", phoneBody 2 5000, []⟩

/-- Alice calls Bob, whose phone does `waited`. -/
def callSetup (waited : Waited) : List (Event engineSig) × Prog engineSig (Option (Session × Bool)) :=
  Prog.play (succeeding (fun _ => waited) fun _ => .parentDone) 40 0
    (answerInvite smallConfig phoneCodecs 2 aliceInvite)

theorem callSetup_returns (waited : Waited) (h : (callSetup waited).2.result.isSome = true) :
    ∃ res, Returns (answerInvite smallConfig phoneCodecs 2 aliceInvite) (callSetup waited).1 res :=
  Prog.play_returns h

/-- Alice is not answered when Bob's phone lets the INVITE time out. -/
theorem unanswered_on_timeout : ∃ cfg C n invite t res, newEngine cfg = .ok () ∧
    Returns (answerInvite cfg C n invite) t res ∧ (∀ ev ∈ t, cancels ev = false) ∧
      finals t = 0 := by
  obtain ⟨res, hres⟩ := callSetup_returns (.failed .timeout) (by decide +kernel)
  have hcancel : (callSetup (.failed .timeout)).1.any cancels = false := by decide +kernel
  have hfinals : finals (callSetup (.failed .timeout)).1 = 0 := by decide +kernel
  exact ⟨smallConfig, phoneCodecs, 2, aliceInvite, _, res, by decide, hres, by simpa using hcancel,
    hfinals⟩

theorem answered_once_by_bob : finals (callSetup (.response bobAnswers)).1 = 1 ∧
    ∀ ev ∈ (callSetup (.response bobAnswers)).1, silences ev = false := by
  obtain ⟨res, hres⟩ := callSetup_returns (.response bobAnswers) (by decide +kernel)
  have hcancel : (callSetup (.response bobAnswers)).1.any cancels = false := by decide +kernel
  have hfinals : finals (callSetup (.response bobAnswers)).1 = 1 := by decide +kernel
  exact ⟨hfinals, (answered_once_iff _ _ _ _ _ res hres (by simpa using hcancel)).mp hfinals⟩

end Call

end AixvolinkPbx.B2bua

import AixvolinkPbx.B2bua.Answering

/-!
# The end of an answered call

Once the caller has its 200, the session ends by a BYE of either leg, by the end of the process or by
the end of its media. `handleHangup` then sends a BYE to one leg only, the other one than `origin`, and
to none if the actor refuses the terminating transition; the end of the process and of the media count
as a BYE of the caller. `torn_down_iff` says exactly which runs leave no leg behind.

1. `endMonitor` notes the 200, how the loop was left, a refused transition and the BYEs.
2. The setup ends without a 200 or with nothing else noted (`answerInvite_end`), and the loop is left
   in one of four ways (`commandLoop_end`).
-/

namespace AixvolinkPbx.B2bua

open Calls (Actor)
open Registration (Binding)
open Sdp (Body Codecs)
open Prog (Safe Only safe_bind safe_call safe_pure safe_mono safe_loop safe_when only_bind only_call
  only_pure only_loop Returns)

variable (cfg : Config) (C : Codecs)

/-! ## Events -/

def answers : Event engineSig → Bool
  | ⟨.respond _ response, sent⟩ => response.status = 200 && sent
  | _ => false

/-- The command loop is left because the process or the media session ends. -/
def cutsOff : Event engineSig → Bool
  | ⟨.select, .parentDone⟩ => true
  | ⟨.select, .mediaDone _⟩ => true
  | _ => false

/-- The actor refuses the terminating transition. -/
def refusesEnd : Event engineSig → Bool
  | ⟨.transition _ t, some _⟩ => t.state = .terminating
  | _ => false

def hangupOf : Event engineSig → Option Leg
  | ⟨.select, .command (.hangup origin)⟩ => some origin
  | _ => none

def byeTo : Event engineSig → Option Leg
  | ⟨.bye _ leg, _⟩ => some leg
  | _ => none

/-! ## The monitor -/

structure Ending where
  answered : Bool
  cut : Bool
  refused : Bool
  hung : List Leg
  byes : List Leg

def endMonitor : Monitor engineSig Ending where
  next g e r :=
    ⟨g.answered || answers ⟨e, r⟩, g.cut || cutsOff ⟨e, r⟩, g.refused || refusesEnd ⟨e, r⟩,
      g.hung ++ (hangupOf ⟨e, r⟩).toList, g.byes ++ (byeTo ⟨e, r⟩).toList⟩
  good _ := True
  admits _ _ := True

def Ending.start : Ending := ⟨false, false, false, [], []⟩

def Ending.talking : Ending := ⟨true, false, false, [], []⟩

theorem endMonitor_run (g : Ending) (t : List (Event engineSig)) :
    endMonitor.run g t = ⟨g.answered || t.any answers, g.cut || t.any cutsOff,
      g.refused || t.any refusesEnd, g.hung ++ t.filterMap hangupOf, g.byes ++ t.filterMap byeTo⟩ := by
  induction t generalizing g with
  | nil => simp
  | cons ev t ih =>
    obtain ⟨e, r⟩ := ev
    rw [Monitor.run_cons, ih]
    simp only [endMonitor, List.any_cons, Bool.or_assoc, List.append_assoc]
    congr 1
    · cases h : hangupOf ⟨e, r⟩ <;> simp [h]
    · cases h : byeTo ⟨e, r⟩ <;> simp [h]

/-! ## Operations that are not noted -/

def Idle (e : EngineOp) : Prop := ∀ g r, endMonitor.next g e r = g

variable {e : EngineOp}

theorem endMonitor_next_eq {r : engineSig.Ans e} (g : Ending) (hanswers : answers ⟨e, r⟩ = false)
    (hcut : cutsOff ⟨e, r⟩ = false) (hrefused : refusesEnd ⟨e, r⟩ = false)
    (hhung : hangupOf ⟨e, r⟩ = none) (hbye : byeTo ⟨e, r⟩ = none) : endMonitor.next g e r = g := by
  simp [endMonitor, hanswers, hcut, hrefused, hhung, hbye]

theorem idle_of_kind (h : kind e ∉ [.ending, .respond, .bye, .select]) : Idle e := by
  intro g r
  cases e with
  | transition ctx t =>
    have ht : t.state ≠ .terminating := by
      intro ht
      simp [kind, ht] at h
    cases r with
    | none => exact endMonitor_next_eq g rfl rfl rfl rfl rfl
    | some err => exact endMonitor_next_eq g rfl rfl (by simp [refusesEnd, ht]) rfl rfl
  | respond via response => simp [kind] at h
  | bye ctx leg => simp [kind] at h
  | select => simp [kind] at h
  | _ => exact endMonitor_next_eq g rfl rfl rfl rfl rfl

variable {α : Type} {p : Prog engineSig α}

theorem idle_of_among {kinds : List Kind} (h : Only (Among kinds) p)
    (hkinds : ∀ k ∈ kinds, k ∉ [Kind.ending, .respond, .bye, .select]) :
    Only Idle p :=
  h.mono fun e he => idle_of_kind (hkinds (kind e) he)

theorem idle_op (h : kind e ∉ [.ending, .respond, .bye, .select]) : Only Idle (op e) :=
  only_call.mpr (idle_of_kind h)

theorem idle_respond {via : Via} {response : Response} (h : response.status ≠ 200) :
    Idle (.respond via response) := by
  intro g r
  exact endMonitor_next_eq g (by simp [answers, h]) rfl rfl rfl rfl

theorem idle_safe (h : Only Idle p) (g : Ending) :
    Safe endMonitor g p fun _ g' => g' = g :=
  h.safe trivial fun _ r he => he g r

theorem idle_fail (s : Session) (reason protocolEvent : String) :
    Only Idle (fail s reason protocolEvent) :=
  idle_of_among (only_fail ..) (by simp)

theorem idle_refuse {status : ℕ} {reason : String} {body : Body} {headers : List Header}
    {s : Session} {text protocolEvent : String} {a : α} (h : status ≠ 200) : Only Idle (do
      let _ ← respond status reason body headers
      fail s text protocolEvent
      return a) :=
  only_bind (only_call.mpr (idle_respond h)) fun _ => only_bind (idle_fail ..) fun _ => only_pure

/-! ## The setup -/

theorem idle_admission (invite : Invite) : Only Idle (admission cfg invite) := by
  have hreject : ∀ {status : ℕ} {reason : String} {headers : List Header}, status ≠ 200 →
      Only Idle (do
        reject status reason headers
        return (none : Option (Session × Actor))) := fun h =>
    only_bind (only_bind (only_call.mpr (idle_respond h)) fun _ => only_pure) fun _ => only_pure
  have hrelease : Only Idle release := idle_of_among only_release (by simp)
  have hfailed : Only Idle (do
      let _ ← respond 500 "Server Internal Error" [] []
      return (none : Option (Session × Actor))) :=
    only_bind (only_call.mpr (idle_respond (by simp))) fun _ => only_pure
  unfold admission openSession
  refine only_bind (idle_op (by decide)) fun reserved => ?_
  split
  · exact hreject (by simp)
  dsimp only
  split
  · refine only_bind hrelease fun _ => ?_
    exact hreject (by simp)
  refine only_bind (idle_of_among (only_sourceIsRegistered ..) (by simp)) fun registered => ?_
  split
  · refine only_bind hrelease fun _ => ?_
    exact hreject (by simp)
  refine only_bind (idle_op (by decide)) fun inbound => ?_
  cases inbound with
  | none =>
    refine only_bind hrelease fun _ => ?_
    exact hreject (by simp)
  | some inbound =>
    refine only_bind (idle_op (of_decide_eq_true rfl)) fun current => ?_
    cases current with
    | none => exact only_bind hrelease fun _ => hfailed
    | some current =>
      dsimp only
      split
      · exact only_bind hrelease fun _ => hfailed
      · exact only_bind (idle_op (of_decide_eq_true rfl)) fun _ => only_pure

theorem idle_prepare (s : Session) (invite : Invite) : Only Idle (prepare cfg C s invite) := by
  unfold prepare
  refine only_bind (idle_of_among (only_transition_of_ne (by simp)) (by simp)) fun err => ?_
  split
  · exact only_pure
  refine only_bind (only_call.mpr (idle_respond (by simp))) fun sent => ?_
  split
  · exact only_bind (idle_fail ..) fun _ => only_pure
  refine only_bind (idle_op (of_decide_eq_true rfl)) fun binding => ?_
  split
  swap
  · exact idle_refuse (by simp)
  split
  · exact idle_refuse (by simp)
  refine only_bind (idle_op (by decide)) fun media => ?_
  split
  swap
  · exact idle_refuse (by simp)
  dsimp only
  split
  · exact idle_refuse (by simp)
  refine only_bind (idle_op (by decide)) fun sessionID => ?_
  split
  · exact idle_refuse (by simp)
  · exact only_pure

theorem idle_onResponse (s : Session) (response : Response) : Only Idle (onResponse C s response) := by
  unfold onResponse
  split
  · exact only_pure
  next hskip =>
  have hstatus : response.status ≠ 200 := by
    simp only [Response.isProvisional, Bool.or_eq_true, Bool.not_eq_true', decide_eq_false_iff_not,
      decide_eq_true_eq, not_or, not_not] at hskip
    omega
  have relay : ∀ (s : Session) (body : Body) (headers : List Header), Only Idle (do
      if ← respond response.status response.reason body headers then
        return ((none : Option WaitError), s)
      else return (some .respond, s)) := by
    intro s body headers
    refine only_bind (only_call.mpr (idle_respond hstatus)) fun sent => ?_
    split
    · exact only_pure
    · exact only_pure
  dsimp only
  split
  · refine only_bind (idle_of_among (only_applyMediaAnswer ..) (by simp)) fun res => ?_
    obtain ⟨_ | body, s⟩ := res
    · exact only_pure
    refine only_bind (idle_of_among (only_transition_of_ne (by simp)) (by simp)) fun err => ?_
    cases err with
    | some err => exact only_pure
    | none => exact relay ..
  · have hring : Only Idle (ring s response) := by
      unfold ring
      split
      · exact idle_of_among (only_transition_of_ne (by simp)) (by simp)
      · exact only_pure
    refine only_bind hring fun err => ?_
    cases err with
    | some err => exact only_pure
    | none => exact relay ..

theorem idle_waitAnswer (n : ℕ) (s : Session) : Only Idle (waitAnswer C n s) := by
  refine only_loop (fun s => ?_) n s
  refine only_bind (idle_op (by decide)) fun waited => ?_
  cases waited with
  | failed cause => exact only_pure
  | response response =>
    refine only_bind (idle_onResponse C s response) fun res => ?_
    obtain ⟨_ | err, s⟩ := res
    · dsimp only
      split_ifs
      · exact only_pure
      · exact only_pure
      · exact only_pure
    · exact only_pure

theorem dial_end (n : ℕ) (s : Session) (binding : Binding) (offer : Body) (g : Ending) :
    Safe endMonitor g (dial C n s binding offer) fun _ g' => g' = g := by
  unfold dial
  refine .bind (idle_safe (idle_op (of_decide_eq_true rfl)) g) ?_
  rintro (_ | outbound) _ rfl
  · exact idle_safe (idle_refuse (by simp)) _
  refine .bind ((idle_safe (idle_waitAnswer C n _) _).and_ensures
    (ensures_waitAnswer C n (.refl _))) ?_
  rintro ⟨err | response, s'⟩ _ ⟨rfl, -, hrejected⟩
  · cases err with
    | rejected response =>
      have := hrejected response rfl
      exact idle_safe (idle_refuse (by omega)) _
    | mediaNegotiation err => exact idle_safe (idle_refuse (by simp)) _
    | failed cause => exact idle_safe (only_bind (idle_fail ..) fun _ => only_pure) _
    | transition err => exact idle_safe (only_bind (idle_fail ..) fun _ => only_pure) _
    | respond => exact idle_safe (only_bind (idle_fail ..) fun _ => only_pure) _
  · exact safe_pure.mpr rfl

/-- An operation that does not send the 200. -/
def NotAnswering (e : EngineOp) : Prop := ∀ r, answers ⟨e, r⟩ = false

theorem notAnswering_safe (h : Only NotAnswering p) {g : Ending} (hg : g.answered = false) :
    Safe endMonitor g p fun _ g' => g'.answered = false := by
  refine h.safe_inv (I := fun g : Ending => g.answered = false) hg ?_
  intro g e r hg he _
  exact ⟨trivial, by simp [endMonitor, hg, he r]⟩

theorem notAnswering_of_kind (h : kind e ≠ .respond) : NotAnswering e := by
  intro r
  cases e with
  | respond via response => simp [kind] at h
  | _ => rfl

theorem notAnswering_of_among {kinds : List Kind} (h : Only (Among kinds) p)
    (hkinds : .respond ∉ kinds) : Only NotAnswering p :=
  h.mono fun _ he => notAnswering_of_kind fun heq => hkinds (heq ▸ he)

theorem notAnswering_rejectAnswer (s : Session) (reason : String) :
    Only NotAnswering (rejectAnswer s reason) :=
  only_bind (only_call.mpr (notAnswering_of_kind (by decide))) fun _ =>
    only_bind (only_call.mpr (notAnswering_of_kind (by decide))) fun _ =>
      only_bind (only_call.mpr fun _ => by simp [answers]) fun _ =>
        notAnswering_of_among (only_fail ..) (by simp)

/-- The session enters its loop with the 200 and nothing else noted, and otherwise ends without the
200. -/
def Enters (enters : Bool) (g : Ending) : Prop := if enters then g = .talking else g.answered = false

theorem answer_end (s : Session) (response : Response) :
    Safe endMonitor .start (answer C s response) fun res g => Enters res.2 g := by
  have quits : ∀ {p : Prog engineSig Unit} {s : Session} {g : Ending}, Only NotAnswering p →
      g.answered = false → Safe endMonitor g (do
        p
        return (s, false)) fun res g => Enters res.2 g := by
    intro p s g hp hg
    refine .bind (notAnswering_safe hp hg) ?_
    intro _ g' hg'
    exact safe_pure.mpr hg'
  have hbye : Only NotAnswering (op (.bye .parent .callee)) :=
    only_call.mpr (notAnswering_of_kind (by decide))
  have hmedia : Only Idle (answerMedia C s response) := by
    unfold answerMedia
    split
    · exact only_pure
    · exact only_bind (idle_of_among (only_applyMediaAnswer ..) (by simp)) fun _ => only_pure
  unfold answer
  refine .bind (idle_safe hmedia _) ?_
  rintro ⟨negotiated, s⟩ _ rfl
  dsimp only
  split_ifs
  · exact quits (notAnswering_rejectAnswer ..) rfl
  · exact quits (notAnswering_rejectAnswer ..) rfl
  refine .bind (idle_safe (idle_op (by decide)) _) ?_
  rintro (_ | _) _ rfl
  · refine safe_mono ((idle_safe (idle_refuse (by simp)) _).and_ensures
      (Q := fun res => res.2 = false) ?_) ?_
    · exact Prog.ensures_after fun _ => Prog.ensures_after fun _ => Prog.ensures_pure.mpr rfl
    · rintro ⟨s, _⟩ _ ⟨rfl, rfl⟩
      rfl
  refine .bind (idle_safe (idle_op (of_decide_eq_true rfl)) _) ?_
  rintro _ _ rfl
  refine .bind
    (idle_safe (idle_of_among (only_transition_of_ne (by simp)) (by simp)) _) ?_
  rintro (_ | err) _ rfl
  swap
  · exact quits hbye rfl
  rw [if_neg (by simp), safe_bind, respond, safe_call]
  rintro (_ | _) _
  · refine ⟨trivial, ?_⟩
    refine .bind (notAnswering_safe hbye rfl) ?_
    intro _ g hg
    exact quits (notAnswering_of_among (only_terminate ..) (by simp)) hg
  · exact ⟨trivial, safe_pure.mpr rfl⟩

/-- A session in its loop has both dialogs. -/
theorem setup_end (n : ℕ) (s : Session) (actor : Actor) (invite : Invite) :
    Safe endMonitor .start (setup cfg C n s actor invite) fun res g =>
      Enters res.2 g ∧ (res.2 = true → res.1.outbound.isSome = true) := by
  unfold setup
  refine .bind (idle_safe (idle_op (of_decide_eq_true rfl)) _) ?_
  rintro _ _ rfl
  refine .bind (idle_safe (idle_prepare ..) _) ?_
  rintro ⟨s, _ | ⟨binding, offer⟩⟩ _ rfl
  · exact safe_pure.mpr ⟨rfl, by simp⟩
  refine .bind ((dial_end C n s binding offer _).and_ensures
    (ensures_dial C n binding offer)) ?_
  rintro ⟨s, _ | response⟩ _ ⟨rfl, -, houtbound⟩
  · exact safe_pure.mpr ⟨rfl, by simp⟩
  refine safe_mono ((answer_end C s response).and_ensures (ensures_answer C response)) ?_
  rintro ⟨s', enters⟩ g ⟨hg, hsame⟩
  refine ⟨hg, fun _ => ?_⟩
  rw [hsame.outbound]
  exact houtbound rfl

/-! ## The command loop -/

def Leg.other : Leg → Leg
  | .caller => .callee
  | .callee => .caller

/-- How the loop is left: by the BYE of a leg or cut off, with the terminating transition accepted and
a BYE sent, or refused and none sent. -/
inductive Left : Ending → Prop
  | hangup (origin : Leg) : Left ⟨true, false, false, [origin], [origin.other]⟩
  | hangupRefused (origin : Leg) : Left ⟨true, false, true, [origin], []⟩
  | cut : Left ⟨true, true, false, [], [.callee]⟩
  | cutRefused : Left ⟨true, true, true, [], []⟩

/-- `handleHangup` sends one BYE, to the other leg, unless the transition is refused. -/
theorem handleHangup_end (ctx : Ctx) (s : Session) (hs : s.outbound.isSome = true) (origin : Leg)
    (cut : Bool) (hung : List Leg) :
    Safe endMonitor ⟨true, cut, false, hung, []⟩ (handleHangup ctx s origin) fun _ g =>
      g = ⟨true, cut, false, hung, [origin.other]⟩ ∨ g = ⟨true, cut, true, hung, []⟩ := by
  unfold handleHangup
  rw [safe_bind, transition, safe_call]
  rintro (_ | err) _
  swap
  · refine ⟨trivial, safe_pure.mpr (.inr ?_)⟩
    simp [endMonitor, answers, cutsOff, refusesEnd, hangupOf, byeTo]
  refine ⟨trivial, ?_⟩
  have hterminated : ∀ legID g, Safe endMonitor g (do
      let _ ← transition ctx .terminated legID "200" "normal clearing") fun _ g' => g' = g :=
    fun _ g => idle_safe (only_bind (idle_of_among (only_transition_of_ne (by simp)) (by simp))
      fun _ => only_pure) g
  have hbye : ∀ leg, Safe endMonitor ⟨true, cut, false, hung, []⟩ (op (.bye ctx leg)) fun _ g =>
      g = ⟨true, cut, false, hung, [leg]⟩ := by
    intro leg
    rw [safe_call]
    intro r _
    exact ⟨trivial, by simp [endMonitor, answers, cutsOff, refusesEnd, hangupOf, byeTo]⟩
  have hstart : endMonitor.next ⟨true, cut, false, hung, []⟩
      (.transition ctx ⟨.terminating, if origin = .callee then s.call.calleeLeg else s.call.callerLeg,
        "normal clearing", "BYE"⟩) none = ⟨true, cut, false, hung, []⟩ :=
    endMonitor_next_eq _ rfl rfl rfl rfl rfl
  rw [hstart, if_neg (by simp)]
  cases origin with
  | caller =>
    rw [safe_bind, safe_when]
    refine ⟨fun _ => safe_mono (hbye .callee) ?_, fun h => absurd ⟨rfl, hs⟩ h⟩
    rintro _ _ rfl
    rw [safe_bind, safe_when]
    refine ⟨by simp, fun _ => safe_mono (hterminated _ _) ?_⟩
    rintro _ _ rfl
    exact .inl rfl
  | callee =>
    rw [safe_bind, safe_when]
    refine ⟨by simp, fun _ => ?_⟩
    rw [safe_bind, safe_when]
    refine ⟨fun _ => safe_mono (hbye .caller) ?_, by simp⟩
    rintro _ _ rfl
    refine safe_mono (hterminated _ _) ?_
    rintro _ _ rfl
    exact .inl rfl

theorem commandLoop_end (n : ℕ) (s : Session) (hs : s.outbound.isSome = true) :
    Safe endMonitor .talking (commandLoop C n s) fun _ g => Left g := by
  refine safe_loop (I := fun s' g => g = .talking ∧ s'.outbound.isSome = true) (fun s' g hI => ?_) n
    ⟨rfl, hs⟩
  obtain ⟨rfl, hs'⟩ := hI
  -- the end of the process or of the media is taken for a BYE of the caller
  have cutOff : ∀ s' : Session, s'.outbound.isSome = true →
      Safe endMonitor ⟨true, true, false, [], []⟩ (do
        handleHangup .detached s' .caller
        return (.inr s' : Session ⊕ Session)) fun x g =>
          x.elim (fun s' => g = .talking ∧ s'.outbound.isSome = true) fun _ => Left g := by
    intro s' hs'
    refine .bind (handleHangup_end .detached s' hs' .caller true []) ?_
    rintro _ _ (rfl | rfl)
    · exact safe_pure.mpr .cut
    · exact safe_pure.mpr .cutRefused
  unfold loopRound
  rw [safe_bind, safe_call]
  rintro (command | _ | failed) _
  · refine ⟨trivial, ?_⟩
    by_cases hhangup : ∃ origin, command = .hangup origin
    · obtain ⟨origin, rfl⟩ := hhangup
      refine safe_bind.mpr (.bind
        (handleHangup_end .parent s' hs' origin false [origin]) ?_)
      rintro _ _ (rfl | rfl)
      · exact safe_pure.mpr (safe_pure.mpr (.hangup origin))
      · exact safe_pure.mpr (safe_pure.mpr (.hangupRefused origin))
    · have hne : ∀ origin, command ≠ .hangup origin := fun origin h => hhangup ⟨origin, h⟩
      have hstart : endMonitor.next .talking .select (.command command) = .talking := by
        cases command with
        | hangup origin => exact absurd rfl (hne origin)
        | _ => rfl
      have hidle : Only Idle (handleCommand C s' command) :=
        idle_of_among (only_handleCommand_of_ne C s' hne) (by simp [requestKinds])
      rw [hstart]
      refine .bind ((idle_safe hidle _).and_ensures
        (ensures_handleCommand C (.refl s') command)) ?_
      rintro ⟨_ | _, s''⟩ _ ⟨rfl, hsame, hended⟩
      · refine safe_pure.mpr ⟨rfl, ?_⟩
        rw [hsame.outbound]
        exact hs'
      · exact absurd (hended rfl) hhangup
  · exact ⟨trivial, cutOff s' hs'⟩
  · exact ⟨trivial, cutOff _ hs'⟩

/-- No leg is left behind exactly if a cut finds the caller gone, and a refused transition both. -/
theorem Left.torn_iff {g : Ending} (h : Left g) {sent : Leg → Prop} (hung : ∀ leg ∈ g.hung, sent leg) :
    (∀ leg, ¬ sent leg → leg ∈ g.byes) ↔
      (g.cut = true → sent .caller) ∧ (g.refused = true → ∀ leg, sent leg) := by
  have hall : (∀ leg, ¬ sent leg → leg ∈ ([] : List Leg)) ↔ ∀ leg, sent leg := by
    simp only [List.not_mem_nil, imp_false, not_not]
  cases h with
  | hangup origin =>
    have horigin : sent origin := hung origin List.mem_cons_self
    refine ⟨fun _ => ⟨by simp, by simp⟩, fun _ leg hleg => ?_⟩
    rw [List.mem_singleton]
    cases leg <;> cases origin <;> first | rfl | exact absurd horigin hleg
  | hangupRefused origin =>
    rw [hall]
    exact ⟨fun h => ⟨by simp, fun _ => h⟩, fun h => h.2 rfl⟩
  | cut =>
    constructor
    · intro h
      refine ⟨fun _ => ?_, by simp⟩
      by_contra hcaller
      simpa using h .caller hcaller
    · rintro ⟨h, -⟩ leg hleg
      cases leg with
      | caller => exact absurd (h rfl) hleg
      | callee => exact List.mem_cons_self
  | cutRefused =>
    rw [hall]
    exact ⟨fun h => ⟨fun _ => h .caller, fun _ => h⟩, fun h => h.2 rfl⟩

/-! ## The result -/

theorem handleInvite_end (n : ℕ) (invite : Invite) :
    Safe endMonitor .start (handleInvite cfg C n invite) fun _ g =>
      g.answered = true → Left g := by
  have hfinish : ∀ (s : Session) (g : Ending),
      Safe endMonitor g (finish s) fun _ g' => g' = g :=
    fun s g => idle_safe (idle_of_among (only_finish s) (by simp)) g
  unfold handleInvite answerInvite
  refine safe_bind.mpr (.bind (idle_safe (idle_admission ..) _) ?_)
  rintro (_ | ⟨s, actor⟩) _ rfl
  · exact safe_pure.mpr (safe_pure.mpr (by simp [Ending.start]))
  refine .bind (setup_end cfg C n s actor invite) ?_
  rintro ⟨s, _ | _⟩ g ⟨hg, hs⟩
  · refine safe_pure.mpr (safe_mono (hfinish s g) ?_)
    rintro _ _ rfl hanswered
    exact absurd hanswered (by simp [show _ = false from hg])
  · obtain rfl : g = .talking := hg
    refine safe_pure.mpr (.bind (commandLoop_end C n s (hs rfl)) ?_)
    intro s g hleft
    refine safe_mono (hfinish s g) ?_
    rintro _ _ rfl _
    exact hleft

/-- Let `sent` say which legs send a BYE of their own, those whose BYE the session takes up among
them. When a session that has sent the 200 returns, every leg that did not send a BYE has been sent
one, if and only if the process and the media session end before a BYE of the caller is taken up only
if the caller sends one, and the terminating transition is refused only if both legs send one. -/
theorem torn_down_iff (n : ℕ) (invite : Invite) (t : List (Event engineSig))
    (h : Returns (handleInvite cfg C n invite) t ()) (h200 : ∃ ev ∈ t, answers ev = true)
    (sent : Leg → Prop) (hsent : ∀ ev ∈ t, ∀ leg, hangupOf ev = some leg → sent leg) :
    (∀ leg, ¬ sent leg → ∃ ev ∈ t, byeTo ev = some leg) ↔
      (∀ ev ∈ t, cutsOff ev = true → sent .caller) ∧
        ∀ ev ∈ t, refusesEnd ev = true → ∀ leg, sent leg := by
  have hleft := Prog.safe_returns (handleInvite_end cfg C n invite) h fun _ _ => trivial
  rw [endMonitor_run] at hleft
  simp only [Ending.start, Bool.false_or, List.nil_append] at hleft
  replace hleft := hleft (List.any_eq_true.mpr h200)
  have hhung : ∀ leg ∈ t.filterMap hangupOf, sent leg := by
    intro leg hleg
    obtain ⟨ev, hev, hof⟩ := List.mem_filterMap.mp hleg
    exact hsent ev hev leg hof
  have hiff := hleft.torn_iff hhung
  simpa only [List.any_eq_true, List.mem_filterMap, forall_exists_index, and_imp] using hiff

/-! ## The media of a call from Alice to Bob ends -/

/-- Alice calls Bob, who answers; the loop of the session then selects `selected`. -/
def answeredCall (selected : Selected) : List (Event engineSig) × Prog engineSig Unit :=
  Prog.play (succeeding (fun _ => .response bobAnswers) fun _ => selected) 60 0
    (handleInvite smallConfig phoneCodecs 2 aliceInvite)

theorem answeredCall_returns (selected : Selected)
    (h : (answeredCall selected).2.result.isSome = true) :
    Returns (handleInvite smallConfig phoneCodecs 2 aliceInvite) (answeredCall selected).1 () := by
  obtain ⟨res, hres⟩ := Prog.play_returns h
  exact hres

/-- When the media session ends, Alice is left without a BYE. -/
theorem caller_left_behind : ∃ cfg C n invite t, newEngine cfg = .ok () ∧
    Returns (handleInvite cfg C n invite) t () ∧ (∃ ev ∈ t, answers ev = true) ∧
      (∀ ev ∈ t, hangupOf ev = none) ∧ ∀ ev ∈ t, byeTo ev ≠ some .caller := by
  have hreturns := answeredCall_returns (.mediaDone true) (by decide +kernel)
  have hanswered : (answeredCall (.mediaDone true)).1.any answers = true := by decide +kernel
  have hhung : (answeredCall (.mediaDone true)).1.all (fun ev => hangupOf ev = none) = true := by
    decide +kernel
  have hbye : (answeredCall (.mediaDone true)).1.all (fun ev => byeTo ev ≠ some .caller) = true := by
    decide +kernel
  exact ⟨smallConfig, phoneCodecs, 2, aliceInvite, _, by decide, hreturns,
    List.any_eq_true.mp hanswered, by simpa using hhung, by simpa using hbye⟩

/-- When Alice hangs up, Bob is sent a BYE. -/
theorem torn_down_by_alice :
    ∃ ev ∈ (answeredCall (.command (.hangup .caller))).1, byeTo ev = some .callee := by
  have hreturns := answeredCall_returns (.command (.hangup .caller)) (by decide +kernel)
  have hanswered : (answeredCall (.command (.hangup .caller))).1.any answers = true := by
    decide +kernel
  have hhung : (answeredCall (.command (.hangup .caller))).1.all
      (fun ev => hangupOf ev ≠ some .callee) = true := by decide +kernel
  have hcut : (answeredCall (.command (.hangup .caller))).1.all (fun ev => !cutsOff ev) = true := by
    decide +kernel
  have hrefused : (answeredCall (.command (.hangup .caller))).1.all
      (fun ev => !refusesEnd ev) = true := by decide +kernel
  refine (torn_down_iff smallConfig phoneCodecs 2 aliceInvite _ hreturns
    (List.any_eq_true.mp hanswered) (· = .caller) ?_).mpr ⟨?_, ?_⟩ .callee (by simp)
  · intro ev hev leg hleg
    have := List.all_eq_true.mp hhung ev hev
    cases leg with
    | caller => rfl
    | callee => simp [hleg] at this
  · intro ev hev h
    have := List.all_eq_true.mp hcut ev hev
    simp [h] at this
  · intro ev hev h
    have := List.all_eq_true.mp hrefused ev hev
    simp [h] at this

end AixvolinkPbx.B2bua

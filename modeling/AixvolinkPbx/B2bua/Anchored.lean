import AixvolinkPbx.B2bua.Answering

/-!
# The descriptions a caller gets

Media is anchored: a description that reaches the caller should offer the caller-facing addresses of
the media session, never those of the callee. `OnResponse` rewrites the body of a 183 only; the body
of any other provisional response but 100 is relayed as it is. `relayed_anchored` says that this is
the only way around the anchor: as long as the callee puts no description in such a response, every
description relayed in a provisional response or in the 200 was built by `applyMediaAnswer`.

1. `Anchored` says how a body was built, from the events of the run.
2. `anchorMonitor` keeps the events, and is good as long as everything relayed is anchored.
3. A session is `Grounded` once its offer and media are set, and stays so until it is answered.
-/

namespace AixvolinkPbx.B2bua

open Calls (Actor)
open Registration (Binding)
open Sdp (Body Codecs)
open Prog (Safe Only safe_bind safe_call safe_pure safe_mono safe_loop safe_when only_bind only_call
  only_pure Path)

variable (cfg : Config) (C : Codecs) (invite : Invite) (sdp : Body → Prop)

/-! ## Events -/

/-- The body was built for the caller from a response of the callee: it describes the caller-facing
addresses of the session's media and the codecs of the negotiated mapping. -/
def Anchored (t : List (Event engineSig)) (body : Body) : Prop :=
  ∃ media offer response answer mapping sessionID rtp rtcp,
    ⟨.newMedia, some media⟩ ∈ t ∧ Sdp.parseAudio C invite.body = .ok offer ∧
      ⟨.nextResponse, .response response⟩ ∈ t ∧ Sdp.parseAudio C response.body = .ok answer ∧
        Sdp.negotiate offer answer = .ok mapping ∧
          media.localEndpoint .caller = some (rtp, rtcp) ∧ ⟨.now, sessionID⟩ ∈ t ∧
            Sdp.buildAudio C sessionID rtp rtcp (Sdp.codecListForAnswer mapping) answer.direction =
              .ok body

/-- The body relayed to the caller in a provisional response or in a 200. -/
def relayedBody : Event engineSig → Option Body
  | ⟨.respond _ response, _⟩ => if response.status ≤ 200 then some response.body else none
  | _ => none

/-- Every description relayed is anchored; `sdp` tells descriptions from other bodies. -/
def AllAnchored (t : List (Event engineSig)) : Prop :=
  ∀ ev ∈ t, ∀ body, relayedBody ev = some body → body ≠ [] → sdp body → Anchored C invite t body

/-- The body of a provisional response of the callee other than 100 and 183. -/
def ringingBody : Event engineSig → Option Body
  | ⟨.nextResponse, .response response⟩ =>
    if response.isProvisional = true ∧ response.status ≠ 100 ∧ response.status ≠ statusSessionProgress
    then some response.body
    else none
  | _ => none

/-- The callee describes nothing in such a response. -/
def Plain (ev : Event engineSig) : Prop :=
  ∀ body, ringingBody ev = some body → body ≠ [] → ¬ sdp body

def anchorMonitor : Monitor engineSig (List (Event engineSig)) where
  next t e r := t ++ [⟨e, r⟩]
  good := AllAnchored C invite sdp
  admits e r := Plain sdp ⟨e, r⟩

variable {C invite sdp}

theorem anchorMonitor_run (t u : List (Event engineSig)) :
    (anchorMonitor C invite sdp).run t u = t ++ u := Monitor.run_of_keeps (fun _ _ _ => rfl) t u

variable {t : List (Event engineSig)} {body : Body}

theorem Anchored.mono {t' : List (Event engineSig)} (h : Anchored C invite t body) (hle : t ⊆ t') :
    Anchored C invite t' body := by
  obtain ⟨media, offer, response, answer, mapping, sessionID, rtp, rtcp, hmedia, hoffer, hresponse,
    hanswer, hmapping, hlocal, hnow, hbuild⟩ := h
  exact ⟨media, offer, response, answer, mapping, sessionID, rtp, rtcp, hle hmedia, hoffer,
    hle hresponse, hanswer, hmapping, hlocal, hle hnow, hbuild⟩

theorem AllAnchored.snoc {ev : Event engineSig} (h : AllAnchored C invite sdp t)
    (hev : ∀ body, relayedBody ev = some body → body ≠ [] → sdp body → Anchored C invite t body) :
    AllAnchored C invite sdp (t ++ [ev]) := by
  have hle : t ⊆ t ++ [ev] := List.subset_append_left t _
  intro ev' hmem body hbody hne hsdp
  rcases List.mem_append.mp hmem with hmem | hmem
  · exact (h ev' hmem body hbody hne hsdp).mono hle
  · rw [List.mem_singleton] at hmem
    subst hmem
    exact (hev body hbody hne hsdp).mono hle

/-! ## Operations that relay nothing -/

variable (C invite sdp) in
/-- The events go on, and still everything relayed is anchored. -/
def Later (t t' : List (Event engineSig)) : Prop := t ⊆ t' ∧ AllAnchored C invite sdp t'

theorem Later.trans {t' t'' : List (Event engineSig)} (h : Later C invite sdp t t')
    (h' : Later C invite sdp t' t'') : Later C invite sdp t t'' :=
  ⟨List.Subset.trans h.1 h'.1, h'.2⟩

theorem AllAnchored.later (h : AllAnchored C invite sdp t) :
    Later C invite sdp t t := ⟨List.Subset.refl t, h⟩

def Quiet (e : EngineOp) : Prop := ∀ r body, relayedBody ⟨e, r⟩ = some body → body = []

theorem quiet_of_kind {e : EngineOp} (h : kind e ≠ .respond) : Quiet e := by
  intro r body hbody
  cases e <;> first | exact absurd rfl h | cases hbody

variable {headers : List Header} {reason : String}

theorem quiet_respond {via : Via} {status : ℕ} (h : body = [] ∨ 200 < status) :
    Quiet (.respond via ⟨status, reason, body, headers⟩) := by
  intro r relayed hrelayed
  simp only [relayedBody] at hrelayed
  split_ifs at hrelayed with hstatus
  rcases h with rfl | h
  · exact (Option.some.inj hrelayed).symm
  · omega

variable {α : Type}

theorem quiet_of_among {kinds : List Kind} {p : Prog engineSig α} (h : Only (Among kinds) p)
    (hkinds : .respond ∉ kinds) : Only Quiet p :=
  h.mono fun _ he => quiet_of_kind fun heq => hkinds (heq ▸ he)

theorem quiet_safe {p : Prog engineSig α} (h : Only Quiet p) (ht : AllAnchored C invite sdp t) :
    Safe (anchorMonitor C invite sdp) t p fun _ t' => Later C invite sdp t t' := by
  refine h.safe_inv (I := Later C invite sdp t) ht.later ?_
  rintro t' e r ⟨hle, hgood⟩ he _
  have hsnoc : AllAnchored C invite sdp (t' ++ [⟨e, r⟩]) :=
    hgood.snoc fun body hbody hne _ => absurd (he r body hbody) hne
  exact ⟨hsnoc, List.Subset.trans hle (List.subset_append_left t' _), hsnoc⟩

theorem quiet_op_safe {e : EngineOp} (he : Quiet e) (ht : AllAnchored C invite sdp t) :
    Safe (anchorMonitor C invite sdp) t (op e) fun r t' =>
      Later C invite sdp t t' ∧ ⟨e, r⟩ ∈ t' ∧ Plain sdp ⟨e, r⟩ := by
  rw [safe_call]
  intro r hr
  have hsnoc : AllAnchored C invite sdp (t ++ [⟨e, r⟩]) :=
    ht.snoc fun body hbody hne _ => absurd (he r body hbody) hne
  exact ⟨hsnoc, ⟨List.subset_append_left t _, hsnoc⟩, List.mem_append_right t List.mem_cons_self,
    hr⟩

theorem respond_safe {status : ℕ} (ht : AllAnchored C invite sdp t)
    (hbody : body ≠ [] → sdp body → Anchored C invite t body) :
    Safe (anchorMonitor C invite sdp) t (respond status reason body headers) fun _ t' =>
      Later C invite sdp t t' := by
  rw [respond, safe_call]
  intro r _
  have hsnoc : AllAnchored C invite sdp
      (t ++ [⟨.respond .dialog ⟨status, reason, body, headers⟩, r⟩]) := by
    refine ht.snoc fun relayed hrelayed hne hsdp => ?_
    simp only [relayedBody] at hrelayed
    split_ifs at hrelayed
    cases hrelayed
    exact hbody hne hsdp
  exact ⟨hsnoc, List.subset_append_left t _, hsnoc⟩

theorem only_quiet_fail (s : Session) (reason protocolEvent : String) :
    Only Quiet (fail s reason protocolEvent) :=
  quiet_of_among (only_fail ..) (by simp)

theorem fail_anchored {s : Session} {text protocolEvent : String} {a : α}
    (ht : AllAnchored C invite sdp t) :
    Safe (anchorMonitor C invite sdp) t (do
      fail s text protocolEvent
      return a) fun a' t' => a' = a ∧ Later C invite sdp t t' := by
  refine .bind (quiet_safe (only_quiet_fail ..) ht) ?_
  intro _ t' hlater
  exact safe_pure.mpr ⟨rfl, hlater⟩

theorem refuse_anchored {status : ℕ} {s : Session} {text protocolEvent : String} {a : α}
    (h : body = [] ∨ 200 < status) (ht : AllAnchored C invite sdp t) :
    Safe (anchorMonitor C invite sdp) t (do
      let _ ← respond status reason body headers
      fail s text protocolEvent
      return a) fun a' t' => a' = a ∧ Later C invite sdp t t' := by
  refine .bind (quiet_op_safe (quiet_respond h) ht) ?_
  rintro _ t₁ ⟨h₁, -, -⟩
  refine safe_mono (fail_anchored h₁.2) ?_
  rintro _ t₂ ⟨rfl, h₂⟩
  exact ⟨rfl, h₁.trans h₂⟩

/-! ## Media answers -/

variable (C invite) in
/-- The session has the offer of the INVITE and its media, and its answer so far is anchored. -/
structure Grounded (s : Session) (t : List (Event engineSig)) : Prop where
  offer : Sdp.parseAudio C invite.body = .ok s.callerOffer
  media : ∃ media, s.media = some media ∧ ⟨.newMedia, some media⟩ ∈ t
  answer : s.callerAnswer ≠ [] → Anchored C invite t s.callerAnswer

theorem Grounded.mono {s : Session} {t' : List (Event engineSig)} (h : Grounded C invite s t)
    (hle : t ⊆ t') : Grounded C invite s t' := by
  obtain ⟨media, hmedia, hnew⟩ := h.media
  exact ⟨h.offer, ⟨media, hmedia, hle hnew⟩, fun hne => (h.answer hne).mono hle⟩

theorem startMedia_safe (s : Session) (ht : AllAnchored C invite sdp t)
    (hs : Grounded C invite s t) :
    Safe (anchorMonitor C invite sdp) t (startMedia s) fun s' t' =>
      Later C invite sdp t t' ∧ Grounded C invite s' t' := by
  unfold startMedia
  split_ifs
  · exact safe_pure.mpr ⟨ht.later, hs⟩
  · refine .bind (quiet_op_safe (quiet_of_kind (by decide)) ht) ?_
    rintro _ t' ⟨hlater, -, -⟩
    have hs' := hs.mono hlater.1
    exact safe_pure.mpr ⟨hlater, hs'.offer, hs'.media, hs'.answer⟩

theorem applyMediaAnswer_anchored (s : Session) (response : Response)
    (ht : AllAnchored C invite sdp t) (hs : Grounded C invite s t)
    (hresponse : ⟨.nextResponse, .response response⟩ ∈ t) :
    Safe (anchorMonitor C invite sdp) t (applyMediaAnswer C s response.body) fun res t' =>
      Later C invite sdp t t' ∧ Grounded C invite res.2 t' ∧
        ∀ body, res.1 = .ok body → Anchored C invite t' body := by
  unfold applyMediaAnswer
  split
  · exact safe_pure.mpr ⟨ht.later, hs, by simp⟩
  next calleeAnswer hanswer =>
  split
  · exact safe_pure.mpr ⟨ht.later, hs, by simp⟩
  next mapping hmapping =>
  split_ifs
  · exact safe_pure.mpr ⟨ht.later, hs, by simp⟩
  refine .bind (quiet_safe (quiet_of_among (only_configure ..) (by simp)) ht) ?_
  rintro (_ | err) t₁ h₁
  swap
  · exact safe_pure.mpr ⟨h₁, hs.mono h₁.1, by simp⟩
  have hs₁ := hs.mono h₁.1
  dsimp only
  split
  · exact safe_pure.mpr ⟨h₁, ⟨hs₁.offer, hs₁.media, hs₁.answer⟩, by simp⟩
  next callerRTP callerRTCP hlocal =>
  refine .bind (quiet_op_safe (quiet_of_kind (by decide)) h₁.2) ?_
  rintro sessionID t₂ ⟨h₂, hnow, -⟩
  have hs₂ := hs₁.mono h₂.1
  split
  · exact safe_pure.mpr ⟨h₁.trans h₂, ⟨hs₂.offer, hs₂.media, hs₂.answer⟩, by simp⟩
  next built hbuild =>
  obtain ⟨media, hmedia, hnew⟩ := hs₂.media
  have hlocal : media.localEndpoint .caller = some (callerRTP, callerRTCP) := by
    simpa [localEndpoint, hmedia] using hlocal
  have hanchored : Anchored C invite t₂ built :=
    ⟨media, s.callerOffer, response, calleeAnswer, mapping, sessionID, callerRTP, callerRTCP, hnew,
      hs.offer, (h₁.trans h₂).1 hresponse, hanswer, hmapping, hlocal, hnow, hbuild⟩
  refine .bind (startMedia_safe _ h₂.2
    ⟨hs₂.offer, hs₂.media, fun _ => hanchored⟩) ?_
  rintro s' t₃ ⟨h₃, hs'⟩
  refine safe_pure.mpr ⟨h₁.trans (h₂.trans h₃), hs', ?_⟩
  rintro body ⟨rfl⟩
  exact hanchored.mono h₃.1

/-! ## The parts of the setup -/

theorem prepare_anchored (s : Session) (hs : s.callerAnswer = [])
    (ht : AllAnchored C invite sdp t) :
    Safe (anchorMonitor C invite sdp) t (prepare cfg C s invite) fun res t' =>
      Later C invite sdp t t' ∧ (res.2.isSome = true → Grounded C invite res.1 t') := by
  have refused : ∀ {status : ℕ} {reason text protocolEvent : String} {s : Session}
      {t' : List (Event engineSig)}, Later C invite sdp t t' →
      Safe (anchorMonitor C invite sdp) t' (do
        let _ ← respond status reason [] []
        fail s text protocolEvent
        return (s, (none : Option (Binding × Body)))) fun res t'' =>
          Later C invite sdp t t'' ∧ (res.2.isSome = true → Grounded C invite res.1 t'') := by
    intro status reason text protocolEvent s t' hlater
    refine safe_mono (refuse_anchored (.inl rfl) hlater.2) ?_
    rintro _ t'' ⟨rfl, hlater'⟩
    exact ⟨hlater.trans hlater', by simp⟩
  unfold prepare
  refine .bind (quiet_safe (quiet_of_among (only_transition ..) (by simp)) ht) ?_
  rintro (_ | err) t₁ h₁
  swap
  · exact safe_pure.mpr ⟨h₁, by simp⟩
  refine .bind (quiet_op_safe (quiet_respond (.inl rfl)) h₁.2) ?_
  rintro (_ | _) t₂ ⟨h₂, -, -⟩
  · refine safe_mono (fail_anchored h₂.2) ?_
    rintro _ t₃ ⟨rfl, h₃⟩
    exact ⟨h₁.trans (h₂.trans h₃), by simp⟩
  replace h₂ := h₁.trans h₂
  dsimp only
  rw [if_neg (by simp)]
  refine .bind (quiet_op_safe (quiet_of_kind (of_decide_eq_true rfl)) h₂.2) ?_
  rintro (_ | binding) t₃ ⟨h₃, -, -⟩
  · exact refused (h₂.trans h₃)
  replace h₃ := h₂.trans h₃
  dsimp only
  split
  · exact refused h₃
  next callerOffer hoffer =>
  refine .bind (quiet_op_safe (quiet_of_kind (by decide)) h₃.2) ?_
  rintro (_ | media) t₄ ⟨h₄, hmedia, -⟩
  · exact refused (h₃.trans h₄)
  replace h₄ := h₃.trans h₄
  dsimp only
  split
  · exact refused h₄
  refine .bind (quiet_op_safe (quiet_of_kind (by decide)) h₄.2) ?_
  rintro sessionID t₅ ⟨h₅, -, -⟩
  split
  · exact refused (h₄.trans h₅)
  · refine safe_pure.mpr ⟨h₄.trans h₅, fun _ => ⟨hoffer, ⟨media, rfl, h₅.1 hmedia⟩, ?_⟩⟩
    exact fun hne => absurd hs hne

/-- `OnResponse` on a response of the callee relays an anchored body, or one that the callee may
put there. -/
theorem onResponse_anchored (s : Session) (response : Response) (ht : AllAnchored C invite sdp t)
    (hs : Grounded C invite s t) (hresponse : ⟨.nextResponse, .response response⟩ ∈ t)
    (hplain : Plain sdp ⟨.nextResponse, .response response⟩) :
    Safe (anchorMonitor C invite sdp) t (onResponse C s response) fun res t' =>
      Later C invite sdp t t' ∧ Grounded C invite res.2 t' ∧ ∀ r, res.1 ≠ some (.rejected r) := by
  have relay : ∀ (s : Session) (body : Body) (headers : List Header) {t' : List (Event engineSig)},
      Later C invite sdp t t' → Grounded C invite s t' →
      (body ≠ [] → sdp body → Anchored C invite t' body) →
      Safe (anchorMonitor C invite sdp) t' (do
        if ← respond response.status response.reason body headers then
          return ((none : Option WaitError), s)
        else return (some .respond, s)) fun res t'' =>
          Later C invite sdp t t'' ∧ Grounded C invite res.2 t'' ∧
            ∀ r, res.1 ≠ some (.rejected r) := by
    intro s body headers t' hlater hs hbody
    refine .bind (respond_safe hlater.2 hbody) ?_
    rintro (_ | _) t'' hlater'
    · exact safe_pure.mpr ⟨hlater.trans hlater', hs.mono hlater'.1, by simp⟩
    · exact safe_pure.mpr ⟨hlater.trans hlater', hs.mono hlater'.1, by simp⟩
  unfold onResponse
  split
  · exact safe_pure.mpr ⟨ht.later, hs, by simp⟩
  next hskip =>
  obtain ⟨hprov, htrying⟩ : response.isProvisional = true ∧ response.status ≠ 100 := by
    simpa using hskip
  dsimp only
  split
  · refine .bind (applyMediaAnswer_anchored s response ht hs hresponse) ?_
    rintro ⟨_ | body, s⟩ t₁ ⟨h₁, hs, hanchored⟩
    · exact safe_pure.mpr ⟨h₁, hs, by simp⟩
    refine .bind
      (quiet_safe (quiet_of_among (only_transition ..) (by simp)) h₁.2) ?_
    rintro (_ | err) t₂ h₂
    · exact relay s body _ (h₁.trans h₂) (hs.mono h₂.1) fun _ _ => (hanchored body rfl).mono h₂.1
    · exact safe_pure.mpr ⟨h₁.trans h₂, hs.mono h₂.1, by simp⟩
  next hearly =>
    have hring : Only Quiet (ring s response) := by
      unfold ring
      split
      · exact quiet_of_among (only_transition ..) (by simp)
      · exact only_pure
    refine .bind (quiet_safe hring ht) ?_
    rintro (_ | err) t₁ h₁
    · refine relay s _ _ h₁ (hs.mono h₁.1) fun hne hsdp => ?_
      -- a 183 with a body is early media, and no other response may carry a description
      have hstatus : response.status ≠ statusSessionProgress := fun h => hearly ⟨h, hne⟩
      exact absurd hsdp (hplain _ (if_pos ⟨hprov, htrying, hstatus⟩) hne)
    · exact safe_pure.mpr ⟨h₁, hs.mono h₁.1, by simp⟩

theorem waitAnswer_anchored (n : ℕ) (s : Session) (ht : AllAnchored C invite sdp t)
    (hs : Grounded C invite s t) :
    Safe (anchorMonitor C invite sdp) t (waitAnswer C n s) fun res t' =>
      Later C invite sdp t t' ∧ Grounded C invite res.2 t' ∧
        (∀ r, res.1 = .ok r → ⟨.nextResponse, .response r⟩ ∈ t') ∧
        ∀ r, res.1 = .error (.rejected r) → 200 < r.status := by
  refine safe_loop (I := fun s t' => Later C invite sdp t t' ∧ Grounded C invite s t')
    (fun s t' hI => ?_) n ⟨ht.later, hs⟩
  obtain ⟨hlater, hs⟩ := hI
  unfold waitRound
  refine .bind (quiet_op_safe (quiet_of_kind (by decide)) hlater.2) ?_
  rintro (response | cause) t₁ ⟨h₁, hresponse, hplain⟩
  swap
  · exact safe_pure.mpr ⟨hlater.trans h₁, hs.mono h₁.1, by simp, by simp⟩
  refine .bind
    (onResponse_anchored s response h₁.2 (hs.mono h₁.1) hresponse hplain) ?_
  rintro ⟨err, s⟩ t₂ ⟨h₂, hs, herr⟩
  have hlater := hlater.trans (h₁.trans h₂)
  cases err with
  | some err =>
    refine safe_pure.mpr ⟨hlater, hs, by simp, ?_⟩
    rintro r ⟨rfl⟩
    exact absurd rfl (herr r)
  | none =>
    dsimp only
    split_ifs with hsuccess hprov
    · refine safe_pure.mpr ⟨hlater, hs, ?_, by simp⟩
      rintro _ ⟨rfl⟩
      exact h₂.1 hresponse
    · exact safe_pure.mpr ⟨hlater, hs⟩
    · refine safe_pure.mpr ⟨hlater, hs, by simp, ?_⟩
      rintro _ ⟨rfl⟩
      simp only [Response.isSuccess, Response.isProvisional, Bool.and_eq_true,
        decide_eq_true_eq] at hsuccess hprov
      omega

theorem dial_anchored (n : ℕ) (s : Session) (binding : Binding) (offer : Body)
    (ht : AllAnchored C invite sdp t) (hs : Grounded C invite s t) :
    Safe (anchorMonitor C invite sdp) t (dial C n s binding offer) fun res t' =>
      Later C invite sdp t t' ∧ ∀ r, res.2 = some r →
        Grounded C invite res.1 t' ∧ ⟨.nextResponse, .response r⟩ ∈ t' := by
  have refused : ∀ {status : ℕ} {reason text protocolEvent : String} {body : Body} {s : Session}
      {t' : List (Event engineSig)}, body = [] ∨ 200 < status → Later C invite sdp t t' →
      Safe (anchorMonitor C invite sdp) t' (do
        let _ ← respond status reason body []
        fail s text protocolEvent
        return (s, (none : Option Response))) fun res t'' =>
          Later C invite sdp t t'' ∧ ∀ r, res.2 = some r →
            Grounded C invite res.1 t'' ∧ ⟨.nextResponse, .response r⟩ ∈ t'' := by
    intro status reason text protocolEvent body s t' h hlater
    refine safe_mono (refuse_anchored h hlater.2) ?_
    rintro _ t'' ⟨rfl, hlater'⟩
    exact ⟨hlater.trans hlater', by simp⟩
  unfold dial
  refine .bind (quiet_op_safe (quiet_of_kind (of_decide_eq_true rfl)) ht) ?_
  rintro (_ | outbound) t₁ ⟨h₁, -, -⟩
  · exact refused (.inl rfl) h₁
  have hs₁ := hs.mono h₁.1
  refine .bind (waitAnswer_anchored n _ h₁.2
    ⟨hs₁.offer, hs₁.media, hs₁.answer⟩) ?_
  rintro ⟨err | response, s⟩ t₂ ⟨h₂, hs, hok, hrejected⟩
  · replace h₂ := h₁.trans h₂
    have silent : Safe (anchorMonitor C invite sdp) t₂ (do
        fail s "outbound invite canceled or timed out" "CANCEL"
        return (s, (none : Option Response))) fun res t' =>
          Later C invite sdp t t' ∧ ∀ r, res.2 = some r →
            Grounded C invite res.1 t' ∧ ⟨.nextResponse, .response r⟩ ∈ t' := by
      refine safe_mono (fail_anchored h₂.2) ?_
      rintro _ t₃ ⟨rfl, h₃⟩
      exact ⟨h₂.trans h₃, by simp⟩
    cases err with
    | rejected response => exact refused (.inr (hrejected response rfl)) h₂
    | mediaNegotiation err => exact refused (.inl rfl) h₂
    | failed cause => exact silent
    | transition err => exact silent
    | respond => exact silent
  · refine safe_pure.mpr ⟨h₁.trans h₂, ?_⟩
    rintro _ ⟨rfl⟩
    exact ⟨hs, hok response rfl⟩

theorem only_quiet_bye (ctx : Ctx) (leg : Leg) : Only Quiet (op (.bye ctx leg)) :=
  only_call.mpr (quiet_of_kind (of_decide_eq_true rfl))

theorem only_quiet_rejectAnswer (s : Session) (reason : String) : Only Quiet (rejectAnswer s reason) :=
  only_bind (only_call.mpr (quiet_of_kind (by decide))) fun _ =>
    only_bind (only_quiet_bye ..) fun _ =>
      only_bind (only_call.mpr (quiet_respond (.inl rfl))) fun _ => only_quiet_fail ..

theorem answerMedia_anchored (s : Session) (response : Response) (ht : AllAnchored C invite sdp t)
    (hs : Grounded C invite s t) (hresponse : ⟨.nextResponse, .response response⟩ ∈ t) :
    Safe (anchorMonitor C invite sdp) t (answerMedia C s response) fun res t' =>
      Later C invite sdp t t' ∧ Grounded C invite res.2 t' := by
  unfold answerMedia
  split
  · exact safe_pure.mpr ⟨ht.later, hs⟩
  · refine .bind (applyMediaAnswer_anchored s response ht hs hresponse) ?_
    rintro ⟨res, s⟩ t' ⟨hlater, hs, -⟩
    exact safe_pure.mpr ⟨hlater, hs⟩

/-- The answer relayed in the 200 is the one the session has kept. -/
theorem answer_anchored (s : Session) (response : Response) (ht : AllAnchored C invite sdp t)
    (hs : Grounded C invite s t) (hresponse : ⟨.nextResponse, .response response⟩ ∈ t) :
    Safe (anchorMonitor C invite sdp) t (answer C s response) fun _ t' =>
      AllAnchored C invite sdp t' := by
  have quiet : ∀ {p : Prog engineSig (Session × Bool)} {t' : List (Event engineSig)}, Only Quiet p →
      AllAnchored C invite sdp t' →
      Safe (anchorMonitor C invite sdp) t' p fun _ t'' => AllAnchored C invite sdp t'' :=
    fun hp ht' => safe_mono (quiet_safe hp ht') fun _ _ h => h.2
  unfold answer
  refine .bind (answerMedia_anchored s response ht hs hresponse) ?_
  rintro ⟨negotiated, s⟩ t₁ ⟨⟨-, h₁⟩, hs⟩
  dsimp only
  split_ifs
  · exact quiet (only_bind (only_quiet_rejectAnswer ..) fun _ => only_pure) h₁
  · exact quiet (only_bind (only_quiet_rejectAnswer ..) fun _ => only_pure) h₁
  refine .bind (quiet_op_safe (quiet_of_kind (by decide)) h₁) ?_
  rintro (_ | _) t₂ ⟨h₂, -, -⟩
  · exact safe_mono (refuse_anchored (.inl rfl) h₂.2) fun _ _ h => h.2.2
  refine .bind (quiet_op_safe (quiet_of_kind (of_decide_eq_true rfl)) h₂.2) ?_
  rintro _ t₃ ⟨h₃, -, -⟩
  replace h₃ := h₂.trans h₃
  refine .bind
    (quiet_safe (quiet_of_among (only_transition ..) (by simp)) h₃.2) ?_
  rintro (_ | err) t₄ h₄
  swap
  · exact quiet (only_bind (only_quiet_bye ..) fun _ => only_pure) h₄.2
  replace h₄ := h₃.trans h₄
  refine .bind (respond_safe h₄.2 fun hne _ => (hs.mono h₄.1).answer hne) ?_
  rintro (_ | _) t₅ h₅
  · refine quiet (only_bind (only_quiet_bye ..) fun _ => only_bind ?_ fun _ => only_pure) h₅.2
    exact quiet_of_among (only_terminate ..) (by simp)
  · exact safe_pure.mpr h₅.2

/-! ## Admission -/

theorem only_quiet_reject (status : ℕ) (reason : String) (headers : List Header) :
    Only Quiet (reject status reason headers) :=
  only_bind (only_call.mpr (quiet_respond (.inl rfl))) fun _ => only_pure

theorem only_quiet_release : Only Quiet release := quiet_of_among only_release (by simp)

/-- The admission relays no body, and opens a session that has no answer yet. -/
theorem openSession_anchored (ht : AllAnchored C invite sdp t) :
    Safe (anchorMonitor C invite sdp) t (openSession cfg) fun res t' =>
      AllAnchored C invite sdp t' ∧ ∀ s actor, res = some (s, actor) → s.callerAnswer = [] := by
  have refused : ∀ {β : Type} {p : Prog engineSig β} {t' : List (Event engineSig)}, Only Quiet p →
      AllAnchored C invite sdp t' → Safe (anchorMonitor C invite sdp) t' (do
        release
        let _ ← p
        return (none : Option (Session × Actor))) fun res t'' =>
          AllAnchored C invite sdp t'' ∧ ∀ s actor, res = some (s, actor) → s.callerAnswer = [] := by
    intro β p t' hp ht'
    refine .bind (quiet_safe only_quiet_release ht') ?_
    intro _ t₁ h₁
    refine .bind (quiet_safe hp h₁.2) ?_
    intro _ t₂ h₂
    exact safe_pure.mpr ⟨h₂.2, by simp⟩
  unfold openSession
  refine .bind (quiet_op_safe (quiet_of_kind (by decide)) ht) ?_
  rintro (_ | inbound) t₁ ⟨h₁, -, -⟩
  · exact refused (only_quiet_reject ..) h₁.2
  refine .bind (quiet_op_safe (quiet_of_kind (of_decide_eq_true rfl)) h₁.2) ?_
  rintro (_ | current) t₂ ⟨h₂, -, -⟩
  · exact refused (only_call.mpr (quiet_respond (.inl rfl))) h₂.2
  dsimp only
  split
  · exact refused (only_call.mpr (quiet_respond (.inl rfl))) h₂.2
  · refine .bind (quiet_op_safe (quiet_of_kind (of_decide_eq_true rfl)) h₂.2) ?_
    rintro _ t₃ ⟨h₃, -, -⟩
    refine safe_pure.mpr ⟨h₃.2, ?_⟩
    rintro _ _ ⟨rfl, rfl⟩
    rfl

theorem admission_anchored (ht : AllAnchored C invite sdp t) :
    Safe (anchorMonitor C invite sdp) t (admission cfg invite) fun res t' =>
      AllAnchored C invite sdp t' ∧ ∀ s actor, res = some (s, actor) → s.callerAnswer = [] := by
  have refused : ∀ {p : Prog engineSig Unit} {t' : List (Event engineSig)}, Only Quiet p →
      AllAnchored C invite sdp t' → Safe (anchorMonitor C invite sdp) t' (do
        p
        return (none : Option (Session × Actor))) fun res t'' =>
          AllAnchored C invite sdp t'' ∧ ∀ s actor, res = some (s, actor) → s.callerAnswer = [] := by
    intro p t' hp ht'
    refine .bind (quiet_safe hp ht') ?_
    intro _ t'' h
    exact safe_pure.mpr ⟨h.2, by simp⟩
  unfold admission
  refine .bind (quiet_op_safe (quiet_of_kind (by decide)) ht) ?_
  rintro (_ | _) t₁ ⟨h₁, -, -⟩
  · exact refused (only_quiet_reject ..) h₁.2
  dsimp only
  rw [if_neg (by simp)]
  split
  · refine .bind (quiet_safe only_quiet_release h₁.2) ?_
    intro _ t₂ h₂
    exact refused (only_quiet_reject ..) h₂.2
  refine .bind
    (quiet_safe (quiet_of_among (only_sourceIsRegistered ..) (by simp)) h₁.2) ?_
  intro registered t₂ h₂
  split
  · refine .bind (quiet_safe only_quiet_release h₂.2) ?_
    intro _ t₃ h₃
    exact refused (only_quiet_reject ..) h₃.2
  · exact openSession_anchored cfg h₂.2

/-! ## The result -/

theorem setup_anchored (n : ℕ) (s : Session) (hs : s.callerAnswer = []) (actor : Actor)
    (ht : AllAnchored C invite sdp t) :
    Safe (anchorMonitor C invite sdp) t (setup cfg C n s actor invite) fun _ t' =>
      AllAnchored C invite sdp t' := by
  unfold setup
  refine .bind (quiet_op_safe (quiet_of_kind (of_decide_eq_true rfl)) ht) ?_
  rintro _ t₁ ⟨h₁, -, -⟩
  refine .bind (prepare_anchored cfg s hs h₁.2) ?_
  rintro ⟨s, _ | ⟨binding, offer⟩⟩ t₂ ⟨h₂, hs⟩
  · exact safe_pure.mpr h₂.2
  refine .bind (dial_anchored n s binding offer h₂.2 (hs rfl)) ?_
  rintro ⟨s, _ | response⟩ t₃ ⟨h₃, hs⟩
  · exact safe_pure.mpr h₃.2
  obtain ⟨hs, hresponse⟩ := hs response rfl
  exact answer_anchored s response h₃.2 hs hresponse

variable (C invite sdp) in
theorem handleInvite_anchored (n : ℕ) :
    Safe (anchorMonitor C invite sdp) [] (handleInvite cfg C n invite) fun _ _ => True := by
  have hnil : AllAnchored C invite sdp [] := by simp [AllAnchored]
  unfold handleInvite answerInvite
  have hserve : ∀ (res : Option (Session × Bool)) {t : List (Event engineSig)},
      AllAnchored C invite sdp t →
      Safe (anchorMonitor C invite sdp) t (serve C n res) fun _ _ => True := by
    intro res t ht
    refine safe_mono (quiet_safe (quiet_of_among (only_serve C n res) ?_) ht) fun _ _ _ => trivial
    simp [commandKinds, requestKinds]
  refine safe_bind.mpr (.bind (admission_anchored cfg hnil) ?_)
  rintro (_ | ⟨s, actor⟩) t₁ ⟨h₁, hs⟩
  · exact safe_pure.mpr (hserve none h₁)
  refine .bind (setup_anchored cfg n s (hs s actor rfl) actor h₁) ?_
  intro res t₂ h₂
  exact safe_pure.mpr (hserve _ h₂)

/-- In every run in which the callee puts no description into a provisional response other than 100
and 183, every description relayed to the caller in a provisional response or a 200 was built by
`applyMediaAnswer` for the session's media. -/
theorem relayed_anchored (C : Codecs) (invite : Invite) (sdp : Body → Prop) (n : ℕ)
    (t : List (Event engineSig)) (q : Prog engineSig Unit)
    (h : Path (handleInvite cfg C n invite) t q) (hplain : ∀ ev ∈ t, Plain sdp ev) :
    ∀ ev ∈ t, ∀ body, relayedBody ev = some body → body ≠ [] → sdp body →
      Anchored C invite t body := by
  have hgood := Prog.good_of_path (handleInvite_anchored cfg C invite sdp n)
    (by simp [anchorMonitor, AllAnchored]) h hplain
  rw [anchorMonitor_run] at hgood
  exact hgood

/-! ## Bob's phone describes itself while it rings -/

def bobRings (body : Body) : Response := ⟨180, "Ringing", body, []⟩

/-- Alice calls Bob, whose phone rings with a body and answers. -/
def ringingCall (body : Body) : List (Event engineSig) × Prog engineSig Unit :=
  Prog.play (succeeding (fun i => .response (if i < 13 then bobRings body else bobAnswers))
    fun _ => .parentDone) 60 0 (handleInvite smallConfig phoneCodecs 2 aliceInvite)

theorem ascii_lines (d : Sdp.SessionDescription) :
    ∃ rest, Sdp.ascii (Sdp.lines d) = Sdp.ascii ["v=0\r\n", "o=", d.origin.username] ++ rest :=
  ⟨Sdp.ascii ((Sdp.lines d).drop 3), by simp [Sdp.ascii, Sdp.lines]⟩

/-- What the engine builds is not what a phone sends: the users of their origins differ. -/
theorem buildAudio_ne_phoneBody (sessionID : ℤ) (rtp rtcp : AddrPort) (codecs : List Sdp.Codec)
    (direction : Sdp.Direction) (h : BitVec 32) (port : ℤ) :
    Sdp.buildAudio phoneCodecs sessionID rtp rtcp codecs direction ≠ .ok (phoneBody h port) := by
  intro hbuild
  unfold Sdp.buildAudio at hbuild
  split_ifs at hbuild
  obtain ⟨built, hbuilt⟩ := ascii_lines
    (Sdp.describe phoneCodecs sessionID rtp rtcp codecs direction)
  obtain ⟨phone, hphone⟩ := ascii_lines (phoneDescription h port)
  have heq : Sdp.ascii ["v=0\r\n", "o=", "aixvolinkpbx"] ++ built =
      Sdp.ascii ["v=0\r\n", "o=", "-"] ++ phone :=
    hbuilt.symm.trans ((Except.ok.inj hbuild).trans hphone)
  have h8 : (Sdp.ascii ["v=0\r\n", "o=", "aixvolinkpbx"] ++ built)[7]? =
      (Sdp.ascii ["v=0\r\n", "o=", "-"] ++ phone)[7]? := by rw [heq]
  rw [List.getElem?_append_left (by decide), List.getElem?_append_left (by decide)] at h8
  exact absurd h8 (by decide)

/-- Bob's description of himself, in a 180, reaches Alice. -/
theorem callee_body_relayed : ∃ cfg C n invite t q, newEngine cfg = .ok () ∧
    Path (handleInvite cfg C n invite) t q ∧ ∃ ev ∈ t, ∃ body endpoint,
      relayedBody ev = some body ∧ Sdp.parseAudio C body = .ok endpoint ∧
        endpoint.rtp = ⟨.v4 0x0A000002, 5000⟩ ∧ ¬ Anchored C invite t body := by
  have hrelayed : (ringingCall (phoneBody 2 5000)).1.any
      (fun ev => relayedBody ev = some (phoneBody 2 5000)) = true := by decide +kernel
  obtain ⟨ev, hev, hbody⟩ := List.any_eq_true.mp hrelayed
  have hparse : Sdp.parseAudio phoneCodecs (phoneBody 2 5000) = .ok
      ⟨⟨.v4 0x0A000002, 5000⟩, ⟨.v4 0x0A000002, 5001⟩, .sendRecv, [⟨"PCMU", 0, 8000⟩]⟩ := by
      rfl
  refine ⟨smallConfig, phoneCodecs, 2, aliceInvite, _, _, by decide, Prog.play_path _ 60 0 _, ev, hev,
    phoneBody 2 5000, _, by simpa using hbody, hparse, rfl, ?_⟩
  rintro ⟨_, _, _, _, _, _, _, _, _, _, _, _, _, _, _, hbuild⟩
  exact buildAudio_ne_phoneBody _ _ _ _ _ 2 5000 hbuild

/-- When Bob's phone rings without a body, what Alice gets with the 200 is anchored. -/
theorem relayed_anchored_bob : ∃ ev ∈ (ringingCall []).1, ∃ body, relayedBody ev = some body ∧
    body ≠ [] ∧ Anchored phoneCodecs aliceInvite (ringingCall []).1 body := by
  have hplain : (ringingCall []).1.all (fun ev => (ringingBody ev).getD [] = []) = true := by
    decide +kernel
  have hrelayed : (ringingCall []).1.any (fun ev => (relayedBody ev).getD [] ≠ []) = true := by
    decide +kernel
  obtain ⟨ev, hev, hbody⟩ := List.any_eq_true.mp hrelayed
  cases hrelays : relayedBody ev with
  | none => simp [hrelays] at hbody
  | some body =>
    have hne : body ≠ [] := by simpa [hrelays] using hbody
    refine ⟨ev, hev, body, hrelays, hne, relayed_anchored smallConfig phoneCodecs aliceInvite
      (fun _ => True) 2 _ _ (Prog.play_path _ 60 0 _) ?_ ev hev body hrelays hne trivial⟩
    intro ev hev body hbody hne
    have := List.all_eq_true.mp hplain ev hev
    simp [hbody, hne] at this

end AixvolinkPbx.B2bua

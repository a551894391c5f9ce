import AixvolinkPbx.B2bua.Answering
import AixvolinkPbx.Lib.Interleave
import AixvolinkPbx.Lib.Table
import Mathlib.Data.List.Induction

/-!
# Admission accounting of the engine

Any number of INVITE handlers run on one engine, their operations interleaved in any order, together
with calls of `Wait`. A handler that has reserved a slot gives it back exactly once, in `release` or in
`remove`, and completes the wait group exactly once; so the counter is the number of handlers that owe a
slot, and the session maps hold sessions of such handlers only.

1. `slotMonitor` follows the slot of one handler; `handleInvite_slot` shows the handler to keep to it.
2. `Accounts` ties the shared counters and maps to the slots of all handlers; the steps keep it.
-/

namespace AixvolinkPbx.B2bua

open Calls (Actor)
open Registration (Binding)
open Sdp (Body Codecs)
open Prog (Safe Only safe_bind safe_call safe_pure safe_mono safe_when only_bind only_pure Path)

variable (cfg : Config) (C : Codecs)

/-! ## The system -/

/-- The fields of `Engine` that its mutex guards, and its wait group. Sessions have numbers. -/
structure EngineShared where
  stopping : Bool
  reserved : ℤ
  waiting : ℤ
  byInbound : Table String ℕ
  byOutbound : Table String ℕ

def EngineShared.initial : EngineShared := ⟨false, 0, 0, ∅, ∅⟩

def EngineShared.reserve (sh : EngineShared) : Bool × EngineShared :=
  if sh.stopping ∨ cfg.maxActiveCalls ≤ sh.reserved then (false, sh)
  else (true, { sh with reserved := sh.reserved + 1, waiting := sh.waiting + 1 })

def EngineShared.remove (sh : EngineShared) (inbound : String) (outbound : Option String) :
    EngineShared :=
  { sh with
    byInbound := sh.byInbound.erase inbound
    byOutbound := match outbound with
      | some id => sh.byOutbound.erase id
      | none => sh.byOutbound
    reserved := sh.reserved - 1 }

/-- An initial INVITE and the number of the session its handler makes. -/
structure Handler where
  session : ℕ
  invite : Invite

/-- How an operation of a handler answers and what it changes. -/
def performEngine (sh : EngineShared) (h : Handler) :
    (e : EngineOp) → engineSig.Ans e → EngineShared → Prop
  | .reserve, r, sh' => (r, sh') = sh.reserve cfg
  | .release, _, sh' => sh' = { sh with reserved := sh.reserved - 1 }
  | .wgDone, _, sh' => sh' = { sh with waiting := sh.waiting - 1 }
  | .registerInbound id, _, sh' => sh' = { sh with byInbound := sh.byInbound.insert id h.session }
  | .registerOutbound id, _, sh' => sh' = { sh with byOutbound := sh.byOutbound.insert id h.session }
  | .remove inbound outbound, _, sh' => sh' = sh.remove inbound outbound
  | _, _, sh' => sh' = sh

/-- Handlers on one engine; the environment calls `Wait`, which sets `stopping`. -/
def engineSystem (n : ℕ) : System engineSig Handler Unit EngineShared Unit where
  prog h := handleInvite cfg C n h.invite
  spawns _ _ := True
  perform := performEngine cfg
  env sh _ sh' := sh' = { sh with stopping := true }

abbrev EngineState := System.State engineSig Handler Unit EngineShared
abbrev EngineLabel := System.Label engineSig Handler Unit

/-! ## The slot of a handler -/

inductive Slot
  | start
  | refused
  | held
  | inbound (id : String)
  | both (inbound outbound : String)
  | returned
  | done
  | bad
  deriving DecidableEq

def nextSlot : Slot → (e : EngineOp) → engineSig.Ans e → Slot
  | .start, .reserve, r => if r then .held else .refused
  | .held, .release, _ => .returned
  | .held, .registerInbound id, _ => .inbound id
  | .inbound id, .registerOutbound id', _ => .both id id'
  | .inbound id, .remove inbound _, _ => if inbound = id then .returned else .bad
  | .both id id', .remove inbound outbound, _ =>
    if inbound = id ∧ outbound = some id' then .returned else .bad
  | .returned, .wgDone, _ => .done
  | slot, e, _ => if kind e = .admission ∨ kind e = .wiring then .bad else slot

/-- The order of a handler's operations on its slot. -/
def slotMonitor : Monitor engineSig Slot where
  next := nextSlot
  good slot := slot ≠ .bad
  admits _ _ := True

/-- The operation does not concern the slot. -/
def OffSlot (e : EngineOp) : Prop := kind e ≠ .admission ∧ kind e ≠ .wiring

instance (e : EngineOp) : Decidable (OffSlot e) :=
  inferInstanceAs (Decidable (kind e ≠ .admission ∧ kind e ≠ .wiring))

variable {slot : Slot} {e : EngineOp} {r : engineSig.Ans e}

theorem nextSlot_of_offSlot (h : OffSlot e) : nextSlot slot e r = slot := by
  obtain ⟨hadmission, hwiring⟩ := h
  unfold nextSlot
  split <;> simp_all [kind]

theorem skip_safe {α : Type} {kinds : List Kind} {p : Prog engineSig α} (h : Only (Among kinds) p)
    (hkinds : .admission ∉ kinds ∧ .wiring ∉ kinds) (hslot : slot ≠ .bad) :
    Safe slotMonitor slot p fun _ slot' => slot' = slot :=
  h.safe hslot fun _ _ he => nextSlot_of_offSlot
    ⟨fun heq => hkinds.1 (heq ▸ he), fun heq => hkinds.2 (heq ▸ he)⟩

theorem slot_op_safe {slot' : Slot} (h : ∀ r, nextSlot slot e r = slot') (hslot : slot' ≠ .bad) :
    Safe slotMonitor slot (op e) fun _ s => s = slot' := by
  rw [safe_call]
  intro r _
  have hnext : slotMonitor.next slot e r = slot' := h r
  rw [hnext]
  exact ⟨hslot, rfl⟩

theorem release_slot : Safe slotMonitor .held release fun _ slot => slot = .done := by
  unfold release
  refine .bind (slot_op_safe (fun _ => rfl) (by simp)) ?_
  rintro _ _ rfl
  exact slot_op_safe (fun _ => rfl) (by simp)

/-- What is left of a handler's slot once its session is open. -/
def Owns (s : Session) (slot : Slot) : Prop :=
  slot = .inbound s.inbound ∨ ∃ id, s.outbound = some id ∧ slot = .both s.inbound id

theorem Owns.ne_bad {s : Session} (h : Owns s slot) : slot ≠ .bad := by
  rcases h with rfl | ⟨id, -, rfl⟩ <;> simp

theorem Owns.same {s s' : Session} (h : Owns s slot) (hsame : s.SameDialogs s') :
    Owns s' slot := by
  unfold Owns
  rw [hsame.inbound, hsame.outbound]
  exact h

/-- The admission gives the slot back or opens a session that owns it. -/
theorem openSession_slot : Safe slotMonitor .held (openSession cfg) fun res slot =>
    match res with
    | none => slot = .done
    | some (s, _) => slot = .inbound s.inbound := by
  have failed : Safe slotMonitor .held (do
      release
      let _ ← respond 500 "Server Internal Error" [] []
      return (none : Option (Session × Actor))) fun res slot =>
        match res with
        | none => slot = .done
        | some (s, _) => slot = .inbound s.inbound := by
    refine .bind release_slot ?_
    rintro _ _ rfl
    refine .bind (skip_safe (only_respond ..) (by simp [setupKinds]) (by simp)) ?_
    rintro _ _ rfl
    exact safe_pure.mpr rfl
  unfold openSession
  refine .bind (slot_op_safe (fun _ => rfl) (by simp)) ?_
  rintro (_ | inbound) _ rfl
  · refine .bind release_slot ?_
    rintro _ _ rfl
    refine safe_bind.mpr (.bind (slot_op_safe (fun _ => rfl) (by simp)) ?_)
    rintro _ _ rfl
    exact safe_pure.mpr (safe_pure.mpr rfl)
  refine .bind (slot_op_safe (fun _ => rfl) (by simp)) ?_
  rintro (_ | current) _ rfl
  · exact failed
  dsimp only
  split
  · exact failed
  · refine .bind (slot_op_safe (fun _ => rfl) (by simp)) ?_
    rintro _ _ rfl
    exact safe_pure.mpr rfl

theorem admission_slot (invite : Invite) :
    Safe slotMonitor .start (admission cfg invite) fun res slot =>
      match res with
      | none => slot = .refused ∨ slot = .done
      | some (s, _) => slot = .inbound s.inbound := by
  have rejected : ∀ {status : ℕ} {reason : String} {headers : List Header} {slot : Slot},
      slot = .refused ∨ slot = .done → Safe slotMonitor slot (do
        reject status reason headers
        return (none : Option (Session × Actor))) fun res slot =>
          match res with
          | none => slot = .refused ∨ slot = .done
          | some (s, _) => slot = .inbound s.inbound := by
    intro status reason headers slot hslot
    have hnext : ∀ r : Bool, nextSlot slot
        (.respond .transaction ⟨status, reason, [], headers⟩) r = slot :=
      fun _ => nextSlot_of_offSlot (of_decide_eq_true rfl)
    refine safe_bind.mpr (.bind (slot_op_safe hnext ?_) ?_)
    · rcases hslot with rfl | rfl <;> simp
    · rintro _ _ rfl
      exact safe_pure.mpr (safe_pure.mpr hslot)
  unfold admission
  rw [safe_bind, safe_call]
  rintro (_ | _) _
  · exact ⟨by simp [slotMonitor, nextSlot], rejected (.inl rfl)⟩
  refine ⟨by simp [slotMonitor, nextSlot], ?_⟩
  have hheld : slotMonitor.next .start .reserve true = .held := rfl
  rw [hheld]
  dsimp only
  rw [if_neg (by simp)]
  split
  · refine .bind release_slot ?_
    rintro _ _ rfl
    exact rejected (.inr rfl)
  refine .bind (skip_safe (only_sourceIsRegistered ..) (by simp) (by simp)) ?_
  rintro registered _ rfl
  split
  · refine .bind release_slot ?_
    rintro _ _ rfl
    exact rejected (.inr rfl)
  · refine safe_mono (openSession_slot cfg) ?_
    rintro (_ | ⟨s, actor⟩) slot h
    · exact .inr h
    · exact h

theorem answer_slot (s : Session) (hs : s.outbound.isSome = true) (response : Response) :
    Safe slotMonitor (.inbound s.inbound) (answer C s response) fun _ slot => Owns s slot := by
  obtain ⟨id, hid⟩ := Option.isSome_iff_exists.mp hs
  have rejected : ∀ (s' : Session) (reason : String), Safe slotMonitor (.inbound s.inbound) (do
      rejectAnswer s' reason
      return (s', false)) fun _ slot => Owns s slot := by
    intro s' reason
    refine .bind
      (skip_safe (only_rejectAnswer ..) (by simp [setupKinds]) (by simp)) ?_
    rintro _ _ rfl
    exact safe_pure.mpr (.inl rfl)
  unfold answer
  refine .bind ((skip_safe (only_answerMedia C s response) (by simp [setupKinds])
    (by simp)).and_ensures (ensures_answerMedia C response)) ?_
  rintro ⟨negotiated, s'⟩ _ ⟨rfl, hsame⟩
  dsimp only
  split_ifs
  · exact rejected ..
  · exact rejected ..
  refine .bind (slot_op_safe (fun _ => rfl) (by simp)) ?_
  rintro (_ | _) _ rfl
  · refine safe_mono (skip_safe (only_refuse s') (by simp [setupKinds]) (by simp)) ?_
    rintro _ _ rfl
    exact .inl rfl
  have hboth : Owns s (.both s.inbound (s'.outbound.getD "")) :=
    .inr ⟨id, hid, by rw [hsame.outbound, hid]; rfl⟩
  refine .bind (slot_op_safe (fun _ => rfl) (by simp)) ?_
  rintro _ _ rfl
  refine safe_mono (skip_safe (only_conclude s') (by simp [setupKinds]) (by simp)) ?_
  rintro _ _ rfl
  exact hboth

/-- The deferred calls give the slot back and complete the wait group. -/
theorem finish_slot (s : Session) (h : Owns s slot) :
    Safe slotMonitor slot (finish s) fun _ slot' => slot' = .done := by
  have hskip : ∀ e, OffSlot e → Safe slotMonitor slot (op e) fun _ slot' => slot' = slot :=
    fun e he => slot_op_safe (fun _ => nextSlot_of_offSlot he) h.ne_bad
  have hremove : Safe slotMonitor slot (op (.remove s.inbound s.outbound)) fun _ slot' =>
      slot' = .returned := by
    refine slot_op_safe (fun _ => ?_) (by simp)
    rcases h with rfl | ⟨id, hid, rfl⟩
    · simp [nextSlot]
    · simp [nextSlot, hid]
  unfold finish remove
  refine .bind (hskip _ (by decide)) ?_
  rintro _ _ rfl
  refine .bind (skip_safe only_completePendingReInvite (by simp) h.ne_bad) ?_
  rintro _ _ rfl
  refine .bind (skip_safe (only_stopMedia s) (by simp) h.ne_bad) ?_
  rintro _ _ rfl
  refine .bind (hskip _ (by decide)) ?_
  rintro _ _ rfl
  refine safe_bind.mpr (.bind hremove ?_)
  rintro _ _ rfl
  rw [safe_when]
  have hdone : Safe slotMonitor .returned (do
      op .closeDone
      op .wgDone) fun _ slot' => slot' = .done := by
    refine .bind (slot_op_safe (fun _ => rfl) (by simp)) ?_
    rintro _ _ rfl
    exact slot_op_safe (fun _ => rfl) (by simp)
  refine ⟨fun _ => ?_, fun _ => hdone⟩
  refine safe_mono (slot_op_safe (fun _ => rfl) (by simp)) ?_
  rintro _ _ rfl
  exact hdone

theorem setup_slot (n : ℕ) (s : Session) (actor : Actor) (invite : Invite) :
    Safe slotMonitor (.inbound s.inbound) (setup cfg C n s actor invite) fun res slot =>
      Owns res.1 slot := by
  unfold setup
  refine .bind (slot_op_safe (fun _ => rfl) (by simp)) ?_
  rintro _ _ rfl
  refine .bind ((skip_safe (only_prepare cfg C s invite)
    (by simp [prepareKinds, setupKinds]) (by simp)).and_ensures (ensures_prepare cfg C invite)) ?_
  rintro ⟨s₁, _ | ⟨binding, offer⟩⟩ _ ⟨rfl, hsame⟩
  · exact safe_pure.mpr (.inl (by rw [hsame.inbound]))
  refine .bind ((skip_safe (only_dial C s₁ n binding offer) (by simp [setupKinds])
    (by simp)).and_ensures (ensures_dial C n binding offer)) ?_
  rintro ⟨s₂, _ | response⟩ _ ⟨rfl, ⟨hinbound, -⟩, houtbound⟩
  · exact safe_pure.mpr (.inl (by rw [hinbound, hsame.inbound]))
  rw [← hsame.inbound, ← hinbound]
  refine safe_mono ((answer_slot C s₂ (houtbound rfl) response).and_ensures
    (ensures_answer C response)) ?_
  rintro res slot ⟨hslot, hsame'⟩
  exact hslot.same hsame'.toSameDialogs

theorem handleInvite_slot (n : ℕ) (invite : Invite) :
    Safe slotMonitor .start (handleInvite cfg C n invite) fun _ slot =>
      slot = .refused ∨ slot = .done := by
  unfold handleInvite answerInvite
  refine safe_bind.mpr (.bind (admission_slot cfg invite) ?_)
  rintro (_ | ⟨s, actor⟩) slot h
  · exact safe_pure.mpr (safe_pure.mpr h)
  obtain rfl : slot = .inbound s.inbound := h
  refine .bind (setup_slot cfg C n s actor invite) ?_
  rintro ⟨s, _ | _⟩ slot h
  · exact safe_pure.mpr (safe_mono (finish_slot s h) fun _ _ => .inr)
  · refine safe_pure.mpr (.bind ((skip_safe (only_commandLoop C s n)
      (by simp [commandKinds, requestKinds]) h.ne_bad).and_ensures (ensures_commandLoop C n)) ?_)
    rintro s' _ ⟨rfl, hsame⟩
    exact safe_mono (finish_slot s' (h.same hsame.toSameDialogs)) fun _ _ => .inr

/-! ## What one operation does to the accounts -/

def reserves : Event engineSig → Bool
  | ⟨.reserve, r⟩ => r
  | _ => false

def givesBack : Event engineSig → Bool
  | ⟨.release, _⟩ => true
  | ⟨.remove _ _, _⟩ => true
  | _ => false

def completes : Event engineSig → Bool
  | ⟨.wgDone, _⟩ => true
  | _ => false

def Slot.holds : Slot → ℕ
  | .held => 1
  | .inbound _ => 1
  | .both _ _ => 1
  | _ => 0

def Slot.waits : Slot → ℕ
  | .returned => 1
  | slot => slot.holds

def Slot.inboundID : Slot → Option String
  | .inbound id => some id
  | .both id _ => some id
  | _ => none

def Slot.outboundID : Slot → Option String
  | .both _ id => some id
  | _ => none

/-- What an operation of a handler does to the engine, by the handler's slot before and after it. -/
structure Effect (sh sh' : EngineShared) (slot slot' : Slot) (ev : Event engineSig) : Prop where
  reserved : sh'.reserved + slot.holds = sh.reserved + slot'.holds
  waiting : sh'.waiting + slot.waits = sh.waiting + slot'.waits
  stopping : sh'.stopping = sh.stopping
  bounded : sh.reserved ≤ cfg.maxActiveCalls → sh'.reserved ≤ cfg.maxActiveCalls
  inbound : ∀ id ∈ sh'.byInbound,
    slot'.inboundID = some id ∨ id ∈ sh.byInbound ∧ slot.inboundID ≠ some id
  outbound : ∀ id ∈ sh'.byOutbound,
    slot'.outboundID = some id ∨ id ∈ sh.byOutbound ∧ slot.outboundID ≠ some id
  closed : reserves ev = true → sh.stopping = false

theorem effect_refl (sh : EngineShared) (slot : Slot) {ev : Event engineSig}
    (h : reserves ev = true → sh.stopping = false) : Effect cfg sh sh slot slot ev where
  reserved := rfl
  waiting := rfl
  stopping := rfl
  bounded := id
  inbound id hid := by
    by_cases h : slot.inboundID = some id
    · exact .inl h
    · exact .inr ⟨hid, h⟩
  outbound id hid := by
    by_cases h : slot.outboundID = some id
    · exact .inl h
    · exact .inr ⟨hid, h⟩
  closed := h

variable {sh : EngineShared}

theorem effect_reserve {sh' : EngineShared} {r : Bool} (hslot : nextSlot slot .reserve r ≠ .bad)
    (h : (r, sh') = sh.reserve cfg) :
    Effect cfg sh sh' slot (nextSlot slot .reserve r) ⟨.reserve, r⟩ := by
  obtain rfl : slot = .start := by
    cases slot <;> simp_all [nextSlot, kind]
  unfold EngineShared.reserve at h
  split_ifs at h with hfull
  · obtain ⟨rfl, rfl⟩ := Prod.mk.inj h
    exact ⟨rfl, rfl, rfl, id, fun id hid => .inr ⟨hid, by simp [Slot.inboundID]⟩,
      fun id hid => .inr ⟨hid, by simp [Slot.outboundID]⟩, by simp [reserves]⟩
  · obtain ⟨rfl, rfl⟩ := Prod.mk.inj h
    rw [not_or, not_le] at hfull
    refine ⟨by simp [nextSlot, Slot.holds], by simp [nextSlot, Slot.waits, Slot.holds], rfl, ?_,
      fun id hid => .inr ⟨hid, by simp [Slot.inboundID]⟩,
      fun id hid => .inr ⟨hid, by simp [Slot.outboundID]⟩, fun _ => by simpa using hfull.1⟩
    intro _
    dsimp only
    omega

theorem effect_registerInbound {id : String} (session : ℕ) {r : Unit}
    (hslot : nextSlot slot (.registerInbound id) r ≠ .bad) :
    Effect cfg sh { sh with byInbound := sh.byInbound.insert id session } slot
      (nextSlot slot (.registerInbound id) r) ⟨.registerInbound id, r⟩ := by
  obtain rfl : slot = .held := by
    cases slot <;> simp_all [nextSlot, kind]
  refine ⟨rfl, rfl, rfl, fun h => h, fun id' hid => ?_,
    fun id' hid => .inr ⟨hid, by simp [Slot.outboundID]⟩,
    by simp [reserves]⟩
  rcases (AList.mem_insert _).mp hid with rfl | hid
  · exact .inl rfl
  · exact .inr ⟨hid, by simp [Slot.inboundID]⟩

theorem effect_registerOutbound {id : String} (session : ℕ) {r : Unit}
    (hslot : nextSlot slot (.registerOutbound id) r ≠ .bad) :
    Effect cfg sh { sh with byOutbound := sh.byOutbound.insert id session } slot
      (nextSlot slot (.registerOutbound id) r) ⟨.registerOutbound id, r⟩ := by
  obtain ⟨inbound, rfl⟩ : ∃ inbound, slot = .inbound inbound := by
    cases slot <;> simp_all [nextSlot, kind]
  refine ⟨rfl, rfl, rfl, fun h => h, fun id' hid => ?_, fun id' hid => ?_, by simp [reserves]⟩
  · by_cases h : inbound = id'
    · exact .inl (by rw [← h]; rfl)
    · exact .inr ⟨hid, by simpa [Slot.inboundID] using h⟩
  · rcases (AList.mem_insert _).mp hid with rfl | hid
    · exact .inl rfl
    · exact .inr ⟨hid, by simp [Slot.outboundID]⟩

theorem effect_remove {inbound : String} {outbound : Option String} {r : Unit}
    (hslot : nextSlot slot (.remove inbound outbound) r ≠ .bad) :
    Effect cfg sh (sh.remove inbound outbound) slot (nextSlot slot (.remove inbound outbound) r)
      ⟨.remove inbound outbound, r⟩ := by
  have hbyInbound : ∀ id ∈ (sh.remove inbound outbound).byInbound, id ∈ sh.byInbound ∧
    id ≠ inbound :=
    fun id hid => (AList.mem_erase.mp hid).symm
  have hbyOutbound : ∀ id ∈ (sh.remove inbound outbound).byOutbound,
      id ∈ sh.byOutbound ∧ outbound ≠ some id := by
    intro id hid
    cases outbound with
    | none => exact ⟨hid, by simp⟩
    | some id' =>
      obtain ⟨hne, hmem⟩ := AList.mem_erase.mp hid
      exact ⟨hmem, by simpa using fun h : id' = id => hne h.symm⟩
  have hreserved : (sh.remove inbound outbound).reserved + 1 = sh.reserved := by
    simp [EngineShared.remove]
  -- the slot tells which dialogs the session has registered
  obtain ⟨hin, hout, hholds, hnext⟩ : slot.inboundID = some inbound ∧
      (∀ id, slot.outboundID = some id → outbound = some id) ∧ slot.holds = 1 ∧ slot.waits = 1 ∧
        nextSlot slot (.remove inbound outbound) r = .returned := by
    cases slot with
    | inbound id =>
      have hid : inbound = id := by
        by_contra h
        simp [nextSlot, h] at hslot
      simp [nextSlot, hid, Slot.inboundID, Slot.outboundID, Slot.holds, Slot.waits]
    | both id id' =>
      have hid : inbound = id ∧ outbound = some id' := by
        by_contra h
        simp [nextSlot, h] at hslot
      simp [nextSlot, hid, Slot.inboundID, Slot.outboundID, Slot.holds, Slot.waits]
    | _ => simp [nextSlot, kind] at hslot
  rw [hnext.2]
  refine ⟨?_, ?_, rfl, fun h => ?_, fun id hid => .inr ?_, fun id hid => .inr ?_, by simp [reserves]⟩
  · rw [hholds]
    simpa [Slot.holds] using hreserved
  · rw [hnext.1]
    rfl
  · omega
  · obtain ⟨hmem, hne⟩ := hbyInbound id hid
    exact ⟨hmem, by rw [hin]; simpa using hne.symm⟩
  · obtain ⟨hmem, hne⟩ := hbyOutbound id hid
    exact ⟨hmem, fun h => hne (hout id h)⟩

theorem effect_of_perform {sh' : EngineShared} {x : Handler} (hslot : nextSlot slot e r ≠ .bad)
    (h : performEngine cfg sh x e r sh') :
    Effect cfg sh sh' slot (nextSlot slot e r) ⟨e, r⟩ := by
  have skip : OffSlot e → sh' = sh → (reserves ⟨e, r⟩ = true → sh.stopping = false) →
      Effect cfg sh sh' slot (nextSlot slot e r) ⟨e, r⟩ := by
    rintro hkind rfl hreserves
    rw [nextSlot_of_offSlot hkind]
    exact effect_refl cfg sh' slot hreserves
  cases e with
  | reserve => exact effect_reserve cfg hslot h
  | release =>
    obtain rfl : slot = .held := by
      cases slot <;> simp_all [nextSlot, kind]
    obtain rfl : sh' = _ := h
    exact ⟨by simp [nextSlot, Slot.holds], rfl, rfl, fun h => by dsimp only; omega,
      fun id hid => .inr ⟨hid, by simp [Slot.inboundID]⟩,
      fun id hid => .inr ⟨hid, by simp [Slot.outboundID]⟩, by simp [reserves]⟩
  | wgDone =>
    obtain rfl : slot = .returned := by
      cases slot <;> simp_all [nextSlot, kind]
    obtain rfl : sh' = _ := h
    exact ⟨rfl, by simp [nextSlot, Slot.waits, Slot.holds], rfl, fun h => h,
      fun id hid => .inr ⟨hid, by simp [Slot.inboundID]⟩,
      fun id hid => .inr ⟨hid, by simp [Slot.outboundID]⟩, by simp [reserves]⟩
  | registerInbound id =>
    obtain rfl : sh' = _ := h
    exact effect_registerInbound cfg x.session hslot
  | registerOutbound id =>
    obtain rfl : sh' = _ := h
    exact effect_registerOutbound cfg x.session hslot
  | remove inbound outbound =>
    obtain rfl : sh' = _ := h
    exact effect_remove cfg hslot
  | transition ctx t =>
    refine skip ?_ h (by simp [reserves])
    rw [OffSlot, kind_transition]
    split_ifs <;> simp
  | _ => exact skip (of_decide_eq_true rfl) h (by simp [reserves])

/-! ## The accounts of the engine -/

def stops : EngineLabel → Bool
  | .env _ => true
  | _ => false

def admits : EngineLabel → Bool
  | .act _ ev => reserves ev
  | _ => false

/-- The counters and maps of the engine, by the slots of its handlers. -/
structure Accounts (ls : List EngineLabel) (sh : EngineShared) (slots : List Slot) : Prop where
  good : ∀ slot ∈ slots, slot ≠ .bad
  bounded : sh.reserved ≤ cfg.maxActiveCalls
  reserved : sh.reserved = (slots.map Slot.holds).sum
  waiting : sh.waiting = (slots.map Slot.waits).sum
  inbound : ∀ id ∈ sh.byInbound, ∃ slot ∈ slots, slot.inboundID = some id
  outbound : ∀ id ∈ sh.byOutbound, ∃ slot ∈ slots, slot.outboundID = some id
  stopped : (∃ l ∈ ls, stops l = true) → sh.stopping = true
  closed : ls.Pairwise fun l l' => stops l = true → admits l' = false

variable {cfg} {ls : List EngineLabel}

theorem closed_snoc {l : EngineLabel}
    (h : ls.Pairwise fun l l' => stops l = true → admits l' = false)
    (hl : (∃ l' ∈ ls, stops l' = true) → admits l = false) :
    (ls ++ [l]).Pairwise fun l l' => stops l = true → admits l' = false := by
  rw [List.pairwise_append]
  refine ⟨h, List.pairwise_singleton .., ?_⟩
  intro l' hl' l'' hl'' hstops
  rw [List.mem_singleton.mp hl'']
  exact hl ⟨l', hl', hstops⟩

variable {slots : List Slot}

theorem Accounts.act {sh' : EngineShared} (h : Accounts cfg ls sh slots) {i : ℕ} {slot' : Slot}
    {ev : Event engineSig} (hget : slots[i]? = some slot) (hgood : slot' ≠ .bad)
    (he : Effect cfg sh sh' slot slot' ev) :
    Accounts cfg (ls ++ [.act i ev]) sh' (slots.set i slot') where
  good s hs := by
    rcases List.mem_or_eq_of_mem_set hs with hs | rfl
    · exact h.good s hs
    · exact hgood
  bounded := he.bounded h.bounded
  reserved := by
    have hsum := sum_map_set Slot.holds slot' hget
    have := he.reserved
    have := h.reserved
    omega
  waiting := by
    have hsum := sum_map_set Slot.waits slot' hget
    have := he.waiting
    have := h.waiting
    omega
  inbound id hid := by
    have hlt : i < slots.length := (List.getElem?_eq_some_iff.mp hget).1
    rcases he.inbound id hid with hid | ⟨hid, hne⟩
    · exact ⟨slot', List.mem_set hlt _, hid⟩
    · obtain ⟨owner, howner, hown⟩ := h.inbound id hid
      rcases mem_set_or_eq slot' hget howner with hmem | rfl
      · exact ⟨owner, hmem, hown⟩
      · exact absurd hown hne
  outbound id hid := by
    have hlt : i < slots.length := (List.getElem?_eq_some_iff.mp hget).1
    rcases he.outbound id hid with hid | ⟨hid, hne⟩
    · exact ⟨slot', List.mem_set hlt _, hid⟩
    · obtain ⟨owner, howner, hown⟩ := h.outbound id hid
      rcases mem_set_or_eq slot' hget howner with hmem | rfl
      · exact ⟨owner, hmem, hown⟩
      · exact absurd hown hne
  stopped := by
    rintro ⟨l, hl, hstops⟩
    rw [he.stopping]
    rcases List.mem_append.mp hl with hl | hl
    · exact h.stopped ⟨l, hl, hstops⟩
    · rw [List.mem_singleton.mp hl] at hstops
      cases hstops
  closed := by
    refine closed_snoc h.closed fun hstops => ?_
    have hstopping := h.stopped hstops
    cases hadmits : admits (.act i ev) with
    | false => rfl
    | true =>
      rw [he.closed hadmits] at hstopping
      cases hstopping

theorem Accounts.spawn (h : Accounts cfg ls sh slots) (x : Handler) :
    Accounts cfg (ls ++ [.spawn x]) sh (slots ++ [.start]) where
  good s hs := by
    rcases List.mem_append.mp hs with hs | hs
    · exact h.good s hs
    · rw [List.mem_singleton.mp hs]
      simp
  bounded := h.bounded
  reserved := by simpa [Slot.holds] using h.reserved
  waiting := by simpa [Slot.waits, Slot.holds] using h.waiting
  inbound id hid := by
    obtain ⟨owner, howner, hown⟩ := h.inbound id hid
    exact ⟨owner, List.mem_append_left _ howner, hown⟩
  outbound id hid := by
    obtain ⟨owner, howner, hown⟩ := h.outbound id hid
    exact ⟨owner, List.mem_append_left _ howner, hown⟩
  stopped := by
    rintro ⟨l, hl, hstops⟩
    rcases List.mem_append.mp hl with hl | hl
    · exact h.stopped ⟨l, hl, hstops⟩
    · rw [List.mem_singleton.mp hl] at hstops
      cases hstops
  closed := closed_snoc h.closed fun _ => rfl

theorem Accounts.stop (h : Accounts cfg ls sh slots) :
    Accounts cfg (ls ++ [.env ()]) { sh with stopping := true } slots where
  good := h.good
  bounded := h.bounded
  reserved := h.reserved
  waiting := h.waiting
  inbound := h.inbound
  outbound := h.outbound
  stopped _ := rfl
  closed := closed_snoc h.closed fun _ => rfl

theorem accounts_of_reaches (hmax : 0 ≤ cfg.maxActiveCalls) {n : ℕ} {st : EngineState}
    (h : (engineSystem cfg C n).Reaches .initial ls st) :
    System.Tracked slotMonitor (fun _ => .start) (fun _ slot => slot = .refused ∨ slot = .done) st ∧
      Accounts cfg ls st.shared (st.threads.map fun th => slotMonitor.run .start th.past) := by
  have hinv := System.invariant (M := slotMonitor)
    (I := fun ls sh vs => Accounts cfg ls sh (vs.map System.Seen.ghost))
    (fun x => handleInvite_slot cfg C n x.invite) (fun _ _ _ _ _ _ => trivial)
    (fun ls st x live hI _ => by simpa using hI.spawn x) ?_
    (fun ls st l sh hI hsh => by obtain rfl : sh = _ := hsh; exact hI.stop) h.under ?_
  · simpa [System.view, System.see, Function.comp_def] using hinv
  · intro ls st i th e r sh live _ hI _ hget _ hgood hperf
    rw [List.map_set]
    refine hI.act ?_ hgood (effect_of_perform cfg hgood hperf)
    rw [List.getElem?_map, System.view_getElem? hget]
    rfl
  · exact ⟨by simp, hmax, rfl, rfl, fun id hid => absurd hid (AList.notMem_empty _),
      fun id hid => absurd hid (AList.notMem_empty _), by simp, List.Pairwise.nil⟩

/-! ## Counting the operations of one handler -/

/-- The numbers of slots taken, slots given back and completions of the wait group. -/
structure Counts where
  reserved : ℕ
  given : ℕ
  completed : ℕ
  deriving DecidableEq

def Slot.counts : Slot → Counts
  | .held => ⟨1, 0, 0⟩
  | .inbound _ => ⟨1, 0, 0⟩
  | .both _ _ => ⟨1, 0, 0⟩
  | .returned => ⟨1, 1, 0⟩
  | .done => ⟨1, 1, 1⟩
  | _ => ⟨0, 0, 0⟩

def counts (t : List (Event engineSig)) : Counts :=
  ⟨t.countP reserves, t.countP givesBack, t.countP completes⟩

theorem counts_nextSlot (h : nextSlot slot e r ≠ .bad) :
    (nextSlot slot e r).counts = ⟨slot.counts.reserved + (if reserves ⟨e, r⟩ then 1 else 0),
      slot.counts.given + (if givesBack ⟨e, r⟩ then 1 else 0),
      slot.counts.completed + (if completes ⟨e, r⟩ then 1 else 0)⟩ := by
  have skip : OffSlot e → reserves ⟨e, r⟩ = false → givesBack ⟨e, r⟩ = false →
      completes ⟨e, r⟩ = false → (nextSlot slot e r).counts =
        ⟨slot.counts.reserved + (if reserves ⟨e, r⟩ then 1 else 0),
          slot.counts.given + (if givesBack ⟨e, r⟩ then 1 else 0),
          slot.counts.completed + (if completes ⟨e, r⟩ then 1 else 0)⟩ := by
    intro hkind hr hg hc
    rw [nextSlot_of_offSlot hkind, hr, hg, hc]
    rfl
  cases e with
  | reserve => cases slot <;> cases r <;> first | rfl | simp [nextSlot, kind] at h
  | release => cases slot <;> first | rfl | simp [nextSlot, kind] at h
  | wgDone => cases slot <;> first | rfl | simp [nextSlot, kind] at h
  | registerInbound id => cases slot <;> first | rfl | simp [nextSlot, kind] at h
  | registerOutbound id => cases slot <;> first | rfl | simp [nextSlot, kind] at h
  | remove inbound outbound =>
    cases slot with
    | inbound id =>
      by_cases hid : inbound = id
      · simp [nextSlot, hid, Slot.counts, reserves, givesBack, completes]
      · simp [nextSlot, hid] at h
    | both id id' =>
      by_cases hid : inbound = id ∧ outbound = some id'
      · simp [nextSlot, hid, Slot.counts, reserves, givesBack, completes]
      · simp [nextSlot, hid] at h
    | _ => simp [nextSlot, kind] at h
  | transition ctx t =>
    refine skip ?_ rfl rfl rfl
    rw [OffSlot, kind_transition]
    split_ifs <;> simp
  | _ => exact skip (of_decide_eq_true rfl) rfl rfl rfl

theorem nextSlot_bad (e : EngineOp) (r : engineSig.Ans e) : nextSlot .bad e r = .bad := by
  cases e <;> simp [nextSlot]

variable {t : List (Event engineSig)}

theorem counts_of_run (h : slotMonitor.run .start t ≠ .bad) :
    counts t = (slotMonitor.run .start t).counts := by
  induction t using List.reverseRecOn with
  | nil => rfl
  | append_singleton t ev ih =>
    obtain ⟨e, r⟩ := ev
    rw [Monitor.run_append, Monitor.run_cons, Monitor.run_nil] at h ⊢
    have hbad : slotMonitor.run .start t ≠ .bad := by
      intro hbad
      rw [hbad] at h
      exact h (nextSlot_bad e r)
    have hnext := counts_nextSlot h
    rw [← ih hbad] at hnext
    refine Eq.trans ?_ hnext.symm
    simp [counts, List.countP_append, List.countP_cons]

/-! ## The result -/

/-- The handler has reserved a slot and has not given it back. -/
def owesSlot (t : List (Event engineSig)) : Bool := t.any reserves && !t.any givesBack

/-- The handler has reserved a slot and has not completed the wait group. -/
def owesDone (t : List (Event engineSig)) : Bool := t.any reserves && !t.any completes

theorem any_eq_countP {p : Event engineSig → Bool} :
    t.any p = decide (0 < t.countP p) := by
  rw [Bool.eq_iff_iff, decide_eq_true_eq, List.countP_pos_iff, List.any_eq_true]

theorem holds_eq (h : slotMonitor.run .start t ≠ .bad) :
    (slotMonitor.run .start t).holds = if owesSlot t then 1 else 0 := by
  have howes : owesSlot t =
      (decide (0 < (counts t).reserved) && !decide (0 < (counts t).given)) := by
    rw [owesSlot, any_eq_countP, any_eq_countP]
    rfl
  rw [howes, counts_of_run h]
  cases slotMonitor.run .start t <;> rfl

theorem waits_eq (h : slotMonitor.run .start t ≠ .bad) :
    (slotMonitor.run .start t).waits = if owesDone t then 1 else 0 := by
  have howes : owesDone t =
      (decide (0 < (counts t).reserved) && !decide (0 < (counts t).completed)) := by
    rw [owesDone, any_eq_countP, any_eq_countP]
    rfl
  rw [howes, counts_of_run h]
  cases slotMonitor.run .start t <;> rfl

theorem eq_empty_of_forall {t : Table String ℕ} (h : ∀ id, id ∉ t) : t = ∅ := by
  refine AList.ext ?_
  rw [AList.empty_entries, List.eq_nil_iff_forall_not_mem]
  rintro ⟨id, v⟩ hmem
  exact h id (AList.mem_keys.mpr (List.mem_keys_of_mem hmem))

variable (cfg)

/-- The accounts of every reachable state of an engine: the bounds and the meaning of the counter and
of the wait group; what each handler has done to them so far, and once it has returned; that nobody
gets in after `Wait`; and the session maps of an idle engine. -/
theorem admission_accounts (hcfg : newEngine cfg = .ok ()) (n : ℕ) (ls : List EngineLabel)
    (st : EngineState) (h : (engineSystem cfg C n).Reaches .initial ls st) :
    (0 ≤ st.shared.reserved ∧ st.shared.reserved ≤ cfg.maxActiveCalls) ∧
    st.shared.reserved = st.threads.countP (fun th => owesSlot th.past) ∧
    st.shared.waiting = st.threads.countP (fun th => owesDone th.past) ∧
    (∀ th ∈ st.threads, th.past.countP completes ≤ th.past.countP givesBack ∧
      th.past.countP givesBack ≤ th.past.countP reserves ∧ th.past.countP reserves ≤ 1) ∧
    (∀ th ∈ st.threads, th.live = false → th.past.countP givesBack = th.past.countP reserves ∧
      th.past.countP completes = th.past.countP reserves) ∧
    ls.Pairwise (fun l l' => stops l = true → admits l' = false) ∧
    (st.shared.reserved = 0 → st.shared.byInbound = ∅ ∧ st.shared.byOutbound = ∅) := by
  have hmax : 0 ≤ cfg.maxActiveCalls := by
    unfold newEngine at hcfg
    split_ifs at hcfg with h₁ h₂ h₃
    omega
  obtain ⟨htracked, hacc⟩ := accounts_of_reaches C hmax h
  have hgood : ∀ th ∈ st.threads, slotMonitor.run .start th.past ≠ .bad :=
    fun th hth => hacc.good _ (List.mem_map_of_mem hth)
  have hcounts : ∀ th ∈ st.threads, counts th.past = (slotMonitor.run .start th.past).counts :=
    fun th hth => counts_of_run (hgood th hth)
  have hreserved : (st.threads.map fun th => (slotMonitor.run .start th.past).holds).sum =
      st.threads.countP (fun th => owesSlot th.past) :=
    sum_map_eq_countP fun th hth => holds_eq (hgood th hth)
  have hwaiting : (st.threads.map fun th => (slotMonitor.run .start th.past).waits).sum =
      st.threads.countP (fun th => owesDone th.past) :=
    sum_map_eq_countP fun th hth => waits_eq (hgood th hth)
  have hsum := hacc.reserved
  rw [List.map_map, Function.comp_def, hreserved] at hsum
  refine ⟨⟨by omega, hacc.bounded⟩, hsum, ?_, ?_, ?_, hacc.closed, ?_⟩
  · have := hacc.waiting
    rwa [List.map_map, Function.comp_def, hwaiting] at this
  · intro th hth
    rw [show th.past.countP completes = _ from congrArg Counts.completed (hcounts th hth),
      show th.past.countP givesBack = _ from congrArg Counts.given (hcounts th hth),
      show th.past.countP reserves = _ from congrArg Counts.reserved (hcounts th hth)]
    cases slotMonitor.run .start th.past <;> simp [Slot.counts]
  · intro th hth hlive
    rw [show th.past.countP completes = _ from congrArg Counts.completed (hcounts th hth),
      show th.past.countP givesBack = _ from congrArg Counts.given (hcounts th hth),
      show th.past.countP reserves = _ from congrArg Counts.reserved (hcounts th hth)]
    obtain ⟨_, -, hslot⟩ := htracked.returned hth hlive
    rcases hslot with hslot | hslot
    · rw [show slotMonitor.run .start th.past = _ from hslot]
      exact ⟨rfl, rfl⟩
    · rw [show slotMonitor.run .start th.past = _ from hslot]
      exact ⟨rfl, rfl⟩
  · intro hzero
    have hnone : ∀ slot ∈ st.threads.map (fun th => slotMonitor.run .start th.past),
        slot.holds = 0 := by
      intro slot hslot
      obtain ⟨th, hth, rfl⟩ := List.mem_map.mp hslot
      have hcount : st.threads.countP (fun th => owesSlot th.past) = 0 := by omega
      rw [holds_eq (hgood th hth), if_neg (List.countP_eq_zero.mp hcount th hth)]
    constructor
    · refine eq_empty_of_forall fun id hid => ?_
      obtain ⟨slot, hslot, hown⟩ := hacc.inbound id hid
      have := hnone slot hslot
      cases slot <;> simp [Slot.inboundID, Slot.holds] at hown this
    · refine eq_empty_of_forall fun id hid => ?_
      obtain ⟨slot, hslot, hown⟩ := hacc.outbound id hid
      have := hnone slot hslot
      cases slot <;> simp [Slot.outboundID, Slot.holds] at hown this

/-! ## A call from Alice to Bob on an engine -/

def answerEngine (sh : EngineShared) (x : Handler) : (e : EngineOp) → engineSig.Ans e × EngineShared
  | .reserve => sh.reserve cfg
  | .release => ((), { sh with reserved := sh.reserved - 1 })
  | .wgDone => ((), { sh with waiting := sh.waiting - 1 })
  | .registerInbound id => ((), { sh with byInbound := sh.byInbound.insert id x.session })
  | .registerOutbound id => ((), { sh with byOutbound := sh.byOutbound.insert id x.session })
  | .remove inbound outbound => ((), sh.remove inbound outbound)
  | e => (succeeding (fun _ => .response bobAnswers) (fun _ => .command (.hangup .caller)) 0 e, sh)

theorem performEngine_answerEngine (sh : EngineShared) (x : Handler) (e : EngineOp) :
    performEngine cfg sh x e (answerEngine cfg sh x e).1 (answerEngine cfg sh x e).2 := by
  cases e <;> rfl

def pairConfig : Config := { smallConfig with maxActiveCalls := 2 }

def engineRun (moves : List (System.Move Handler Unit)) : List (EngineState × EngineLabel) × EngineState :=
  System.exec (engineSystem pairConfig phoneCodecs 2) (answerEngine pairConfig)
    (fun sh _ => { sh with stopping := true }) moves ⟨.initial, []⟩

theorem engineRun_reaches (moves : List (System.Move Handler Unit)) :
    (engineSystem pairConfig phoneCodecs 2).Reaches .initial (System.labels (engineRun moves))
      (engineRun moves).2 :=
  System.exec_reaches (performEngine_answerEngine pairConfig) (fun _ _ => rfl) _ _ fun _ _ _ _ => trivial

/-- Three calls; the third one finds no slot. -/
def threeCalls : List (System.Move Handler Unit) :=
  [.spawn ⟨0, aliceInvite⟩, .spawn ⟨1, aliceInvite⟩, .spawn ⟨2, aliceInvite⟩] ++
    List.replicate 12 (.run 0) ++ List.replicate 12 (.run 1) ++ List.replicate 12 (.run 2)

/-- The first two come to their end, `Wait` is called, and a fourth one comes too late. -/
def fourCalls : List (System.Move Handler Unit) :=
  threeCalls ++ List.replicate 40 (.run 0) ++ List.replicate 40 (.run 1) ++
    [.env (), .spawn ⟨3, aliceInvite⟩] ++ List.replicate 12 (.run 3)

/-- Two calls hold the two slots while the third one is refused; in the end every handler has given back
what it took, nobody was let in after `Wait`, and the engine is empty. -/
theorem admission_accounts_alice :
    ((engineRun threeCalls).2.shared.reserved = 2 ∧ (engineRun threeCalls).2.shared.waiting = 2) ∧
    (engineRun fourCalls).2.threads.map
        (fun th => (th.past.countP reserves, th.past.countP givesBack, th.past.countP completes)) =
      [(1, 1, 1), (1, 1, 1), (0, 0, 0), (0, 0, 0)] ∧
    (System.labels (engineRun fourCalls)).Pairwise (fun l l' => stops l = true → admits l' = false) ∧
    (engineRun fourCalls).2.shared.byInbound = ∅ ∧ (engineRun fourCalls).2.shared.byOutbound = ∅ := by
  obtain ⟨-, hreserved, hwaiting, -⟩ :=
    admission_accounts pairConfig phoneCodecs (by decide) 2 _ _ (engineRun_reaches threeCalls)
  obtain ⟨-, -, -, -, hreturned, hclosed, hempty⟩ :=
    admission_accounts pairConfig phoneCodecs (by decide) 2 _ _ (engineRun_reaches fourCalls)
  have hslots : (engineRun threeCalls).2.threads.countP (fun th => owesSlot th.past) = 2 := by
    decide +kernel
  have hdones : (engineRun threeCalls).2.threads.countP (fun th => owesDone th.past) = 2 := by
    decide +kernel
  have hends : (engineRun fourCalls).2.threads.all (fun th => !th.live) = true := by decide +kernel
  have hreserves : (engineRun fourCalls).2.threads.map (fun th => th.past.countP reserves) =
      [1, 1, 0, 0] := by decide +kernel
  have hzero : (engineRun fourCalls).2.shared.reserved = 0 := by decide +kernel
  refine ⟨⟨?_, ?_⟩, ?_, hclosed, hempty hzero⟩
  · rw [hreserved, hslots]
    rfl
  · rw [hwaiting, hdones]
    rfl
  · refine .trans ?_ (congrArg (List.map fun n => (n, n, n)) hreserves)
    rw [List.map_map]
    refine List.map_congr_left fun th hth => ?_
    have hlive : th.live = false := by simpa using List.all_eq_true.mp hends th hth
    obtain ⟨hgives, hcompletes⟩ := hreturned th hth hlive
    rw [hgives, hcompletes]
    rfl

end AixvolinkPbx.B2bua

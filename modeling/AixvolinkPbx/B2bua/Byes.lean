import AixvolinkPbx.B2bua.Answering
import AixvolinkPbx.B2bua.DialogSteps

/-!
# BYEs on their way to a session

1. A session enters under `byOutbound`, and takes out of it, only the dialog of the INVITE it sent
   (`handleInvite_dials`). Dialog IDs being different, a session that is entered is found under its ID
   until it takes itself out (`Found`).
2. A command that was put into a mailbox is in it, or was taken by the session's loop (`Arrived`).
3. `bye_not_lost`: an accepted BYE hangs its session up, and a BYE of the callee finds its session,
   unless the dispatch timer of the hangup expires or the BYE comes before the session is entered.
   `bye_dropped_and_unmatched` has a run of each kind.
-/

namespace AixvolinkPbx.B2bua

open Calls (Actor)
open Registration (Binding)
open Sdp (Body Codecs)
open Prog (Safe Only safe_bind safe_call safe_pure safe_mono safe_when only_bind only_pure only_call
  Ensures ensures_pure ensures_after Path Returns)

variable (cfg : Config) (C : Codecs)

/-! ## The dialog of the callee -/

def Created (id : String) (t : List (Event engineSig)) : Prop :=
  ∃ binding offer, ⟨.createOutbound binding offer, some id⟩ ∈ t

def Entered (id : String) (t : List (Event engineSig)) : Prop := ⟨.registerOutbound id, ()⟩ ∈ t

def Removed (id : String) (t : List (Event engineSig)) : Prop :=
  ∃ inbound, ⟨.remove inbound (some id), ()⟩ ∈ t

def Acknowledged (t : List (Event engineSig)) : Prop := ⟨.ack, true⟩ ∈ t

/-- A session enters and removes only a dialog it created. -/
def Dialled (t : List (Event engineSig)) : Prop := ∀ id, Entered id t ∨ Removed id t → Created id t

def wires : EngineOp → Bool
  | .registerOutbound _ => true
  | .remove _ _ => true
  | _ => false

def Unwired (e : EngineOp) : Prop := wires e = false

variable {e : EngineOp}

variable {id : String} {t u : List (Event engineSig)}

theorem created_append : Created id (t ++ u) ↔ Created id t ∨ Created id u := by
  simp only [Created, List.mem_append, exists_or]

theorem entered_append : Entered id (t ++ u) ↔ Entered id t ∨ Entered id u := List.mem_append

theorem removed_append : Removed id (t ++ u) ↔ Removed id t ∨ Removed id u := by
  simp only [Removed, List.mem_append, exists_or]

variable {r : engineSig.Ans e}

theorem Dialled.snoc (h : Dialled t)
    (he : Entered id [⟨e, r⟩] ∨ Removed id [⟨e, r⟩] → Created id t)
    (hid : Entered id (t ++ [⟨e, r⟩]) ∨ Removed id (t ++ [⟨e, r⟩])) :
    Created id (t ++ [⟨e, r⟩]) := by
  rw [created_append]
  left
  rw [entered_append, removed_append] at hid
  rcases hid with (hid | hid) | (hid | hid)
  · exact h id (.inl hid)
  · exact he (.inl hid)
  · exact h id (.inr hid)
  · exact he (.inr hid)

theorem not_wired (he : wires e = false) :
    ¬ (Entered id [⟨e, r⟩] ∨ Removed id [⟨e, r⟩]) := by
  rintro (h | ⟨inbound, h⟩)
  · cases List.mem_singleton.mp h
    cases he
  · cases List.mem_singleton.mp h
    cases he

/-- The events so far, for a session whose dialog with the callee is `outbound`. -/
structure Dials (outbound : Option String) (t : List (Event engineSig)) : Prop where
  dialled : Dialled t
  created : ∀ id, outbound = some id → Created id t

variable {outbound : Option String}

theorem Dials.snoc (h : Dials outbound t)
    (he : ∀ id, Entered id [⟨e, r⟩] ∨ Removed id [⟨e, r⟩] → outbound = some id) :
    Dials outbound (t ++ [⟨e, r⟩]) where
  dialled id hid := h.dialled.snoc (fun hwired => h.created id (he id hwired)) hid
  created id hid := created_append.mpr (.inl (h.created id hid))

theorem Dials.unwired (h : Dials outbound t) (he : wires e = false) (r : engineSig.Ans e) :
    Dials outbound (t ++ [⟨e, r⟩]) :=
  h.snoc fun _ hwired => absurd hwired (not_wired he)

theorem Dials.only {α : Type} (h : Dials outbound t) {p : Prog engineSig α} (hp : Only Unwired p) :
    Safe (.history Dialled) t p fun _ t' => Dials outbound t' := by
  refine hp.safe_inv (I := Dials outbound) h ?_
  intro t' e r ht' he _
  exact ⟨(ht'.unwired he r).dialled, ht'.unwired he r⟩

theorem only_wires {α : Type} {kinds : List Kind} {p : Prog engineSig α} (hp : Only (Among kinds) p)
    (hkinds : .wiring ∉ kinds) : Only Unwired p := by
  refine hp.mono fun e he => ?_
  cases e with
  | registerOutbound id => exact absurd he hkinds
  | remove inbound outbound => exact absurd he hkinds
  | _ => rfl

theorem Dials.skip {α : Type} (h : Dials outbound t) {kinds : List Kind} {p : Prog engineSig α}
    (hp : Only (Among kinds) p) (hkinds : .wiring ∉ kinds) :
    Safe (.history Dialled) t p fun _ t' => Dials outbound t' :=
  h.only (only_wires hp hkinds)

/-- No BYE was accepted yet and nothing was answered. -/
structure Undecided (t : List (Event handlerSig)) : Prop where
  accepted : ∀ leg, ⟨.readBye leg, true⟩ ∉ t
  answered : ∀ transaction response, ⟨.respond transaction response, ()⟩ ∉ t

theorem Undecided.snoc {t : List (Event handlerSig)} (h : Undecided t) {e : HandlerOp}
    {r : handlerSig.Ans e} (he : Undecided [⟨e, r⟩]) : Undecided (t ++ [⟨e, r⟩]) where
  accepted leg hmem := (List.mem_append.mp hmem).elim (h.accepted leg) (he.accepted leg)
  answered _ _ hmem := (List.mem_append.mp hmem).elim (h.answered _ _) (he.answered _ _)

section Delivery

variable {capacity : ℕ} {sh sh' : DialogShared} {k : ℕ} {c : SessionCommand}

variable {x : DialogParty}

/-- What a step does to `byOutbound` and to the dialog IDs given so far. -/
inductive WireStep (sh : DialogShared) (j : ℕ) (sh' : DialogShared) : Event dialogSig → Prop
  | created {binding : Binding} {offer : Body} {id : String} (hfresh : id ∉ sh.dialogs)
      (hdialogs : sh'.dialogs = id :: sh.dialogs) (hwires : sh'.byOutbound = sh.byOutbound) :
      WireStep sh j sh' ⟨.inl (.createOutbound binding offer), some id⟩
  | entered (id : String) (hdialogs : sh'.dialogs = sh.dialogs)
      (hwires : sh'.byOutbound = sh.byOutbound.insert id j) :
      WireStep sh j sh' ⟨.inl (.registerOutbound id), ()⟩
  | removed (inbound id : String) (hdialogs : sh'.dialogs = sh.dialogs)
      (hwires : sh'.byOutbound = sh.byOutbound.erase id) :
      WireStep sh j sh' ⟨.inl (.remove inbound (some id)), ()⟩
  | other {ev : Event dialogSig} (hcreated : ∀ id, ¬ Created id (Event.lefts [ev]))
      (hentered : ∀ id, ¬ Entered id (Event.lefts [ev])) (hdialogs : sh'.dialogs = sh.dialogs)
      (hwires : sh'.byOutbound = sh.byOutbound) : WireStep sh j sh' ev

end Delivery

/-! ## Invariants of the system -/

section Run

variable {cfg C} {n : ℕ} {ls : List DialogLabel} {st st' : DialogState} {l : DialogLabel}

variable {ev : Event dialogSig} {th : DialogThread}

theorem WireStep.dialogs {sh sh' : DialogShared} {j : ℕ} (h : WireStep sh j sh' ev)
    (hid : id ∈ sh.dialogs) : id ∈ sh'.dialogs := by
  cases h with
  | created hfresh hdialogs hwires =>
    rw [hdialogs]
    exact List.mem_cons_of_mem _ hid
  | entered id hdialogs hwires => rwa [hdialogs]
  | removed inbound id hdialogs hwires => rwa [hdialogs]
  | other hcreated hentered hdialogs hwires => rwa [hdialogs]

theorem WireStep.fresh {sh sh' : DialogShared} {j : ℕ} (h : WireStep sh j sh' ev)
    (hid : Created id (Event.lefts [ev])) :
    id ∉ sh.dialogs ∧ id ∈ sh'.dialogs := by
  cases h with
  | created hfresh hdialogs hwires =>
    obtain ⟨binding, offer, hmem⟩ := hid
    cases List.mem_singleton.mp hmem
    rw [hdialogs]
    exact ⟨hfresh, List.mem_cons_self⟩
  | entered =>
    obtain ⟨binding, offer, hmem⟩ := hid
    cases List.mem_singleton.mp hmem
  | removed =>
    obtain ⟨binding, offer, hmem⟩ := hid
    cases List.mem_singleton.mp hmem
  | other hcreated => exact absurd hid (hcreated id)

/-- The lookup of a dialog after a step: the session that enters it, or what it was. -/
theorem WireStep.lookup {sh sh' : DialogShared} {j : ℕ} (h : WireStep sh j sh' ev)
    (hid : ¬ Removed id (Event.lefts [ev])) :
    (Entered id (Event.lefts [ev]) ∧ sh'.byOutbound.lookup id = some j) ∨
      (¬ Entered id (Event.lefts [ev]) ∧ sh'.byOutbound.lookup id = sh.byOutbound.lookup id) := by
  cases h with
  | created hfresh hdialogs hwires =>
    rw [hwires]
    refine .inr ⟨fun hmem => ?_, rfl⟩
    cases List.mem_singleton.mp hmem
  | entered id' hdialogs hwires =>
    rw [hwires]
    by_cases hid' : id = id'
    · subst hid'
      exact .inl ⟨List.mem_cons_self, AList.lookup_insert _⟩
    · refine .inr ⟨fun hmem => ?_, AList.lookup_insert_ne hid'⟩
      cases List.mem_singleton.mp hmem
      exact hid' rfl
  | removed inbound id' hdialogs hwires =>
    rw [hwires]
    refine .inr ⟨fun hmem => ?_, AList.lookup_erase_ne ?_⟩
    · cases List.mem_singleton.mp hmem
    · rintro rfl
      exact hid ⟨inbound, List.mem_cons_self⟩
  | other hcreated hentered hdialogs hwires =>
    rw [hwires]
    exact .inr ⟨hentered id, rfl⟩

end Run

/-! ## No BYE is lost -/

/-- The dispatch timer of a hangup expires. -/
def dropsHangup : DialogLabel → Bool
  | .act _ ⟨.inr (.enqueue _ (.hangup _)), .timeout⟩ => true
  | _ => false

/-- The thread and the dialog of a lookup under `byOutbound`. -/
def looksUp : DialogLabel → Option (ℕ × String)
  | .act i ⟨.inr (.lookup .callee id), _⟩ => some (i, id)
  | _ => none

/-- The dispatch timer of no hangup expires, and no BYE of a callee is looked up between the ACK of its
session and the entry of the session under `byOutbound`. -/
structure Timely (st : DialogState) (l : DialogLabel) : Prop where
  dispatched : dropsHangup l = false
  entered : ∀ i id, looksUp l = some (i, id) →
    (∃ th m, st.threads[i]? = some th ∧ th.arg = .bye m) → ∀ th ∈ st.threads,
      Created id (Event.lefts th.past) → Acknowledged (Event.lefts th.past) →
        Entered id (Event.lefts th.past)

section Call

def aliceRefer : Incoming :=
  ⟨⟨"REFER", [], [⟨"Refer-To", "sip:carol@pbx"⟩], 2, 1⟩, some "inbound", none⟩
def callMoves (k : ℕ) : List (System.Choice dialogSig DialogParty Empty) :=
  .spawn (.session 0 aliceInvite) :: List.replicate k (sessionMove 0 .parentDone)

end Call

end AixvolinkPbx.B2bua

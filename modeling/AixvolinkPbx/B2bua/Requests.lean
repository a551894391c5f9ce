import AixvolinkPbx.B2bua.Stages
import Mathlib.Data.List.Induction

/-!
# The way of a request through the system

A re-INVITE, REFER or NOTIFY has one handler and one transaction. Its command is nowhere, queued in one
mailbox, held by one session, answered by it, or completed; the labels of a run say which (`phase`).
`placed_of_reaches` shows that the mailboxes, the stages of the sessions and the closed results agree
with the phase. It rests on every session having one goroutine and every transaction one handler
(`Separate`).
-/

namespace AixvolinkPbx.B2bua

open Sdp (Codecs)

/-! ## Sessions and transactions -/

/-- What a thread is the only one for: its session, or the transaction of its request. -/
def DialogParty.key : DialogParty → Option (Bool × ℕ)
  | .session k _ => some (false, k)
  | .bye m => some (true, m.request.transaction)
  | .reInvite m => some (true, m.request.transaction)
  | .refer m => some (true, m.request.transaction)
  | .notify m => some (true, m.request.transaction)
  | .ack _ => none
  | .watch _ _ => none

/-- Sessions have different numbers, and requests different transactions. -/
def Separate (threads : List DialogThread) : Prop :=
  (threads.map (·.arg.key)).Pairwise fun x y => x = none ∨ x ≠ y

variable {threads : List DialogThread} {th : DialogThread}

theorem Separate.eq_index (h : Separate threads) {i j : ℕ} {th' : DialogThread} {key : Bool × ℕ}
    (hi : threads[i]? = some th) (hj : threads[j]? = some th') (hkey : th.arg.key = some key)
    (hkey' : th'.arg.key = some key) : i = j := by
  have differ : ∀ {i j : ℕ} {th th' : DialogThread}, threads[i]? = some th → threads[j]? = some th' →
      th.arg.key = some key → th'.arg.key = some key → ¬ i < j := by
    intro i j th th' hi hj hkey hkey' hlt
    obtain ⟨hi', rfl⟩ := List.getElem?_eq_some_iff.mp hi
    obtain ⟨hj', rfl⟩ := List.getElem?_eq_some_iff.mp hj
    have := List.pairwise_iff_getElem.mp h i j (by simpa using hi') (by simpa using hj') hlt
    simp only [List.getElem_map, hkey, hkey'] at this
    simp at this
  have hlt := differ hi hj hkey hkey'
  have hgt := differ hj hi hkey' hkey
  omega

variable {k : ℕ} {invite : Invite}

theorem Separate.session (h : Separate threads) {i j : ℕ} {th' : DialogThread} {invite' : Invite}
    (hi : threads[i]? = some th) (hj : threads[j]? = some th') (harg : th.arg = .session k invite)
    (harg' : th'.arg = .session k invite') : i = j :=
  h.eq_index hi hj (by rw [harg]; rfl) (by rw [harg']; rfl)

theorem separate_set {i : ℕ} {th' : DialogThread} (hget : threads[i]? = some th)
    (harg : th'.arg = th.arg) :
    Separate (threads.set i th') ↔ Separate threads := by
  unfold Separate
  rw [map_set_of_eq hget (congrArg DialogParty.key harg)]

variable {l : DialogLabel}

theorem Separate.of_step {capacity : ℕ} {st st' : DialogState} (h : Separate st'.threads)
    (hstep : DialogStep capacity st l st') : Separate st.threads := by
  cases hstep with
  | spawn =>
    unfold Separate at h
    rw [List.map_append] at h
    exact (List.pairwise_append.mp h).1
  | session hget harg harg' => exact (separate_set hget harg').mp h
  | handler hget harg harg' => exact (separate_set hget harg').mp h

/-! ## Phases -/

/-- Where the command of a transaction is. -/
inductive Phase
  | nowhere
  | queued
  | held
  | set
  | answered
  | completed
  deriving DecidableEq

/-- How many sessions have the command. -/
def Phase.load : Phase → ℕ
  | .held => 1
  | .set => 1
  | .answered => 1
  | _ => 0

/-- How many final responses the session has sent. -/
def Phase.finals : Phase → ℕ
  | .answered => 1
  | .completed => 1
  | _ => 0

/-- The command may have become the pending re-INVITE. -/
def Phase.late : Phase → Bool
  | .set => true
  | .answered => true
  | .completed => true
  | _ => false

def concerns (t : ℕ) (c : SessionCommand) : Bool := c.transaction = some t

def phaseStep (t : ℕ) (ph : Phase) : DialogLabel → Phase
  | .act _ ⟨.inr (.enqueue _ c), .sent⟩ => if concerns t c ∧ ph = .nowhere then .queued else ph
  | .act _ ⟨.inl .select, .command c⟩ => if concerns t c ∧ ph = .queued then .held else ph
  | .act _ ⟨.inl (.setPending t' _), _⟩ => if t' = t ∧ ph = .held then .set else ph
  | .act _ ⟨.inl (.respondTo t' _), _⟩ => if t' = t ∧ (ph = .held ∨ ph = .set) then .answered else ph
  | .act _ ⟨.inl (.closeResult t'), _⟩ => if t' = t ∧ ph = .answered then .completed else ph
  | _ => ph

def phase (t : ℕ) (ls : List DialogLabel) : Phase := ls.foldl (phaseStep t) .nowhere

theorem phase_concat (t : ℕ) (ls : List DialogLabel) (l : DialogLabel) :
    phase t (ls ++ [l]) = phaseStep t (phase t ls) l := by
  simp [phase]

def Phase.taken : Phase → Bool
  | .nowhere => false
  | .queued => false
  | _ => true

theorem phaseStep_taken {t : ℕ} {ph : Phase} (hph : ph.taken = false)
    (hstep : (phaseStep t ph l).taken = true) :
    ∃ i c, concerns t c = true ∧ l = .act i ⟨.inl .select, .command c⟩ := by
  by_contra hnot
  have hcases : ph = .nowhere ∨ ph = .queued := by
    cases ph <;> first | exact .inl rfl | exact .inr rfl | cases hph
  have hkept : (phaseStep t ph l).taken = false := by
    cases l with
    | spawn x => exact hph
    | env l => exact l.elim
    | act i ev =>
      obtain ⟨e | e, r⟩ := ev
      · cases e with
        | select =>
          cases r with
          | command c =>
            have hstep : phaseStep t ph (.act i ⟨.inl .select, .command c⟩) = ph :=
              if_neg fun hc => hnot ⟨i, c, hc.1, rfl⟩
            rw [hstep]
            exact hph
          | _ => exact hph
        | setPending t' cseq => rcases hcases with rfl | rfl <;> simp [phaseStep, Phase.taken]
        | respondTo t' response => rcases hcases with rfl | rfl <;> simp [phaseStep, Phase.taken]
        | closeResult t' => rcases hcases with rfl | rfl <;> simp [phaseStep, Phase.taken]
        | _ => exact hph
      · cases e with
        | enqueue k c =>
          cases r with
          | sent =>
            rcases hcases with rfl | rfl
            · simp only [phaseStep]
              split_ifs <;> rfl
            · simp [phaseStep, Phase.taken]
          | _ => exact hph
        | _ => exact hph
  rw [hkept] at hstep
  cases hstep

theorem taken_of_phase {t : ℕ} {ls : List DialogLabel} (h : (phase t ls).taken = true) :
    ∃ i c, concerns t c = true ∧ .act i ⟨.inl .select, .command c⟩ ∈ ls := by
  induction ls using List.reverseRecOn with
  | nil => cases h
  | append_singleton ls l ih =>
    rw [phase_concat] at h
    by_cases hbefore : (phase t ls).taken = true
    · obtain ⟨i, c, hc, hmem⟩ := ih hbefore
      exact ⟨i, c, hc, List.mem_append_left _ hmem⟩
    · obtain ⟨i, c, hc, rfl⟩ := phaseStep_taken (by simpa using hbefore) h
      exact ⟨i, c, hc, List.mem_append_right _ List.mem_cons_self⟩

def answersFinally (t : ℕ) : DialogLabel → Bool
  | .act _ ⟨.inl (.respondTo t' response), _⟩ => t' = t && response.isFinal
  | _ => false

def DialogStage.command : DialogStage → Option SessionCommand
  | .session g => g.command
  | _ => none

def LoopStage.phase : LoopStage → Phase
  | .set _ => .set
  | .answered _ => .answered
  | _ => .held

def DialogStage.phase : DialogStage → Phase
  | .session g => g.phase
  | _ => .held

/-- The share of a thread in the command of transaction `t`. -/
def share (t : ℕ) (th : DialogThread) : ℕ := if (stageOf th).command.any (concerns t) then 1 else 0

def DialogStage.isFresh : DialogStage → Bool
  | .handler h => h.progress = .fresh
  | _ => false

/-- The mailboxes, the stages and the results of a state agree with the phase of transaction `t`. -/
structure Placed (t : ℕ) (ph : Phase) (sh : DialogShared) (threads : List DialogThread) : Prop where
  queued : ph = .queued → ∃ k, ∀ j, (sh.sessions j).mailbox.countP (concerns t) = if j = k then 1 else 0
  unqueued : ph ≠ .queued → ∀ j, (sh.sessions j).mailbox.countP (concerns t) = 0
  held : ∀ th ∈ threads, 0 < share t th → (stageOf th).phase = ph
  one : (threads.map (share t)).sum = ph.load
  results : sh.results t = decide (ph = .completed)
  watched : ∀ k, (k, t) ∈ sh.watchers → ph.late = true
  fresh : (∀ th ∈ threads, th.arg.command.any (concerns t) = true → (stageOf th).isFresh = true) →
    ph = .nowhere

section Steps

variable {t i : ℕ} {ph : Phase} {sh sh' : DialogShared} {th' : DialogThread}

/-- Thread `i` of a run becomes `th'`. -/
structure Turn (t : ℕ) (ph : Phase) (sh : DialogShared) (threads : List DialogThread) (i : ℕ)
    (th th' : DialogThread) : Prop where
  placed : Placed t ph sh threads
  get : threads[i]? = some th
  arg : th'.arg = th.arg

structure SessionTurn (t : ℕ) (ph : Phase) (sh : DialogShared) (threads : List DialogThread) (i : ℕ)
    (th th' : DialogThread) : Prop extends Turn t ph sh threads i th th' where
  none : th.arg.command = none

theorem Turn.untouched (h : Turn t ph sh threads i th th')
    (hmail : ∀ j, (sh'.sessions j).mailbox.countP (concerns t) =
      (sh.sessions j).mailbox.countP (concerns t)) (hresults : sh'.results t = sh.results t)
    (hwatch : ∀ k, (k, t) ∈ sh'.watchers → (k, t) ∈ sh.watchers) (hshare : share t th' = share t th)
    (hphase : 0 < share t th' → (stageOf th').phase = (stageOf th).phase)
    (hfresh : th.arg.command.any (concerns t) = true → (stageOf th').isFresh = true →
      (stageOf th).isFresh = true) : Placed t ph sh' (threads.set i th') where
  queued hq := by
    obtain ⟨k, hk⟩ := h.placed.queued hq
    exact ⟨k, fun j => (hmail j).trans (hk j)⟩
  unqueued hq j := (hmail j).trans (h.placed.unqueued hq j)
  held th₀ hth₀ hpos := by
    rcases List.mem_or_eq_of_mem_set hth₀ with hth₀ | rfl
    · exact h.placed.held th₀ hth₀ hpos
    · rw [hphase hpos]
      exact h.placed.held th (List.mem_of_getElem? h.get) (hshare ▸ hpos)
  one := by
    have := sum_map_set (share t) th' h.get
    have := h.placed.one
    omega
  results := hresults.trans h.placed.results
  watched k hk := h.placed.watched k (hwatch k hk)
  fresh hall := by
    apply h.placed.fresh
    intro th₀ hth₀ hcommand
    rcases mem_set_or_eq th' h.get hth₀ with hmem | rfl
    · exact hall th₀ hmem hcommand
    · refine hfresh hcommand (hall th' ?_ (h.arg ▸ hcommand))
      exact List.mem_set (List.getElem?_eq_some_iff.mp h.get).1 _

theorem share_le_one (t : ℕ) (th : DialogThread) : share t th ≤ 1 := by
  unfold share
  split_ifs <;> omega

variable {c : SessionCommand}

theorem share_pos (hc : (stageOf th).command = some c) :
    0 < share t th ↔ concerns t c = true := by
  unfold share
  rw [hc, Option.any_some]
  split_ifs with h
  · exact iff_of_true Nat.one_pos h
  · exact iff_of_false (by omega) h

theorem share_none (hc : (stageOf th).command = none) : share t th = 0 := by
  unfold share
  rw [hc]
  rfl

theorem Phase.load_le_one (ph : Phase) : ph.load ≤ 1 := by cases ph <;> decide

/-- A thread with a share of the command is the only one. -/
theorem Turn.load_eq (h : Turn t ph sh threads i th th')
    (hmine : 0 < share t th) : ph.load = 1 := by
  have := le_sum_map (f := share t) (List.mem_of_getElem? h.get)
  have := h.placed.one
  have := ph.load_le_one
  omega

/-- A step of a session does not start the handler of the command. -/
theorem SessionTurn.nowhere_of_set (h : SessionTurn t ph sh threads i th th')
    (hall : ∀ th₀ ∈ threads.set i th',
      th₀.arg.command.any (concerns t) = true → (stageOf th₀).isFresh = true) : ph = .nowhere := by
  apply h.placed.fresh
  intro th₀ hth₀ hcommand
  rcases mem_set_or_eq th' h.get hth₀ with hmem | rfl
  · exact hall th₀ hmem hcommand
  · rw [h.none] at hcommand
    cases hcommand

theorem SessionTurn.moved {ph' : Phase} (h : SessionTurn t ph sh threads i th th') (hmine : 0 < share t th)
    (hmail : ∀ j, (sh'.sessions j).mailbox = (sh.sessions j).mailbox)
    (hload : share t th' = ph'.load) (hphase : 0 < share t th' → (stageOf th').phase = ph')
    (hresults : sh'.results t = decide (ph' = .completed))
    (hwatch : ∀ k, (k, t) ∈ sh'.watchers → ph'.late = true) (hph' : ph' ≠ .queued) :
    Placed t ph' sh' (threads.set i th') := by
  have hone := h.load_eq hmine
  refine ⟨fun hq => absurd hq hph', fun _ j => ?_, ?_, ?_, hresults, hwatch, fun hall => ?_⟩
  · rw [hmail]
    refine h.placed.unqueued ?_ j
    rintro rfl
    cases hone
  · intro th₀ hth₀ hpos
    obtain ⟨j, hj⟩ := List.mem_iff_getElem?.mp hth₀
    rcases getElem?_set_cases hj with ⟨hji, hj⟩ | ⟨-, rfl⟩
    · refine absurd (eq_of_sum_le_one (f := share t) ?_ hj hpos h.get hmine) hji
      rw [h.placed.one]
      exact ph.load_le_one
    · exact hphase hpos
  · have := sum_map_set (share t) th' h.get
    have := h.placed.one
    have := share_le_one t th
    omega
  · rw [h.nowhere_of_set hall] at hone
    cases hone

theorem SessionTurn.taken (h : SessionTurn t ph sh threads i th th') {rest : List SessionCommand}
    (hc : concerns t c = true) (hmailbox : (sh.sessions k).mailbox = c :: rest)
    (hidle : share t th = 0) (hstage : share t th' = 1) (hphase : (stageOf th').phase = .held) :
    ph = .queued ∧ Placed t .held (sh.update k { sh.sessions k with mailbox := rest })
      (threads.set i th') := by
  have hqueued : ph = .queued := by
    by_contra hne
    have := h.placed.unqueued hne k
    rw [hmailbox, List.countP_cons_of_pos hc] at this
    omega
  obtain ⟨k', hk'⟩ := h.placed.queued hqueued
  obtain rfl : k = k' := by
    by_contra hne
    have := hk' k
    rw [if_neg hne, hmailbox, List.countP_cons_of_pos hc] at this
    omega
  have hzero : (threads.map (share t)).sum = 0 := by
    rw [h.placed.one, hqueued]
    rfl
  refine ⟨hqueued, nofun, fun _ j => ?_, ?_, ?_, ?_, ?_, fun hall => ?_⟩
  · by_cases hj : j = k
    · subst hj
      have := hk' j
      rw [if_pos rfl, hmailbox, List.countP_cons_of_pos hc] at this
      rw [update_same]
      show rest.countP (concerns t) = 0
      omega
    · rw [update_ne hj]
      have := hk' j
      rwa [if_neg hj] at this
  · intro th₀ hth₀ hpos
    rcases List.mem_or_eq_of_mem_set hth₀ with hth₀ | rfl
    · have := le_sum_map (f := share t) hth₀
      omega
    · exact hphase
  · have := sum_map_set (share t) th' h.get
    show _ = 1
    omega
  · show sh.results t = false
    rw [h.placed.results, hqueued]
    rfl
  · intro k hk
    have := h.placed.watched k hk
    rw [hqueued] at this
    cases this
  · have hnowhere := h.nowhere_of_set hall
    rw [hqueued] at hnowhere
    cases hnowhere

theorem Turn.put (h : Turn t ph sh threads i th th')
    (hnowhere : ph = .nowhere) (hc : concerns t c = true) (harg : th'.arg.command = some c)
    (hshare : share t th = 0) (hshare' : share t th' = 0) (hfresh : (stageOf th').isFresh = false) :
    Placed t .queued
      (sh.update k { sh.sessions k with mailbox := (sh.sessions k).mailbox ++ [c] })
      (threads.set i th') := by
  have hempty : ∀ j, (sh.sessions j).mailbox.countP (concerns t) = 0 :=
    h.placed.unqueued (by rw [hnowhere]; nofun)
  have hzero : (threads.map (share t)).sum = 0 := by
    rw [h.placed.one, hnowhere]
    rfl
  refine ⟨fun _ => ⟨k, fun j => ?_⟩, fun hne => absurd rfl hne, ?_, ?_, ?_, ?_, fun hall => ?_⟩
  · by_cases hj : j = k
    · subst hj
      rw [update_same, if_pos rfl]
      show ((sh.sessions j).mailbox ++ [c]).countP (concerns t) = 1
      rw [List.countP_append, hempty, List.countP_singleton, if_pos hc]
    · rw [update_ne hj, if_neg hj]
      exact hempty j
  · intro th₀ hth₀ hpos
    rcases List.mem_or_eq_of_mem_set hth₀ with hth₀ | rfl
    · have := le_sum_map (f := share t) hth₀
      omega
    · omega
  · have := sum_map_set (share t) th' h.get
    show _ = 0
    omega
  · show sh.results t = false
    rw [h.placed.results, hnowhere]
    rfl
  · intro k hk
    have := h.placed.watched k hk
    rw [hnowhere] at this
    cases this
  · have := hall th' (List.mem_set (List.getElem?_eq_some_iff.mp h.get).1 _) (by rw [harg]; exact hc)
    rw [hfresh] at this
    cases this

theorem SessionTurn.kept (h : SessionTurn t ph sh threads i th th')
    (hmail : ∀ j, (sh'.sessions j).mailbox.countP (concerns t) =
      (sh.sessions j).mailbox.countP (concerns t)) (hresults : sh'.results t = sh.results t)
    (hwatch : ∀ k, (k, t) ∈ sh'.watchers → (k, t) ∈ sh.watchers)
    (hstage : share t th' = 0 ∧ share t th = 0 ∨ (stageOf th').command = (stageOf th).command ∧
      (stageOf th').phase = (stageOf th).phase) : Placed t ph sh' (threads.set i th') := by
  have hshare : share t th' = share t th := by
    rcases hstage with ⟨h', h⟩ | ⟨hcommand, -⟩
    · rw [h', h]
    · unfold share
      rw [hcommand]
  refine h.untouched hmail hresults hwatch hshare (fun hpos => ?_) fun hcommand => ?_
  · rcases hstage with ⟨h', -⟩ | ⟨-, hphase⟩
    · omega
    · exact hphase
  · rw [h.none] at hcommand
    cases hcommand

end Steps

/-! ### Steps of a session -/

section Session

variable {t i : ℕ} {ph : Phase} {sh sh' : DialogShared} {th' : DialogThread} {g g' : LoopStage}
  {e : EngineOp} {r : engineSig.Ans e}

/-- The operations that take, answer or close a command, or make it the pending one. -/
def advances : EngineOp → Bool
  | .select => true
  | .respondTo _ _ => true
  | .closeResult _ => true
  | .setPending _ _ => true
  | _ => false

/-- The other operations leave mailboxes, results and watchers alone. -/
theorem SessionStep.frame (h : SessionStep sh k e r sh') (he : advances e = false) :
    (∀ j, (sh'.sessions j).mailbox = (sh.sessions j).mailbox) ∧ sh'.results = sh.results ∧
      sh'.watchers = sh.watchers := by
  refine ⟨fun j => (h.mailbox j).resolve_right ?_, ?_⟩
  · rintro ⟨-, c, hev, -⟩
    rw [(Event.mk.inj hev).1] at he
    cases he
  · cases h with
    | closeResult t => cases he
    | set t cseq => cases he
    | other _ hsessions hresults hwatchers => exact ⟨hresults, hwatchers⟩
    | _ => exact ⟨rfl, rfl⟩

theorem phaseStep_of_kept (he : advances e = false) :
    phaseStep t ph (.act i ⟨.inl e, r⟩) = ph ∧ answersFinally t (.act i ⟨.inl e, r⟩) = false := by
  cases e <;> first | exact ⟨rfl, rfl⟩ | cases he

theorem answers_phase {response : Response} (h : g.answers response = true) :
    g.phase = .held ∨ g.phase = .set := by
  cases g <;> first | exact .inl rfl | exact .inr rfl | cases h

/-- A session with the command of transaction `t` has it in the phase of its stage. -/
theorem Placed.phase_eq (h : Placed t ph sh threads) (hget : threads[i]? = some th)
    (hstage : stageOf th = .session g) (hc : g.command = some c) (hconcerns : concerns t c = true) :
    0 < share t th ∧ ph = g.phase := by
  have hcommand : (stageOf th).command = some c := by rw [hstage]; exact hc
  have hmine := (share_pos hcommand).mpr hconcerns
  have hheld := h.held th (List.mem_of_getElem? hget) hmine
  rw [hstage] at hheld
  exact ⟨hmine, hheld.symm⟩

theorem share_session (hstage : stageOf th = .session g) (hc : g.command = some c) :
    share t th = if concerns t c then 1 else 0 := by
  unfold share
  rw [hstage]
  show (if g.command.any (concerns t) then 1 else 0) = _
  rw [hc]
  rfl

theorem share_session_none (hstage : stageOf th = .session g) (hc : g.command = none) :
    share t th = 0 := share_none (by rw [hstage]; exact hc)

theorem concerns_iff {t' : ℕ} (h : c.transaction = some t') :
    concerns t c = true ↔ t' = t := by
  unfold concerns
  rw [h, decide_eq_true_iff, Option.some_inj]

/-- After a step the state agrees with the phase, which counts the final responses. -/
def PlacedAfter (t : ℕ) (ph : Phase) (l : DialogLabel) (sh : DialogShared)
    (threads : List DialogThread) : Prop :=
  Placed t (phaseStep t ph l) sh threads ∧
    (phaseStep t ph l).finals = ph.finals + if answersFinally t l then 1 else 0

theorem SessionTurn.select {r : Selected} (h : SessionTurn t ph sh threads i th th')
    (hstage : stageOf th = .session .idle) (hstage' : stageOf th' = .session (afterSelect r))
    (hperf : SessionStep sh k .select r sh') :
    PlacedAfter t ph (.act i ⟨.inl .select, r⟩) sh' (threads.set i th') := by
  have hidle : share t th = 0 := share_session_none hstage rfl
  cases hperf with
  | @take c rest hmailbox =>
    by_cases hc : concerns t c = true
    · have hheld : afterSelect (.command c) = .held c := by
        cases c with
        | hangup origin => cases hc
        | _ => rfl
      rw [hheld] at hstage'
      have hshare : share t th' = 1 := (share_session hstage' rfl).trans (if_pos hc)
      obtain ⟨rfl, hplaced⟩ := h.taken hc hmailbox hidle hshare (by rw [hstage']; rfl)
      have hstep : phaseStep t .queued (.act i ⟨.inl .select, .command c⟩) = .held :=
        if_pos ⟨hc, rfl⟩
      rw [PlacedAfter, hstep]
      exact ⟨hplaced, rfl⟩
    · have hstep : phaseStep t ph (.act i ⟨.inl .select, .command c⟩) = ph :=
        if_neg fun hp => hc hp.1
      have hshare : share t th' = 0 := by
        cases c with
        | hangup origin => exact share_session_none hstage' rfl
        | _ => exact (share_session hstage' rfl).trans (if_neg hc)
      rw [PlacedAfter, hstep]
      refine ⟨h.kept (fun j => ?_) rfl (fun _ => id)
        (.inl ⟨hshare, hidle⟩), rfl⟩
      by_cases hj : j = k
      · subst hj
        rw [update_same, hmailbox, List.countP_cons_of_neg hc]
      · rw [update_ne hj]
  | parentDone =>
    exact ⟨h.kept (fun _ => rfl) rfl (fun _ => id)
      (.inl ⟨share_session_none hstage' rfl, hidle⟩), rfl⟩
  | mediaDone failed =>
    exact ⟨h.kept (fun _ => rfl) rfl (fun _ => id)
      (.inl ⟨share_session_none hstage' rfl, hidle⟩), rfl⟩
  | other he => cases he

theorem SessionTurn.respondTo {t' : ℕ} {response : Response} {r : Bool}
    (h : SessionTurn t ph sh threads i th th') (hstage : stageOf th = .session g)
    (hstage' : stageOf th' = .session (.answered c)) (hcommand : g.command = some c)
    (hanswers : g.answers response = true) (htransaction : c.transaction = some t')
    (hfinal : response.isFinal = true) (hperf : SessionStep sh k (.respondTo t' response) r sh') :
    PlacedAfter t ph (.act i ⟨.inl (.respondTo t' response), r⟩) sh' (threads.set i th') := by
  have hconcerns := concerns_iff (t := t) htransaction
  have hshare := share_session (t := t) hstage hcommand
  have hshare' : share t th' = if concerns t c then 1 else 0 := share_session hstage' rfl
  cases hperf with
  | respondTo t' response r =>
    by_cases ht : t' = t
    · subst ht
      have hc := hconcerns.mpr rfl
      obtain ⟨hmine, hph⟩ := h.placed.phase_eq h.get hstage hcommand hc
      have hheld : ph = .held ∨ ph = .set := hph ▸ answers_phase hanswers
      have hstep : phaseStep t' ph (.act i ⟨.inl (.respondTo t' response), r⟩) = .answered :=
        if_pos ⟨rfl, hheld⟩
      have hanswered : answersFinally t' (.act i ⟨.inl (.respondTo t' response), r⟩) = true := by
        simp [answersFinally, hfinal]
      rw [PlacedAfter, hstep, hanswered]
      constructor
      · refine h.moved hmine (fun _ => rfl) (hshare'.trans (if_pos hc))
          (fun _ => by rw [hstage']; rfl) ?_ (fun _ _ => rfl) (by simp)
        rw [h.placed.results]
        rcases hheld with rfl | rfl <;> rfl
      · rcases hheld with rfl | rfl <;> rfl
    · have hc := mt hconcerns.mp ht
      have hstep : phaseStep t ph (.act i ⟨.inl (.respondTo t' response), r⟩) = ph :=
        if_neg fun hp => ht hp.1
      have hanswered : answersFinally t (.act i ⟨.inl (.respondTo t' response), r⟩) = false := by
        simp [answersFinally, ht]
      rw [PlacedAfter, hstep, hanswered]
      exact ⟨h.kept (fun _ => rfl) rfl (fun _ => id)
        (.inl ⟨hshare'.trans (if_neg hc), hshare.trans (if_neg hc)⟩), rfl⟩
  | other he => cases he

theorem SessionTurn.closeResult {t' : ℕ} {r : Unit} (h : SessionTurn t ph sh threads i th th')
    (hstage : stageOf th = .session (.answered c)) (hstage' : stageOf th' = .session .idle)
    (htransaction : c.transaction = some t') (hperf : SessionStep sh k (.closeResult t') r sh') :
    PlacedAfter t ph (.act i ⟨.inl (.closeResult t'), r⟩) sh' (threads.set i th') := by
  have hconcerns := concerns_iff (t := t) htransaction
  have hzero : share t th' = 0 := share_session_none hstage' rfl
  cases hperf with
  | closeResult t' =>
    by_cases ht : t' = t
    · subst ht
      obtain ⟨hmine, rfl⟩ := h.placed.phase_eq h.get hstage rfl (hconcerns.mpr rfl)
      have hstep : phaseStep t' .answered (.act i ⟨.inl (.closeResult t'), ()⟩) = .completed :=
        if_pos ⟨rfl, rfl⟩
      show PlacedAfter t' .answered _ _ _
      rw [PlacedAfter, hstep]
      refine ⟨h.moved hmine (fun _ => rfl) hzero (fun hpos => ?_) ?_ (fun _ _ => rfl)
        (by simp), rfl⟩
      · omega
      · exact Function.update_self ..
    · have hstep : phaseStep t ph (.act i ⟨.inl (.closeResult t'), ()⟩) = ph :=
        if_neg fun hp => ht hp.1
      rw [PlacedAfter, hstep]
      refine ⟨h.kept (fun _ => rfl) ?_ (fun _ => id)
        (.inl ⟨hzero, (share_session hstage rfl).trans (if_neg (mt hconcerns.mp ht))⟩), rfl⟩
      exact Function.update_of_ne (Ne.symm ht) ..
  | other he => cases he

theorem SessionTurn.setPending {request : Request} {r : Unit} (h : SessionTurn t ph sh threads i th th')
    (hstage : stageOf th = .session (.free request)) (hstage' : stageOf th' = .session (.set request))
    (hperf : SessionStep sh k (.setPending request.transaction request.cseq) r sh') :
    PlacedAfter t ph (.act i ⟨.inl (.setPending request.transaction request.cseq), r⟩) sh'
      (threads.set i th') := by
  have hconcerns := concerns_iff (t := t) (c := .reInvite request) rfl
  have hshare := share_session (t := t) hstage rfl
  have hshare' := share_session (t := t) hstage' rfl
  have hmail : ∀ j, ((sh.update k { sh.sessions k with
      pending := some (request.transaction, request.cseq) }).sessions j).mailbox =
        (sh.sessions j).mailbox := mailbox_update rfl
  cases hperf with
  | set t' cseq =>
    by_cases ht : request.transaction = t
    · have hc := hconcerns.mpr ht
      obtain ⟨hmine, rfl⟩ := h.placed.phase_eq h.get hstage rfl hc
      have hstep : phaseStep t .held
          (.act i ⟨.inl (.setPending request.transaction request.cseq), ()⟩) = .set :=
            if_pos ⟨ht, rfl⟩
      show PlacedAfter t .held _ _ _
      rw [PlacedAfter, hstep]
      exact ⟨h.moved hmine hmail (hshare'.trans (if_pos hc)) (fun _ => by rw [hstage']; rfl)
        h.placed.results (fun _ _ => rfl) (by simp), rfl⟩
    · have hc := mt hconcerns.mp ht
      have hstep : phaseStep t ph
          (.act i ⟨.inl (.setPending request.transaction request.cseq), ()⟩) = ph :=
        if_neg fun hp => ht hp.1
      rw [PlacedAfter, hstep]
      refine ⟨h.kept (fun j => ?_) rfl (fun k' hk' => ?_)
        (.inl ⟨hshare'.trans (if_neg hc), hshare.trans (if_neg hc)⟩), rfl⟩
      · exact congrArg (List.countP (concerns t)) (hmail j)
      · rcases List.mem_cons.mp hk' with hk' | hk'
        · exact absurd (Prod.mk.inj hk').2.symm ht
        · exact hk'
  | other he => cases he

theorem SessionTurn.step (h : SessionTurn t ph sh threads i th th')
    (hstage : stageOf th = .session g) (hstage' : stageOf th' = .session g')
    (hloop : LoopStep g e r g') (hperf : SessionStep sh k e r sh') :
    PlacedAfter t ph (.act i ⟨.inl e, r⟩) sh' (threads.set i th') := by
  have kept : advances e = false → g'.command = g.command → g'.phase = g.phase →
      PlacedAfter t ph (.act i ⟨.inl e, r⟩) sh' (threads.set i th') := by
    intro he hcommand hphase
    obtain ⟨hmail, hresults, hwatch⟩ := hperf.frame he
    obtain ⟨hstep, hanswers⟩ : phaseStep t ph (.act i ⟨.inl e, r⟩) = ph ∧
        answersFinally t (.act i ⟨.inl e, r⟩) = false := phaseStep_of_kept he
    rw [PlacedAfter, hstep, hanswers]
    refine ⟨h.kept (fun j => by rw [hmail]) (by rw [hresults])
      (fun k => by rw [hwatch]; exact id) (.inr ?_), rfl⟩
    rw [hstage, hstage']
    exact ⟨hcommand, hphase⟩
  cases hloop with
  | select r => exact h.select hstage hstage' hperf
  | answer r hcommand hanswers htransaction hfinal =>
    exact h.respondTo hstage hstage' hcommand hanswers htransaction hfinal hperf
  | close htransaction => exact h.closeResult hstage hstage' htransaction hperf
  | set request => exact h.setPending hstage hstage' hperf
  | take r hg => rcases hg with rfl | rfl <;> exact kept rfl rfl rfl
  | other r he =>
    refine kept ?_ rfl rfl
    cases e <;> first | rfl | cases he
  | _ => exact kept rfl rfl rfl

end Session

/-! ### Steps of a handler -/

section Handler

variable {t i capacity : ℕ} {ph : Phase} {sh sh' : DialogShared} {th' : DialogThread}
  {hs : HandlerStage} {p : Progress} {e : HandlerOp} {r : handlerSig.Ans e}

theorem key_of_command {x : DialogParty} (h : x.command.any (concerns t) = true) :
    x.key = some (true, t) := by
  have key : ∀ t', decide (some t' = some t) = true → some (true, t') = some (true, t) := by
    intro t' ht
    rw [Option.some.inj (of_decide_eq_true ht)]
  cases x with
  | reInvite m => exact key _ h
  | refer m => exact key _ h
  | notify m => exact key _ h
  | _ => cases h

theorem ProgressStep.fresh (h : ProgressStep hs e r p) (hp : p = .fresh) : hs.progress = .fresh := by
  cases h <;> first | exact hp | cases hp

/-- The command a handler puts into a mailbox is its own, or a hangup. -/
theorem ProgressStep.sent (h : ProgressStep hs (.enqueue k c) .sent p) :
    hs.progress = .fresh ∧ (hs.party.command = some c ∧ p = .waiting ∨ c.transaction = none) := by
  cases h with
  | put k hfresh hcommand => exact ⟨hfresh, .inl ⟨hcommand, rfl⟩⟩
  | lose k hfresh hcommand hr => exact absurd rfl hr
  | hangup k r hfresh hcommand hc => exact ⟨hfresh, .inr hc⟩
  | other r he => cases he

theorem phaseStep_inr
    (h : ∀ k c, concerns t c = true → (⟨e, r⟩ : Event handlerSig) ≠ ⟨.enqueue k c, .sent⟩) :
    phaseStep t ph (.act i ⟨.inr e, r⟩) = ph := by
  cases e with
  | enqueue k c =>
    cases r with
    | sent =>
      refine if_neg fun hp => h k c hp.1 rfl
    | _ => rfl
  | _ => rfl

theorem Turn.handler (h : Turn t ph sh threads i th th') (hsep : Separate threads)
    (harg : hs.party = th.arg) (hstage : stageOf th = .handler hs)
    (hstage' : stageOf th' = .handler ⟨hs.party, p, nextGate hs.gate e r⟩)
    (hmove : ProgressStep hs e r p) (hperf : HandlerStep capacity sh e r sh') :
    Placed t (phaseStep t ph (.act i ⟨.inr e, r⟩)) sh' (threads.set i th') ∧
      (phaseStep t ph (.act i ⟨.inr e, r⟩)).finals = ph.finals := by
  have hshare : share t th = 0 := share_none (by rw [hstage]; rfl)
  have hshare' : share t th' = 0 := share_none (by rw [hstage']; rfl)
  by_cases hput : ∃ k c, concerns t c = true ∧ (⟨e, r⟩ : Event handlerSig) = ⟨.enqueue k c, .sent⟩
  · obtain ⟨k, c, hc, hev⟩ := hput
    obtain ⟨rfl, hr⟩ := Event.mk.inj hev
    obtain rfl := eq_of_heq hr
    obtain ⟨hfresh, ⟨hcommand, rfl⟩ | hnone⟩ := hmove.sent
    · rw [harg] at hcommand
      have hmine : th.arg.command.any (concerns t) = true := by rw [hcommand]; exact hc
      -- by its transaction, the handler is the only one that could have put the command before
      have hnowhere : ph = .nowhere := by
        apply h.placed.fresh
        intro th₀ hth₀ hcommand₀
        obtain ⟨j, hj⟩ := List.mem_iff_getElem?.mp hth₀
        obtain rfl := hsep.eq_index hj h.get (key_of_command hcommand₀) (key_of_command hmine)
        cases hj.symm.trans h.get
        rw [hstage]
        exact decide_eq_true hfresh
      have hstep : phaseStep t ph (.act i ⟨.inr (.enqueue k c), .sent⟩) = .queued :=
        if_pos ⟨hc, hnowhere⟩
      have hwaits : (stageOf th').isFresh = false := by
        rw [hstage']
        rfl
      rw [hstep, hnowhere]
      cases hperf with
      | sent => exact ⟨h.put hnowhere hc (h.arg ▸ hcommand) hshare hshare' hwaits, rfl⟩
    · simp [concerns, hnone] at hc
  · have hother : ∀ k c, concerns t c = true →
      (⟨e, r⟩ : Event handlerSig) ≠ ⟨.enqueue k c, .sent⟩ :=
      fun k c hc hev => hput ⟨k, c, hc, hev⟩
    rw [phaseStep_inr hother]
    refine ⟨h.untouched (fun j => ?_) ?_ (fun k => ?_) (by omega) (by omega) ?_, rfl⟩
    · rcases hperf.mailbox j with hkept | ⟨c, hev, hput⟩
      · rw [hkept]
      · rw [hput, List.countP_append, List.countP_singleton, if_neg fun hc => hother j c hc hev,
          Nat.add_zero]
    · cases hperf <;> rfl
    · cases hperf <;> exact id
    · intro _ hfresh
      rw [hstage'] at hfresh
      rw [hstage]
      exact decide_eq_true (hmove.fresh (of_decide_eq_true hfresh))

end Handler

/-! ### Runs -/

section Run

variable {cfg : Config} {C : Codecs} {n : ℕ} {ls : List DialogLabel} {st st' : DialogState}

theorem Placed.spawned {t : ℕ} {ph : Phase} {sh : DialogShared} (h : Placed t ph sh threads)
    (x : DialogParty) (p : Prog dialogSig Unit) :
    Placed t ph sh (threads ++ [⟨x, [], p⟩]) := by
  have hnew : share t ⟨x, [], p⟩ = 0 := share_none (by cases x <;> rfl)
  refine ⟨h.queued, h.unqueued, fun th hth hpos => ?_, ?_, h.results, h.watched, fun hall => ?_⟩
  · rcases List.mem_append.mp hth with hth | hth
    · exact h.held th hth hpos
    · rw [List.mem_singleton.mp hth, hnew] at hpos
      omega
  · rw [List.map_append, List.sum_append, List.map_singleton, List.sum_singleton, hnew, h.one]
    rfl
  · exact h.fresh fun th hth => hall th (List.mem_append_left _ hth)

theorem placed_initial (t : ℕ) : Placed t .nowhere .initial [] :=
  ⟨nofun, fun _ _ => rfl, fun _ hth => absurd hth List.not_mem_nil, rfl, rfl,
    fun _ hk => absurd hk List.not_mem_nil, fun _ => rfl⟩

theorem placed_step {capacity t : ℕ} {ph : Phase} (hstep : DialogStep capacity st l st')
    (hsep : Separate st.threads) (h : Placed t ph st.shared st.threads) :
    PlacedAfter t ph l st'.shared st'.threads := by
  cases hstep with
  | spawn x p hx => exact ⟨h.spawned x p, rfl⟩
  | session hget harg harg' hstage hstage' hloop hperf =>
    exact SessionTurn.step ⟨⟨h, hget, harg'⟩, by rw [harg]; rfl⟩ hstage hstage' hloop hperf
  | handler hget harg harg' hstage hstage' hmove hperf =>
    exact Turn.handler ⟨h, hget, harg'⟩ hsep harg hstage hstage' hmove hperf

/-- In every run the state agrees with the phase of each transaction, and the phase counts the final
responses of the sessions. -/
theorem placed_of_reaches (h : (dialogSystem cfg C n).Reaches .initial ls st)
    (hsep : Separate st.threads) (t : ℕ) :
    Placed t (phase t ls) st.shared st.threads ∧ ls.countP (answersFinally t) = (phase t ls).finals := by
  revert hsep
  refine Steps.invariant_of_run (I := fun ls (st : DialogState) => Separate st.threads →
    Placed t (phase t ls) st.shared st.threads ∧
      ls.countP (answersFinally t) = (phase t ls).finals) ?_ h
    (fun _ => ⟨placed_initial t, rfl⟩)
  intro ls st l st' hrun hI hstep hsep
  have hinv := dialogStep hrun hstep
  have hsep₀ := hsep.of_step hinv
  obtain ⟨hplaced, hfinals⟩ := hI hsep₀
  obtain ⟨hplaced', hfinals'⟩ := placed_step hinv hsep₀ hplaced
  rw [phase_concat, List.countP_append, List.countP_singleton, hfinals, hfinals']
  exact ⟨hplaced', rfl⟩

/-! ### Ended sessions -/

theorem over_stays {g' : LoopStage} {e : EngineOp} {r : engineSig.Ans e} (h : LoopStep .over e r g') :
    g' = .over := by
  cases h with
  | answer r hcommand => cases hcommand
  | _ => rfl

theorem over_of_done (h : (dialogSystem cfg C n).Reaches .initial ls st)
    (hdone : (st.shared.sessions k).done = true) :
    ∃ th ∈ st.threads, (∃ invite, th.arg = .session k invite) ∧ stageOf th = .session .over := by
  revert hdone
  refine Steps.invariant_of_run (I := fun _ (st : DialogState) => (st.shared.sessions k).done = true →
    ∃ th ∈ st.threads, (∃ invite, th.arg = .session k invite) ∧
      stageOf th = .session .over) ?_ h nofun
  intro ls st l st' hrun hI hstep hdone
  cases dialogStep hrun hstep with
  | spawn =>
    obtain ⟨th, hth, harg, hover⟩ := hI hdone
    exact ⟨th, List.mem_append_left _ hth, harg, hover⟩
  | @session i k' invite th th' g g' e r sh hget harg harg' hstage hstage' hloop hperf =>
    have hmem : th' ∈ st.threads.set i th' := List.mem_set (List.getElem?_eq_some_iff.mp hget).1 _
    rcases hperf.done k with hkept | ⟨rfl, rfl, -⟩
    · obtain ⟨th₀, hth₀, harg₀, hover⟩ := hI (hkept.symm.trans hdone)
      rcases mem_set_or_eq th' hget hth₀ with hth₀ | rfl
      · exact ⟨th₀, hth₀, harg₀, hover⟩
      · obtain rfl := DialogStage.session.inj (hstage.symm.trans hover)
        exact ⟨th', hmem, harg' ▸ harg₀, hstage'.trans (congrArg _ (over_stays hloop))⟩
    · cases hloop with
      | done => exact ⟨th', hmem, ⟨invite, harg'.trans harg⟩, hstage'⟩
      | other r he => cases he
  | @handler i th th' hs p e r sh hget harg harg' hstage hstage' hmove hperf =>
    obtain ⟨th₀, hth₀, harg₀, hover⟩ := hI ((hperf.done k).symm.trans hdone)
    rcases mem_set_or_eq th' hget hth₀ with hth₀ | rfl
    · exact ⟨th₀, hth₀, harg₀, hover⟩
    · cases hstage.symm.trans hover

/-- The goroutine of a session that is done has left its loop. -/
theorem stage_of_done (h : (dialogSystem cfg C n).Reaches .initial ls st)
    (hsep : Separate st.threads) {i : ℕ} {g : LoopStage} (hget : st.threads[i]? = some th)
    (harg : th.arg = .session k invite) (hstage : stageOf th = .session g)
    (hdone : (st.shared.sessions k).done = true) : g = .over := by
  obtain ⟨th₀, hth₀, ⟨invite₀, harg₀⟩, hover⟩ := over_of_done h hdone
  obtain ⟨j, hj⟩ := List.mem_iff_getElem?.mp hth₀
  obtain rfl := hsep.session hj hget harg₀ harg
  cases hj.symm.trans hget
  exact DialogStage.session.inj (hstage.symm.trans hover)

end Run

end AixvolinkPbx.B2bua

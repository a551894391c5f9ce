import AixvolinkPbx.Call.Clients

/-!
# What `Transition` reports

1. `Placed` says where the command of a client is: untouched, in the mailbox, with the actor, or
   answered in its reply channel; every step of the actor and of a client keeps it (`consistent_actor`,
   `consistent_client`).
2. `transition_faithful`: what `Transition` returns is what happened to the command, as long as a client
   whose reply has arrived does not take `done` instead. `applied_but_closed` is a client that does.
-/

namespace AixvolinkPbx.Calls

open Prog (Safe safe_pure)

/-! ## Where a command is -/

def noteOf : PartyLabel → Option ActorNote
  | .act _ ⟨.inl (.inr note), _⟩ => some note
  | _ => none

def notes (ls : List PartyLabel) : List ActorNote := ls.filterMap noteOf

theorem notes_concat (ls : List PartyLabel) (l : PartyLabel) :
    notes (ls ++ [l]) = notes ls ++ (noteOf l).toList := by
  rw [notes, List.filterMap_append]
  cases h : noteOf l <;> simp [notes, h]

abbrev PartySeen := System.Seen Party Stage

/-- The commands in the mailbox whose reply is to go to a channel. -/
def addressed (sh : ActorShared) (result : ℕ) : List Command :=
  sh.mailbox.filter fun c => c.result = result

def Begun (ns : List ActorNote) (c : Command) : Prop := ∃ before, .begun c before ∈ ns

/-- The actor applied the command with the result `err`. -/
def Outcome (ns : List ActorNote) (c : Command) (err : Option ActorError) : Prop :=
  ∃ before after, .begun c before ∈ ns ∧ .finished c err after ∈ ns ∧
    Fits c.transition err before after

def Holds (vs : List PartySeen) (c : Command) : Prop := ∃ v ∈ vs, v.ghost.held = some c

/-- The actor has not come to a command for this channel. -/
def Quiet (ns : List ActorNote) (vs : List PartySeen) (result : ℕ) : Prop :=
  ∀ c, c.result = result → ¬ Holds vs c ∧ ¬ Begun ns c

/-- What is known in each stage of a party. -/
def Placed (ns : List ActorNote) (sh : ActorShared) (vs : List PartySeen) : Stage → Prop
  | .fresh c => Quiet ns vs c.result ∧ addressed sh c.result = [] ∧ sh.replies c.result = none
  | .sent c =>
    (Quiet ns vs c.result ∧ addressed sh c.result = [c] ∧ sh.replies c.result = none) ∨
      (Holds vs c ∧ sh.replies c.result = none) ∨
      ∃ err, sh.replies c.result = some err ∧ Outcome ns c err
  | .returned c err =>
    Outcome ns c err ∨ err = some .context ∨
      (err = some .closed ∧ Quiet ns vs c.result ∧ (addressed sh c.result = [] ∨ sh.closed = true))
  | .begun c before => .begun c before ∈ ns
  | .finished c err => Outcome ns c err
  | _ => True

structure Consistent (ns : List ActorNote) (sh : ActorShared) (vs : List PartySeen) : Prop where
  matched : ∀ v ∈ vs, v.ghost.command = v.arg.command
  closed : sh.closed = true → ∃ v ∈ vs, v.ghost = .closed
  placed : ∀ v ∈ vs, Placed ns sh vs v.ghost
  /-- A channel that no client has yet is as a client finds it. -/
  unused : ∀ c : Command, some c.result ∉ vs.map (·.arg.channel) → Placed ns sh vs (.fresh c)

/-- A step does not concern a channel. -/
structure Apart (ns : List ActorNote) (sh : ActorShared) (vs : List PartySeen) (ns' : List ActorNote)
    (sh' : ActorShared) (vs' : List PartySeen) (result : ℕ) : Prop where
  addressed : addressed sh' result = addressed sh result
  replies : sh'.replies result = sh.replies result
  holds : ∀ c, c.result = result → (Holds vs' c ↔ Holds vs c)
  begun : ∀ c, c.result = result → Begun ns' c → Begun ns c

section Steps

variable {ns ns' : List ActorNote} {sh sh' : ActorShared} {vs vs' : List PartySeen} {c : Command}
  {err : Option ActorError}

theorem Outcome.mono (h : Outcome ns c err) (hns : ns ⊆ ns') : Outcome ns' c err := by
  obtain ⟨before, after, hbegun, hfinished, hfits⟩ := h
  exact ⟨before, after, hns hbegun, hns hfinished, hfits⟩

theorem Quiet.apart {result : ℕ} (h : Quiet ns vs result)
    (hapart : Apart ns sh vs ns' sh' vs' result) : Quiet ns' vs' result := by
  intro c hc
  obtain ⟨hholds, hbegun⟩ := h c hc
  exact ⟨fun h => hholds ((hapart.holds c hc).mp h), fun h => hbegun (hapart.begun c hc h)⟩

variable {g : Stage}

theorem Placed.apart (h : Placed ns sh vs g) (hns : ns ⊆ ns')
    (hclosed : sh.closed = true → sh'.closed = true)
    (hapart : ∀ c, g.command = some c → Apart ns sh vs ns' sh' vs' c.result) :
    Placed ns' sh' vs' g := by
  cases g with
  | fresh c =>
    have hc := hapart c rfl
    obtain ⟨hquiet, haddressed, hreplies⟩ := h
    exact ⟨hquiet.apart hc, hc.addressed.trans haddressed, hc.replies.trans hreplies⟩
  | sent c =>
    have hc := hapart c rfl
    rcases h with ⟨hquiet, haddressed, hreplies⟩ | ⟨hholds, hreplies⟩ | ⟨err, hreplies, houtcome⟩
    · exact .inl ⟨hquiet.apart hc, hc.addressed.trans haddressed, hc.replies.trans hreplies⟩
    · exact .inr (.inl ⟨(hc.holds c rfl).mpr hholds, hc.replies.trans hreplies⟩)
    · exact .inr (.inr ⟨err, hc.replies.trans hreplies, houtcome.mono hns⟩)
  | returned c err =>
    have hc := hapart c rfl
    rcases h with houtcome | hcontext | ⟨herr, hquiet, hnever⟩
    · exact .inl (houtcome.mono hns)
    · exact .inr (.inl hcontext)
    · exact .inr (.inr ⟨herr, hquiet.apart hc, hnever.imp hc.addressed.trans hclosed⟩)
  | begun c before => exact hns h
  | finished c err => exact Outcome.mono h hns
  | _ => trivial

theorem holds_iff (hmatched : ∀ v ∈ vs, v.ghost.command = v.arg.command)
    (hnodup : (vs.map (·.arg.channel)).Nodup) {v : PartySeen} (hv : v ∈ vs)
    (hactor : v.ghost.command = none) (c : Command) : Holds vs c ↔ v.ghost.held = some c := by
  constructor
  · rintro ⟨w, hw, hheld⟩
    have hchannel : w.arg.channel = v.arg.channel := by
      rw [Party.channel, Party.channel, ← hmatched w hw, ← hmatched v hv, hactor,
        Stage.command_of_held hheld]
    rwa [← List.inj_on_of_nodup_map hnodup hw hv hchannel]
  · exact fun hheld => ⟨v, hv, hheld⟩

theorem holds_set_iff {i : ℕ} {v v' : PartySeen} (hget : vs[i]? = some v)
    (hheld : v'.ghost.held = v.ghost.held) (c : Command) :
    Holds (vs.set i v') c ↔ Holds vs c := by
  constructor
  · rintro ⟨w, hw, h⟩
    rcases List.mem_or_eq_of_mem_set hw with hw | rfl
    · exact ⟨w, hw, h⟩
    · exact ⟨v, List.mem_of_getElem? hget, hheld ▸ h⟩
  · rintro ⟨w, hw, h⟩
    rcases mem_set_or_eq v' hget hw with hw | rfl
    · exact ⟨w, hw, h⟩
    · exact ⟨v', List.mem_set (List.getElem?_eq_some_iff.mp hget).1 v', hheld.trans h⟩

section Act

variable {i : ℕ} {v v' : PartySeen}

/-- A party `v` of a run becomes `v'`. -/
structure Turn (ns : List ActorNote) (sh : ActorShared) (vs : List PartySeen) (i : ℕ)
    (v v' : PartySeen) : Prop where
  consistent : Consistent ns sh vs
  nodup : (vs.map (·.arg.channel)).Nodup
  get : vs[i]? = some v
  arg : v'.arg = v.arg

/-- A step of one party keeps the invariant once it keeps what is known of it and of the others. -/
theorem Turn.set (ht : Turn ns sh vs i v v') (hcommand : v'.ghost.command = v.ghost.command)
    (hclosed : sh'.closed = true → v'.ghost = .closed ∨ (sh.closed = true ∧ v.ghost ≠ .closed))
    (hplaced : Placed ns' sh' (vs.set i v') v'.ghost)
    (hothers : ∀ g : Stage, g.command.map Command.result ≠ v.arg.channel → Placed ns sh vs g →
      Placed ns' sh' (vs.set i v') g) : Consistent ns' sh' (vs.set i v') := by
  have hv' : v' ∈ vs.set i v' := List.mem_set (List.getElem?_eq_some_iff.mp ht.get).1 v'
  have hv : v ∈ vs := List.mem_of_getElem? ht.get
  refine ⟨fun w hw => ?_, fun h => ?_, fun w hw => ?_, fun c hc => ?_⟩
  · rcases List.mem_or_eq_of_mem_set hw with hw | rfl
    · exact ht.consistent.matched w hw
    · rw [ht.arg, ← ht.consistent.matched v hv, hcommand]
  · rcases hclosed h with h | ⟨h, hne⟩
    · exact ⟨v', hv', h⟩
    · obtain ⟨w, hw, hghost⟩ := ht.consistent.closed h
      rcases mem_set_or_eq v' ht.get hw with hw | rfl
      · exact ⟨w, hw, hghost⟩
      · exact absurd hghost hne
  · rcases eq_or_ne_of_mem_set ht.nodup ht.get (by rw [ht.arg]) hw with rfl | ⟨hw, hne⟩
    · exact hplaced
    · refine hothers w.ghost ?_ (ht.consistent.placed w hw)
      rw [ht.consistent.matched w hw]
      exact hne
  · rw [map_set_of_eq ht.get (by rw [ht.arg])] at hc
    refine hothers (.fresh c) (fun h => hc ?_) (ht.consistent.unused c hc)
    rw [show some c.result = v.arg.channel from h]
    exact List.mem_map_of_mem hv

theorem quiet_set_iff (hget : vs[i]? = some v) (hheld : v'.ghost.held = v.ghost.held) (result : ℕ) :
    Quiet ns (vs.set i v') result ↔ Quiet ns vs result := by
  simp only [Quiet, holds_set_iff hget hheld]

/-- A step of a client concerns its own channel only. -/
theorem Turn.client (ht : Turn ns sh vs i v v') (hc : v.ghost.command = some c)
    (hc' : v'.ghost.command = some c)
    (haddressed : ∀ result, result ≠ c.result → addressed sh' result = addressed sh result)
    (hreplies : ∀ result, result ≠ c.result → sh'.replies result = sh.replies result)
    (hclosed : sh'.closed = sh.closed) (hplaced : Placed ns sh' (vs.set i v') v'.ghost) :
    Consistent ns sh' (vs.set i v') := by
  have hheld : v'.ghost.held = v.ghost.held := by
    rw [Stage.held_of_command hc, Stage.held_of_command hc']
  have hchannel : v.arg.channel = some c.result := by
    rw [Party.channel, ← ht.consistent.matched v (List.mem_of_getElem? ht.get), hc]
    rfl
  refine ht.set (hc'.trans hc.symm) (fun h => .inr ⟨hclosed ▸ h, ?_⟩) hplaced ?_
  · rintro h
    rw [h] at hc
    cases hc
  · intro g hg hplaced
    refine hplaced.apart (fun _ h => h) (fun h => hclosed.trans h) fun c' hc' => ?_
    have hne : c'.result ≠ c.result := by
      rintro heq
      rw [hc', hchannel] at hg
      exact hg (congrArg some heq)
    exact ⟨haddressed _ hne, hreplies _ hne, fun c _ => holds_set_iff ht.get hheld c, fun _ _ h => h⟩

/-- Before and after a step of the actor it alone holds a command. -/
theorem Turn.holds_actor (ht : Turn ns sh vs i v v') (hactor : v.ghost.command = none)
    (hactor' : v'.ghost.command = none) (c : Command) :
    (Holds vs c ↔ v.ghost.held = some c) ∧ (Holds (vs.set i v') c ↔ v'.ghost.held = some c) := by
  have hv := List.mem_of_getElem? ht.get
  refine ⟨holds_iff ht.consistent.matched ht.nodup hv hactor c, holds_iff ?_ ?_ ?_ hactor' c⟩
  · intro w hw
    rcases List.mem_or_eq_of_mem_set hw with hw | rfl
    · exact ht.consistent.matched w hw
    · rw [ht.arg, ← ht.consistent.matched v hv, hactor, hactor']
  · rw [map_set_of_eq ht.get (by rw [ht.arg])]
    exact ht.nodup
  · exact List.mem_set (List.getElem?_eq_some_iff.mp ht.get).1 v'

/-- A step of the actor concerns the channel of at most one command. -/
theorem Turn.actor (ht : Turn ns sh vs i v v') (hactor : v.ghost.command = none)
    (hactor' : v'.ghost.command = none) (hns : ns ⊆ ns')
    (hclosed : sh'.closed = true → v'.ghost = .closed ∨ (sh.closed = true ∧ v.ghost ≠ .closed))
    (hmono : sh.closed = true → sh'.closed = true) (hplaced : Placed ns' sh' (vs.set i v') v'.ghost)
    (concerned : ℕ → Prop)
    (hapart : ∀ result, ¬ concerned result → Apart ns sh vs ns' sh' (vs.set i v') result)
    (hconcerned : ∀ g c, g.command = some c → concerned c.result → Placed ns sh vs g →
      Placed ns' sh' (vs.set i v') g) : Consistent ns' sh' (vs.set i v') := by
  have hchannel : v.arg.channel = none := by
    rw [Party.channel, ← ht.consistent.matched v (List.mem_of_getElem? ht.get), hactor]
    rfl
  refine ht.set (hactor'.trans hactor.symm) hclosed hplaced fun g hg hplaced => ?_
  rw [hchannel] at hg
  obtain ⟨c, hc⟩ : ∃ c, g.command = some c := by
    cases h : g.command with
    | none => exact absurd (by rw [h]; rfl) hg
    | some c => exact ⟨c, rfl⟩
  by_cases hresult : concerned c.result
  · exact hconcerned g c hc hresult hplaced
  · refine hplaced.apart hns hmono fun c' hc' => ?_
    cases hc.symm.trans hc'
    exact hapart _ hresult

/-- The actor is at `c`, so the client of its channel is waiting for the reply or has given up. -/
theorem Placed.of_held {c' : Command} (h : Placed ns sh vs g) (hc : g.command = some c)
    (hholds : Holds vs c') (hresult : c'.result = c.result)
    (hunique : ∀ c'', Holds vs c'' → c'' = c') :
    (g = .sent c ∧ c = c' ∧ sh.replies c.result = none) ∨
      (g = .sent c ∧ ∃ err, sh.replies c.result = some err ∧ Outcome ns c err) ∨
      (∃ err, g = .returned c err ∧ (Outcome ns c err ∨ err = some .context)) := by
  have hloud : ¬ Quiet ns vs c.result := fun h => (h c' hresult).1 hholds
  cases g with
  | fresh _ =>
    cases hc
    exact absurd h.1 hloud
  | sent _ =>
    cases hc
    rcases h with ⟨hquiet, -⟩ | ⟨hholds, hreplies⟩ | h
    · exact absurd hquiet hloud
    · exact .inl ⟨rfl, hunique _ hholds, hreplies⟩
    · exact .inr (.inl ⟨rfl, h⟩)
  | returned _ err =>
    cases hc
    rcases h with houtcome | hcontext | ⟨-, hquiet, -⟩
    · exact .inr (.inr ⟨err, rfl, .inl houtcome⟩)
    · exact .inr (.inr ⟨err, rfl, .inr hcontext⟩)
    · exact absurd hquiet hloud
  | _ => cases hc

theorem addressed_cons (sh : ActorShared) {rest : List Command} (hmailbox : sh.mailbox = c :: rest)
    (result : ℕ) :
    addressed sh result =
      if c.result = result then c :: addressed { sh with mailbox := rest } result
      else addressed { sh with mailbox := rest } result := by
  rw [addressed, hmailbox, List.filter_cons]
  simp only [decide_eq_true_eq]
  rfl

theorem Turn.take (ht : Turn ns sh vs i v v') (hv : v.ghost = .idle)
    (hv' : v'.ghost = .taken c) {rest : List Command} (hmailbox : sh.mailbox = c :: rest) :
    Consistent ns { sh with mailbox := rest } (vs.set i v') := by
  have hactor : v.ghost.command = none := by rw [hv]; rfl
  have hactor' : v'.ghost.command = none := by rw [hv']; rfl
  have hholds := ht.holds_actor hactor hactor'
  rw [hv, hv'] at hholds
  have hnone : ∀ c', ¬ Holds vs c' := fun c' h => nomatch (hholds c').1.mp h
  have hsome : ∀ c', Holds (vs.set i v') c' ↔ c = c' := fun c' =>
    (hholds c').2.trans Option.some_inj
  have haddressed := addressed_cons sh hmailbox
  refine ht.actor hactor hactor' (fun _ h => h) (fun h => .inr ⟨h, ?_⟩) (fun h => h)
    ?_ (· = c.result) (fun result hne => ⟨?_, rfl, fun c' hc' => ?_, fun _ _ h => h⟩) ?_
  · rw [hv]
    nofun
  · rw [hv']
    trivial
  · rw [haddressed, if_neg (Ne.symm hne)]
  · refine iff_of_false (fun h => ?_) (hnone c')
    obtain rfl := (hsome c').mp h
    exact hne hc'.symm
  · intro g c' hc' heq h
    have hmine := haddressed c'.result
    rw [if_pos heq.symm] at hmine
    cases g with
    | fresh _ =>
      cases hc'
      rw [h.2.1] at hmine
      cases hmine
    | sent _ =>
      cases hc'
      rcases h with ⟨-, hqueued, hreplies⟩ | ⟨hholds, -⟩ | hanswered
      · rw [hqueued] at hmine
        exact .inr (.inl ⟨(hsome _).mpr (List.cons.inj hmine).1.symm, hreplies⟩)
      · exact absurd hholds (hnone _)
      · exact .inr (.inr hanswered)
    | returned _ err =>
      cases hc'
      rcases h with houtcome | hcontext | ⟨-, -, hempty | hclosed⟩
      · exact .inl houtcome
      · exact .inr (.inl hcontext)
      · rw [hempty] at hmine
        cases hmine
      · -- the actor that closed `done` is this one, and it is idle
        obtain ⟨w, hw, hghost⟩ := ht.consistent.closed hclosed
        have hwv : w = v := by
          refine List.inj_on_of_nodup_map ht.nodup hw (List.mem_of_getElem? ht.get) ?_
          rw [Party.channel, Party.channel, ← ht.consistent.matched w hw,
            ← ht.consistent.matched v (List.mem_of_getElem? ht.get), hghost, hv]
          rfl
        rw [hwv, hv] at hghost
        cases hghost
    | _ => cases hc'

theorem Turn.note (ht : Turn ns sh vs i v v') (hactor : v.ghost.command = none)
    (hactor' : v'.ghost.command = none) (hheld : v'.ghost.held = v.ghost.held)
    (hopen : v.ghost ≠ .closed) {note : ActorNote}
    (hbegun : ∀ c before, note = .begun c before → v.ghost.held = some c)
    (hplaced : Placed (ns ++ [note]) sh (vs.set i v') v'.ghost) :
    Consistent (ns ++ [note]) sh (vs.set i v') := by
  have hsub : ns ⊆ ns ++ [note] := List.subset_append_left ns [note]
  have hholds := ht.holds_actor hactor hactor'
  refine ht.actor hactor hactor' hsub (fun h => .inr ⟨h, hopen⟩) (fun h => h)
    hplaced (fun result => ∃ c, v.ghost.held = some c ∧ c.result = result)
    (fun result hne => ⟨rfl, rfl, fun c _ => holds_set_iff ht.get hheld c, fun c hc h => ?_⟩) ?_
  · obtain ⟨before, hmem⟩ := h
    rcases List.mem_append.mp hmem with hmem | hmem
    · exact ⟨before, hmem⟩
    · exact absurd ⟨c, hbegun c before (List.mem_singleton.mp hmem).symm, hc⟩ hne
  · rintro g c hc ⟨c', hc', hresult⟩ h
    have hunique : ∀ c'', Holds vs c'' → c'' = c' := fun c'' h'' =>
      Option.some.inj (((hholds c'').1.mp h'').symm.trans hc')
    rcases h.of_held hc ((hholds c').1.mpr hc') hresult hunique with
      ⟨rfl, rfl, hreplies⟩ | ⟨rfl, err, hreplies, houtcome⟩ | ⟨err, rfl, houtcome | hcontext⟩
    · exact .inr (.inl ⟨(hholds c).2.mpr (hheld.trans hc'), hreplies⟩)
    · exact .inr (.inr ⟨err, hreplies, houtcome.mono hsub⟩)
    · exact .inl (houtcome.mono hsub)
    · exact .inr (.inl hcontext)

theorem Turn.reply (ht : Turn ns sh vs i v v') (hv : v.ghost = .finished c err)
    (hv' : v'.ghost = .idle) (hreply : sh.replies c.result = none) :
    Consistent ns { sh with replies := Function.update sh.replies c.result (some err) }
      (vs.set i v') := by
  have hactor : v.ghost.command = none := by rw [hv]; rfl
  have hactor' : v'.ghost.command = none := by rw [hv']; rfl
  have hholds := ht.holds_actor hactor hactor'
  have houtcome : Outcome ns c err := by
    have h := ht.consistent.placed v (List.mem_of_getElem? ht.get)
    rwa [hv] at h
  rw [hv, hv'] at hholds
  refine ht.actor hactor hactor' (fun _ h => h) (fun h => .inr ⟨h, ?_⟩) (fun h => h)
    ?_ (· = c.result)
    (fun result hne => ⟨rfl, Function.update_of_ne hne _ _, fun c' hc' => ?_, fun _ _ h => h⟩) ?_
  · rw [hv]
    nofun
  · rw [hv']
    trivial
  · refine iff_of_false (fun h => nomatch (hholds c').2.mp h) (fun h => ?_)
    cases (hholds c').1.mp h
    exact hne hc'.symm
  · intro g c' hc' heq h
    have hunique : ∀ c'', Holds vs c'' → c'' = c := fun c'' h'' =>
      (Option.some.inj ((hholds c'').1.mp h'')).symm
    rcases h.of_held hc' ((hholds c).1.mpr rfl) heq.symm hunique with
      ⟨rfl, rfl, -⟩ | ⟨rfl, err', hreplies, -⟩ | ⟨err', rfl, hreturned | hcontext⟩
    · exact .inr (.inr ⟨err, Function.update_self .., houtcome⟩)
    · rw [heq, hreply] at hreplies
      cases hreplies
    · exact .inl hreturned
    · exact .inr (.inl hcontext)

theorem Turn.aside (ht : Turn ns sh vs i v v') (hactor : v.ghost.command = none)
    (hactor' : v'.ghost.command = none) (hheld : v'.ghost.held = v.ghost.held)
    (hclosed : sh'.closed = true → v'.ghost = .closed ∨ (sh.closed = true ∧ v.ghost ≠ .closed))
    (hmono : sh.closed = true → sh'.closed = true) (hmailbox : sh'.mailbox = sh.mailbox)
    (hreplies : sh'.replies = sh.replies) (hns : ns ⊆ ns') (hbegun : ∀ c, Begun ns' c → Begun ns c)
    (hplaced : Placed ns' sh' (vs.set i v') v'.ghost) : Consistent ns' sh' (vs.set i v') := by
  refine ht.actor hactor hactor' hns hclosed hmono hplaced (fun _ => False)
    (fun result _ => ⟨?_, by rw [hreplies], fun c _ => holds_set_iff ht.get hheld c,
      fun c _ => hbegun c⟩) (fun _ _ _ h => h.elim)
  rw [addressed, addressed, hmailbox]

theorem not_bad_of_ite {p : Prop} {inst : Decidable p} (h : (if p then g else .bad) ≠ .bad) :
    p ∧ (if p then g else .bad) = g := by
  by_cases hp : p
  · exact ⟨hp, if_pos hp⟩
  · exact absurd (if_neg hp) h

theorem Turn.unseen (ht : Turn ns sh vs i v v')
    (hv' : v'.ghost = if v.ghost.command = none then v.ghost else .bad) (hgood : v'.ghost ≠ .bad)
    (hns : ns ⊆ ns') (hbegun : ∀ c, Begun ns' c → Begun ns c) :
    Consistent ns' sh (vs.set i v') := by
  rw [hv'] at hgood
  obtain ⟨hactor, hsame⟩ := not_bad_of_ite hgood
  have hghost : v'.ghost = v.ghost := hv'.trans hsame
  refine ht.aside hactor (hghost ▸ hactor) (by rw [hghost])
    (fun h => ?_) (fun h => h) rfl rfl hns hbegun ?_
  · by_cases hclosed : v.ghost = .closed
    · exact .inl (hghost.trans hclosed)
    · exact .inr ⟨h, hclosed⟩
  · have hplaced := ht.consistent.placed v (List.mem_of_getElem? ht.get)
    rw [hghost]
    refine hplaced.apart hns (fun h => h) fun c hc => ?_
    rw [hactor] at hc
    cases hc

theorem Turn.close (ht : Turn ns sh vs i v v') (hidle : v.ghost = .idle)
    (hclosed : v'.ghost = .closed) : Consistent ns { sh with closed := true } (vs.set i v') := by
  refine ht.aside ?_ ?_ ?_ (fun _ => .inl hclosed) (fun _ => rfl) rfl
    rfl (fun _ h => h) (fun _ h => h) ?_
  · rw [hidle]
    rfl
  · rw [hclosed]
    rfl
  · rw [hidle, hclosed]
    rfl
  · rw [hclosed]
    trivial

theorem Turn.begun (ht : Turn ns sh vs i v v') {before : Call} (htaken : v.ghost = .taken c)
    (hbegun : v'.ghost = .begun c before) :
    Consistent (ns ++ [.begun c before]) sh (vs.set i v') := by
  refine ht.note ?_ ?_ ?_ ?_ ?_ ?_
  · rw [htaken]
    rfl
  · rw [hbegun]
    rfl
  · rw [htaken, hbegun]
    rfl
  · simp [htaken]
  · intro c' before' h
    cases h
    rw [htaken]
    rfl
  · rw [hbegun]
    exact List.mem_append_right _ (List.mem_singleton_self _)

theorem Turn.finished (ht : Turn ns sh vs i v v') {before after : Call}
    (hbegun : v.ghost = .begun c before) (hfits : Fits c.transition err before after)
    (hfinished : v'.ghost = .finished c err) :
    Consistent (ns ++ [.finished c err after]) sh (vs.set i v') := by
  refine ht.note ?_ ?_ ?_ ?_ ?_ ?_
  · rw [hbegun]
    rfl
  · rw [hfinished]
    rfl
  · rw [hbegun, hfinished]
    rfl
  · simp [hbegun]
  · intro c' before' h
    cases h
  · have hplaced := ht.consistent.placed v (List.mem_of_getElem? ht.get)
    rw [hbegun] at hplaced
    rw [hfinished]
    exact ⟨before, after, List.mem_append_left _ hplaced,
      List.mem_append_right _ (List.mem_singleton_self _), hfits⟩

variable {capacity : ℕ}

theorem Turn.perform_actor (ht : Turn ns sh vs i v v') (e : tracedSig.Op) (r : tracedSig.Ans e)
    (j : ℕ) (hv' : v'.ghost = nextStage v.ghost (.inl e) r) (hgood : v'.ghost ≠ .bad)
    (hperf : handleParty capacity sh (.inl e) r = some sh') :
    Consistent (ns ++ (noteOf (.act j ⟨.inl e, r⟩)).toList) sh' (vs.set i v') := by
  have hgood' := hv' ▸ hgood
  rcases e with e | note
  · have hnil : ns ++ (noteOf (.act j ⟨.inl (.inl e), r⟩)).toList = ns := List.append_nil ns
    rw [hnil]
    cases e with
    | now =>
      cases hperf
      exact ht.unseen hv' hgood (fun _ h => h) fun _ h => h
    | publish event =>
      cases hperf
      exact ht.unseen hv' hgood (fun _ h => h) fun _ h => h
    | store snapshot =>
      cases hperf
      exact ht.unseen hv' hgood (fun _ h => h) fun _ h => h
    | select =>
      cases r with
      | done =>
        cases hperf
        exact ht.unseen hv' hgood (fun _ h => h) fun _ h => h
      | command c =>
        obtain ⟨hidle, hnext⟩ := not_bad_of_ite hgood'
        obtain ⟨rest, hmailbox, rfl⟩ := handle_command hperf
        exact ht.take hidle (hv'.trans hnext) hmailbox
    | reply result err =>
      obtain ⟨⟨c, hfinished, rfl⟩, hnext⟩ := not_bad_of_ite hgood'
      obtain ⟨hreply, rfl⟩ := handle_ite hperf
      exact ht.reply hfinished (hv'.trans hnext) hreply
    | close =>
      obtain ⟨hidle, hnext⟩ := not_bad_of_ite hgood'
      cases hperf
      exact ht.close hidle (hv'.trans hnext)
  · show Consistent (ns ++ [note]) sh' (vs.set i v')
    cases hperf
    cases note with
    | publishing call =>
      refine ht.unseen hv' hgood (List.subset_append_left ns _) fun c h => ?_
      obtain ⟨before, hmem⟩ := h
      rcases List.mem_append.mp hmem with hmem | hmem
      · exact ⟨before, hmem⟩
      · cases List.mem_singleton.mp hmem
    | begun c before =>
      obtain ⟨htaken, hnext⟩ := not_bad_of_ite hgood'
      exact ht.begun htaken (hv'.trans hnext)
    | finished =>
      obtain ⟨⟨before, hbegun, hfits⟩, hnext⟩ := not_bad_of_ite hgood'
      exact ht.finished hbegun hfits (hv'.trans hnext)

theorem addressed_concat (sh : ActorShared) (c : Command) (result : ℕ) :
    addressed { sh with mailbox := sh.mailbox ++ [c] } result =
      addressed sh result ++ if c.result = result then [c] else [] := by
  rw [addressed, List.filter_append]
  by_cases h : c.result = result
  · rw [if_pos h, List.filter_singleton, decide_eq_true h]
    rfl
  · rw [if_neg h, List.filter_singleton, decide_eq_false h]
    rfl

theorem await_not_bad {result : ℕ} {answer : Awaiting}
    (h : nextStage g (.inr (.await result)) answer ≠ .bad) :
    ∃ c, g = .sent c ∧ c.result = result := by
  cases g with
  | sent c => exact ⟨c, rfl, (not_bad_of_ite (g := Awaiting.stage c answer) h).1⟩
  | _ => exact absurd rfl h

theorem Turn.send {r : Sending} (ht : Turn ns sh vs i v v') (hfresh : v.ghost = .fresh c)
    (hstage : v'.ghost = Sending.stage c r)
    (hperf : handleParty capacity sh (.inr (.send c)) r = some sh') :
    Consistent ns sh' (vs.set i v') := by
  have hplaced := ht.consistent.placed v (List.mem_of_getElem? ht.get)
  rw [hfresh] at hplaced
  obtain ⟨hquiet, haddressed, hreplies⟩ := hplaced
  have hc : v.ghost.command = some c := by rw [hfresh]; rfl
  have hc' : v'.ghost.command = some c := by rw [hstage]; cases r <;> rfl
  have hheld : v'.ghost.held = v.ghost.held := by
    rw [Stage.held_of_command hc, Stage.held_of_command hc']
  have hquiet' := (quiet_set_iff ht.get hheld c.result).mpr hquiet
  cases r with
  | sent =>
    obtain ⟨-, rfl⟩ := handle_ite hperf
    refine ht.client hc hc' (fun result hne => ?_) (fun _ _ => rfl) rfl ?_
    · rw [addressed_concat, if_neg (Ne.symm hne), List.append_nil]
    · rw [hstage]
      refine .inl ⟨hquiet', ?_, hreplies⟩
      rw [addressed_concat, if_pos rfl, haddressed, List.nil_append]
  | closed =>
    obtain ⟨-, rfl⟩ := handle_ite hperf
    refine ht.client hc hc' (fun _ _ => rfl) (fun _ _ => rfl) rfl ?_
    rw [hstage]
    exact .inr (.inr ⟨rfl, hquiet', .inl haddressed⟩)
  | context =>
    cases hperf
    refine ht.client hc hc' (fun _ _ => rfl) (fun _ _ => rfl) rfl ?_
    rw [hstage]
    exact .inr (.inl rfl)

/-- A client takes its reply, or gives up on it. If it takes `done`, it has no reply yet. -/
theorem Turn.await {r : Awaiting} (ht : Turn ns sh vs i v v') (hsent : v.ghost = .sent c)
    (hstage : v'.ghost = Awaiting.stage c r)
    (hperf : handleParty capacity sh (.inr (.await c.result)) r = some sh')
    (hprefers : r = .closed → sh.replies c.result = none) : Consistent ns sh' (vs.set i v') := by
  have hplaced := ht.consistent.placed v (List.mem_of_getElem? ht.get)
  rw [hsent] at hplaced
  have hc : v.ghost.command = some c := by rw [hsent]; rfl
  have hc' : v'.ghost.command = some c := by rw [hstage]; cases r <;> rfl
  have hheld : v'.ghost.held = v.ghost.held := by
    rw [Stage.held_of_command hc, Stage.held_of_command hc']
  cases r with
  | reply err =>
    obtain ⟨hreply, rfl⟩ := handle_ite hperf
    refine ht.client hc hc' (fun _ _ => rfl)
      (fun _ hne => Function.update_of_ne hne _ _) rfl ?_
    rw [hstage]
    rcases hplaced with ⟨-, -, hreplies⟩ | ⟨-, hreplies⟩ | ⟨err', hreplies, houtcome⟩
    · rw [hreplies] at hreply
      cases hreply
    · rw [hreplies] at hreply
      cases hreply
    · cases hreplies.symm.trans hreply
      exact .inl houtcome
  | closed =>
    obtain ⟨hclosed, rfl⟩ := handle_ite hperf
    refine ht.client hc hc' (fun _ _ => rfl) (fun _ _ => rfl) rfl ?_
    rw [hstage]
    rcases hplaced with ⟨hquiet, -, -⟩ | ⟨⟨w, hw, hholds⟩, -⟩ | ⟨err', hreplies, -⟩
    · exact .inr (.inr ⟨rfl, (quiet_set_iff ht.get hheld c.result).mpr hquiet, .inr hclosed⟩)
    · -- the actor holds the command, so it has not closed `done`
      obtain ⟨w', hw', hghost⟩ := ht.consistent.closed hclosed
      have hactor : w'.ghost.command = none := by rw [hghost]; rfl
      have hnone := (holds_iff ht.consistent.matched ht.nodup hw' hactor c).mp ⟨w, hw, hholds⟩
      rw [hghost] at hnone
      cases hnone
    · rw [hprefers rfl] at hreplies
      cases hreplies
  | context =>
    cases hperf
    refine ht.client hc hc' (fun _ _ => rfl) (fun _ _ => rfl) rfl ?_
    rw [hstage]
    exact .inr (.inl rfl)

/-- A step of a client. A client that takes `done` has no reply yet. -/
theorem Turn.perform_client (ht : Turn ns sh vs i v v') (e : clientSig.Op) (r : clientSig.Ans e)
    (hv' : v'.ghost = nextStage v.ghost (.inr e) r) (hgood : v'.ghost ≠ .bad)
    (hperf : handleParty capacity sh (.inr e) r = some sh')
    (hprefers : ∀ result, Event.mk (S := clientSig) e r = ⟨.await result, .closed⟩ →
      sh.replies result = none) : Consistent ns sh' (vs.set i v') := by
  rw [hv'] at hgood
  cases e with
  | send c =>
    obtain ⟨hfresh, hnext⟩ := not_bad_of_ite hgood
    exact ht.send hfresh (hv'.trans hnext) hperf
  | await result =>
    obtain ⟨c, hsent, rfl⟩ := await_not_bad hgood
    have hstage : v'.ghost = Awaiting.stage c r := by
      rw [hv', hsent]
      exact if_pos rfl
    refine ht.await hsent hstage hperf fun hclosed => ?_
    exact hprefers c.result (by rw [hclosed])

end Act

theorem Consistent.spawn (hI : Consistent ns sh vs) {x : Party} {live : Bool}
    (hnodup : (List.map (·.arg.channel) (vs ++ [⟨x, x.stage, live⟩])).Nodup) :
    Consistent ns sh (vs ++ [⟨x, x.stage, live⟩]) := by
  have hnew : x.stage.held = none := by cases x <;> rfl
  have hholds : ∀ c, Holds (vs ++ [⟨x, x.stage, live⟩]) c ↔ Holds vs c := by
    intro c
    constructor
    · rintro ⟨w, hw, hheld⟩
      rcases List.mem_append.mp hw with hw | hw
      · exact ⟨w, hw, hheld⟩
      · obtain rfl := List.mem_singleton.mp hw
        cases hnew.symm.trans hheld
    · rintro ⟨w, hw, hheld⟩
      exact ⟨w, List.mem_append_left _ hw, hheld⟩
  have hkeep : ∀ {g : Stage}, Placed ns sh vs g → Placed ns sh (vs ++ [⟨x, x.stage, live⟩]) g :=
    fun h => h.apart (fun _ h => h) (fun h => h) fun c _ =>
      ⟨rfl, rfl, fun c _ => hholds c, fun _ _ h => h⟩
  rw [List.map_append, List.nodup_append] at hnodup
  refine ⟨fun w hw => ?_, fun h => ?_, fun w hw => ?_, fun c hc => ?_⟩
  · rcases List.mem_append.mp hw with hw | hw
    · exact hI.matched w hw
    · obtain rfl := List.mem_singleton.mp hw
      cases x <;> rfl
  · obtain ⟨w, hw, hghost⟩ := hI.closed h
    exact ⟨w, List.mem_append_left _ hw, hghost⟩
  · rcases List.mem_append.mp hw with hw | hw
    · exact hkeep (hI.placed w hw)
    · obtain rfl := List.mem_singleton.mp hw
      cases x with
      | actor => trivial
      | client c =>
        refine hkeep (hI.unused c fun hmem => ?_)
        exact hnodup.2.2 _ hmem _ (List.mem_singleton_self _) rfl
  · refine hkeep (hI.unused c fun hmem => hc ?_)
    rw [List.map_append]
    exact List.mem_append_left _ hmem

end Steps

/-! ## What `Transition` returns -/

/-- The reply channel of a client that takes `done` in its second select. -/
def takesDone : PartyLabel → Option ℕ
  | .act _ ⟨.inr (.await result), .closed⟩ => some result
  | _ => none

/-- A client whose reply has arrived does not take `done` instead of it. -/
def PrefersReply (st : System.State partySig Party (Option ActorError) ActorShared)
    (l : PartyLabel) : Prop :=
  ∀ result, takesDone l = some result → st.shared.replies result = none

/-- One actor, and clients with a reply channel each. -/
def Separate (threads : List (Thread partySig Party (Option ActorError))) : Prop :=
  (threads.map (·.arg.channel)).Nodup

theorem consistent_run {n : ℕ} {call : Call} {ls : List PartyLabel}
    {st : System.State partySig Party (Option ActorError) ActorShared}
    (h : (actorSystem capacity call n).ReachesUnder PrefersReply ActorShared.initial ls st) :
    System.Tracked partyMonitor Party.stage
        (fun err g' => g' = .closed ∨ ∃ c, g' = .returned c err) st ∧
      (((System.view partyMonitor Party.stage st).map (·.arg.channel)).Nodup →
        Consistent (notes ls) st.shared (System.view partyMonitor Party.stage st)) := by
  refine System.invariant (I := fun ls sh vs => (vs.map (·.arg.channel)).Nodup →
    Consistent (notes ls) sh vs) (party_stage capacity call n) (fun _ _ _ _ _ _ => trivial)
    ?_ ?_ (fun _ _ l => l.elim) h ?_
  · intro ls st x live hI _ hnodup
    have hnotes : notes (ls ++ [.spawn x]) = notes ls := by
      rw [notes_concat]
      exact List.append_nil _
    rw [hnotes]
    refine Consistent.spawn (hI ?_) hnodup
    rw [List.map_append] at hnodup
    exact hnodup.of_append_left
  · intro ls st i th e r sh live _ hI hC hget _ hgood hperf hnodup
    have hseen : (System.view partyMonitor Party.stage st)[i]? =
      some (System.see partyMonitor Party.stage th) :=
      System.view_getElem? hget
    rw [map_set_of_eq hseen (congrArg Party.channel rfl)] at hnodup
    have ht : Turn (notes ls) st.shared _ i _
        ((System.see partyMonitor Party.stage th).next partyMonitor e r live) :=
      ⟨hI hnodup, hnodup, hseen, rfl⟩
    rw [notes_concat]
    cases e with
    | inl e => exact ht.perform_actor e r i rfl hgood hperf
    | inr e =>
      have hnotes : notes ls ++ (noteOf (.act i ⟨.inr e, r⟩)).toList = notes ls := List.append_nil _
      rw [hnotes]
      refine ht.perform_client e r rfl hgood hperf ?_
      intro result heq
      refine hC result ?_
      cases heq
      rfl
  · exact fun _ => ⟨by simp, nofun, by simp, fun c _ => ⟨fun c' _ => ⟨by simp [Holds],
      by simp [Begun, notes]⟩, rfl, rfl⟩⟩

/-- `Transition` reports faithfully in every run of an actor and any number of clients in which a client
whose reply has arrived does not take `done`. -/
theorem transition_faithful (capacity n : ℕ) (call : Call) (ls : List PartyLabel)
    (st : System.State partySig Party (Option ActorError) ActorShared)
    (h : (actorSystem capacity call n).ReachesUnder PrefersReply ActorShared.initial ls st)
    (hseparate : Separate st.threads) (th : Thread partySig Party (Option ActorError))
    (hth : th ∈ st.threads) (c : Command) (harg : th.arg = .client c) (err : Option ActorError)
    (hreturned : th.rest = Pure.pure err) :
    (err = none → ∃ before after, .begun c before ∈ notes ls ∧ .finished c none after ∈ notes ls ∧
      after.state = c.transition.state) ∧
    (∀ s s', err = some (.invalidTransition s s') →
      ∃ before, .begun c before ∈ notes ls ∧ .finished c err before ∈ notes ls) ∧
    (err = some .closed → ∀ before, .begun c before ∉ notes ls) := by
  obtain ⟨htracked, hconsistent⟩ := consistent_run h
  have hmem : System.see partyMonitor Party.stage th ∈ System.view partyMonitor Party.stage st :=
    List.mem_map_of_mem hth
  have hI := hconsistent (by rwa [System.view, List.map_map])
  have hplaced := hI.placed _ hmem
  have hcommand : (System.see partyMonitor Party.stage th).ghost.command = some c := by
    rw [hI.matched _ hmem, System.see, harg]
    rfl
  have hend := htracked th hth
  rw [hreturned, safe_pure] at hend
  -- the stage of the thread is that of a client that has returned `err`
  rcases hend with hclosed | ⟨c', hstage⟩
  · rw [hclosed] at hcommand
    cases hcommand
  rw [hstage] at hcommand hplaced
  obtain rfl := Option.some.inj hcommand
  rcases hplaced with ⟨before, after, hbegun, hfinished, hfits⟩ | rfl | ⟨rfl, hquiet, -⟩
  · refine ⟨fun herr => ?_, fun s s' herr => ?_, fun herr => absurd herr hfits.not_closed⟩
    · subst herr
      exact ⟨before, after, hbegun, hfinished, hfits.applied rfl⟩
    · rw [hfits.refused s s' herr] at hfinished
      exact ⟨before, hbegun, hfinished⟩
  · exact ⟨by simp, by simp, by simp⟩
  · exact ⟨by simp, by simp, fun _ before hbegun => (hquiet c' rfl).2 ⟨before, hbegun⟩⟩

/-! ## A client that takes `done` -/

def failing : Command := ⟨⟨.failed, "", "", ""⟩, 0⟩

/-- Answers for the parties: the client's command is sent and taken, and its second select has the
outcome given. -/
def partyAnswer (awaited : Awaiting) : (e : partySig.Op) → partySig.Ans e
  | .inl (.inl .now) => (0 : ℤ)
  | .inl (.inl (.publish _)) => Except.ok ()
  | .inl (.inl (.store _)) => ()
  | .inl (.inl .select) => .command failing
  | .inl (.inl (.reply _ _)) => ()
  | .inl (.inl .close) => ()
  | .inl (.inr _) => ()
  | .inr (.send _) => .sent
  | .inr (.await _) => awaited

/-- The client sends its command, the actor comes to its end, the client looks for its reply. -/
def terminalRun (awaited : Awaiting) :=
  (actorSystem 1 (callIn .new) 1).follow (fun sh _ => handleParty 1 sh) (fun _ l => l.elim)
    (.spawn .actor :: .spawn (.client failing) ::
      ([1, 0, 0, 0, 0, 0, 0, 0, 0, 0, 0, 0, 0, 0, 1].map fun i => .act i (partyAnswer awaited)))
    ⟨ActorShared.initial, []⟩

theorem terminalRun_reaches (awaited : Awaiting)
    {C : System.State partySig Party (Option ActorError) ActorShared → PartyLabel → Prop}
    (hC : ∀ p ∈ (terminalRun awaited).1, C p.1 p.2) :
    (actorSystem 1 (callIn .new) 1).ReachesUnder C ActorShared.initial
      (System.labels (terminalRun awaited)) (terminalRun awaited).2 :=
  System.follow_steps (fun _ _ _ _ _ h => h) (fun _ l => l.elim) _ _ fun p hp =>
    ⟨fun _ _ => trivial, hC p hp⟩

/-- The actor has applied the command and answered it, and the client returns that the actor is closed. -/
theorem applied_but_closed : ∃ ls st,
    (actorSystem 1 (callIn .new) 1).Reaches ActorShared.initial ls st ∧ Separate st.threads ∧
      (∃ th ∈ st.threads, th.arg = .client failing ∧ th.rest = Pure.pure (some .closed)) ∧
      ∃ before after, .begun failing before ∈ notes ls ∧ .finished failing none after ∈ notes ls ∧
        before.state = .new ∧ after.state = .failed := by
  have hrun := terminalRun_reaches .closed (C := fun _ _ => True) fun _ _ => trivial
  refine ⟨_, _, hrun.reaches, ?_, ?_, ?_⟩
  · show [none, some 0].Nodup
    decide
  · exact ⟨_, List.mem_cons_of_mem _ List.mem_cons_self, rfl, rfl⟩
  · refine ⟨callIn .new, { callIn .new with state := .failed }, ?_, ?_, rfl, rfl⟩
    · exact List.mem_cons_of_mem _ List.mem_cons_self
    · exact List.mem_cons_of_mem _ (List.mem_cons_of_mem _ (List.mem_cons_of_mem _ List.mem_cons_self))

/-- The same run with a client that takes its reply. -/
theorem transition_faithful_failing : ∃ before after,
    .begun failing before ∈ notes (System.labels (terminalRun (.reply none))) ∧
      .finished failing none after ∈ notes (System.labels (terminalRun (.reply none))) ∧
      after.state = .failed := by
  have hdone : ((System.labels (terminalRun (.reply none))).filterMap takesDone) = [] := rfl
  have hrun := terminalRun_reaches (.reply none) (C := PrefersReply) fun p hp result htakes => by
    have hmem : result ∈ (System.labels (terminalRun (.reply none))).filterMap takesDone :=
      List.mem_filterMap.mpr ⟨p.2, List.mem_map_of_mem hp, htakes⟩
    rw [hdone] at hmem
    cases hmem
  have hseparate : Separate (terminalRun (.reply none)).2.threads := by
    show [none, some 0].Nodup
    decide
  exact (transition_faithful 1 1 (callIn .new) _ _ hrun hseparate _
    (List.mem_cons_of_mem _ List.mem_cons_self) failing rfl none rfl).1 rfl

end AixvolinkPbx.Calls
